import Mathlib.Data.List.Induction
import CanonTree.Proofs.Canon.Calls
import CanonTree.Proofs.Growth
import CanonTree.Proofs.Preorder

namespace CanonTree.Canon.Builder

open Entry (Stage Free graft)

inductive Call where
  | push (n : Node) (site : String)
  | pop

def call (b : Builder) : Call → Except Error (Nat × Builder)
  | .push n site => b.push n site
  | .pop => b.pop

/-- What the caller is left with. A call that fails answers an error and no builder, so that the
builder before it stays by definition; the calls of the program fail before they change anything. -/
def after (b : Builder) (c : Call) : Builder :=
  match b.call c with
  | .ok (_, b') => b'
  | .error _ => b

def made (past : List Call) : Builder := past.foldl after empty

theorem made_concat (past : List Call) (c : Call) : made (past ++ [c]) = (made past).after c := by
  simp [made]

/-- A push that succeeded: the calls before it, what was pushed, and the number it answered. -/
structure Opening where
  past : List Call
  node : Node
  site : String
  id : Nat

def opening? (past : List Call) : Call → Option Opening
  | .push n site => ((made past).push n site).toOption.map fun r => ⟨past, n, site, r.1⟩
  | .pop => none

def closing? (past : List Call) : Call → Option Nat
  | .push _ _ => none
  | .pop => (made past).pop.toOption.map (·.1)

def collect {β : Type} (f : List Call → Call → Option β) (past : List Call) :
    List Call → List β
  | [] => []
  | c :: cs => (f past c).toList ++ collect f (past ++ [c]) cs

def openings (calls : List Call) : List Opening := collect opening? [] calls

def closings (calls : List Call) : List Nat := collect closing? [] calls

theorem collect_append {β : Type} (f : List Call → Call → Option β) (past calls more : List Call) :
    collect f past (calls ++ more) = collect f past calls ++ collect f (past ++ calls) more := by
  induction calls generalizing past with
  | nil => simp [collect]
  | cons c calls ih => simp [collect, ih]

theorem openings_append (past more : List Call) :
    openings (past ++ more) = openings past ++ collect opening? past more :=
  collect_append opening? [] past more

theorem openings_concat (past : List Call) (c : Call) :
    openings (past ++ [c]) = openings past ++ (opening? past c).toList := by
  rw [openings_append, collect, collect, List.append_nil]

theorem closings_concat (past : List Call) (c : Call) :
    closings (past ++ [c]) = closings past ++ (closing? past c).toList := by
  rw [closings, collect_append, List.nil_append, collect, collect, List.append_nil]
  rfl

variable {b : Builder} {n : Node} {site : String} {i : Nat} {e : Error}

/-- Each open node was pushed on exactly those that are below it now. -/
inductive Stacked (os : List Opening) : List OpenNode → Prop
  | nil : Stacked os []
  | cons {o : OpenNode} {rest : List OpenNode} {p : Opening} : os[o.id]? = some p →
      p.site = o.site → (made p.past).stack = rest → Stacked os rest → Stacked os (o :: rest)

theorem Stacked.append {os : List Opening} {stack : List OpenNode} (h : Stacked os stack)
    (os' : List Opening) : Stacked (os ++ os') stack := by
  induction h with
  | nil => exact .nil
  | @cons o rest p hp hs hr _ ih =>
    have hlt := (List.getElem?_eq_some_iff.1 hp).1
    exact .cons (by rw [List.getElem?_append_left hlt, hp]) hs hr ih

/-- What the calls that succeeded say of the builder they lead to. -/
structure Recorded (past : List Call) : Prop where
  ids : (openings past).map (·.id) = List.range (made past).size
  rows : (made past).arena.rows.map (fun e => (e.value, e.parent)) =
    (openings past).map fun o => (o.node, (made o.past).current?)
  stacked : Stacked (openings past) (made past).stack
  descending : ((made past).stack.map (·.id)).Pairwise (· > ·)
  matched : ((made past).stack.map (·.id) ++ closings past).Perm (List.range (made past).size)
  stage : Stage ((made past).stack.map (·.id)) (made past).root (made past).arena.rows

theorem map_graft_leaf {α : Type} (p : Option Nat) (es : List (Entry α)) (v : α) :
    (graft p es [.node v []]).map (fun e => (e.value, e.parent)) =
      es.map (fun e => (e.value, e.parent)) ++ [(v, p)] := by
  have hold : (Entry.adoptAll p [es.length] es).map (fun e => (e.value, e.parent)) =
      es.map fun e => (e.value, e.parent) := by
    apply List.ext_getElem?
    intro i
    rw [List.getElem?_map, Entry.getElem?_adoptAll, Option.map_map, List.getElem?_map]
    congr 1
    funext e
    by_cases hq : p = some i <;> simp [hq]
  simp [graft, Rose.starts, Rose.layouts, Rose.layout, hold]

theorem recorded_nil : Recorded [] where
  ids := rfl
  rows := rfl
  stacked := .nil
  descending := .nil
  matched := .nil
  stage := .fresh

theorem recorded_push {past : List Call} (h : Recorded past)
    (hp : (made past).push n site = .ok (i, b)) : Recorded (past ++ [.push n site]) := by
  obtain ⟨hfree, hi, hstack, hroot, hrows⟩ := push_eq_ok hp
  have hmade : made (past ++ [.push n site]) = b := by
    rw [made_concat, after, call, hp]
  have hopen : openings (past ++ [.push n site]) = openings past ++ [⟨past, n, site, i⟩] := by
    rw [openings_concat, opening?, hp]
    rfl
  have hclose : closings (past ++ [.push n site]) = closings past := by
    rw [closings_concat, closing?]
    simp
  have hlen : (openings past).length = (made past).size := by
    simpa using congrArg List.length h.ids
  have hsize : b.size = (made past).size + 1 := by
    have := congrArg List.length hrows
    simpa [size, Rose.sizes, Rose.size] using this
  have hcur : (made past).current? = ((made past).stack.map (·.id)).head? := by
    simp [current?]
  have hlast : (openings past ++ [⟨past, n, site, i⟩])[(made past).size]? =
      some ⟨past, n, site, i⟩ := by
    rw [← hlen]
    simp
  constructor
  · rw [hopen, hmade, hsize, List.range_succ, ← h.ids, hi]
    simp
  · rw [hopen, hmade, hrows, map_graft_leaf, h.rows]
    simp
  · rw [hopen, hmade, hstack]
    exact .cons hlast rfl rfl (h.stacked.append _)
  · rw [hmade, hstack, List.map_cons, List.pairwise_cons]
    refine ⟨fun j hj => ?_, h.descending⟩
    obtain ⟨o, ho, rfl⟩ := List.mem_map.1 hj
    exact (made past).stack_lt o ho
  · rw [hclose, hmade, hstack, hsize, List.range_succ]
    exact (h.matched.cons _).trans (List.perm_append_singleton _ _).symm
  · rw [hmade, hstack, hroot, hrows, hcur, List.map_cons, size, ← Arena.length_rows]
    exact h.stage.start (h.stage.free fun hs => hfree (by simpa using hs)) n

theorem recorded_pop {past : List Call} (h : Recorded past) (hp : (made past).pop = .ok (i, b)) :
    Recorded (past ++ [.pop]) := by
  obtain ⟨⟨o, hstack, hi⟩, hroot, harena⟩ := pop_eq_ok hp
  have hmade : made (past ++ [.pop]) = b := by
    rw [made_concat, after, call, hp]
  have hopen : openings (past ++ [.pop]) = openings past := by
    rw [openings_concat, opening?]
    simp
  have hclose : closings (past ++ [.pop]) = closings past ++ [o.id] := by
    rw [closings_concat, closing?, hp, ← hi]
    rfl
  have hsize : b.size = (made past).size := by
    rw [size, harena, size]
  have hstacked := h.stacked
  have hdescending := h.descending
  have hmatched := h.matched
  have hstage := h.stage.finish
  rw [hstack] at hstacked hdescending hmatched hstage
  constructor
  · rw [hopen, hmade, hsize, h.ids]
  · rw [hopen, hmade, harena, h.rows]
  · rw [hopen, hmade]
    cases hstacked with
    | cons _ _ _ hrest => exact hrest
  · rw [hmade]
    exact (List.pairwise_cons.1 hdescending).2
  · rw [hclose, hmade, hsize, ← List.append_assoc]
    exact (List.perm_append_singleton _ _).trans hmatched
  · rw [hmade, hroot, harena]
    exact hstage

theorem recorded_failed {past : List Call} (h : Recorded past) {c : Call}
    (hc : (made past).call c = .error e) : Recorded (past ++ [c]) := by
  have hmade : made (past ++ [c]) = made past := by
    rw [made_concat, after, hc]
  have hopen : openings (past ++ [c]) = openings past := by
    rw [openings_concat]
    cases c with
    | push n site =>
      have hpush : (made past).push n site = .error e := hc
      rw [opening?, hpush]
      simp [Except.toOption]
    | pop => simp [opening?]
  have hclose : closings (past ++ [c]) = closings past := by
    rw [closings_concat]
    cases c with
    | push n site => simp [closing?]
    | pop =>
      have hpop : (made past).pop = .error e := hc
      rw [closing?, hpop]
      simp [Except.toOption]
  constructor
  · rw [hopen, hmade, h.ids]
  · rw [hopen, hmade, h.rows]
  · rw [hopen, hmade]
    exact h.stacked
  · rw [hmade]
    exact h.descending
  · rw [hclose, hmade]
    exact h.matched
  · rw [hmade]
    exact h.stage

theorem recorded (calls : List Call) : Recorded calls := by
  -- from the last call backwards, since a call answers what those before it have made
  induction calls using List.reverseRecOn with
  | nil => exact recorded_nil
  | append_singleton past c h =>
    cases hc : (made past).call c with
    | error e => exact recorded_failed h hc
    | ok r =>
      cases c with
      | push n site => exact recorded_push h hc
      | pop => exact recorded_pop h hc

theorem exists_push_of_mem_openings {calls : List Call} {o : Opening} (h : o ∈ openings calls) :
    ∃ b more, calls = o.past ++ .push o.node o.site :: more ∧
      (made o.past).push o.node o.site = .ok (o.id, b) := by
  induction calls using List.reverseRecOn with
  | nil => cases h
  | append_singleton past c ih =>
    rw [openings_concat, List.mem_append, Option.mem_toList] at h
    rcases h with h | h
    · obtain ⟨b, more, rfl, hb⟩ := ih h
      exact ⟨b, more ++ [c], by simp, hb⟩
    · cases c with
      | pop => cases h
      | push n site =>
        cases hp : (made past).push n site with
        | error e =>
          rw [opening?, hp] at h
          cases h
        | ok r =>
          rw [opening?, hp] at h
          cases h
          exact ⟨r.2, [], rfl, hp⟩

end CanonTree.Canon.Builder
