import CanonTree.Proofs.Conversion.Correctness

namespace CanonTree

namespace Canon.Builder

inductive Reachable : Builder → Prop where
  | empty : Reachable empty
  | push {b b' : Builder} {n : Node} {site : String} {i : Nat} :
      Reachable b → b.push n site = .ok (i, b') → Reachable b'
  | pop {b b' : Builder} {i : Nat} : Reachable b → b.pop = .ok (i, b') → Reachable b'

theorem Reachable.root_eq_none {b : Builder} (h : b.Reachable) : b.root = none ↔ b.size = 0 := by
  induction h with
  | empty => exact Iff.intro (fun _ => rfl) fun _ => rfl
  | @push b b' n site i _ hpush ih =>
    rw [Builder.push] at hpush
    split at hpush
    · cases hpush
    · cases hpush
      simp [size]
  | @pop b b' i _ hpop ih =>
    cases b with
    | mk arena stack root stack_lt root_lt =>
      cases stack with
      | nil => cases hpop
      | cons o rest =>
        cases hpop
        exact ih

/-- The second builder is the first with one tree more below its current node. -/
structure Framed (b b' : Builder) : Prop where
  stack : b'.stack = b.stack
  root : b'.root = if b.stack = [] then some b.size else b.root
  kept : ∀ (i : Nat) (e : Entry Node), b.arena.entries[i]? = some e → b'.arena.entries[i]? =
    some (if b.current? = some i then { e with children := e.children.push b.size } else e)
  first : ∃ e, b'.arena.entries[b.size]? = some e ∧ e.parent = b.current?
  later : ∀ (i : Nat) (e : Entry Node), b.size < i → b'.arena.entries[i]? = some e →
    ∃ p, e.parent = some p ∧ b.size ≤ p ∧ p < i

theorem Hangs.framed {r : Rose Node} {b b' : Builder} (h : Hangs [r] b b') (hb : b.Ready) :
    Framed b b' := by
  have hrows : b'.arena.rows =
      Entry.adoptAll b.current? [b.size] b.arena.rows ++ r.layout b.current? b.size := by
    simpa [Entry.graft, Rose.starts, Rose.layouts, Builder.size] using h.rows
  have hold : (Entry.adoptAll b.current? [b.size] b.arena.rows).length = b.size := by
    simp [Builder.size]
  have hnew : ∀ k, b'.arena.entries[b.size + k]? = (r.layout b.current? b.size)[k]? := by
    intro k
    rw [Arena.getElem?_entries, hrows, List.getElem?_append_right (by omega), hold,
      Nat.add_sub_cancel_left]
  refine ⟨h.stack, ?_, ?_, ?_, ?_⟩
  · rw [h.root, if_neg (by simp)]
    split
    · rename_i hs
      rw [hb.1 hs, Option.none_or]
    · rename_i hs
      rw [Option.or_of_isSome (by simpa [Option.isSome_iff_ne_none] using mt hb.2 hs)]
  · intro i e he
    have hi : i < b.size := (Array.getElem?_eq_some_iff.1 he).1
    rw [Arena.getElem?_entries, hrows, List.getElem?_append_left (by omega)]
    rw [Arena.getElem?_entries] at he
    cases hc : b.current? with
    | none => simpa [Entry.adoptAll] using he
    | some q =>
      simp only [Entry.adoptAll, List.getElem?_modify, he, Option.some.injEq]
      by_cases hq : q = i <;> simp [hq]
  · have hpos : 0 < (r.layout b.current? b.size).length := by
      rw [Rose.length_layout]
      exact r.size_pos
    have hz := hnew 0
    rw [List.getElem?_eq_getElem hpos] at hz
    have hp := Rose.parent_of_mem_layout b.current? b.size 0 r (List.getElem?_eq_getElem hpos)
    exact ⟨_, hz, hp⟩
  · intro i e hi he
    obtain ⟨k, rfl⟩ : ∃ k, i = b.size + (k + 1) := ⟨i - b.size - 1, by omega⟩
    rw [hnew] at he
    have hp := Rose.parent_of_mem_layout b.current? b.size (k + 1) r he
    rwa [if_neg (Nat.succ_ne_zero k)] at hp

end Canon.Builder

namespace Conversion

open Canon (Builder)

theorem ready_of_reachable {b : Builder} (h : b.Reachable) (ho : b.stack ≠ [] ∨ b.size = 0) :
    b.Ready := by
  have hroot := h.root_eq_none
  constructor
  · intro hs
    exact hroot.2 (ho.resolve_left fun hne => hne hs)
  · intro hr
    have hsize := hroot.1 hr
    cases hs : b.stack with
    | nil => rfl
    | cons o rest =>
      have ho := b.stack_lt o (by rw [hs]; exact List.mem_cons_self)
      have hz : b.arena.size = 0 := hsize
      omega

/-- The bracket law. Opening, reshaping and closing a subtree of any shape leaves a builder framed,
and only a fault of the syntax tree can keep it from that. -/
theorem add_framed (t : Syntax.Tree) (i : Nat) (hi : i < t.size) {b : Builder} (h : b.Reachable)
    (ho : b.stack ≠ [] ∨ b.size = 0) :
    (∀ b', add t.source (t.branch i hi) b = .ok b' → Builder.Framed b b') ∧
      ∀ e, add t.source (t.branch i hi) b = .error e →
        (∃ k r o, e = .missingChild k r o) ∨ ∃ k o, e = .unexpectedModifier k o := by
  have hb := ready_of_reachable h ho
  rw [converts t.source (t.branch i hi) b hb]
  cases hf : within (t.branch i hi) with
  | some f =>
    refine ⟨fun b' hb' => (nomatch hb'), fun e he => ?_⟩
    cases he
    exact error_of_within hf
  | none =>
    obtain ⟨b'', hplant, hhangs⟩ := plant_ok (image t.source (t.branch i hi)) hb
    simp only [guarded, hplant, Except.ok.injEq, reduceCtorEq, false_implies, implies_true,
      and_true]
    rintro b' rfl
    exact hhangs.framed hb

theorem add_framed_nestedChoice : ∃ t b b', nestedChoice.toTree = .ok t ∧
    Builder.empty.push (.inserted .block "" .unknown) site = .ok (0, b) ∧ b.stack ≠ [] ∧
    add t.source (t.branch t.root t.root_lt) b = .ok b' ∧ Builder.Framed b b' := by
  have h : nestedChoice.toTree.map (fun t => within t.trunk) = .ok none := by
    with_unfolding_all rfl
  cases ht : nestedChoice.toTree with
  | error e =>
    rw [ht] at h
    cases h
  | ok t =>
    rw [ht] at h
    have hpush : ∃ b, Builder.empty.push (.inserted .block "" .unknown) site = .ok (0, b) ∧
        b.stack ≠ [] := ⟨_, rfl, by simp⟩
    obtain ⟨b, hpush, hopen⟩ := hpush
    have hreach := Builder.Reachable.empty.push hpush
    obtain ⟨b', hb', -⟩ := plant_ok (image t.source t.trunk)
      (ready_of_reachable hreach (Or.inl hopen))
    have hadd : add t.source (t.branch t.root t.root_lt) b = .ok b' := by
      have hnone : within (t.branch t.root t.root_lt) = none := Except.ok.inj h
      rw [converts _ _ b (ready_of_reachable hreach (Or.inl hopen)), hnone]
      exact hb'
    exact ⟨t, b, b', rfl, hpush, hopen, hadd,
      (add_framed t t.root t.root_lt hreach (Or.inl hopen)).1 b' hadd⟩

end Conversion
end CanonTree
