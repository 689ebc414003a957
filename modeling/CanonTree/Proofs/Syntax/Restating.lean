import CanonTree.Proofs.Json.Written
import CanonTree.Proofs.Syntax.Fields
import Mathlib.Logic.Relation

namespace CanonTree.Syntax

open Json (Found Lexeme Problem Raw Reader Rephrased Spells)
open List (Forall₂)

/-- A member that says of a node what is assumed without it. -/
inductive SaysDefault : String → Raw → Prop where
  | offset {key : String} : key ∈ ["start", "length"] →
      SaysDefault key (.number { negative := true, whole := [1] })
  | role {l : Lexeme} : l.text = .ok "other" → SaysDefault "role" (.string l)
  | variant {l : Lexeme} : l.text = .ok "other" →
      SaysDefault "role" (.object [(l, .null)] .closed)
  | token : SaysDefault "token" .null
  | flag {key : String} : key ∈ ["is_static", "is_on_demand", "is_interface", "is_default"] →
      SaysDefault key (.bool false)
  | children : SaysDefault "children" (.array [] .closed)

/-- A node that is rephrased somewhere, or lacks a member of it or of a node below it that is
unknown or says a default. -/
inductive RestatedNode : Raw → Raw → Prop where
  | rephrased {r r' : Raw} : Rephrased r r' → RestatedNode r r'
  | dropped {ms ns : List (Lexeme × Raw)} {k : Lexeme} {v : Raw} {e : Json.Ending} {key : String} :
      k.text = .ok key → key ∉ nodeKeys ∨ SaysDefault key v →
      RestatedNode (.object (ms ++ (k, v) :: ns) e) (.object (ms ++ ns) e)
  | child {ms ns : List (Lexeme × Raw)} {k : Lexeme} {vs ws : List Raw} {v v' : Raw}
      {e e' : Json.Ending} : k.text = .ok "children" → RestatedNode v v' →
      RestatedNode (.object (ms ++ (k, .array (vs ++ v :: ws) e') :: ns) e)
        (.object (ms ++ (k, .array (vs ++ v' :: ws) e') :: ns) e)

/-- A document that is rephrased somewhere, lacks a member that is unknown or an empty source, or
whose root is restated. -/
inductive RestatedDocument : Raw → Raw → Prop where
  | rephrased {r r' : Raw} : Rephrased r r' → RestatedDocument r r'
  | unknown {ms ns : List (Lexeme × Raw)} {k : Lexeme} {v : Raw} {e : Json.Ending} {key : String} :
      k.text = .ok key → key ∉ Document.keys →
      RestatedDocument (.object (ms ++ (k, v) :: ns) e) (.object (ms ++ ns) e)
  | source {ms ns : List (Lexeme × Raw)} {k l : Lexeme} {e : Json.Ending} :
      k.text = .ok "source" → l.text = .ok "" →
      RestatedDocument (.object (ms ++ (k, .string l) :: ns) e) (.object (ms ++ ns) e)
  | root {ms ns : List (Lexeme × Raw)} {k : Lexeme} {v v' : Raw} {e : Json.Ending} :
      k.text = .ok "root" → RestatedNode v v' →
      RestatedDocument (.object (ms ++ (k, v) :: ns) e) (.object (ms ++ (k, v') :: ns) e)
  | second {s v v' : Raw} {e : Json.Ending} : RestatedNode v v' →
      RestatedDocument (.array [s, v] e) (.array [s, v'] e)

/-- The texts differ in blanks and the spelling of escapes at most, or one is a restatement of the
other besides. -/
def Restated (text text' : String) : Prop :=
  ∃ r r', Spells r text.toList ∧ Spells r' text'.toList ∧ (r = r' ∨ RestatedDocument r r')

theorem values_append (key : String) (ms ns : List (Lexeme × Raw)) :
    values Lexeme.key? key (ms ++ ns) = values Lexeme.key? key ms ++ values Lexeme.key? key ns :=
  List.filterMap_append

namespace Described

variable {tells : String → Raw → Prop} {omitted : String → Prop} {keys : List String}
  {ms ns : List (Lexeme × Raw)} {k k' : Lexeme} {v v' : Raw}

theorem perm (h : Described tells omitted keys ms) {ms' : List (Lexeme × Raw)}
    (hms : ms.Perm ms') : Described tells omitted keys ms' := by
  have hvalues : ∀ key, (values Lexeme.key? key ms).Perm (values Lexeme.key? key ms') :=
    fun key => hms.filterMap _
  refine ⟨fun m hm => h.tells m (hms.mem_iff.2 hm), fun key hkey => ?_, fun key hkey hnil => ?_⟩
  · exact (hvalues key).length_eq ▸ h.once key hkey
  · exact h.omitted key hkey (List.perm_nil.1 (hnil ▸ hvalues key))

theorem replace (h : Described tells omitted keys (ms ++ (k, v) :: ns)) (hk : k.text = k'.text)
    (hv : ∀ key, k.text = .ok key → tells key v → tells key v') :
    Described tells omitted keys (ms ++ (k', v') :: ns) := by
  obtain ⟨htells, honce, homitted⟩ := h
  have hname : k'.key? = k.key? := by rw [Lexeme.key?, Lexeme.key?, hk]
  have hlength : ∀ key, (values Lexeme.key? key (ms ++ (k', v') :: ns)).length =
      (values Lexeme.key? key (ms ++ (k, v) :: ns)).length := by
    intro key
    rw [values_append, values_append, values_cons, values_cons, hname]
    split <;> simp
  rw [List.forall_mem_append, List.forall_mem_cons] at htells
  obtain ⟨hms, ⟨key, hkey, htell⟩, hns⟩ := htells
  refine ⟨?_, fun key hkey => ?_, fun key hkey hnil => ?_⟩
  · rw [List.forall_mem_append, List.forall_mem_cons]
    exact ⟨hms, ⟨key, hk ▸ hkey, hv key hkey htell⟩, hns⟩
  · exact hlength key ▸ honce key hkey
  · refine homitted key hkey (List.length_eq_zero_iff.1 ?_)
    rw [← hlength, hnil, List.length_nil]

theorem drop (h : Described tells omitted keys (ms ++ (k, v) :: ns)) {key : String}
    (hk : k.text = .ok key) (hv : key ∈ keys → tells key v → omitted key) :
    Described tells omitted keys (ms ++ ns) := by
  obtain ⟨htells, honce, homitted⟩ := h
  have hname : k.key? = some key := Lexeme.key?_eq_some.2 hk
  rw [List.forall_mem_append, List.forall_mem_cons] at htells
  obtain ⟨hms, ⟨key', hk', htell⟩, hns⟩ := htells
  cases hk.symm.trans hk'
  have hsub : (ms ++ ns).Sublist (ms ++ (k, v) :: ns) :=
    (List.sublist_cons_self (k, v) ns).append_left ms
  refine ⟨List.forall_mem_append.2 ⟨hms, hns⟩, fun own hown => ?_, fun own hown hnil => ?_⟩
  · exact (hsub.filterMap _).length_le.trans (honce own hown)
  · by_cases hkey : key = own
    · exact hkey ▸ hv (hkey ▸ hown) htell
    · refine homitted own hown ?_
      rwa [values_append, values_cons, if_neg (by simpa [hname] using hkey), ← values_append]

end Described

theorem readNodes_eq_ok {room : Nat} {vs : List Raw} {cs : List (Rose DocNode)} :
    readNodes room vs = .ok cs ↔ Forall₂ (fun v c => readNode room v = .ok c) vs cs := by
  induction vs generalizing cs with
  | nil => simp [readNodes, eq_comm]
  | cons v vs ih =>
    simp [readNodes, bind_eq_ok, ih, List.forall₂_cons_left_iff, pure, Except.pure, @eq_comm _ cs]

theorem readChildren_eq_ok {room : Nat} {vs : List Raw} {e : Json.Ending}
    {cs : List (Rose DocNode)} : readChildren room (.array vs e) = .ok cs ↔ room ≠ 0 ∧
      Forall₂ (fun v c => readNode (room - 1) v = .ok c) vs cs ∧ e.problem? = none := by
  simp [readChildren, unless_eq_ok, bind_eq_ok, Unique.exists_iff, readNodes_eq_ok,
    Json.orProblem_eq_ok, pure, Except.pure]

theorem forall₂_replace {R : Raw → Rose DocNode → Prop} {vs ws : List Raw} {v v' : Raw}
    {cs : List (Rose DocNode)} (h : Forall₂ R (vs ++ v :: ws) cs)
    (hv : ∀ c, R v c → R v' c) : Forall₂ R (vs ++ v' :: ws) cs := by
  induction vs generalizing cs with
  | nil =>
    cases h with
    | cons hc hcs => exact .cons (hv _ hc) hcs
  | cons u vs ih =>
    cases h with
    | cons hc hcs => exact .cons hc (ih hcs)

theorem readChildren_replace {room : Nat} {vs ws : List Raw} {v v' : Raw} {e : Json.Ending}
    {cs : List (Rose DocNode)} (h : readChildren room (.array (vs ++ v :: ws) e) = .ok cs)
    (hv : ∀ room c, readNode room v = .ok c → readNode room v' = .ok c) :
    readChildren room (.array (vs ++ v' :: ws) e) = .ok cs := by
  obtain ⟨hroom, hvs, hend⟩ := readChildren_eq_ok.1 h
  exact readChildren_eq_ok.2 ⟨hroom, forall₂_replace hvs (hv _), hend⟩

theorem exists_object_of_readNode {room : Nat} {r : Raw} {c : Rose DocNode}
    (h : readNode room r = .ok c) : ∃ ms e, r = .object ms e := by
  cases r with
  | object ms e => exact ⟨ms, e, rfl⟩
  | _ => simp [readNode, bind_eq_ok, Json.unexpected] at h

theorem exists_array_of_readChildren {room : Nat} {r : Raw} {cs : List (Rose DocNode)}
    (h : readChildren room r = .ok cs) : ∃ vs e, r = .array vs e := by
  cases r with
  | array vs e => exact ⟨vs, e, rfl⟩
  | _ => simp [readChildren, bind_eq_ok, Json.unexpected] at h

theorem null_of_found {v : Raw} {u : Unit} (h : (v.found >>= Reader.Take.unit) = .ok u) :
    v = .null := by
  obtain ⟨f, hf, hunit⟩ := bind_eq_ok.1 h
  have hnull : f = .null := by
    cases f with
    | null => rfl
    | _ => cases hunit
  subst hnull
  cases v with
  | null => rfl
  | number n =>
    rw [Raw.found, Json.Numeral.found] at hf
    split at hf
    · cases hf
    · split at hf <;> cases hf
  | string l => cases hl : l.text <;> simp [Raw.found, hl, Except.map] at hf
  | _ => cases hf

theorem named_eq_ok {α : Type} {o : Option α} {p : Problem} {a : α} :
    (match o with | some a => .ok a | none => .error p : Except Problem α) = .ok a ↔
      o = some a := by
  cases o <;> simp

/-- Other members that describe what these do make the same node. -/
theorem readNode_of_described {ms ms' : List (Lexeme × Raw)}
    (hms : ∀ {room d cs}, Described (Tells room d cs) (Omitted d cs) nodeKeys ms →
      Described (Tells room d cs) (Omitted d cs) nodeKeys ms') {room : Nat} {e : Json.Ending}
    {c : Rose DocNode} (h : readNode room (.object ms e) = .ok c) :
    readNode room (.object ms' e) = .ok c := by
  obtain ⟨d, cs⟩ := c
  obtain ⟨hroom, hend, hdescribed⟩ := readNode_eq_ok.1 h
  exact readNode_eq_ok.2 ⟨hroom, hend, hms hdescribed⟩

theorem role_eq_ok {room : Nat} {v : Raw} {a : Role} : Role.read room v = .ok a ↔
    ∃ l name, l.text = .ok name ∧ Role.ofSpelling? name = some a ∧
      (v = .string l ∨ v = .object [(l, .null)] .closed ∧ room ≠ 0) := by
  cases v with
  | string l =>
    refine (bind_eq_ok.trans
      (exists_congr fun name => and_congr_right fun _ => named_eq_ok)).trans ?_
    simp
  | object ms e =>
    refine unless_eq_ok.trans ?_
    match ms, e with
    | [], .stray rest => simp [bind_eq_ok, Json.unexpected]
    | [], .closed | [], .cut | [], .comma _ => simp [throw, throwThe, MonadExceptOf.throw]
    | (k, w) :: m :: ms, e => simp [bind_eq_ok, throw, throwThe, MonadExceptOf.throw]
    | [(k, w)], .cut | [(k, w)], .comma _ | [(k, w)], .stray _ =>
      simp [bind_eq_ok, throw, throwThe, MonadExceptOf.throw]
    | [(k, w)], .closed =>
      constructor
      · rintro ⟨hroom, h⟩
        obtain ⟨b, hb, h⟩ := bind_eq_ok.1 h
        obtain ⟨name, hname, hnamed⟩ := bind_eq_ok.1 hb
        obtain ⟨u, hunit, hpure⟩ := bind_eq_ok.1 h
        cases null_of_found hunit
        cases hpure
        exact ⟨k, name, hname, named_eq_ok.1 hnamed, .inr ⟨rfl, hroom⟩⟩
      · rintro ⟨l, name, hname, hspelling, h | ⟨h, hroom⟩⟩
        · cases h
        · cases h
          exact ⟨hroom,
            bind_eq_ok.2 ⟨a, bind_eq_ok.2 ⟨name, hname, named_eq_ok.2 hspelling⟩, rfl⟩⟩
  | _ => simp [Role.read, Reader.variant, throw, throwThe, MonadExceptOf.throw]

theorem singleton_eq_append {α : Type} {as bs : List α} {a b : α} (h : [a] = as ++ b :: bs) :
    as = [] ∧ a = b ∧ bs = [] := by
  cases as <;> simp_all

theorem role_rephrased {r r' : Raw} (h : Rephrased r r') {room : Nat} {a : Role}
    (hr : Role.read room r = .ok a) : Role.read room r' = .ok a := by
  obtain ⟨l, name, hname, hspelling, rfl | ⟨rfl, hroom⟩⟩ := role_eq_ok.1 hr
  · cases h with
    | @string _ l' hl => exact role_eq_ok.2 ⟨l', name, hl.text_eq ▸ hname, hspelling, .inl rfl⟩
  · generalize hms : [(l, Raw.null)] = ms at h
    -- The only member has null as its value, in which nothing can be rephrased.
    cases h with
    | key hk =>
      obtain ⟨rfl, hmember, rfl⟩ := singleton_eq_append hms
      cases hmember
      exact role_eq_ok.2 ⟨_, name, hk.text_eq ▸ hname, hspelling, .inr ⟨rfl, hroom⟩⟩
    | order hperm =>
      rw [← hms, List.singleton_perm] at hperm
      rwa [← hperm]
    | member hv =>
      obtain ⟨-, hmember, -⟩ := singleton_eq_append hms
      cases hmember
      cases hv

theorem checked_rephrased {α : Type} {r r' : Raw} (h : Rephrased r r') {room : Nat}
    {take : Found → Except Problem α} {x : α} (hr : (r.checked room >>= take) = .ok x) :
    (r'.checked room >>= take) = .ok x := by
  obtain ⟨f, hf, htake⟩ := bind_eq_ok.1 hr
  exact bind_eq_ok.2 ⟨f, h.checked hf, htake⟩

theorem Tells.rephrased {r r' : Raw} (h : Rephrased r r')
    (hchildren : ∀ room cs, readChildren room r = .ok cs → readChildren room r' = .ok cs)
    {room : Nat} {d : DocNode} {cs : List (Rose DocNode)} {key : String}
    (hr : Tells room d cs key r) : Tells room d cs key r' := by
  rw [Tells.eq_def] at hr ⊢
  rw [← h.found]
  split at hr
  · exact hr
  · exact hr
  · exact hr
  · exact role_rephrased h hr
  · exact hchildren room cs hr
  · exact checked_rephrased h hr
  · exact checked_rephrased h hr
  · exact checked_rephrased h hr
  · exact checked_rephrased h hr
  · exact checked_rephrased h hr
  · obtain ⟨f, hf⟩ := hr
    exact ⟨f, h.checked hf⟩

/-- What is read from a value is read from it if it is rephrased. -/
theorem read_rephrased {r r' : Raw} (h : Rephrased r r') :
    (∀ room c, readNode room r = .ok c → readNode room r' = .ok c) ∧
      ∀ room cs, readChildren room r = .ok cs → readChildren room r' = .ok cs := by
  have hobject : ∀ {ms e room cs}, readChildren room (.object ms e) ≠ .ok cs := by
    intro ms e room cs hr
    obtain ⟨vs, e', hr⟩ := exists_array_of_readChildren hr
    cases hr
  -- Nodes stand in lists and lists in nodes, so that neither half goes through by itself.
  induction h with
  | string hl =>
    refine ⟨fun room c hr => ?_, fun room cs hr => ?_⟩
    · obtain ⟨ms, e, hr⟩ := exists_object_of_readNode hr
      cases hr
    · obtain ⟨vs, e, hr⟩ := exists_array_of_readChildren hr
      cases hr
  | key hk =>
    exact ⟨fun room c => readNode_of_described fun hms => hms.replace hk.text_eq fun _ _ ht => ht,
      fun room cs hr => absurd hr hobject⟩
  | order hperm =>
    exact ⟨fun room c => readNode_of_described fun hms => hms.perm hperm,
      fun room cs hr => absurd hr hobject⟩
  | item _ ih =>
    refine ⟨fun room c hr => ?_, fun room cs hr => readChildren_replace hr ih.1⟩
    obtain ⟨ms, e, hr⟩ := exists_object_of_readNode hr
    cases hr
  | member hv ih =>
    exact ⟨fun room c => readNode_of_described fun hms =>
        hms.replace rfl fun _ _ ht => ht.rephrased hv ih.2,
      fun room cs hr => absurd hr hobject⟩

theorem role_other {l : Lexeme} {v : Raw} (hl : l.text = .ok "other")
    (hv : v = .string l ∨ v = .object [(l, .null)] .closed) {room : Nat} {a : Role}
    (h : Role.read room v = .ok a) : a = .other := by
  obtain ⟨l', name, hname, hspelling, hv'⟩ := role_eq_ok.1 h
  have hll : l' = l := by
    rcases hv with rfl | rfl <;> rcases hv' with hv' | ⟨hv', -⟩ <;> cases hv' <;> rfl
  subst hll
  cases hl.symm.trans hname
  exact (Option.some.inj hspelling).symm

theorem SaysDefault.omitted {key : String} {v : Raw} (h : SaysDefault key v) {room : Nat}
    {d : DocNode} {cs : List (Rose DocNode)} (ht : Tells room d cs key v) : Omitted d cs key := by
  cases h with
  | offset hkey =>
    simp only [List.mem_cons, List.not_mem_nil, or_false] at hkey
    rcases hkey with rfl | rfl <;> exact (Except.ok.inj ht).symm
  | role hl => exact role_other hl (.inl rfl) ht
  | variant hl => exact role_other hl (.inr rfl) ht
  | token => exact (Except.ok.inj ht).symm
  | flag hkey =>
    simp only [List.mem_cons, List.not_mem_nil, or_false] at hkey
    rcases hkey with rfl | rfl | rfl | rfl <;> exact (Except.ok.inj ht).symm
  | children =>
    obtain ⟨-, hcs, -⟩ := readChildren_eq_ok.1 ht
    exact List.forall₂_nil_left_iff.1 hcs

theorem RestatedNode.readNode {r r' : Raw} (h : RestatedNode r r') {room : Nat} {c : Rose DocNode}
    (hr : readNode room r = .ok c) : Syntax.readNode room r' = .ok c := by
  induction h generalizing room c with
  | rephrased h => exact (read_rephrased h).1 room c hr
  | dropped hk hv =>
    refine readNode_of_described (fun hms => hms.drop hk fun hkey ht => ?_) hr
    rcases hv with hv | hv
    · exact absurd hkey hv
    · exact hv.omitted ht
  | child hk _ ih =>
    refine readNode_of_described (fun hms => hms.replace rfl fun key hkey ht => ?_) hr
    cases hk.symm.trans hkey
    exact readChildren_replace ht fun room c hc => ih hc

theorem whole_of_take {α : Type} {take : Found → Except Problem α} {v : Raw} {x : α}
    (h : (v.found >>= take) = .ok x) (hsequence : ∃ e, take .sequence = .error e)
    (hmap : ∃ e, take .map = .error e) : v.Whole := by
  obtain ⟨f, hf, htake⟩ := bind_eq_ok.1 h
  obtain ⟨e, he⟩ := hsequence
  obtain ⟨e', he'⟩ := hmap
  refine Raw.whole_of_found hf ?_ ?_
  · rintro rfl
    cases he.symm.trans htake
  · rintro rfl
    cases he'.symm.trans htake

theorem whole_of_role {room : Nat} {v : Raw} {a : Role} (h : Role.read room v = .ok a) :
    v.Whole := by
  obtain ⟨l, name, hname, -, rfl | ⟨rfl, -⟩⟩ := role_eq_ok.1 h
  · exact Json.stop_of_text hname
  · exact Json.whole_object.2 ⟨by simpa using ⟨Json.stop_of_text hname, trivial⟩, rfl⟩

theorem Tells.whole {room : Nat} {d : DocNode} {cs : List (Rose DocNode)} {key : String} {v : Raw}
    (hchildren : readChildren room v = .ok cs → v.Whole) (h : Tells room d cs key v) :
    v.Whole := by
  by_cases hkey : key ∈ ownKeys
  · simp only [ownKeys, List.mem_cons, List.not_mem_nil, or_false] at hkey
    rcases hkey with rfl | rfl | rfl | rfl | rfl
    · exact whole_of_take h ⟨_, rfl⟩ ⟨_, rfl⟩
    · exact whole_of_take h ⟨_, rfl⟩ ⟨_, rfl⟩
    · exact whole_of_take h ⟨_, rfl⟩ ⟨_, rfl⟩
    · exact whole_of_role h
    · exact hchildren h
  · obtain ⟨f, hf⟩ := h.checked hkey
    exact Raw.whole_of_checked hf

theorem exists_of_forall₂ {R : Raw → Rose DocNode → Prop} {vs : List Raw}
    {cs : List (Rose DocNode)} (h : Forall₂ R vs cs) : ∀ v ∈ vs, ∃ c, R v c := by
  induction h with
  | nil => simp
  | cons hc _ ih => exact List.forall_mem_cons.2 ⟨⟨_, hc⟩, ih⟩

theorem whole_of_readNode {room : Nat} {r : Raw} {c : Rose DocNode} (h : readNode room r = .ok c) :
    r.Whole := by
  obtain ⟨ms, e, rfl⟩ := exists_object_of_readNode h
  obtain ⟨d, cs⟩ := c
  obtain ⟨hroom, hend, hms⟩ := readNode_eq_ok.1 h
  refine Json.whole_object.2 ⟨fun m hm => ?_, Json.problem?_eq_none.1 hend⟩
  obtain ⟨key, hk, ht⟩ := hms.tells m hm
  refine ⟨Json.stop_of_text hk, ht.whole fun hcs => ?_⟩
  obtain ⟨vs, e, heq⟩ := exists_array_of_readChildren hcs
  rw [heq] at hcs ⊢
  obtain ⟨-, hvs, hend⟩ := readChildren_eq_ok.1 hcs
  refine Json.whole_array.2 ⟨fun v hv => ?_, Json.problem?_eq_none.1 hend⟩
  -- Below, there is less room by the object and the list.
  obtain ⟨c, hc⟩ := exists_of_forall₂ hvs v hv
  exact whole_of_readNode hc
termination_by room

namespace Document

theorem Tells.rephrased {r r' : Raw} (h : Rephrased r r') {room : Nat} {d : Document}
    {key : String} (hr : Document.Tells room d key r) : Document.Tells room d key r' := by
  rw [Tells.eq_def] at hr ⊢
  rw [← h.found]
  split at hr
  · exact hr
  · exact (read_rephrased h).1 room d.root hr
  · exact h.whole hr

theorem Tells.whole {v : Raw} {room : Nat} {d : Document} {key : String}
    (h : Document.Tells room d key v) : v.Whole := by
  rw [Tells.eq_def] at h
  split at h
  · exact whole_of_take h ⟨_, rfl⟩ ⟨_, rfl⟩
  · exact whole_of_readNode h
  · exact h

theorem read_of_described {ms ms' : List (Lexeme × Raw)}
    (hms : ∀ {room d}, Described (Tells room d) (Omitted d) keys ms →
      Described (Tells room d) (Omitted d) keys ms') {room : Nat} {e : Json.Ending} {d : Document}
    (h : documentRecord.read room (.object ms e) = .ok d) :
    documentRecord.read room (.object ms' e) = .ok d := by
  obtain ⟨hroom, hend, hdescribed⟩ := read_object.1 h
  exact read_object.2 ⟨hroom, hend, hms hdescribed⟩

theorem restated_rephrased {r r' : Raw} (h : Rephrased r r') {room : Nat} {d : Document}
    (hr : documentRecord.read room r = .ok d) : documentRecord.read room r' = .ok d := by
  cases h with
  | string => simp [Json.Record.read, bind_eq_ok, Json.unexpected] at hr
  | key hk => exact read_of_described (fun hms => hms.replace hk.text_eq fun _ _ ht => ht) hr
  | order hperm => exact read_of_described (fun hms => hms.perm hperm) hr
  | @item vs ws v v' e hv =>
    obtain ⟨hroom, hend, s, r, hvs, hs, hroot⟩ := read_array.1 hr
    cases vs with
    | nil =>
      cases hvs
      exact read_array.2 ⟨hroom, hend, v', r, rfl, hv.found ▸ hs, hroot⟩
    | cons u us =>
      cases us with
      | nil =>
        cases hvs
        exact read_array.2 ⟨hroom, hend, s, v', rfl, hs, (read_rephrased hv).1 _ _ hroot⟩
      | cons _ _ => simp at hvs
  | member hv =>
    exact read_of_described (fun hms => hms.replace rfl fun _ _ ht => ht.rephrased hv) hr

end Document

theorem RestatedDocument.read {r r' : Raw} (h : RestatedDocument r r') {room : Nat} {d : Document}
    (hr : documentRecord.read room r = .ok d) : documentRecord.read room r' = .ok d := by
  cases h with
  | rephrased h => exact Document.restated_rephrased h hr
  | unknown hk hkey =>
    exact Document.read_of_described (fun hms => hms.drop hk fun h => absurd h hkey) hr
  | source hk hl =>
    refine Document.read_of_described (fun hms => hms.drop hk fun _ ht => ?_) hr
    obtain ⟨f, hf, htake⟩ := bind_eq_ok.1 ht
    rw [Raw.found, hl] at hf
    cases hf
    exact (Except.ok.inj htake).symm
  | root hk hv =>
    refine Document.read_of_described (fun hms => hms.replace rfl fun key hkey ht => ?_) hr
    cases hk.symm.trans hkey
    exact hv.readNode ht
  | second hv =>
    obtain ⟨hroom, hend, s, r, hvs, hs, hr⟩ := Document.read_array.1 hr
    cases hvs
    exact Document.read_array.2 ⟨hroom, hend, _, _, rfl, hs, hv.readNode hr⟩

theorem whole_of_document {room : Nat} {r : Raw} {d : Document}
    (h : documentRecord.read room r = .ok d) : r.Whole := by
  cases r with
  | object ms e =>
    obtain ⟨-, hend, hms⟩ := Document.read_object.1 h
    refine Json.whole_object.2 ⟨fun m hm => ?_, Json.problem?_eq_none.1 hend⟩
    obtain ⟨key, hk, ht⟩ := hms.tells m hm
    exact ⟨Json.stop_of_text hk, ht.whole⟩
  | array vs e =>
    obtain ⟨-, rfl, s, r, rfl, hs, hr⟩ := Document.read_array.1 h
    have hsource := whole_of_take hs ⟨_, rfl⟩ ⟨_, rfl⟩
    exact Json.whole_array.2 ⟨by simpa using ⟨hsource, whole_of_readNode hr⟩, rfl⟩
  | _ => simp [Json.Record.read, bind_eq_ok, Json.unexpected] at h

theorem Document.read_eq_ok {text : String} {d : Document} : Document.read text = .ok d ↔
    ∃ r, Spells r text.toList ∧ documentRecord.read Json.maxDepth r = .ok d := by
  rw [Document.read, Json.Reader.run_eq_ok]
  constructor
  · rintro ⟨hd, hblank⟩
    exact ⟨_, Json.spells_iff.2 ⟨whole_of_document hd, rfl, hblank⟩, hd⟩
  · rintro ⟨r, hr, hd⟩
    obtain ⟨-, rfl, hblank⟩ := Json.spells_iff.1 hr
    exact ⟨hd, hblank⟩

theorem Tree.ofJson_eq_ok {text : String} {t : Tree} : Tree.ofJson text = .ok t ↔
    ∃ d, Document.read text = .ok d ∧ d.toTree = .ok t := by
  rw [Tree.ofJson]
  cases Document.read text <;> simp [Except.mapError, bind, Except.bind]

theorem Restated.read {text text' : String} (h : Restated text text') {d : Document}
    (hd : Document.read text = .ok d) : Document.read text' = .ok d := by
  obtain ⟨r, r', hr, hr', hrestated⟩ := h
  obtain ⟨q, hq, hread⟩ := Document.read_eq_ok.1 hd
  obtain ⟨-, rfl, -⟩ := Json.spells_iff.1 hr
  obtain ⟨-, rfl, -⟩ := Json.spells_iff.1 hq
  refine Document.read_eq_ok.2 ⟨r', hr', ?_⟩
  rcases hrestated with rfl | hrestated
  · exact hread
  · exact hrestated.read hread

namespace Tree

/-- A text that is accepted spells a value, and every restatement of it is accepted and makes the
same tree. -/
theorem ofJson_restated {text : String} {t : Tree} (h : ofJson text = .ok t) :
    (∃ r, Spells r text.toList) ∧
    ∀ text', Relation.ReflTransGen Restated text text' → ofJson text' = .ok t := by
  obtain ⟨d, hd, ht⟩ := ofJson_eq_ok.1 h
  obtain ⟨r, hr, -⟩ := Document.read_eq_ok.1 hd
  refine ⟨⟨r, hr⟩, fun text' hrestated => ofJson_eq_ok.2 ⟨d, ?_, ht⟩⟩
  induction hrestated with
  | refl => exact hd
  | tail _ hstep ih => exact hstep.read ih

def lone (ms : List (Lexeme × Raw)) : Raw := .object [(.of "root", .object ms .closed)] .closed

def block (k : Lexeme) : Lexeme × Raw := (k, .string (.of "Block"))

def unknownStart : Lexeme × Raw := (.of "start", .number { negative := true, whole := [1] })

def remark : Lexeme × Raw := (.of "token", .string (.of "x"))

def escapedKind : Lexeme := ⟨[.unit 0x6b, .char 'i', .char 'n', .char 'd'], none⟩

/-- A default is left out, two members change places, and a key is spelled with an escape, between
blanks. -/
theorem ofJson_restated_block : ∃ t,
    ofJson "\x7b\"root\":\x7b\"start\":-1,\"kind\":\"Block\",\"token\":\"x\"\x7d\x7d" = .ok t ∧
    ofJson "\x7b\"root\" : \x7b\"token\":\"x\",\"\\u006bind\":\"Block\"\x7d \x7d" = .ok t := by
  have hspells : ∀ {r text}, Raw.read text = (r, []) → r.Whole → Spells r text := by
    intro r text hread hwhole
    exact Json.spells_iff.2 ⟨hwhole, by rw [hread], by rw [hread]; nofun⟩
  have hfull : Spells (lone [unknownStart, block (.of "kind"), remark])
      "\x7b\"root\":\x7b\"start\":-1,\"kind\":\"Block\",\"token\":\"x\"\x7d\x7d".toList :=
    hspells (by cbv) (by cbv)
  have hshort : Spells (lone [block (.of "kind"), remark])
      "\x7b\"root\":\x7b\"kind\":\"Block\",\"token\":\"x\"\x7d\x7d".toList :=
    hspells (by cbv) (by cbv)
  have hswapped : Spells (lone [remark, block (.of "kind")])
      "\x7b\"root\":\x7b\"token\":\"x\",\"kind\":\"Block\"\x7d\x7d".toList :=
    hspells (by cbv) (by cbv)
  have hescaped : Spells (lone [remark, block escapedKind])
      "\x7b\"root\" : \x7b\"token\":\"x\",\"\\u006bind\":\"Block\"\x7d \x7d".toList :=
    hspells (by cbv) (by cbv)
  have hroot : ∀ {ms ms'}, RestatedNode (.object ms .closed) (.object ms' .closed) →
      RestatedDocument (lone ms) (lone ms') := fun {ms ms'} h =>
    show RestatedDocument (.object ([] ++ (.of "root", .object ms .closed) :: []) .closed)
      (.object ([] ++ (.of "root", .object ms' .closed) :: []) .closed) from .root (by cbv) h
  have hdrop : RestatedNode (.object ([] ++ unknownStart :: [block (.of "kind"), remark]) .closed)
      (.object ([] ++ [block (.of "kind"), remark]) .closed) :=
    .dropped (by cbv) (.inr (.offset (by decide)))
  have hswap : RestatedNode (.object [block (.of "kind"), remark] .closed)
      (.object [remark, block (.of "kind")] .closed) :=
    .rephrased (.order (.swap _ _ _))
  have hescape : RestatedNode (.object ([remark] ++ block (.of "kind") :: []) .closed)
      (.object ([remark] ++ block escapedKind :: []) .closed) :=
    .rephrased (.key ⟨by cbv, by cbv⟩)
  have hok : ∀ {x : Except Error Tree}, x.isOk → ∃ t, x = .ok t := by
    rintro (_ | t) h
    · cases h
    · exact ⟨t, rfl⟩
  have hloaded : (ofJson
      "\x7b\"root\":\x7b\"start\":-1,\"kind\":\"Block\",\"token\":\"x\"\x7d\x7d").isOk := by
    decide +kernel
  obtain ⟨t, ht⟩ := hok hloaded
  refine ⟨t, ht, (ofJson_restated ht).2 _ ?_⟩
  exact ((Relation.ReflTransGen.single ⟨_, _, hfull, hshort, .inr (hroot hdrop)⟩).tail
    ⟨_, _, hshort, hswapped, .inr (hroot hswap)⟩).tail
    ⟨_, _, hswapped, hescaped, .inr (hroot hescape)⟩

end Tree

end CanonTree.Syntax
