import CanonTree.Canon.Builder
import CanonTree.Proofs.Layout

namespace CanonTree.Canon.Builder

open Entry (graft)

variable {b b' : Builder} {n : Node} {site : String} {i : Nat} {e : Error}

theorem current?_eq_none : b.current? = none ↔ b.stack = [] := by
  simp [current?]

theorem push_eq_ok (h : b.push n site = .ok (i, b')) :
    (b.stack = [] → b.root = none) ∧ i = b.size ∧ b'.stack = ⟨b.size, site⟩ :: b.stack ∧
      b'.root = b.root.or (some b.size) ∧
      b'.arena.rows = graft b.current? b.arena.rows [.node n []] := by
  rw [push] at h
  split at h
  · cases h
  · rename_i hready
    cases h
    refine ⟨fun hs => ?_, rfl, rfl, rfl, Arena.rows_add b.arena b.current? b.current?_lt n⟩
    simpa [current?_eq_none.2 hs] using hready

theorem push_eq_error :
    b.push n site = .error e ↔ b.stack = [] ∧ b.root ≠ none ∧ e = .secondRoot n.entity site := by
  rw [push]
  split
  · rename_i hready
    rw [Bool.and_eq_true, Option.isNone_iff_eq_none, current?_eq_none, Option.isSome_iff_ne_none]
      at hready
    simp [hready.1, hready.2, eq_comm]
  · rename_i hready
    simp only [reduceCtorEq, false_iff]
    rintro ⟨hs, hr, -⟩
    simp [current?_eq_none.2 hs, Option.isSome_iff_ne_none, hr] at hready

theorem pop_eq_ok (h : b.pop = .ok (i, b')) :
    (∃ o, b.stack = o :: b'.stack ∧ i = o.id) ∧ b'.root = b.root ∧ b'.arena = b.arena := by
  cases b with
  | mk arena stack root stack_lt root_lt =>
    cases stack with
    | nil => cases h
    | cons o rest =>
      cases h
      exact ⟨⟨o, rfl, rfl⟩, rfl, rfl⟩

theorem pop_eq_error : b.pop = .error e ↔ b.stack = [] ∧ e = .stackUnderflow := by
  cases b with
  | mk arena stack root stack_lt root_lt =>
    cases stack with
    | nil => simp [pop, eq_comm]
    | cons o rest => simp [pop]

theorem build_of_closed {r : Nat} (hs : b.stack = []) (hr : b.root = some r) :
    ∃ t, b.build = .ok t ∧ t.arena = b.arena ∧ t.root = r := by
  cases b
  subst hs hr
  exact ⟨_, rfl, rfl, rfl⟩

theorem build_of_fresh (hs : b.stack = []) (hr : b.root = none) :
    b.build = .error .emptyTree := by
  cases b
  subst hs hr
  rfl

theorem build_of_open {o : OpenNode} {rest : List OpenNode} {d : Entry Node}
    (hs : b.stack = o :: rest) (hd : b.arena.rows[o.id]? = some d) :
    b.build = .error (.unbalanced b.depth d.value.entity o.site) := by
  cases b with
  | mk arena stack root stack_lt root_lt =>
    subst hs
    rw [← Arena.getElem?_entries] at hd
    obtain ⟨hlt, rfl⟩ := Array.getElem?_eq_some_iff.1 hd
    rfl

theorem build_eq_ok {t : Tree} (h : b.build = .ok t) :
    b.stack = [] ∧ b.root = some t.root ∧ b.arena = t.arena := by
  cases hs : b.stack with
  | cons o rest =>
    have hlt : o.id < b.arena.rows.length := by
      rw [Arena.length_rows]
      exact b.stack_lt o (by rw [hs]; exact List.mem_cons_self)
    rw [build_of_open hs (List.getElem?_eq_getElem hlt)] at h
    cases h
  | nil =>
    cases hr : b.root with
    | none =>
      rw [build_of_fresh hs hr] at h
      cases h
    | some r =>
      obtain ⟨t', ht', harena, hroot⟩ := build_of_closed hs hr
      cases ht'.symm.trans h
      exact ⟨rfl, congrArg some hroot.symm, harena.symm⟩

end CanonTree.Canon.Builder
