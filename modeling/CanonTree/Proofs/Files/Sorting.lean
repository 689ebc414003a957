import CanonTree.Files.Path
import Mathlib.Data.List.Lex
import Mathlib.Data.List.Sort
import Mathlib.Data.Prod.Lex
import Mathlib.Data.String.Basic

namespace CanonTree.Path

namespace Component

def key : Component → ℕ ×ₗ String
  | normal name => toLex (3, name)
  | c => toLex (c.rank, "")

theorem key_injective : Function.Injective key := by
  intro a b h
  cases a <;> cases b <;> simp_all [key, rank]

theorem before_iff (a b : Component) : a.before b = true ↔ a.key < b.key := by
  cases a <;> cases b <;> simp [before, key, rank, Prod.Lex.toLex_lt_toLex]

end Component

open Component (key key_injective before_iff)

theorem cons_le_cons_iff {α : Type} [LinearOrder α] (a b : α) (as bs : List α) :
    a :: as ≤ b :: bs ↔ a < b ∨ a = b ∧ as ≤ bs := by
  rw [← not_lt, ← not_lt, List.cons_lt_cons_iff, not_or]
  obtain h | rfl | h := lt_trichotomy a b
  · simp [h, h.le, h.ne']
  · simp
  · simp [h, h.ne', not_lt_of_gt h]

theorem componentsLE_iff (as bs : List Component) :
    componentsLE as bs = true ↔ as.map key ≤ bs.map key := by
  fun_induction componentsLE as bs with
  | case1 bs => exact iff_of_true rfl (not_lt.1 (List.not_lt_nil _))
  | case2 a as => exact iff_of_false (by simp) (not_le_of_gt (List.nil_lt_cons _ _))
  | case3 a as b bs ih =>
    rw [List.map_cons, List.map_cons, cons_le_cons_iff, ← before_iff, key_injective.eq_iff, ← ih]
    simp

def rank (path : String) : List (ℕ ×ₗ String) := (components path).map key

theorem rank_eq_iff {p q : String} : rank p = rank q ↔ components p = components q :=
  (List.map_injective_iff.2 key_injective).eq_iff

theorem le_iff (p q : String) : le p q = true ↔ rank p ≤ rank q :=
  componentsLE_iff (components p) (components q)

def Ascending (ps : List String) : Prop :=
  ps.Pairwise fun p q => le p q = true ∧ components p ≠ components q

variable {p q : String} {ps qs : List String}

theorem ascending_iff : Ascending ps ↔ ps.Pairwise (rank · < rank ·) := by
  simp only [Ascending, le_iff, ne_eq, ← rank_eq_iff, lt_iff_le_and_ne]

theorem subset_insert (p : String) (ps : List String) : insert p ps ⊆ p :: ps := by
  induction ps with
  | nil => exact List.Subset.refl _
  | cons q qs ih =>
    rw [insert]
    split
    · exact List.subset_cons_self p _
    · split
      · exact List.Subset.refl _
      · intro r hr
        obtain rfl | hr := List.mem_cons.1 hr
        · simp
        · have := ih hr
          simp only [List.mem_cons] at this ⊢
          tauto

/-- In some spelling, the list holds what it held before and the new path. -/
theorem rank_mem_insert (p : String) (ps : List String) (r : List (ℕ ×ₗ String)) :
    r ∈ (insert p ps).map rank ↔ r = rank p ∨ r ∈ ps.map rank := by
  induction ps with
  | nil => simp [insert]
  | cons q qs ih =>
    rw [insert]
    split
    · rename_i hsame
      rw [← rank_eq_iff] at hsame
      simp [hsame]
    · split
      · simp
      · rw [List.map_cons, List.mem_cons, ih, List.map_cons, List.mem_cons]
        tauto

theorem ascending_insert (h : Ascending ps) : Ascending (insert p ps) := by
  rw [ascending_iff] at *
  induction ps with
  | nil => exact List.pairwise_singleton _ _
  | cons q qs ih =>
    obtain ⟨hq, hqs⟩ := List.pairwise_cons.1 h
    rw [insert]
    split
    · exact h
    · rename_i hne
      rw [← rank_eq_iff] at hne
      split
      · rename_i hle
        have hlt : rank p < rank q := lt_of_le_of_ne ((le_iff p q).1 hle) hne
        refine List.pairwise_cons.2 ⟨fun r hr => ?_, h⟩
        obtain rfl | hr := List.mem_cons.1 hr
        · exact hlt
        · exact hlt.trans (hq r hr)
      · rename_i hle
        rw [le_iff, not_le] at hle
        refine List.pairwise_cons.2 ⟨fun r hr => ?_, ih hqs⟩
        obtain rfl | hr := List.mem_cons.1 (subset_insert p qs hr)
        · exact hle
        · exact hq r hr

theorem ascending_foldl (h : Ascending qs) :
    Ascending (ps.foldl (fun ps p => insert p ps) qs) := by
  induction ps generalizing qs with
  | nil => exact h
  | cons p ps ih => exact ih (ascending_insert h)

theorem subset_foldl (ps qs : List String) :
    ps.foldl (fun ps p => insert p ps) qs ⊆ ps ++ qs := by
  induction ps generalizing qs with
  | nil => exact List.Subset.refl _
  | cons p ps ih =>
    intro r hr
    have hr' := ih (insert p qs) hr
    rw [List.mem_append] at hr'
    obtain hr' | hr' := hr'
    · simp [hr']
    · have := subset_insert p qs hr'
      simp only [List.cons_append, List.mem_cons, List.mem_append] at this ⊢
      tauto

theorem rank_mem_foldl (ps qs : List String) (r : List (ℕ ×ₗ String)) :
    r ∈ (ps.foldl (fun ps p => insert p ps) qs).map rank ↔ r ∈ ps.map rank ∨ r ∈ qs.map rank := by
  induction ps generalizing qs with
  | nil => simp
  | cons p ps ih =>
    rw [List.foldl_cons, ih, rank_mem_insert, List.map_cons, List.mem_cons]
    tauto

theorem ascending_sortedSet (ps : List String) : Ascending (sortedSet ps) :=
  ascending_foldl List.Pairwise.nil

theorem sortedSet_subset (ps : List String) : sortedSet ps ⊆ ps := by
  have h := subset_foldl ps []
  rwa [List.append_nil] at h

theorem exists_mem_sortedSet (h : p ∈ ps) :
    ∃ q ∈ sortedSet ps, components q = components p := by
  have hrank := (rank_mem_foldl ps [] (rank p)).2 (.inl (List.mem_map.2 ⟨p, h, rfl⟩))
  obtain ⟨q, hq, heq⟩ := List.mem_map.1 hrank
  exact ⟨q, hq, rank_eq_iff.1 heq⟩

/-- Ascending lists of the same paths are the same, but for their spellings. -/
theorem Ascending.components_eq (hp : Ascending ps) (hq : Ascending qs)
    (h : ∀ r, r ∈ ps.map rank ↔ r ∈ qs.map rank) :
    ps.map components = qs.map components := by
  have hranks : ps.map rank = qs.map rank :=
    List.Pairwise.eq_of_mem_iff (List.pairwise_map.2 (ascending_iff.1 hp))
      (List.pairwise_map.2 (ascending_iff.1 hq)) h
  rw [show ps.map rank = (ps.map components).map (List.map key) by rw [List.map_map]; rfl,
    show qs.map rank = (qs.map components).map (List.map key) by rw [List.map_map]; rfl] at hranks
  exact List.map_injective_iff.2 (List.map_injective_iff.2 key_injective) hranks

theorem Ascending.eq_of_mem_iff (hp : Ascending ps) (hq : Ascending qs)
    (h : ∀ r, r ∈ ps ↔ r ∈ qs) : ps = qs := by
  have : Std.Irrefl fun p q => rank p < rank q := ⟨fun _ => lt_irrefl _⟩
  have : Std.Antisymm fun p q => rank p < rank q := ⟨fun _ _ hlt hgt => absurd hlt hgt.asymm⟩
  exact List.Pairwise.eq_of_mem_iff (ascending_iff.1 hp) (ascending_iff.1 hq) h

end CanonTree.Path
