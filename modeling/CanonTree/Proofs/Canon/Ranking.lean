import CanonTree.Canon.Statistics
import CanonTree.Proofs.Canon.Rows
import Mathlib.Algebra.BigOperators.Group.List.Lemmas
import Mathlib.Algebra.GroupWithZero.Nat
import Mathlib.Data.List.Sort
import Mathlib.Data.Prod.Lex
import Mathlib.Data.String.Basic
import Mathlib.Order.OrderDual

namespace CanonTree.Canon

def Precedes (a b : Entity × Nat) : Prop := b.2 < a.2 ∨ a.2 = b.2 ∧ a.1.name < b.1.name

instance : DecidableRel Precedes := fun _ _ => inferInstanceAs (Decidable (_ ∨ _))

def rank (c : Entity × Nat) : ℕᵒᵈ ×ₗ String := toLex (OrderDual.toDual c.2, c.1.name)

variable {a b c : Entity × Nat} {cs ds : List (Entity × Nat)} {es es' : List Entity}

theorem rank_injective : Function.Injective rank := by
  intro a b h
  obtain ⟨hcount, hname⟩ := Prod.mk.inj (toLex.injective h)
  exact Prod.ext (Entity.name_injective hname) (OrderDual.toDual.injective hcount)

theorem precedes_iff : Precedes a b ↔ rank a < rank b := by
  rw [rank, rank, Prod.Lex.toLex_lt_toLex]
  exact Iff.rfl

theorem ranksBefore_iff : ranksBefore a b = true ↔ rank a ≤ rank b := by
  rw [ranksBefore, rank, rank, Prod.Lex.toLex_le_toLex]
  simp

theorem perm_categories (t : Tree) : t.statistics.categories.Perm t.occurring :=
  List.mergeSort_perm _ _

theorem sorted_categories (t : Tree) :
    t.statistics.categories.Pairwise (rank · ≤ rank ·) := by
  have hsorted : t.statistics.categories.Pairwise (ranksBefore · · = true) := by
    apply List.pairwise_mergeSort
    · intro a b c hab hbc
      rw [ranksBefore_iff] at hab hbc ⊢
      exact hab.trans hbc
    · intro a b
      rw [Bool.or_eq_true, ranksBefore_iff, ranksBefore_iff]
      exact le_total _ _
  exact hsorted.imp fun hab => ranksBefore_iff.1 hab

/-- The list tells how often each of the entities is among `es`, each once and no other, in order. -/
structure Tally (es : List Entity) (cs : List (Entity × Nat)) : Prop where
  nodup : (cs.map (·.1)).Nodup
  mem_iff : ∀ e n, (e, n) ∈ cs ↔ e ∈ es ∧ n = es.count e
  sorted : cs.Pairwise Precedes

namespace Tally

theorem eq (h : Tally es cs) (h' : Tally es ds) : cs = ds := by
  have : Std.Irrefl Precedes := ⟨fun a ha => lt_irrefl _ (precedes_iff.1 ha)⟩
  have : Std.Antisymm Precedes :=
    ⟨fun a b hab hba => absurd (precedes_iff.1 hab) (precedes_iff.1 hba).asymm⟩
  exact List.Pairwise.eq_of_mem_iff h.sorted h'.sorted fun a =>
    (h.mem_iff a.1 a.2).trans (h'.mem_iff a.1 a.2).symm

theorem perm (h : Tally es cs) (hperm : es.Perm es') : Tally es' cs where
  nodup := h.nodup
  mem_iff e n := by rw [h.mem_iff, hperm.mem_iff, hperm.count_eq]
  sorted := h.sorted

theorem of_perm (hperm : cs.Perm (es.dedup.map fun e => (e, es.count e)))
    (hsorted : cs.Pairwise Precedes) : Tally es cs where
  nodup := by
    have hentities : (es.dedup.map fun e => (e, es.count e)).map (·.1) = es.dedup := by
      rw [List.map_map]
      exact List.map_id _
    rw [(hperm.map _).nodup_iff, hentities]
    exact es.nodup_dedup
  mem_iff e n := by
    rw [hperm.mem_iff, List.mem_map]
    constructor
    · rintro ⟨f, hf, h⟩
      obtain ⟨rfl, rfl⟩ := Prod.mk.inj h
      exact ⟨List.mem_dedup.1 hf, rfl⟩
    · rintro ⟨he, rfl⟩
      exact ⟨e, List.mem_dedup.2 he, rfl⟩
  sorted := hsorted

theorem entities_perm (h : Tally es cs) : (cs.map (·.1)).Perm es.dedup := by
  rw [List.perm_ext_iff_of_nodup h.nodup es.nodup_dedup]
  intro e
  rw [List.mem_map, List.mem_dedup]
  constructor
  · rintro ⟨a, ha, rfl⟩
    exact ((h.mem_iff a.1 a.2).1 ha).1
  · intro he
    exact ⟨(e, es.count e), (h.mem_iff _ _).2 ⟨he, rfl⟩, rfl⟩

theorem sum (h : Tally es cs) : (cs.map (·.2)).sum = es.length := by
  have hcounts : cs.map (·.2) = (cs.map (·.1)).map fun e => es.count e := by
    rw [List.map_map]
    exact List.map_congr_left fun a ha => ((h.mem_iff a.1 a.2).1 ha).2
  rw [hcounts, (h.entities_perm.map _).sum_eq, List.sum_map_count_dedup_eq_length]

end Tally

namespace Tree

variable {t : Tree} {e : Entity} {n : Nat}

def entities (t : Tree) : List Entity := t.nodes.map (·.entity)

def met (t : Tree) : List Entity := t.preorder.filterMap fun i => (t.nodes[i]?).map (·.entity)

theorem length_nodes (t : Tree) : t.nodes.length = t.size := by
  rw [nodes, List.length_map, Array.length_toList]
  rfl

theorem length_entities (t : Tree) : t.entities.length = t.size := by
  rw [entities, List.length_map, length_nodes]

/-- The loop that counts: it has added to each place how often the entity of that place came. -/
theorem getElem?_foldl_modify (ns : List Node) (counts : Array Nat) (k : Nat) :
    (ns.foldl (fun counts n => counts.modify n.entity.ctorIdx (· + 1)) counts)[k]? =
      counts[k]?.map (· + ns.countP (·.entity.ctorIdx = k)) := by
  induction ns generalizing counts with
  | nil => simp
  | cons n ns ih =>
    rw [List.foldl_cons, ih, Array.getElem?_modify, List.countP_cons]
    by_cases hk : n.entity.ctorIdx = k
    · rw [if_pos hk]
      cases counts[k]? with
      | none => rfl
      | some m => simp [hk, Nat.add_assoc, Nat.add_comm 1]
    · rw [if_neg hk]
      simp [hk]

theorem ctorIdx_of_getElem? {k : Nat} (h : Entity.all[k]? = some e) : e.ctorIdx = k := by
  have hplaces : Entity.all.map Entity.ctorIdx = List.range Entity.all.length := by decide
  have hk := congrArg (·[k]?) hplaces
  simp only [List.getElem?_map, h, Option.map_some] at hk
  exact (List.getElem?_eq_some_iff.1 hk.symm).2.symm.trans (by simp)

theorem ctorIdx_injective {e f : Entity} (h : e.ctorIdx = f.ctorIdx) : e = f := by
  obtain ⟨i, hi⟩ := List.getElem?_of_mem e.mem_all
  obtain ⟨j, hj⟩ := List.getElem?_of_mem f.mem_all
  have hij : i = j := by rw [← ctorIdx_of_getElem? hi, ← ctorIdx_of_getElem? hj, h]
  subst hij
  exact Option.some.inj (hi.symm.trans hj)

theorem counts_eq (t : Tree) : t.counts.toList = Entity.all.map (t.entities.count ·) := by
  apply List.ext_getElem?
  intro k
  rw [Array.getElem?_toList, counts, getElem?_foldl_modify, List.getElem?_map,
    Array.getElem?_replicate]
  -- no entity has its place behind the end of the table
  cases he : Entity.all[k]? with
  | none =>
    rw [if_neg (Nat.not_lt.2 (List.getElem?_eq_none_iff.1 he))]
    rfl
  | some e =>
    have hcount : t.nodes.countP (·.entity.ctorIdx = k) = t.entities.count e := by
      rw [entities, List.count_eq_countP, List.countP_map, ← ctorIdx_of_getElem? he]
      apply List.countP_congr
      intro n _
      simpa using ⟨ctorIdx_injective, congrArg Entity.ctorIdx⟩
    rw [if_pos (List.getElem?_eq_some_iff.1 he).1, hcount, Option.map_some, Option.map_some,
      Nat.zero_add]

theorem histogram_eq (t : Tree) :
    t.histogram = Entity.all.map fun e => (e, t.entities.count e) := by
  rw [histogram, counts_eq, List.map_prod_left_eq_zip]

theorem mem_occurring : (e, n) ∈ t.occurring ↔ e ∈ t.entities ∧ n = t.entities.count e := by
  rw [occurring, List.mem_filter, decide_eq_true_eq, histogram_eq, List.mem_map]
  constructor
  · rintro ⟨⟨f, -, h⟩, hpos⟩
    obtain ⟨rfl, rfl⟩ := Prod.mk.inj h
    exact ⟨List.count_pos_iff.1 hpos, rfl⟩
  · rintro ⟨he, rfl⟩
    exact ⟨⟨e, e.mem_all, rfl⟩, List.count_pos_iff.2 he⟩

theorem nodup_occurring (t : Tree) : (t.occurring.map (·.1)).Nodup := by
  have hall : t.histogram.map (·.1) = Entity.all := by
    rw [histogram_eq, List.map_map]
    exact List.map_id _
  have hnodup : (t.histogram.map (·.1)).Nodup := hall ▸ Entity.nodup_all
  exact hnodup.sublist (List.filter_sublist.map _)

theorem tally_categories (t : Tree) : Tally t.entities t.statistics.categories := by
  have hperm := perm_categories t
  have hnodup : (t.statistics.categories.map (·.1)).Nodup :=
    (hperm.map _).nodup_iff.2 t.nodup_occurring
  refine ⟨hnodup, fun e n => hperm.mem_iff.trans mem_occurring, ?_⟩
  -- no entity is there twice, so no two places in the order are the same
  have hne := List.pairwise_map.1 hnodup
  refine ((sorted_categories t).and hne).imp fun hab => ?_
  rw [precedes_iff]
  exact lt_of_le_of_ne hab.1 fun heq => hab.2 (congrArg Prod.fst (rank_injective heq))

theorem filterMap_range_getElem? {α β : Type} (f : α → β) (xs : List α) :
    (List.range xs.length).filterMap (fun i => (xs[i]?).map f) = xs.map f := by
  induction xs using List.reverseRecOn with
  | nil => rfl
  | append_singleton xs x ih =>
    have hbefore : ∀ i ∈ List.range xs.length, ((xs ++ [x])[i]?).map f = (xs[i]?).map f := by
      intro i hi
      rw [List.getElem?_append_left (List.mem_range.1 hi)]
    rw [List.length_append, List.length_singleton, List.range_succ, List.filterMap_append,
      List.filterMap_congr hbefore, ih, List.map_append]
    simp

theorem LaidOut.met_eq (h : t.LaidOut) : t.met = t.entities := by
  rw [met, h.preorder, entities, ← length_nodes, filterMap_range_getElem?]

end Tree
end CanonTree.Canon
