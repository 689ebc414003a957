import CanonTree.Proofs.Growth
import CanonTree.Syntax.Document

namespace CanonTree.Syntax

open Entry (Stage Free graft)

namespace Builder

inductive Call where
  | start (n : Node)
  | leaf (n : Node)
  | finish

def call (b : Builder) : Call → Builder
  | .start n => (b.start n).2
  | .leaf n => (b.leaf n).2
  | .finish => b.finish

def run (b : Builder) (calls : List Call) : Builder := calls.foldl call b

/-- As long as there is nothing beside the root, the builder is at some stage of one tree. -/
def Sound (b : Builder) : Prop := b.extraRoots = 0 → Stage b.stack b.root b.arena.rows

theorem rows_leaf (b : Builder) (n : Node) :
    (b.leaf n).2.arena.rows = graft b.stack.head? b.arena.rows [.node n []] :=
  Arena.rows_add b.arena b.stack.head? b.head_lt n

theorem extraRoots_leaf {b : Builder} {n : Node} (h : (b.leaf n).2.extraRoots = 0) :
    b.extraRoots = 0 ∧ (b.stack = [] → b.root = none) := by
  cases hs : b.stack with
  | nil => cases hr : b.root <;> simp_all [leaf]
  | cons i stack => simp_all [leaf]

theorem extraRoots_leaf_of_free {b : Builder} (n : Node) (hf : Free b.stack b.root) :
    (b.leaf n).2.extraRoots = b.extraRoots := by
  cases hs : b.stack with
  | nil => simp [leaf, hs, hf.1 hs]
  | cons i stack => simp [leaf, hs]

theorem root_leaf {b : Builder} (n : Node) (hf : Free b.stack b.root) :
    (b.leaf n).2.root = b.root.or (some b.size) := by
  cases hr : b.root with
  | none => simp [leaf, hr, hf.2 hr]
  | some r => simp [leaf, hr]

theorem sound_leaf {b : Builder} (h : b.Sound) (n : Node) : (b.leaf n).2.Sound := by
  intro hx
  obtain ⟨he, hr⟩ := extraRoots_leaf hx
  have hf := (h he).free hr
  rw [root_leaf n hf, rows_leaf, size, ← Arena.length_rows]
  exact (h he).leaf hf n

theorem sound_start {b : Builder} (h : b.Sound) (n : Node) : (b.start n).2.Sound := by
  intro hx
  obtain ⟨he, hr⟩ := extraRoots_leaf (n := n) hx
  have hf := (h he).free hr
  change Stage (b.size :: b.stack) (b.leaf n).2.root (b.leaf n).2.arena.rows
  rw [root_leaf n hf, rows_leaf, size, ← Arena.length_rows]
  exact (h he).start hf n

theorem sound_call {b : Builder} (h : b.Sound) (c : Call) : (b.call c).Sound := by
  cases c with
  | start n => exact sound_start h n
  | leaf n => exact sound_leaf h n
  | finish => exact fun he => (h he).finish

theorem sound_run {b : Builder} (h : b.Sound) (calls : List Call) : (b.run calls).Sound := by
  induction calls generalizing b with
  | nil => exact h
  | cons c calls ih => exact ih (sound_call h c)

theorem sound_ofSource (source : String) : (ofSource source).Sound := fun _ => .fresh

theorem source_call (b : Builder) (c : Call) : (b.call c).source = b.source := by
  cases c <;> rfl

theorem source_run (b : Builder) (calls : List Call) : (b.run calls).source = b.source := by
  induction calls generalizing b with
  | nil => rfl
  | cons c calls ih => exact (ih (b.call c)).trans (source_call b c)

theorem build_eq_ok {b : Builder} {t : Tree} (h : b.build = .ok t) :
    b.stack = [] ∧ b.extraRoots = 0 ∧ b.source = t.source ∧ b.root = some t.root ∧
      b.arena = t.arena := by
  unfold build at h
  split at h
  · cases h
  · rename_i hs
    split at h
    · cases h
    · rename_i he
      split at h
      · cases h
      · rename_i r hr
        cases h
        simp only [ne_eq, Decidable.not_not, List.length_eq_zero_iff] at hs he
        exact ⟨hs, he, rfl, hr, rfl⟩

theorem build_ok {b : Builder} {i : Nat} (hs : b.stack = []) (he : b.extraRoots = 0)
    (hr : b.root = some i) :
    ∃ t, b.build = .ok t ∧ t.source = b.source ∧ t.root = i ∧ t.arena = b.arena := by
  have h₁ : ¬ b.stack.length ≠ 0 := by simp [hs]
  have h₂ : ¬ b.extraRoots ≠ 0 := by simp [he]
  refine ⟨⟨b.source, b.arena, i, b.root_lt i hr⟩, ?_, rfl, rfl, rfl⟩
  rw [build, if_neg h₁, if_neg h₂]
  split
  · rename_i hn
    simp [hr] at hn
  · rename_i r hr'
    cases hr.symm.trans hr'
    rfl

end Builder

/-- The entries of the tree are those of `r`, its root first. -/
structure Tree.Shaped (r : Rose Node) (t : Tree) : Prop where
  root : t.root = 0
  rows : t.arena.rows = r.layout none 0

/-- A tree comes out of a builder only in one piece, in pre-order and with the builder's source. -/
theorem Builder.shaped_of_build {source : String} {calls : List Builder.Call} {t : Tree}
    (h : ((ofSource source).run calls).build = .ok t) : t.source = source ∧ ∃ r, t.Shaped r := by
  obtain ⟨hs, he, hsource, hr, ha⟩ := build_eq_ok h
  rw [source_run] at hsource
  have hst := sound_run (sound_ofSource source) calls he
  rw [hs, hr, ha] at hst
  obtain ⟨hroot, r, hrows⟩ := hst.rose_of_closed
  exact ⟨hsource.symm, r, hroot, hrows⟩

namespace Tree

variable {r : Rose Node} {s t : Tree}

theorem Shaped.trunk (h : t.Shaped r) : t.trunk = r.number Item.of 0 := by
  have hrows : r.layout none t.root <+: t.arena.rows.drop t.root := by
    rw [h.root, h.rows]
    exact List.prefix_refl _
  calc
    t.trunk = r.number Item.of t.root :=
      Arena.subtree_eq_number Item.of t.arena r none t.root t.root_lt hrows
    _ = r.number Item.of 0 := by rw [h.root]

theorem Shaped.ext (hs : s.Shaped r) (ht : t.Shaped r) (h : s.source = t.source) : s = t := by
  have harena := Arena.ext_rows (hs.rows.trans ht.rows.symm)
  have hroot := hs.root.trans ht.root.symm
  cases s
  cases t
  simp_all

end Tree

end CanonTree.Syntax
