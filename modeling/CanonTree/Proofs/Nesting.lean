import CanonTree.Proofs.Preorder

namespace CanonTree

variable {α β : Type}

def Entry.map (g : α → β) (e : Entry α) : Entry β :=
  { value := g e.value, parent := e.parent, children := e.children }

namespace Rose

theorem size_map (g : α → β) (r : Rose α) : (r.map g).size = r.size := by
  rw [← number_const g 0 r, size_number]

theorem starts_maps (g : α → β) (i : Nat) (cs : List (Rose α)) :
    starts i (maps g cs) = starts i cs := by
  induction cs generalizing i with
  | nil => rfl
  | cons c cs ih => rw [maps, starts, starts, size_map, ih]

mutual
theorem layout_map (g : α → β) (p : Option Nat) (i : Nat) :
    ∀ r : Rose α, (r.map g).layout p i = (r.layout p i).map (Entry.map g)
  | .node v cs => by
    rw [map, layout, layout, List.map_cons, layouts_maps g (some i) (i + 1) cs, starts_maps]
    rfl

theorem layouts_maps (g : α → β) (p : Option Nat) (i : Nat) :
    ∀ cs : List (Rose α), layouts p i (maps g cs) = (layouts p i cs).map (Entry.map g)
  | [] => rfl
  | c :: cs => by
    rw [maps, layouts, layouts, List.map_append, layout_map g p i c, size_map,
      layouts_maps g p (i + c.size) cs]
end

def numbered (r : Rose α) : Rose (Nat × α) := r.number Prod.mk 0

/-- A node is where its number says, with the numbers of its children, and these name it as their
parent. -/
structure Placed (es : List (Entry α)) (s : Rose (Nat × α)) : Prop where
  entry : ∃ e, es[s.value.1]? = some e ∧ e.value = s.value.2 ∧
    e.children.toList = s.children.map (·.value.1)
  below : ∀ c ∈ s.children, ∃ e, es[c.value.1]? = some e ∧ e.parent = some s.value.1

/-- The entries are the nodes of the tree in pre-order and mirror its nesting. -/
structure Mirrored (r : Rose α) (es : List (Entry α)) : Prop where
  values : es.map Entry.value = r.preorder
  numbers : r.numbered.preorder.map (·.1) = List.range es.length
  placed : ∀ s ∈ r.numbered.subtrees, Placed es s
  top : ∃ e, es[0]? = some e ∧ e.parent = none

theorem fst_value_numbers (i : Nat) (cs : List (Rose α)) :
    (numbers Prod.mk i cs).map (·.value.1) = starts i cs := by
  induction cs generalizing i with
  | nil => rfl
  | cons c cs ih =>
    rw [numbers, starts, List.map_cons, ih]
    cases c
    rfl

theorem exists_parent {es : List (Entry α)} {q i : Nat} {cs : List (Rose α)}
    (h : layouts (some q) i cs <+: es.drop i) {c : Rose (Nat × α)} (hc : c ∈ numbers Prod.mk i cs) :
    ∃ e, es[c.value.1]? = some e ∧ e.parent = some q := by
  induction cs generalizing i with
  | nil => cases hc
  | cons d ds ih =>
    obtain ⟨hd, hds⟩ := layouts_prefix_iff.1 h
    rw [numbers, List.mem_cons] at hc
    rcases hc with rfl | hc
    · cases d
      exact ⟨_, (layout_prefix_iff.1 hd).1, rfl⟩
    · exact ih hds hc

mutual
theorem placed_of_layout {es : List (Entry α)} : ∀ (r : Rose α) (p : Option Nat) (i : Nat),
    r.layout p i <+: es.drop i → ∀ s ∈ (r.number Prod.mk i).subtrees, Placed es s
  | .node v cs, p, i, h, s, hs => by
    obtain ⟨hi, hcs⟩ := layout_prefix_iff.1 h
    rw [number, subtrees, List.mem_cons] at hs
    rcases hs with rfl | hs
    · refine ⟨⟨_, hi, rfl, ?_⟩, fun c hc => exists_parent hcs hc⟩
      exact (fst_value_numbers (i + 1) cs).symm
    · exact placed_of_layouts cs (some i) (i + 1) hcs s hs

theorem placed_of_layouts {es : List (Entry α)} : ∀ (cs : List (Rose α)) (p : Option Nat) (i : Nat),
    layouts p i cs <+: es.drop i → ∀ s ∈ forestSubtrees (numbers Prod.mk i cs), Placed es s
  | [], p, i, _, s, hs => by simp [numbers, forestSubtrees] at hs
  | c :: cs, p, i, h, s, hs => by
    obtain ⟨hc, hcs⟩ := layouts_prefix_iff.1 h
    rw [numbers, forestSubtrees, List.mem_append] at hs
    rcases hs with hs | hs
    · exact placed_of_layout c p i hc s hs
    · exact placed_of_layouts cs p (i + c.size) hcs s hs
end

theorem mirrored_layout (r : Rose α) : r.Mirrored (r.layout none 0) where
  values := map_value_layout none 0 r
  numbers := by
    rw [numbered, ← preorder_map, map_number, length_layout, List.range_eq_range']
    exact preorder_number_id 0 r
  placed := placed_of_layout r none 0 (by simp)
  top := by
    cases r
    exact ⟨_, rfl, rfl⟩

end Rose
end CanonTree
