import CanonTree.Proofs.Layout

namespace CanonTree

variable {α : Type}

open Rose (starts layout layouts sizes)

namespace Entry

/-- Parents and lists of children tell of the same links, and siblings are in ascending order. -/
structure Linked (es : List (Entry α)) : Prop where
  mem_children : ∀ {i j : Nat} {e f : Entry α}, es[i]? = some e → es[j]? = some f →
    (j ∈ e.children.toList ↔ f.parent = some i)
  parent_lt : ∀ {i j : Nat} {f : Entry α}, es[j]? = some f → f.parent = some i → i < j
  children_lt : ∀ {i c : Nat} {e : Entry α}, es[i]? = some e → c ∈ e.children.toList → c < es.length
  ascending : ∀ {i : Nat} {e : Entry α}, es[i]? = some e → e.children.toList.Pairwise (· < ·)

theorem getElem?_adoptAll (p : Option Nat) (ids : List Nat) (es : List (Entry α)) (i : Nat) :
    (adoptAll p ids es)[i]? = es[i]?.map fun e =>
      if p = some i then { e with children := e.children ++ ids.toArray } else e := by
  cases p with
  | none => simp [adoptAll]
  | some q =>
    rw [adoptAll, List.getElem?_modify]
    by_cases hq : q = i <;> simp [hq]

theorem getElem?_graft_leaf {p : Option Nat} {es : List (Entry α)} {v : α} {i : Nat} {e : Entry α}
    (h : (graft p es [.node v []])[i]? = some e) :
    (∃ d, es[i]? = some d ∧ e.value = d.value ∧ e.parent = d.parent ∧
      e.children.toList = d.children.toList ++ if p = some i then [es.length] else []) ∨
    (i = es.length ∧ e = ⟨v, p, #[]⟩) := by
  have hg : graft p es [.node v []] = adoptAll p [es.length] es ++ [⟨v, p, #[]⟩] := by
    simp [graft, starts, layouts, layout]
  rw [hg, List.getElem?_append, length_adoptAll] at h
  split at h
  · rw [getElem?_adoptAll] at h
    obtain ⟨d, hd, rfl⟩ := Option.map_eq_some_iff.1 h
    refine Or.inl ⟨d, hd, ?_⟩
    split <;> simp_all
  · rename_i hi
    have hlast : i = es.length := by
      have := (List.getElem?_eq_some_iff.1 h).1
      simp only [List.length_singleton] at this
      omega
    subst hlast
    exact Or.inr ⟨rfl, by simpa using h.symm⟩

namespace Linked

variable {p : Option Nat} {es : List (Entry α)}

theorem nil : Linked ([] : List (Entry α)) :=
  ⟨fun h => by simp at h, fun h => by simp at h, fun h => by simp at h, fun h => by simp at h⟩

theorem graft_leaf (h : Linked es) (hp : ∀ q ∈ p, q < es.length) (v : α) :
    Linked (graft p es [.node v []]) where
  mem_children := by
    intro i j e f he hf
    rcases getElem?_graft_leaf he with ⟨d, hd, -, -, hc⟩ | ⟨rfl, rfl⟩
    · rw [hc, List.mem_append]
      rcases getElem?_graft_leaf hf with ⟨g, hg, -, hparent, -⟩ | ⟨rfl, rfl⟩
      · have hj := (List.getElem?_eq_some_iff.1 hg).1
        rw [hparent, h.mem_children hd hg, or_iff_left]
        split
        · simp only [List.mem_singleton]
          omega
        · simp
      · rw [or_iff_right fun hm => Nat.lt_irrefl _ (h.children_lt hd hm)]
        split <;> simp_all
    · -- nothing can be below the new node yet
      have hno : f.parent ≠ some es.length := by
        intro hq
        rcases getElem?_graft_leaf hf with ⟨g, hg, -, hparent, -⟩ | ⟨rfl, rfl⟩
        · have hlt := h.parent_lt hg (hparent.symm.trans hq)
          have := (List.getElem?_eq_some_iff.1 hg).1
          omega
        · exact Nat.lt_irrefl _ (hp _ hq)
      simpa using hno
  parent_lt := by
    intro i j f hf hi
    rcases getElem?_graft_leaf hf with ⟨g, hg, -, hparent, -⟩ | ⟨rfl, rfl⟩
    · exact h.parent_lt hg (hparent.symm.trans hi)
    · exact hp i hi
  children_lt := by
    intro i c e he hc
    have hlen : (graft p es [.node v []]).length = es.length + 1 := by
      simp [Rose.sizes, Rose.size]
    rcases getElem?_graft_leaf he with ⟨d, hd, -, -, hd'⟩ | ⟨rfl, rfl⟩
    · rw [hd', List.mem_append] at hc
      rcases hc with hc | hc
      · have := h.children_lt hd hc
        omega
      · have : c = es.length := by
          split at hc <;> simp_all
        omega
    · simp at hc
  ascending := by
    intro i e he
    rcases getElem?_graft_leaf he with ⟨d, hd, -, -, hc⟩ | ⟨rfl, rfl⟩
    · rw [hc, List.pairwise_append]
      refine ⟨h.ascending hd, by split <;> simp, fun a ha b hb => ?_⟩
      have : b = es.length := by
        split at hb <;> simp_all
      have := h.children_lt hd ha
      omega
    · simp

mutual
theorem graft_tree : ∀ (r : Rose α) {p : Option Nat} {es : List (Entry α)}, Linked es →
    (∀ q ∈ p, q < es.length) → Linked (graft p es [r])
  | .node v cs, p, es, h, hp => by
    have hlast : ∀ q ∈ some es.length, q < (graft p es [.node v []]).length := by
      simp [Rose.sizes, Rose.size]
    rw [← Entry.graft_leaf]
    exact graft_all cs (h.graft_leaf hp v) hlast

theorem graft_all : ∀ (cs : List (Rose α)) {p : Option Nat} {es : List (Entry α)}, Linked es →
    (∀ q ∈ p, q < es.length) → Linked (graft p es cs)
  | [], p, es, h, hp => by rwa [graft_nil]
  | c :: cs, p, es, h, hp => by
    have hq : ∀ q ∈ p, q < (graft p es [c]).length := fun q hq => by
      have := hp q hq
      simp only [length_graft]
      omega
    rw [← List.singleton_append, ← graft_append p es [c] cs hp]
    exact graft_all cs (graft_tree c h hp) hq
end

theorem layout (r : Rose α) : Linked (r.layout none 0) := by
  rw [← graft_none_nil]
  exact graft_tree r nil (by simp)

end Linked
end Entry

namespace Rose

mutual
theorem children_of_mem_layout {e : Entry α} {j : Nat} (p : Option Nat) (i k : Nat) :
    ∀ r : Rose α, (r.layout p i)[k]? = some e → j ∈ e.children.toList →
      i + k < j ∧ j < i + r.size
  | .node v cs => by
    intro h hj
    cases k with
    | zero =>
      simp only [Rose.layout, List.getElem?_cons_zero, Option.some.injEq] at h
      subst h
      have := mem_starts hj
      simp only [size]
      omega
    | succ k =>
      simp only [Rose.layout, List.getElem?_cons_succ] at h
      have := children_of_mem_layouts (some i) (i + 1) k cs h hj
      simp only [size]
      omega

theorem children_of_mem_layouts {e : Entry α} {j : Nat} (p : Option Nat) (i k : Nat) :
    ∀ cs : List (Rose α), (layouts p i cs)[k]? = some e → j ∈ e.children.toList →
      i + k < j ∧ j < i + sizes cs
  | [] => by simp [Rose.layouts]
  | c :: cs => by
    intro h hj
    rw [Rose.layouts, List.getElem?_append] at h
    simp only [sizes]
    split at h
    · have := children_of_mem_layout p i k c h hj
      omega
    · rename_i hk
      simp only [length_layout, Nat.not_lt] at h hk
      have := children_of_mem_layouts p (i + c.size) (k - c.size) cs h hj
      omega
end

mutual
theorem map_value_layout (p : Option Nat) (i : Nat) :
    ∀ r : Rose α, (r.layout p i).map Entry.value = r.preorder
  | .node v cs => by
    rw [Rose.layout, preorder, List.map_cons, map_value_layouts (some i) (i + 1) cs]

theorem map_value_layouts (p : Option Nat) (i : Nat) :
    ∀ cs : List (Rose α), (layouts p i cs).map Entry.value = preorders cs
  | [] => rfl
  | c :: cs => by
    rw [Rose.layouts, preorders, List.map_append, map_value_layout p i c,
      map_value_layouts p (i + c.size) cs]
end

mutual
@[simp] theorem length_subtrees : ∀ r : Rose α, r.subtrees.length = r.size
  | .node v cs => by
    rw [subtrees, List.length_cons, length_forestSubtrees cs, size]

@[simp] theorem length_forestSubtrees : ∀ cs : List (Rose α), (forestSubtrees cs).length = sizes cs
  | [] => rfl
  | c :: cs => by
    rw [forestSubtrees, List.length_append, length_subtrees c, length_forestSubtrees cs, sizes]
end

mutual
theorem map_value_subtrees : ∀ r : Rose α, r.subtrees.map value = r.preorder
  | .node v cs => by
    rw [subtrees, preorder, List.map_cons, map_value_forestSubtrees cs]
    rfl

theorem map_value_forestSubtrees : ∀ cs : List (Rose α),
    (forestSubtrees cs).map value = preorders cs
  | [] => rfl
  | c :: cs => by
    rw [forestSubtrees, preorders, List.map_append, map_value_subtrees c,
      map_value_forestSubtrees cs]
end

mutual
/-- The layouts of the subtrees begin at the places of the layout, one after the other. -/
theorem layout_of_subtrees (p : Option Nat) (i k : Nat) : ∀ {s : Rose α} (r : Rose α),
    r.subtrees[k]? = some s → ∃ q, s.layout q (i + k) <+: (r.layout p i).drop k
  | s, .node v cs => by
    intro hs
    cases k with
    | zero =>
      cases hs
      exact ⟨p, by simp⟩
    | succ k =>
      obtain ⟨q, hq⟩ := layout_of_forestSubtrees (some i) (i + 1) k cs hs
      refine ⟨q, ?_⟩
      rw [Rose.layout, List.drop_succ_cons]
      rwa [Nat.add_right_comm, Nat.add_assoc] at hq

theorem layout_of_forestSubtrees (p : Option Nat) (i k : Nat) : ∀ {s : Rose α} (cs : List (Rose α)),
    (forestSubtrees cs)[k]? = some s → ∃ q, s.layout q (i + k) <+: (layouts p i cs).drop k
  | s, [] => by simp [forestSubtrees]
  | s, c :: cs => by
    intro hs
    rw [forestSubtrees, List.getElem?_append, length_subtrees] at hs
    by_cases hc : k < c.size
    · rw [if_pos hc] at hs
      obtain ⟨q, hq⟩ := layout_of_subtrees p i k c hs
      refine ⟨q, ?_⟩
      rw [Rose.layouts, List.drop_append_of_le_length (by simp; omega)]
      exact hq.trans (List.prefix_append _ _)
    · rw [if_neg hc] at hs
      obtain ⟨q, hq⟩ := layout_of_forestSubtrees p (i + c.size) (k - c.size) cs hs
      refine ⟨q, ?_⟩
      rw [Rose.layouts, List.drop_append, List.drop_eq_nil_of_le (by simp; omega)]
      rw [show i + c.size + (k - c.size) = i + k by omega] at hq
      simpa using hq
end

theorem exists_layout_at (p : Option Nat) (i k : Nat) (r : Rose α) (hk : k < r.size) :
    ∃ (s : Rose α) (q : Option Nat), s.layout q (i + k) <+: (r.layout p i).drop k := by
  rw [← length_subtrees] at hk
  exact ⟨_, layout_of_subtrees p i k r (List.getElem?_eq_getElem hk)⟩

mutual
theorem preorder_map {β : Type} (f : α → β) : ∀ r : Rose α, (r.map f).preorder = r.preorder.map f
  | .node v cs => by
    rw [map, preorder, preorder, List.map_cons, preorders_maps f cs]

theorem preorders_maps {β : Type} (f : α → β) :
    ∀ cs : List (Rose α), preorders (maps f cs) = (preorders cs).map f
  | [] => rfl
  | c :: cs => by
    rw [maps, preorders, preorders, List.map_append, preorder_map f c, preorders_maps f cs]
end

mutual
theorem preorder_number_id (i : Nat) : ∀ r : Rose α,
    (r.number (fun j _ => j) i).preorder = List.range' i r.size
  | .node v cs => by
    rw [number, preorder, preorders_numbers_id (i + 1) cs, size, List.range'_succ]

theorem preorders_numbers_id (i : Nat) : ∀ cs : List (Rose α),
    preorders (numbers (fun j _ => j) i cs) = List.range' i (sizes cs)
  | [] => rfl
  | c :: cs => by
    rw [numbers, preorders, preorder_number_id i c, preorders_numbers_id (i + c.size) cs, sizes,
      List.range'_append_1]
end

end Rose

namespace Arena

inductive Below (a : Arena α) (i : Nat) : Nat → Prop
  | self : Below a i i
  | child {j c : Nat} {e : Entry α} : Below a i j → a.rows[j]? = some e → c ∈ e.children.toList →
      Below a i c

/-- The traversal that keeps the nodes it has still to come to in a list: it takes the first and
puts its children in its place. The second list holds the nodes in the order in which they are
taken. -/
inductive Visits (a : Arena α) : List Nat → List Nat → Prop
  | done : Visits a [] []
  | next {i : Nat} {pending order : List Nat} {e : Entry α} : a.rows[i]? = some e →
      Visits a (e.children.toList ++ pending) order → Visits a (i :: pending) (i :: order)

variable {a : Arena α}

theorem value_subtree {β : Type} (f : Nat → α → β) (a : Arena α) (i : Nat) (h : i < a.size) :
    (a.subtree f i h).value = f i a[i].value := by
  rw [subtree]
  rfl

theorem lt_of_mem_children {j c : Nat} {e : Entry α} (he : a.rows[j]? = some e)
    (hc : c ∈ e.children.toList) : j < c := by
  rw [← getElem?_entries] at he
  obtain ⟨hj, rfl⟩ := Array.getElem?_eq_some_iff.1 he
  exact (a.children_gt j hj c (Array.mem_toList_iff.1 hc)).1

namespace Below

variable {i j k c : Nat} {e : Entry α}

theorem trans (h : a.Below i j) (h' : a.Below j k) : a.Below i k := by
  induction h' with
  | self => exact h
  | child _ he hc ih => exact ih.child he hc

theorem le (h : a.Below i j) : i ≤ j := by
  induction h with
  | self => exact Nat.le_refl i
  | child _ he hc ih => exact Nat.le_trans ih (Nat.le_of_lt (lt_of_mem_children he hc))

theorem eq_or_exists (h : a.Below i j) :
    j = i ∨ ∃ e c, a.rows[i]? = some e ∧ c ∈ e.children.toList ∧ a.Below c j := by
  induction h with
  | self => exact .inl rfl
  | @child j c e _ he hc ih =>
    rcases ih with rfl | ⟨d, b, hd, hb, hbj⟩
    · exact .inr ⟨e, c, he, hc, .self⟩
    · exact .inr ⟨d, b, hd, hb, hbj.child he hc⟩

/-- A child lies below a node only if its parent does. -/
theorem of_child (hl : Entry.Linked a.rows) (he : a.rows[j]? = some e)
    (hc : c ∈ e.children.toList) (h : a.Below k c) : c = k ∨ a.Below k j := by
  cases h with
  | self => exact .inl rfl
  | @child m _ d hkm hd hcm =>
    have hlt := hl.children_lt he hc
    have hf : a.rows[c]? = some a.rows[c] := List.getElem?_eq_getElem hlt
    have hparent := (hl.mem_children he hf).1 hc
    have hparent' := (hl.mem_children hd hf).1 hcm
    cases Option.some.inj (hparent.symm.trans hparent')
    exact .inr hkm

end Below

/-- A tree that lies in the arena takes up the numbers of what is below its root. -/
theorem below_iff_of_layout (hl : Entry.Linked a.rows) {r : Rose α} {p : Option Nat} {i : Nat}
    (hr : r.layout p i <+: a.rows.drop i) (j : Nat) : a.Below i j ↔ i ≤ j ∧ j < i + r.size := by
  have hrow : ∀ k, k < r.size → a.rows[i + k]? = (r.layout p i)[k]? := by
    intro k hk
    obtain ⟨rest, hrest⟩ := hr
    rw [← List.getElem?_drop, ← hrest, List.getElem?_append_left (by simpa using hk)]
  have hpos := r.size_pos
  constructor
  · intro h
    induction h with
    | self => omega
    | @child j c e _ he hc ih =>
      obtain ⟨k, rfl⟩ : ∃ k, j = i + k := ⟨j - i, by omega⟩
      rw [hrow k (by omega)] at he
      have := Rose.children_of_mem_layout p i k r he hc
      omega
  · rintro ⟨hle, hlt⟩
    obtain ⟨k, rfl⟩ : ∃ k, j = i + k := ⟨j - i, by omega⟩
    clear hle
    induction k using Nat.strongRecOn with
    | ind k ih =>
      have hk : k < (r.layout p i).length := by
        rw [Rose.length_layout]
        omega
      have hj := List.getElem?_eq_getElem hk
      have hparent := Rose.parent_of_mem_layout p i k r hj
      split at hparent
      · rename_i hz
        subst hz
        exact .self
      · -- the parent stands between the root and the node
        obtain ⟨q, hq, hiq, hqk⟩ := hparent
        obtain ⟨m, rfl⟩ : ∃ m, q = i + m := ⟨q - i, by omega⟩
        have hm : m < (r.layout p i).length := by
          rw [Rose.length_layout]
          omega
        have hrowm : a.rows[i + m]? = some (r.layout p i)[m] :=
          (hrow m (by omega)).trans (List.getElem?_eq_getElem hm)
        have hrowk : a.rows[i + k]? = some (r.layout p i)[k] := (hrow k (by omega)).trans hj
        exact .child (ih m (by omega) (by omega)) hrowm ((hl.mem_children hrowm hrowk).2 hq)

mutual
theorem visits_layout : ∀ (r : Rose α) (p : Option Nat) (i : Nat) {pending order : List Nat},
    r.layout p i <+: a.rows.drop i → a.Visits pending order →
      a.Visits (i :: pending) (List.range' i r.size ++ order)
  | .node v cs, p, i, pending, order, hr, h => by
    obtain ⟨hi, hcs⟩ := Rose.layout_prefix_iff.1 hr
    rw [Rose.size, List.range'_succ]
    exact .next hi (visits_layouts cs (some i) (i + 1) hcs h)

theorem visits_layouts : ∀ (cs : List (Rose α)) (p : Option Nat) (i : Nat)
    {pending order : List Nat}, layouts p i cs <+: a.rows.drop i → a.Visits pending order →
      a.Visits (starts i cs ++ pending) (List.range' i (sizes cs) ++ order)
  | [], p, i, pending, order, _, h => h
  | c :: cs, p, i, pending, order, hr, h => by
    obtain ⟨hc, hcs⟩ := Rose.layouts_prefix_iff.1 hr
    have := visits_layout c p i hc (visits_layouts cs p (i + c.size) hcs h)
    rwa [← List.append_assoc, List.range'_append_1] at this
end

/-- All entries make up one tree in pre-order: its root comes first, and every other node is listed
once, by its parent, after all that was listed before. -/
structure OneTree (a : Arena α) (root : Nat) : Prop where
  root_eq : root = 0
  parent_eq_none : ∀ {i : Nat} {e : Entry α}, a.rows[i]? = some e → (e.parent = none ↔ i = root)
  parent_lt : ∀ {i p : Nat} {e : Entry α}, a.rows[i]? = some e → e.parent = some p → p < i
  count_children : ∀ {i j : Nat} {e f : Entry α}, a.rows[i]? = some e → a.rows[j]? = some f →
    e.children.toList.count j = if f.parent = some i then 1 else 0
  ascending : ∀ {i : Nat} {e : Entry α}, a.rows[i]? = some e → e.children.toList.Pairwise (· < ·)
  visits : a.Visits [root] (List.range a.size)

theorem oneTree_of_layout {r : Rose α} {root : Nat} (hroot : root = 0)
    (h : a.rows = r.layout none 0) : a.OneTree root := by
  have hlinked : Entry.Linked a.rows := h ▸ Entry.Linked.layout r
  have hplace : r.layout none 0 <+: a.rows.drop 0 := by
    simp [h]
  have hsize : a.size = r.size := by
    rw [← length_rows, h, Rose.length_layout]
  subst hroot
  constructor
  · rfl
  · intro i e he
    rw [h] at he
    have hparent := Rose.parent_of_mem_layout none 0 i r he
    split at hparent
    · simp_all
    · obtain ⟨q, hq, -⟩ := hparent
      simp_all
  · intro i p e he hp
    exact hlinked.parent_lt he hp
  · intro i j e f he hf
    have hnodup : e.children.toList.Nodup := (hlinked.ascending he).imp Nat.ne_of_lt
    rw [hnodup.count]
    simp only [hlinked.mem_children he hf]
  · intro i e he
    exact hlinked.ascending he
  · have hvisits := visits_layout r none 0 hplace .done
    rwa [List.append_nil, ← hsize, ← List.range_eq_range'] at hvisits

end Arena
end CanonTree
