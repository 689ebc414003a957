import CanonTree.Arena
import CanonTree.Proofs.Rose

namespace CanonTree

variable {α β : Type}

namespace Rose

/-- The numbers of the roots of a forest whose nodes are numbered in pre-order from `i` on. -/
def starts (i : Nat) : List (Rose α) → List Nat
  | [] => []
  | c :: cs => i :: starts (i + c.size) cs

mutual
/-- The entries of a tree whose root has number `i` and parent `p`. -/
def layout (p : Option Nat) (i : Nat) : Rose α → List (Entry α)
  | node v cs => { value := v, parent := p, children := (starts (i + 1) cs).toArray } ::
      layouts (some i) (i + 1) cs

def layouts (p : Option Nat) (i : Nat) : List (Rose α) → List (Entry α)
  | [] => []
  | c :: cs => c.layout p i ++ layouts p (i + c.size) cs
end

mutual
@[simp] theorem length_layout (p : Option Nat) (i : Nat) :
    ∀ r : Rose α, (r.layout p i).length = r.size
  | node v cs => by
    simp only [layout, size, List.length_cons]
    rw [length_layouts (some i) (i + 1) cs]

@[simp] theorem length_layouts (p : Option Nat) (i : Nat) :
    ∀ cs : List (Rose α), (layouts p i cs).length = sizes cs
  | [] => rfl
  | c :: cs => by
    simp only [layouts, sizes, List.length_append]
    rw [length_layout p i c, length_layouts p (i + c.size) cs]
end

theorem starts_append (i : Nat) (cs ds : List (Rose α)) :
    starts i (cs ++ ds) = starts i cs ++ starts (i + sizes cs) ds := by
  induction cs generalizing i with
  | nil => simp [starts, sizes]
  | cons c cs ih => simp [starts, sizes, ih, Nat.add_assoc]

theorem layouts_append (p : Option Nat) (i : Nat) (cs ds : List (Rose α)) :
    layouts p i (cs ++ ds) = layouts p i cs ++ layouts p (i + sizes cs) ds := by
  induction cs generalizing i with
  | nil => simp [layouts, sizes]
  | cons c cs ih => simp [layouts, sizes, ih, Nat.add_assoc]

/-- The layout of a tree is its first entry, followed by the layouts of its children. -/
theorem layout_prefix_iff {es : List (Entry α)} {p : Option Nat} {i : Nat} {v : α}
    {cs : List (Rose α)} : (node v cs).layout p i <+: es.drop i ↔
      es[i]? = some ⟨v, p, (starts (i + 1) cs).toArray⟩ ∧
        layouts (some i) (i + 1) cs <+: es.drop (i + 1) := by
  rw [layout]
  cases hd : es.drop i with
  | nil =>
    have hi : es[i]? = none := by
      rw [← List.head?_drop, hd]
      rfl
    simp [hi]
  | cons e rest =>
    have hi : es[i]? = some e := by
      rw [← List.head?_drop, hd]
      rfl
    have hrest : es.drop (i + 1) = rest := by
      rw [← List.tail_drop, hd]
      rfl
    rw [List.cons_prefix_cons, hi, hrest, Option.some.injEq, eq_comm]

theorem append_prefix_drop {as as' bs : List α} {k : Nat} :
    as ++ as' <+: bs.drop k ↔ as <+: bs.drop k ∧ as' <+: bs.drop (k + as.length) := by
  constructor
  · rintro ⟨rest, hrest⟩
    refine ⟨⟨as' ++ rest, by rw [← hrest, List.append_assoc]⟩, rest, ?_⟩
    rw [← List.drop_drop, ← hrest, List.append_assoc, List.drop_left]
  · rintro ⟨⟨rest, hrest⟩, h⟩
    rw [← List.drop_drop, ← hrest, List.drop_left] at h
    rw [← hrest]
    exact (List.prefix_append_right_inj as).2 h

theorem layouts_prefix_iff {es : List (Entry α)} {p : Option Nat} {i : Nat} {c : Rose α}
    {cs : List (Rose α)} : layouts p i (c :: cs) <+: es.drop i ↔
      c.layout p i <+: es.drop i ∧ layouts p (i + c.size) cs <+: es.drop (i + c.size) := by
  rw [layouts, append_prefix_drop, length_layout]

theorem mem_starts {i j : Nat} {cs : List (Rose α)} (h : j ∈ starts i cs) :
    i ≤ j ∧ j < i + sizes cs := by
  induction cs generalizing i with
  | nil => simp [starts] at h
  | cons c cs ih =>
    have hc := size_pos c
    simp only [starts, List.mem_cons] at h
    simp only [sizes]
    rcases h with rfl | h
    · omega
    · have := ih h
      omega

mutual
theorem parent_of_mem_layout {e : Entry α} (p : Option Nat) (i k : Nat) :
    ∀ r : Rose α, (r.layout p i)[k]? = some e →
      if k = 0 then e.parent = p else ∃ q, e.parent = some q ∧ i ≤ q ∧ q < i + k
  | node v cs => by
    intro h
    cases k with
    | zero =>
      simp only [layout, List.getElem?_cons_zero, Option.some.injEq] at h
      simp [← h]
    | succ k =>
      simp only [layout, List.getElem?_cons_succ] at h
      rcases parent_of_mem_layouts (some i) (i + 1) k cs h with hp | ⟨q, hq, hl, hu⟩
      · exact ⟨i, hp, Nat.le_refl i, by omega⟩
      · exact ⟨q, hq, by omega, by omega⟩

theorem parent_of_mem_layouts {e : Entry α} (p : Option Nat) (i k : Nat) :
    ∀ cs : List (Rose α), (layouts p i cs)[k]? = some e →
      e.parent = p ∨ ∃ q, e.parent = some q ∧ i ≤ q ∧ q < i + k
  | [] => by simp [layouts]
  | c :: cs => by
    intro h
    rw [layouts, List.getElem?_append] at h
    split at h
    · have := parent_of_mem_layout p i k c h
      split at this
      · exact Or.inl this
      · exact Or.inr this
    · rename_i hk
      simp only [length_layout, Nat.not_lt] at h hk
      rcases parent_of_mem_layouts p (i + c.size) (k - c.size) cs h with hp | ⟨q, hq, hl, hu⟩
      · exact Or.inl hp
      · exact Or.inr ⟨q, hq, by omega, by omega⟩
end

end Rose

open Rose (starts layout layouts)

namespace Entry

def adoptAll (p : Option Nat) (ids : List Nat) (es : List (Entry α)) : List (Entry α) :=
  match p with
  | none => es
  | some q => es.modify q fun e => { e with children := e.children ++ ids.toArray }

/-- Hangs a forest below the entry with number `p`, or beside the entries if there is no `p`. -/
def graft (p : Option Nat) (es : List (Entry α)) (cs : List (Rose α)) : List (Entry α) :=
  adoptAll p (starts es.length cs) es ++ layouts p es.length cs

@[simp] theorem length_adoptAll (p : Option Nat) (ids : List Nat) (es : List (Entry α)) :
    (adoptAll p ids es).length = es.length := by
  cases p <;> simp [adoptAll]

@[simp] theorem length_graft (p : Option Nat) (es : List (Entry α)) (cs : List (Rose α)) :
    (graft p es cs).length = es.length + Rose.sizes cs := by
  simp [graft]

theorem adoptAll_nil (p : Option Nat) (es : List (Entry α)) : adoptAll p [] es = es := by
  cases p with
  | none => rfl
  | some q =>
    have hid : (fun e : Entry α => { e with children := e.children ++ ([] : List Nat).toArray }) =
        id := by
      funext e
      simp
    rw [adoptAll, hid, List.modify_id]

theorem adoptAll_adoptAll (p : Option Nat) (js ks : List Nat) (es : List (Entry α)) :
    adoptAll p ks (adoptAll p js es) = adoptAll p (js ++ ks) es := by
  cases p with
  | none => rfl
  | some q =>
    rw [adoptAll, adoptAll, adoptAll, List.modify_modify_eq]
    congr 1
    funext e
    simp

theorem adoptAll_append (p : Option Nat) (ids : List Nat) (es fs : List (Entry α))
    (hp : ∀ q ∈ p, q < es.length) : adoptAll p ids (es ++ fs) = adoptAll p ids es ++ fs := by
  cases p with
  | none => rfl
  | some q =>
    have hq := hp q rfl
    simp only [adoptAll]
    clear hp
    induction es generalizing q with
    | nil => simp at hq
    | cons e es ih =>
      cases q with
      | zero => simp
      | succ q => simpa using ih q (by simpa using hq)

theorem graft_nil (p : Option Nat) (es : List (Entry α)) : graft p es [] = es := by
  simp [graft, starts, layouts, adoptAll_nil]

theorem graft_append (p : Option Nat) (es : List (Entry α)) (cs ds : List (Rose α))
    (hp : ∀ q ∈ p, q < es.length) : graft p (graft p es cs) ds = graft p es (cs ++ ds) := by
  have hq : ∀ q ∈ p, q < (adoptAll p (starts es.length cs) es).length := by simpa using hp
  rw [graft, length_graft]
  simp only [graft]
  rw [adoptAll_append p _ _ _ hq, adoptAll_adoptAll, Rose.starts_append, Rose.layouts_append]
  simp

/-- Adding a node and hanging a forest below it is hanging one tree. -/
theorem graft_leaf (p : Option Nat) (es : List (Entry α)) (v : α) (cs : List (Rose α)) :
    graft (some es.length) (graft p es [.node v []]) cs = graft p es [.node v cs] := by
  have hlast : ∀ (xs : List (Entry α)) (ids : List Nat) (e : Entry α),
      adoptAll (some xs.length) ids (xs ++ [e]) =
        xs ++ [{ e with children := e.children ++ ids.toArray }] := by
    intro xs ids e
    induction xs with
    | nil => simp [adoptAll]
    | cons x xs ih => simpa [adoptAll] using ih
  have hx := hlast (adoptAll p [es.length] es) (starts (es.length + 1) cs)
    { value := v, parent := p, children := #[] }
  rw [length_adoptAll] at hx
  simp [graft, starts, layouts, layout, hx]

theorem graft_node (p : Option Nat) (es : List (Entry α)) (v : α) (cs ds : List (Rose α)) :
    graft (some es.length) (graft p es [.node v cs]) ds = graft p es [.node v (cs ++ ds)] := by
  have hp : ∀ q ∈ some es.length, q < (graft p es [.node v []]).length := by
    simp [Rose.sizes, Rose.size]
  rw [← graft_leaf, graft_append _ _ _ _ hp, graft_leaf]

theorem graft_none_nil (r : Rose α) : graft none [] [r] = r.layout none 0 := by
  simp [graft, adoptAll, layouts]

end Entry

namespace Arena

def rows (a : Arena α) : List (Entry α) := a.entries.toList

@[simp] theorem length_rows (a : Arena α) : a.rows.length = a.size := by
  simp [rows, size]

theorem getElem?_entries (a : Arena α) (i : Nat) : a.entries[i]? = a.rows[i]? := by
  simp [rows]

theorem ext_rows {a b : Arena α} (h : a.rows = b.rows) : a = b := by
  cases a
  cases b
  simpa [rows] using h

theorem rows_add (a : Arena α) (p : Option Nat) (hp : ∀ i ∈ p, i < a.size) (v : α) :
    (a.add p hp v).rows = Entry.graft p a.rows [.node v []] := by
  cases p with
  | none => simp [add, addRoot, rows, Entry.graft, Entry.adoptAll, layouts, layout, starts]
  | some q =>
    have : (adopt a.entries.size : Entry α → Entry α) =
        fun e => { e with children := e.children.push a.entries.size } := rfl
    simp [add, addChild, rows, Entry.graft, Entry.adoptAll, layouts, layout, starts, this, size]

theorem subtree_eq (f : Nat → α → β) (a : Arena α) (i : Nat) (h : i < a.size) (e : Entry α)
    (he : a.rows[i]? = some e) (hb : ∀ c ∈ e.children.toList, c < a.size) :
    a.subtree f i h =
      .node (f i e.value) (e.children.toList.pmap (fun c hc => a.subtree f c hc) hb) := by
  have hi : i < a.entries.size := h
  have hv : a.entries[i] = e := by
    simpa [rows, hi] using he
  subst hv
  rw [subtree, List.pmap_eq_map_attach]
  rfl

theorem pmap_subtree_starts (f : Nat → α → β) (a : Arena α) (p : Option Nat) (i : Nat)
    (cs : List (Rose α)) (hcs : layouts p i cs <+: a.rows.drop i)
    (hc : ∀ c ∈ cs, ∀ j (h : j < a.size), c.layout p j <+: a.rows.drop j →
      a.subtree f j h = c.number f j)
    (hb : ∀ c ∈ starts i cs, c < a.size) :
    (starts i cs).pmap (fun c h => a.subtree f c h) hb = Rose.numbers f i cs := by
  induction cs generalizing i with
  | nil => simp [starts, Rose.numbers]
  | cons c cs ih =>
    obtain ⟨hfirst, hothers⟩ := Rose.layouts_prefix_iff.1 hcs
    simp only [starts, Rose.numbers, List.pmap_cons]
    rw [hc c List.mem_cons_self i _ hfirst,
      ih (i + c.size) hothers (fun d hd => hc d (List.mem_cons_of_mem c hd))]

/-- A tree that lies in the arena is what is read off below its root. -/
theorem subtree_eq_number (f : Nat → α → β) (a : Arena α) (r : Rose α) (p : Option Nat) (i : Nat)
    (h : i < a.size) (hr : r.layout p i <+: a.rows.drop i) : a.subtree f i h = r.number f i := by
  induction r generalizing p i with
  | node v cs ih =>
    obtain ⟨hi, hcs⟩ := Rose.layout_prefix_iff.1 hr
    have hb : ∀ c ∈ starts (i + 1) cs, c < a.size := by
      intro c hc
      have hlt := (Rose.mem_starts hc).2
      have hlen := hcs.length_le
      simp only [Rose.length_layouts, List.length_drop, length_rows] at hlen
      omega
    rw [subtree_eq f a i h _ hi (by simpa using hb), Rose.number]
    congr 1
    simpa using pmap_subtree_starts f a (some i) (i + 1) cs hcs
      (fun c hc j => ih c hc (some i) j) hb

end Arena
end CanonTree
