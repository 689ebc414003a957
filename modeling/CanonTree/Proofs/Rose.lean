import CanonTree.Rose

namespace CanonTree.Rose

variable {α β γ : Type}

@[elab_as_elim, induction_eliminator]
theorem recOnChildren {motive : Rose α → Prop}
    (node : ∀ v cs, (∀ c ∈ cs, motive c) → motive (.node v cs)) (r : Rose α) : motive r := by
  apply Rose.rec (motive_1 := motive) (motive_2 := fun cs => ∀ c ∈ cs, motive c)
  · exact node
  · exact fun c hc => absurd hc List.not_mem_nil
  · intro c cs hc hcs d hd
    rcases List.mem_cons.1 hd with rfl | hd
    · exact hc
    · exact hcs d hd

theorem size_pos (r : Rose α) : 0 < r.size := by
  cases r
  simp [size]

theorem size_le_sizes {c : Rose α} {cs : List (Rose α)} (h : c ∈ cs) : c.size ≤ sizes cs := by
  induction cs with
  | nil => exact absurd h List.not_mem_nil
  | cons d ds ih =>
    rcases List.mem_cons.1 h with rfl | h
    · simp [sizes]
    · have := ih h
      simp only [sizes]
      omega

theorem size_lt_of_mem_children {c r : Rose α} (h : c ∈ r.children) : c.size < r.size := by
  cases r with
  | node v cs => exact Nat.lt_succ_of_le (size_le_sizes h)

theorem sizes_append (cs ds : List (Rose α)) : sizes (cs ++ ds) = sizes cs + sizes ds := by
  induction cs with
  | nil => simp [sizes]
  | cons c cs ih => simp [sizes, ih, Nat.add_assoc]

theorem length_le_sizes (cs : List (Rose α)) : cs.length ≤ sizes cs := by
  induction cs with
  | nil => exact Nat.le_refl 0
  | cons c cs ih =>
    have := c.size_pos
    simp only [List.length_cons, sizes]
    omega

theorem sizes_of_leaves {f : β → Rose α} (hf : ∀ b, (f b).size = 1) (bs : List β) :
    sizes (bs.map f) = bs.length := by
  induction bs with
  | nil => rfl
  | cons b bs ih =>
    rw [List.map_cons, sizes, hf, ih, List.length_cons]
    omega

theorem sizes_le_of_sublist {cs ds : List (Rose α)} (h : cs.Sublist ds) : sizes cs ≤ sizes ds := by
  induction h with
  | slnil => exact Nat.le_refl 0
  | cons c _ ih => exact Nat.le_trans ih (Nat.le_add_left _ _)
  | cons_cons c _ ih => exact Nat.add_le_add_left ih c.size

theorem sizes_eq_of_perm {cs ds : List (Rose α)} (h : cs.Perm ds) : sizes cs = sizes ds := by
  induction h with
  | nil => rfl
  | cons c _ ih => rw [sizes, sizes, ih]
  | swap c d cs => simp only [sizes, Nat.add_left_comm]
  | trans _ _ ih ih' => exact ih.trans ih'

theorem maps_eq (f : α → β) (cs : List (Rose α)) : maps f cs = cs.map (·.map f) := by
  induction cs with
  | nil => rfl
  | cons c cs ih => simp [maps, ih]

theorem preorders_eq (cs : List (Rose α)) : preorders cs = cs.flatMap preorder := by
  induction cs with
  | nil => rfl
  | cons c cs ih => rw [preorders, ih, List.flatMap_cons]

theorem forestSubtrees_eq (cs : List (Rose α)) : forestSubtrees cs = cs.flatMap subtrees := by
  induction cs with
  | nil => rfl
  | cons c cs ih => rw [forestSubtrees, ih, List.flatMap_cons]

mutual
/-- Gives the nodes numbers in pre-order, from `i` on; `f` makes a value of a number and a value. -/
def number (f : Nat → α → β) (i : Nat) : Rose α → Rose β
  | node v cs => node (f i v) (numbers f (i + 1) cs)

def numbers (f : Nat → α → β) (i : Nat) : List (Rose α) → List (Rose β)
  | [] => []
  | c :: cs => c.number f i :: numbers f (i + c.size) cs
end

mutual
theorem map_number (g : β → γ) (f : Nat → α → β) (i : Nat) :
    ∀ r : Rose α, (r.number f i).map g = r.number (fun i v => g (f i v)) i
  | node v cs => by
    simp only [number, map]
    rw [maps_numbers g f (i + 1) cs]

theorem maps_numbers (g : β → γ) (f : Nat → α → β) (i : Nat) :
    ∀ cs : List (Rose α), maps g (numbers f i cs) = numbers (fun i v => g (f i v)) i cs
  | [] => rfl
  | c :: cs => by
    simp only [numbers, maps]
    rw [map_number g f i c, maps_numbers g f (i + c.size) cs]
end

mutual
theorem number_const (g : α → β) (i : Nat) : ∀ r : Rose α, r.number (fun _ v => g v) i = r.map g
  | node v cs => by
    simp only [number, map]
    rw [numbers_const g (i + 1) cs]

theorem numbers_const (g : α → β) (i : Nat) :
    ∀ cs : List (Rose α), numbers (fun _ v => g v) i cs = maps g cs
  | [] => rfl
  | c :: cs => by
    simp only [numbers, maps]
    rw [number_const g i c, numbers_const g (i + c.size) cs]
end

theorem map_id (r : Rose α) : r.map id = r := by
  induction r with
  | node v cs ih =>
    have hm : cs.map (·.map id) = cs.map id := List.map_congr_left ih
    simp [map, maps_eq, hm]

theorem number_value (i : Nat) (r : Rose α) : r.number (fun _ v => v) i = r := by
  rw [number_const (fun v => v) i r]
  exact map_id r

mutual
theorem size_number (f : Nat → α → β) (i : Nat) : ∀ r : Rose α, (r.number f i).size = r.size
  | node v cs => by
    simp only [number, size]
    rw [sizes_numbers f (i + 1) cs]

theorem sizes_numbers (f : Nat → α → β) (i : Nat) :
    ∀ cs : List (Rose α), sizes (numbers f i cs) = sizes cs
  | [] => rfl
  | c :: cs => by
    simp only [numbers, sizes]
    rw [size_number f i c, sizes_numbers f (i + c.size) cs]
end

mutual
def paths : Rose α → List (List α)
  | node v [] => [[v]]
  | node v (c :: cs) => (forestPaths (c :: cs)).map (v :: ·)

def forestPaths : List (Rose α) → List (List α)
  | [] => []
  | c :: cs => c.paths ++ forestPaths cs
end

mutual
/-- The number of nodes on a longest path. -/
def height : Rose α → Nat
  | node _ cs => heights cs + 1

def heights : List (Rose α) → Nat
  | [] => 0
  | c :: cs => max c.height (heights cs)
end

theorem height_pos (r : Rose α) : 0 < r.height := by
  cases r
  exact Nat.succ_pos _

mutual
theorem height_number (f : Nat → α → β) (i : Nat) : ∀ r : Rose α, (r.number f i).height = r.height
  | node v cs => by
    simp only [number, height]
    rw [heights_numbers f (i + 1) cs]

theorem heights_numbers (f : Nat → α → β) (i : Nat) :
    ∀ cs : List (Rose α), heights (numbers f i cs) = heights cs
  | [] => rfl
  | c :: cs => by
    simp only [numbers, heights]
    rw [height_number f i c, heights_numbers f (i + c.size) cs]
end

theorem height_map (g : α → β) (r : Rose α) : (r.map g).height = r.height := by
  rw [← number_const g 0 r, height_number]

theorem mem_forestPaths {p : List α} {cs : List (Rose α)} :
    p ∈ forestPaths cs ↔ ∃ c ∈ cs, p ∈ c.paths := by
  induction cs with
  | nil => simp [forestPaths]
  | cons c cs ih => simp [forestPaths, ih]

theorem heights_le {cs : List (Rose α)} {n : Nat} : heights cs ≤ n ↔ ∀ c ∈ cs, c.height ≤ n := by
  induction cs with
  | nil => simp [heights]
  | cons c cs ih =>
    rw [heights, Nat.max_le, ih, List.forall_mem_cons]

theorem paths_ne_nil (r : Rose α) : r.paths ≠ [] := by
  induction r with
  | node v cs ih =>
    cases cs with
    | nil => simp [paths]
    | cons c cs => simp [paths, forestPaths, ih c List.mem_cons_self]

theorem height_le {r : Rose α} {n : Nat} : r.height ≤ n ↔ ∀ p ∈ r.paths, p.length ≤ n := by
  induction r generalizing n with
  | node v cs ih =>
    cases cs with
    | nil => simp [height, heights, paths]
    | cons c cs =>
      simp only [height, paths, List.mem_map, mem_forestPaths]
      constructor
      · rintro h p ⟨q, ⟨d, hd, hq⟩, rfl⟩
        have hn : heights (c :: cs) ≤ n - 1 := by omega
        have hl := (ih d hd).1 (heights_le.1 hn d hd) q hq
        simp only [List.length_cons]
        omega
      · intro h
        -- the path below the first child shows that the bound is not zero
        obtain ⟨p, hp⟩ := List.exists_mem_of_ne_nil _ (paths_ne_nil c)
        have hone := h (v :: p) ⟨p, ⟨c, List.mem_cons_self, hp⟩, rfl⟩
        simp only [List.length_cons] at hone
        have hc : heights (c :: cs) ≤ n - 1 := by
          refine heights_le.2 fun d hd => (ih d hd).2 fun q hq => ?_
          have := h (v :: q) ⟨q, ⟨d, hd, hq⟩, rfl⟩
          simp only [List.length_cons] at this
          omega
        omega

end CanonTree.Rose
