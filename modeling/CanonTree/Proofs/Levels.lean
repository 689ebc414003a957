import CanonTree.Proofs.Canon.Order

namespace CanonTree

variable {α β : Type}

namespace Rose

mutual
/-- The values in pre-order, each with its depth, which is `d` for the root. -/
def levels (d : Nat) : Rose α → List (Nat × α)
  | node v cs => (d, v) :: forestLevels (d + 1) cs

def forestLevels (d : Nat) : List (Rose α) → List (Nat × α)
  | [] => []
  | c :: cs => c.levels d ++ forestLevels d cs
end

mutual
theorem length_levels (d : Nat) : ∀ r : Rose α, (r.levels d).length = r.size
  | node v cs => by
    rw [levels, List.length_cons, length_forestLevels (d + 1) cs, size]

theorem length_forestLevels (d : Nat) :
    ∀ cs : List (Rose α), (forestLevels d cs).length = sizes cs
  | [] => rfl
  | c :: cs => by
    rw [forestLevels, List.length_append, length_levels d c, length_forestLevels d cs, sizes]
end

mutual
theorem map_snd_levels (d : Nat) : ∀ r : Rose α, (r.levels d).map Prod.snd = r.preorder
  | node v cs => by
    rw [levels, List.map_cons, map_snd_forestLevels (d + 1) cs, preorder]

theorem map_snd_forestLevels (d : Nat) :
    ∀ cs : List (Rose α), (forestLevels d cs).map Prod.snd = preorders cs
  | [] => rfl
  | c :: cs => by
    rw [forestLevels, List.map_append, map_snd_levels d c, map_snd_forestLevels d cs, preorders]
end

mutual
theorem levels_map (f : α → β) (d : Nat) :
    ∀ r : Rose α, (r.map f).levels d = (r.levels d).map (Prod.map id f)
  | node v cs => by
    rw [map, levels, levels, forestLevels_maps f (d + 1) cs]
    rfl

theorem forestLevels_maps (f : α → β) (d : Nat) : ∀ cs : List (Rose α),
    forestLevels d (maps f cs) = (forestLevels d cs).map (Prod.map id f)
  | [] => rfl
  | c :: cs => by
    rw [maps, forestLevels, forestLevels, List.map_append, levels_map f d c,
      forestLevels_maps f d cs]
end

/-- What follows the subtrees of depth `d` begins above that depth. -/
def Ascends (d : Nat) (xs : List (Nat × α)) : Prop := ∀ x ∈ xs.head?, x.1 < d

theorem Ascends.forest {d : Nat} {xs : List (Nat × α)} (h : Ascends d xs) (cs : List (Rose α)) :
    Ascends (d + 1) (forestLevels d cs ++ xs) := by
  intro x hx
  cases cs with
  | nil => exact Nat.lt_succ_of_lt (h x hx)
  | cons c cs =>
    cases c
    cases hx
    exact Nat.lt_succ_self d

theorem Ascends.eq_nil {d : Nat} {xs ys : List (Nat × α)} {cs : List (Rose α)}
    (h : Ascends d xs) (hxs : xs = forestLevels d cs ++ ys) : cs = [] := by
  cases cs with
  | nil => rfl
  | cons c cs =>
    cases c
    subst hxs
    exact absurd (h _ rfl) (Nat.lt_irrefl d)

/-- A forest is read off the depths: it ends where they ascend. -/
theorem forestLevels_append_inj : ∀ (cs ds : List (Rose α)) {d : Nat} {xs ys : List (Nat × α)},
    Ascends d xs → Ascends d ys → forestLevels d cs ++ xs = forestLevels d ds ++ ys →
      cs = ds ∧ xs = ys
  | [], ds, d, xs, ys, hxs, _, h => by
    obtain rfl := hxs.eq_nil h
    exact ⟨rfl, h⟩
  | c :: cs, [], d, xs, ys, _, hys, h => by
    cases hys.eq_nil h.symm
  | .node v ks :: cs, .node w ls :: ds, d, xs, ys, hxs, hys, h => by
    simp only [forestLevels, levels, List.cons_append, List.append_assoc, List.cons.injEq,
      Prod.mk.injEq, true_and] at h
    obtain ⟨rfl, hbelow⟩ := h
    obtain ⟨rfl, hbeside⟩ := forestLevels_append_inj ks ls (hxs.forest cs) (hys.forest ds) hbelow
    obtain ⟨rfl, hbehind⟩ := forestLevels_append_inj cs ds hxs hys hbeside
    exact ⟨rfl, hbehind⟩

theorem levels_injective {d : Nat} {r s : Rose α} (h : r.levels d = s.levels d) : r = s := by
  have hnone : Ascends d ([] : List (Nat × α)) := nofun
  have hforest : forestLevels d [r] ++ [] = forestLevels d [s] ++ [] := by
    simp [forestLevels, h]
  exact List.singleton_inj.1 (forestLevels_append_inj [r] [s] hnone hnone hforest).1

end Rose

namespace Arena

open Rose (layouts levels forestLevels sizes)

variable {a : Arena α}

/-- Node `i` of the arena is `x.2`, and `x.1` steps lead from it up to the root. -/
def Stands (a : Arena α) (i : Nat) (x : Nat × α) : Prop :=
  ∃ h : i < a.size, a.depth i h = x.1 ∧ a[i].value = x.2

def DepthBelow (a : Arena α) (p : Option Nat) (d : Nat) : Prop :=
  match p with
  | none => d = 0
  | some q => ∃ h : q < a.size, d = a.depth q h + 1

theorem depth_eq {p : Option Nat} {d i : Nat} {e : Entry α} (h : i < a.size)
    (he : a.rows[i]? = some e) (hp : e.parent = p) (hd : a.DepthBelow p d) : a.depth i h = d := by
  cases p with
  | none => rw [depth_of_root h he hp, hd]
  | some q =>
    obtain ⟨_, hdepth⟩ := depth_of_child h he hp
    obtain ⟨_, hq⟩ := hd
    rw [hdepth, hq]

theorem stands_of_row {p : Option Nat} {d i : Nat} {e : Entry α} (he : a.rows[i]? = some e)
    (hp : e.parent = p) (hd : a.DepthBelow p d) : a.Stands i (d, e.value) := by
  have hi : i < a.size := by
    rw [← length_rows]
    exact (List.getElem?_eq_some_iff.1 he).1
  refine ⟨hi, depth_eq hi he hp hd, ?_⟩
  rw [← getElem?_entries] at he
  obtain ⟨_, rfl⟩ := Array.getElem?_eq_some_iff.1 he
  rfl

mutual
/-- The levels of a tree that lies in the arena are the depths of its nodes there. -/
theorem stands_levels : ∀ (r : Rose α) {p : Option Nat} {i d k : Nat} {x : Nat × α},
    r.layout p i <+: a.rows.drop i → a.DepthBelow p d → (r.levels d)[k]? = some x →
      a.Stands (i + k) x
  | .node v cs, p, i, d, k, x, hr, hd, hx => by
    obtain ⟨hi, hcs⟩ := Rose.layout_prefix_iff.1 hr
    have hroot := stands_of_row hi rfl hd
    cases k with
    | zero =>
      simp only [levels, List.getElem?_cons_zero, Option.some.injEq] at hx
      subst hx
      exact hroot
    | succ k =>
      rw [levels, List.getElem?_cons_succ] at hx
      obtain ⟨hlt, hdepth, -⟩ := hroot
      have hbelow : a.DepthBelow (some i) (d + 1) := ⟨hlt, by rw [hdepth]⟩
      have := stands_forestLevels cs hcs hbelow hx
      rwa [Nat.add_right_comm, Nat.add_assoc] at this

theorem stands_forestLevels : ∀ (cs : List (Rose α)) {p : Option Nat} {i d k : Nat}
    {x : Nat × α}, layouts p i cs <+: a.rows.drop i → a.DepthBelow p d →
      (forestLevels d cs)[k]? = some x → a.Stands (i + k) x
  | [], p, i, d, k, x, _, _, hx => by
    simp [forestLevels] at hx
  | c :: cs, p, i, d, k, x, hr, hd, hx => by
    obtain ⟨hc, hcs⟩ := Rose.layouts_prefix_iff.1 hr
    rw [forestLevels, List.getElem?_append] at hx
    split at hx
    · exact stands_levels c hc hd hx
    · rename_i hk
      rw [Rose.length_levels] at hk hx
      have := stands_forestLevels cs hcs hd hx
      rwa [show i + c.size + (k - c.size) = i + k by omega] at this
end

end Arena
end CanonTree
