import CanonTree.Proofs.Canon.History

namespace CanonTree

namespace Arena

variable {α : Type} {a : Arena α} {i : Nat} {e : Entry α}

theorem depth_of_root (h : i < a.size) (he : a.rows[i]? = some e) (hp : e.parent = none) :
    a.depth i h = 0 := by
  rw [← getElem?_entries] at he
  obtain ⟨_, rfl⟩ := Array.getElem?_eq_some_iff.1 he
  rw [depth]
  split
  · rfl
  · rename_i p hq
    cases hp.symm.trans hq

theorem depth_of_child {p : Nat} (h : i < a.size) (he : a.rows[i]? = some e)
    (hp : e.parent = some p) : ∃ hlt : p < a.size, a.depth i h = a.depth p hlt + 1 := by
  rw [← getElem?_entries] at he
  obtain ⟨hi, rfl⟩ := Array.getElem?_eq_some_iff.1 he
  have hlt : p < a.size := Nat.lt_trans (a.parent_lt i hi p hp) h
  refine ⟨hlt, ?_⟩
  rw [depth]
  split
  · rename_i hq
    cases hp.symm.trans hq
  · rename_i q hq
    cases hp.symm.trans hq
    rfl

end Arena

namespace Canon

open Builder (Call made openings)

/-- The tree is what the calls leave behind: its nodes are those that were pushed, each with the
node that was open then as its parent, in pre-order and with links that agree. -/
structure Tree.Orderly (calls : List Call) (t : Tree) : Prop where
  root : t.root = 0
  parent_eq_none : ∀ {i : Nat} {e : Entry Node}, t.arena.rows[i]? = some e →
    (e.parent = none ↔ i = t.root)
  parent_lt : ∀ {i p : Nat} {e : Entry Node}, t.arena.rows[i]? = some e → e.parent = some p → p < i
  pushed : ∀ (i : Nat) (h : i < t.size), ∃ past n site b more e,
    calls = past ++ .push n site :: more ∧ (made past).push n site = .ok (i, b) ∧
      t.arena.rows[i]? = some e ∧ e.value = n ∧ e.parent = (made past).current? ∧
      t.arena.depth i h = (made past).depth
  count_children : ∀ {i j : Nat} {e f : Entry Node}, t.arena.rows[i]? = some e →
    t.arena.rows[j]? = some f → e.children.toList.count j = if f.parent = some i then 1 else 0
  ascending : ∀ {i : Nat} {e : Entry Node}, t.arena.rows[i]? = some e →
    e.children.toList.Pairwise (· < ·)
  contiguous : ∀ i < t.size, ∃ n, ∀ j, t.arena.Below i j ↔ i ≤ j ∧ j < i + n
  preorder : t.preorder = List.range t.size
  visits : t.arena.Visits [t.root] (List.range t.size)

theorem depth_of_opening {calls : List Call} {a : Arena Node}
    (hrows : a.rows.map (fun e => (e.value, e.parent)) =
      (openings calls).map fun o => (o.node, (made o.past).current?)) {i : Nat} (h : i < a.size)
    {o : Builder.Opening} (ho : (openings calls)[i]? = some o) :
    a.depth i h = (made o.past).depth := by
  induction i using Nat.strongRecOn generalizing o with
  | ind i ih =>
    have hrow := congrArg (·[i]?) hrows
    simp only [List.getElem?_map, ho, Option.map_some] at hrow
    obtain ⟨e, he, hpair⟩ := Option.map_eq_some_iff.1 hrow
    have hparent : e.parent = (made o.past).current? := congrArg Prod.snd hpair
    have hstacked := (Builder.recorded o.past).stacked
    cases hs : (made o.past).stack with
    | nil =>
      rw [Builder.current?_eq_none.2 hs] at hparent
      rw [Arena.depth_of_root h he hparent, Builder.depth, hs]
      rfl
    | cons top rest =>
      rw [hs] at hstacked
      cases hstacked with
      | @cons _ _ p hp _ hbelow _ =>
        -- what is below the top was open when the top was pushed
        have hcur : e.parent = some top.id := by
          rw [hparent, Builder.current?, hs]
          rfl
        obtain ⟨hlt, hdepth⟩ := Arena.depth_of_child h he hcur
        obtain ⟨b, more, rfl, -⟩ := Builder.exists_push_of_mem_openings (List.mem_of_getElem? ho)
        have htop : (openings (o.past ++ .push o.node o.site :: more))[top.id]? = some p := by
          rw [Builder.openings_append,
            List.getElem?_append_left (List.getElem?_eq_some_iff.1 hp).1, hp]
        have hless : top.id < i := by
          have hi : i < a.entries.size := h
          rw [← Arena.getElem?_entries] at he
          obtain ⟨_, rfl⟩ := Array.getElem?_eq_some_iff.1 he
          exact a.parent_lt i hi top.id hcur
        rw [hdepth, ih top.id hless hlt htop, Builder.depth, Builder.depth, hbelow, hs]
        rfl

theorem exists_push_of_row {calls : List Call} {a : Arena Node}
    (hrows : a.rows.map (fun e => (e.value, e.parent)) =
      (openings calls).map fun o => (o.node, (made o.past).current?)) {i : Nat} (h : i < a.size) :
    ∃ past n site b more e, calls = past ++ .push n site :: more ∧
      (made past).push n site = .ok (i, b) ∧ a.rows[i]? = some e ∧ e.value = n ∧
        e.parent = (made past).current? ∧ a.depth i h = (made past).depth := by
  have hlt : i < (openings calls).length := by
    have := congrArg List.length hrows
    simp only [List.length_map, Arena.length_rows] at this
    rwa [← this]
  have ho := List.getElem?_eq_getElem hlt
  obtain ⟨b, more, hcalls, hpush⟩ := Builder.exists_push_of_mem_openings (List.mem_of_getElem? ho)
  have hid : (openings calls)[i].id = i := by
    have := congrArg (·[i]?) (Builder.recorded calls).ids
    simp only [List.getElem?_map, ho, Option.map_some] at this
    simpa using (List.getElem?_eq_some_iff.1 this.symm).2.symm
  have hrow := congrArg (·[i]?) hrows
  simp only [List.getElem?_map, ho, Option.map_some] at hrow
  obtain ⟨e, he, hpair⟩ := Option.map_eq_some_iff.1 hrow
  rw [hid] at hpush
  exact ⟨_, _, _, b, more, e, hcalls, hpush, he, congrArg Prod.fst hpair,
    congrArg Prod.snd hpair, depth_of_opening hrows h ho⟩

theorem orderly_of_build {calls : List Call} {t : Tree} (h : (made calls).build = .ok t) :
    t.Orderly calls := by
  obtain ⟨hstack, hroot, harena⟩ := Builder.build_eq_ok h
  have hr := Builder.recorded calls
  have hstage := hr.stage
  rw [hstack, hroot, harena] at hstage
  obtain ⟨hzero, r, hlayout⟩ := hstage.rose_of_closed
  have hlinked : Entry.Linked t.arena.rows := hlayout ▸ Entry.Linked.layout r
  have hrows := hr.rows
  rw [harena] at hrows
  have hsize : t.size = r.size := by
    rw [Tree.size, ← Arena.length_rows, hlayout, Rose.length_layout]
  have hplace : r.layout none t.root <+: t.arena.rows.drop t.root := by
    simp [hzero, hlayout]
  constructor
  · exact hzero
  · intro i e he
    rw [hlayout] at he
    have := Rose.parent_of_mem_layout none 0 i r he
    rw [hzero]
    split at this
    · simp_all
    · obtain ⟨q, hq, -⟩ := this
      simp_all
  · intro i p e he hp
    exact hlinked.parent_lt he hp
  · intro i hi
    exact exists_push_of_row hrows hi
  · intro i j e f he hf
    have hnodup : e.children.toList.Nodup := (hlinked.ascending he).imp Nat.ne_of_lt
    rw [hnodup.count]
    exact if_congr (hlinked.mem_children he hf) rfl rfl
  · intro i e he
    exact hlinked.ascending he
  · intro i hi
    rw [hsize] at hi
    obtain ⟨s, q, hs⟩ := Rose.exists_layout_at none 0 i r hi
    rw [Nat.zero_add, ← hlayout] at hs
    exact ⟨s.size, Arena.below_iff_of_layout hlinked hs⟩
  · rw [Tree.preorder, Arena.subtree_eq_number _ t.arena r none t.root t.root_lt hplace,
      Rose.preorder_number_id, hzero, hsize, List.range_eq_range']
  · have := Arena.visits_layout r none t.root hplace .done
    rwa [List.append_nil, hzero, ← hsize, ← List.range_eq_range', ← hzero] at this

/-- A pop too early, a pop too many and a push after the root was closed, around a tree in which a
node follows a closed sibling. -/
def strayCalls : List Call := [
  .pop,
  .push (.inserted .ifStatement "" ⟨0, 20⟩) "test",
  .push (.inserted .simpleName "x" ⟨4, 1⟩) "test",
  .pop,
  .push (.inserted .elseStatement "" .unknown) "test",
  .push (.inserted .block "" ⟨12, 8⟩) "test",
  .pop, .pop, .pop, .pop,
  .push (.inserted .block "" .unknown) "test"]

theorem orderly_of_build_strayCalls :
    ∃ t, (made strayCalls).build = .ok t ∧ t.size = 4 ∧ t.Orderly strayCalls := by
  have h : ∃ t, (made strayCalls).build = .ok t ∧ t.size = 4 := ⟨_, rfl, rfl⟩
  obtain ⟨t, ht, hsize⟩ := h
  exact ⟨t, ht, hsize, orderly_of_build ht⟩

end Canon
end CanonTree
