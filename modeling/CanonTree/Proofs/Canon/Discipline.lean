import CanonTree.Proofs.Canon.History

namespace CanonTree.Canon.Builder

variable {past : List Call} {i : Nat}

/-- Node `i` was pushed and has not been popped since. -/
def Unmatched (past : List Call) (i : Nat) : Prop :=
  (∃ o ∈ openings past, o.id = i) ∧ i ∉ closings past

/-- `i` is the node pushed last among those not popped yet. -/
def Innermost (past : List Call) (i : Nat) : Prop :=
  Unmatched past i ∧ ∀ j, Unmatched past j → j ≤ i

theorem unmatched_iff : Unmatched past i ↔ i ∈ (made past).stack.map (·.id) := by
  have h := recorded past
  have hnodup : ((made past).stack.map (·.id) ++ closings past).Nodup :=
    h.matched.nodup_iff.2 List.nodup_range
  have hpushed : (∃ o ∈ openings past, o.id = i) ↔
      i ∈ (made past).stack.map (·.id) ∨ i ∈ closings past := by
    rw [← List.mem_append, h.matched.mem_iff, ← h.ids, List.mem_map]
  rw [Unmatched, hpushed]
  refine ⟨fun hi => hi.1.resolve_right hi.2, fun hi => ⟨Or.inl hi, fun hc => ?_⟩⟩
  exact (List.nodup_append.1 hnodup).2.2 _ hi _ hc rfl

theorem forall_not_unmatched : (∀ i, ¬ Unmatched past i) ↔ (made past).stack = [] := by
  simp only [unmatched_iff]
  rw [← List.eq_nil_iff_forall_not_mem, List.map_eq_nil_iff]

theorem innermost_of_stack {o : OpenNode} {rest : List OpenNode}
    (h : (made past).stack = o :: rest) : Innermost past o.id := by
  have hdescending := (recorded past).descending
  simp only [Innermost, unmatched_iff, h, List.map_cons] at hdescending ⊢
  refine ⟨List.mem_cons_self, fun j hj => ?_⟩
  rcases List.mem_cons.1 hj with rfl | hj
  · exact Nat.le_refl _
  · exact Nat.le_of_lt ((List.pairwise_cons.1 hdescending).1 j hj)

theorem length_openings : (openings past).length = (made past).size := by
  simpa using congrArg List.length (recorded past).ids

/-- Two nodes differ in the 32 bits that an id has, and these are the number that the push answered,
until there are more nodes than such numbers. -/
theorem toNat_ofNat_id {o : Opening} (ho : o ∈ openings past)
    (hlen : (openings past).length ≤ 4294967296) : (UInt32.ofNat o.id).toNat = o.id := by
  have hid : o.id ∈ (openings past).map (·.id) := List.mem_map_of_mem ho
  rw [(recorded past).ids, ← length_openings, List.mem_range] at hid
  exact UInt32.toNat_ofNat_of_lt' (Nat.lt_of_lt_of_le hid hlen)

theorem root_eq_none_iff : (made past).root = none ↔ openings past = [] := by
  rw [(recorded past).stage.root_eq_none, ← List.length_eq_zero_iff, ← List.length_eq_zero_iff,
    Arena.length_rows, length_openings, size]

theorem stack_of_root (h : (made past).root = none) : (made past).stack = [] := by
  have hstage := (recorded past).stage
  rw [h] at hstage
  cases hs : (made past).stack with
  | nil => rfl
  | cons o rest =>
    rw [hs] at hstage
    cases hstage

theorem depth_add_closings :
    (made past).depth + (closings past).length = (openings past).length := by
  rw [length_openings]
  simpa [depth] using (recorded past).matched.length_eq

theorem countP_unmatched :
    (openings past).countP (·.id ∉ closings past) = (made past).depth := by
  have h := recorded past
  have hnodup := h.matched.nodup_iff.2 List.nodup_range
  have hall : (openings past).countP (·.id ∉ closings past) =
      ((made past).stack.map (·.id) ++ closings past).countP (· ∉ closings past) := by
    rw [h.matched.countP_eq, ← h.ids, List.countP_map]
    rfl
  have hopen : ((made past).stack.map (·.id)).countP (· ∉ closings past) = (made past).depth := by
    rw [List.countP_eq_length.2, List.length_map, depth]
    intro j hj
    simpa using fun hc => (List.nodup_append.1 hnodup).2.2 _ hj _ hc rfl
  have hclosed : (closings past).countP (· ∉ closings past) = 0 := by
    simp [List.countP_eq_zero]
  rw [hall, List.countP_append, hopen, hclosed, Nat.add_zero]

theorem opening_of_stack {o : OpenNode} {rest : List OpenNode}
    (h : (made past).stack = o :: rest) :
    ∃ p ∈ openings past, p.id = o.id ∧ p.site = o.site ∧
      ∃ e, (made past).arena.rows[o.id]? = some e ∧ e.value = p.node := by
  have hr := recorded past
  have hstacked := hr.stacked
  rw [h] at hstacked
  cases hstacked with
  | @cons _ _ p hp hsite _ _ =>
    refine ⟨p, List.mem_of_getElem? hp, ?_, hsite, ?_⟩
    · have hid := congrArg (·[o.id]?) hr.ids
      simp only [List.getElem?_map, hp, Option.map_some] at hid
      have := List.getElem?_eq_some_iff.1 hid.symm
      simpa using this.2.symm
    · have hrow := congrArg (·[o.id]?) hr.rows
      simp only [List.getElem?_map, hp, Option.map_some] at hrow
      obtain ⟨e, he, hpair⟩ := Option.map_eq_some_iff.1 hrow
      exact ⟨e, he, congrArg Prod.fst hpair⟩

/-- What a builder answers after the calls `past`. -/
structure Disciplined (past : List Call) : Prop where
  push_error : ∀ n site e, (made past).push n site = .error e ↔
    (∀ i, ¬ Unmatched past i) ∧ openings past ≠ [] ∧ e = .secondRoot n.entity site
  push_ok : ∀ n site i b, (made past).push n site = .ok (i, b) → i = (openings past).length
  pop_error : ∀ e, (made past).pop = .error e ↔ (∀ i, ¬ Unmatched past i) ∧ e = .stackUnderflow
  pop_ok : ∀ i b, (made past).pop = .ok (i, b) → Innermost past i
  unchanged : ∀ c e, (made past).call c = .error e → made (past ++ [c]) = made past
  depth : (made past).depth + (closings past).length = (openings past).length
  build_ok : (∃ t, (made past).build = .ok t) ↔ openings past ≠ [] ∧ ∀ i, ¬ Unmatched past i
  build_empty : (made past).build = .error .emptyTree ↔ openings past = []
  build_unbalanced : (∃ i, Unmatched past i) → ∃ o ∈ openings past, Innermost past o.id ∧
    (made past).build =
      .error (.unbalanced ((openings past).countP (·.id ∉ closings past)) o.node.entity o.site)

theorem disciplined (past : List Call) : Disciplined past where
  push_error := by
    intro n site e
    rw [push_eq_error, forall_not_unmatched, Ne, root_eq_none_iff]
  push_ok := by
    intro n site i b h
    rw [length_openings]
    exact (push_eq_ok h).2.1
  pop_error := by
    intro e
    rw [pop_eq_error, forall_not_unmatched]
  pop_ok := by
    intro i b h
    obtain ⟨⟨o, hstack, rfl⟩, -, -⟩ := pop_eq_ok h
    exact innermost_of_stack hstack
  unchanged := by
    intro c e h
    rw [made_concat, after, h]
  depth := depth_add_closings
  build_ok := by
    rw [forall_not_unmatched, Ne, ← root_eq_none_iff]
    constructor
    · rintro ⟨t, ht⟩
      obtain ⟨hs, hr, -⟩ := build_eq_ok ht
      exact ⟨by simp [hr], hs⟩
    · rintro ⟨hr, hs⟩
      obtain ⟨r, hr⟩ := Option.ne_none_iff_exists'.1 hr
      obtain ⟨t, ht, -⟩ := build_of_closed hs hr
      exact ⟨t, ht⟩
  build_empty := by
    rw [← root_eq_none_iff]
    constructor
    · intro h
      by_contra hr
      obtain ⟨r, hr⟩ := Option.ne_none_iff_exists'.1 hr
      cases hs : (made past).stack with
      | nil =>
        obtain ⟨t, ht, -⟩ := build_of_closed hs hr
        rw [ht] at h
        cases h
      | cons o rest =>
        obtain ⟨p, -, -, -, e, he, -⟩ := opening_of_stack hs
        rw [build_of_open hs he] at h
        cases h
    · intro hr
      exact build_of_fresh (stack_of_root hr) hr
  build_unbalanced := by
    rintro ⟨i, hi⟩
    rw [unmatched_iff] at hi
    cases hs : (made past).stack with
    | nil => simp [hs] at hi
    | cons o rest =>
      obtain ⟨p, hp, hid, hsite, e, he, hnode⟩ := opening_of_stack hs
      refine ⟨p, hp, hid ▸ innermost_of_stack hs, ?_⟩
      rw [build_of_open hs he, hnode, hsite, countP_unmatched]

end CanonTree.Canon.Builder
