import CanonTree.Proofs.Syntax.Loading
import CanonTree.Proofs.Syntax.Quoting
import CanonTree.Syntax.Walk

namespace CanonTree.Syntax

/-- Every node that is entered is left again, after all that was entered in between. -/
inductive Event.Nested : List Event → Prop
  | nil : Nested []
  | pair {i : Item} {es fs : List Event} : Nested es → Nested fs →
      Nested (.entered i :: (es ++ .left i :: fs))

theorem Event.Nested.append {es fs : List Event} (h : Nested es) (h' : Nested fs) :
    Nested (es ++ fs) := by
  induction h with
  | nil => exact h'
  | @pair i es gs hes _ _ ihgs =>
    have hpair := Nested.pair (i := i) hes ihgs
    simpa using hpair

def Event.mark : Event → Bool × Nat
  | .entered i => (true, i.id)
  | .left i => (false, i.id)

/-- `events` are those of `full` up to the first that fails, which comes last. -/
inductive Cut (fails : Event → Bool) (full : List Event) : List Event → Option Event → Prop
  | whole : (∀ e ∈ full, fails e = false) → Cut fails full full none
  | short {before after : List Event} {e : Event} : full = before ++ e :: after →
      (∀ x ∈ before, fails x = false) → fails e = true → Cut fails full (before ++ [e]) (some e)

namespace Cut

variable {fails : Event → Bool} {full es events : List Event} {e : Event} {failure : Option Event}

theorem cons (h : Cut fails es events failure) (he : fails e = false) :
    Cut fails (e :: es) (e :: events) failure := by
  cases h with
  | whole hes => exact .whole (List.forall_mem_cons.2 ⟨he, hes⟩)
  | @short before after x hes hbefore hx =>
    exact @Cut.short _ _ (e :: before) after x (congrArg (e :: ·) hes)
      (List.forall_mem_cons.2 ⟨he, hbefore⟩) hx

theorem isPrefix (h : Cut fails full events failure) : events <+: full := by
  cases h with
  | whole _ => exact List.prefix_refl _
  | @short before after e hfull _ _ => exact ⟨after, by rw [hfull, List.append_assoc]; rfl⟩

theorem longest (h : Cut fails full events failure) (hes : es <+: full)
    (hpass : ∀ x ∈ es.dropLast, fails x = false) : es <+: events := by
  cases h with
  | whole _ => exact hes
  | @short before after e hfull _ he =>
    have hcut : before ++ [e] <+: full := ⟨after, by rw [hfull, List.append_assoc]; rfl⟩
    rcases List.prefix_or_prefix_of_prefix hes hcut with h | ⟨rest, hrest⟩
    · exact h
    · rcases List.eq_nil_or_concat rest with rfl | ⟨rest, x, rfl⟩
      · rw [List.append_nil] at hrest
        exact hrest ▸ List.prefix_refl _
      · -- the failing event would stand before the last
        rw [← hrest, List.concat_eq_append, ← List.append_assoc, List.dropLast_concat] at hpass
        have hpasses : fails e = false := hpass e (by simp)
        exact absurd (hpasses.symm.trans he) Bool.false_ne_true

theorem eq_of_none (h : Cut fails full events none) : events = full := by
  cases h
  rfl

theorem failure_eq (h : Cut fails full events failure) : failure = full.find? fails := by
  cases h with
  | whole hnone => exact (List.find?_eq_none.2 fun e he => by simp [hnone e he]).symm
  | @short before after e hfull hbefore he =>
    rw [eq_comm, List.find?_eq_some_iff_append]
    exact ⟨he, before, after, hfull, fun x hx => by simp [hbefore x hx]⟩

end Cut

namespace Policy

mutual
def full (p : Policy) : Branch → List Event
  | .node i cs => .entered i :: ((if p.skips i then [] else p.fulls cs) ++ [.left i])

def fulls (p : Policy) : List Branch → List Event
  | [] => []
  | c :: cs => p.full c ++ p.fulls cs
end

def fails (p : Policy) : Event → Bool
  | .entered i => p.failsEntering i
  | .left i => p.failsLeaving i

def note (p : Policy) (e : Event) : ExceptT Event (StateM (Array Event)) Unit := do
  modify (·.push e)
  if p.fails e then throw e

theorem enter_visitor (p : Policy) (i : Item) : p.visitor.enter i =
    p.note (.entered i) >>= fun _ => pure (if p.skips i then .skip else .descend) := by
  cases hf : p.failsEntering i <;> simp [visitor, note, fails, hf]

theorem leave_visitor (p : Policy) (i : Item) : p.visitor.leave i = p.note (.left i) := rfl

mutual
theorem walk_visitor (p : Policy) : ∀ b : Branch, walk p.visitor b = (p.full b).forM p.note
  | .node i cs => by
    rw [walk, enter_visitor, full]
    by_cases hi : p.skips i
    · simp [hi, leave_visitor]
    · simp [hi, leave_visitor, walkAll_visitor p cs]

theorem walkAll_visitor (p : Policy) : ∀ cs : List Branch,
    walkAll p.visitor cs = (p.fulls cs).forM p.note
  | [] => by simp [walkAll, fulls]
  | c :: cs => by simp [walkAll, fulls, walk_visitor p c, walkAll_visitor p cs]
end

variable {p : Policy} {e : Event}

theorem run_of_fails (h : p.fails e = true) (es : List Event) (seen : Array Event) :
    ((e :: es).forM p.note).run.run seen = (.error e, seen.push e) := by
  simp [note, h]
  rfl

theorem run_of_passes (h : p.fails e = false) (es : List Event) (seen : Array Event) :
    ((e :: es).forM p.note).run.run seen = (es.forM p.note).run.run (seen.push e) := by
  simp [note, h]
  rfl

theorem exists_run (p : Policy) (es : List Event) (seen : Array Event) :
    ∃ events failure, Cut p.fails es events failure ∧
      (es.forM p.note).run.run seen = (failure.elim (.ok ()) .error, seen ++ events.toArray) := by
  induction es generalizing seen with
  | nil =>
    refine ⟨[], none, .whole (by simp), ?_⟩
    simp
    rfl
  | cons e es ih =>
    by_cases he : p.fails e = true
    · refine ⟨[e], some e, @Cut.short _ _ [] es e rfl (by simp) he, ?_⟩
      rw [run_of_fails he]
      simp
    · rw [Bool.not_eq_true] at he
      obtain ⟨events, failure, hcut, hrun⟩ := ih (seen.push e)
      refine ⟨e :: events, failure, hcut.cons he, ?_⟩
      rw [run_of_passes he, hrun]
      simp

theorem cut_trace (p : Policy) (b : Branch) :
    Cut p.fails (p.full b) (p.trace b).1 (p.trace b).2 := by
  obtain ⟨events, failure, hcut, hrun⟩ := p.exists_run (p.full b) #[]
  have htrace : p.trace b = (events, failure) := by
    rw [trace, walk_visitor, hrun]
    cases failure <;> simp
  rwa [htrace]

mutual
def entered (p : Policy) : Branch → List Item
  | .node i cs => i :: if p.skips i then [] else p.enteredAll cs

def enteredAll (p : Policy) : List Branch → List Item
  | [] => []
  | c :: cs => p.entered c ++ p.enteredAll cs
end

mutual
theorem nested_full (p : Policy) : ∀ b : Branch, Event.Nested (p.full b)
  | .node i cs => by
    rw [full]
    split
    · exact .pair .nil .nil
    · exact .pair (nested_fulls p cs) .nil

theorem nested_fulls (p : Policy) : ∀ cs : List Branch, Event.Nested (p.fulls cs)
  | [] => .nil
  | c :: cs => by
    rw [fulls]
    exact (nested_full p c).append (nested_fulls p cs)
end

mutual
theorem count_full (p : Policy) (x : Item) : ∀ b : Branch,
    (p.full b).count (.entered x) = (p.entered b).count x ∧
      (p.full b).count (.left x) = (p.entered b).count x
  | .node i cs => by
    have hcs := count_fulls p x cs
    rw [full, entered]
    by_cases hi : p.skips i
    · simp [hi, List.count_cons]
    · simp [hi, List.count_cons, List.count_append, hcs.1, hcs.2]

theorem count_fulls (p : Policy) (x : Item) : ∀ cs : List Branch,
    (p.fulls cs).count (.entered x) = (p.enteredAll cs).count x ∧
      (p.fulls cs).count (.left x) = (p.enteredAll cs).count x
  | [] => ⟨rfl, rfl⟩
  | c :: cs => by
    have hc := count_full p x c
    have hcs := count_fulls p x cs
    simp [fulls, enteredAll, hc, hcs]
end

theorem mem_entered_of_mem_full {p : Policy} {x : Item} {b : Branch}
    (h : .entered x ∈ p.full b ∨ .left x ∈ p.full b) : x ∈ p.entered b := by
  obtain ⟨hentered, hleft⟩ := p.count_full x b
  rcases h with h | h
  · exact List.count_pos_iff.1 (hentered ▸ List.count_pos_iff.2 h)
  · exact List.count_pos_iff.1 (hleft ▸ List.count_pos_iff.2 h)

mutual
theorem entered_sublist (p : Policy) : ∀ b : Branch, (p.entered b).Sublist b.preorder
  | .node i cs => by
    rw [entered, Rose.preorder]
    refine List.Sublist.cons_cons i ?_
    split
    · exact List.nil_sublist _
    · exact enteredAll_sublist p cs

theorem enteredAll_sublist (p : Policy) : ∀ cs : List Branch,
    (p.enteredAll cs).Sublist (Rose.preorders cs)
  | [] => List.nil_sublist _
  | c :: cs => by
    rw [enteredAll, Rose.preorders]
    exact (entered_sublist p c).append (enteredAll_sublist p cs)
end

end Policy

namespace Tree

variable {t : Tree} {skips : Item → Bool} {i j c : Nat} {d : Entry Node}

/-- Node `j` is node `i` or lies below it, and neither `i` nor a node between the two is one whose
children are skipped. -/
structure Exposed (t : Tree) (skips : Item → Bool) (i j : Nat) : Prop where
  below : t.arena.Below i j
  above : ∀ k d, t.arena.Below i k → t.arena.Below k j → k ≠ j → t.arena.rows[k]? = some d →
    skips (.of k d.value) = false

theorem exposed_self (t : Tree) (skips : Item → Bool) (i : Nat) : t.Exposed skips i i where
  below := .self
  above _ _ hik hki hne _ := absurd (Nat.le_antisymm hki.le hik.le) hne

theorem Exposed.child (hl : Entry.Linked t.arena.rows) (h : t.Exposed skips i j)
    (hd : t.arena.rows[j]? = some d) (hc : c ∈ d.children.toList)
    (hs : skips (.of j d.value) = false) : t.Exposed skips i c where
  below := h.below.child hd hc
  above k e hik hkc hne he := by
    rcases hkc.of_child hl hd hc with rfl | hkj
    · exact absurd rfl hne
    · by_cases hkj' : k = j
      · subst hkj'
        cases hd.symm.trans he
        exact hs
      · exact h.above k e hik hkj hkj' he

theorem mem_enteredAll {p : Policy} {x : Item} {cs : List Branch} :
    x ∈ p.enteredAll cs ↔ ∃ c ∈ cs, x ∈ p.entered c := by
  induction cs with
  | nil => simp [Policy.enteredAll]
  | cons c cs ih => simp [Policy.enteredAll, ih]

/-- A walk that began at `i` and has come to `j` enters the exposed nodes from `j` on downwards. -/
theorem mem_entered_iff (p : Policy) (hl : Entry.Linked t.arena.rows) (x : Item) {j : Nat}
    (h : j < t.size) (hj : t.Exposed p.skips i j) : x ∈ p.entered (t.branch j h) ↔
      ∃ k d, t.arena.rows[k]? = some d ∧ x = .of k d.value ∧ t.arena.Below j k ∧
        t.Exposed p.skips i k := by
  have hrow := row_of_lt h
  rw [branch_eq, Policy.entered, List.mem_cons]
  constructor
  · rintro (rfl | hx)
    · exact ⟨j, _, hrow, rfl, .self, hj⟩
    · split at hx
      · cases hx
      · rename_i hs
        rw [Bool.not_eq_true] at hs
        obtain ⟨_, hmem, hx⟩ := mem_enteredAll.1 hx
        obtain ⟨c, hc, rfl⟩ := List.mem_pmap.1 hmem
        have hlt := Arena.lt_of_mem_children hrow hc
        obtain ⟨k, d, hd, hxd, hck, hk⟩ :=
          (mem_entered_iff p hl x _ (hj.child hl hrow hc hs)).1 hx
        exact ⟨k, d, hd, hxd, (Arena.Below.self.child hrow hc).trans hck, hk⟩
  · rintro ⟨k, d, hd, rfl, hjk, hk⟩
    rcases hjk.eq_or_exists with rfl | ⟨e, c, he, hc, hck⟩
    · cases hrow.symm.trans hd
      exact .inl rfl
    · -- the way down leads through a child, so the children are not skipped
      cases hrow.symm.trans he
      have hlt := Arena.lt_of_mem_children hrow hc
      have hs := hk.above j _ hj.below hjk (Nat.ne_of_lt (Nat.lt_of_lt_of_le hlt hck.le)) hrow
      rw [hs, if_neg Bool.false_ne_true]
      refine .inr (mem_enteredAll.2 ⟨_, List.mem_pmap.2 ⟨c, hc, rfl⟩, ?_⟩)
      exact (mem_entered_iff p hl _ _ (hj.child hl hrow hc hs)).2 ⟨k, d, hd, rfl, hck, hk⟩
termination_by t.size - j

theorem Shaped.linked {r : Rose Node} (h : t.Shaped r) : Entry.Linked t.arena.rows :=
  h.rows ▸ Entry.Linked.layout r

theorem Shaped.nodup_branch {r : Rose Node} (hr : t.Shaped r) (h : i < t.size) :
    (t.branch i h).preorder.Nodup := by
  have hi : i < r.size := by
    rwa [size, ← Arena.length_rows, hr.rows, Rose.length_layout] at h
  obtain ⟨s, q, hs⟩ := Rose.exists_layout_at none 0 i r hi
  rw [Nat.zero_add, ← hr.rows] at hs
  have hids : ((t.branch i h).preorder.map (·.id)) = List.range' i s.size := by
    rw [branch, Arena.subtree_eq_number Item.of t.arena s q i h hs, ← Rose.preorder_map,
      Rose.map_number]
    exact Rose.preorder_number_id i s
  have hnodup : ((t.branch i h).preorder.map (·.id)).Nodup := hids ▸ List.nodup_range'
  exact List.Pairwise.of_map Item.id (fun a b hne heq => hne (congrArg Item.id heq)) hnodup

/-- What a visitor that notes every event has noted after a walk from node `i`, and how the walk
ended. -/
structure Walked (t : Tree) (p : Policy) (i : Nat) (h : i < t.size) (events : List Event)
    (failure : Option Event) : Prop where
  cut : Cut p.fails (p.full (t.branch i h)) events failure
  longest : ∀ es, es <+: p.full (t.branch i h) → (∀ e ∈ es.dropLast, p.fails e = false) →
    es <+: events
  failed : failure = (p.full (t.branch i h)).find? p.fails
  nested : failure = none → Event.Nested events
  once : failure = none → ∀ j d, t.arena.rows[j]? = some d → t.Exposed p.skips i j →
    events.count (.entered (.of j d.value)) = 1 ∧ events.count (.left (.of j d.value)) = 1
  only : ∀ x, .entered x ∈ events ∨ .left x ∈ events →
    ∃ j d, t.arena.rows[j]? = some d ∧ x = .of j d.value ∧ t.Exposed p.skips i j

/-- A walk notes the events of plain recursion, up to the first that fails. -/
theorem walked_trace (ht : t.Made) (p : Policy) (h : i < t.size) :
    t.Walked p i h (p.trace (t.branch i h)).1 (p.trace (t.branch i h)).2 := by
  obtain ⟨r, hr⟩ := ht.shaped
  have hcut := p.cut_trace (t.branch i h)
  have hmem := fun x => mem_entered_iff p hr.linked x h (t.exposed_self p.skips i)
  have hwhole : (p.trace (t.branch i h)).2 = none →
      (p.trace (t.branch i h)).1 = p.full (t.branch i h) :=
    fun hnone => (hnone ▸ hcut).eq_of_none
  refine ⟨hcut, fun es => hcut.longest, hcut.failure_eq, fun hnone => ?_, fun hnone j d hd hj => ?_,
    fun x hx => ?_⟩
  · rw [hwhole hnone]
    exact p.nested_full _
  · have hx : Item.of j d.value ∈ p.entered (t.branch i h) :=
      (hmem _).2 ⟨j, d, hd, rfl, hj.below, hj⟩
    obtain ⟨hentered, hleft⟩ := p.count_full (.of j d.value) (t.branch i h)
    have hnodup := (hr.nodup_branch h).sublist (p.entered_sublist _)
    rw [hwhole hnone, hentered, hleft, hnodup.count, if_pos hx]
    exact ⟨rfl, rfl⟩
  · have hfull := hx.imp (fun h => hcut.isPrefix.subset h) fun h => hcut.isPrefix.subset h
    obtain ⟨j, d, hd, hxd, -, hj⟩ := (hmem x).1 (Policy.mem_entered_of_mem_full hfull)
    exact ⟨j, d, hd, hxd, hj⟩

def qualifiedCall : List Builder.Call := [
  .start { kind := .methodInvocation },
  .start { kind := .qualifiedName, role := .expression },
  .leaf { kind := .simpleName, attrs := .ofToken "a" },
  .leaf { kind := .simpleName, role := .name, attrs := .ofToken "b" },
  .finish,
  .leaf { kind := .simpleName, role := .name, attrs := .ofToken "c" },
  .leaf { kind := .simpleName, role := .arguments, attrs := .ofToken "x" },
  .finish]

/-- Looks into no qualified name, and fails at arguments if it is strict. -/
def namesOnly (strict : Bool) : Policy where
  skips i := i.kind = .qualifiedName
  failsEntering i := strict && i.role = .arguments
  failsLeaving _ := false

theorem walked_trace_qualifiedCall :
    ∃ t, ∃ h : 0 < t.size, ((Builder.ofSource "").run qualifiedCall).build = .ok t ∧
      (∀ strict, t.Walked (namesOnly strict) 0 h ((namesOnly strict).trace (t.branch 0 h)).1
        ((namesOnly strict).trace (t.branch 0 h)).2) ∧
      ((namesOnly false).trace (t.branch 0 h)).1.map Event.mark =
        [(true, 0), (true, 1), (false, 1), (true, 4), (false, 4), (true, 5), (false, 5),
          (false, 0)] ∧
      ((namesOnly true).trace (t.branch 0 h)).1.map Event.mark =
        [(true, 0), (true, 1), (false, 1), (true, 4), (false, 4), (true, 5)] ∧
      ((namesOnly true).trace (t.branch 0 h)).2.map Event.mark = some (true, 5) := by
  refine ⟨_, by decide, rfl, fun strict => ?_, ?_, ?_, ?_⟩
  · exact walked_trace (@Made.built "" qualifiedCall _ rfl) (namesOnly strict) _
  · decide +kernel
  · decide +kernel
  · decide +kernel

end Tree

end CanonTree.Syntax
