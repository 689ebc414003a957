import CanonTree.Proofs.Preorder
import CanonTree.Proofs.Syntax.History

namespace CanonTree

theorem Entry.getElem?_graft_new {α : Type} (p : Option Nat) (es : List (Entry α)) (v : α) :
    (Entry.graft p es [.node v []])[es.length]? = some ⟨v, p, #[]⟩ := by
  simp [Entry.graft, Rose.starts, Rose.layouts, Rose.layout]

theorem Entry.getElem?_graft_old {α : Type} (p : Option Nat) {es : List (Entry α)} (v : α) {i : Nat}
    {e : Entry α} (h : es[i]? = some e) : (Entry.graft p es [.node v []])[i]? =
      some (if p = some i then { e with children := e.children.push es.length } else e) := by
  have hi := (List.getElem?_eq_some_iff.1 h).1
  have hg : Entry.graft p es [.node v []] =
      Entry.adoptAll p [es.length] es ++ [⟨v, p, #[]⟩] := by
    simp [Entry.graft, Rose.starts, Rose.layouts, Rose.layout]
  rw [hg, List.getElem?_append_left (by simpa using hi), Entry.getElem?_adoptAll, h]
  simp

namespace Syntax

namespace Builder

variable {b : Builder} {past : List Call}

theorem build_of_open (h : b.stack ≠ []) : b.build = .error (.leftOpen b.stack.length) := by
  rw [build, if_pos (by simpa using h)]

theorem build_of_extra (hs : b.stack = []) (he : b.extraRoots ≠ 0) :
    b.build = .error (.outsideRoot b.extraRoots) := by
  rw [build, if_neg (by simp [hs]), if_pos he]

theorem build_of_none (hs : b.stack = []) (he : b.extraRoots = 0) (hr : b.root = none) :
    b.build = .error .emptySource := by
  rw [build, if_neg (by simp [hs]), if_neg (by simp [he])]
  split
  · rfl
  · rename_i r hr'
    cases hr.symm.trans hr'

/-- What is made of the calls, in the order in which `build` looks for it: nodes left open, nodes
beside the root, no nodes, or none of these. -/
inductive Outcome (past : List Call) : Except Error Tree → Prop
  | leftOpen : openNodes 0 past ≠ [] → Outcome past (.error (.leftOpen (openNodes 0 past).length))
  | outsideRoot {k : Nat} : openNodes 0 past = [] → outermost [] past = k + 1 → 0 < k →
      Outcome past (.error (.outsideRoot k))
  | empty : openNodes 0 past = [] → outermost [] past = 0 → additions past = 0 →
      Outcome past (.error .emptySource)
  | built {t : Tree} : openNodes 0 past = [] → outermost [] past = 1 → additions past ≠ 0 →
      Outcome past (.ok t)

theorem outcome (source : String) (past : List Call) :
    Outcome past (made source past).build := by
  have hopen := stack_made_eq_nil source past
  have hroot := root_made_eq_none source past
  have houter := outermost_eq source past
  by_cases hs : (made source past).stack = []
  · by_cases ha : additions past = 0
    · rw [build_of_none hs (extraRoots_of_no_additions ha) (hroot.2 ha)]
      exact .empty (hopen.1 hs) (outermost_of_no_additions [] ha) ha
    · rw [if_neg ha] at houter
      by_cases he : (made source past).extraRoots = 0
      · obtain ⟨r, hr⟩ := Option.ne_none_iff_exists'.1 (mt hroot.1 ha)
        obtain ⟨t, ht, -⟩ := build_ok hs he hr
        rw [ht]
        exact .built (hopen.1 hs) (by rw [houter, he]) ha
      · rw [build_of_extra hs he]
        exact .outsideRoot (hopen.1 hs) houter (Nat.pos_of_ne_zero he)
  · have hlen : (made source past).stack.length = (openNodes 0 past).length := by
      rw [stack_made, List.length_reverse]
    rw [build_of_open hs, hlen]
    exact .leftOpen (mt hopen.2 hs)

namespace Outcome

variable {r : Except Error Tree} {k : Nat}

theorem eq_leftOpen_iff (h : Outcome past r) :
    r = .error (.leftOpen k) ↔ 0 < k ∧ (openNodes 0 past).length = k := by
  cases h with
  | leftOpen ho =>
    have hpos := List.length_pos_iff.2 ho
    simp only [Except.error.injEq, Error.leftOpen.injEq]
    omega
  | outsideRoot ho =>
    simp [ho]
    omega
  | empty ho =>
    simp [ho]
    omega
  | built ho =>
    simp [ho]
    omega

theorem eq_outsideRoot_iff (h : Outcome past r) : r = .error (.outsideRoot k) ↔
    openNodes 0 past = [] ∧ 0 < k ∧ outermost [] past = k + 1 := by
  cases h with
  | leftOpen ho => simp [ho]
  | outsideRoot ho hk hpos =>
    simp only [Except.error.injEq, Error.outsideRoot.injEq, ho, hk, true_and]
    omega
  | empty ho hk => simp [hk]
  | built ho hk =>
    simp only [reduceCtorEq, false_iff, hk]
    omega

theorem eq_emptySource_iff (h : Outcome past r) : r = .error .emptySource ↔
    openNodes 0 past = [] ∧ outermost [] past ≤ 1 ∧ additions past = 0 := by
  cases h with
  | leftOpen ho => simp [ho]
  | outsideRoot ho hk hpos =>
    simp only [Except.error.injEq, reduceCtorEq, false_iff, hk]
    omega
  | empty ho hk ha => simp [ho, hk, ha]
  | built ho hk ha => simp [ha]

theorem exists_eq_ok_iff (h : Outcome past r) : (∃ t, r = .ok t) ↔
    openNodes 0 past = [] ∧ outermost [] past ≤ 1 ∧ additions past ≠ 0 := by
  cases h with
  | leftOpen ho => simp [ho]
  | outsideRoot ho hk hpos =>
    simp only [reduceCtorEq, exists_false, false_iff, hk]
    omega
  | empty ho hk ha => simp [ha]
  | built ho hk ha => simp [ho, hk, ha]

end Outcome

end Builder

structure Tree.Gathered (source : String) (count : Nat) (t : Tree) : Prop where
  source : t.source = source
  size : t.size = count
  oneTree : t.arena.OneTree t.root
  preorder : t.trunk.preorder.map (·.id) = List.range t.size

theorem Tree.Shaped.ids {r : Rose Node} {t : Tree} (h : t.Shaped r) :
    t.trunk.preorder.map (·.id) = List.range t.size := by
  have hsize : t.size = r.size := by
    rw [Tree.size, ← Arena.length_rows, h.rows, Rose.length_layout]
  rw [h.trunk, ← Rose.preorder_map, Rose.map_number, hsize, List.range_eq_range']
  exact Rose.preorder_number_id 0 r

namespace Builder

/-- What a builder answers after the calls `past`. -/
structure Accounted (source : String) (past : List Call) : Prop where
  numbered : ∀ n, ((made source past).start n).1 = additions past ∧
    ((made source past).leaf n).1 = additions past
  added : ∀ c n, c.node? = some n →
    (made source (past ++ [c])).arena.rows[additions past]? =
      some ⟨n, (openNodes 0 past).getLast?, #[]⟩
  kept : ∀ c n i e, c.node? = some n → (made source past).arena.rows[i]? = some e →
    (made source (past ++ [c])).arena.rows[i]? =
      some (if (openNodes 0 past).getLast? = some i then
        { e with children := e.children.push (additions past) } else e)
  idle : openNodes 0 past = [] → (made source past).finish = made source past
  leftOpen : ∀ k, (made source past).build = .error (.leftOpen k) ↔
    0 < k ∧ (openNodes 0 past).length = k
  outsideRoot : ∀ k, (made source past).build = .error (.outsideRoot k) ↔
    openNodes 0 past = [] ∧ 0 < k ∧ outermost [] past = k + 1
  empty : (made source past).build = .error .emptySource ↔
    openNodes 0 past = [] ∧ outermost [] past ≤ 1 ∧ additions past = 0
  built : (∃ t, (made source past).build = .ok t) ↔
    openNodes 0 past = [] ∧ outermost [] past ≤ 1 ∧ additions past ≠ 0
  wording : ∀ k, (Error.leftOpen k).message = s!"invalid native tree: {k} node(s) left open" ∧
    (Error.outsideRoot k).message = s!"invalid native tree: {k} node(s) outside the root" ∧
      Error.emptySource.message = "invalid native tree: empty tree"
  tree : ∀ t, (made source past).build = .ok t → t.Gathered source (additions past)

theorem rows_call_of_node? {b : Builder} {c : Call} {n : Node} (h : c.node? = some n) :
    (b.call c).arena.rows = Entry.graft b.stack.head? b.arena.rows [.node n []] := by
  cases c with
  | start m =>
    cases h
    exact rows_leaf b n
  | leaf m =>
    cases h
    exact rows_leaf b n
  | finish => cases h

theorem head?_stack_made (source : String) (past : List Call) :
    (made source past).stack.head? = (openNodes 0 past).getLast? := by
  rw [stack_made, List.head?_reverse]

theorem length_rows_made (source : String) (past : List Call) :
    (made source past).arena.rows.length = additions past := by
  rw [Arena.length_rows, ← size_made source past]
  rfl

/-- An id has 32 bits. The number of a new node fits them until there are that many nodes. -/
theorem toNat_ofNat_numbered (source : String) (n : Node) (h : additions past < 4294967296) :
    (UInt32.ofNat ((made source past).start n).1).toNat = additions past ∧
      (UInt32.ofNat ((made source past).leaf n).1).toNat = additions past := by
  have hstart : ((made source past).start n).1 = additions past := size_made source past
  have hleaf : ((made source past).leaf n).1 = additions past := size_made source past
  rw [hstart, hleaf]
  exact ⟨UInt32.toNat_ofNat_of_lt' h, UInt32.toNat_ofNat_of_lt' h⟩

/-- Whatever calls were made, what they added, left open and put beside the root decides what the
builder answers next. -/
theorem accounted (source : String) (past : List Call) : Accounted source past where
  numbered n := ⟨size_made source past, size_made source past⟩
  added c n hc := by
    rw [made_concat, rows_call_of_node? hc, head?_stack_made, ← length_rows_made source past]
    exact Entry.getElem?_graft_new _ _ n
  kept c n i e hc he := by
    rw [made_concat, rows_call_of_node? hc, head?_stack_made, ← length_rows_made source past]
    exact Entry.getElem?_graft_old _ n he
  idle h := by
    have hs := (stack_made_eq_nil source past).2 h
    cases hb : made source past with
    | mk text arena stack root extra stack_lt root_lt =>
      rw [hb] at hs
      cases hs
      rfl
  leftOpen k := (outcome source past).eq_leftOpen_iff
  outsideRoot k := (outcome source past).eq_outsideRoot_iff
  empty := (outcome source past).eq_emptySource_iff
  built := (outcome source past).exists_eq_ok_iff
  wording k := ⟨rfl, rfl, rfl⟩
  tree t ht := by
    have hbuild : ((ofSource source).run past).build = .ok t := ht
    obtain ⟨hsource, r, hr⟩ := shaped_of_build hbuild
    obtain ⟨-, -, -, -, harena⟩ := build_eq_ok ht
    refine ⟨hsource, ?_, Arena.oneTree_of_layout hr.root hr.rows, hr.ids⟩
    rw [Tree.size, ← harena]
    exact size_made source past

/-- A finish too early, a node beside the root, and a start that is never finished. -/
def overlapping : List Call := [
  .finish,
  .leaf { kind := .simpleName },
  .start { kind := .block },
  .start { kind := .returnStatement },
  .finish]

theorem accounted_overlapping : outermost [] overlapping = 2 ∧
    (made "" overlapping).build = .error (.leftOpen 1) :=
  ⟨by decide, ((accounted "" overlapping).leftOpen 1).2 (by decide)⟩

end Builder

end Syntax
end CanonTree
