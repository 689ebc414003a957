import CanonTree.Proofs.Conversion.Nearest
import CanonTree.Proofs.Conversion.Selection
import CanonTree.Proofs.Syntax.Loading

namespace CanonTree.Conversion

open Syntax (Branch Item)

/-- The branch is what can be read off below its number, where its parent is `p`. -/
def Grown (es : List (Entry Syntax.Node)) (p : Option Nat) (b : Branch) : Prop :=
  ∃ r : Rose Syntax.Node, r.layout p b.value.id <+: es.drop b.value.id ∧
    b = r.number Item.of b.value.id

variable {es : List (Entry Syntax.Node)} {p : Option Nat} {b c : Branch} {t : Syntax.Tree}

@[simp] theorem id_number (i : Nat) (r : Rose Syntax.Node) :
    (r.number Item.of i).value.id = i := by
  cases r
  rfl

theorem Grown.child (h : Grown es p b) (hc : c ∈ b.children) :
    Grown es (some b.value.id) c := by
  obtain ⟨r, hl, hb⟩ := h
  have hforest : ∀ (cs : List (Rose Syntax.Node)) (q : Option Nat) (i : Nat),
      Rose.layouts q i cs <+: es.drop i → c ∈ Rose.numbers Item.of i cs → Grown es q c := by
    intro cs q
    induction cs with
    | nil => simp [Rose.numbers]
    | cons d ds ih =>
      intro i hl hc
      obtain ⟨hd, hds⟩ := Rose.layouts_prefix_iff.1 hl
      rw [Rose.numbers, List.mem_cons] at hc
      rcases hc with rfl | hc
      · exact ⟨d, by simpa using hd, by simp⟩
      · exact ih (i + d.size) hds hc
  cases r with
  | node v cs =>
    rw [hb, Rose.number] at hc
    exact hforest cs _ _ (Rose.layout_prefix_iff.1 hl).2 hc

theorem Grown.row (h : Grown es p b) : ∃ e, es[b.value.id]? = some e ∧ e.parent = p := by
  obtain ⟨r, hl, -⟩ := h
  cases r with
  | node v cs => exact ⟨_, (Rose.layout_prefix_iff.1 hl).1, rfl⟩

theorem Grown.branch? (h : Grown t.arena.rows p b) : t.branch? b.value.id = some b := by
  obtain ⟨e, he, -⟩ := h.row
  obtain ⟨r, hl, hb⟩ := h
  have hlt : b.value.id < t.size := by
    rw [Syntax.Tree.size, ← Arena.length_rows]
    exact (List.getElem?_eq_some_iff.1 he).1
  rw [Syntax.Tree.branch?, dif_pos hlt, Syntax.Tree.branch,
    Arena.subtree_eq_number _ _ r p _ hlt hl, ← hb]

theorem id_of_branch? {x : Nat} (h : t.branch? x = some b) : b.value.id = x := by
  rw [Syntax.Tree.branch?] at h
  split at h
  · rename_i hx
    cases h
    exact congrArg Item.id (Arena.value_subtree Item.of t.arena x hx)
  · cases h

theorem grown_trunk {r : Rose Syntax.Node} (h : t.Shaped r) : Grown t.arena.rows none t.trunk := by
  refine ⟨r, ?_, ?_⟩
  · simp [h.trunk, h.rows]
  · rw [h.trunk, id_number]

theorem nodup_ids_trunk {r : Rose Syntax.Node} (h : t.Shaped r) : (ids t.trunk).Nodup := by
  have hids : ids t.trunk = List.range' 0 r.size := by
    rw [ids, h.trunk, ← Rose.preorder_map, Rose.map_number, ← Rose.preorder_number_id]
    rfl
  rw [hids]
  exact List.nodup_range'

/-- The nodes that are converted: the topmost, and with a node the children that its accessors
report. -/
inductive Traversed (t : Syntax.Tree) : Branch → Prop
  | trunk : Traversed t t.trunk
  | child {n c : Branch} : Traversed t n → c ∈ reported n → Traversed t c

theorem visited_induction {motive : Branch → Prop} (htop : motive b)
    (hstep : ∀ n c, n ∈ visited b → motive n → c ∈ onward n → motive c) (hc : c ∈ visited b) :
    motive c := by
  obtain ⟨w, hw, rfl⟩ := List.mem_map.1 hc
  have hreached := Visit.reached_of_mem_traversal hw
  clear hw hc
  induction hreached with
  | self => exact htop
  | @step u x hu hx ih =>
    obtain ⟨c, hc, rfl⟩ := List.mem_map.1 hx
    exact hstep u.node c (List.mem_map.2 ⟨u, Visit.mem_traversal.2 hu, rfl⟩) ih hc

theorem mem_visited_of_onward {n : Branch} (hn : n ∈ visited b) (hc : c ∈ onward n) :
    c ∈ visited b := by
  obtain ⟨w, hw, rfl⟩ := List.mem_map.1 hn
  have hnext : (⟨some w.node.value.kind, c⟩ : Visit) ∈ w.next := List.mem_map.2 ⟨c, hc, rfl⟩
  exact List.mem_map.2 ⟨_, Visit.mem_traversal_of_mem_next hw hnext, rfl⟩

theorem missing?_of_visited (h : within b = none) (hc : c ∈ visited b) : missing? c = none := by
  obtain ⟨w, hw, rfl⟩ := List.mem_map.1 hc
  have hmal := List.findSome?_eq_none_iff.1 h w hw
  rw [Visit.malformation?] at hmal
  split at hmal
  · cases hmal
  · exact hmal

theorem traversed_iff (h : within t.trunk = none) : Traversed t c ↔ c ∈ visited t.trunk := by
  constructor
  · intro hc
    induction hc with
    | trunk =>
      rw [visited_eq]
      exact List.mem_cons_self
    | child _ hc ih =>
      rw [← onward_eq_reported (missing?_of_visited h ih)] at hc
      exact mem_visited_of_onward ih hc
  · refine visited_induction .trunk fun n c hn ih hc => ?_
    rw [onward_eq_reported (missing?_of_visited h hn)] at hc
    exact ih.child hc

theorem grown_of_visited {r : Rose Syntax.Node} (h : t.Shaped r) (hc : c ∈ visited t.trunk) :
    ∃ p, Grown t.arena.rows p c := by
  refine visited_induction (motive := fun c => ∃ p, Grown t.arena.rows p c) ⟨none, grown_trunk h⟩
    (fun n c _ ih hc => ?_) hc
  obtain ⟨p, hp⟩ := ih
  exact ⟨_, hp.child (mem_of_mem_onward hc)⟩

def Genuine (c : Canon.Tree) (i : Nat) : Prop :=
  ∃ e, c.arena.rows[i]? = some e ∧ e.value.synthetic = false

/-- The number of the parsed node for which node `i` stands: there are as many visited nodes before
the one as nodes that are not inserted before the other. -/
def origin (t : Syntax.Tree) (c : Canon.Tree) (i : Nat) : Nat :=
  match (visited t.trunk)[rank c.arena.rows i]? with
  | some b => b.value.id
  | none => t.root

/-- `f` tells from which node of `t` each node of `c` comes that was not inserted. -/
structure Origin (t : Syntax.Tree) (c : Canon.Tree) (f : Nat → Nat) : Prop where
  root : Genuine c c.root ∧ f c.root = t.root
  injective : ∀ {i j : Nat}, Genuine c i → Genuine c j → f i = f j → i = j
  carries : ∀ {i : Nat} {e : Entry Canon.Node}, c.arena.rows[i]? = some e →
    e.value.synthetic = false → ∃ b, t.branch? (f i) = some b ∧
      e.value.entity = b.value.kind.entity ∧ e.value.label = Syntax.label t.source b ∧
        e.value.span = b.value.span
  above : ∀ {i : Nat}, Genuine c i → i ≠ c.root → ∃ j d, Nearest c.arena.rows i j ∧
    t.arena.rows[f i]? = some d ∧ d.parent = some (f j)
  image : ∀ x, (∃ i, Genuine c i ∧ f i = x) ↔ ∃ b, t.branch? x = some b ∧ Traversed t b

section

variable {c : Canon.Tree} {i j : Nat} {e : Entry Canon.Node}

theorem map_filter_rows (hrows : c.arena.rows = (image t.source t.trunk).layout none 0) :
    (c.arena.rows.filter fun e => genuine e.value).map Entry.value =
      (visited t.trunk).map (standing t.source) := by
  rw [hrows, ← filter_preorder_image, ← Rose.map_value_layout none 0, List.filter_map]
  rfl

theorem exists_visited (hrows : c.arena.rows = (image t.source t.trunk).layout none 0)
    (he : c.arena.rows[i]? = some e) (hs : e.value.synthetic = false) :
    ∃ b, (visited t.trunk)[rank c.arena.rows i]? = some b ∧ e.value = standing t.source b ∧
      origin t c i = b.value.id := by
  have hfilter := getElem?_filter_countP (p := fun e => genuine e.value) he (by simp [genuine, hs])
  have hmap := congrArg (·[rank c.arena.rows i]?) (map_filter_rows hrows)
  simp only [List.getElem?_map, rank, hfilter, Option.map_some] at hmap
  obtain ⟨b, hb, hstands⟩ := Option.map_eq_some_iff.1 hmap.symm
  refine ⟨b, hb, hstands.symm, ?_⟩
  rw [origin, rank, hb]

theorem exists_genuine (hrows : c.arena.rows = (image t.source t.trunk).layout none 0)
    (hb : b ∈ visited t.trunk) : ∃ i, Genuine c i ∧ origin t c i = b.value.id := by
  obtain ⟨k, hk⟩ := List.mem_iff_getElem?.1 hb
  have hlen := congrArg List.length (map_filter_rows hrows)
  simp only [List.length_map] at hlen
  have hlt := (List.getElem?_eq_some_iff.1 hk).1
  rw [← hlen] at hlt
  obtain ⟨i, e, he, hg, hrank⟩ := exists_countP_take hlt
  refine ⟨i, ⟨e, he, by simpa [genuine] using hg⟩, ?_⟩
  rw [origin, rank, hrank, hk]

theorem origin_injective (hrows : c.arena.rows = (image t.source t.trunk).layout none 0)
    (hids : (ids t.trunk).Nodup) (hi : Genuine c i) (hj : Genuine c j)
    (h : origin t c i = origin t c j) : i = j := by
  obtain ⟨e, he, hs⟩ := hi
  obtain ⟨d, hd, hs'⟩ := hj
  obtain ⟨b, hb, -, hfi⟩ := exists_visited hrows he hs
  obtain ⟨b', hb', -, hfj⟩ := exists_visited hrows hd hs'
  rw [hfi, hfj] at h
  apply eq_of_rank_eq he (by simp [genuine, hs]) hd (by simp [genuine, hs'])
  have hlt : rank c.arena.rows i < ((visited t.trunk).map (·.value.id)).length := by
    rw [List.length_map]
    exact (List.getElem?_eq_some_iff.1 hb).1
  apply (List.getElem?_inj hlt (nodup_visited hids)).1
  rw [List.getElem?_map, List.getElem?_map, hb, hb', Option.map_some, Option.map_some, h]

theorem exists_origin_above {r : Rose Syntax.Node}
    (hrows : c.arena.rows = (image t.source t.trunk).layout none 0) (hshape : t.Shaped r)
    (hi : Genuine c i) (hpos : 0 < i) : ∃ j d, Nearest c.arena.rows i j ∧
      t.arena.rows[origin t c i]? = some d ∧ d.parent = some (origin t c j) := by
  obtain ⟨e, he, hs⟩ := hi
  have hlt : i < (image t.source t.trunk).size := by
    rw [← Rose.length_layout none 0, ← hrows]
    exact (List.getElem?_eq_some_iff.1 he).1
  have hplace : (image t.source t.trunk).layout none 0 <+: c.arena.rows.drop 0 := by
    simp [hrows]
  obtain ⟨j, b, b', hnear, hb, hb', hon⟩ := follows t.source c.arena.rows (visited t.trunk)
    t.trunk none 0 hplace (List.prefix_refl _) i e (by omega) (by omega) he (by simp [genuine, hs])
  obtain ⟨d, hd, hs'⟩ := hnear.not_inserted
  obtain ⟨n, hn, -, hfj⟩ := exists_visited hrows hd hs'
  obtain ⟨n', hn', -, hfi⟩ := exists_visited hrows he hs
  cases hb.symm.trans hn
  cases hb'.symm.trans hn'
  obtain ⟨p, hgrown⟩ := grown_of_visited hshape (List.mem_of_getElem? hb)
  obtain ⟨d', hd', hparent⟩ := (hgrown.child (mem_of_mem_onward hon)).row
  exact ⟨j, d', hnear, by rw [hfi, hd'], by rw [hparent, hfj]⟩

theorem genuine_root (hroot : c.root = 0)
    (hrows : c.arena.rows = (image t.source t.trunk).layout none 0) : Genuine c c.root := by
  have hvalue := value_image t.source t.trunk
  cases hi : image t.source t.trunk with
  | node n cs =>
    rw [hi] at hrows hvalue
    refine ⟨⟨n, none, (Rose.starts 1 cs).toArray⟩, ?_, ?_⟩
    · rw [hroot, hrows, Rose.layout]
      rfl
    · change n.synthetic = false
      rw [show n = standing t.source t.trunk from hvalue]
      rfl

theorem origin_of_convert (ht : t.Made) (h : convert t = .ok c) : Origin t c (origin t c) := by
  obtain ⟨r, hshape⟩ := ht.shaped
  obtain ⟨hfault, hroot, hrows⟩ := within_of_convert h
  have htop := genuine_root hroot hrows
  constructor
  · refine ⟨htop, ?_⟩
    obtain ⟨e, he, hs⟩ := htop
    obtain ⟨b, hb, -, horigin⟩ := exists_visited hrows he hs
    rw [hroot, visited_eq] at hb
    cases Option.some.inj hb
    rw [horigin, hshape.trunk, id_number, hshape.root]
  · exact origin_injective hrows (nodup_ids_trunk hshape)
  · intro i e he hs
    obtain ⟨b, hb, hstands, hfi⟩ := exists_visited hrows he hs
    obtain ⟨p, hgrown⟩ := grown_of_visited hshape (List.mem_of_getElem? hb)
    rw [hstands, hfi]
    exact ⟨b, hgrown.branch?, rfl, rfl, rfl⟩
  · intro i hi hne
    exact exists_origin_above hrows hshape hi (by omega)
  · intro x
    constructor
    · rintro ⟨i, ⟨e, he, hs⟩, rfl⟩
      obtain ⟨b, hb, -, hfi⟩ := exists_visited hrows he hs
      obtain ⟨p, hgrown⟩ := grown_of_visited hshape (List.mem_of_getElem? hb)
      exact ⟨b, by rw [hfi, hgrown.branch?], (traversed_iff hfault).2 (List.mem_of_getElem? hb)⟩
    · rintro ⟨b, hb, htraversed⟩
      rw [← id_of_branch? hb]
      exact exists_genuine hrows ((traversed_iff hfault).1 htraversed)

def reversedLoop : List Syntax.Builder.Call := [
  .start { kind := .forStatement },
  .leaf { kind := .block, role := .body },
  .leaf { kind := .postfixExpression, role := .updaters, attrs := .ofToken "++" },
  .leaf { kind := .booleanLiteral, role := .expression, attrs := .ofToken "true" },
  .leaf { kind := .booleanLiteral, role := .expression, attrs := .ofToken "false" },
  .finish]

theorem origin_of_convert_reversedLoop :
    ∃ t c, ((Syntax.Builder.ofSource "").run reversedLoop).build = .ok t ∧ convert t = .ok c ∧
      Origin t c (origin t c) := by
  have hbuild : ∃ t, ((Syntax.Builder.ofSource "").run reversedLoop).build = .ok t ∧
      within t.trunk = none := by
    refine ⟨_, rfl, ?_⟩
    decide +kernel
  obtain ⟨t, ht, hfault⟩ := hbuild
  obtain ⟨c, hc, -⟩ := convert_of_no_fault hfault
  exact ⟨t, c, ht, hc, origin_of_convert (.built ht) hc⟩

end

end CanonTree.Conversion
