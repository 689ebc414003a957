import CanonTree.Proofs.Canon.Rows
import CanonTree.Proofs.Conversion.Arrangement
import CanonTree.Proofs.Syntax.Breaks
import CanonTree.Syntax.Document

namespace CanonTree.Conversion

open Syntax (Branch Role)
open Text (Plain)

variable {source : String} {b : Branch}

/-- The children whose texts become labels of leaves. -/
def cited (b : Branch) : List Branch :=
  let all (r : Role) := Syntax.inRole r b.children
  let first (r : Role) := (Syntax.first? r b.children).toList
  match b.value.kind with
  | .methodInvocation => first .expression ++ all .typeArguments ++ first .name ++ all .arguments
  | .superMethodInvocation => all .typeArguments ++ first .name ++ all .arguments
  | .typeDeclaration => first .name
  | _ => []

theorem cited_plain (h : shape b.value.kind = .plain) : cited b = [] := by
  rw [cited]
  split <;> simp_all [shape]

theorem mem_of_mem_cited {c : Branch} (h : c ∈ cited b) : c ∈ b.children := by
  have hall : ∀ {r}, c ∈ Syntax.inRole r b.children → c ∈ b.children := List.mem_of_mem_filter
  have hfirst : ∀ {r}, c ∈ (Syntax.first? r b.children).toList → c ∈ b.children := fun hc =>
    List.mem_of_find?_eq_some (Option.mem_toList.1 hc)
  rw [cited] at h
  split at h <;> simp only [List.mem_append, List.not_mem_nil] at h
  · obtain ((h | h) | h) | h := h
    exacts [hfirst h, hall h, hfirst h, hall h]
  · obtain (h | h) | h := h
    exacts [hall h, hfirst h, hall h]
  · exact hfirst h

def Clear (r : Rose Canon.Node) : Prop := ∀ n ∈ r.preorder, Plain n.label

def AllClear (ds : List (Rose Canon.Node)) : Prop := ∀ d ∈ ds, Clear d

variable {ds es : List (Rose Canon.Node)} {cs : List Branch}

theorem clear_node {n : Canon.Node} : Clear (.node n ds) ↔ Plain n.label ∧ AllClear ds := by
  rw [Clear, Rose.preorder, List.forall_mem_cons, Rose.preorders_eq, List.forall_mem_flatMap]
  rfl

theorem allClear_append : AllClear (ds ++ es) ↔ AllClear ds ∧ AllClear es :=
  List.forall_mem_append

theorem allClear_nil : AllClear [] := fun _ hd => absurd hd List.not_mem_nil

theorem allClear_children :
    AllClear ((cs.map (part source)).map Part.tree) ↔ ∀ c ∈ cs, Clear (image source c) := by
  rw [List.map_map]
  exact List.forall_mem_map

theorem plain_empty : Plain "" := by decide

theorem allClear_leaves {leaf : Part → Rose Canon.Node}
    (h : ∀ p, ∃ span, leaf p = .node (.inserted .simpleName p.text span) []) :
    AllClear ((cs.map (part source)).map leaf) ↔ ∀ c ∈ cs, Plain (Syntax.text source c) := by
  have hleaf : ∀ p, Clear (leaf p) ↔ Plain p.text := by
    intro p
    obtain ⟨span, hp⟩ := h p
    rw [hp, clear_node]
    exact and_iff_left allClear_nil
  rw [AllClear, List.map_map, List.forall_mem_map]
  simp only [Function.comp_apply, hleaf, part]

theorem allClear_textLeaves : AllClear ((cs.map (part source)).map Part.textLeaf) ↔
    ∀ c ∈ cs, Plain (Syntax.text source c) := allClear_leaves fun _ => ⟨_, rfl⟩

theorem allClear_nameLeaves : AllClear ((cs.map (part source)).map Part.nameLeaf) ↔
    ∀ c ∈ cs, Plain (Syntax.text source c) := allClear_leaves fun _ => ⟨_, rfl⟩

theorem allClear_wrapped (e : Entity) :
    AllClear (Part.wrapped e (cs.map (part source))) ↔ ∀ c ∈ cs, Clear (image source c) := by
  cases cs with
  | nil => simp [Part.wrapped, AllClear]
  | cons c cs =>
    rw [← allClear_children]
    simp only [List.map_cons, Part.wrapped, AllClear, List.forall_mem_singleton, clear_node]
    exact and_iff_right plain_empty

theorem allClear_texts (e : Entity) :
    AllClear (Part.texts e (cs.map (part source))) ↔ ∀ c ∈ cs, Plain (Syntax.text source c) := by
  cases cs with
  | nil => simp [Part.texts, AllClear]
  | cons c cs =>
    rw [← allClear_textLeaves]
    simp only [List.map_cons, Part.texts, AllClear, List.forall_mem_singleton, clear_node]
    exact and_iff_right plain_empty

theorem allClear_static (source : String) (static : Bool) :
    AllClear (if static then [Part.staticLeaf source] else []) := by
  split
  · simp only [AllClear, List.forall_mem_singleton, Part.staticLeaf, clear_node]
    exact ⟨show Plain "static" by decide, allClear_nil⟩
  · exact allClear_nil

/-- The labels of a canonical tree are those of its root, of the leaves that bear cited texts, and of
the trees of the children the conversion goes on to. -/
theorem clear_image (source : String) (b : Branch) : Clear (image source b) ↔
    (Plain (Syntax.label source b) ∧ ∀ c ∈ cited b, Plain (Syntax.text source c)) ∧
      ∀ c ∈ onward b, Clear (image source c) := by
  cases b with
  | node v cs =>
    rw [image, clear_node, and_assoc]
    apply and_congr_right'
    rcases kind_cases v.kind with hk | hk | hk | hk | hk | hk | hk
    · simp only [Part.arrange, onward, cited, Rose.value, Rose.children, hk, first_parts,
        allClear_append, allClear_children, allClear_wrapped, List.forall_mem_append,
        List.not_mem_nil, false_implies, implies_true, true_and]
    · rcases hk with hk | hk <;>
        simp only [Part.arrange, onward, cited, Rose.value, Rose.children, hk, first_parts,
          inRole_parts, allClear_append, allClear_textLeaves, allClear_texts,
          List.forall_mem_append, List.not_mem_nil, false_implies, implies_true, and_true]
    · -- the name is cited, and stands between the modifiers and the rest
      simp only [Part.arrange, onward, cited, Rose.value, Rose.children, hk, first_parts,
        inRole_parts, allClear_append, allClear_children, allClear_nameLeaves, allClear_wrapped,
        List.forall_mem_append]
      tauto
    · simp only [Part.arrange, onward, cited, Rose.value, Rose.children, hk, first_parts,
        inRole_parts, allClear_append, allClear_children, allClear_wrapped,
        List.forall_mem_append, List.not_mem_nil, false_implies, implies_true, true_and]
    · simp only [Part.arrange, onward, cited, Rose.value, Rose.children, hk, parts_eq,
        allClear_append, allClear_children, allClear_static, List.not_mem_nil, false_implies,
        implies_true, true_and]
    · simp only [Part.arrange, onward, cited, Rose.value, hk, allClear_nil, List.not_mem_nil,
        false_implies, implies_true, and_true]
    · rw [arrange_plain hk, onward_plain (n := .node v cs) hk, cited_plain (b := .node v cs) hk,
        parts_eq, allClear_children]
      simp only [Rose.children, List.not_mem_nil, false_implies, implies_true, true_and]

theorem clear_image_iff (source : String) (b : Branch) : Clear (image source b) ↔
    ∀ c ∈ visited b, Plain (Syntax.label source c) ∧
      ∀ d ∈ cited c, Plain (Syntax.text source d) := by
  have hbelow : (∀ c ∈ onward b, Clear (image source c)) ↔ ∀ c ∈ onward b, ∀ d ∈ visited c,
      Plain (Syntax.label source d) ∧ ∀ e ∈ cited d, Plain (Syntax.text source e) :=
    forall₂_congr fun c hc => clear_image_iff source c
  rw [clear_image, visited_eq, List.forall_mem_cons, List.forall_mem_flatMap, hbelow]
termination_by b.size
decreasing_by exact Rose.size_lt_of_mem_children (mem_of_mem_onward hc)

theorem clear_image_of_plain (hs : Plain source) {b : Branch} (h : Syntax.PlainWords b) :
    Clear (image source b) := by
  rw [clear_image]
  refine ⟨⟨Syntax.plain_label hs h, fun c hc => ?_⟩, fun c hc => ?_⟩
  · exact Syntax.plain_text hs (h.child (mem_of_mem_cited hc))
  · exact clear_image_of_plain hs (h.child (mem_of_mem_onward hc))
termination_by b.size
decreasing_by exact Rose.size_lt_of_mem_children (mem_of_mem_onward hc)

/-- The text is made of one row for each node, and these are its lines exactly if no label spans
lines. -/
structure Dumped (t : Syntax.Tree) (c : Canon.Tree) (positions : Bool) (rows : List String) :
    Prop where
  text : c.dump positions = Text.joinLines rows
  preorder : c.preorder = List.range c.size
  length : rows.length = c.size
  row : ∀ (i : Nat) (h : i < c.arena.size), rows[i]? =
    some (Canon.margin (c.arena.depth i h) ++ c.arena[i].value.line positions)
  count : (c.dump positions).toList.count '\n' =
    c.size + (c.nodes.map fun n => n.label.toList.count '\n').sum
  lines_iff : (∃ ls, Text.Lines (c.dump positions) ls ∧ ls.length = c.size) ↔
    Text.Lines (c.dump positions) rows
  lines_iff_plain : Text.Lines (c.dump positions) rows ↔
    ∀ b ∈ visited t.trunk, Plain (Syntax.label t.source b) ∧
      ∀ d ∈ cited b, Plain (Syntax.text t.source d)
  lines_of_plain : Plain t.source → Syntax.PlainWords t.trunk →
    Text.Lines (c.dump positions) rows

theorem laidOut_of_convert {t : Syntax.Tree} {c : Canon.Tree} (h : convert t = .ok c) :
    c.LaidOut ∧ c.rose = image t.source t.trunk := by
  obtain ⟨-, hroot, hrows⟩ := within_of_convert h
  have hrose := rose_eq hroot hrows
  exact ⟨⟨hroot, by rw [hrose, hrows]⟩, hrose⟩

theorem dumped_of_convert {t : Syntax.Tree} {c : Canon.Tree} (h : convert t = .ok c)
    (positions : Bool) : ∃ rows, Dumped t c positions rows := by
  obtain ⟨hlaid, hrose⟩ := laidOut_of_convert h
  have hdump := Canon.dump_eq_joinLines c positions
  have hlength : ((c.rose.levels 0).map (Canon.row positions)).length = c.size := by
    rw [List.length_map, Rose.length_levels, hlaid.size_rose]
  have hlines : Text.Lines (c.dump positions) ((c.rose.levels 0).map (Canon.row positions)) ↔
      Clear (image t.source t.trunk) := by
    rw [hdump, Canon.lines_rows_iff, hrose, Clear]
  refine ⟨(c.rose.levels 0).map (Canon.row positions), hdump, hlaid.preorder, hlength,
    fun i hi => hlaid.row positions hi, ?_, ?_, ?_, ?_⟩
  · rw [hdump, Text.count_joinLines, hlength, ← hlaid.preorder_rose, ← Rose.map_snd_levels 0,
      List.map_map, List.map_map]
    simp only [Function.comp_def, Canon.count_row]
  · rw [hdump, ← hlength, Text.exists_lines_iff]
  · rw [hlines, clear_image_iff]
  · exact fun hs hw => hlines.2 (clear_image_of_plain hs hw)

/-- A call with an argument that goes on in the next line of the source. -/
def brokenCall : Syntax.Document := ⟨"f(g(1,\n  2));",
  .node { kind := "MethodInvocation", span := ⟨0, 12⟩ } [
    .node { kind := "SimpleName", span := ⟨0, 1⟩, role := .name, attrs := .ofToken "f" } [],
    .node { kind := "MethodInvocation", span := ⟨2, 9⟩, role := .arguments } [
      .node { kind := "SimpleName", span := ⟨2, 1⟩, role := .name, attrs := .ofToken "g" } [],
      .node { kind := "NumberLiteral", span := ⟨4, 1⟩, role := .arguments } [],
      .node { kind := "NumberLiteral", span := ⟨9, 1⟩, role := .arguments } []]]⟩

def brokenCallDump : Bool → String
  | true => "METHOD_INVOCATION [0,12]\n" ++
    "    SIMPLE_NAME: f [-1,1]\n" ++
    "    ARGUMENTS [-1,0]\n" ++
    "        SIMPLE_NAME: g(1,\n  2) [-1,9]\n"
  | false => "METHOD_INVOCATION\n" ++
    "    SIMPLE_NAME: f\n" ++
    "    ARGUMENTS\n" ++
    "        SIMPLE_NAME: g(1,\n  2)\n"

theorem convert_brokenCall : ∃ t c, brokenCall.toTree = .ok t ∧ convert t = .ok c ∧ c.size = 4 ∧
    ∀ positions, c.dump positions = brokenCallDump positions := by
  have hload : brokenCall.toTree.toOption.any (fun t => (convert t).toOption.any (fun c =>
      c.size = 4 ∧ ∀ positions, c.dump positions = brokenCallDump positions)) = true := by
    decide +kernel
  obtain ⟨t, c, ht, hc, hdump⟩ := exists_ok_ok_of_any hload
  exact ⟨t, c, ht, hc, of_decide_eq_true hdump⟩

theorem dumped_of_convert_brokenCall : ∃ t c rows, brokenCall.toTree = .ok t ∧
    convert t = .ok c ∧ Dumped t c true rows := by
  obtain ⟨t, c, ht, hc, -⟩ := convert_brokenCall
  obtain ⟨rows, hrows⟩ := dumped_of_convert hc true
  exact ⟨t, c, rows, ht, hc, hrows⟩

theorem not_lines_brokenCall : ∃ t c, brokenCall.toTree = .ok t ∧ convert t = .ok c ∧
    c.size = 4 ∧ ∀ positions, c.dump positions = brokenCallDump positions ∧
      ¬ ∃ ls, Text.Lines (c.dump positions) ls ∧ ls.length = c.size := by
  obtain ⟨t, c, ht, hc, hsize, hdump⟩ := convert_brokenCall
  refine ⟨t, c, ht, hc, hsize, fun positions => ⟨hdump positions, ?_⟩⟩
  rintro ⟨ls, hls, hlength⟩
  have hcount := hls.count
  have hfeeds : ∀ positions, (brokenCallDump positions).toList.count '\n' = 5 := by
    decide +kernel
  rw [hdump positions, hfeeds, hlength, hsize] at hcount
  exact absurd hcount (by decide)

end CanonTree.Conversion
