import CanonTree.Canon.Dump
import CanonTree.Proofs.Entity.Spelling
import CanonTree.Proofs.Fallible
import CanonTree.Proofs.Json.Decoding
import CanonTree.Proofs.Levels
import CanonTree.Proofs.Nesting
import CanonTree.Proofs.Text.Lines

namespace CanonTree

namespace Span

variable {s t : Span}

theorem toList_render (s : Span) : s.render.toList =
    '[' :: ((toString s.start.toInt).toList ++ ',' :: ((toString s.length.toInt).toList ++ [']'])) := by
  simp [render, toString]

theorem not_mem_render {c : Char} (hc : ¬ c.isDigit) (hne : c ∉ ['[', ',', ']', '-']) :
    c ∉ s.render.toList := by
  have hnumber : ∀ n : Int, c ∉ (toString n).toList := by
    intro n hmem
    obtain rfl | hdigit := Json.mem_toString_int hmem
    · simp at hne
    · exact hc hdigit
  simp only [List.mem_cons, List.not_mem_nil, or_false, not_or] at hne
  rw [toList_render]
  simp only [List.mem_cons, List.mem_append, List.not_mem_nil, or_false, not_or]
  exact ⟨hne.1, hnumber _, hne.2.1, hnumber _, hne.2.2.1⟩

theorem render_injective (h : s.render.toList = t.render.toList) : s = t := by
  have hcomma : ∀ n : Int, ',' ∉ (toString n).toList := by
    intro n hmem
    obtain hc | hc := Json.mem_toString_int hmem <;> revert hc <;> decide
  rw [toList_render, toList_render, List.cons.injEq] at h
  obtain ⟨hstart, hrest⟩ := Text.append_cons_inj (hcomma _) (hcomma _) h.2
  have hstart := Json.toString_int_injective hstart
  have hlength := Json.toString_int_injective (List.append_cancel_right hrest)
  cases s
  cases t
  simp_all [Int32.toInt_inj]

end Span

namespace Canon

def row (positions : Bool) (x : Nat × Node) : String := margin x.1 ++ x.2.line positions

mutual
theorem dumpAt_eq (positions : Bool) (d : Nat) : ∀ r : Rose Node,
    dumpAt positions d r = (r.levels d).map fun x => row positions x ++ "\n"
  | .node n cs => by
    rw [dumpAt, Rose.levels, List.map_cons, dumpForest_eq positions (d + 1) cs]
    rfl

theorem dumpForest_eq (positions : Bool) (d : Nat) : ∀ cs : List (Rose Node),
    dumpForest positions d cs = (Rose.forestLevels d cs).map fun x => row positions x ++ "\n"
  | [] => rfl
  | c :: cs => by
    rw [dumpForest, Rose.forestLevels, List.map_append, dumpAt_eq positions d c,
      dumpForest_eq positions d cs]
end

theorem dump_eq_joinLines (t : Tree) (positions : Bool) :
    t.dump positions = Text.joinLines ((t.rose.levels 0).map (row positions)) := by
  rw [Tree.dump, dumpAt_eq, Text.joinLines, List.map_map]
  rfl

/-- The nodes of the tree fill its arena, in pre-order. -/
structure Tree.LaidOut (t : Tree) : Prop where
  root : t.root = 0
  rows : t.arena.rows = t.rose.layout none 0

namespace Tree.LaidOut

variable {t : Tree}

theorem preorder_rose (h : t.LaidOut) : t.rose.preorder = t.nodes := by
  rw [← Rose.map_value_layout none 0, ← h.rows]
  rfl

theorem size_rose (h : t.LaidOut) : t.rose.size = t.size := by
  rw [Tree.size, ← Arena.length_rows, h.rows, Rose.length_layout]

theorem layout_prefix (h : t.LaidOut) : t.rose.layout none t.root <+: t.arena.rows.drop t.root := by
  have hrows : t.arena.rows.drop t.root = t.rose.layout none t.root := by
    rw [h.root, List.drop_zero, h.rows]
  exact ⟨[], by rw [hrows, List.append_nil]⟩

theorem preorder (h : t.LaidOut) : t.preorder = List.range t.size := by
  rw [Tree.preorder, Arena.subtree_eq_number _ t.arena t.rose none t.root t.root_lt h.layout_prefix,
    Rose.preorder_number_id, h.root, h.size_rose, List.range_eq_range']

theorem row (h : t.LaidOut) (positions : Bool) {i : Nat} (hi : i < t.arena.size) :
    ((t.rose.levels 0).map (row positions))[i]? =
      some (margin (t.arena.depth i hi) ++ t.arena[i].value.line positions) := by
  have hlength : i < (t.rose.levels 0).length := by
    rwa [Rose.length_levels, h.size_rose]
  have hlevel := List.getElem?_eq_getElem hlength
  have hprefix := h.layout_prefix
  rw [h.root] at hprefix
  obtain ⟨hlt, hdepth, hvalue⟩ := Arena.stands_levels t.rose hprefix rfl hlevel
  simp only [Nat.zero_add] at hdepth hvalue
  rw [List.getElem?_map, hlevel, Option.map_some, Canon.row, hdepth, hvalue]

end Tree.LaidOut

/-- What stands behind the entity's name. -/
def remark (positions : Bool) (n : Node) : List Char :=
  (if n.label.isEmpty then [] else ':' :: ' ' :: n.label.toList) ++
    if positions then ' ' :: n.span.render.toList else []

theorem toList_row (positions : Bool) (x : Nat × Node) : (row positions x).toList =
    List.replicate (4 * x.1) ' ' ++ (x.2.entity.name.toList ++ remark positions x.2) := by
  have hlabel : (if x.2.label.isEmpty then "" else ": " ++ x.2.label).toList =
      if x.2.label.isEmpty then [] else ':' :: ' ' :: x.2.label.toList := by
    split <;> simp
  have hspan : (if positions then " " ++ x.2.span.render else "").toList =
      if positions then ' ' :: x.2.span.render.toList else [] := by
    split <;> simp
  simp only [row, margin, Node.line, remark, String.toList_append, String.toList_ofList, hlabel,
    hspan, List.append_assoc]

theorem count_row (positions : Bool) (x : Nat × Node) :
    (row positions x).toList.count '\n' = x.2.label.toList.count '\n' := by
  have hname : x.2.entity.name.toList.count '\n' = 0 :=
    List.count_eq_zero.2 fun h => absurd (x.2.entity.name_spelled.2 _ h) (by decide)
  have hspan : x.2.span.render.toList.count '\n' = 0 :=
    List.count_eq_zero.2 (Span.not_mem_render (by decide) (by decide))
  have hmargin : (List.replicate (4 * x.1) ' ').count '\n' = 0 := by simp [List.count_replicate]
  rw [toList_row, remark]
  by_cases hempty : x.2.label = "" <;> cases positions <;> simp [hempty, hname, hspan, hmargin]

theorem lines_rows_iff (positions : Bool) (r : Rose Node) :
    Text.Lines (Text.joinLines ((r.levels 0).map (row positions)))
        ((r.levels 0).map (row positions)) ↔
      ∀ n ∈ r.preorder, Text.Plain n.label := by
  rw [Text.lines_joinLines_iff, List.forall_mem_map, ← Rose.map_snd_levels 0, List.forall_mem_map]
  refine forall₂_congr fun x _ => ?_
  rw [Text.Plain, Text.Plain, ← List.count_eq_zero, ← List.count_eq_zero, count_row]

end Canon
end CanonTree
