import Mathlib.Data.List.Basic
import CanonTree.Proofs.Conversion.Outcome
import CanonTree.Proofs.Preorder

namespace CanonTree.Conversion

open Rose (starts layout layouts sizes)
open Syntax (Branch Item Role)

/-- A canonical tree behind which no parsed node stands. -/
def Inserted (r : Rose Canon.Node) : Prop := ∀ n ∈ r.preorder, n.synthetic = true

/-- A forest of the canonical trees of `cs`, wrappers around some of them, and inserted trees. -/
inductive Arranged (source : String) : List (Rose Canon.Node) → List Branch → Prop
  | nil : Arranged source [] []
  | child {ds : List (Rose Canon.Node)} {cs : List Branch} (c : Branch) : Arranged source ds cs →
      Arranged source (image source c :: ds) (c :: cs)
  | wrapper {ds : List (Rose Canon.Node)} {cs : List Branch} {n : Canon.Node} (bs : List Branch) :
      n.synthetic = true → Arranged source ds cs →
        Arranged source (.node n (bs.map (image source)) :: ds) (bs ++ cs)
  | inserted {ds : List (Rose Canon.Node)} {cs : List Branch} {r : Rose Canon.Node} :
      Inserted r → Arranged source ds cs → Arranged source (r :: ds) cs

variable {source : String} {ds es : List (Rose Canon.Node)} {cs bs : List Branch}

theorem Arranged.append (h : Arranged source ds cs) (h' : Arranged source es bs) :
    Arranged source (ds ++ es) (cs ++ bs) := by
  induction h with
  | nil => exact h'
  | child c _ ih => exact .child c ih
  | wrapper bs hn _ ih =>
    rw [List.cons_append, List.append_assoc]
    exact .wrapper bs hn ih
  | inserted hr _ ih => exact .inserted hr ih

theorem arranged_children (source : String) (cs : List Branch) :
    Arranged source ((cs.map (part source)).map Part.tree) cs := by
  induction cs with
  | nil => exact .nil
  | cons c cs ih => exact .child c ih

theorem arranged_wrapped (e : Entity) (cs : List Branch) :
    Arranged source (Part.wrapped e (cs.map (part source))) cs := by
  cases cs with
  | nil => exact .nil
  | cons c cs =>
    have h : Arranged source [.node (.inserted e "" .unknown) ((c :: cs).map (image source))]
        (c :: cs ++ []) := .wrapper (c :: cs) rfl .nil
    rwa [List.append_nil, ← map_tree_parts] at h

theorem inserted_node {n : Canon.Node} (hn : n.synthetic = true) (h : ∀ r ∈ ds, Inserted r) :
    Inserted (.node n ds) := by
  intro m hm
  rw [Rose.preorder, List.mem_cons, Rose.preorders_eq, List.mem_flatMap] at hm
  obtain rfl | ⟨r, hr, hm⟩ := hm
  · exact hn
  · exact h r hr m hm

theorem inserted_leaf {n : Canon.Node} (hn : n.synthetic = true) : Inserted (.node n []) :=
  inserted_node hn fun _ hr => absurd hr List.not_mem_nil

theorem inserted_textLeaves (ps : List Part) : ∀ r ∈ ps.map Part.textLeaf, Inserted r := by
  intro r hr
  obtain ⟨p, -, rfl⟩ := List.mem_map.1 hr
  exact inserted_leaf rfl

theorem inserted_nameLeaves (ps : List Part) : ∀ r ∈ ps.map Part.nameLeaf, Inserted r := by
  intro r hr
  obtain ⟨p, -, rfl⟩ := List.mem_map.1 hr
  exact inserted_leaf rfl

theorem arranged_inserted (source : String) (h : ∀ r ∈ ds, Inserted r) :
    Arranged source ds [] := by
  induction ds with
  | nil => exact .nil
  | cons d ds ih =>
    exact .inserted (h d List.mem_cons_self) (ih fun r hr => h r (List.mem_cons_of_mem d hr))

theorem arranged_texts (e : Entity) (ps : List Part) : Arranged source (Part.texts e ps) [] := by
  cases ps with
  | nil => exact .nil
  | cons p ps => exact .inserted (inserted_node rfl (inserted_textLeaves (p :: ps))) .nil

theorem arranged_image (source : String) (b : Branch) :
    Arranged source (image source b).children (onward b) := by
  cases b with
  | node v cs =>
    have hname := fun ps => arranged_inserted source (inserted_nameLeaves ps)
    have htext := fun ps => arranged_inserted source (inserted_textLeaves ps)
    have hstatic : Arranged source
        (if v.attrs.isStatic then [Part.staticLeaf source] else []) [] := by
      split
      · exact .inserted (inserted_leaf rfl) .nil
      · exact .nil
    rw [image, Rose.children]
    rcases kind_cases v.kind with hk | hk | hk | hk | hk | hk | hk
    · simp only [Part.arrange, onward, Rose.value, hk, first_parts]
      exact ((arranged_children source _).append (arranged_children source _)).append
        (arranged_wrapped _ _)
    · have hnone : onward (.node v cs) = [] := by
        rcases hk with hk | hk <;> simp only [onward, Rose.value, hk]
      rw [hnone]
      rcases hk with hk | hk <;> simp only [Part.arrange, hk]
      · exact (((htext _).append (arranged_texts _ _)).append
          (htext _)).append (arranged_texts _ _)
      · exact ((arranged_texts _ _).append (htext _)).append (arranged_texts _ _)
    · simp only [Part.arrange, onward, Rose.value, hk, first_parts, inRole_parts]
      -- the name stands between the modifiers and the rest, and no child is converted for it
      have hhead := (arranged_children source (Syntax.inRole .modifiers cs)).append
        (hname ((Syntax.first? .name cs).toList.map (part source)))
      rw [List.append_nil] at hhead
      exact ((hhead.append (arranged_wrapped _ _)).append (arranged_wrapped _ _)).append
        (arranged_children source _)
    · simp only [Part.arrange, onward, Rose.value, hk, first_parts, inRole_parts]
      exact (((arranged_wrapped _ _).append (arranged_wrapped _ _)).append
        (arranged_wrapped _ _)).append (arranged_children source _)
    · simp only [Part.arrange, onward, Rose.value, hk, parts_eq]
      exact hstatic.append (arranged_children source _)
    · simp only [Part.arrange, onward, Rose.value, hk]
      exact .nil
    · rw [arrange_plain hk, onward_plain (n := .node v cs) hk, parts_eq]
      exact arranged_children source _

/-- A node and all that the conversion comes to below it, in the order in which it does. -/
def visited (b : Branch) : List Branch := (Visit.traversal ⟨none, b⟩).map Visit.node

theorem map_node_traversal (w : Visit) : w.traversal.map Visit.node = visited w.node := by
  rw [visited, Visit.traversal_eq w, Visit.traversal_eq ⟨none, w.node⟩]
  rfl

theorem visited_eq (b : Branch) : visited b = b :: (onward b).flatMap visited := by
  rw [visited, Visit.traversal_eq, List.map_cons, List.map_flatMap, Visit.next, List.flatMap_map]
  simp only [map_node_traversal]

def standing (source : String) (b : Branch) : Canon.Node :=
  .ofSyntax b.value.toNode (Syntax.label source b)

theorem value_image (source : String) (b : Branch) :
    (image source b).value = standing source b := by
  cases b
  rw [image, Rose.value]
  rfl

def genuine (n : Canon.Node) : Bool := !n.synthetic

theorem filter_preorders_images {cs : List Branch}
    (h : ∀ c ∈ cs, (image source c).preorder.filter genuine = (visited c).map (standing source)) :
    (Rose.preorders (cs.map (image source))).filter genuine =
      (cs.flatMap visited).map (standing source) := by
  rw [Rose.preorders_eq, List.flatMap_map, List.filter_flatMap, List.map_flatMap]
  exact List.flatMap_congr h

def genuines (rs : List (Rose Canon.Node)) : List (Rose Canon.Node) := rs.filter (genuine ·.value)

theorem genuines_append (rs rs' : List (Rose Canon.Node)) :
    genuines (rs ++ rs') = genuines rs ++ genuines rs' :=
  List.filter_append rs rs'

theorem genuines_images
    (h : ∀ c ∈ cs, genuines (image source c).subtrees = (visited c).map (image source)) :
    genuines (Rose.forestSubtrees (cs.map (image source))) =
      (cs.flatMap visited).map (image source) := by
  rw [Rose.forestSubtrees_eq, List.flatMap_map, genuines, List.filter_flatMap, List.map_flatMap]
  exact List.flatMap_congr h

theorem Arranged.genuines_subtrees (h : Arranged source ds cs)
    (hcs : ∀ c ∈ cs, genuines (image source c).subtrees = (visited c).map (image source)) :
    genuines (Rose.forestSubtrees ds) = (cs.flatMap visited).map (image source) := by
  induction h with
  | nil => rfl
  | child c _ ih =>
    rw [Rose.forestSubtrees, genuines_append, hcs c List.mem_cons_self,
      ih fun d hd => hcs d (List.mem_cons_of_mem c hd), List.flatMap_cons, List.map_append]
  | @wrapper ds cs n bs hn _ ih =>
    have hbs := genuines_images fun c hc => hcs c (List.mem_append_left _ hc)
    have htop : genuine (Rose.node n (bs.map (image source))).value = false := by
      simp [genuine, Rose.value, hn]
    rw [Rose.forestSubtrees, Rose.subtrees, List.cons_append, genuines,
      List.filter_cons_of_neg (by simp [htop]), ← genuines, genuines_append, hbs,
      ih fun d hd => hcs d (List.mem_append_right bs hd), List.flatMap_append, List.map_append]
  | @inserted ds cs r hr _ ih =>
    have hnone : genuines r.subtrees = [] := by
      refine List.filter_eq_nil_iff.2 fun s hs => ?_
      have hmem : s.value ∈ r.preorder := by
        rw [← Rose.map_value_subtrees]
        exact List.mem_map_of_mem hs
      simpa [genuine] using hr s.value hmem
    rw [Rose.forestSubtrees, genuines_append, hnone, ih hcs, List.nil_append]

/-- The subtrees of a canonical tree whose root is not inserted are the canonical trees of the
visited nodes, one by one. -/
theorem genuines_image (b : Branch) :
    genuines (image source b).subtrees = (visited b).map (image source) := by
  have hcs := (arranged_image source b).genuines_subtrees fun c hc => genuines_image c
  cases b with
  | node v cs =>
    rw [visited_eq, List.map_cons, ← hcs, image, Rose.subtrees, Rose.children]
    rfl
termination_by b.size
decreasing_by exact Rose.size_lt_of_mem_children (mem_of_mem_onward hc)

theorem filter_preorder_image (b : Branch) :
    (image source b).preorder.filter genuine = (visited b).map (standing source) := by
  have hvalues : standing source = Rose.value ∘ image source :=
    funext fun c => (value_image source c).symm
  rw [← Rose.map_value_subtrees, List.filter_map, hvalues, ← List.map_map, ← genuines_image]
  rfl

end CanonTree.Conversion
