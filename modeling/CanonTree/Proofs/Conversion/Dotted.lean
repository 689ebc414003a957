import CanonTree.Proofs.Conversion.Flattening

namespace CanonTree

namespace Syntax

def Kind.isDotted : Kind → Bool
  | .qualifiedName | .qualifiedType | .fieldAccess => true
  | _ => false

/-- The node is written with the dots between its children. -/
def isJoint (b : Branch) : Bool := b.value.kind.isDotted && !b.children.isEmpty

mutual
/-- The parts of a dotted name: a joint gives way to its children, anything else is a part. -/
def dottedLeaves : Branch → List Branch
  | .node v cs => if isJoint (.node v cs) then forestLeaves cs else [.node v cs]

def forestLeaves : List Branch → List Branch
  | [] => []
  | c :: cs => dottedLeaves c ++ forestLeaves cs
end

mutual
def joints : Branch → List Branch
  | .node v cs => if isJoint (.node v cs) then .node v cs :: forestJoints cs else []

def forestJoints : List Branch → List Branch
  | [] => []
  | c :: cs => joints c ++ forestJoints cs
end

variable {source : String} {b : Branch}

theorem forestLeaves_eq (cs : List Branch) : forestLeaves cs = cs.flatMap dottedLeaves := by
  induction cs with
  | nil => rfl
  | cons c cs ih => rw [forestLeaves, ih, List.flatMap_cons]

theorem forestJoints_eq (cs : List Branch) : forestJoints cs = cs.flatMap joints := by
  induction cs with
  | nil => rfl
  | cons c cs ih => rw [forestJoints, ih, List.flatMap_cons]

theorem dottedLeaves_of_part (h : isJoint b = false) : dottedLeaves b = [b] := by
  cases b with
  | node v cs => rw [dottedLeaves, h, if_neg Bool.false_ne_true]

theorem dottedLeaves_of_joint (h : isJoint b = true) :
    dottedLeaves b = b.children.flatMap dottedLeaves := by
  cases b with
  | node v cs => rw [dottedLeaves, if_pos h, forestLeaves_eq, Rose.children]

theorem joints_of_joint (h : isJoint b = true) : joints b = b :: b.children.flatMap joints := by
  cases b with
  | node v cs => rw [joints, if_pos h, forestJoints_eq, Rose.children]

theorem children_ne_nil_of_joint (h : isJoint b = true) : b.children ≠ [] := by
  rw [isJoint, Bool.and_eq_true, Bool.not_eq_true', List.isEmpty_eq_false_iff] at h
  exact h.2

theorem dottedLeaves_ne_nil (b : Branch) : dottedLeaves b ≠ [] := by
  induction b using Rose.recOnChildren with
  | node v cs ih =>
    cases hjoint : isJoint (.node v cs) with
    | false =>
      rw [dottedLeaves_of_part hjoint]
      exact List.cons_ne_nil _ _
    | true =>
      obtain ⟨c, hc⟩ := List.exists_mem_of_ne_nil _ (children_ne_nil_of_joint hjoint)
      rw [dottedLeaves_of_joint hjoint, ne_eq, List.flatMap_eq_nil_iff]
      exact fun h => ih c hc (h c hc)

theorem intercalate_flatMap {α : Type} (mark : String) {g : α → List String} (hg : ∀ a, g a ≠ [])
    (as : List α) : mark.intercalate (as.flatMap g) =
      mark.intercalate (as.map fun a => mark.intercalate (g a)) := by
  induction as with
  | nil => rfl
  | cons a as ih =>
    cases as with
    | nil => rw [List.flatMap_singleton, List.map_singleton, String.intercalate_singleton]
    | cons a' as =>
      have hrest : (a' :: as).flatMap g ≠ [] := by
        rw [List.flatMap_cons]
        exact List.append_ne_nil_of_left_ne_nil (hg a') _
      rw [List.flatMap_cons, String.intercalate_append_of_ne_nil (hg a) hrest, ih, List.map_cons,
        List.map_cons, List.map_cons, String.intercalate_cons_cons]

theorem Fragment.compound_of_isDotted {kind : Kind} (h : kind.isDotted = true) (token : String)
    (first : Fragment) (rest : List Fragment) :
    compound kind token first rest = joined "." (first :: rest) := by
  unfold Kind.isDotted at h
  split at h
  · rfl
  · rfl
  · rfl
  · cases h

theorem text_of_joint (h : isJoint b = true) (hb : ¬ b.value.span.Addresses source) :
    text source b = ".".intercalate (b.children.map (text source)) := by
  have hne := children_ne_nil_of_joint h
  rw [isJoint, Bool.and_eq_true] at h
  rw [text_eq_render hb, ← map_text_fragments]
  cases hcs : b.children with
  | nil => exact absurd hcs hne
  | cons c cs => rw [fragments, Fragment.render, Fragment.compound_of_isDotted h.1, Fragment.joined]

theorem text_eq_intercalate (h : ∀ d ∈ joints b, ¬ d.value.span.Addresses source) :
    text source b = ".".intercalate ((dottedLeaves b).map (text source)) := by
  induction b using Rose.recOnChildren with
  | node v cs ih =>
    cases hjoint : isJoint (.node v cs) with
    | false => rw [dottedLeaves_of_part hjoint, List.map_singleton, String.intercalate_singleton]
    | true =>
      rw [joints_of_joint hjoint, List.forall_mem_cons] at h
      obtain ⟨hself, hbelow⟩ := h
      have hcs : ∀ c ∈ cs, text source c =
          ".".intercalate ((dottedLeaves c).map (text source)) := fun c hc =>
        ih c hc fun d hd => hbelow d (List.mem_flatMap.2 ⟨c, hc, hd⟩)
      -- each child reads like a group of parts, so the groups are joined twice
      rw [text_of_joint hjoint hself, dottedLeaves_of_joint hjoint, List.map_flatMap,
        intercalate_flatMap "." fun c => mt List.map_eq_nil_iff.1 (dottedLeaves_ne_nil c)]
      exact congrArg _ (List.map_congr_left hcs)

end Syntax

namespace Conversion

open Syntax (Branch Tree)

def nameLeaf (source : String) (b : Branch) : Rose Canon.Node :=
  .node {
    entity := .qualifiedName
    label := Text.removeBlanks
      (".".intercalate ((Syntax.dottedLeaves b).map (Syntax.text source)))
    span := b.value.span
    synthetic := false } []

/-- What is known of a dotted name `b`: its text, that the nesting of the dots does not show in it,
and what becomes of it, on its own and within a larger tree. -/
structure DottedName (source : String) (b : Branch) : Prop where
  text : Syntax.text source b =
    ".".intercalate ((Syntax.dottedLeaves b).map (Syntax.text source))
  nesting : ∀ source' b',
    (∀ d ∈ Syntax.joints b', ¬ d.value.span.Addresses source') →
    (Syntax.dottedLeaves b').map (Syntax.text source') =
      (Syntax.dottedLeaves b).map (Syntax.text source) →
    Syntax.text source' b' = Syntax.text source b
  alone : b.value.kind = .qualifiedName → b.value.attrs.token = none →
    ∀ t : Tree, t.source = source → t.trunk = b →
      ∃ c, convert t = .ok c ∧ c.size = 1 ∧ c.rose = nameLeaf source b
  inside : b.value.kind = .qualifiedName → b.value.attrs.token = none →
    ∀ (t : Tree) (c : Canon.Tree), t.source = source → t.Made → convert t = .ok c →
      Traversed t b → ∃ i, ∃ hi : i < c.size, Genuine c i ∧ origin t c i = b.value.id ∧
        below c i hi = nameLeaf source b

variable {source : String} {b : Branch}

theorem image_of_qualifiedName (hjoints : ∀ d ∈ Syntax.joints b, ¬ d.value.span.Addresses source)
    (hk : b.value.kind = .qualifiedName) (htoken : b.value.attrs.token = none) :
    image source b = nameLeaf source b := by
  have htext := Syntax.text_eq_intercalate hjoints
  cases b with
  | node v cs =>
    have hk : v.kind = .qualifiedName := hk
    have hlabel : Syntax.label source (.node v cs) =
        Text.removeBlanks (Syntax.text source (.node v cs)) := by
      rw [Syntax.label, htoken]
      simp only [Rose.value, hk, Option.getD_none]
    rw [image, hlabel, htext, nameLeaf, Canon.Node.ofSyntax]
    simp only [Part.arrange, hk]
    rfl

theorem within_of_qualifiedName (hk : b.value.kind = .qualifiedName) : within b = none := by
  rw [within_eq, missing?, onward, hk]
  rfl

theorem dottedName_of_unplaced (hjoints : ∀ d ∈ Syntax.joints b, ¬ d.value.span.Addresses source) :
    DottedName source b where
  text := Syntax.text_eq_intercalate hjoints
  nesting source' b' hjoints' hleaves := by
    rw [Syntax.text_eq_intercalate hjoints', Syntax.text_eq_intercalate hjoints, hleaves]
  alone hk htoken t hsource htrunk := by
    obtain ⟨c, hc, hroot, hrows⟩ :=
      convert_of_no_fault (htrunk.symm ▸ within_of_qualifiedName hk : within t.trunk = none)
    rw [hsource, htrunk, image_of_qualifiedName hjoints hk htoken] at hrows
    refine ⟨c, hc, ?_, rose_eq hroot hrows⟩
    rw [Canon.Tree.size, ← Arena.length_rows, hrows]
    rfl
  inside hk htoken t c hsource ht hc hb := by
    obtain ⟨i, hi, hgenuine, horigin, hbelow⟩ := exists_stand_of_convert ht hc hb
    rw [hsource, image_of_qualifiedName hjoints hk htoken] at hbelow
    exact ⟨i, hi, hgenuine, horigin, hbelow⟩

def mapType : List Syntax.Builder.Call := [
  .start { kind := .parameterizedType },
  .leaf { kind := .simpleType, attrs := .ofToken "Map" },
  .leaf { kind := .simpleType, attrs := .ofToken "K" },
  .leaf { kind := .simpleType, attrs := .ofToken "V" },
  .finish]

def leftName : List Syntax.Builder.Call :=
  [.start { kind := .qualifiedName }, .start { kind := .qualifiedType },
    .leaf { kind := .simpleName, attrs := .ofToken "a" }] ++ mapType ++
  [.finish, .leaf { kind := .simpleName, attrs := .ofToken "x" }, .finish]

def rightName : List Syntax.Builder.Call :=
  [.start { kind := .packageDeclaration }, .start { kind := .qualifiedName },
    .leaf { kind := .simpleName, attrs := .ofToken "a" }, .start { kind := .fieldAccess },
    .start { kind := .fieldAccess }] ++ mapType ++
  [.finish, .leaf { kind := .simpleName, attrs := .ofToken "x" }, .finish, .finish, .finish]

def mapLeaf : Rose Canon.Node := .node ⟨.qualifiedName, "a.Map<K,V>.x", .unknown, false⟩ []

theorem dottedName_of_unplaced_mapType : ∃ t c t' c' b' i, ∃ hi : i < c'.size,
    ((Syntax.Builder.ofSource "").run leftName).build = .ok t ∧ convert t = .ok c ∧
      Syntax.text "" t.trunk = "a.Map<K, V>.x" ∧ c.size = 1 ∧ c.rose = mapLeaf ∧
    ((Syntax.Builder.ofSource "").run rightName).build = .ok t' ∧ convert t' = .ok c' ∧
      t'.trunk.children = [b'] ∧ Syntax.text "" b' = Syntax.text "" t.trunk ∧
        below c' i hi = mapLeaf := by
  have hleft : ∃ t, ((Syntax.Builder.ofSource "").run leftName).build = .ok t ∧ t.source = "" ∧
      t.trunk.value.kind = .qualifiedName ∧ t.trunk.value.attrs.token = none ∧
        (∀ d ∈ Syntax.joints t.trunk, ¬ d.value.span.Addresses "") ∧
          (Syntax.dottedLeaves t.trunk).map (Syntax.text "") = ["a", "Map<K, V>", "x"] ∧
            nameLeaf "" t.trunk = mapLeaf := by
    refine ⟨_, rfl, rfl, ?_, ?_, ?_, ?_, ?_⟩
    · decide +kernel
    · decide +kernel
    · decide +kernel
    · decide +kernel
    · with_unfolding_all rfl
  have hright : ∃ t, ∃ h : 1 < t.size, ((Syntax.Builder.ofSource "").run rightName).build = .ok t ∧
      t.source = "" ∧ within t.trunk = none ∧ t.trunk.value.kind = .packageDeclaration ∧
        t.trunk.children = [t.branch 1 h] ∧ (t.branch 1 h).value.kind = .qualifiedName ∧
          (t.branch 1 h).value.attrs.token = none ∧
            (∀ d ∈ Syntax.joints (t.branch 1 h), ¬ d.value.span.Addresses "") ∧
              (Syntax.dottedLeaves (t.branch 1 h)).map (Syntax.text "") =
                ["a", "Map<K, V>", "x"] ∧ nameLeaf "" (t.branch 1 h) = mapLeaf := by
    refine ⟨_, by decide, rfl, rfl, ?_, ?_, ?_, ?_, ?_, ?_, ?_, ?_⟩
    · decide +kernel
    · decide +kernel
    · with_unfolding_all rfl
    · decide +kernel
    · decide +kernel
    · decide +kernel
    · decide +kernel
    · with_unfolding_all rfl
  obtain ⟨t, ht, hsource, hkind, htoken, hjoints, hleaves, hmap⟩ := hleft
  obtain ⟨t', h', ht', hsource', hfault', hpackage, hb', hkind', htoken', hjoints', hleaves',
    hmap'⟩ := hright
  have hname := dottedName_of_unplaced hjoints
  obtain ⟨c, hc, hsize, hrose⟩ := hname.alone hkind htoken t hsource rfl
  obtain ⟨c', hc', -⟩ := convert_of_no_fault hfault'
  have htraversed : Traversed t' (t'.branch 1 h') := by
    refine .child .trunk ?_
    simp only [reported, hpackage, shape, hb', List.mem_singleton]
  obtain ⟨i, hi, -, -, hbelow⟩ := (dottedName_of_unplaced hjoints').inside hkind' htoken' t' c'
    hsource' (.built ht') hc' htraversed
  have htext : Syntax.text "" t.trunk = "a.Map<K, V>.x" := by
    rw [hname.text, hleaves]
    decide +kernel
  exact ⟨t, c, t', c', t'.branch 1 h', i, hi, ht, hc, htext, hsize, hrose.trans hmap, ht', hc', hb',
    hname.nesting "" _ hjoints' (hleaves'.trans hleaves.symm), hbelow.trans hmap'⟩

end Conversion

end CanonTree
