import CanonTree.Proofs.Conversion.Origin
import CanonTree.Proofs.Syntax.Quoting

namespace CanonTree.Conversion

open Syntax (Branch Fragment Item Kind Role)

def below (c : Canon.Tree) (i : Nat) (h : i < c.size) : Rose Canon.Node :=
  c.arena.subtree (fun _ n => n) i h

section

variable {t : Syntax.Tree} {c : Canon.Tree} {b : Branch} {i : Nat}

/-- The tree below a node that was not inserted is that of the visited node it stands for. -/
theorem exists_below_eq_image (hrows : c.arena.rows = (image t.source t.trunk).layout none 0)
    (hi : Genuine c i) : ∃ b ∈ visited t.trunk, origin t c i = b.value.id ∧
      ∃ h : i < c.size, below c i h = image t.source b := by
  obtain ⟨e, he, hs⟩ := hi
  obtain ⟨b, hb, -, horigin⟩ := exists_visited hrows he hs
  have hlt : i < c.size := by
    rw [Canon.Tree.size, ← Arena.length_rows]
    exact (List.getElem?_eq_some_iff.1 he).1
  have hvalues : c.arena.rows.map Entry.value =
      (image t.source t.trunk).subtrees.map Rose.value := by
    rw [hrows, Rose.map_value_layout, Rose.map_value_subtrees]
  have hget := congrArg (·[i]?) hvalues
  simp only [List.getElem?_map, he, Option.map_some] at hget
  obtain ⟨s, hsub, hvalue⟩ := Option.map_eq_some_iff.1 hget.symm
  have hrank : rank c.arena.rows i =
      ((image t.source t.trunk).subtrees.take i).countP fun s => genuine s.value := by
    have htake := congrArg (fun vs => (vs.take i).countP genuine) hvalues
    simp only [← List.map_take, List.countP_map] at htake
    exact htake
  -- among the subtrees that are not below an inserted root, the one at `i` has the number of `b`
  have hnth := getElem?_filter_countP (p := fun s => genuine s.value) hsub
    (by simp [genuine, hvalue, hs])
  rw [← hrank, ← genuines, genuines_image, List.getElem?_map, hb, Option.map_some] at hnth
  obtain ⟨q, hq⟩ := Rose.layout_of_subtrees none 0 i _ hsub
  rw [Nat.zero_add, ← hrows] at hq
  refine ⟨b, List.mem_of_getElem? hb, horigin, hlt, ?_⟩
  rw [below, Arena.subtree_eq_number _ c.arena s q i hlt hq, Rose.number_value]
  exact (Option.some.inj hnth).symm

theorem exists_stand {r : Rose Syntax.Node} (hshape : t.Shaped r)
    (hrows : c.arena.rows = (image t.source t.trunk).layout none 0) (hb : b ∈ visited t.trunk) :
    ∃ i, ∃ h : i < c.size, Genuine c i ∧ origin t c i = b.value.id ∧
      below c i h = image t.source b := by
  obtain ⟨i, hi, horigin⟩ := exists_genuine hrows hb
  obtain ⟨b', hb', horigin', hlt, hbelow⟩ := exists_below_eq_image hrows hi
  obtain ⟨p, hgrown⟩ := grown_of_visited hshape hb
  obtain ⟨p', hgrown'⟩ := grown_of_visited hshape hb'
  have hbranch := hgrown'.branch?
  rw [← horigin', horigin, hgrown.branch?] at hbranch
  rw [← Option.some.inj hbranch] at hbelow
  exact ⟨i, hlt, hi, horigin, hbelow⟩

theorem exists_stand_of_convert (ht : t.Made) (h : convert t = .ok c) (hb : Traversed t b) :
    ∃ i, ∃ h : i < c.size, Genuine c i ∧ origin t c i = b.value.id ∧
      below c i h = image t.source b := by
  obtain ⟨r, hshape⟩ := ht.shaped
  obtain ⟨hfault, -, hrows⟩ := within_of_convert h
  exact exists_stand hshape hrows ((traversed_iff hfault).1 hb)

end

/-- The labels of a canonical call: of the leaves directly below it, and of those in its two
containers, if it has them. -/
@[ext]
structure Flattening where
  receiver : Option String
  typeArguments : Option (List String)
  name : String
  arguments : Option (List String)

namespace Flattening

def leaf (label : String) : Rose Canon.Node :=
  .node (.inserted .simpleName label (.detached label.utf8ByteSize)) []

def container (entity : Entity) (labels : List String) : Rose Canon.Node :=
  .node (.inserted entity "" ⟨-1, 0⟩) (labels.map leaf)

def children (f : Flattening) : List (Rose Canon.Node) :=
  f.receiver.toList.map leaf ++ f.typeArguments.toList.map (container .typeArguments) ++
    leaf f.name :: f.arguments.toList.map (container .arguments)

def opening (kind : Kind) (f : Flattening) : String :=
  if kind = .superMethodInvocation then "super." else f.receiver.elim "" (· ++ ".")

def text (kind : Kind) (f : Flattening) : String :=
  f.opening kind ++ f.typeArguments.elim "" (fun labels => "<" ++ ", ".intercalate labels ++ ">") ++
    f.name ++ "(" ++ ", ".intercalate (f.arguments.getD []) ++ ")"

variable {source a b : String} {as bs : List String} {e e' : Entity} {f g : Flattening}
  {s : Rose Canon.Node}

@[simp] theorem leaf_inj : leaf a = leaf b ↔ a = b := by
  constructor
  · intro h
    exact congrArg (fun r => r.value.label) h
  · exact congrArg leaf

@[simp] theorem container_inj : container e as = container e' bs ↔ e = e' ∧ as = bs := by
  constructor
  · intro h
    have hentity : e = e' := congrArg (fun r => r.value.entity) h
    have hleaves : as.map leaf = bs.map leaf := congrArg Rose.children h
    exact ⟨hentity, (List.map_inj_right fun _ _ => leaf_inj.1).1 hleaves⟩
  · rintro ⟨rfl, rfl⟩
    rfl

theorem filter_leaves (f : Flattening) : f.children.filter (·.value.entity = .simpleName) =
    (f.receiver.toList ++ [f.name]).map leaf := by
  obtain ⟨receiver, types, name, arguments⟩ := f
  cases receiver <;> cases types <;> cases arguments <;> rfl

theorem filter_typeArguments (f : Flattening) :
    f.children.filter (·.value.entity = .typeArguments) =
      f.typeArguments.toList.map (container .typeArguments) := by
  obtain ⟨receiver, types, name, arguments⟩ := f
  cases receiver <;> cases types <;> cases arguments <;> rfl

theorem filter_arguments (f : Flattening) : f.children.filter (·.value.entity = .arguments) =
    f.arguments.toList.map (container .arguments) := by
  obtain ⟨receiver, types, name, arguments⟩ := f
  cases receiver <;> cases types <;> cases arguments <;> rfl

theorem eq_of_toList {α : Type} {o o' : Option α} (h : o.toList = o'.toList) : o = o' := by
  simpa using congrArg List.head? h

theorem children_ne_nil (f : Flattening) : f.children ≠ [] := by
  rw [children]
  exact List.append_ne_nil_of_right_ne_nil _ (List.cons_ne_nil _ _)

theorem children_injective (h : f.children = g.children) : f = g := by
  have hfilter := fun e : Entity => congrArg (List.filter (·.value.entity = e)) h
  have hleaves := hfilter .simpleName
  have htypes := hfilter .typeArguments
  have harguments := hfilter .arguments
  rw [filter_leaves, filter_leaves, List.map_inj_right fun _ _ => leaf_inj.1] at hleaves
  rw [filter_typeArguments, filter_typeArguments,
    List.map_inj_right fun _ _ he => (container_inj.1 he).2] at htypes
  rw [filter_arguments, filter_arguments,
    List.map_inj_right fun _ _ he => (container_inj.1 he).2] at harguments
  obtain ⟨hreceiver, hname⟩ := List.append_inj' hleaves rfl
  exact Flattening.ext (eq_of_toList hreceiver) (eq_of_toList htypes) (List.singleton_inj.1 hname)
    (eq_of_toList harguments)

/-- The labels in a container, which is left out if there are none. -/
def contained : List String → Option (List String)
  | [] => none
  | labels => some labels

@[simp] theorem getD_contained (labels : List String) : (contained labels).getD [] = labels := by
  cases labels <;> rfl

theorem contained_of_ne_nil {labels : List String} (h : labels ≠ []) :
    contained labels = some labels := by
  cases labels with
  | nil => exact absurd rfl h
  | cons label labels => rfl

theorem contained_ne_some_nil (labels : List String) : contained labels ≠ some [] := by
  cases labels <;> simp [contained]

def ofParts (source : String) (kind : Kind) (cs : List Branch) : Flattening where
  receiver :=
    if kind = .superMethodInvocation then none
    else (Syntax.first? .expression cs).map (Syntax.text source)
  typeArguments := contained ((Syntax.inRole .typeArguments cs).map (Syntax.text source))
  name := ((Syntax.first? .name cs).map (Syntax.text source)).getD ""
  arguments := contained ((Syntax.inRole .arguments cs).map (Syntax.text source))

variable {v : Item} {cs : List Branch} {n : Branch} {r : Role}

theorem map_textLeaf (cs : List Branch) :
    (cs.map (part source)).map Part.textLeaf = (cs.map (Syntax.text source)).map leaf := by
  rw [List.map_map, List.map_map]
  rfl

theorem texts_inRole (e : Entity) (r : Role) (cs : List Branch) :
    Part.texts e (Part.inRole r (parts source cs)) =
      (contained ((Syntax.inRole r cs).map (Syntax.text source))).toList.map (container e) := by
  rw [inRole_parts]
  cases Syntax.inRole r cs with
  | nil => rfl
  | cons c cs => exact congrArg (fun ls => [Rose.node _ ls]) (map_textLeaf (c :: cs))

theorem arrange_call (hk : v.kind = .methodInvocation ∨ v.kind = .superMethodInvocation)
    (hn : Syntax.first? .name cs = some n) :
    Part.arrange source v (parts source cs) = (ofParts source v.kind cs).children := by
  have hname : (Part.first .name (parts source cs)).map Part.textLeaf =
      [leaf (((Syntax.first? .name cs).map (Syntax.text source)).getD "")] := by
    rw [first_parts_of_some cs hn, hn]
    rfl
  rcases hk with hk | hk
  · have hreceiver : (Part.first .expression (parts source cs)).map Part.textLeaf =
        ((Syntax.first? .expression cs).map (Syntax.text source)).toList.map leaf := by
      rw [first_parts, map_textLeaf, Option.toList_map]
    simp only [Part.arrange, children, ofParts, hk, reduceCtorEq, if_false, hreceiver, hname,
      texts_inRole, List.append_assoc, List.singleton_append]
  · simp only [Part.arrange, children, ofParts, hk, if_true, hname, texts_inRole,
      Option.toList_none, List.map_nil, List.nil_append, List.append_assoc, List.singleton_append]

theorem map_text_inRole (source : String) (r : Role) (cs : List Branch) :
    (Fragment.inRole r (Syntax.fragments source cs)).map (·.text) =
      (Syntax.inRole r cs).map (Syntax.text source) := by
  rw [Syntax.fragments_eq_map, Fragment.inRole, List.filter_map, List.map_map]
  rfl

theorem head?_inRole (source : String) (r : Role) (cs : List Branch) :
    (Fragment.inRole r (Syntax.fragments source cs)).head?.map (·.text) =
      (Syntax.first? r cs).map (Syntax.text source) := by
  rw [← List.head?_map, map_text_inRole, List.head?_map, Syntax.inRole, List.head?_filter,
    Syntax.first?]

theorem receiver_fragments (source : String) (cs : List Branch) :
    Fragment.receiver (Syntax.fragments source cs) =
      ((Syntax.first? .expression cs).map (Syntax.text source)).elim "" (· ++ ".") := by
  rw [← head?_inRole, Fragment.receiver]
  cases Fragment.inRole .expression (Syntax.fragments source cs) <;> rfl

theorem typeArguments_fragments (source : String) (cs : List Branch) :
    Fragment.typeArguments (Syntax.fragments source cs) =
      (contained ((Syntax.inRole .typeArguments cs).map (Syntax.text source))).elim ""
        (fun labels => "<" ++ ", ".intercalate labels ++ ">") := by
  rw [← map_text_inRole, Fragment.typeArguments]
  cases Fragment.inRole .typeArguments (Syntax.fragments source cs) <;> rfl

theorem name_fragments (source : String) (cs : List Branch) :
    (Fragment.inRole .name (Syntax.fragments source cs)).head?.elim "" (·.text) =
      ((Syntax.first? .name cs).map (Syntax.text source)).getD "" := by
  rw [← head?_inRole]
  cases Fragment.inRole .name (Syntax.fragments source cs) <;> rfl

/-- What a call is rendered to is put together from its labels. -/
theorem render_call (hk : v.kind = .methodInvocation ∨ v.kind = .superMethodInvocation)
    (hn : Syntax.first? .name cs = some n) (token : Option String) :
    Fragment.render v.kind token (Syntax.fragments source cs) =
      (ofParts source v.kind cs).text v.kind := by
  have hcall : Fragment.call (Syntax.fragments source cs) =
      (contained ((Syntax.inRole .typeArguments cs).map (Syntax.text source))).elim ""
          (fun labels => "<" ++ ", ".intercalate labels ++ ">") ++
        ((Syntax.first? .name cs).map (Syntax.text source)).getD "" ++
          ("(" ++ ", ".intercalate ((Syntax.inRole .arguments cs).map (Syntax.text source)) ++
            ")") := by
    rw [Fragment.call, typeArguments_fragments, name_fragments, Fragment.arguments,
      Fragment.joined, map_text_inRole]
  have hreceiver := receiver_fragments source cs
  -- a call with a name has children, so its word plays no part
  cases cs with
  | nil => cases hn
  | cons c cs =>
    rw [Syntax.fragments] at hcall hreceiver ⊢
    rcases hk with hk | hk
    · simp only [Fragment.render, Fragment.compound, hk, hreceiver, hcall, text, opening, ofParts,
        getD_contained, reduceCtorEq, if_false, String.append_assoc]
    · simp only [Fragment.render, Fragment.compound, hk, hcall, text, opening, ofParts,
        getD_contained, if_true, String.append_assoc]

/-- The node stands nowhere and is as long as its label. Lengths are numbers of 32 bits. -/
structure Unplaced (n : Canon.Node) : Prop where
  start : n.span.start = -1
  length : n.span.length = Int32.ofNat n.label.utf8ByteSize
  toInt_length : n.label.utf8ByteSize ≤ 2147483647 → n.span.length.toInt = n.label.utf8ByteSize

theorem unplaced_leaf (label : String) : Unplaced (leaf label).value where
  start := rfl
  length := rfl
  toInt_length h := Int32.toInt_ofNat_of_lt (Nat.lt_succ_of_le h)

theorem mem_children (h : s ∈ f.children) : (∃ a, s = leaf a) ∨
    ∃ e as, (f.typeArguments = some as ∨ f.arguments = some as) ∧ s = container e as := by
  simp only [children, List.mem_append, List.mem_cons, List.mem_map, Option.mem_toList] at h
  rcases h with (⟨a, -, rfl⟩ | ⟨as, has, rfl⟩) | rfl | ⟨as, has, rfl⟩
  · exact .inl ⟨a, rfl⟩
  · exact .inr ⟨_, as, .inl has, rfl⟩
  · exact .inl ⟨_, rfl⟩
  · exact .inr ⟨_, as, .inr has, rfl⟩

theorem unplaced_of_leaf (htypes : f.typeArguments ≠ some []) (harguments : f.arguments ≠ some [])
    (h : s ∈ Rose.forestSubtrees f.children) (hleaf : s.children = []) : Unplaced s.value := by
  rw [Rose.forestSubtrees_eq, List.mem_flatMap] at h
  obtain ⟨c, hc, hs⟩ := h
  rcases mem_children hc with ⟨a, rfl⟩ | ⟨e, as, has, rfl⟩
  · cases List.mem_singleton.1 hs
    exact unplaced_leaf a
  · rw [container, Rose.subtrees, Rose.forestSubtrees_eq, List.mem_cons] at hs
    rcases hs with rfl | hs
    · -- a container without leaves is left out
      have hnil : as = [] := List.map_eq_nil_iff.1 hleaf
      rcases has with has | has
      · exact absurd (has.trans (congrArg some hnil)) htypes
      · exact absurd (has.trans (congrArg some hnil)) harguments
    · obtain ⟨d, hd, hs⟩ := List.mem_flatMap.1 hs
      obtain ⟨a, -, rfl⟩ := List.mem_map.1 hd
      cases List.mem_singleton.1 hs
      exact unplaced_leaf a

end Flattening

/-- The canonical tree `r` of a call `b` is a row of labels, from which the call can be read if it
is not written out in the source. -/
structure Flattened (source : String) (b : Branch) (r : Rose Canon.Node) (f : Flattening) :
    Prop where
  children : r.children = f.children
  only : ∀ g : Flattening, r.children = g.children → g = f
  receiver : b.value.kind = .superMethodInvocation → f.receiver = none
  leaves : ∀ s ∈ r.subtrees, s.children = [] → Flattening.Unplaced s.value
  text : ¬ b.value.span.Addresses source → Syntax.text source b = f.text b.value.kind

theorem exists_name_of_call {b : Branch} (h : missing? b = none)
    (hk : b.value.kind = .methodInvocation ∨ b.value.kind = .superMethodInvocation) :
    ∃ n, Syntax.first? .name b.children = some n := by
  have hname : Role.name ∈ demanded b.value.kind := by
    rcases hk with hk | hk <;> simp [hk, demanded]
  obtain ⟨n, hn, -⟩ := required_of_demanded h hname
  exact ⟨n, hn⟩

theorem children_image_of_call (source : String) {b n : Branch}
    (hk : b.value.kind = .methodInvocation ∨ b.value.kind = .superMethodInvocation)
    (hn : Syntax.first? .name b.children = some n) :
    (image source b).children = (Flattening.ofParts source b.value.kind b.children).children := by
  cases b with
  | node v cs =>
    rw [image]
    exact Flattening.arrange_call hk hn

theorem flattened_image (source : String) {b : Branch} (h : missing? b = none)
    (hk : b.value.kind = .methodInvocation ∨ b.value.kind = .superMethodInvocation) :
    ∃ f, Flattened source b (image source b) f := by
  obtain ⟨n, hn⟩ := exists_name_of_call h hk
  have hchildren := children_image_of_call source hk hn
  cases b with
  | node v cs =>
    refine ⟨Flattening.ofParts source v.kind cs, hchildren, fun g hg => ?_, fun hsuper => ?_,
      fun s hs hleaf => ?_, fun hspan => ?_⟩
    · exact Flattening.children_injective (hg.symm.trans hchildren)
    · exact if_pos hsuper
    · rw [image, Rose.children] at hchildren
      rw [image, Rose.subtrees, List.mem_cons, hchildren] at hs
      rcases hs with rfl | hs
      · exact absurd hleaf (Flattening.children_ne_nil _)
      · exact Flattening.unplaced_of_leaf (Flattening.contained_ne_some_nil _)
          (Flattening.contained_ne_some_nil _) hs hleaf
    · rw [Syntax.text_eq_render hspan]
      exact Flattening.render_call hk hn _

/-- Every call that a conversion comes to is flattened: the node that stands for it has the labels
of which the call's text is made. -/
theorem flattened_of_convert {t : Syntax.Tree} {c : Canon.Tree} {b : Branch} (ht : t.Made)
    (h : convert t = .ok c) (hb : Traversed t b)
    (hk : b.value.kind = .methodInvocation ∨ b.value.kind = .superMethodInvocation) :
    ∃ i, ∃ hi : i < c.size, Genuine c i ∧ origin t c i = b.value.id ∧
      ∃ f, Flattened t.source b (below c i hi) f := by
  obtain ⟨r, hshape⟩ := ht.shaped
  obtain ⟨hfault, -, hrows⟩ := within_of_convert h
  have hvisited := (traversed_iff hfault).1 hb
  obtain ⟨i, hi, hgenuine, horigin, hbelow⟩ := exists_stand hshape hrows hvisited
  obtain ⟨f, hf⟩ := flattened_image t.source (missing?_of_visited hfault hvisited) hk
  rw [← hbelow] at hf
  exact ⟨i, hi, hgenuine, horigin, f, hf⟩

/-- A call through `super` with a qualifier, which is neither converted nor rendered. -/
def qualifiedSuperCall : List Syntax.Builder.Call := [
  .start { kind := .superMethodInvocation },
  .leaf { kind := .simpleName, role := .expression, attrs := .ofToken "Outer" },
  .leaf { kind := .simpleName, role := .arguments, attrs := .ofToken "a" },
  .leaf { kind := .simpleType, role := .typeArguments, attrs := .ofToken "T" },
  .leaf { kind := .simpleName, role := .name, attrs := .ofToken "get" },
  .leaf { kind := .simpleName, role := .arguments, attrs := .ofToken "b" },
  .finish]

theorem flattened_of_convert_qualifiedSuperCall :
    ∃ t c i, ∃ hi : i < c.size,
      ((Syntax.Builder.ofSource "").run qualifiedSuperCall).build = .ok t ∧ convert t = .ok c ∧
        t.trunk.value.kind = .superMethodInvocation ∧ Genuine c i ∧
          origin t c i = t.trunk.value.id ∧
            ∃ f, Flattened t.source t.trunk (below c i hi) f ∧
              f.text .superMethodInvocation = "super.<T>get(a, b)" := by
  have hbuild : ∃ t, ((Syntax.Builder.ofSource "").run qualifiedSuperCall).build = .ok t ∧
      within t.trunk = none ∧ t.trunk.value.kind = .superMethodInvocation ∧
        ¬ t.trunk.value.span.Addresses t.source ∧
          Syntax.text t.source t.trunk = "super.<T>get(a, b)" := by
    refine ⟨_, rfl, ?_, ?_, ?_, ?_⟩
    · decide +kernel
    · decide +kernel
    · decide +kernel
    · decide +kernel
  obtain ⟨t, ht, hfault, hkind, hspan, htext⟩ := hbuild
  obtain ⟨c, hc, -⟩ := convert_of_no_fault hfault
  obtain ⟨i, hi, hgenuine, horigin, f, hf⟩ :=
    flattened_of_convert (.built ht) hc .trunk (.inr hkind)
  have hread := hf.text hspan
  rw [htext, hkind] at hread
  exact ⟨t, c, i, hi, ht, hc, hkind, hgenuine, horigin, f, hf, hread.symm⟩

end CanonTree.Conversion
