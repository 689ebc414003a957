import CanonTree.Proofs.Canon.Calls
import CanonTree.Proofs.Conversion.Steps
import CanonTree.Proofs.Conversion.Traversal

namespace CanonTree.Conversion

open Canon (Builder)
open Syntax (Branch Item Kind Role)

/-- What goes wrong below a node and with its own parts. -/
def within (n : Branch) : Option Error := Visit.fault? ⟨none, n⟩

theorem fault?_eq_within {w : Visit} (h : w.isIntruder = false) : w.fault? = within w.node := by
  have hroot : (⟨none, w.node⟩ : Visit).isIntruder = false := rfl
  rw [within, Visit.fault?_eq, Visit.fault?_eq, Visit.malformation?, Visit.malformation?, h, hroot]
  rfl

theorem fault?_of_intruder {w : Visit} (h : w.isIntruder = true) :
    w.fault? = some (.unexpectedModifier w.node.value.kind w.node.value.span.start) := by
  rw [Visit.fault?_eq, Visit.malformation?, h]
  rfl

theorem within_eq (n : Branch) :
    within n =
      (missing? n).or ((onward n).findSome? fun c => Visit.fault? ⟨some n.value.kind, c⟩) := by
  rw [within, Visit.fault?_eq, Visit.next, List.findSome?_map]
  rfl

theorem within_eq_of_ne {n : Branch} (h : n.value.kind ≠ .typeDeclaration) :
    within n = (missing? n).or ((onward n).findSome? within) := by
  rw [within_eq]
  congr 1
  refine congrArg (fun f => (onward n).findSome? f) (funext fun c => fault?_eq_within ?_)
  simp [Visit.isIntruder, h]

def Converts (source : String) (n : Branch) : Prop :=
  ∀ b : Builder, b.Ready → add source n b = guarded (within n) (plant (image source n)) b

theorem findSome?_congr {α β : Type} {f g : α → Option β} {as : List α}
    (h : ∀ a ∈ as, f a = g a) : as.findSome? f = as.findSome? g := by
  induction as with
  | nil => rfl
  | cons a as ih =>
    rw [List.findSome?_cons, List.findSome?_cons, h a List.mem_cons_self,
      ih fun b hb => h b (List.mem_cons_of_mem a hb)]

theorem fault?_of_role {c : Branch} {r : Role} (k : Kind) (hr : r ≠ .modifiers)
    (hc : c.value.role = r) : Visit.fault? ⟨some k, c⟩ = within c := by
  apply fault?_eq_within
  simp [Visit.isIntruder, hc, hr]

theorem findSome?_fault?_inRole (k : Kind) {r : Role} (hr : r ≠ .modifiers) (cs : List Branch) :
    (Syntax.inRole r cs).findSome? (fun c => Visit.fault? ⟨some k, c⟩) =
      (Syntax.inRole r cs).findSome? within := by
  apply findSome?_congr
  intro c hc
  exact fault?_of_role k hr (by simpa using (List.mem_filter.1 hc).2)

theorem findSome?_fault?_first (k : Kind) {r : Role} (hr : r ≠ .modifiers) (cs : List Branch) :
    (Syntax.first? r cs).toList.findSome? (fun c => Visit.fault? ⟨some k, c⟩) =
      (Syntax.first? r cs).toList.findSome? within := by
  apply findSome?_congr
  intro c hc
  exact fault?_of_role k hr (by simpa using List.find?_some (Option.mem_toList.1 hc))

variable {source : String}

theorem adds_add {c : Branch} (h : Converts source c) :
    Adds (add source c) (within c) [image source c] := by
  intro b hb
  rw [h b hb.ready]
  cases within c with
  | some e => rfl
  | none => exact (plantAll_singleton _ b).symm

theorem findSome?_cons_or {α β : Type} (f : α → Option β) (a : α) (as : List α) :
    (a :: as).findSome? f = (f a).or (as.findSome? f) := by
  rw [List.findSome?_cons]
  cases f a <;> rfl

theorem adds_addAll (cs : List Branch) (h : ∀ c ∈ cs, Converts source c) :
    Adds (addAll source cs) (cs.findSome? within) (cs.map (image source)) := by
  induction cs with
  | nil => exact adds_pure.of_eq (fun _ => by rw [addAll]) rfl rfl
  | cons c cs ih =>
    have hcs := ih fun d hd => h d (List.mem_cons_of_mem c hd)
    refine ((adds_add (h c List.mem_cons_self)).append hcs).of_eq (fun b => by rw [addAll]) ?_ rfl
    exact findSome?_cons_or within c cs

theorem addRole_eq (r : Role) (cs : List Branch) (b : Builder) :
    addRole source r cs b = addAll source (Syntax.inRole r cs) b := by
  induction cs generalizing b with
  | nil => rw [addRole, Syntax.inRole, List.filter_nil, addAll]
  | cons c cs ih =>
    rw [addRole]
    by_cases hr : c.value.role = r
    · have hf : Syntax.inRole r (c :: cs) = c :: Syntax.inRole r cs := by
        simp [Syntax.inRole, hr]
      rw [hf, addAll]
      simp only [hr, if_true]
      congr 1
      funext b'
      exact ih b'
    · have hf : Syntax.inRole r (c :: cs) = Syntax.inRole r cs := by
        simp [Syntax.inRole, hr]
      simp only [hr, if_false, hf, ih b]

theorem addFirst_eq (r : Role) (cs : List Branch) (b : Builder) :
    addFirst source r cs b = addAll source (Syntax.first? r cs).toList b := by
  induction cs with
  | nil => rw [addFirst, Syntax.first?, List.find?_nil, Option.toList_none, addAll]
  | cons c cs ih =>
    rw [addFirst]
    by_cases hr : c.value.role = r
    · have hf : Syntax.first? r (c :: cs) = some c := by
        simp [Syntax.first?, hr]
      have hend : (addAll source [] : Step) = pure := by
        funext b'
        rw [addAll]
      rw [hf, Option.toList_some, addAll]
      simp only [hr, if_true, hend, bind_pure]
    · have hf : Syntax.first? r (c :: cs) = Syntax.first? r cs := by
        simp [Syntax.first?, hr]
      simp only [hr, if_false, hf, ih]

theorem adds_addRole (r : Role) (cs : List Branch) (h : ∀ c ∈ cs, Converts source c) :
    Adds (addRole source r cs) ((Syntax.inRole r cs).findSome? within)
      ((Part.inRole r (parts source cs)).map Part.tree) := by
  have hin := adds_addAll (Syntax.inRole r cs) fun c hc => h c (List.mem_filter.1 hc).1
  refine hin.of_eq (addRole_eq r cs) rfl ?_
  rw [inRole_parts, map_tree_parts]

theorem adds_addFirst (r : Role) (cs : List Branch) (h : ∀ c ∈ cs, Converts source c) :
    Adds (addFirst source r cs) ((Syntax.first? r cs).toList.findSome? within)
      ((Part.first r (parts source cs)).map Part.tree) := by
  have hin := adds_addAll (Syntax.first? r cs).toList fun c hc =>
    h c (List.mem_of_find?_eq_some (Option.mem_toList.1 hc))
  refine hin.of_eq (addFirst_eq r cs) rfl ?_
  rw [first_parts, map_tree_parts]

theorem any_role_eq (r : Role) (cs : List Branch) :
    cs.any (·.value.role = r) = !(Syntax.inRole r cs).isEmpty := by
  induction cs with
  | nil => rfl
  | cons c cs ih =>
    rw [List.any_cons, ih]
    by_cases hr : c.value.role = r <;> simp [Syntax.inRole, hr]

theorem any_role_eq_first (r : Role) (cs : List Branch) :
    cs.any (·.value.role = r) = (Syntax.first? r cs).isSome := by
  rw [Syntax.first?, List.isSome_find?]

theorem adds_aroundAll (entity : Entity) (r : Role) (cs : List Branch)
    (h : ∀ c ∈ cs, Converts source c) :
    Adds (aroundRole entity r cs (addRole source r cs)) ((Syntax.inRole r cs).findSome? within)
      (Part.wrapped entity (Part.inRole r (parts source cs))) := by
  apply adds_aroundRole entity r cs _ (adds_addRole r cs h)
  · rw [any_role_eq, inRole_parts, List.isEmpty_map]
  · intro hps
    rw [inRole_parts, List.map_eq_nil_iff] at hps
    rw [hps]
    rfl

theorem adds_aroundFirst (entity : Entity) (r : Role) (cs : List Branch)
    (h : ∀ c ∈ cs, Converts source c) :
    Adds (aroundRole entity r cs (addFirst source r cs))
      ((Syntax.first? r cs).toList.findSome? within)
      (Part.wrapped entity (Part.first r (parts source cs))) := by
  apply adds_aroundRole entity r cs _ (adds_addFirst r cs h)
  · rw [any_role_eq_first, first_parts, List.isEmpty_map]
    cases Syntax.first? r cs <;> rfl
  · intro hps
    rw [first_parts, List.map_eq_nil_iff] at hps
    rw [hps]
    rfl

theorem adds_addModifiers (cs : List Branch) (h : ∀ c ∈ cs, Converts source c) :
    Adds (addModifiers source cs)
      ((Syntax.inRole .modifiers cs).findSome? fun c => Visit.fault? ⟨some .typeDeclaration, c⟩)
      ((Part.inRole .modifiers (parts source cs)).map Part.tree) := by
  induction cs with
  | nil => exact adds_pure.of_eq (fun _ => by rw [addModifiers]) rfl rfl
  | cons c cs ih =>
    have hcs := ih fun d hd => h d (List.mem_cons_of_mem c hd)
    by_cases hr : c.value.role = .modifiers
    · have hin : Syntax.inRole .modifiers (c :: cs) = c :: Syntax.inRole .modifiers cs := by
        simp [Syntax.inRole, hr]
      have hparts : (Part.inRole .modifiers (parts source (c :: cs))).map Part.tree =
          image source c :: (Part.inRole .modifiers (parts source cs)).map Part.tree := by
        simp [Part.inRole, parts, hr]
      rw [hin, hparts, findSome?_cons_or]
      by_cases hk : (decide (c.value.kind = .modifier) || c.value.kind.isAnnotating) = true
      · have hok : (⟨some .typeDeclaration, c⟩ : Visit).isIntruder = false := by
          simp [Visit.isIntruder, hr, hk]
        rw [fault?_eq_within hok]
        refine ((adds_add (h c List.mem_cons_self)).append hcs).of_eq (fun b => ?_) rfl rfl
        rw [addModifiers]
        simp only [hr, hk, if_true]
      · have hbad : (⟨some .typeDeclaration, c⟩ : Visit).isIntruder = true := by
          simp [Visit.isIntruder, hr, hk]
        rw [fault?_of_intruder hbad]
        refine (adds_error _ _).of_eq (fun b => ?_) rfl rfl
        rw [addModifiers]
        simp only [hr, hk, if_true]
        rfl
    · have hin : Syntax.inRole .modifiers (c :: cs) = Syntax.inRole .modifiers cs := by
        simp [Syntax.inRole, hr]
      have hparts : Part.inRole .modifiers (parts source (c :: cs)) =
          Part.inRole .modifiers (parts source cs) := by
        simp [Part.inRole, parts, hr]
      rw [hin, hparts]
      refine hcs.of_eq (fun b => ?_) rfl rfl
      rw [addModifiers]
      simp only [hr, if_false]

/-- What the conversion does between the push of a node and its pop. -/
def fill (source : String) (v : Item) (cs : List Branch) : Step := fun opened =>
  match shape v.kind with
  | .plain => addAll source cs opened
  | .qualifiedName => pure opened
  | .call => call source (.node v cs) opened
  | .importing => staticMark source (.node v cs) opened >>= addAll source cs
  | .choice => do
    let _ ← Syntax.Choice.of (.node v cs)
    let b ← addFirst source .expression cs opened
    let b ← addFirst source .thenStatement cs b
    aroundRole .elseStatement .elseStatement cs (addFirst source .elseStatement cs) b
  | .typeDeclaration => do
    let parts ← Syntax.TypeDeclaration.of (.node v cs)
    let b ← addModifiers source cs opened
    let b ← leaf .simpleName (Syntax.text source parts.name) .unknown b
    let b ← aroundRole .superClassType .superclassType cs
      (addFirst source .superclassType cs) b
    let b ← aroundRole .superInterfaceTypes .superInterfaceTypes cs
      (addRole source .superInterfaceTypes cs) b
    addRole source .bodyDeclarations cs b
  | .loop => do
    let _ ← Syntax.Loop.of (.node v cs)
    let b ← aroundRole .initializers .initializers cs (addRole source .initializers cs) opened
    let b ← aroundRole .conditionalForExpression .expression cs
      (addFirst source .expression cs) b
    let b ← aroundRole .updaters .updaters cs (addRole source .updaters cs) b
    addFirst source .body cs b

theorem add_node (v : Item) (cs : List Branch) (b : Builder) :
    add source (.node v cs) b =
      ((push (.ofSyntax v.toNode (Syntax.label source (.node v cs))) b >>= fill source v cs >>= pop)
        >>= checkBrackets v b.depth) := by
  rw [add]
  cases hk : shape v.kind <;> simp only [fill, hk, bind_assoc, pure_bind]

theorem onward_plain {n : Branch} (h : shape n.value.kind = .plain) : onward n = n.children := by
  unfold onward
  split <;> simp_all [shape]

theorem demanded_plain {k : Kind} (h : shape k = .plain) : demanded k = [] := by
  unfold demanded
  split <;> simp_all [shape]

theorem arrange_plain {v : Item} (h : shape v.kind = .plain) (ps : List Part) :
    Part.arrange source v ps = ps.map Part.tree := by
  unfold Part.arrange
  split <;> simp_all [shape]

theorem adds_plain {v : Item} {cs : List Branch} (hk : shape v.kind = .plain)
    (h : ∀ c ∈ cs, Converts source c) :
    Adds (fill source v cs) (within (.node v cs)) (Part.arrange source v (parts source cs)) := by
  refine (adds_addAll cs h).of_eq (fun b => by simp only [fill, hk]) ?_ ?_
  · have hne : (Rose.node v cs).value.kind ≠ .typeDeclaration := by
      rintro he
      rw [show v.kind = .typeDeclaration from he] at hk
      cases hk
    have hplain : shape (Rose.node v cs).value.kind = .plain := hk
    rw [within_eq_of_ne hne, onward_plain hplain, missing?, demanded_plain hplain]
    rfl
  · rw [arrange_plain hk, parts_eq, map_tree_parts]

theorem adds_required {e : Option Error} {f : List (Rose Canon.Node)} (r : Role) (n : Branch)
    (k : Branch → Step) (h : ∀ c, Syntax.first? r n.children = some c → Adds (k c) e f) :
    Adds (fun b => Syntax.required r n >>= fun c => k c b) ((absent? n r).or e) f := by
  intro b hb
  cases hc : Syntax.first? r n.children with
  | none => simp only [Syntax.required, absent?, hc, Option.isNone_none, if_true]; rfl
  | some c =>
    have hk := h c hc b hb
    simp only [Syntax.required, absent?, hc]
    exact hk

theorem adds_choice {v : Item} {cs : List Branch} (hk : v.kind = .ifStatement)
    (h : ∀ c ∈ cs, Converts source c) :
    Adds (fill source v cs) (within (.node v cs)) (Part.arrange source v (parts source cs)) := by
  have hkind : (Rose.node v cs).value.kind = .ifStatement := hk
  have hbody := (adds_addFirst .expression cs h).append ((adds_addFirst .thenStatement cs h).append
    (adds_aroundFirst .elseStatement .elseStatement cs h))
  have hparts := adds_required .expression (.node v cs) _ fun _ _ =>
    adds_required .thenStatement (.node v cs) _ fun _ _ => hbody
  refine hparts.of_eq (fun b => ?_) ?_ ?_
  · simp only [fill, hk, shape, Syntax.Choice.of, bind_assoc, pure_bind]
  · rw [within_eq_of_ne (by simp [hkind]), missing?, onward, hkind]
    simp [demanded, findSome?_cons_or, List.findSome?_append, Rose.children, Option.or_assoc]
  · simp [Part.arrange, hk]

theorem adds_loop {v : Item} {cs : List Branch} (hk : v.kind = .forStatement)
    (h : ∀ c ∈ cs, Converts source c) :
    Adds (fill source v cs) (within (.node v cs)) (Part.arrange source v (parts source cs)) := by
  have hkind : (Rose.node v cs).value.kind = .forStatement := hk
  have hbody := (adds_aroundAll .initializers .initializers cs h).append
    ((adds_aroundFirst .conditionalForExpression .expression cs h).append
      ((adds_aroundAll .updaters .updaters cs h).append (adds_addFirst .body cs h)))
  have hparts := adds_required .body (.node v cs) _ fun _ _ => hbody
  refine hparts.of_eq (fun b => ?_) ?_ ?_
  · simp only [fill, hk, shape, Syntax.Loop.of, bind_assoc, pure_bind]
  · rw [within_eq_of_ne (by simp [hkind]), missing?, onward, hkind]
    simp [demanded, findSome?_cons_or, List.findSome?_append, Rose.children]
  · simp [Part.arrange, hk]

theorem adds_typeDeclaration {v : Item} {cs : List Branch} (hk : v.kind = .typeDeclaration)
    (h : ∀ c ∈ cs, Converts source c) :
    Adds (fill source v cs) (within (.node v cs)) (Part.arrange source v (parts source cs)) := by
  have hkind : (Rose.node v cs).value.kind = .typeDeclaration := hk
  have hparts := adds_required .name (.node v cs)
    (fun c b => addModifiers source cs b >>= fun b =>
      leaf .simpleName (Syntax.text source c) .unknown b >>= fun b =>
        aroundRole .superClassType .superclassType cs (addFirst source .superclassType cs) b >>=
          fun b => aroundRole .superInterfaceTypes .superInterfaceTypes cs
            (addRole source .superInterfaceTypes cs) b >>= addRole source .bodyDeclarations cs)
    (f := Part.arrange source v (parts source cs)) fun c hc =>
      ((adds_addModifiers cs h).append
        ((adds_leaf .simpleName (Syntax.text source c) .unknown).append
          ((adds_aroundFirst .superClassType .superclassType cs h).append
            ((adds_aroundAll .superInterfaceTypes .superInterfaceTypes cs h).append
              (adds_addRole .bodyDeclarations cs h))))).of_eq (fun _ => rfl) rfl
        (by simp [Part.arrange, hk, first_parts_of_some cs hc, Part.nameLeaf, part])
  refine hparts.of_eq (fun b => ?_) ?_ rfl
  · simp only [fill, hk, shape, Syntax.TypeDeclaration.of, bind_assoc, pure_bind]
  · rw [within_eq, missing?, onward, hkind]
    simp [demanded, findSome?_cons_or, List.findSome?_append, Rose.children,
      findSome?_fault?_inRole, findSome?_fault?_first]

theorem adds_texts (entity : Entity) (r : Role) (cs : List Branch) :
    Adds (flatGroup entity ((Syntax.inRole r cs).map (Syntax.text source))) none
      (Part.texts entity (Part.inRole r (parts source cs))) := by
  rw [inRole_parts]
  have hgroup := adds_flatGroup entity ((Syntax.inRole r cs).map (part source))
  refine hgroup.of_eq (fun b => ?_) rfl rfl
  rw [List.map_map]
  rfl

theorem adds_receiver (o : Option Branch) :
    Adds (fun b => match o with
      | some r => flatLeaf (Syntax.text source r) b
      | none => pure b) none (o.toList.map fun r => (part source r).textLeaf) := by
  cases o with
  | none => exact adds_pure
  | some r => exact adds_flatLeaf (part source r)

theorem adds_call {v : Item} {cs : List Branch}
    (hk : v.kind = .methodInvocation ∨ v.kind = .superMethodInvocation) :
    Adds (fill source v cs) (within (.node v cs)) (Part.arrange source v (parts source cs)) := by
  have hshape : shape v.kind = .call := by
    rcases hk with hk | hk <;> rw [hk] <;> rfl
  have hparts := adds_required .name (.node v cs)
    (fun c b => (match if v.kind = .superMethodInvocation then none
        else Syntax.first? .expression cs with
      | some r => flatLeaf (Syntax.text source r) b
      | none => pure b) >>= fun b =>
        flatGroup .typeArguments ((Syntax.inRole .typeArguments cs).map (Syntax.text source)) b >>=
          fun b => flatLeaf (Syntax.text source c) b >>=
            flatGroup .arguments ((Syntax.inRole .arguments cs).map (Syntax.text source)))
    (f := Part.arrange source v (parts source cs)) fun c hc =>
      ((adds_receiver _).append ((adds_texts .typeArguments .typeArguments cs).append
        ((adds_flatLeaf (part source c)).append (adds_texts .arguments .arguments cs)))).of_eq
          (fun _ => rfl) rfl (by
            rcases hk with hk | hk <;>
              simp [Part.arrange, hk, first_parts_of_some cs hc, first_parts, List.map_map,
                Function.comp_def])
  refine hparts.of_eq (fun b => ?_) ?_ rfl
  · simp only [fill, hshape, call, Syntax.Call.of, bind_assoc, pure_bind]
    congr 1
    funext c
    by_cases hs : v.kind = .superMethodInvocation
    · simp only [Rose.value, Rose.children, hs, if_true]
      rfl
    · simp only [Rose.value, Rose.children, hs, if_false]
      cases Syntax.first? .expression cs <;> rfl
  · rcases hk with hk | hk
    · have hkind : (Rose.node v cs).value.kind = .methodInvocation := hk
      rw [within_eq, missing?, onward, hkind]
      simp [demanded, findSome?_cons_or]
    · have hkind : (Rose.node v cs).value.kind = .superMethodInvocation := hk
      rw [within_eq, missing?, onward, hkind]
      simp [demanded, findSome?_cons_or]

theorem adds_import {v : Item} {cs : List Branch} (hk : v.kind = .importDeclaration)
    (h : ∀ c ∈ cs, Converts source c) :
    Adds (fill source v cs) (within (.node v cs)) (Part.arrange source v (parts source cs)) := by
  have hkind : (Rose.node v cs).value.kind = .importDeclaration := hk
  have hmark : Adds (fun b => if v.attrs.isStatic then
      leaf .modifier staticWord (staticSpan source) b else pure b) none
      (if v.attrs.isStatic then [Part.staticLeaf source] else []) := by
    cases v.attrs.isStatic with
    | false => exact adds_pure
    | true => exact adds_leaf .modifier staticWord (staticSpan source)
  have hparts := adds_required .name (.node v cs) _ fun _ _ => hmark.append (adds_addAll cs h)
  refine hparts.of_eq (fun b => ?_) ?_ ?_
  · simp only [fill, hk, shape, staticMark, Syntax.Import.of, bind_assoc, pure_bind]
    rfl
  · rw [within_eq_of_ne (by simp [hkind]), missing?, onward, hkind]
    simp [demanded, findSome?_cons_or, Rose.children]
  · simp [Part.arrange, hk, parts_eq, part, Function.comp_def]

theorem adds_qualifiedName {v : Item} {cs : List Branch} (hk : v.kind = .qualifiedName) :
    Adds (fill source v cs) (within (.node v cs)) (Part.arrange source v (parts source cs)) := by
  have hkind : (Rose.node v cs).value.kind = .qualifiedName := hk
  refine adds_pure.of_eq (fun b => ?_) ?_ ?_
  · simp only [fill, hk, shape]
  · rw [within_eq, missing?, onward, hkind]
    rfl
  · simp only [Part.arrange, hk]

theorem kind_cases (k : Kind) : k = .ifStatement ∨ (k = .methodInvocation ∨
    k = .superMethodInvocation) ∨ k = .typeDeclaration ∨ k = .forStatement ∨
    k = .importDeclaration ∨ k = .qualifiedName ∨ shape k = .plain := by
  unfold shape
  split <;> simp

theorem adds_fill (v : Item) (cs : List Branch) (h : ∀ c ∈ cs, Converts source c) :
    Adds (fill source v cs) (within (.node v cs)) (Part.arrange source v (parts source cs)) := by
  rcases kind_cases v.kind with hk | hk | hk | hk | hk | hk | hk
  · exact adds_choice hk h
  · exact adds_call hk
  · exact adds_typeDeclaration hk h
  · exact adds_loop hk h
  · exact adds_import hk h
  · exact adds_qualifiedName hk
  · exact adds_plain hk h

theorem converts (source : String) (n : Branch) : Converts source n := by
  induction n using Rose.recOnChildren with
  | node v cs ih =>
    intro b hb
    have hfill := (adds_fill v cs ih).node
      (.ofSyntax v.toNode (Syntax.label source (.node v cs))) hb
    rw [add_node, hfill, image]
    cases within (.node v cs) with
    | some e => rfl
    | none =>
      obtain ⟨b', hplant, hhangs⟩ := plant_ok
        (.node (.ofSyntax v.toNode (Syntax.label source (.node v cs)))
          (Part.arrange source v (parts source cs))) hb
      have hdepth : b.depth = b'.depth := by
        rw [Builder.depth, Builder.depth, hhangs.stack]
      simp only [guarded, hplant]
      change checkBrackets v b.depth b' = .ok b'
      rw [checkBrackets, if_pos hdepth]

theorem convert_of_fault {t : Syntax.Tree} {e : Error} (h : within t.trunk = some e) :
    convert t = .error e := by
  rw [convert, converts t.source t.trunk .empty Builder.ready_empty, h]
  rfl

/-- Without a fault the canonical tree is laid out in the arena from number 0 on. -/
theorem convert_of_no_fault {t : Syntax.Tree} (h : within t.trunk = none) :
    ∃ c, convert t = .ok c ∧ c.root = 0 ∧
      c.arena.rows = (image t.source t.trunk).layout none 0 := by
  obtain ⟨b, hplant, hhangs⟩ := plant_ok (image t.source t.trunk) Builder.ready_empty
  obtain ⟨c, hbuild, harena, hroot⟩ := Builder.build_of_closed (b := b) (r := 0) hhangs.stack (by
    rw [hhangs.root]
    rfl)
  refine ⟨c, ?_, hroot, ?_⟩
  · rw [convert, converts t.source t.trunk .empty Builder.ready_empty, h]
    simp only [guarded, hplant]
    exact hbuild
  · rw [harena, hhangs.rows]
    exact Entry.graft_none_nil _

theorem within_of_convert {t : Syntax.Tree} {c : Canon.Tree} (h : convert t = .ok c) :
    within t.trunk = none ∧ c.root = 0 ∧
      c.arena.rows = (image t.source t.trunk).layout none 0 := by
  cases hf : within t.trunk with
  | some e =>
    rw [convert_of_fault hf] at h
    cases h
  | none =>
    obtain ⟨c', hc', hroot, hrows⟩ := convert_of_no_fault hf
    cases hc'.symm.trans h
    exact ⟨rfl, hroot, hrows⟩

theorem rose_eq {c : Canon.Tree} {r : Rose Canon.Node} (hroot : c.root = 0)
    (hrows : c.arena.rows = r.layout none 0) : c.rose = r := by
  have hprefix : r.layout none c.root <+: c.arena.rows.drop c.root := by
    simp [hroot, hrows]
  rw [Canon.Tree.rose, Arena.subtree_eq_number _ c.arena r none c.root c.root_lt hprefix,
    Rose.number_value]

theorem error_of_malformation {w : Visit} {e : Error} (h : w.malformation? = some e) :
    (∃ k r o, e = .missingChild k r o) ∨ ∃ k o, e = .unexpectedModifier k o := by
  rw [Visit.malformation?] at h
  split at h
  · exact Or.inr ⟨_, _, (Option.some.inj h).symm⟩
  · obtain ⟨r, -, hr⟩ := List.exists_of_findSome?_eq_some h
    rw [absent?] at hr
    split at hr
    · exact Or.inl ⟨_, _, _, (Option.some.inj hr).symm⟩
    · cases hr

theorem error_of_within {n : Branch} {e : Error} (h : within n = some e) :
    (∃ k r o, e = .missingChild k r o) ∨ ∃ k o, e = .unexpectedModifier k o := by
  obtain ⟨w, -, hw⟩ := List.exists_of_findSome?_eq_some h
  exact error_of_malformation hw

end CanonTree.Conversion
