import Mathlib.Data.List.Forall2
import CanonTree.Proofs.Conversion.Outcome
import CanonTree.Proofs.Syntax.Loading
import CanonTree.Proofs.Syntax.Quoting

namespace CanonTree.Conversion

open Syntax (Branch Item Kind Role Fragment)
open List (Forall₂)

section Related

variable {α β γ : Type} {R : α → α → Prop} {as as' : List α}

theorem map_eq_of_forall₂ {f : α → β} (h : Forall₂ R as as') (hf : ∀ a a', R a a' → f a = f a') :
    as.map f = as'.map f := by
  induction h with
  | nil => rfl
  | cons ha _ ih => rw [List.map_cons, List.map_cons, hf _ _ ha, ih]

theorem findSome?_eq_of_forall₂ {f : α → Option β} (h : Forall₂ R as as')
    (hf : ∀ a a', R a a' → f a = f a') : as.findSome? f = as'.findSome? f := by
  induction h with
  | nil => rfl
  | cons ha _ ih => rw [List.findSome?_cons, List.findSome?_cons, hf _ _ ha, ih]

theorem forall₂_filter {p : α → Bool} (h : Forall₂ R as as') (hp : ∀ a a', R a a' → p a = p a') :
    Forall₂ R (as.filter p) (as'.filter p) :=
  List.rel_filter (fun a a' ha => by simp only [hp a a' ha]) h

theorem forall₂_find? {p : α → Bool} (h : Forall₂ R as as') (hp : ∀ a a', R a a' → p a = p a') :
    Forall₂ R (as.find? p).toList (as'.find? p).toList := by
  induction h with
  | nil => exact .nil
  | @cons a a' _ _ ha _ ih =>
    rw [List.find?_cons, List.find?_cons, ← hp a a' ha]
    cases p a with
    | true => exact .cons ha .nil
    | false => exact ih

end Related

/-- The same part and the same text: all that a call takes of a child. -/
def Flat (source : String) (c c' : Branch) : Prop :=
  c.value.role = c'.value.role ∧ Syntax.text source c = Syntax.text source c'

/-- The trees are the same but for numbers and for what is below opaque places: a child of a call
may be replaced by any that plays the same part and has the same text, and whatever is below a
qualified name may be replaced as long as the name keeps its text. -/
inductive Alike (source : String) : Branch → Branch → Prop where
  | node {v v' : Item} {cs cs' : List Branch} : v.toNode = v'.toNode →
      Forall₂ (Alike source) cs cs' → Alike source (.node v cs) (.node v' cs')
  | call {v v' : Item} {cs cs' : List Branch} :
      v.kind = .methodInvocation ∨ v.kind = .superMethodInvocation → v.toNode = v'.toNode →
      Forall₂ (Flat source) cs cs' → Alike source (.node v cs) (.node v' cs')
  | qualifiedName {v v' : Item} {cs cs' : List Branch} : v.kind = .qualifiedName →
      v.toNode = v'.toNode → Syntax.text source (.node v cs) = Syntax.text source (.node v' cs') →
      Alike source (.node v cs) (.node v' cs')

namespace Alike

variable {source : String}

theorem toNode_eq {b b' : Branch} (h : Alike source b b') : b.value.toNode = b'.value.toNode := by
  cases h <;> assumption

theorem role_eq {b b' : Branch} (h : Alike source b b') : b.value.role = b'.value.role :=
  congrArg (·.role) h.toNode_eq

theorem of_map {b b' : Branch} (h : b.map Item.toNode = b'.map Item.toNode) :
    Alike source b b' := by
  induction b using Rose.recOnChildren generalizing b' with
  | node v cs ih =>
    obtain ⟨v', cs'⟩ := b'
    rw [Rose.map, Rose.map, Rose.maps_eq, Rose.maps_eq] at h
    injection h with hv hcs
    have hlen : cs.length = cs'.length := by simpa using congrArg List.length hcs
    refine .node hv ?_
    rw [List.forall₂_iff_get]
    refine ⟨hlen, fun i hi hi' => ih _ (List.get_mem _ _) ?_⟩
    have hget : (cs.map (·.map Item.toNode))[i]? = (cs'.map (·.map Item.toNode))[i]? := by rw [hcs]
    simpa [hi, hi'] using hget

end Alike

def FlatFragment (f f' : Fragment) : Prop := f.role = f'.role ∧ f.text = f'.text

theorem forall₂_inRole_fragments {fs fs' : List Fragment} (h : Forall₂ FlatFragment fs fs')
    (r : Role) : Forall₂ FlatFragment (Fragment.inRole r fs) (Fragment.inRole r fs') :=
  forall₂_filter h fun f f' hf => by rw [hf.1]

theorem joined_eq {fs fs' : List Fragment} (h : Forall₂ FlatFragment fs fs') (mark : String) :
    Fragment.joined mark fs = Fragment.joined mark fs' := by
  rw [Fragment.joined, Fragment.joined, map_eq_of_forall₂ h fun _ _ hf => hf.2]

theorem receiver_eq {fs fs' : List Fragment} (h : Forall₂ FlatFragment fs fs') :
    Fragment.receiver fs = Fragment.receiver fs' := by
  have hin := forall₂_inRole_fragments h .expression
  unfold Fragment.receiver
  generalize Fragment.inRole .expression fs = rs at hin ⊢
  generalize Fragment.inRole .expression fs' = rs' at hin ⊢
  cases hin with
  | nil => rfl
  | cons hf _ => exact congrArg (· ++ ".") hf.2

theorem typeArguments_eq {fs fs' : List Fragment} (h : Forall₂ FlatFragment fs fs') :
    Fragment.typeArguments fs = Fragment.typeArguments fs' := by
  have hin := forall₂_inRole_fragments h .typeArguments
  have hjoined := joined_eq hin ", "
  unfold Fragment.typeArguments
  generalize Fragment.inRole .typeArguments fs = rs at hin hjoined ⊢
  generalize Fragment.inRole .typeArguments fs' = rs' at hin hjoined ⊢
  cases hin with
  | nil => rfl
  | cons _ _ => exact congrArg (fun s => "<" ++ s ++ ">") hjoined

theorem call_eq {fs fs' : List Fragment} (h : Forall₂ FlatFragment fs fs') :
    Fragment.call fs = Fragment.call fs' := by
  have hname : (Fragment.inRole .name fs).head?.elim "" (·.text) =
      (Fragment.inRole .name fs').head?.elim "" (·.text) := by
    have hin := forall₂_inRole_fragments h .name
    generalize Fragment.inRole .name fs = rs at hin ⊢
    generalize Fragment.inRole .name fs' = rs' at hin ⊢
    cases hin with
    | nil => rfl
    | cons hf _ => exact hf.2
  rw [Fragment.call, Fragment.call, typeArguments_eq h, hname, Fragment.arguments,
    Fragment.arguments, joined_eq (forall₂_inRole_fragments h .arguments)]

theorem render_call_eq {k : Kind} (hk : k = .methodInvocation ∨ k = .superMethodInvocation)
    (token : Option String) {fs fs' : List Fragment} (h : Forall₂ FlatFragment fs fs') :
    Fragment.render k token fs = Fragment.render k token fs' := by
  have hreceiver := receiver_eq h
  have hcall := call_eq h
  cases h with
  | nil => rfl
  | cons _ _ =>
    rcases hk with rfl | rfl
    · simp only [Fragment.render, Fragment.compound, hreceiver, hcall]
    · simp only [Fragment.render, Fragment.compound, hcall]

variable {source : String}

theorem text_eq_of_fragments {v v' : Item} {cs cs' : List Branch} (hv : v.toNode = v'.toNode)
    (h : Fragment.render v.kind v.attrs.token (Syntax.fragments source cs) =
      Fragment.render v.kind v.attrs.token (Syntax.fragments source cs')) :
    Syntax.text source (.node v cs) = Syntax.text source (.node v' cs') := by
  rw [Syntax.text, Syntax.text, h, show v'.span = v.span from congrArg (·.span) hv.symm,
    show v'.kind = v.kind from congrArg (·.kind) hv.symm,
    show v'.attrs = v.attrs from congrArg (·.attrs) hv.symm]

theorem Alike.text_eq {b b' : Branch} (h : Alike source b b') :
    Syntax.text source b = Syntax.text source b' := by
  induction b using Rose.recOnChildren generalizing b' with
  | node v cs ih =>
    cases h with
    | node hv hcs =>
      refine text_eq_of_fragments hv (congrArg _ ?_)
      rw [Syntax.fragments_eq_map, Syntax.fragments_eq_map]
      refine map_eq_of_forall₂ ((List.forall₂_and_left _ _).2 ⟨ih, hcs⟩) fun c c' hc => ?_
      rw [hc.1 hc.2, hc.2.role_eq, show c.value.kind = c'.value.kind from
        congrArg (·.kind) hc.2.toNode_eq]
    | call hk hv hcs =>
      refine text_eq_of_fragments hv (render_call_eq hk _ ?_)
      rw [Syntax.fragments_eq_map, Syntax.fragments_eq_map]
      rw [List.forall₂_map_left_iff, List.forall₂_map_right_iff]
      exact hcs
    | qualifiedName _ _ ht => exact ht

theorem Alike.label_eq {b b' : Branch} (h : Alike source b b') :
    Syntax.label source b = Syntax.label source b' := by
  have hkind : b.value.kind = b'.value.kind := congrArg (·.kind) h.toNode_eq
  have hattrs : b.value.attrs = b'.value.attrs := congrArg (·.attrs) h.toNode_eq
  simp only [Syntax.label, hkind, hattrs, h.text_eq]

def FlatPart (p p' : Part) : Prop := p.role = p'.role ∧ p.text = p'.text

theorem FlatPart.textLeaf_eq {p p' : Part} (h : FlatPart p p') : p.textLeaf = p'.textLeaf := by
  rw [Part.textLeaf, Part.textLeaf, h.2]

theorem texts_eq {ps ps' : List Part} (h : Forall₂ FlatPart ps ps') (e : Entity) :
    Part.texts e ps = Part.texts e ps' := by
  have hleaves := map_eq_of_forall₂ h fun _ _ hp => hp.textLeaf_eq
  cases h with
  | nil => rfl
  | cons _ _ => exact congrArg (fun ts => [Rose.node (.inserted e "" ⟨-1, 0⟩) ts]) hleaves

theorem arrange_eq_of_item {v v' : Item} (h : v.toNode = v'.toNode) (ps : List Part) :
    Part.arrange source v ps = Part.arrange source v' ps := by
  have hkind : v.kind = v'.kind := congrArg (·.kind) h
  have hattrs : v.attrs = v'.attrs := congrArg (·.attrs) h
  rw [Part.arrange, Part.arrange, hkind, hattrs]

theorem arrange_call_eq {v : Item}
    (hk : v.kind = .methodInvocation ∨ v.kind = .superMethodInvocation) {ps ps' : List Part}
    (h : Forall₂ FlatPart ps ps') :
    Part.arrange source v ps = Part.arrange source v ps' := by
  have hfirst : ∀ r, (Part.first r ps).map Part.textLeaf = (Part.first r ps').map Part.textLeaf :=
    fun r => map_eq_of_forall₂ (forall₂_find? h fun p p' hp => by rw [hp.1])
      fun _ _ hp => hp.textLeaf_eq
  have hall : ∀ e r, Part.texts e (Part.inRole r ps) = Part.texts e (Part.inRole r ps') :=
    fun e r => texts_eq (forall₂_filter h fun p p' hp => by rw [hp.1]) e
  rcases hk with hk | hk
  · simp only [Part.arrange, hk, hfirst, hall]
  · simp only [Part.arrange, hk, hfirst, hall]

theorem Alike.image_eq {b b' : Branch} (h : Alike source b b') :
    image source b = image source b' := by
  have hlabel := h.label_eq
  induction b using Rose.recOnChildren generalizing b' with
  | node v cs ih =>
    obtain ⟨v', cs'⟩ := b'
    have hv : v.toNode = v'.toNode := h.toNode_eq
    rw [image, image, hlabel, hv, arrange_eq_of_item hv]
    congr 1
    cases h with
    | node _ hcs =>
      refine congrArg _ ?_
      rw [parts_eq, parts_eq]
      refine map_eq_of_forall₂ ((List.forall₂_and_left _ _).2 ⟨ih, hcs⟩) fun c c' hc => ?_
      rw [part, part, hc.2.role_eq, hc.2.text_eq, hc.1 hc.2 hc.2.label_eq]
    | call hk _ hcs =>
      have hk' : v'.kind = .methodInvocation ∨ v'.kind = .superMethodInvocation := by
        rwa [← congrArg (·.kind) hv]
      refine arrange_call_eq hk' ?_
      rw [parts_eq, parts_eq, List.forall₂_map_left_iff, List.forall₂_map_right_iff]
      exact hcs
    | qualifiedName hk _ _ =>
      have hk' : v'.kind = .qualifiedName := by
        rwa [← congrArg (·.kind) hv]
      simp only [Part.arrange, hk']

section Onward

variable {R : Branch → Branch → Prop} {v v' : Item} {cs cs' : List Branch}

theorem forall₂_onward (hk : v.kind = v'.kind) (h : Forall₂ R cs cs')
    (hR : ∀ c c', R c c' → c.value.role = c'.value.role) :
    Forall₂ R (onward (.node v cs)) (onward (.node v' cs')) := by
  have hall : ∀ r, Forall₂ R (Syntax.inRole r cs) (Syntax.inRole r cs') :=
    fun r => forall₂_filter h fun c c' hc => by rw [hR c c' hc]
  have hfirst : ∀ r, Forall₂ R (Syntax.first? r cs).toList (Syntax.first? r cs').toList :=
    fun r => forall₂_find? h fun c c' hc => by rw [hR c c' hc]
  have happend : ∀ {xs xs' ys ys' : List Branch}, Forall₂ R xs xs' → Forall₂ R ys ys' →
      Forall₂ R (xs ++ ys) (xs' ++ ys') := fun hx hy => List.rel_append hx hy
  unfold onward
  simp only [Rose.value, Rose.children, ← hk]
  split
  · exact happend (happend (hfirst _) (hfirst _)) (hfirst _)
  · exact .nil
  · exact .nil
  · exact .nil
  · exact happend (happend (happend (hall _) (hfirst _)) (hall _)) (hall _)
  · exact happend (happend (happend (hall _) (hfirst _)) (hall _)) (hfirst _)
  · exact h

theorem missing?_eq (hv : v.toNode = v'.toNode) (h : Forall₂ R cs cs')
    (hR : ∀ c c', R c c' → c.value.role = c'.value.role) :
    missing? (.node v cs) = missing? (.node v' cs') := by
  have hkind : v.kind = v'.kind := congrArg (·.kind) hv
  have hspan : v.span = v'.span := congrArg (·.span) hv
  have habsent : ∀ r, absent? (.node v cs) r = absent? (.node v' cs') r := by
    intro r
    have hfind := (forall₂_find? (p := (·.value.role = r)) h fun c c' hc => by rw [hR c c' hc])
    have hnone : (Syntax.first? r cs).isNone = (Syntax.first? r cs').isNone := by
      have hlength := hfind.length_eq
      unfold Syntax.first?
      generalize cs.find? _ = o at hlength ⊢
      generalize cs'.find? _ = o' at hlength ⊢
      cases o <;> cases o' <;> simp at hlength ⊢
    simp only [absent?, Rose.children, Rose.value, hnone, hkind, hspan]
    congr
  rw [missing?, missing?, show demanded (Rose.node v cs).value.kind = demanded v.kind from rfl,
    hkind]
  exact congrArg (fun f => (demanded v'.kind).findSome? f) (funext habsent)

end Onward

theorem malformation?_eq {above : Option Kind} {v v' : Item} {cs cs' : List Branch}
    (hv : v.toNode = v'.toNode) (h : missing? (.node v cs) = missing? (.node v' cs')) :
    Visit.malformation? ⟨above, .node v cs⟩ = Visit.malformation? ⟨above, .node v' cs'⟩ := by
  have hkind : v.kind = v'.kind := congrArg (·.kind) hv
  have hrole : v.role = v'.role := congrArg (·.role) hv
  have hspan : v.span = v'.span := congrArg (·.span) hv
  simp only [Visit.malformation?, Visit.isIntruder, Rose.value, hkind, hrole, hspan, h]
  congr

theorem fault?_node (above : Option Kind) (v : Item) (cs : List Branch) :
    Visit.fault? ⟨above, .node v cs⟩ = (Visit.malformation? ⟨above, .node v cs⟩).or
      ((onward (.node v cs)).findSome? fun c => Visit.fault? ⟨some v.kind, c⟩) := by
  rw [Visit.fault?_eq, Visit.next, List.findSome?_map]
  rfl

theorem fault?_eq_malformation? {w : Visit} (h : onward w.node = []) :
    w.fault? = w.malformation? := by
  rw [Visit.fault?_eq, Visit.next, h]
  simp

theorem Alike.fault?_eq {b b' : Branch} (h : Alike source b b') (above : Option Kind) :
    Visit.fault? ⟨above, b⟩ = Visit.fault? ⟨above, b'⟩ := by
  induction b using Rose.recOnChildren generalizing b' above with
  | node v cs ih =>
    obtain ⟨v', cs'⟩ := b'
    have hv : v.toNode = v'.toNode := h.toNode_eq
    have hkind : v.kind = v'.kind := congrArg (·.kind) hv
    cases h with
    | node _ hcs =>
      have hrole : ∀ c c', Alike source c c' → c.value.role = c'.value.role :=
        fun _ _ hc => hc.role_eq
      have hmissing := missing?_eq hv hcs hrole
      have honward := forall₂_onward hkind ((List.forall₂_and_left _ _).2 ⟨ih, hcs⟩)
        fun c c' hc => hrole c c' hc.2
      rw [fault?_node, fault?_node, ← hkind, malformation?_eq hv hmissing]
      exact congrArg _ (findSome?_eq_of_forall₂ honward fun c c' hc => hc.1 hc.2 (some v.kind))
    | call hk _ hcs =>
      have honward : ∀ ds : List Branch, onward (.node v ds) = [] := by
        intro ds
        rcases hk with hk | hk <;> simp [onward, Rose.value, hk]
      have honward' : ∀ ds : List Branch, onward (.node v' ds) = [] := by
        intro ds
        rw [hkind] at hk
        rcases hk with hk | hk <;> simp [onward, Rose.value, hk]
      rw [fault?_eq_malformation? (honward cs), fault?_eq_malformation? (honward' cs')]
      exact malformation?_eq hv (missing?_eq hv hcs fun _ _ hc => hc.1)
    | qualifiedName hk _ _ =>
      have hk' : v'.kind = .qualifiedName := hkind ▸ hk
      have honward : onward (.node v cs) = [] := by simp [onward, Rose.value, hk]
      have honward' : onward (.node v' cs') = [] := by simp [onward, Rose.value, hk']
      rw [fault?_eq_malformation? honward, fault?_eq_malformation? honward']
      refine malformation?_eq hv ?_
      simp [missing?, demanded, Rose.value, hk, hk']

/-- The nodes that have no call and no qualified name above them. -/
inductive Exposed (w : Visit) : Visit → Prop where
  | self : Exposed w w
  | child {u : Visit} {c : Branch} : Exposed w u →
      u.node.value.kind ∉ [.methodInvocation, .superMethodInvocation, .qualifiedName] →
      c ∈ u.node.children → Exposed w ⟨some u.node.value.kind, c⟩

theorem exposed_of_reached {w u : Visit} (h : Visit.Reached w u) : Exposed w u := by
  induction h with
  | self => exact .self
  | @step u x _ hx ih =>
    obtain ⟨c, hc, rfl⟩ := List.mem_map.1 hx
    refine .child ih (fun hk => ?_) (mem_of_mem_onward hc)
    have hk : u.node.value.kind = .methodInvocation ∨ u.node.value.kind = .superMethodInvocation ∨
        u.node.value.kind = .qualifiedName := by
      simpa using hk
    rcases hk with hk | hk | hk <;> simp [onward, hk] at hc

theorem convert_congr {t t' : Syntax.Tree} (hs : t.source = t'.source)
    (h : Alike t.source t.trunk t'.trunk) : convert t = convert t' := by
  have hwithin : within t.trunk = within t'.trunk := h.fault?_eq none
  cases hf : within t.trunk with
  | some e => rw [convert_of_fault hf, convert_of_fault (hwithin ▸ hf)]
  | none =>
    obtain ⟨c, hc, hroot, hrows⟩ := convert_of_no_fault hf
    obtain ⟨c', hc', hroot', hrows'⟩ := convert_of_no_fault (hwithin ▸ hf)
    rw [hc, hc']
    have harena : c.arena = c'.arena := by
      apply Arena.ext_rows
      rw [hrows, hrows', ← hs, h.image_eq]
    obtain ⟨arena, root, root_lt⟩ := c
    obtain ⟨arena', root', root_lt'⟩ := c'
    cases harena
    cases hroot
    cases hroot'
    rfl

theorem exposed_of_convert_error {t : Syntax.Tree} {e : Error} (h : convert t = .error e) :
    ∃ w, Exposed ⟨none, t.trunk⟩ w ∧ w.malformation? = some e := by
  cases hf : within t.trunk with
  | none =>
    obtain ⟨c, hc, -⟩ := convert_of_no_fault hf
    cases hc.symm.trans h
  | some f =>
    cases (convert_of_fault hf).symm.trans h
    obtain ⟨w, hw, hm⟩ := List.exists_of_findSome?_eq_some hf
    exact ⟨w, exposed_of_reached (Visit.mem_traversal.1 hw), hm⟩

/-- What is below opaque places matters to the conversion through its text only, and a malformed
node there is not what a conversion fails for. -/
theorem convert_eq_of_alike :
    (∀ t t' : Syntax.Tree, t.source = t'.source → Alike t.source t.trunk t'.trunk →
      convert t = convert t') ∧
    ∀ t e, convert t = .error e → ∃ w, Exposed ⟨none, t.trunk⟩ w ∧ w.malformation? = some e :=
  ⟨fun _ _ => convert_congr, fun _ _ => exposed_of_convert_error⟩

def tidy : Rose Syntax.Node := .node { kind := .compilationUnit } [
  .node { kind := .methodInvocation } [
    .node { kind := .simpleName, role := .name, attrs := .ofToken "add" } [],
    .node { kind := .simpleName, role := .arguments, attrs := .ofToken "x" } []],
  .node { kind := .qualifiedName } [
    .node { kind := .simpleName, attrs := .ofToken "a" } [],
    .node { kind := .simpleName, attrs := .ofToken "b" } []],
  .node { kind := .returnStatement } [.node { kind := .nullLiteral } []]]

/-- The same texts from a choice and a loop that lack all their parts. -/
def untidy : Rose Syntax.Node := .node { kind := .compilationUnit } [
  .node { kind := .methodInvocation } [
    .node { kind := .simpleName, role := .name, attrs := .ofToken "add" } [],
    .node { kind := .ifStatement, role := .arguments, attrs := .ofToken "x" } []],
  .node { kind := .qualifiedName } [
    .node { kind := .forStatement, attrs := .ofToken "a.b" } []],
  .node { kind := .returnStatement } [.node { kind := .nullLiteral } []]]

theorem alike_tidy : Alike "" (tidy.number Item.of 0) (untidy.number Item.of 0) := by
  refine .node rfl (.cons (.call (.inl rfl) rfl ?_) (.cons (.qualifiedName rfl rfl ?_)
    (.cons (.of_map rfl) .nil)))
  · exact .cons ⟨rfl, by decide +kernel⟩ (.cons ⟨rfl, by decide +kernel⟩ .nil)
  · decide +kernel

theorem convert_eq_of_alike_tidy :
    (∃ t t', t.Shaped tidy ∧ t'.Shaped untidy ∧ t.size ≠ t'.size ∧ convert t = convert t' ∧
      ∃ c, convert t' = .ok c) ∧
    ∃ t w, convert t = .error (.missingChild .ifStatement .expression (-1)) ∧
      Exposed ⟨none, t.trunk⟩ w := by
  constructor
  · obtain ⟨t, -, hs, ht⟩ := Syntax.Document.toTree_ok "" tidy
    obtain ⟨t', -, hs', ht'⟩ := Syntax.Document.toTree_ok "" untidy
    have hsize : t.size ≠ t'.size := by
      rw [Syntax.Tree.size, Syntax.Tree.size, ← Arena.length_rows, ← Arena.length_rows, ht.rows,
        ht'.rows, Rose.length_layout, Rose.length_layout]
      decide
    have hfault : within t'.trunk = none := by
      rw [ht'.trunk]
      decide +kernel
    obtain ⟨c, hc, -⟩ := convert_of_no_fault hfault
    have halike : Alike t.source t.trunk t'.trunk := by
      rw [hs, ht.trunk, ht'.trunk]
      exact alike_tidy
    exact ⟨t, t', ht, ht', hsize, convert_eq_of_alike.1 t t' (hs.trans hs'.symm) halike, c, hc⟩
  · obtain ⟨t, -, -, ht⟩ := Syntax.Document.toTree_ok "" (.node { kind := .ifStatement } [])
    have hfault : within t.trunk = some (.missingChild .ifStatement .expression (-1)) := by
      rw [ht.trunk]
      decide +kernel
    have herror := convert_of_fault hfault
    obtain ⟨w, hw, -⟩ := convert_eq_of_alike.2 t _ herror
    exact ⟨t, w, herror, hw⟩

end CanonTree.Conversion
