import CanonTree.Proofs.Conversion.Image
import CanonTree.Proofs.Conversion.Planting

namespace CanonTree.Conversion

open Canon (Builder)
open Syntax (Branch Role)

/-- A step that may have to be given up before anything is seen of it. -/
def guarded (e : Option Error) (s : Step) : Step := fun b =>
  match e with
  | some e => .error e
  | none => s b

/-- Below an open node the step fails with `e`, or else plants `f`. Steps done one after the other
plant one forest behind the other, and the first error wins. -/
def Adds (s : Step) (e : Option Error) (f : List (Rose Canon.Node)) : Prop :=
  ∀ b : Builder, b.Open → s b = guarded e (plantAll f) b

theorem adds_pure : Adds pure none [] := fun _ _ => rfl

theorem Adds.append {s s' : Step} {e e' : Option Error} {f f' : List (Rose Canon.Node)}
    (h : Adds s e f) (h' : Adds s' e' f') : Adds (fun b => s b >>= s') (e.or e') (f ++ f') := by
  intro b hb
  change (s b >>= s') = _
  rw [h b hb]
  cases e with
  | some e => rfl
  | none =>
    obtain ⟨b', hplant, hhangs⟩ := plantAll_ok f hb
    have hs' := h' b' (hhangs.open hb)
    simp only [guarded, Option.none_or, plantAll_append, hplant]
    change s' b' = _
    rw [hs']
    cases e' <;> rfl

theorem Adds.node {s : Step} {e : Option Error} {f : List (Rose Canon.Node)} (n : Canon.Node)
    (h : Adds s e f) {b : Builder} (hb : b.Ready) :
    (push n b >>= s >>= pop) = guarded e (plant (.node n f)) b := by
  obtain ⟨b', hpush, hstack, hroot, -⟩ := push_ok n hb
  have hopen : b'.Open := ⟨by simp [hstack], by simp [hroot]⟩
  have hs := h b' hopen
  cases e with
  | some e =>
    simp only [guarded] at hs ⊢
    rw [hpush]
    change (s b' >>= pop) = _
    rw [hs]
    rfl
  | none =>
    simp only [guarded] at hs ⊢
    rw [plant_node, hpush]
    change (s b' >>= pop) = (plantAll f b' >>= pop)
    rw [hs]

theorem Adds.of_eq {s s' : Step} {e e' : Option Error} {f f' : List (Rose Canon.Node)}
    (h : Adds s e f) (hs : ∀ b, s' b = s b) (he : e' = e) (hf : f' = f) : Adds s' e' f' := by
  subst he hf
  intro b hb
  rw [hs b, h b hb]

theorem adds_error (e : Error) (f : List (Rose Canon.Node)) :
    Adds (fun _ => .error e) (some e) f := fun _ _ => rfl

theorem adds_leaf (e : Entity) (label : String) (span : Span) :
    Adds (leaf e label span) none [.node (.inserted e label span) []] := by
  intro b hb
  have h := (adds_pure).node (.inserted e label span) hb.ready
  simp only [guarded, plantAll_singleton] at h ⊢
  rw [← h, leaf, bind_pure]

theorem adds_around {s : Step} {e : Option Error} {f : List (Rose Canon.Node)} (entity : Entity)
    (h : Adds s e f) : Adds (around entity s) e [.node (.inserted entity "" .unknown) f] := by
  intro b hb
  have := h.node (.inserted entity "" .unknown) hb.ready
  rw [around, this]
  cases e with
  | some e => rfl
  | none => exact (plantAll_singleton _ b).symm

theorem adds_flatLeaf (p : Part) : Adds (flatLeaf p.text) none [p.textLeaf] :=
  adds_leaf .simpleName p.text (.detached p.text.utf8ByteSize)

theorem adds_flatLeaves (ps : List Part) :
    Adds (flatLeaves (ps.map (·.text))) none (ps.map Part.textLeaf) := by
  induction ps with
  | nil => exact adds_pure
  | cons p ps ih => exact (adds_flatLeaf p).append ih

theorem adds_flatGroup (entity : Entity) (ps : List Part) :
    Adds (flatGroup entity (ps.map (·.text))) none (Part.texts entity ps) := by
  intro b hb
  cases ps with
  | nil => rfl
  | cons p ps =>
    have h := (adds_flatLeaves (p :: ps)).node (.inserted entity "" ⟨-1, 0⟩) hb.ready
    exact h.trans (plantAll_singleton _ b).symm

theorem adds_aroundRole {s : Step} {e : Option Error} (entity : Entity) (role : Role)
    (cs : List Branch) (ps : List Part) (h : Adds s e (ps.map Part.tree))
    (hps : cs.any (·.value.role = role) = !ps.isEmpty) (he : ps = [] → e = none) :
    Adds (aroundRole entity role cs s) e (Part.wrapped entity ps) := by
  intro b hb
  rw [aroundRole, hps]
  cases ps with
  | nil =>
    rw [he rfl]
    rfl
  | cons p ps => exact adds_around entity h b hb

end CanonTree.Conversion
