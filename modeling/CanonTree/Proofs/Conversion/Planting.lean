import CanonTree.Conversion
import CanonTree.Proofs.Canon.Calls

namespace CanonTree

namespace Canon.Builder

/-- A node can be pushed: either one is open or there is no root yet. -/
def Ready (b : Builder) : Prop := b.stack = [] ↔ b.root = none

/-- A node is open and will stay so, whatever is pushed and popped above it. -/
structure Open (b : Builder) : Prop where
  stack : b.stack ≠ []
  root : b.root ≠ none

theorem Open.ready {b : Builder} (h : b.Open) : b.Ready :=
  ⟨fun hs => absurd hs h.stack, fun hr => absurd hr h.root⟩

theorem ready_empty : empty.Ready := Iff.intro (fun _ => rfl) fun _ => rfl

/-- The second builder is the first with a forest hung below its current node. -/
structure Hangs (cs : List (Rose Node)) (b b' : Builder) : Prop where
  stack : b'.stack = b.stack
  root : b'.root = if cs = [] then b.root else b.root.or (some b.size)
  rows : b'.arena.rows = Entry.graft b.current? b.arena.rows cs

theorem Hangs.nil (b : Builder) : Hangs [] b b := ⟨rfl, rfl, (Entry.graft_nil _ _).symm⟩

theorem Hangs.size {cs : List (Rose Node)} {b b' : Builder} (h : Hangs cs b b') :
    b'.size = b.size + Rose.sizes cs := by
  have hl := congrArg List.length h.rows
  simp only [Entry.length_graft, Arena.length_rows] at hl
  exact hl

theorem Hangs.open {cs : List (Rose Node)} {b b' : Builder} (h : Hangs cs b b') (hb : b.Open) :
    b'.Open := by
  refine ⟨by rw [h.stack]; exact hb.stack, ?_⟩
  rw [h.root]
  split
  · exact hb.root
  · simp

theorem Hangs.append {cs ds : List (Rose Node)} {b b' b'' : Builder} (h : Hangs cs b b')
    (h' : Hangs ds b' b'') : Hangs (cs ++ ds) b b'' where
  stack := h'.stack.trans h.stack
  root := by
    rw [h'.root, h.root]
    cases cs with
    | nil => simp [h.size, Rose.sizes]
    | cons c cs => simp
  rows := by
    have hc : b'.current? = b.current? := by simp only [current?, h.stack]
    rw [h'.rows, hc, h.rows, Entry.graft_append]
    simpa [Arena.length_rows] using b.current?_lt

end Canon.Builder

namespace Conversion

open Canon (Builder)

mutual
def plant : Rose Canon.Node → Step
  | .node n cs => fun b => push n b >>= plantAll cs >>= pop

def plantAll : List (Rose Canon.Node) → Step
  | [] => pure
  | c :: cs => fun b => plant c b >>= plantAll cs
end

theorem plant_node (n : Canon.Node) (cs : List (Rose Canon.Node)) (b : Builder) :
    plant (.node n cs) b = push n b >>= plantAll cs >>= pop := by
  rw [plant]

theorem plantAll_cons (c : Rose Canon.Node) (cs : List (Rose Canon.Node)) (b : Builder) :
    plantAll (c :: cs) b = plant c b >>= plantAll cs := by
  rw [plantAll]

theorem plantAll_append (cs ds : List (Rose Canon.Node)) (b : Builder) :
    plantAll (cs ++ ds) b = plantAll cs b >>= plantAll ds := by
  induction cs generalizing b with
  | nil => rfl
  | cons c cs ih =>
    simp only [List.cons_append, plantAll_cons, bind_assoc]
    congr 1
    funext b'
    exact ih b'

theorem plantAll_singleton (c : Rose Canon.Node) (b : Builder) : plantAll [c] b = plant c b :=
  bind_pure (plant c b)

theorem push_ok (n : Canon.Node) {b : Builder} (h : b.Ready) :
    ∃ b', push n b = .ok b' ∧ b'.stack = ⟨b.size, site⟩ :: b.stack ∧
      b'.root = b.root.or (some b.size) ∧
      b'.arena.rows = Entry.graft b.current? b.arena.rows [.node n []] := by
  cases hp : b.push n site with
  | error e =>
    obtain ⟨hs, hr, -⟩ := Builder.push_eq_error.1 hp
    exact absurd (h.1 hs) hr
  | ok r =>
    obtain ⟨-, -, hstack, hroot, hrows⟩ := Builder.push_eq_ok hp
    exact ⟨r.2, by rw [push, hp]; rfl, hstack, hroot, hrows⟩

theorem pop_ok {b : Builder} {o : Canon.OpenNode} {rest : List Canon.OpenNode}
    (h : b.stack = o :: rest) :
    ∃ b', pop b = .ok b' ∧ b'.stack = rest ∧ b'.root = b.root ∧ b'.arena = b.arena := by
  cases hp : b.pop with
  | error e =>
    obtain ⟨hs, -⟩ := Builder.pop_eq_error.1 hp
    rw [h] at hs
    cases hs
  | ok r =>
    obtain ⟨⟨o', hstack, -⟩, hroot, harena⟩ := Builder.pop_eq_ok hp
    cases h.symm.trans hstack
    exact ⟨r.2, by rw [pop, hp]; rfl, rfl, hroot, harena⟩

mutual
theorem plant_ok : ∀ (r : Rose Canon.Node) {b : Builder}, b.Ready →
    ∃ b', plant r b = .ok b' ∧ Builder.Hangs [r] b b'
  | .node n cs, b, h => by
    obtain ⟨b₁, hpush, hstack₁, hroot₁, hrows₁⟩ := push_ok n h
    have hopen : b₁.Open := ⟨by simp [hstack₁], by simp [hroot₁]⟩
    obtain ⟨b₂, hplant, hhangs⟩ := plantAll_ok cs hopen
    obtain ⟨b₃, hpop, hstack₃, hroot₃, harena₃⟩ := pop_ok (hhangs.stack.trans hstack₁)
    refine ⟨b₃, ?_, hstack₃, ?_, ?_⟩
    · rw [plant_node, hpush]
      change (plantAll cs b₁ >>= pop) = .ok b₃
      rw [hplant]
      exact hpop
    · rw [hroot₃, hhangs.root, hroot₁]
      split <;> simp
    · rw [harena₃, hhangs.rows, hrows₁, Builder.current?, hstack₁]
      have := Entry.graft_leaf b.current? b.arena.rows n cs
      simpa [Builder.size, Arena.length_rows] using this

theorem plantAll_ok : ∀ (cs : List (Rose Canon.Node)) {b : Builder}, b.Open →
    ∃ b', plantAll cs b = .ok b' ∧ Builder.Hangs cs b b'
  | [], b, _ => ⟨b, rfl, .nil b⟩
  | c :: cs, b, h => by
    obtain ⟨b₁, hc, hhangs⟩ := plant_ok c h.ready
    obtain ⟨b₂, hcs, hhangs'⟩ := plantAll_ok cs (hhangs.open h)
    refine ⟨b₂, ?_, hhangs.append hhangs'⟩
    rw [plantAll_cons, hc]
    exact hcs
end

end Conversion
end CanonTree
