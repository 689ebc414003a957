import CanonTree.Canon.Tree
import CanonTree.Error

namespace CanonTree.Canon

/-- A node that still takes children; `site` tells who opened it. -/
structure OpenNode where
  id : Nat
  site : String
deriving DecidableEq

structure Builder where
  arena : Arena Node := {}
  /-- The open nodes, the innermost first. -/
  stack : List OpenNode := []
  root : Option Nat := none
  stack_lt : ∀ o ∈ stack, o.id < arena.size := by simp
  root_lt : ∀ i ∈ root, i < arena.size := by simp

namespace Builder

def empty : Builder := {}

def size (b : Builder) : Nat := b.arena.size

def depth (b : Builder) : Nat := b.stack.length

def current? (b : Builder) : Option Nat := b.stack.head?.map (·.id)

theorem current?_lt (b : Builder) : ∀ i ∈ b.current?, i < b.arena.size := by
  intro i h
  obtain ⟨o, ho, rfl⟩ := Option.map_eq_some_iff.1 h
  exact b.stack_lt o (List.mem_of_mem_head? ho)

/-- Opens a node below the current one, or as the root if there is none yet, and answers its number.
An id has 32 bits; that none wraps around below 2 ^ 32 nodes is shown of all runs of calls. -/
def push (b : Builder) (n : Node) (site : String) : Except Error (Nat × Builder) :=
  if b.current?.isNone && b.root.isSome then .error (.secondRoot n.entity site)
  else .ok (b.size, {
    arena := b.arena.add b.current? b.current?_lt n
    stack := ⟨b.size, site⟩ :: b.stack
    root := b.root.or (some b.size)
    stack_lt := fun o h => by
      rw [Arena.size_add]
      rcases List.mem_cons.1 h with rfl | h
      · simp [size]
      · have := b.stack_lt o h
        omega
    root_lt := fun i h => by
      rw [Arena.size_add]
      cases hr : b.root with
      | some r =>
        have := b.root_lt r hr
        simp [hr] at h
        omega
      | none =>
        simp [hr, size] at h
        omega })

def pop (b : Builder) : Except Error (Nat × Builder) :=
  match h : b.stack with
  | [] => .error .stackUnderflow
  | o :: rest => .ok (o.id, { b with
      stack := rest
      stack_lt := fun p hp => b.stack_lt p (by rw [h]; exact List.mem_cons_of_mem _ hp) })

def build (b : Builder) : Except Error Tree :=
  match h : b.stack with
  | o :: _ =>
    have ho : o.id < b.arena.size := b.stack_lt o (by rw [h]; exact List.mem_cons_self)
    .error (.unbalanced b.depth b.arena[o.id].value.entity o.site)
  | [] => match hr : b.root with
    | none => .error .emptyTree
    | some r => .ok ⟨b.arena, r, b.root_lt r hr⟩

end Builder
end CanonTree.Canon
