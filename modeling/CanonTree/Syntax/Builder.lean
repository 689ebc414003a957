import CanonTree.Error
import CanonTree.Syntax.Tree
import CanonTree.Text.Slice

namespace CanonTree.Syntax

structure Builder where
  source : String
  arena : Arena Node := {}
  /-- The open nodes, the innermost first. -/
  stack : List Nat := []
  root : Option Nat := none
  extraRoots : Nat := 0
  stack_lt : ∀ i ∈ stack, i < arena.size := by simp
  root_lt : ∀ i ∈ root, i < arena.size := by simp

namespace Builder

def ofSource (source : String) : Builder := { source }

def size (b : Builder) : Nat := b.arena.size

theorem head_lt (b : Builder) : ∀ p ∈ b.stack.head?, p < b.arena.size := fun _ h =>
  b.stack_lt _ (List.mem_of_mem_head? h)

theorem stack_lt_succ (b : Builder) : ∀ i ∈ b.stack, i < b.size + 1 := fun i h =>
  Nat.lt_succ_of_lt (b.stack_lt i h)

theorem root_lt_succ (b : Builder) (new : Bool) :
    ∀ i ∈ b.root.orElse fun _ => if new then some b.size else none, i < b.size + 1 := by
  intro i h
  cases hr : b.root with
  | some r =>
    have := b.root_lt r hr
    simp [hr] at h
    simp only [size]
    omega
  | none =>
    simp [hr] at h
    omega

/-- Adds a node below the innermost open node and answers its number, which an id holds in 32
bits: the count of the nodes, as long as there are fewer than 2 ^ 32. -/
def leaf (b : Builder) (n : Node) : Nat × Builder :=
  (b.size, { b with
    arena := b.arena.add b.stack.head? b.head_lt n
    root := b.root.orElse fun _ => if b.stack.isEmpty then some b.size else none
    extraRoots := if b.stack.isEmpty && b.root.isSome then b.extraRoots + 1 else b.extraRoots
    stack_lt := (b.arena.size_add ..).symm ▸ b.stack_lt_succ
    root_lt := (b.arena.size_add ..).symm ▸ b.root_lt_succ b.stack.isEmpty })

theorem size_leaf (b : Builder) (n : Node) : (b.leaf n).2.arena.size = b.size + 1 := by
  simp [leaf, size]

def start (b : Builder) (n : Node) : Nat × Builder :=
  (b.size, { (b.leaf n).2 with
    stack := b.size :: b.stack
    stack_lt := fun i h => by
      rw [size_leaf]
      rcases List.mem_cons.1 h with rfl | h
      · omega
      · have := b.stack_lt i h
        simp only [size]
        omega })

def finish (b : Builder) : Builder :=
  { b with stack := b.stack.tail, stack_lt := fun i h => b.stack_lt i (List.mem_of_mem_tail h) }

def build (b : Builder) : Except Error Tree :=
  if b.stack.length ≠ 0 then .error (.leftOpen b.stack.length)
  else if b.extraRoots ≠ 0 then .error (.outsideRoot b.extraRoots)
  else match h : b.root with
    | none => .error .emptySource
    | some r => .ok ⟨b.source, b.arena, r, b.root_lt r h⟩

def spanOf (b : Builder) (needle : String) (start : Nat) : Span :=
  match Text.find? b.source needle start with
  | some p => ⟨Int32.ofNat p, Int32.ofNat needle.utf8ByteSize⟩
  | none => .unknown

end Builder
end CanonTree.Syntax
