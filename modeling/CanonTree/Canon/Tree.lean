import CanonTree.Arena
import CanonTree.Syntax.Node

namespace CanonTree.Canon

structure Node where
  entity : Entity
  label : String
  span : Span
  /-- Put in by the conversion: no parsed node stands behind it. -/
  synthetic : Bool
deriving DecidableEq, Inhabited

def Node.ofSyntax (n : Syntax.Node) (label : String) : Node := ⟨n.kind.entity, label, n.span, false⟩

def Node.inserted (entity : Entity) (label : String) (span : Span) : Node :=
  ⟨entity, label, span, true⟩

structure Tree where
  arena : Arena Node
  root : Nat
  root_lt : root < arena.size

namespace Tree

def size (t : Tree) : Nat := t.arena.size

def nodes (t : Tree) : List Node := t.arena.entries.toList.map (·.value)

def syntheticCount (t : Tree) : Nat := t.nodes.countP (·.synthetic)

def numbered (t : Tree) : Rose (Nat × Node) := t.arena.subtree Prod.mk t.root t.root_lt

def rose (t : Tree) : Rose Node := t.arena.subtree (fun _ n => n) t.root t.root_lt

def preorder (t : Tree) : List Nat := (t.arena.subtree (fun i _ => i) t.root t.root_lt).preorder

end Tree

end CanonTree.Canon
