import CanonTree.Arena
import CanonTree.Syntax.Node

namespace CanonTree.Syntax

structure Tree where
  source : String
  arena : Arena Node
  root : Nat
  root_lt : root < arena.size

structure Item extends Node where
  id : Nat
deriving DecidableEq, Inhabited

def Item.of (id : Nat) (n : Node) : Item := { n with id := id }

abbrev Branch := Rose Item

namespace Tree

def size (t : Tree) : Nat := t.arena.size

def branch (t : Tree) (i : Nat) (h : i < t.size) : Branch := t.arena.subtree Item.of i h

def branch? (t : Tree) (i : Nat) : Option Branch :=
  if h : i < t.size then some (t.branch i h) else none

def trunk (t : Tree) : Branch := t.branch t.root t.root_lt

end Tree

end CanonTree.Syntax
