import CanonTree.Entity.Basic
import CanonTree.Json.Problem
import CanonTree.Syntax.Node

namespace CanonTree

inductive Error where
  | stackUnderflow
  /-- The canonical tree was taken from its builder with nodes open; `site` tells who opened the
  innermost. -/
  | unbalanced (count : Nat) (innermost : Entity) (site : String)
  | secondRoot (entity : Entity) (site : String)
  | emptyTree
  /-- The conversion of a subtree did not leave as many nodes open as it found. -/
  | bracketViolation (kind : Syntax.Kind) (offset : Int32) (before after : Nat)
  | missingChild (kind : Syntax.Kind) (role : Syntax.Role) (offset : Int32)
  | unexpectedModifier (found : Syntax.Kind) (offset : Int32)
  | unknownKind (name : String)
  | leftOpen (count : Nat)
  | outsideRoot (count : Nat)
  | emptySource
  | json (problem : Json.Problem)
deriving DecidableEq

namespace Error

def message : Error → String
  | stackUnderflow => "builder stack underflow: pop without a matching push"
  | unbalanced n e site =>
    s!"unbalanced builder stack: {n} node(s) left open, innermost {e.name} pushed at {site}"
  | secondRoot e site => s!"second root: {e.name} pushed at {site} after the root was closed"
  | emptyTree => "conversion produced no root node"
  | bracketViolation k offset before after =>
    s!"bracket violation while converting {k.name} at offset {offset}: " ++
      s!"depth {before} on entry, {after} on exit"
  | missingChild k role offset => s!"malformed {k.name} at offset {offset}: missing {role.spelling}"
  | unexpectedModifier k offset =>
    s!"unexpected {k.name} in type declaration modifiers at offset {offset}"
  | unknownKind name => s!"unknown native node kind: {name}"
  | leftOpen n => s!"invalid native tree: {n} node(s) left open"
  | outsideRoot n => s!"invalid native tree: {n} node(s) outside the root"
  | emptySource => "invalid native tree: empty tree"
  | json p => p.message

/-- Whether the fault lies with the conversion, not with the tree that was to be converted. -/
def isInternal : Error → Bool
  | stackUnderflow | unbalanced .. | secondRoot .. | bracketViolation .. | emptyTree => true
  | _ => false

def offset? : Error → Option Int32
  | bracketViolation _ offset _ _ | missingChild _ _ offset | unexpectedModifier _ offset =>
    some offset
  | _ => none

end Error
end CanonTree
