import CanonTree.Json.Value
import CanonTree.Syntax.Document

namespace CanonTree.Syntax

open Json (Value)

def flag (name : String) (b : Bool) : List (String × Value) :=
  if b then [(name, .bool true)] else []

def Attrs.members (a : Attrs) : List (String × Value) :=
  (match a.token with
    | some t => [("token", .string t)]
    | none => []) ++
  flag "is_static" a.isStatic ++ flag "is_on_demand" a.isOnDemand ++
  flag "is_interface" a.isInterface ++ flag "is_default" a.isDefault

def DocNode.members (d : DocNode) : List (String × Value) :=
  [("kind", .string d.kind), ("start", .number d.span.start.toInt),
    ("length", .number d.span.length.toInt), ("role", .string d.role.spelling)] ++
  d.attrs.members

mutual
def nodeValue : Rose DocNode → Value
  | .node d cs => .object (d.members ++
      match cs with
      | [] => []
      | c :: cs => [("children", .array (nodeValue c :: nodeValues cs))])

def nodeValues : List (Rose DocNode) → List Value
  | [] => []
  | c :: cs => nodeValue c :: nodeValues cs
end

def Document.value (d : Document) : Value :=
  .object [("source", .string d.source), ("root", nodeValue d.root)]

def Document.write (d : Document) : String := d.value.compact

end CanonTree.Syntax
