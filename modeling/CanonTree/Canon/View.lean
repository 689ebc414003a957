import CanonTree.Canon.Tree
import CanonTree.Json.Value

namespace CanonTree.Canon

open Json (Value)

def Node.members (positions : Bool) (n : Node) : List (String × Value) :=
  [("type", .string n.entity.name), ("legacy_code", .number n.entity.code),
    ("label", .string n.label)] ++
  if positions then [("pos", .number n.span.start.toInt), ("length", .number n.span.length.toInt)]
  else []

mutual
def view (positions : Bool) : Rose Node → Value
  | .node n cs => .object (n.members positions ++ [("children", .array (views positions cs))])

def views (positions : Bool) : List (Rose Node) → List Value
  | [] => []
  | c :: cs => view positions c :: views positions cs
end

def Tree.json (t : Tree) (positions : Bool) : Value := view positions t.rose

end CanonTree.Canon
