import CanonTree.Canon.Tree

namespace CanonTree.Canon

def margin (depth : Nat) : String := String.ofList (List.replicate (4 * depth) ' ')

def Node.line (positions : Bool) (n : Node) : String :=
  n.entity.name ++ (if n.label.isEmpty then "" else ": " ++ n.label) ++
    (if positions then " " ++ n.span.render else "")

mutual
def dumpAt (positions : Bool) (depth : Nat) : Rose Node → List String
  | .node n cs => (margin depth ++ n.line positions ++ "\n") :: dumpForest positions (depth + 1) cs

def dumpForest (positions : Bool) (depth : Nat) : List (Rose Node) → List String
  | [] => []
  | c :: cs => dumpAt positions depth c ++ dumpForest positions depth cs
end

def Tree.dump (t : Tree) (positions : Bool) : String := String.join (dumpAt positions 0 t.rose)

end CanonTree.Canon
