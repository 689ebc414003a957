import CanonTree.Conversion

namespace CanonTree.Conversion

open Syntax (Branch Item Kind Role)

/-- A child as its parent places it: the part it plays, its text and its own canonical tree. -/
structure Part where
  role : Role
  text : String
  tree : Rose Canon.Node

namespace Part

def inRole (r : Role) (ps : List Part) : List Part := ps.filter (·.role = r)

def first (r : Role) (ps : List Part) : List Part := (ps.find? (·.role = r)).toList

def textLeaf (p : Part) : Rose Canon.Node :=
  .node (.inserted .simpleName p.text (.detached p.text.utf8ByteSize)) []

def nameLeaf (p : Part) : Rose Canon.Node := .node (.inserted .simpleName p.text .unknown) []

def texts (e : Entity) : List Part → List (Rose Canon.Node)
  | [] => []
  | ps => [.node (.inserted e "" ⟨-1, 0⟩) (ps.map textLeaf)]

def wrapped (e : Entity) : List Part → List (Rose Canon.Node)
  | [] => []
  | ps => [.node (.inserted e "" .unknown) (ps.map tree)]

def staticLeaf (source : String) : Rose Canon.Node :=
  .node (.inserted .modifier "static" (staticSpan source)) []

/-- The children of a canonical node, from the parts of the node it stands for. -/
def arrange (source : String) (v : Item) (ps : List Part) : List (Rose Canon.Node) :=
  match v.kind with
  | .ifStatement =>
    (first .expression ps).map tree ++ (first .thenStatement ps).map tree ++
      wrapped .elseStatement (first .elseStatement ps)
  | .methodInvocation =>
    (first .expression ps).map textLeaf ++ texts .typeArguments (inRole .typeArguments ps) ++
      (first .name ps).map textLeaf ++ texts .arguments (inRole .arguments ps)
  | .superMethodInvocation =>
    texts .typeArguments (inRole .typeArguments ps) ++ (first .name ps).map textLeaf ++
      texts .arguments (inRole .arguments ps)
  | .typeDeclaration =>
    (inRole .modifiers ps).map tree ++ (first .name ps).map nameLeaf ++
      wrapped .superClassType (first .superclassType ps) ++
      wrapped .superInterfaceTypes (inRole .superInterfaceTypes ps) ++
      (inRole .bodyDeclarations ps).map tree
  | .forStatement =>
    wrapped .initializers (inRole .initializers ps) ++
      wrapped .conditionalForExpression (first .expression ps) ++
      wrapped .updaters (inRole .updaters ps) ++ (first .body ps).map tree
  | .importDeclaration =>
    (if v.attrs.isStatic then [staticLeaf source] else []) ++ ps.map tree
  | .qualifiedName => []
  | _ => ps.map tree

end Part

mutual
/-- The canonical tree that stands for a node and what is below it. -/
def image (source : String) : Branch → Rose Canon.Node
  | .node v cs => .node (.ofSyntax v.toNode (Syntax.label source (.node v cs)))
      (Part.arrange source v (parts source cs))

def parts (source : String) : List Branch → List Part
  | [] => []
  | c :: cs => ⟨c.value.role, Syntax.text source c, image source c⟩ :: parts source cs
end

def part (source : String) (c : Branch) : Part :=
  ⟨c.value.role, Syntax.text source c, image source c⟩

theorem parts_eq (source : String) (cs : List Branch) : parts source cs = cs.map (part source) := by
  induction cs with
  | nil => rfl
  | cons c cs ih => simp [parts, part, ih]

theorem map_tree_parts (source : String) (cs : List Branch) :
    (cs.map (part source)).map Part.tree = cs.map (image source) := by
  rw [List.map_map]
  rfl

theorem inRole_parts (source : String) (r : Role) (cs : List Branch) :
    Part.inRole r (parts source cs) = (Syntax.inRole r cs).map (part source) := by
  rw [parts_eq, Part.inRole, List.filter_map]
  rfl

theorem first_parts (source : String) (r : Role) (cs : List Branch) :
    Part.first r (parts source cs) = (Syntax.first? r cs).toList.map (part source) := by
  rw [parts_eq, Part.first, List.find?_map, Option.toList_map]
  rfl

theorem first_parts_of_some {source : String} {r : Role} (cs : List Branch) {c : Branch}
    (h : Syntax.first? r cs = some c) : Part.first r (parts source cs) = [part source c] := by
  rw [first_parts, h]
  rfl

end CanonTree.Conversion
