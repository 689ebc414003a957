import CanonTree.Syntax.Builder

namespace CanonTree.Syntax

structure DocNode where
  kind : String
  span : Span := .unknown
  role : Role := .other
  attrs : Attrs := {}
deriving DecidableEq, Inhabited

namespace DocNode

def toNode (d : DocNode) : Except Error Node :=
  match Kind.ofName? d.kind with
  | some kind => .ok { kind, role := d.role, span := d.span, attrs := d.attrs }
  | none => .error (.unknownKind d.kind)

def ofItem (i : Item) : DocNode :=
  { kind := i.kind.name, span := i.span, role := i.role, attrs := i.attrs }

end DocNode

structure Document where
  source : String
  root : Rose DocNode

namespace Document

mutual
/-- Adds the nodes in source order. The first unknown kind ends it. -/
def plant : Rose DocNode → Builder → Except Error Builder
  | .node d cs, b => do
    let n ← d.toNode
    let b ← plantAll cs (b.start n).2
    return b.finish

def plantAll : List (Rose DocNode) → Builder → Except Error Builder
  | [], b => .ok b
  | c :: cs, b => do
    let b ← plant c b
    plantAll cs b
end

def toTree (d : Document) : Except Error Tree := do
  let b ← plant d.root (Builder.ofSource d.source)
  b.build

def ofTree (t : Tree) : Document := ⟨t.source, t.trunk.map DocNode.ofItem⟩

end Document
end CanonTree.Syntax
