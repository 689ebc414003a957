import CanonTree.Canon.Builder
import CanonTree.Syntax.Construct
import CanonTree.Syntax.Label

namespace CanonTree.Conversion

open Syntax (Branch Item Kind Role)

inductive Shape where
  | plain | choice | call | typeDeclaration | loop | importing | qualifiedName
deriving DecidableEq

def shape : Kind → Shape
  | .ifStatement => .choice
  | .methodInvocation | .superMethodInvocation => .call
  | .typeDeclaration => .typeDeclaration
  | .forStatement => .loop
  | .importDeclaration => .importing
  | .qualifiedName => .qualifiedName
  | _ => .plain

def site : String := "conversion"

abbrev Step := Canon.Builder → Except Error Canon.Builder

def push (n : Canon.Node) : Step := fun b => (b.push n site).map (·.2)

def pop : Step := fun b => b.pop.map (·.2)

def leaf (entity : Entity) (label : String) (span : Span) : Step := fun b =>
  push (.inserted entity label span) b >>= pop

/-- A leaf for a text that is not looked into: it stands nowhere, but its length is known. -/
def flatLeaf (text : String) : Step := leaf .simpleName text (.detached text.utf8ByteSize)

def flatLeaves : List String → Step
  | [] => pure
  | t :: ts => fun b => flatLeaf t b >>= flatLeaves ts

def flatGroup (entity : Entity) (texts : List String) : Step := fun b =>
  if texts.isEmpty then pure b
  else push (.inserted entity "" ⟨-1, 0⟩) b >>= flatLeaves texts >>= pop

def around (entity : Entity) (inner : Step) : Step := fun b =>
  push (.inserted entity "" .unknown) b >>= inner >>= pop

def aroundRole (entity : Entity) (role : Role) (cs : List Branch) (inner : Step) : Step := fun b =>
  if cs.any (·.value.role = role) then around entity inner b else pure b

def call (source : String) (n : Branch) : Step := fun b => do
  let parts ← Syntax.Call.of n
  let b ← match parts.receiver with
    | some r => flatLeaf (Syntax.text source r) b
    | none => pure b
  let b ← flatGroup .typeArguments (parts.typeArguments.map (Syntax.text source)) b
  let b ← flatLeaf (Syntax.text source parts.name) b
  flatGroup .arguments (parts.arguments.map (Syntax.text source)) b

def staticWord : String := "static"

/-- The first place in the source where the word stands, whichever import it belongs to. -/
def staticSpan (source : String) : Span :=
  match Text.find? source staticWord 0 with
  | some p => ⟨Int32.ofNat p, 6⟩
  | none => ⟨-1, 6⟩

def staticMark (source : String) (n : Branch) : Step := fun b => do
  let parts ← Syntax.Import.of n
  if parts.isStatic then leaf .modifier staticWord (staticSpan source) b else pure b

/-- A subtree must leave as many nodes open as there were before it. -/
def checkBrackets (v : Item) (before : Nat) : Step := fun b =>
  if before = b.depth then .ok b
  else .error (.bracketViolation v.kind v.span.start before b.depth)

mutual
/-- Adds the canonical tree of a subtree below the current node: pushes the node, converts its
children and pops it. A few constructs choose the children themselves and put synthetic nodes around
or between them. -/
def add (source : String) : Branch → Step
  | .node v cs => fun b => do
    let before := b.depth
    let opened ← push (.ofSyntax v.toNode (Syntax.label source (.node v cs))) b
    let filled ← match shape v.kind with
      | .plain => addAll source cs opened
      | .qualifiedName => pure opened
      | .call => call source (.node v cs) opened
      | .importing => do
        let b ← staticMark source (.node v cs) opened
        addAll source cs b
      | .choice => do
        let _ ← Syntax.Choice.of (.node v cs)
        let b ← addFirst source .expression cs opened
        let b ← addFirst source .thenStatement cs b
        aroundRole .elseStatement .elseStatement cs (addFirst source .elseStatement cs) b
      | .typeDeclaration => do
        let parts ← Syntax.TypeDeclaration.of (.node v cs)
        let b ← addModifiers source cs opened
        let b ← leaf .simpleName (Syntax.text source parts.name) .unknown b
        let b ← aroundRole .superClassType .superclassType cs
          (addFirst source .superclassType cs) b
        let b ← aroundRole .superInterfaceTypes .superInterfaceTypes cs
          (addRole source .superInterfaceTypes cs) b
        addRole source .bodyDeclarations cs b
      | .loop => do
        let _ ← Syntax.Loop.of (.node v cs)
        let b ← aroundRole .initializers .initializers cs
          (addRole source .initializers cs) opened
        let b ← aroundRole .conditionalForExpression .expression cs
          (addFirst source .expression cs) b
        let b ← aroundRole .updaters .updaters cs (addRole source .updaters cs) b
        addFirst source .body cs b
    let closed ← pop filled
    checkBrackets v before closed

def addAll (source : String) : List Branch → Step
  | [] => pure
  | c :: cs => fun b => add source c b >>= addAll source cs

def addRole (source : String) (role : Role) : List Branch → Step
  | [] => pure
  | c :: cs => fun b =>
    if c.value.role = role then add source c b >>= addRole source role cs
    else addRole source role cs b

def addFirst (source : String) (role : Role) : List Branch → Step
  | [] => pure
  | c :: cs => fun b => if c.value.role = role then add source c b else addFirst source role cs b

/-- Adds the children that stand as modifiers, which must be modifiers or annotations. -/
def addModifiers (source : String) : List Branch → Step
  | [] => pure
  | c :: cs => fun b =>
    if c.value.role = .modifiers then
      if c.value.kind = .modifier || c.value.kind.isAnnotating then
        add source c b >>= addModifiers source cs
      else .error (.unexpectedModifier c.value.kind c.value.span.start)
    else addModifiers source cs b
end

def convert (t : Syntax.Tree) : Except Error Canon.Tree := do
  let b ← add t.source t.trunk .empty
  b.build

end CanonTree.Conversion
