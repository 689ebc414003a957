import CanonTree.Json.Reader
import CanonTree.Syntax.Document

namespace CanonTree.Syntax

open Json (Found Lexeme Mismatch Problem Raw Reader Field Record)

structure AttrField (P : Type) where
  name : String
  isSet : P → Bool
  take : P → Found → Except Problem P

structure AttrFields where
  token : Option (Option String) := none
  isStatic : Option Bool := none
  isOnDemand : Option Bool := none
  isInterface : Option Bool := none
  isDefault : Option Bool := none

def AttrFields.attrs (a : AttrFields) : Attrs where
  token := a.token.join
  isStatic := a.isStatic.getD false
  isOnDemand := a.isOnDemand.getD false
  isInterface := a.isInterface.getD false
  isDefault := a.isDefault.getD false

def attrFields : List (AttrField AttrFields) := [
  { name := "token", isSet := (·.token.isSome)
    take := fun a f => return { a with token := some (← Reader.Take.stringOrNull f) } },
  { name := "is_static", isSet := (·.isStatic.isSome)
    take := fun a f => return { a with isStatic := some (← Reader.Take.bool f) } },
  { name := "is_on_demand", isSet := (·.isOnDemand.isSome)
    take := fun a f => return { a with isOnDemand := some (← Reader.Take.bool f) } },
  { name := "is_interface", isSet := (·.isInterface.isSome)
    take := fun a f => return { a with isInterface := some (← Reader.Take.bool f) } },
  { name := "is_default", isSet := (·.isDefault.isSome)
    take := fun a f => return { a with isDefault := some (← Reader.Take.bool f) } }]

def takeAttrs : List (String × Found) → AttrFields → Except Problem AttrFields
  | [], a => .ok a
  | (key, f) :: rest, a =>
    match attrFields.find? (·.name = key) with
    | none => takeAttrs rest a
    | some field => do
      if field.isSet a then throw (.mismatch (.duplicateField key))
      let a ← field.take a f
      takeAttrs rest a

def attrsRecord : Record AttrFields Attrs where
  name := "NativeAttrs"
  fields := attrFields.map fun f =>
    { name := f.name, isSet := f.isSet, read := fun a => Reader.ofFound (f.take a) }
  start := {}
  finish a := .ok a.attrs

def Role.read : Reader Role := Reader.variant (Role.all.map (·.spelling)) Role.ofSpelling?

/-- The members of a node met so far; `others` holds those without a field of their own, the last
one first. -/
structure NodeFields where
  kind : Option String := none
  start : Option Int32 := none
  length : Option Int32 := none
  role : Option Role := none
  children : Option (List (Rose DocNode)) := none
  others : List (String × Found) := []

/-- A node needs a kind; its attributes are judged last. -/
def NodeFields.finish (f : NodeFields) : Except Problem (Rose DocNode) := do
  let kind ← Json.present "kind" f.kind
  let a ← takeAttrs f.others.reverse {}
  return .node {
    kind
    span := ⟨f.start.getD (-1), f.length.getD (-1)⟩
    role := f.role.getD .other
    attrs := a.attrs } (f.children.getD [])

def once (key : String) (isSet : Bool) : Except Problem Unit :=
  if isSet then .error (.mismatch (.duplicateField key)) else .ok ()

mutual
def readNode : Nat → Raw → Except Problem (Rose DocNode)
  | room, .object ms e => do
    if room = 0 then throw .malformed
    let f ← readFields (room - 1) ms {}
    Json.orProblem e.problem?
    f.finish
  | _, r => do
    let f ← r.found
    Json.unexpected f "struct NativeNodeJson"

def readFields : Nat → List (Lexeme × Raw) → NodeFields → Except Problem NodeFields
  | _, [], f => .ok f
  | room, (k, v) :: ms, f => do
    let key ← k.text
    match key with
    | "kind" => do
      once key f.kind.isSome
      readFields room ms { f with kind := some (← v.found >>= Reader.Take.string) }
    | "start" => do
      once key f.start.isSome
      readFields room ms { f with start := some (← v.found >>= Reader.Take.int32) }
    | "length" => do
      once key f.length.isSome
      readFields room ms { f with length := some (← v.found >>= Reader.Take.int32) }
    | "role" => do
      once key f.role.isSome
      readFields room ms { f with role := some (← Role.read room v) }
    | "children" => do
      once key f.children.isSome
      readFields room ms { f with children := some (← readChildren room v) }
    | _ => do
      let found ← v.checked room
      readFields room ms { f with others := (key, found) :: f.others }

def readChildren : Nat → Raw → Except Problem (List (Rose DocNode))
  | room, .array vs e => do
    if room = 0 then throw .malformed
    let cs ← readNodes (room - 1) vs
    Json.orProblem e.problem?
    return cs
  | _, r => do
    let f ← r.found
    Json.unexpected f "a sequence"

def readNodes : Nat → List Raw → Except Problem (List (Rose DocNode))
  | _, [] => .ok []
  | room, v :: vs => do
    let c ← readNode room v
    return c :: (← readNodes room vs)
end

structure DocumentFields where
  source : Option String := none
  root : Option (Rose DocNode) := none

def documentRecord : Record DocumentFields Document where
  name := "NativeDocument"
  fields := [
    { name := "source", isSet := (·.source.isSome)
      read := fun p _ v => return { p with source := some (← v.found >>= Reader.Take.string) } },
    { name := "root", required := true, isSet := (·.root.isSome)
      read := fun p room v => return { p with root := some (← readNode room v) } }]
  start := {}
  finish p := return ⟨p.source.getD "", ← Json.present "root" p.root⟩

def Document.read (text : String) : Except Problem Document := documentRecord.read.run text

def Tree.ofJson (text : String) : Except Error Tree := do
  let d ← (Document.read text).mapError .json
  d.toTree

end CanonTree.Syntax
