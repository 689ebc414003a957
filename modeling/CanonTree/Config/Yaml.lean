import CanonTree.Config.Basic
import CanonTree.Yaml.Node

namespace CanonTree.Config

open Yaml (Node)

def isNullWord (text : String) : Bool :=
  text.isEmpty || ["null", "Null", "NULL", "~"].contains text

/-- A format by its name, or by a tag of that name in front of nothing. -/
def yamlFormat? : Node → Option Format
  | .scalar text style (some tag) =>
    match tag.toList with
    | '!' :: name =>
      if style = .plain && isNullWord text then Format.ofName? (String.ofList name) else none
    | _ => Format.ofName? text
  | .scalar text _ none => Format.ofName? text
  | _ => none

/-- Whether a scalar is read for its value: it stands without quotes, or in a block with a tag that
says so. -/
def isValue (tag : String) (style : Yaml.Style) (given : Option String) : Bool :=
  style = .plain || (style = .literal && given = some ("tag:yaml.org,2002:" ++ tag))

def yamlBool? : Node → Option Bool
  | .scalar text style tag =>
    if !isValue "bool" style tag then none
    else if ["true", "True", "TRUE"].contains text then some true
    else if ["false", "False", "FALSE"].contains text then some false
    else none
  | _ => none

def digitIn? (base : Nat) (c : Char) : Option Nat :=
  ((Yaml.hexValue? c).filter (· < base))

def numberIn? (base : Nat) (cs : List Char) : Option Nat :=
  if cs.isEmpty then none else cs.foldlM (fun n c => (digitIn? base c).map fun d => n * base + d) 0

/-- A whole number in decimal without leading zeros, or in another base that a prefix names. -/
def count? (text : String) : Option Nat :=
  let cs := match text.toList with
    | '+' :: cs => cs
    | cs => cs
  let n := match cs with
    | '0' :: 'x' :: ds => numberIn? 16 ds
    | '0' :: 'o' :: ds => numberIn? 8 ds
    | '0' :: 'b' :: ds => numberIn? 2 ds
    | ['0'] => some 0
    | '0' :: _ => none
    | ds => numberIn? 10 ds
  n.filter (· < UInt64.size)

def yamlCount? : Node → Option Nat
  | .scalar text style tag => if isValue "int" style tag then count? text else none
  | _ => none

def yamlFields? : Node → Option (List (String × Node))
  | .mapping ms => ms.mapM fun
    | (.scalar key _ _, v) => some (key, v)
    | _ => none
  | .scalar text .plain _ => if text.isEmpty then some [] else none
  | _ => none

def yamlField? {α : Type} (fields : List (String × Node)) (name : String) (default : α)
    (read? : Node → Option α) : Option α :=
  match fields.filter (·.1 = name) with
  | [] => some default
  | [(_, v)] => read? v
  | _ => none

def yamlOutput? (n : Node) : Option OutputConfig := do
  let fields ← yamlFields? n
  return ⟨← yamlField? fields "format" .json yamlFormat?,
    ← yamlField? fields "pretty" true yamlBool?,
    ← yamlField? fields "include_positions" true yamlBool?⟩

def yamlThreads? (n : Node) : Option Nat := do
  yamlField? (← yamlFields? n) "threads" 0 yamlCount?

/-- Unknown keys are passed over, a known one must not come twice, and an empty value leaves a
section at its defaults. -/
def ofYaml? (text : String) : Option Config := do
  match ← Yaml.read? text with
  | none => return {}
  | some n =>
    let fields ← yamlFields? n
    return ⟨← yamlField? fields "output" {} yamlOutput?,
      ← yamlField? fields "parallel" 0 yamlThreads?⟩

end CanonTree.Config
