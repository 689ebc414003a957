import CanonTree.Config.Basic
import CanonTree.Toml.Reader

namespace CanonTree.Config

open Toml (Item Members)

def tableMembers? : Item → Option Members
  | .inline ms | .table _ ms => some ms
  | _ => none

def sectionMembers? : Item → Option Members
  | .dateTime _ => some []
  | i => tableMembers? i

def listItems? : Item → Option (List Item)
  | .array items => some items
  | .tables reversed => some (reversed.reverse.map (.table .explicit))
  | _ => none

def isEmptyItem (i : Item) : Bool :=
  (tableMembers? i).any List.isEmpty || (listItems? i).any List.isEmpty

/-- A format by its name, or as a table with that name and nothing in it. Of a table with a header
the first member counts, one in braces must not have others. -/
def tomlFormat? : Item → Option Format
  | .string s => Format.ofName? s
  | .inline [(name, inner)] | .table _ ((name, inner) :: _) =>
    if isEmptyItem inner then Format.ofName? name else none
  | _ => none

def tomlBool? : Item → Option Bool
  | .boolean b => some b
  | _ => none

def tomlCount? : Item → Option Nat
  | .integer n => if 0 ≤ n then some n.toNat else none
  | _ => none

def fieldOr {α : Type} (default : α) (read? : Item → Option α) : Option Item → Option α
  | none => some default
  | some i => read? i

/-- The fields of a section by name or by position. A date in its place has none of them. -/
def section? (names : List String) (i : Item) : Option (List (Option Item)) :=
  match sectionMembers? i, listItems? i with
  | some ms, _ => some (names.map ms.get?)
  | none, some items => some (names.mapIdx fun k _ => items[k]?)
  | none, none => none

def tomlOutput? (i : Item) : Option OutputConfig := do
  match ← section? ["format", "pretty", "include_positions"] i with
  | [format, pretty, positions] =>
    return ⟨← fieldOr .json tomlFormat? format, ← fieldOr true tomlBool? pretty,
      ← fieldOr true tomlBool? positions⟩
  | _ => none

def tomlThreads? (i : Item) : Option Nat := do
  match ← section? ["threads"] i with
  | [threads] => fieldOr 0 tomlCount? threads
  | _ => none

def ofToml? (text : String) : Option Config := do
  let ms ← Toml.read? text
  return ⟨← fieldOr {} tomlOutput? (ms.get? "output"),
    ← fieldOr 0 tomlThreads? (ms.get? "parallel")⟩

end CanonTree.Config
