import CanonTree.Text.Quoted

namespace CanonTree.Json

inductive Found where
  | null
  | boolean (b : Bool)
  | integer (n : Int)
  | decimal (text : String)
  | string (s : String)
  | sequence
  | map
deriving DecidableEq, Repr

namespace Found

def render : Found → String
  | null => "null"
  | boolean b => s!"boolean `{b}`"
  | integer n => s!"integer `{n}`"
  | decimal text => s!"floating point `{text}`"
  | string s => s!"string {Text.quoted s}"
  | sequence => "sequence"
  | map => "map"

end Found

inductive Mismatch where
  | missingField (field : String)
  | duplicateField (field : String)
  | unexpected (found : Found) (wanted : String)
  | outOfRange (n : Int) (wanted : String)
  | tooShort (length : Nat) (record : String) (fields : Nat)
  | unknownVariant (name : String) (known : List String)
deriving DecidableEq, Repr

namespace Mismatch

def ticked (s : String) : String := s!"`{s}`"

def alternatives : List String → String
  | [a, b] => s!"{ticked a} or {ticked b}"
  | names => "one of " ++ ", ".intercalate (names.map ticked)

def message : Mismatch → String
  | missingField f => s!"missing field `{f}`"
  | duplicateField f => s!"duplicate field `{f}`"
  | unexpected found wanted => s!"invalid type: {found.render}, expected {wanted}"
  | outOfRange n wanted => s!"invalid value: integer `{n}`, expected {wanted}"
  | tooShort n record fields =>
    s!"invalid length {n}, expected struct {record} with {fields} elements"
  | unknownVariant name known => s!"unknown variant `{name}`, expected {alternatives known}"

end Mismatch

inductive Problem where
  | ended
  | malformed
  | mismatch (m : Mismatch)
deriving DecidableEq, Repr

def Problem.message : Problem → String
  | ended => "the JSON text ends too early"
  | malformed => "the JSON text is malformed"
  | mismatch m => m.message

end CanonTree.Json
