namespace CanonTree.Text

/-- The bytes `start` to `stop` as text, if both ends fall between characters. -/
def slice? (s : String) (start stop : Nat) : Option String :=
  match s.pos? ⟨start⟩, s.pos? ⟨stop⟩ with
  | some b, some e => if start ≤ stop then some (s.extract b e) else none
  | _, _ => none

/-- The least index, counted from `i`, at which `needle` is a beginning of what is left. -/
def indexOf? (needle : List UInt8) : List UInt8 → Nat → Option Nat
  | [], i => if needle.isPrefixOf [] then some i else none
  | b :: bs, i => if needle.isPrefixOf (b :: bs) then some i else indexOf? needle bs (i + 1)

/-- The first byte offset not before `start` at which `needle` occurs in `s`; none if `start` is
not a place between characters. -/
def find? (s needle : String) (start : Nat) : Option Nat :=
  match s.pos? ⟨start⟩ with
  | some _ => indexOf? needle.toUTF8.toList (s.toUTF8.toList.drop start) start
  | none => none

end CanonTree.Text
