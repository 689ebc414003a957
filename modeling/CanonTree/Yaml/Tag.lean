import CanonTree.Yaml.Scan

namespace CanonTree.Yaml.Scan

def mayFollowName (c : Char) : Bool :=
  isBlankOrBreak c || c = '?' || c = ':' || c = ',' || c = ']' || c = '\x7d' || c = '%' ||
    c = '@' || c = '\x60'

def name? (s : Scan) : Option (String × Scan) :=
  let name := s.rest.takeWhile isNameChar
  let s := s.skip name.length
  if name.isEmpty || !(s.rest.head?.all mayFollowName) then none
  else some (String.ofList name, s)

/-- The characters of tags. Commas and square brackets belong to them where no flow collection can
be meant. -/
def isTagChar (free : Bool) (c : Char) : Bool :=
  isNameChar c || ";/?:@&=+$.!~*'()%".toList.contains c || (free && (c = ',' || c = '[' || c = ']'))

/-- The bytes a tag is spelled with; any byte may be written as two hexadecimal digits behind a
percent sign. -/
def tagBytes? : List Char → Option (List UInt8)
  | '%' :: a :: b :: cs => do
    let byte := UInt8.ofNat ((← hexValue? a) * 16 + (← hexValue? b))
    return byte :: (← tagBytes? cs)
  | '%' :: _ => none
  | c :: cs => do return UInt8.ofNat c.toNat :: (← tagBytes? cs)
  | [] => some []

def tagText? (cs : List Char) : Option String := do
  String.fromUTF8? ⟨(← tagBytes? cs).toArray⟩

def tagWord? (free : Bool) (s : Scan) : Option (String × Scan) := do
  let word := s.rest.takeWhile (isTagChar free)
  if word.isEmpty then none else return (← tagText? word, s.skip word.length)

/-- Reads a tag behind its exclamation mark: in full between angle brackets, or with a handle, which
ends in another exclamation mark if it has a name. A lone exclamation mark is a tag too. -/
def tag? (s : Scan) : Option (Token × Scan) := do
  let (t, s) ← match s.rest with
    | '<' :: _ => do
      let (text, s) ← s.advance.tagWord? true
      if s.rest.head? = some '>' then some (Token.tag "" text, s.advance) else none
    | _ =>
      let handle := s.rest.takeWhile isNameChar
      if (s.rest.drop handle.length).head? = some '!' then do
        let (suffix, s) ← (s.skip (handle.length + 1)).tagWord? false
        some (.tag ("!" ++ String.ofList handle ++ "!") suffix, s)
      else do
        let word := s.rest.takeWhile (isTagChar false)
        let s := s.skip word.length
        if word.isEmpty then some (.tag "" "!", s) else some (.tag "!" (← tagText? word), s)
  if endsWord s.rest || (s.inFlow && s.rest.head? = some ',') then return (t, s) else none

def skipBlanks (s : Scan) : Scan := s.skip (s.rest.takeWhile isBlank).length

def versionNumber? (s : Scan) : Option (Nat × Scan) :=
  let digits := s.rest.takeWhile Char.isDigit
  if digits.isEmpty || 9 < digits.length then none
  else some (digits.foldl (fun n c => n * 10 + (c.toNat - 48)) 0, s.skip digits.length)

def version? (s : Scan) : Option (Token × Scan) := do
  let (major, s) ← s.skipBlanks.versionNumber?
  if s.rest.head? ≠ some '.' then none
  let (minor, s) ← s.advance.versionNumber?
  return (.version major minor, s)

def handleName? (s : Scan) : Option (String × Scan) :=
  match s.rest with
  | '!' :: cs =>
    let name := cs.takeWhile isNameChar
    let s := s.skip (name.length + 1)
    if s.rest.head? = some '!' then some ("!" ++ String.ofList name ++ "!", s.advance)
    else if name.isEmpty then some ("!", s)
    else none
  | _ => none

def handle? (s : Scan) : Option (Token × Scan) := do
  let (name, s) ← s.skipBlanks.handleName?
  if !(s.rest.head?.any isBlank) then none
  let (beginning, s) ← s.skipBlanks.tagWord? true
  if endsWord s.rest then return (.handle name beginning, s) else none

def endDirective? (s : Scan) : Option Scan :=
  let s := s.skipBlanks
  let s := if s.rest.head? = some '#' then s.skip (s.rest.takeWhile (!isBreak ·)).length else s
  if s.rest.head?.all isBreak then some s.advance else none

def directive? (s : Scan) : Option (Token × Scan) := do
  let name := s.rest.takeWhile isNameChar
  let s := s.skip name.length
  if !endsWord s.rest then none
  let (t, s) ← match String.ofList name with
    | "YAML" => s.version?
    | "TAG" => s.handle?
    | _ => none
  return (t, ← s.endDirective?)

end CanonTree.Yaml.Scan
