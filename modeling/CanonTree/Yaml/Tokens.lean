import CanonTree.Yaml.Scalar
import CanonTree.Yaml.Tag

namespace CanonTree.Yaml

namespace Scan

def beginFlow? (s : Scan) (t : Token) : Option Scan := do
  let s ← s.saveCandidate?
  return { (s.emit t).advance with candidates := none :: s.candidates, allowed := true }

def endFlow? (s : Scan) (t : Token) : Option Scan := do
  let s ← s.dropCandidate?
  let candidates := if s.inFlow then s.candidates.tail else s.candidates
  return { (s.emit t).advance with candidates, allowed := false }

def flowEntry? (s : Scan) : Option Scan := do
  let s ← s.dropCandidate?
  return { (s.emit .flowEntry).advance with allowed := true }

def blockEntry? (s : Scan) : Option Scan := do
  if !s.inFlow && !s.allowed then none
  let s ← (s.roll s.column s.tokens.size .blockSequenceStart).dropCandidate?
  return { (s.emit .blockEntry).advance with allowed := true }

def key? (s : Scan) : Option Scan := do
  if !s.inFlow && !s.allowed then none
  let s ← (s.roll s.column s.tokens.size .blockMappingStart).dropCandidate?
  return { (s.emit .key).advance with allowed := !s.inFlow }

/-- Puts the key in front of what was remembered as its beginning. -/
def value? (s : Scan) : Option Scan :=
  match s.candidate? with
  | some c =>
    let tokens := s.tokens.extract 0 c.position ++ #[.key]
      ++ s.tokens.extract c.position s.tokens.size
    let s := ({ s with tokens }.roll c.column c.position .blockMappingStart).setCandidate none
    some { (s.emit .value).advance with allowed := false }
  | none =>
    if !s.inFlow && !s.allowed then none
    else
      let s := s.roll s.column s.tokens.size .blockMappingStart
      some { (s.emit .value).advance with allowed := !s.inFlow }

/-- A word that may be a key: `read?` reads it behind the mark it begins with. -/
def word? (s : Scan) (marks : Nat) (read? : Scan → Option (Token × Scan)) : Option Scan := do
  let s ← s.saveCandidate?
  let (t, s) ← read? { s.skip marks with allowed := false }
  return s.emit t

def blockScalar? (s : Scan) (folded : Bool) : Option Scan := do
  let s ← s.dropCandidate?
  let (text, s) ← block? folded { s.advance with allowed := true }
  return s.emit (.scalar text (if folded then .folded else .literal))

def plainScalar? (s : Scan) : Option Scan :=
  s.word? 0 fun s => do
    let (text, s) ← plain? (s.rest.length + 1) s {} []
    return (.scalar (String.ofList text.reverse) .plain, s)

def quotedScalar? (s : Scan) (double : Bool) : Option Scan :=
  s.word? 1 fun s => do
    let (text, s) ← quoted? double (s.rest.length + 1) s []
    let style : Style := if double then .doubleQuoted else .singleQuoted
    return (.scalar (String.ofList text.reverse) style, s)

def outside? (s : Scan) (read? : Scan → Option (Token × Scan)) : Option Scan := do
  let s ← (s.unroll none).dropCandidate?
  let (t, s) ← read? { s with allowed := false }
  return s.emit t

def isIndicator (c : Char) : Bool := "-?:,[]\x7b\x7d#&*!|>'\"%@\x60".toList.contains c

def beginsPlain (flow : Bool) : List Char → Bool
  | [] => false
  | c :: rest =>
    !isIndicator c || (c = '-' && !(rest.head?.any isBlank)) ||
      (!flow && (c = '?' || c = ':') && !endsWord rest)

def token? (s : Scan) : Option Scan :=
  match s.rest with
  | [] => some s
  | c :: rest =>
    if s.column = 0 && c = '%' then s.outside? fun s => s.advance.directive?
    else if s.atDocumentMark then
      s.outside? fun s => some (if c = '-' then .documentStart else .documentEnd, s.skip 3)
    else if c = '[' then s.beginFlow? .flowSequenceStart
    else if c = '\x7b' then s.beginFlow? .flowMappingStart
    else if c = ']' then s.endFlow? .flowSequenceEnd
    else if c = '\x7d' then s.endFlow? .flowMappingEnd
    else if c = ',' then s.flowEntry?
    else if c = '-' && endsWord rest then s.blockEntry?
    else if c = '?' && (s.inFlow || endsWord rest) then s.key?
    else if c = ':' && (s.inFlow || endsWord rest) then s.value?
    else if c = '*' then s.word? 1 fun s => s.name?.map fun (name, s) => (.alias name, s)
    else if c = '&' then s.word? 1 fun s => s.name?.map fun (name, s) => (.anchor name, s)
    else if c = '!' then s.word? 1 tag?
    else if c = '|' && !s.inFlow then s.blockScalar? false
    else if c = '>' && !s.inFlow then s.blockScalar? true
    else if c = '\'' then s.quotedScalar? false
    else if c = '"' then s.quotedScalar? true
    else if beginsPlain s.inFlow s.rest then s.plainScalar?
    else none

def run? : Nat → Scan → Option (List Token)
  | 0, _ => none
  | n + 1, s => do
    let s ← (toToken (s.rest.length + 1) s).dropStale?
    if s.rest.isEmpty then
      let s ← (s.unroll none).dropCandidate?
      return s.tokens.toList
    let s ← (s.unroll (some s.column)).token?
    run? n s

end Scan

def tokens? (text : String) : Option (List Token) :=
  let cs := text.toList
  if cs.all isPrintable then Scan.run? (2 * cs.length + 2) { rest := cs } else none

end CanonTree.Yaml
