import CanonTree.Yaml.Token

namespace CanonTree.Yaml

/-- Where a key may have begun. A key is recognised only at the colon behind it, so such a place is
remembered until the colon comes or can no longer come. -/
structure Candidate where
  position : Nat
  line : Nat
  column : Nat
  index : Nat
  /-- The block structure allows nothing but a key here. -/
  required : Bool

structure Scan where
  rest : List Char
  line : Nat := 0
  column : Nat := 0
  index : Nat := 0
  tokens : Array Token := #[]
  indents : List Nat := []
  /-- The candidates of the flow collections that are open and of the block around them. -/
  candidates : List (Option Candidate) := [none]
  allowed : Bool := true

namespace Scan

def inFlow (s : Scan) : Bool := 1 < s.candidates.length

def minColumn (s : Scan) : Nat :=
  match s.indents with
  | [] => 0
  | i :: _ => i + 1

def advance (s : Scan) : Scan :=
  match s.rest with
  | [] => s
  | '\r' :: '\n' :: rest =>
    { s with rest, line := s.line + 1, column := 0, index := s.index + 2 }
  | c :: rest =>
    if isBreak c then { s with rest, line := s.line + 1, column := 0, index := s.index + 1 }
    else { s with rest, column := s.column + 1, index := s.index + 1 }

def skip (s : Scan) : Nat → Scan
  | 0 => s
  | n + 1 => s.advance.skip n

def breakText : List Char → List Char
  | '\u2028' :: _ => ['\u2028']
  | '\u2029' :: _ => ['\u2029']
  | _ => ['\n']

def emit (s : Scan) (t : Token) : Scan := { s with tokens := s.tokens.push t }

/-- Closes the block collections that lie further to the right than a column. -/
def unroll (s : Scan) (column : Option Nat) : Scan :=
  if s.inFlow then s
  else
    let closed := match column with
      | some c => s.indents.takeWhile (c < ·)
      | none => s.indents
    { s with
      indents := s.indents.drop closed.length
      tokens := s.tokens ++ (closed.map fun _ => Token.blockEnd).toArray }

def roll (s : Scan) (column position : Nat) (t : Token) : Scan :=
  if s.inFlow || column < s.minColumn then s
  else { s with
    indents := column :: s.indents
    tokens := s.tokens.extract 0 position ++ #[t] ++ s.tokens.extract position s.tokens.size }

def candidate? (s : Scan) : Option Candidate := s.candidates.head?.join

def setCandidate (s : Scan) (c : Option Candidate) : Scan :=
  { s with candidates := c :: s.candidates.tail }

/-- Gives up a candidate, which must not be a required one. -/
def dropCandidate? (s : Scan) : Option Scan :=
  if s.candidate?.any (·.required) then none else some (s.setCandidate none)

def saveCandidate? (s : Scan) : Option Scan :=
  if s.allowed then do
    let s ← s.dropCandidate?
    return s.setCandidate (some {
      position := s.tokens.size, line := s.line, column := s.column, index := s.index
      required := !s.inFlow && s.indents.head? = some s.column })
  else some s

/-- Keys stay on one line and are not longer than this. -/
def maxKeyLength : Nat := 1024

def isStale (s : Scan) (c : Candidate) : Bool :=
  c.line < s.line || c.index + maxKeyLength < s.index

def dropStale? (s : Scan) : Option Scan :=
  if s.candidates.any (fun c => c.any fun c => s.isStale c && c.required) then none
  else some { s with candidates := s.candidates.map fun c => c.filter fun c => !s.isStale c }

def toToken : Nat → Scan → Scan
  | 0, s => s
  | n + 1, s =>
    match s.rest with
    | [] => s
    | c :: _ =>
      if c = ' ' || (c = '\t' && (s.inFlow || !s.allowed)) then toToken n s.advance
      else if c = '\uFEFF' && s.column = 0 then toToken n s.advance
      else if c = '#' then
        let s := s.skip (s.rest.takeWhile (!isBreak ·)).length
        toToken n s
      else if isBreak c then
        let s := s.advance
        toToken n (if s.inFlow then s else { s with allowed := true })
      else s

def atDocumentMark (s : Scan) : Bool :=
  s.column = 0 &&
    match s.rest with
    | a :: b :: c :: rest =>
      ((a = '-' && b = '-' && c = '-') || (a = '.' && b = '.' && c = '.')) && endsWord rest
    | _ => false

end Scan
end CanonTree.Yaml
