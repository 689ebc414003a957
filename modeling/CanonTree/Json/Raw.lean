import CanonTree.Json.Problem

namespace CanonTree.Json

/-- A character of a string, or the number given by an escape with four hexadecimal digits. -/
inductive Piece where
  | char (c : Char)
  | unit (n : Nat)
deriving DecidableEq, Repr

/-- A string as it is spelled; `stop` tells what ended it if it was not a closing quote. -/
structure Lexeme where
  pieces : List Piece
  stop : Option Problem
deriving DecidableEq, Repr

structure Numeral where
  negative : Bool
  whole : List Nat
  fraction : List Nat := []
  exponent : Option (Bool × List Nat) := none
deriving DecidableEq, Repr

inductive Ending where
  | closed
  | cut
  /-- A comma that nothing follows which may. -/
  | comma (problem : Problem)
  | stray (rest : List Char)
deriving DecidableEq, Repr

def Ending.problem? : Ending → Option Problem
  | closed => none
  | cut => some .ended
  | comma p => some p
  | stray _ => some .malformed

/-- JSON text up to the first place where it stops being JSON. That place is kept, so that a reader
meets every problem in the order of the text: a wrong type before a fault behind it. -/
inductive Raw where
  | absent
  | junk
  | badWord (problem : Problem)
  /-- A number that lacks digits where some must stand; `cut` tells that the text ends there. -/
  | badNumber (cut : Bool)
  | null
  | bool (b : Bool)
  | number (n : Numeral)
  | string (l : Lexeme)
  | array (items : List Raw) (ending : Ending)
  | object (members : List (Lexeme × Raw)) (ending : Ending)

instance : Inhabited Raw := ⟨.absent⟩

def isSpace (c : Char) : Bool := c = ' ' || c = '\n' || c = '\t' || c = '\r'

def skipSpace (cs : List Char) : List Char := cs.dropWhile isSpace

def digit? (c : Char) : Option Nat :=
  if '0' ≤ c ∧ c ≤ '9' then some (c.toNat - 48) else none

def hexDigit? (c : Char) : Option Nat :=
  if '0' ≤ c ∧ c ≤ '9' then some (c.toNat - 48)
  else if 'a' ≤ c ∧ c ≤ 'f' then some (c.toNat - 87)
  else if 'A' ≤ c ∧ c ≤ 'F' then some (c.toNat - 55)
  else none

def hexUnit? (a b c d : Char) : Option Nat := do
  return ((← hexDigit? a) * 16 + (← hexDigit? b)) * 256 + (← hexDigit? c) * 16 + (← hexDigit? d)

def simpleEscape? : Char → Option Char
  | '"' => some '"'
  | '\\' => some '\\'
  | '/' => some '/'
  | 'b' => some '\x08'
  | 'f' => some '\x0c'
  | 'n' => some '\n'
  | 'r' => some '\r'
  | 't' => some '\t'
  | _ => none

/-- What is wrong with an escape whose four digits are not there. -/
def shortEscape (cs : List Char) : Problem :=
  if (String.ofList (cs.take 4)).utf8ByteSize < 4 then .ended else .malformed

def readString : List Char → List Piece → Lexeme × List Char
  | [], done => (⟨done.reverse, some .ended⟩, [])
  | '"' :: cs, done => (⟨done.reverse, none⟩, cs)
  | ['\\'], done => (⟨done.reverse, some .ended⟩, [])
  | '\\' :: 'u' :: a :: b :: c :: d :: cs, done =>
    match hexUnit? a b c d with
    | some n => readString cs (.unit n :: done)
    | none => (⟨done.reverse, some (shortEscape (a :: b :: c :: d :: cs))⟩, [])
  | '\\' :: 'u' :: cs, done => (⟨done.reverse, some (shortEscape cs)⟩, [])
  | '\\' :: c :: cs, done =>
    match simpleEscape? c with
    | some e => readString cs (.char e :: done)
    | none => (⟨done.reverse, some .malformed⟩, [])
  | c :: cs, done =>
    if c.toNat < 32 then (⟨done.reverse, some .malformed⟩, [])
    else readString cs (.char c :: done)

def readDigits : List Char → List Nat × List Char
  | [] => ([], [])
  | c :: cs =>
    match digit? c with
    | some d => let (ds, rest) := readDigits cs; (d :: ds, rest)
    | none => ([], c :: cs)

def readExponent (n : Numeral) : List Char → Raw × List Char
  | c :: cs =>
    if c = 'e' || c = 'E' then
      let (negative, cs) := match cs with
        | '+' :: cs => (false, cs)
        | '-' :: cs => (true, cs)
        | cs => (false, cs)
      match readDigits cs with
      | ([], rest) => (.badNumber rest.isEmpty, [])
      | (ds, rest) => (.number { n with exponent := some (negative, ds) }, rest)
    else (.number n, c :: cs)
  | [] => (.number n, [])

def readFraction (n : Numeral) : List Char → Raw × List Char
  | '.' :: cs =>
    match readDigits cs with
    | ([], rest) => (.badNumber rest.isEmpty, [])
    | (ds, rest) => readExponent { n with fraction := ds } rest
  | cs => readExponent n cs

def readNumber (negative : Bool) (cs : List Char) : Raw × List Char :=
  match readDigits cs with
  | ([], rest) => (.badNumber rest.isEmpty, [])
  | (0 :: _ :: _, _) => (.badNumber false, [])
  | (ds, rest) => readFraction { negative, whole := ds } rest

def readWord (value : Raw) : List Char → List Char → Raw × List Char
  | [], cs => (value, cs)
  | _ :: _, [] => (.badWord .ended, [])
  | w :: ws, c :: cs => if w = c then readWord value ws cs else (.badWord .malformed, [])

mutual
/-- Reads a value. The first argument bounds the steps; twice the length of the text and two more
are enough. -/
def readValue : Nat → List Char → Raw × List Char
  | 0, _ => (.absent, [])
  | n + 1, cs =>
    match skipSpace cs with
    | [] => (.absent, [])
    | 'n' :: cs => readWord .null ['u', 'l', 'l'] cs
    | 't' :: cs => readWord (.bool true) ['r', 'u', 'e'] cs
    | 'f' :: cs => readWord (.bool false) ['a', 'l', 's', 'e'] cs
    | '"' :: cs => let (l, rest) := readString cs []; (.string l, rest)
    | '-' :: cs => readNumber true cs
    | '[' :: cs =>
      match skipSpace cs with
      | [] => (.array [] .cut, [])
      | ']' :: rest => (.array [] .closed, rest)
      | cs => let (items, ending, rest) := readItems n cs; (.array items ending, rest)
    | '\x7b' :: cs =>
      match skipSpace cs with
      | [] => (.object [] .cut, [])
      | '\x7d' :: rest => (.object [] .closed, rest)
      | '"' :: cs => let (members, ending, rest) := readMembers n cs; (.object members ending, rest)
      | cs => (.object [] (.stray cs), [])
    | c :: cs => if (digit? c).isSome then readNumber false (c :: cs) else (.junk, [])

def readItems : Nat → List Char → List Raw × Ending × List Char
  | 0, _ => ([], .cut, [])
  | n + 1, cs =>
    let (v, rest) := readValue n cs
    match skipSpace rest with
    | [] => ([v], .cut, [])
    | ']' :: rest => ([v], .closed, rest)
    | ',' :: rest =>
      match skipSpace rest with
      | [] => ([v], .comma .ended, [])
      | ']' :: _ => ([v], .comma .malformed, [])
      | rest => let (vs, ending, rest) := readItems n rest; (v :: vs, ending, rest)
    | rest => ([v], .stray rest, [])

def readMembers : Nat → List Char → List (Lexeme × Raw) × Ending × List Char
  | 0, _ => ([], .cut, [])
  | n + 1, cs =>
    let (key, rest) := readString cs []
    match skipSpace rest with
    | [] => ([(key, .absent)], .cut, [])
    | ':' :: rest =>
      let (v, rest) := readValue n rest
      match skipSpace rest with
      | [] => ([(key, v)], .cut, [])
      | '\x7d' :: rest => ([(key, v)], .closed, rest)
      | ',' :: rest =>
        match skipSpace rest with
        | [] => ([(key, v)], .comma .ended, [])
        | '"' :: rest =>
          let (ms, ending, rest) := readMembers n rest
          ((key, v) :: ms, ending, rest)
        | _ => ([(key, v)], .comma .malformed, [])
      | rest => ([(key, v)], .stray rest, [])
    | _ => ([(key, .junk)], .cut, [])
end

def Raw.read (cs : List Char) : Raw × List Char := readValue (2 * cs.length + 2) cs

end CanonTree.Json
