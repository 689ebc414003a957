import CanonTree.Toml.Item

namespace CanonTree.Toml

def isBlank (c : Char) : Bool := c = ' ' || c = '\t'

def skipBlanks (cs : List Char) : List Char := cs.dropWhile isBlank

def newline? : List Char → Option (List Char)
  | '\n' :: cs => some cs
  | '\r' :: '\n' :: cs => some cs
  | _ => none

def isPlain (c : Char) : Bool := c = '\t' || (32 ≤ c.toNat && c.toNat ≠ 127)

def hexValue? (c : Char) : Option Nat :=
  if c.isDigit then some (c.toNat - 48)
  else if 'a' ≤ c ∧ c ≤ 'f' then some (c.toNat - 87)
  else if 'A' ≤ c ∧ c ≤ 'F' then some (c.toNat - 55)
  else none

def hexNumber? (cs : List Char) : Option Nat :=
  cs.foldlM (fun n c => (hexValue? c).map fun d => n * 16 + d) 0

def charOf? (n : Nat) : Option Char := if n.isValidChar then some (Char.ofNat n) else none

def escape? : List Char → Option (Char × List Char)
  | 'b' :: cs => some ('\x08', cs)
  | 't' :: cs => some ('\t', cs)
  | 'n' :: cs => some ('\n', cs)
  | 'f' :: cs => some ('\x0c', cs)
  | 'r' :: cs => some ('\r', cs)
  | '"' :: cs => some ('"', cs)
  | '\\' :: cs => some ('\\', cs)
  | 'u' :: cs => do
    let digits := cs.take 4
    let c ← if digits.length = 4 then (hexNumber? digits).bind charOf? else none
    return (c, cs.drop 4)
  | 'U' :: cs => do
    let digits := cs.take 8
    let c ← if digits.length = 8 then (hexNumber? digits).bind charOf? else none
    return (c, cs.drop 8)
  | _ => none

def basic? : Nat → List Char → List Char → Option (String × List Char)
  | 0, _, _ => none
  | _, [], _ => none
  | n + 1, c :: cs, done =>
    if c = '"' then some (String.ofList done.reverse, cs)
    else if c = '\\' then do
      let (e, cs) ← escape? cs
      basic? n cs (e :: done)
    else if isPlain c then basic? n cs (c :: done)
    else none

def literal? : List Char → List Char → Option (String × List Char)
  | [], _ => none
  | c :: cs, done =>
    if c = '\'' then some (String.ofList done.reverse, cs)
    else if isPlain c then literal? cs (c :: done)
    else none

def skipBlankLines : List Char → List Char
  | '\r' :: '\n' :: cs => skipBlankLines cs
  | c :: cs => if isBlank c || c = '\n' then skipBlankLines cs else c :: cs
  | [] => []

def skipFolded? (cs : List Char) : Option (List Char) :=
  (newline? (skipBlanks cs)).map skipBlankLines

/-- The end of a string in three quotes: up to two more quotes belong to the text. -/
def closing? (q : Char) : List Char → Option (List Char × List Char)
  | a :: b :: c :: cs =>
    if a = q && b = q && c = q then
      match cs with
      | d :: e :: rest =>
        if d = q && e = q then some ([q, q], rest) else if d = q then some ([q], e :: rest)
        else some ([], d :: e :: rest)
      | [d] => if d = q then some ([q], []) else some ([], [d])
      | [] => some ([], [])
    else none
  | _ => none

/-- Reads the rest of a string in three quotes; backslashes count if `escapes` says so. -/
def multiline? (q : Char) (escapes : Bool) :
    Nat → List Char → List Char → Option (String × List Char)
  | 0, _, _ => none
  | n + 1, cs, done =>
    match closing? q cs with
    | some (extra, rest) => some (String.ofList (done.reverse ++ extra), rest)
    | none =>
      match cs with
      | [] => none
      | c :: rest =>
        if escapes && c = '\\' then
          match skipFolded? rest with
          | some rest => multiline? q escapes n rest done
          | none => do
            let (e, rest) ← escape? rest
            multiline? q escapes n rest (e :: done)
        else match newline? (c :: rest) with
          | some rest => multiline? q escapes n rest ('\n' :: done)
          | none => if isPlain c then multiline? q escapes n rest (c :: done) else none

def string? (cs : List Char) : Option (String × List Char) :=
  let fuel := cs.length + 1
  match cs with
  | '"' :: '"' :: '"' :: cs => multiline? '"' true fuel ((newline? cs).getD cs) []
  | '\'' :: '\'' :: '\'' :: cs => multiline? '\'' false fuel ((newline? cs).getD cs) []
  | '"' :: cs => basic? fuel cs []
  | '\'' :: cs => literal? cs []
  | _ => none

def digits? (isDigit : Char → Bool) : List Char → Option (List Char)
  | [] => none
  | [c] => if isDigit c then some [c] else none
  | c :: '_' :: cs => if isDigit c then (digits? isDigit cs).map (c :: ·) else none
  | c :: cs => if isDigit c then (digits? isDigit cs).map (c :: ·) else none

def numberIn (base : Nat) (cs : List Char) : Nat :=
  cs.foldl (fun n c => n * base + (hexValue? c).getD 0) 0

def decimal? (cs : List Char) : Option Nat :=
  match digits? Char.isDigit cs with
  | some ['0'] => some 0
  | some ('0' :: _) => none
  | some ds => some (numberIn 10 ds)
  | none => none

def based? (base : Nat) (cs : List Char) : Option Nat :=
  (digits? (fun c => (hexValue? c).any (· < base)) cs).map (numberIn base)

def integer? (word : List Char) : Option Int := do
  let n : Int ← match word with
    | '0' :: 'x' :: cs => (based? 16 cs).map Int.ofNat
    | '0' :: 'o' :: cs => (based? 8 cs).map Int.ofNat
    | '0' :: 'b' :: cs => (based? 2 cs).map Int.ofNat
    | '+' :: cs => (decimal? cs).map Int.ofNat
    | '-' :: cs => (decimal? cs).map fun n => -(n : Int)
    | cs => (decimal? cs).map Int.ofNat
  if Int64.minValue.toInt ≤ n ∧ n ≤ Int64.maxValue.toInt then some n else none

def unsigned : List Char → List Char
  | '+' :: cs => cs
  | '-' :: cs => cs
  | cs => cs

def exponent? (cs : List Char) : Option Int :=
  (digits? Char.isDigit (unsigned cs)).map fun ds =>
    if cs.head? = some '-' then -(numberIn 10 ds : Int) else numberIn 10 ds

/-- Whether `m · 10 ^ e` is rounded to a floating-point number beyond the last one. -/
def isTooLarge (m : Nat) (e : Int) : Bool :=
  let limit := Nat.pow 2 1024 - Nat.pow 2 970
  let places : Int := (toString m).length + e
  if m = 0 || places < 308 then false
  else if 310 < places then true
  else if 0 ≤ e then limit ≤ m * Nat.pow 10 e.toNat
  else limit * Nat.pow 10 e.natAbs ≤ m

def isDecimal (word : List Char) : Bool :=
  let cs := unsigned word
  let mantissa := cs.takeWhile fun c => c ≠ 'e' && c ≠ 'E'
  let whole := mantissa.takeWhile (· ≠ '.')
  let fraction := mantissa.dropWhile (· ≠ '.')
  let exponent := cs.drop mantissa.length
  match decimal? whole,
      if fraction.isEmpty then some [] else digits? Char.isDigit (fraction.drop 1),
      if exponent.isEmpty then some 0 else exponent? (exponent.drop 1) with
  | some n, some ds, some e =>
    !(fraction.isEmpty && exponent.isEmpty) &&
      (word.head? = some '-' ||
        !isTooLarge (n * Nat.pow 10 ds.length + numberIn 10 ds) (e - ds.length))
  | _, _, _ => false

/-- Whether a word is a number that is not written as an integer, or one of the words for infinity
and for what is not a number. -/
def isFloat (word : List Char) : Bool :=
  let cs := unsigned word
  cs = ['i', 'n', 'f'] || cs = ['n', 'a', 'n'] || isDecimal word

def plainDigits? (n : Nat) (cs : List Char) : Option Nat :=
  if cs.length = n && cs.all Char.isDigit then some (numberIn 10 cs) else none

def isLeapYear (y : Nat) : Bool := y % 4 = 0 && (y % 100 ≠ 0 || y % 400 = 0)

def daysIn (y m : Nat) : Nat :=
  if m = 2 then if isLeapYear y then 29 else 28
  else if m = 4 || m = 6 || m = 9 || m = 11 then 30 else 31

def isDate (cs : List Char) : Bool :=
  match plainDigits? 4 (cs.take 4), (cs.drop 4).take 1, plainDigits? 2 ((cs.drop 5).take 2),
      (cs.drop 7).take 1, plainDigits? 2 (cs.drop 8) with
  | some y, ['-'], some m, ['-'], some d => 1 ≤ m && m ≤ 12 && 1 ≤ d && d ≤ daysIn y m
  | _, _, _, _, _ => false

def isTime (cs : List Char) : Bool :=
  match plainDigits? 2 (cs.take 2), (cs.drop 2).take 1, plainDigits? 2 ((cs.drop 3).take 2),
      (cs.drop 5).take 1, plainDigits? 2 ((cs.drop 6).take 2), cs.drop 8 with
  | some h, [':'], some m, [':'], some s, rest =>
    h ≤ 23 && m ≤ 59 && s ≤ 60 &&
      match rest with
      | [] => true
      | '.' :: ds => !ds.isEmpty && ds.all Char.isDigit
      | _ => false
  | _, _, _, _, _, _ => false

def isZone (cs : List Char) : Bool :=
  match cs with
  | [] => true
  | ['Z'] | ['z'] => true
  | c :: cs =>
    (c = '+' || c = '-') &&
      match plainDigits? 2 (cs.take 2), (cs.drop 2).take 1, plainDigits? 2 (cs.drop 3) with
      | some h, [':'], some m => h ≤ 23 && m ≤ 59
      | _, _, _ => false

def isTimePart (c : Char) : Bool := c.isDigit || c = ':' || c = '.'

def isDateTime (cs : List Char) : Bool :=
  isTime cs || isDate cs ||
    match cs.drop 10 with
    | c :: rest =>
      isDate (cs.take 10) && (c = 'T' || c = 't' || c = ' ') &&
        isTime (rest.takeWhile isTimePart) && isZone (rest.dropWhile isTimePart)
    | [] => false

def isWordChar (c : Char) : Bool :=
  c.isAlphanum || c = '+' || c = '-' || c = '.' || c = '_' || c = ':'

/-- The word at the front; a date takes a time behind a single space with it. -/
def takeWord (cs : List Char) : List Char × List Char :=
  let word := cs.takeWhile isWordChar
  let rest := cs.drop word.length
  match rest with
  | ' ' :: c :: rest' =>
    if isDate word && c.isDigit then
      (word ++ ' ' :: (c :: rest').takeWhile isWordChar, (c :: rest').dropWhile isWordChar)
    else (word, rest)
  | _ => (word, rest)

def word? (cs : List Char) : Option (Item × List Char) :=
  let (word, rest) := takeWord cs
  if word = "true".toList then some (.boolean true, rest)
  else if word = "false".toList then some (.boolean false, rest)
  else match integer? word with
    | some n => some (.integer n, rest)
    | none =>
      if isFloat word then some (.float (String.ofList word), rest)
      else if isDateTime word then some (.dateTime (String.ofList word), rest)
      else none

end CanonTree.Toml
