import CanonTree.Json.Number
import CanonTree.Json.Raw

namespace CanonTree.Json

/-- Reads what a text holds, with so many lists and objects that may still be opened, or answers the
first problem in the order of the text. -/
abbrev Reader (α : Type) := Nat → Raw → Except Problem α

/-- How many lists and objects may be open at once. -/
def maxDepth : Nat := 127

def unexpected {α : Type} (f : Found) (wanted : String) : Except Problem α :=
  .error (.mismatch (.unexpected f wanted))

namespace Lexeme

def isHighSurrogate (n : Nat) : Bool := 0xD800 ≤ n && n < 0xDC00
def isLowSurrogate (n : Nat) : Bool := 0xDC00 ≤ n && n < 0xE000

/-- The characters of a string. Escaped surrogates must come in pairs. -/
def decode (stop : Option Problem) : List Piece → List Char → Except Problem (List Char)
  | [], done =>
    match stop with
    | some p => .error p
    | none => .ok done.reverse
  | .char c :: ps, done => decode stop ps (c :: done)
  | .unit n :: ps, done =>
    if isLowSurrogate n then .error .malformed
    else if isHighSurrogate n then
      match ps with
      | .unit m :: ps =>
        if isLowSurrogate m then
          decode stop ps (Char.ofNat ((n - 0xD800) * 1024 + (m - 0xDC00) + 0x10000) :: done)
        else .error .malformed
      | .char _ :: _ => .error .malformed
      | [] => .error (stop.getD .malformed)
    else decode stop ps (Char.ofNat n :: done)

def text (l : Lexeme) : Except Problem String := (decode l.stop l.pieces []).map String.ofList

end Lexeme

def orProblem : Option Problem → Except Problem Unit
  | none => .ok ()
  | some p => .error p

namespace Raw

/-- What stands there, judged without a look into lists and objects. -/
def found : Raw → Except Problem Found
  | absent => .error .ended
  | junk => .error .malformed
  | badWord p => .error p
  | badNumber cut => .error (if cut then .ended else .malformed)
  | null => .ok .null
  | bool b => .ok (.boolean b)
  | number n => n.found
  | string l => l.text.map .string
  | array _ _ => .ok .sequence
  | object _ _ => .ok .map

mutual
def checked : Nat → Raw → Except Problem Found
  | room, array items e => do
    if room = 0 then throw .malformed
    checkedItems (room - 1) items
    orProblem e.problem?
    return .sequence
  | room, object ms e => do
    if room = 0 then throw .malformed
    checkedMembers (room - 1) ms
    orProblem e.problem?
    return .map
  | _, r => r.found

def checkedItems : Nat → List Raw → Except Problem Unit
  | _, [] => .ok ()
  | room, v :: vs => do
    let _ ← checked room v
    checkedItems room vs

def checkedMembers : Nat → List (Lexeme × Raw) → Except Problem Unit
  | _, [] => .ok ()
  | room, (k, v) :: ms => do
    let _ ← k.text
    let _ ← checked room v
    checkedMembers room ms
end

mutual
/-- Passes over a value: only its grammar counts, not its depth, the range of its numbers or the
pairing of surrogates. A number must be complete even at the end of the text. -/
def skim : Raw → Except Problem Unit
  | absent => .error .ended
  | badWord p => .error p
  | junk | badNumber _ => .error .malformed
  | null | bool _ | number _ => .ok ()
  | string l => orProblem l.stop
  | array items e => do
    skimItems items
    orProblem e.problem?
  | object ms e => do
    skimMembers ms
    orProblem e.problem?

def skimItems : List Raw → Except Problem Unit
  | [] => .ok ()
  | v :: vs => do
    skim v
    skimItems vs

def skimMembers : List (Lexeme × Raw) → Except Problem Unit
  | [] => .ok ()
  | (k, v) :: ms => do
    orProblem k.stop
    skim v
    skimMembers ms
end

end Raw

namespace Reader

variable {α : Type}

namespace Take

def string : Found → Except Problem String
  | .string s => .ok s
  | f => unexpected f "a string"

def stringOrNull : Found → Except Problem (Option String)
  | .null => .ok none
  | f => (string f).map some

def bool : Found → Except Problem Bool
  | .boolean b => .ok b
  | f => unexpected f "a boolean"

def unit : Found → Except Problem Unit
  | .null => .ok ()
  | f => unexpected f "unit"

def integer (wanted : String) (low high : Int) : Found → Except Problem Int
  | .integer n => if low ≤ n ∧ n ≤ high then .ok n else .error (.mismatch (.outOfRange n wanted))
  | f => unexpected f wanted

def int32 (f : Found) : Except Problem Int32 :=
  (integer "i32" Int32.minValue.toInt Int32.maxValue.toInt f).map Int32.ofInt

def size (f : Found) : Except Problem Nat :=
  (integer "usize" 0 (UInt64.size - 1) f).map Int.toNat

end Take

def ofFound (take : Found → Except Problem α) : Reader α := fun _ r => r.found >>= take

/-- One of a few names, written as a string or as an object with that key and the value null. -/
def variant (known : List String) (ofName? : String → Option α) : Reader α := fun room r => do
  let named (name : String) : Except Problem α :=
    match ofName? name with
    | some a => .ok a
    | none => .error (.mismatch (.unknownVariant name known))
  match r with
  | .string l => l.text >>= named
  | .absent => throw .ended
  | .object ms e => do
    if room = 0 then throw .malformed
    match ms, e with
    | (k, v) :: ms, e => do
      let a ← k.text >>= named
      let _ ← v.found >>= Take.unit
      match ms, e with
      | [], .closed => pure a
      | [], .cut => throw .ended
      | _, _ => throw .malformed
    | [], .stray rest => do
      let f ← (Raw.read rest).1.found
      unexpected f "variant identifier"
    | [], .cut => throw .ended
    | [], _ => throw .malformed
  | _ => throw .malformed

def run (read : Reader α) (text : String) : Except Problem α := do
  let (r, rest) := Raw.read text.toList
  let a ← read maxDepth r
  if (skipSpace rest).isEmpty then pure a else throw .malformed

end Reader

structure Field (P : Type) where
  name : String
  required : Bool := false
  isSet : P → Bool
  read : P → Reader P

/-- A record: read from an object with its fields in any order and others between them, or from a
list of the fields in their order, of which those with defaults may be missing at the end. -/
structure Record (P α : Type) where
  name : String
  fields : List (Field P)
  start : P
  finish : P → Except Problem α

namespace Record

variable {P α : Type}

def readMembers (rec : Record P α) (room : Nat) :
    List (Lexeme × Raw) → P → Except Problem P
  | [], p => .ok p
  | (k, v) :: ms, p => do
    let key ← k.text
    match rec.fields.find? (·.name = key) with
    | some f =>
      if f.isSet p then throw (.mismatch (.duplicateField key))
      readMembers rec room ms (← f.read p room v)
    | none =>
      v.skim
      readMembers rec room ms p

def readEnd : List Raw → Ending → Except Problem Unit
  | [], .closed => .ok ()
  | [], .cut => .error .ended
  | _, _ => .error .malformed

def readItems (rec : Record P α) (room : Nat) (ending : Ending) :
    List (Field P) → List Raw → Nat → P → Except Problem P
  | [], vs, _, p => do
    readEnd vs ending
    return p
  | f :: fs, v :: vs, i, p => do
    readItems rec room ending fs vs (i + 1) (← f.read p room v)
  | f :: fs, [], i, p => do
    orProblem ending.problem?
    if f.required then throw (.mismatch (.tooShort i rec.name rec.fields.length))
    readItems rec room ending fs [] (i + 1) p

def read (rec : Record P α) : Reader α := fun room r =>
  match r with
  | .object ms e => do
    if room = 0 then throw .malformed
    let p ← rec.readMembers (room - 1) ms rec.start
    orProblem e.problem?
    rec.finish p
  | .array vs e => do
    if room = 0 then throw .malformed
    let p ← rec.readItems (room - 1) e rec.fields vs 0 rec.start
    rec.finish p
  | r => do
    let f ← r.found
    unexpected f ("struct " ++ rec.name)

end Record

def present {α : Type} (field : String) : Option α → Except Problem α
  | some a => .ok a
  | none => .error (.mismatch (.missingField field))

end CanonTree.Json
