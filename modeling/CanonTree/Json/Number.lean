import CanonTree.Decimal.Shortest
import CanonTree.Json.Raw

namespace CanonTree.Json.Numeral

def significandLimit : Nat := UInt64.size - 1

/-- Appends digits to a number as long as it stays within 64 bits, and answers those left over. -/
def absorb (s : Nat) : List Nat → Nat × List Nat
  | [] => (s, [])
  | d :: ds => if s * 10 + d ≤ significandLimit then absorb (s * 10 + d) ds else (s, d :: ds)

def pow10 (n : Nat) : Float := Float.ofScientific 1 false n

/-- Divides by a power of ten in steps that a floating-point number can hold. -/
def divPow10 (x : Float) (n : Nat) : Float :=
  if n ≤ 308 then x / pow10 n else if x == 0 then x else divPow10 (x / pow10 308) (n - 308)
termination_by n

def scale? (s : Nat) (e : Int) : Option Float :=
  let x := (UInt64.ofNat s).toFloat
  if e < 0 then some (divPow10 x e.natAbs)
  else if 308 < e then if s = 0 then some x else none
  else
    let y := x * pow10 e.toNat
    if y.isInf then none else some y

def intLimit : Nat := Int32.maxValue.toInt.toNat

def clamp (e : Int) : Int := max Int32.minValue.toInt (min e intLimit)

def magnitude? (n : Numeral) : Option Float :=
  let (s, left) := absorb 0 n.whole
  let (s, dropped) := absorb s n.fraction
  let places : Int := left.length - (n.fraction.length - dropped.length : Nat)
  match n.exponent with
  | none => scale? s places
  | some (negative, ds) =>
    let e := ds.foldl (fun e d => e * 10 + d) 0
    if intLimit < e then if s ≠ 0 && !negative then none else some 0
    else scale? s (clamp (if negative then places - e else places + e))

/-- Where positional notation ends and how exponents look in messages. -/
def layout : Decimal.Layout := ⟨-4, 15⟩

/-- The integer the number is, if it is one that fits 64 bits. Minus zero is not an integer. -/
def integer? (n : Numeral) : Option Int :=
  match n.fraction, n.exponent, absorb 0 n.whole with
  | [], none, (s, []) =>
    if !n.negative then some s
    else if 0 < s ∧ s ≤ Int64.minValue.toInt.natAbs then some (-s) else none
  | _, _, _ => none

def found (n : Numeral) : Except Problem Found :=
  match n.integer? with
  | some i => .ok (.integer i)
  | none =>
    match n.magnitude? with
    | some x => .ok (.decimal (layout.float (if n.negative then -x else x)))
    | none => .error .malformed

end CanonTree.Json.Numeral
