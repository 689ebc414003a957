namespace CanonTree.Decimal

structure Ratio where
  num : Nat
  den : Nat

/-- The reals that round to a number: its neighbourhood in quarter units of the last place. The
ends belong to it when the last bit is even. -/
structure Rounding where
  value : Ratio
  low : Nat
  high : Nat
  closed : Bool

/-- `m · 2 ^ q`; below a power of two the gap to the next smaller number is half as wide. -/
def Rounding.ofBinary (m : Nat) (q : Int) (narrow : Bool) : Rounding :=
  let up := Nat.pow 2 q.toNat
  let down := Nat.pow 2 (-q).toNat
  { value := ⟨4 * m * up, 4 * down⟩
    low := (4 * m - (if narrow then 1 else 2)) * up
    high := (4 * m + 2) * up
    closed := m % 2 = 0 }

def Rounding.holds (r : Rounding) (d : Nat) (e : Int) : Bool :=
  let x := d * Nat.pow 10 e.toNat * r.value.den
  let scale := Nat.pow 10 (-e).toNat
  if r.closed then r.low * scale ≤ x && x ≤ r.high * scale
  else r.low * scale < x && x < r.high * scale

def digitCount (n : Nat) : Nat := (Nat.toDigits 10 n).length

def leadingPlaces (num den : Nat) : Nat → Nat
  | 0 => 0
  | fuel + 1 => if den ≤ num then 0 else leadingPlaces (num * 10) den fuel + 1

/-- The `p` with `10 ^ (p - 1) ≤ r < 10 ^ p`. -/
def magnitude (r : Ratio) : Int :=
  let whole := r.num / r.den
  if whole = 0 then 1 - (leadingPlaces r.num r.den 400 : Int) else digitCount whole

/-- The better of the two neighbours of the number on the grid of step `10 ^ e`, if one of them
rounds to it. -/
def Rounding.onGrid (r : Rounding) (e : Int) : Option Nat :=
  let num := r.value.num * Nat.pow 10 (-e).toNat
  let den := r.value.den * Nat.pow 10 e.toNat
  let below := num / den
  match r.holds below e && below ≠ 0, r.holds (below + 1) e with
  | true, true =>
    let rest := 2 * (num % den)
    if rest < den || (rest = den && below % 2 = 0) then some below else some (below + 1)
  | true, false => some below
  | false, true => some (below + 1)
  | false, false => none

def Rounding.search (r : Rounding) (p : Int) (n : Nat) : Nat → Nat × Int
  | 0 => (r.value.num / r.value.den, 0)
  | fuel + 1 =>
    match r.onGrid (p - n) with
    | some d => (d, p - n)
    | none => r.search p (n + 1) fuel

/-- Digits and exponent of the shortest decimal: of those with one digit, two digits and so on the
first that lies among the reals that round to the number, and of two such the nearer. -/
def Rounding.shortest (r : Rounding) : Nat × Int := r.search (magnitude r.value) 1 17

/-- How a decimal is written: positional between two exponents of the leading digit, else with an
exponent of at least two digits that always has a sign. -/
structure Layout where
  least : Int
  most : Int

def zeros (n : Nat) : String := String.ofList (List.replicate n '0')

def exponentText (e : Int) : String :=
  let digits := toString e.natAbs
  (if e < 0 then "-" else "+") ++ zeros (2 - digits.length) ++ digits

def Layout.write (l : Layout) (d : Nat) (e : Int) : String :=
  let digits := toString d
  let lead := e + digits.length - 1
  if l.least ≤ lead && lead ≤ l.most then
    if 0 ≤ e then digits ++ zeros e.toNat ++ ".0"
    else if 0 ≤ lead then
      let whole := lead.toNat + 1
      String.ofList (digits.toList.take whole) ++ "." ++ String.ofList (digits.toList.drop whole)
    else "0." ++ zeros ((-lead).toNat - 1) ++ digits
  else
    let fraction := String.ofList (digits.toList.drop 1)
    String.ofList (digits.toList.take 1) ++ (if fraction.isEmpty then "" else "." ++ fraction) ++
      "e" ++ exponentText lead

def trimZeros (d : Nat) (e : Int) : Nat → Nat × Int
  | 0 => (d, e)
  | fuel + 1 => if d ≠ 0 && d % 10 = 0 then trimZeros (d / 10) (e + 1) fuel else (d, e)

def Layout.float (l : Layout) (x : Float) : String :=
  let bits : Nat := x.toBits.toNat
  let sign := if bits / Nat.pow 2 63 = 1 then "-" else ""
  let exponent : Nat := bits / Nat.pow 2 52 % 2048
  let fraction : Nat := bits % Nat.pow 2 52
  if exponent = 0 && fraction = 0 then sign ++ "0.0"
  else
    let r :=
      if exponent = 0 then Rounding.ofBinary fraction (-1074) false
      else
        Rounding.ofBinary (Nat.pow 2 52 + fraction) ((exponent : Int) - 1075)
          (fraction = 0 && 1 < exponent)
    let (d, e) := r.shortest
    let (d, e) := trimZeros d e 20
    sign ++ l.write d e

end CanonTree.Decimal
