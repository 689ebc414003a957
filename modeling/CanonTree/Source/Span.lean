namespace CanonTree

structure Span where
  start : Int32
  length : Int32
deriving DecidableEq, Repr

namespace Span

def unknown : Span := ⟨-1, -1⟩

instance : Inhabited Span := ⟨unknown⟩

/-- The span of a text of `n` bytes that stands nowhere in the source. The length wraps around at
32 bits. -/
def detached (n : Nat) : Span := ⟨-1, Int32.ofNat n⟩

def isKnown (s : Span) : Bool := 0 ≤ s.start && 0 ≤ s.length

/-- The offset behind the span, if the span is known and the offset fits 32 bits. -/
def end? (s : Span) : Option Int32 :=
  if s.isKnown then
    let stop := s.start.toInt + s.length.toInt
    if stop ≤ Int32.maxValue.toInt then some (Int32.ofInt stop) else none
  else none

def range? (s : Span) : Option (Nat × Nat) :=
  s.end?.map fun stop => (s.start.toNatClampNeg, stop.toNatClampNeg)

def render (s : Span) : String := s!"[{s.start},{s.length}]"

end Span
end CanonTree
