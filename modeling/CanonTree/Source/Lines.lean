namespace CanonTree

structure LineColumn where
  line : Nat
  column : Nat
deriving DecidableEq, Repr

/-- Counted from one, as editors do. -/
def LineColumn.render (p : LineColumn) : String := s!"{p.line + 1}:{p.column + 1}"

structure LineTable where
  starts : Array UInt32
  starts_pos : 0 < starts.size

namespace LineTable

/-- The offsets behind the line feeds of `bs`, whose first byte has offset `i`. An offset wraps
around at 32 bits. -/
def breaks : List UInt8 → Nat → List UInt32
  | [], _ => []
  | b :: bs, i =>
    if b = 10 then UInt32.ofNat (i + 1) :: breaks bs (i + 1) else breaks bs (i + 1)

def ofText (text : String) : LineTable where
  starts := (0 :: breaks text.toUTF8.toList 0).toArray
  starts_pos := by simp

def lineCount (x : LineTable) : Nat := x.starts.size

/-- The number of entries of an ascending table that are at most `n`, by halving `lo ..< hi`. -/
def countUpTo (starts : Array UInt32) (n : UInt32) (lo hi : Nat) : Nat :=
  if h : lo < hi then
    let mid := (lo + hi) / 2
    if starts.getD mid 0 ≤ n then countUpTo starts n (mid + 1) hi else countUpTo starts n lo mid
  else lo
termination_by hi - lo

/-- The place of an offset; none for a negative one. Offsets behind the end of the text count on
from the last line. -/
def locate (x : LineTable) (offset : Int32) : Option LineColumn :=
  if offset < 0 then none
  else
    let n := offset.toUInt32
    let line := countUpTo x.starts n 0 x.starts.size - 1
    some ⟨line, (n - x.starts.getD line 0).toNat⟩

end LineTable
end CanonTree
