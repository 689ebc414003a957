namespace CanonTree

structure Elapsed where
  seconds : Nat
  nanos : Nat
  nanos_lt : nanos < 1000000000 := by omega

namespace Elapsed

def ofNanos (n : Nat) : Elapsed :=
  ⟨n / 1000000000, n % 1000000000, Nat.mod_lt _ (by decide)⟩

def millis (e : Elapsed) : Nat := e.nanos / 1000000

def threePlaces (n : Nat) : String :=
  let digits := toString n
  String.ofList (List.replicate (3 - digits.length) '0') ++ digits

/-- Milliseconds below a second, seconds with three places below a minute, else minutes and seconds.
-/
def render (e : Elapsed) : String :=
  if e.seconds = 0 then s!"{e.millis}ms"
  else if e.seconds < 60 then s!"{e.seconds}.{threePlaces e.millis}s"
  else s!"{e.seconds / 60}m {e.seconds % 60}s"

end Elapsed
end CanonTree
