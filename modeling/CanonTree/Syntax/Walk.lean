import CanonTree.Syntax.Tree

namespace CanonTree.Syntax

inductive Control where
  | descend | skip
deriving DecidableEq

/-- What is done when a node is entered, where the children may be skipped, and when it is left. -/
structure Visitor (m : Type → Type) where
  enter : Item → m Control
  leave : Item → m Unit

mutual
def walk {m : Type → Type} [Monad m] (v : Visitor m) : Branch → m Unit
  | .node i cs => do
    match ← v.enter i with
    | .descend => walkAll v cs
    | .skip => pure ()
    v.leave i

def walkAll {m : Type → Type} [Monad m] (v : Visitor m) : List Branch → m Unit
  | [] => pure ()
  | c :: cs => do
    walk v c
    walkAll v cs
end

inductive Event where
  | entered (i : Item)
  | left (i : Item)
deriving DecidableEq

/-- What a recording visitor does at a node, decided from the node alone. -/
structure Policy where
  skips : Item → Bool
  failsEntering : Item → Bool
  failsLeaving : Item → Bool

/-- Notes every event and then acts on it; a failure names the event that failed. -/
def Policy.visitor (p : Policy) : Visitor (ExceptT Event (StateM (Array Event))) where
  enter i := do
    modify (·.push (.entered i))
    if p.failsEntering i then throw (.entered i)
    return if p.skips i then .skip else .descend
  leave i := do
    modify (·.push (.left i))
    if p.failsLeaving i then throw (.left i)

def Policy.trace (p : Policy) (b : Branch) : List Event × Option Event :=
  let (outcome, events) := (walk p.visitor b).run.run #[]
  (events.toList, match outcome with | .ok _ => none | .error e => some e)

end CanonTree.Syntax
