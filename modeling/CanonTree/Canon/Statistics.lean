import CanonTree.Canon.Tree

namespace CanonTree.Canon

/-- How many nodes there are of each entity, at its place in the registry. -/
def Tree.counts (t : Tree) : Array Nat :=
  t.nodes.foldl (fun counts n => counts.modify n.entity.ctorIdx (· + 1))
    (Array.replicate Entity.all.length 0)

def Tree.histogram (t : Tree) : List (Entity × Nat) := Entity.all.zip t.counts.toList

def Tree.occurring (t : Tree) : List (Entity × Nat) := t.histogram.filter (0 < ·.2)

/-- More frequent first, names in ascending order among equals. -/
def ranksBefore (a b : Entity × Nat) : Bool :=
  b.2 < a.2 || (a.2 = b.2 && decide (a.1.name ≤ b.1.name))

structure Statistics where
  total : Nat
  synthetic : Nat
  categories : List (Entity × Nat)

def Tree.statistics (t : Tree) : Statistics where
  total := t.size
  synthetic := t.syntheticCount
  categories := t.occurring.mergeSort ranksBefore

end CanonTree.Canon
