namespace CanonTree

inductive Rose (α : Type) where
  | node (value : α) (children : List (Rose α))

namespace Rose

variable {α β : Type}

def value : Rose α → α
  | node v _ => v

def children : Rose α → List (Rose α)
  | node _ cs => cs

instance [Inhabited α] : Inhabited (Rose α) := ⟨node default []⟩

mutual
def size : Rose α → Nat
  | node _ cs => sizes cs + 1

def sizes : List (Rose α) → Nat
  | [] => 0
  | c :: cs => c.size + sizes cs
end

mutual
def preorder : Rose α → List α
  | node v cs => v :: preorders cs

def preorders : List (Rose α) → List α
  | [] => []
  | c :: cs => c.preorder ++ preorders cs
end

mutual
def subtrees : Rose α → List (Rose α)
  | node v cs => node v cs :: forestSubtrees cs

def forestSubtrees : List (Rose α) → List (Rose α)
  | [] => []
  | c :: cs => c.subtrees ++ forestSubtrees cs
end

mutual
def map (f : α → β) : Rose α → Rose β
  | node v cs => node (f v) (maps f cs)

def maps (f : α → β) : List (Rose α) → List (Rose β)
  | [] => []
  | c :: cs => c.map f :: maps f cs
end

end Rose
end CanonTree
