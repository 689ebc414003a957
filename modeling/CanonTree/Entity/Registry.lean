import CanonTree.Entity.Name

namespace CanonTree.Entity

structure Row where
  name : String
  code : Int
  isValidChange : Bool
deriving DecidableEq, Repr

def row (e : Entity) : Row := ⟨e.name, e.code, e.isValidChange⟩

def registry : List Row := all.map row

end CanonTree.Entity
