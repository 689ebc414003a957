import CanonTree.Entity.Basic

namespace CanonTree.Entity

/-- Joins the segments between underscores, each begun with a capital and continued in small
letters; `start` tells that a segment begins here. -/
def camelChars (start : Bool) : List Char → List Char
  | [] => []
  | c :: cs =>
    if c = '_' then camelChars true cs
    else (if start then c.toUpper else c.toLower) :: camelChars false cs

def camel (name : String) : String := String.ofList (camelChars true name.toList)

def camelName (e : Entity) : String := camel e.name

def ofName? (name : String) : Option Entity :=
  all.find? fun e => e.name == name || e.camelName == name

/-- Kinds without a parsed counterpart share one number and are not found by it. -/
def ofCode? (code : Int) : Option Entity :=
  all.find? fun e => !e.isSynthetic && e.code == code

end CanonTree.Entity
