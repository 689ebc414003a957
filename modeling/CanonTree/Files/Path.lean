namespace CanonTree.Path

inductive Component where
  | root | current | parent
  | normal (name : String)
deriving DecidableEq, Repr

namespace Component

def rank : Component → Nat
  | root => 0
  | current => 1
  | parent => 2
  | normal _ => 3

/-- Names are ordered by their code points, which is the order of their bytes. -/
def before : Component → Component → Bool
  | normal a, normal b => a < b
  | a, b => a.rank < b.rank

end Component

def pieces (path : String) : List String := (path.toList.splitOn '/').map String.ofList

def ofPieces : List String → List Component
  | [] => []
  | s :: ss =>
    if s = "" || s = "." then ofPieces ss
    else (if s = ".." then .parent else .normal s) :: ofPieces ss

def components (path : String) : List Component :=
  match pieces path with
  | "" :: ss => if path.isEmpty then [] else .root :: ofPieces ss
  | "." :: ss => .current :: ofPieces ss
  | ss => ofPieces ss

def componentsLE : List Component → List Component → Bool
  | [], _ => true
  | _ :: _, [] => false
  | a :: as, b :: bs => a.before b || (a = b && componentsLE as bs)

def le (a b : String) : Bool := componentsLE (components a) (components b)

def fileName? (path : String) : Option String :=
  match (components path).getLast? with
  | some (.normal name) => some name
  | _ => none

/-- A name cut at its last point; a point at the front does not count. -/
def splitName (name : String) : String × Option String :=
  let cs := name.toList.reverse
  let ext := cs.takeWhile (· ≠ '.')
  match cs.dropWhile (· ≠ '.') with
  | [] | [_] => (name, none)
  | _ :: stem => (String.ofList stem.reverse, some (String.ofList ext.reverse))

def extension? (path : String) : Option String := (fileName? path).bind fun n => (splitName n).2

def stem? (path : String) : Option String := (fileName? path).map fun n => (splitName n).1

def join (dir name : String) : String :=
  if dir.isEmpty then name else if dir.endsWith "/" then dir ++ name else dir ++ "/" ++ name

/-- A path of more bytes leads nowhere. -/
def limit : Nat := 4095

def fits (path : String) : Bool := path.utf8ByteSize ≤ limit

/-- A name of more bytes can be given to no file. -/
def nameLimit : Nat := 255

def creatable (path : String) : Bool :=
  fits path && (pieces path).all (·.utf8ByteSize ≤ nameLimit)

/-- Adds a path to an ascending list, unless the list holds it in some spelling. -/
def insert (path : String) : List String → List String
  | [] => [path]
  | p :: ps =>
    if components path = components p then p :: ps
    else if le path p then path :: p :: ps
    else p :: insert path ps

/-- Ascending, each path once, in the spelling that comes first. -/
def sortedSet (paths : List String) : List String := paths.foldl (fun ps p => insert p ps) []

end CanonTree.Path
