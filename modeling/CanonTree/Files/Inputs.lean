import CanonTree.Files.Tree

namespace CanonTree.Files

structure MissingInput where
  path : String
deriving DecidableEq

def MissingInput.message (e : MissingInput) : String := s!"Input does not exist: {e.path}"

inductive CollectError where
  | missing (input : MissingInput)
  | stuck (path : String)
deriving DecidableEq

namespace CollectError

def path : CollectError → String
  | missing input => input.path
  | stuck path => path

def message : CollectError → String
  | missing input => input.message
  | stuck path => s!"Failed to walk {path}"

end CollectError

def isJson (path : String) : Bool := Path.extension? path == some "json"

/-- The files that an input stands for: the file itself, whatever its name, or all files with the
extension `json` below the directory. -/
def expand (fs : Files) (input : String) : Except CollectError (List String) :=
  if !fs.has input then .error (.missing ⟨input⟩)
  else if fs.isFile input then .ok [input]
  else match fs.walk? input with
    | some paths => .ok (paths.filter isJson)
    | none => .error (.stuck input)

/-- The files in ascending order, each once. Only the first input that fails is reported. -/
def collect (fs : Files) (inputs : List String) : Except CollectError (List String) := do
  let found ← inputs.mapM fs.expand
  return Path.sortedSet found.flatten

end CanonTree.Files
