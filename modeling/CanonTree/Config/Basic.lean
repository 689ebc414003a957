namespace CanonTree

inductive Format where
  | json | text
deriving DecidableEq, Repr, Inhabited

namespace Format

def all : List Format := [json, text]

def name : Format → String
  | json => "json"
  | text => "text"

def ofName? (s : String) : Option Format := all.find? (·.name == s)

/-- A format as people type it: in any case, and `txt` for text. -/
def parse? (s : String) : Option Format :=
  let s := String.ofList (s.toList.map Char.toLower)
  if s = "txt" then some text else ofName? s

def unknownMessage (s : String) : String := s!"Unknown output format: {s}"

end Format

structure OutputConfig where
  format : Format := .json
  pretty : Bool := true
  positions : Bool := true
deriving DecidableEq, Repr

structure Config where
  output : OutputConfig := {}
  /-- Zero leaves the number of workers open. -/
  threads : Nat := 0
deriving DecidableEq, Repr

namespace Config

def maxThreads : Nat := 1024

inductive Error where
  | unreadable | badToml | badYaml
  | tooManyThreads (n : Nat)
deriving DecidableEq

def Error.message (file : String) : Error → String
  | unreadable => s!"Failed to read config from {file}"
  | badToml => s!"Failed to parse TOML config from {file}"
  | badYaml => s!"Failed to parse YAML config from {file}"
  | tooManyThreads n => s!"parallel.threads = {n} exceeds the limit of {maxThreads}"

def validate (c : Config) : Except Error Config :=
  if maxThreads < c.threads then .error (.tooManyThreads c.threads) else .ok c

def toToml (c : Config) : String :=
  s!"[output]\nformat = \"{c.output.format.name}\"\npretty = {c.output.pretty}\n" ++
  s!"include_positions = {c.output.positions}\n\n[parallel]\nthreads = {c.threads}\n"

end Config
end CanonTree
