import CanonTree.Cli.Args
import CanonTree.Cli.Report
import CanonTree.Config.File
import CanonTree.Conversion
import CanonTree.Files.Inputs
import CanonTree.Source.Lines
import CanonTree.Syntax.Document.Reader

namespace CanonTree.Cli

/-- What a run leaves behind. `notes` are the lines for the user beside the output proper. -/
structure Outcome where
  exit : Nat
  stdout : String := ""
  notes : List String := []
  files : Files

def versionText : String := "jdt-treegen 0.3.0\n"

def fatal (message : String) : String := "Error: " ++ message

inductive Failure where
  | unread (e : Files.ReadError)
  | refused (e : Error)
deriving DecidableEq

namespace Failure

def message : Failure → String
  | unread e => e.message
  | refused e => e.message

def offset? : Failure → Option Int32
  | unread _ => none
  | refused e => e.offset?

end Failure

def sourceIn? (fs : Files) (path : String) : Option String := do
  let text ← (fs.read path).toOption
  let d ← (Syntax.Document.read text).toOption
  return d.source

/-- The place in the source that a failure speaks of, looked up in the file as it is when the
failure is told: a run that delivers its results among its inputs may have written over it. -/
def place? (fs : Files) (path : String) (f : Failure) : Option LineColumn := do
  let offset ← f.offset?
  let source ← sourceIn? fs path
  (LineTable.ofText source).locate offset

def describe (fs : Files) (path : String) (f : Failure) : String :=
  match place? fs path f with
  | some p => s!"{path}:{p.render}: {f.message}"
  | none => s!"{path}: {f.message}"

def generate (text : String) : Except Error Canon.Tree := do
  Conversion.convert (← Syntax.Tree.ofJson text)

def generateFile (fs : Files) (path : String) : Except Failure Canon.Tree := do
  let text ← (fs.read path).mapError .unread
  (generate text).mapError .refused

inductive Target where
  | standardOutput (headers : Bool)
  | file (path : String)
  | directory (path : String)

def outputName (format : Format) (input : String) : String :=
  (Path.stem? input).getD "unit" ++
    match format with
    | .json => ".tree.json"
    | .text => ".tree.txt"

def Target.path? (format : Format) (input : String) : Target → Option String
  | standardOutput _ => none
  | file path => some path
  | directory path => some (Path.join path (outputName format input))

structure Progress where
  files : Files
  stdout : String := ""
  notes : List String := []
  failed : Nat := 0

def block (c : OutputConfig) (headers : Bool) (path : String) (t : Canon.Tree) : String :=
  (if headers && c.format = .text then header path else "") ++ render c t

/-- Delivers the results in their order. A file that cannot be written ends the run. -/
def deliver (c : OutputConfig) (target : Target) :
    List (String × Except Failure Canon.Tree) → Progress → Progress × Option String
  | [], p => (p, none)
  | (path, .error f) :: rest, p =>
    deliver c target rest
      { p with notes := p.notes ++ ["❌ " ++ describe p.files path f], failed := p.failed + 1 }
  | (path, .ok t) :: rest, p =>
    match target.path? c.format path with
    | none =>
      let headers := match target with
        | .standardOutput headers => headers
        | _ => false
      deliver c target rest { p with stdout := p.stdout ++ block c headers path t }
    | some out =>
      match p.files.write? out (render c t) with
      | some fs => deliver c target rest { p with files := fs }
      | none => (p, some s!"Failed to write {out}")

def conclude (time : String) (count : Nat) (p : Progress) (stopped : Option String) : Outcome :=
  let failure := match stopped with
    | some message => some message
    | none =>
      if p.failed = 0 then none else some s!"{p.failed} of {count} file(s) failed to convert"
  match failure with
  | some message => ⟨1, p.stdout, p.notes ++ [fatal message], p.files⟩
  | none => ⟨0, p.stdout, p.notes ++ [s!"✅ Converted {count} file(s) in {time}"], p.files⟩

def prepare (fs : Files) (inputs found : List String) (output : Option String) :
    Except String (Target × Files) :=
  match output with
  | none => .ok (.standardOutput (1 < found.length), fs)
  | some out =>
    if found.length = 1 && inputs.length = 1 && inputs.all fs.isFile then .ok (.file out, fs)
    else if fs.has out then .ok (.directory out, fs)
    else match fs.makeDirs? out with
      | some fs => .ok (.directory out, fs)
      | none => .error s!"Failed to create directory: {out}"

def settings (fs : Files) (config : Option String) (format : Option Format) :
    Except String Config := do
  let c ← match config with
    | some path => (Config.load fs path).mapError (·.message path)
    | none => pure {}
  return { c with output.format := format.getD c.output.format }

def convert (fs : Files) (inputs : List String) (output : Option String) (format : Option Format)
    (config : Option String) : Except String (String → Outcome) := do
  let c ← settings fs config format
  let found ← (fs.collect inputs).mapError (·.message)
  if found.isEmpty then return fun _ => ⟨0, "", ["⚠️ No native tree dumps found"], fs⟩
  let (target, fs) ← prepare fs inputs found output
  let results := found.map fun path => (path, generateFile fs path)
  let (p, stopped) := deliver c.output target results { files := fs }
  return fun time => conclude time found.length p stopped

def stats (fs : Files) (input : String) (format : Format) : Except String (String → Outcome) := do
  if !fs.has input then throw (Files.MissingInput.message ⟨input⟩)
  let t ← (generateFile fs input).mapError (describe fs input)
  let s := t.statistics
  return fun time => ⟨0, statisticsText s time format, [], fs⟩

/-- Does the work of a command. How long that took is known only afterwards, so what is told waits
for the text of it. -/
def execute (fs : Files) : Command → Except String (String → Outcome)
  | .version => .ok fun _ => ⟨0, versionText, [], fs⟩
  | .help topic => .ok fun _ => ⟨0, topic.text, [], fs⟩
  | .convert inputs output format config => convert fs inputs output format config
  | .types format => .ok fun _ => ⟨0, registryText format, [], fs⟩
  | .stats input format => stats fs input format

def outcome (fs : Files) (time : String) : Except String (String → Outcome) → Outcome
  | .ok told => told time
  | .error message => ⟨1, "", [fatal message], fs⟩

/-- Runs the program on a tree of files; `time` is how long the work is said to have taken. -/
def run (fs : Files) (time : String) (args : List String) : Outcome :=
  match Command.ofArgs? args with
  | none => { exit := 2, files := fs }
  | some command => outcome fs time (execute fs command)

end CanonTree.Cli
