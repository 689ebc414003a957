import CanonTree.Cli.Run
import CanonTree.Source.Elapsed

namespace CanonTree

def entryAt (place : List String) : IO.FS.DirEntry :=
  match place.getLast? with
  | some name => ⟨"/".intercalate (if place.length = 1 then ["."] else place.dropLast), name⟩
  | none => ⟨".", "."⟩

def Files.load (fs : Files) (place : List String) (entry : IO.FS.DirEntry) : IO Files := do
  if ← entry.path.isDir then return { fs with directories := place :: fs.directories }
  else if ← entry.path.pathExists then
    return { fs with files := fs.files ++ [(place, ← IO.FS.readBinFile entry.path)] }
  else return fs

def Files.block (fs : Files) (place : List String) : Files :=
  { fs with blocked := place :: fs.blocked }

/-- Loads the JSON files below a directory. The first argument bounds the number of directories that
lie in one another. -/
def Files.loadBelow : Nat → Files → List String → IO.FS.DirEntry → IO Files
  | 0, fs, place, _ => return fs.block place
  | n + 1, fs, place, entry => do
    if ← entry.path.isDir then
      let fs ← fs.load place entry
      match ← entry.path.readDir.toBaseIO with
      | .ok entries => entries.foldlM (fun fs e => loadBelow n fs (place ++ [e.fileName]) e) fs
      | .error _ => return fs.block place
    else if !(← entry.path.pathExists) then return fs.block place
    else if isJson entry.fileName then fs.load place entry
    else return fs

def placesOn (path : String) : List (List String) :=
  (Path.components path).foldl
    (fun places c => Files.step (places.headD []) c :: places) []

def Files.loadPath (fs : Files) (path : String) : IO Files :=
  (placesOn path).foldrM (fun place fs => fs.load place (entryAt place)) fs

def Files.loadInput (fs : Files) (path : String) : IO Files := do
  let fs ← fs.loadPath path
  let place := (placesOn path).headD []
  if !(← (entryAt place).path.pathExists) then return fs
  fs.loadBelow Path.limit place (entryAt place)

def Cli.Command.load : Cli.Command → IO Files
  | .convert inputs output _ config => do
    let fs ← (output.toList ++ config.toList).foldlM Files.loadPath {}
    inputs.foldlM Files.loadInput fs
  | .stats input _ => Files.loadPath {} input
  | _ => return {}

/-- Writes what the second tree of files has beyond the first. The answer is a path that could not
be written. -/
def Files.save (before after : Files) : IO (Option String) := do
  for place in after.directories do
    unless before.isDirAt place do IO.FS.createDirAll (entryAt place).path
  for (path, content) in before.changes after do
    try IO.FS.writeBinFile path content
    catch _ => return some path
  return none

def Cli.Outcome.tell (o : Cli.Outcome) : IO UInt32 := do
  IO.print o.stdout
  o.notes.forM fun note => IO.eprintln note
  return UInt32.ofNat o.exit

def Cli.perform (command : Cli.Command) : IO UInt32 := do
  let fs ← command.load
  let start ← IO.monoNanosNow
  match Cli.execute fs command with
  | .error message => (Cli.outcome fs "" (.error message)).tell
  | .ok told =>
    let time := Elapsed.ofNanos ((← IO.monoNanosNow) - start)
    let o := told time.render
    match ← fs.save o.files with
    | none => o.tell
    | some path => do
      IO.eprintln (Cli.fatal s!"Failed to write {path}")
      return 1

end CanonTree

def main (args : List String) : IO UInt32 := do
  match CanonTree.Cli.Command.ofArgs? args with
  | some command => CanonTree.Cli.perform command
  | none => do
    IO.eprint CanonTree.Cli.Topic.program.text
    return 2
