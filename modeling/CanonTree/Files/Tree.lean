import CanonTree.Files.Path

namespace CanonTree

/-- Files by the names on the way to them from the working directory, and directories that were made
by themselves. Whatever a file lies in is a directory too. A walk gets stuck at what is blocked: a
link that leads nowhere, or one of the directories, if it may not be listed or leads back to one
above. -/
structure Files where
  files : List (List String × ByteArray) := []
  directories : List (List String) := []
  blocked : List (List String) := []

namespace Files

open CanonTree.Path (Component)

def isProperBeginning (a b : List String) : Bool := a.isPrefixOf b && a.length < b.length

def isDirAt (fs : Files) (place : List String) : Bool :=
  place.isEmpty || fs.directories.any place.isPrefixOf ||
    fs.files.any (isProperBeginning place ·.1) || fs.blocked.any (isProperBeginning place)

def contentAt? (fs : Files) (place : List String) : Option ByteArray :=
  (fs.files.find? (·.1 = place)).map (·.2)

/-- The place that a component leads to. Above the working directory there are only ways up. -/
def step (place : List String) : Component → List String
  | .root => ["/"]
  | .current => place
  | .parent =>
    if place = ["/"] then place
    else if place.all (· = "..") then place ++ [".."]
    else place.dropLast
  | .normal n => place ++ [n]

/-- Follows components from a place; going up is possible from directories only. -/
def follow (fs : Files) : List Component → List String → Option (List String)
  | [], place => some place
  | c :: cs, place =>
    if c = .parent && !fs.isDirAt place then none else follow fs cs (step place c)

/-- Whether the spelling of a path says that a directory must stand there. -/
def asksForDirectory (path : String) : Bool :=
  path.endsWith "/" || path.endsWith "/." || path.endsWith "/.."

def resolve? (fs : Files) (path : String) : Option (List String) := do
  let place ← if path.isEmpty then none else fs.follow (Path.components path) []
  if asksForDirectory path && !fs.isDirAt place then none else some place

def isDir (fs : Files) (path : String) : Bool := (fs.resolve? path).any fs.isDirAt

def content? (fs : Files) (path : String) : Option ByteArray :=
  (fs.resolve? path).bind fs.contentAt?

def isFile (fs : Files) (path : String) : Bool := (fs.content? path).isSome

def has (fs : Files) (path : String) : Bool := Path.fits path && (fs.isDir path || fs.isFile path)

/-- How a walk that began at a directory, by this path, names a place below it. -/
def spell (path : String) (dir place : List String) : String :=
  Path.join path ("/".intercalate (place.drop dir.length))

def below (fs : Files) (path : String) : List String :=
  match fs.resolve? path with
  | none => []
  | some dir => (fs.files.filter fun f => isProperBeginning dir f.1).map fun f => spell path dir f.1

/-- The innermost directories: what files and blocked entries lie in, and those made by
themselves. -/
def innermost (fs : Files) : List (List String) :=
  fs.files.map (·.1.dropLast) ++ fs.blocked.map (·.dropLast) ++ fs.directories

/-- A walk from the directory on comes to its end: it meets nothing blocked, and every directory is
listed by a path that is not too long. -/
def isOpen (fs : Files) (path : String) : Bool :=
  (fs.resolve? path).all fun dir =>
    !fs.blocked.any dir.isPrefixOf &&
      fs.innermost.all fun place => !isProperBeginning dir place || Path.fits (spell path dir place)

def walk? (fs : Files) (path : String) : Option (List String) :=
  if fs.isOpen path then some (fs.below path) else none

inductive ReadError where
  | tooLong | missing | directory | notText
deriving DecidableEq

def ReadError.message : ReadError → String
  | tooLong => "File name too long (os error 36)"
  | missing => "No such file or directory (os error 2)"
  | directory => "Is a directory (os error 21)"
  | notText => "stream did not contain valid UTF-8"

def read (fs : Files) (path : String) : Except ReadError String :=
  if !Path.fits path then .error .tooLong
  else match fs.content? path with
    | some bytes =>
      match String.fromUTF8? bytes with
      | some text => .ok text
      | none => .error .notText
    | none => .error (if fs.isDir path then .directory else .missing)

def write? (fs : Files) (path content : String) : Option Files := do
  let place ← if Path.creatable path then fs.resolve? path else none
  if place.isEmpty || fs.isDirAt place || !fs.isDirAt place.dropLast then none
  else
    let kept := fs.files.filter (·.1 ≠ place)
    some { fs with files := kept ++ [(place, content.toUTF8)] }

def makeDirAt? (fs : Files) (place : List String) : Option Files :=
  if (fs.contentAt? place).isSome then none
  else if fs.isDirAt place then some fs
  else if fs.blocked.contains place then none
  else some { fs with directories := place :: fs.directories }

def makeDirsOn? : List Component → List String → Files → Option Files
  | [], _, fs => some fs
  | c :: cs, place, fs => (fs.makeDirAt? (step place c)).bind (makeDirsOn? cs (step place c))

def makeDirs? (fs : Files) (path : String) : Option Files :=
  if Path.creatable path then makeDirsOn? (Path.components path) [] fs else none

def changes (before after : Files) : List (String × ByteArray) :=
  (after.files.filter fun f => before.contentAt? f.1 != some f.2).map fun f =>
    ("/".intercalate f.1, f.2)

end Files
end CanonTree
