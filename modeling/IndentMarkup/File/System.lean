import IndentMarkup.File.Path
import IndentMarkup.Text.Utf8

/-!
# Files

The files and directories that a run of the program can see, as a value: each is found under the names on
the way to it from the root, and relative paths start at the working directory. Reading and writing fail as a
file system fails, and a failure shows the path as it was given.
-/

namespace IndentMarkup

inductive Entry where
  | file (content : Bytes)
  | directory
  deriving DecidableEq, Repr

abbrev Place := List Text

structure FileSystem where
  workingDirectory : Place
  entries : List (Place × Entry)
  deriving Repr

inductive FileError where
  | notFound
  | alreadyExists
  | notADirectory
  | isADirectory
  | nameTooLong
  deriving DecidableEq, Repr

inductive FileFault where
  /-- The file system refuses the path that it was asked for. -/
  | refused (error : FileError) (path : Path)
  /-- The path holds a NUL and does not reach the file system. -/
  | nul
  deriving DecidableEq, Repr

def FileError.number : FileError → Nat
  | notFound => 2
  | alreadyExists => 17
  | notADirectory => 20
  | isADirectory => 21
  | nameTooLong => 36

def FileError.message : FileError → Text
  | notFound => "No such file or directory".toList
  | alreadyExists => "File exists".toList
  | notADirectory => "Not a directory".toList
  | isADirectory => "Is a directory".toList
  | nameTooLong => "File name too long".toList

def FileFault.message : FileFault → Text
  | refused error path =>
    "[Errno ".toList ++ natText error.number ++ "] ".toList ++ error.message ++ ": ".toList ++
      path.text.quoted
  | nul => "embedded null byte".toList

def nameLimit : Nat := 255

def pathLimit : Nat := 4095

namespace FileSystem

def entry? (fs : FileSystem) (place : Place) : Option Entry :=
  if place.isEmpty then some .directory else fs.entries.lookup place

def put (fs : FileSystem) (place : Place) (entry : Entry) : FileSystem :=
  { fs with entries := (place, entry) :: fs.entries.filter (·.1 ≠ place) }

/-- The place that the names lead to from a directory. Every step, also a step up, is taken from a
directory that stands, and under a name that is not too long. -/
def walk (fs : FileSystem) (here : Place) : List Text → Except FileError Place
  | [] => .ok here
  | name :: rest =>
    match fs.entry? here with
    | none => .error .notFound
    | some (.file _) => .error .notADirectory
    | some .directory =>
      if nameLimit < (Utf8.encode name).length then .error .nameTooLong
      else fs.walk (if name = ['.', '.'] then here.dropLast else here ++ [name]) rest

def locate (fs : FileSystem) (p : Path) : Except FileFault Place :=
  if p.text.contains '\x00' then .error .nul
  else if pathLimit < (Utf8.encode p.text).length then .error (.refused .nameTooLong p)
  else (fs.walk (if p.root.isEmpty then fs.workingDirectory else []) p.names).mapError (.refused · p)

/-- What stands at a path. To look at a path that leads nowhere is no failure, unless a name is too long. -/
def find? (fs : FileSystem) (p : Path) : Except FileFault (Option Entry) :=
  match fs.locate p with
  | .ok place => .ok (fs.entry? place)
  | .error (.refused .nameTooLong p) => .error (.refused .nameTooLong p)
  | .error _ => .ok none

def isFile (fs : FileSystem) (p : Path) : Except FileFault Bool := do
  match ← fs.find? p with
  | some (.file _) => return true
  | _ => return false

def read (fs : FileSystem) (p : Path) : Except FileFault Bytes := do
  match fs.entry? (← fs.locate p) with
  | some (.file content) => .ok content
  | some .directory => .error (.refused .isADirectory p)
  | none => .error (.refused .notFound p)

/-- Writes a file, which may stand already, into a directory that stands. -/
def write (fs : FileSystem) (p : Path) (content : Bytes) : Except FileFault FileSystem := do
  let place ← fs.locate p
  match fs.entry? place with
  | some .directory => .error (.refused .isADirectory p)
  | _ => .ok (fs.put place (.file content))

def makeDirectory (fs : FileSystem) (p : Path) : Except FileFault FileSystem := do
  let place ← fs.locate p
  match fs.entry? place with
  | some _ => .error (.refused .alreadyExists p)
  | none => .ok (fs.put place .directory)

def ensureDirectory (fs : FileSystem) (p : Path) : Except FileFault FileSystem :=
  match fs.makeDirectory p, fs.find? p with
  | .error _, .ok (some .directory) => .ok fs
  | result, _ => result

def makeDirectoriesTo (fs : FileSystem) (p : Path) : Nat → Except FileFault FileSystem
  | 0 => fs.ensureDirectory { p with names := [] }
  | count + 1 =>
    let here : Path := { p with names := p.names.take (count + 1) }
    match fs.ensureDirectory here with
    | .error (.refused .notFound _) => do (← fs.makeDirectoriesTo p count).ensureDirectory here
    | result => result

def makeDirectories (fs : FileSystem) (p : Path) : Except FileFault FileSystem :=
  fs.makeDirectoriesTo p p.names.length

def plant (fs : FileSystem) (place : Place) (entry : Entry) : FileSystem :=
  let ways := (List.range (place.length - 1)).map fun i => place.take (i + 1)
  (ways.foldl (fun fs way => if (fs.entry? way).isSome then fs else fs.put way .directory) fs).put place entry

def empty (workingDirectory : Place) : FileSystem := plant ⟨workingDirectory, []⟩ workingDirectory .directory

/-- The entries that are new or changed since an earlier state, the latest first. -/
def changesSince (fs earlier : FileSystem) : List (Place × Entry) :=
  fs.entries.filter fun (place, entry) => earlier.entry? place ≠ some entry

end FileSystem

end IndentMarkup
