import IndentMarkup.Command.Session

/-!
# The program

One run of a session on the arguments of the program. The files that the arguments may name are looked at
before the run, and what the run changes is written behind it. Everything in between is
`IndentMarkup.Command.Session.run`.
-/

namespace IndentMarkup.Program

def placeText (place : Place) : String := String.ofList ('/' :: Text.join ['/'] place)

def placesAlong (here : Place) : List Text → List Place
  | [] => []
  | name :: rest =>
    let next := if name = ['.', '.'] then here.dropLast else here ++ [name]
    next :: placesAlong next rest

/-- The texts in an argument that may be paths: the argument itself, what follows its equals sign, and what
follows an option of one letter. -/
def pathTexts (argument : Text) : List Text :=
  let behind :=
    match argument.cutAt? '=' with
    | some (_, value) => [value]
    | none => []
  argument :: argument.drop 2 :: behind

def placesOf (workingDirectory : Place) (arguments : List Text) : List Place :=
  (arguments.flatMap pathTexts).flatMap fun s =>
    let p := Path.ofText s
    placesAlong (if p.root.isEmpty then workingDirectory else []) p.names

def look (place : Place) : IO (Option Entry) := do
  try
    let content ← IO.FS.readBinFile (placeText place)
    return some (.file content.toList)
  catch e =>
    match e with
    | .inappropriateType .. => return some .directory
    | _ => return none

def lookAround (workingDirectory : Place) (arguments : List Text) : IO FileSystem := do
  let mut files := FileSystem.empty workingDirectory
  for place in placesOf workingDirectory arguments do
    if let some entry ← look place then
      files := files.plant place entry
  return files

def settle (earlier files : FileSystem) : IO Unit := do
  for (place, entry) in (files.changesSince earlier).reverse do
    match entry with
    | .file content => IO.FS.writeBinFile (placeText place) ⟨content.toArray⟩
    | .directory => IO.FS.createDirAll (placeText place)

def randomDigits : IO DigitSupply := do
  let mut digits : Text := []
  for _ in [0:6] do
    digits := Char.ofNat (48 + (← IO.rand 0 9)) :: digits
  return ⟨digits, 0⟩

def run (arguments : List Text) : IO UInt32 := do
  let workingDirectory := (Path.ofText (toString (← IO.currentDir)).toList).names
  let files ← lookAround workingDirectory arguments
  let session : Command.Session := ⟨Settings.shipped, .initial, false, files, ← randomDigits⟩
  let answer := session.run arguments
  settle files answer.session.files
  for r in answer.records do
    IO.eprintln (String.ofList r.line)
  IO.print (String.ofList answer.output)
  match answer.ending with
  | .ok exit => return exit.toUInt32
  | .error f =>
    IO.eprintln (String.ofList f.message)
    return 1

end IndentMarkup.Program

def main (arguments : List String) : IO UInt32 := IndentMarkup.Program.run (arguments.map String.toList)
