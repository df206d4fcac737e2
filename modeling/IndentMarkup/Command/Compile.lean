import IndentMarkup.Command.Basic

/-!
# The command `compile`

Compiles template files and prints their markup, or writes it into a directory.
-/

namespace IndentMarkup.Command

structure CompileRequest where
  files : List Path
  out : Given Path
  pretty : Option Bool
  separator : Given Text
  marker : Given Text

namespace CompileRequest

def empty : CompileRequest := ⟨[], .absent, none, .absent, .absent⟩

def setOut : Effect CompileRequest := .setting (fun s => some (Path.ofText s)) fun out r => { r with out }

def form : Form CompileRequest where
  options := [
    ("-h".toList, .help),
    ("--help".toList, .help),
    ("--out".toList, setOut),
    ("-o".toList, setOut),
    ("--pretty".toList, .flag fun r => { r with pretty := some true }),
    ("--separator".toList, .setting some fun separator r => { r with separator }),
    ("--marker".toList, .setting some fun marker r => { r with marker })]
  operands := some fun files r => { r with files := files.map .ofText }

/-- The options for compiling that a request gives. One that is emptied counts as not given. -/
def options (r : CompileRequest) (s : Settings) : BatchOptions :=
  .ofSettings s r.separator.value? r.marker.value? r.pretty

def destination (r : CompileRequest) : Destination :=
  match r.out with
  | .absent => .answer
  | .emptied => .unusable (.arr [])
  | .value directory => .directory directory

end CompileRequest

def compileHelp : List String := [
  "usage: winbuilder compile [-h] [--out OUT] [--pretty] [--separator SEPARATOR]",
  "                          [--marker MARKER]",
  "                          files [files ...]",
  "",
  "Compile templates to HTML.",
  "",
  "positional arguments:",
  "  files                 Template files to compile.",
  "",
  "options:",
  "  -h, --help            show this help message and exit",
  "  --out OUT, -o OUT     Directory for the generated .html files.",
  "  --pretty              Indent the generated HTML.",
  "  --separator SEPARATOR",
  "                        Symbol separating attributes inside brackets.",
  "  --marker MARKER       Character used for indentation."]

def productLines (p : Product) : List Text :=
  let shown :=
    match p.output with
    | none => p.markup
    | some output => "✅ ".toList ++ p.source.text ++ " -> ".toList ++ output.text ++ rootCount p.roots
  let skipped :=
    if p.diagnostics.isEmpty then []
    else ["⚠️  ".toList ++ p.source.text ++ ": ".toList ++ natText p.diagnostics.length ++
      " token(s) skipped".toList]
  shown :: skipped

/-- The fault that ends the program, if a fault of a batch does. Failures of the file system and values of
the wrong kind do; all others the command reports itself. -/
def unhandled? : BatchFault → Option Fault
  | .file .nul => none
  | .file f => some (.file f)
  | .kind f => some (.kind f)
  | _ => none

def compilationRecord (message : Text) : Log.Record :=
  ⟨Log.error, "winbuilder.core.handlers.compile_handler".toList,
    "Compilation failed: ".toList ++ message⟩

def compileFiles (r : Resources) (request : CompileRequest) : Reply :=
  let step := (request.options r.settings).compileFiles request.destination r.files request.files
  let r := { r with files := step.files }
  match step.result with
  | .ok products => { r.reply (products.flatMap productLines) 0 with records := step.records }
  | .error f =>
    match unhandled? f with
    | some f => { r.stop f with records := step.records }
    | none =>
      { r.reply [failureLine f.message] 1 with
        records := step.records ++ [compilationRecord f.message] }

def missingFiles (files : FileSystem) (paths : List Path) : Except FileFault (List Path) :=
  paths.filterM fun p => return !(← files.isFile p)

/-- Carries out a request. All files must exist before the first one is compiled. -/
def compileExisting (r : Resources) (request : CompileRequest) : Reply :=
  match missingFiles r.files request.files with
  | .error f => r.stop (.file f)
  | .ok [] => compileFiles r request
  | .ok missing =>
    r.reply [failureLine ("File(s) not found: ".toList ++ Text.join ", ".toList (missing.map Path.text))] 1

def compile (r : Resources) (arguments : List Text) : Reply :=
  match CompileRequest.form.read .empty arguments with
  | .error e => r.refuse compileHelp e
  | .ok request => compileExisting r request

end IndentMarkup.Command
