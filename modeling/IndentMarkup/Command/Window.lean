import IndentMarkup.Command.Basic
import IndentMarkup.Markup.Writer

/-!
# The command `window`

Builds a window, with a template for its body if one is given, and prints its markup.
-/

namespace IndentMarkup.Command

structure WindowRequest where
  title : Given Text
  width : Given Int
  height : Given Int
  body : Given Path
  pretty : Bool

namespace WindowRequest

def empty : WindowRequest := ⟨.absent, .absent, .absent, .absent, false⟩

def readSize (s : Text) : Option Int := (readInteger s).toOption

def form : Form WindowRequest where
  options := [
    ("-h".toList, .help),
    ("--help".toList, .help),
    ("--title".toList, .setting some fun title r => { r with title }),
    ("--width".toList, .setting readSize fun width r => { r with width }),
    ("--height".toList, .setting readSize fun height r => { r with height }),
    ("--body".toList, .setting (fun s => some (Path.ofText s)) fun body r => { r with body }),
    ("--pretty".toList, .flag fun r => { r with pretty := true })]
  operands := none

/-- A size: the one that is given, or the setting for it. A text in the settings must be an integer. -/
def size (given : Given Int) (setting : Json) : Except Refusal Json :=
  match given, setting with
  | .value i, _ => .ok (.int i)
  | .emptied, _ => .ok (.arr [])
  | .absent, .str s =>
    match readInteger s with
    | .ok i => .ok (.int i)
    | .error _ => .error .misuse
  | .absent, v => .ok v

def titleOr (r : WindowRequest) (setting : Json) : Json :=
  match r.title with
  | .absent => setting
  | .emptied => .arr []
  | .value s => .str s

end WindowRequest

def windowHelp : List String := [
  "usage: winbuilder window [-h] [--title TITLE] [--width WIDTH]",
  "                         [--height HEIGHT] [--body BODY] [--pretty]",
  "",
  "Generate a window skeleton.",
  "",
  "options:",
  "  -h, --help       show this help message and exit",
  "  --title TITLE",
  "  --width WIDTH",
  "  --height HEIGHT",
  "  --body BODY      Template file for the window body.",
  "  --pretty"]

def bodyRecord (message : Text) : Log.Record :=
  ⟨Log.error, "winbuilder.core.handlers.window_handler".toList,
    "Could not build the window body: ".toList ++ message⟩

/-- Builds a window of its own and prints its markup. A malformed body is reported; other faults end the
program. -/
def showWindow (r : Resources) (spec : WindowSpec) (pretty : Bool) (body : Text) : Reply :=
  let (desk, index) := (Desk.new r.supply).newWindow spec
  let r := { r with supply := desk.supply }
  match index with
  | .error f => r.stop (.kind f)
  | .ok index =>
    match desk.windows[index]? with
    | none => r.reply [] 0
    | some w =>
      let step := w.build desk.document body
      let records := Desk.newWindowRecords index ++ step.records
      match step.failure with
      | some (.compile (.malformedLine line number)) =>
        let message := (CompileFault.malformedLine line number).message
        { r.reply [failureLine message] 1 with records := records ++ [bodyRecord message] }
      | some f => { r.stop (.window f) with records }
      | none =>
        let trees := step.window.node.toList.map step.document.tree
        { r.reply [Tree.markup pretty trees] 0 with records }

def bodyText (r : Resources) : Option Path → Except Reply Text
  | none => .ok []
  | some p =>
    match r.files.isFile p with
    | .error f => .error (r.stop (.file f))
    | .ok false => .error (r.reply [failureLine ("File not found: ".toList ++ p.text)] 1)
    | .ok true =>
      match r.files.read p with
      | .error f => .error (r.stop (.file f))
      | .ok content => (readText content).mapError fun f => r.stop (.encoding f)

def windowSpec (s : Settings) (request : WindowRequest) : Except Refusal WindowSpec := do
  let usual := WindowSpec.default
  .ok {
    title := request.titleOr (s.valueOr "window.title" usual.title)
    width := ← WindowRequest.size request.width (s.valueOr "window.width" usual.width)
    height := ← WindowRequest.size request.height (s.valueOr "window.height" usual.height)
    minWidth := s.valueOr "window.min_width" usual.minWidth
    minHeight := s.valueOr "window.min_height" usual.minHeight
    parent := none }

def readWindowRequest (s : Settings) (arguments : List Text) :
    Except Refusal (WindowRequest × WindowSpec) := do
  let request ← WindowRequest.form.read .empty arguments
  .ok (request, ← windowSpec s request)

def window (r : Resources) (arguments : List Text) : Reply :=
  match readWindowRequest r.settings arguments with
  | .error e => r.refuse windowHelp e
  | .ok (request, spec) =>
    match bodyText r request.body.value? with
    | .error reply => reply
    | .ok body => showWindow r spec request.pretty body

end IndentMarkup.Command
