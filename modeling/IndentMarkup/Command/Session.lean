import IndentMarkup.Command.Compile
import IndentMarkup.Command.Config
import IndentMarkup.Command.Window

/-!
# Sessions

A session runs command lines one after another. Overrides of settings in front of a command, the levels of
the loggers, the files and the supply of digits stay for the later runs. A report is shown if the levels at
its time let it through, so overrides are reported under the levels of the run before.
-/

namespace IndentMarkup.Command

structure Session where
  settings : Settings
  levels : Log.Levels
  /-- Whether the commands are registered. -/
  registered : Bool
  files : FileSystem
  supply : DigitSupply

structure Run where
  session : Session
  output : Text
  records : List Log.Record
  ending : Except Fault Nat

def commands : List (String × (Resources → List Text → Reply)) := [
  ("compile", compile),
  ("window", window),
  ("config", config)]

def helpLines : List String := [
  "Commands:",
  "compile <file>... [--out DIR] [--pretty] [--separator S] [--marker M]",
  "                      Compiles template files to HTML. Prints to stdout unless",
  "                      --out is given, in which case <stem>.html files are written."] ++
  configUsage ++ [
  "window [--title T] [--width W] [--height H] [--body FILE] [--pretty]",
  "                      Builds a window skeleton (menu bar + body) and prints its HTML.",
  "                      The optional body template is nested inside the window body."]

def usageLine : Text := "Usage: winbuilder [--set KEY=VALUE]... <command> [args]".toList

def helpWords : List String := ["-h", "--help", "help"]

/-- What the overrides in front of a command leave: the settings and the reports, and the other arguments or
the lines that are printed instead. -/
structure Overrides where
  settings : Settings
  records : List Log.Record
  rest : Except (List Text) (List Text)

/-- Applies the overrides in front of a command, up to the first one that is malformed or that a value is in
the way of. -/
def applyOverrides (s : Settings) : List Text → Overrides
  | [] => ⟨s, [], .ok []⟩
  | first :: rest =>
    if first = "--set".toList then
      match rest with
      | [] => ⟨s, [], .error [usageLine]⟩
      | item :: rest =>
        match item.cutAt? '=' with
        | none => ⟨s, [], .error [usageLine]⟩
        | some (key, v) =>
          match s.set key.trim (.str v) with
          | (s, true, records) =>
            let others := applyOverrides s rest
            { others with records := records ++ others.records }
          | (s, false, records) => ⟨s, records, .error []⟩
    else ⟨s, [], .ok (first :: rest)⟩

def commandRecord (name : String) : Log.Record :=
  ⟨Log.debug, "winbuilder.core.command_registry".toList,
    "Registered command '".toList ++ name.toList ++ "'".toList⟩

def runningRecord (name : Text) (arguments : List Text) : Log.Record :=
  ⟨Log.debug, "winbuilder.app".toList,
    "Running '".toList ++ name ++ "' with ".toList ++ (Json.arr (arguments.map .str)).shown⟩

namespace Session

def resources (s : Session) : Resources := ⟨s.settings, s.files, s.supply⟩

def shown (s : Session) (records : List Log.Record) : List Log.Record := records.filter s.levels.shows

def help : List Text := helpLines.map String.toList

def dispatch (s : Session) (arguments : List Text) : Reply :=
  let r := s.resources
  match arguments with
  | [] => r.reply help 1
  | name :: rest =>
    if helpWords.contains (String.ofList name) then r.reply help 0
    else
      match commands.lookup (String.ofList name) with
      | none => r.reply (("Unknown command: '".toList ++ name ++ "'.".toList) :: help) 1
      | some command =>
        let reply := command r rest
        { reply with records := runningRecord name rest :: reply.records }

def configureLevels (s : Session) : Session × Option Log.LevelFault :=
  let general := s.settings.valueOr "debug.level" (.str "WARNING".toList)
  let modules := s.settings.valueOr "debug.modules" .null
  let silenced := s.settings.valueOr "debug.silenced" .null
  let (levels, fault) := s.levels.configure general modules silenced
  ({ s with levels }, fault)

def runCommand (s : Session) (arguments : List Text) : Run :=
  match s.configureLevels with
  | (s, some f) => ⟨s, [], [], .error (.levels f)⟩
  | (s, none) =>
    let registrations := if s.registered then [] else commands.map fun c => commandRecord c.1
    let reply := s.dispatch arguments
    { session := { s with registered := true, files := reply.files, supply := reply.supply }
      output := reply.output
      records := s.shown (registrations ++ reply.records)
      ending := reply.ending }

def run (s : Session) (arguments : List Text) : Run :=
  let o := applyOverrides s.settings arguments
  let earlier := s.shown o.records
  let s := { s with settings := o.settings }
  match o.rest with
  | .error lines => ⟨s, lines.flatMap fun l => l ++ ['\n'], earlier, .ok 1⟩
  | .ok rest =>
    let r := s.runCommand rest
    { r with records := earlier ++ r.records }

end Session

end IndentMarkup.Command
