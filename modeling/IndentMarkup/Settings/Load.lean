import IndentMarkup.File.System
import IndentMarkup.Json.Reader
import IndentMarkup.Settings.Basic

/-!
# Loading settings

The settings file holds one JSON object. A file that is missing, that cannot be read or that holds anything
else gives empty settings and a report; only bytes that are no text and integers of too many digits are
faults.
-/

namespace IndentMarkup

inductive LoadFault where
  | encoding (f : Utf8.Fault)
  | integerTooLong (digits : Nat)
  deriving DecidableEq, Repr

def LoadFault.message : LoadFault → Text
  | encoding f => f.message
  | integerTooLong digits => tooLongMessage digits

abbrev Loaded := Settings × List Log.Record

namespace Loaded

def missing (name : Text) : Loaded :=
  ([], [⟨Log.warning, Settings.logger,
    "No settings file at ".toList ++ name ++ ", using built-in defaults.".toList⟩])

def unreadable (name : Text) : Loaded :=
  ([], [⟨Log.error, Settings.logger, "Cannot read settings from ".toList ++ name⟩])

def ofJson (name : Text) : Json → Loaded
  | .obj members => (members, [⟨Log.debug, Settings.logger, "Loaded settings from ".toList ++ name⟩])
  | v =>
    ([], [⟨Log.error, Settings.logger,
      "Settings in ".toList ++ name ++ " must be a JSON object, got ".toList ++ v.kind.toList ++ ['.']⟩])

end Loaded

def loadSettings (name : Text) : Option Entry → Except LoadFault Loaded
  | none => .ok (.missing name)
  | some .directory => .ok (.unreadable name)
  | some (.file content) =>
    match readText content with
    | .error f => .error (.encoding f)
    | .ok s =>
      match Json.read s with
      | .ok v => .ok (.ofJson name v)
      | .error .malformed => .ok (.unreadable name)
      | .error (.tooLong digits) => .error (.integerTooLong digits)

inductive SettingsFault where
  /-- The file system does not look at the path. -/
  | path (f : FileFault)
  /-- The file at the path holds what is not loaded. -/
  | content (f : LoadFault)
  deriving DecidableEq, Repr

def FileSystem.loadSettings (fs : FileSystem) (p : Path) : Except SettingsFault Loaded :=
  match fs.find? p with
  | .ok entry => (IndentMarkup.loadSettings p.text entry).mapError .content
  | .error f => .error (.path f)

end IndentMarkup
