import IndentMarkup.Log.Record
import IndentMarkup.Settings.Kind
import IndentMarkup.Text.Case

/-!
# Levels of loggers

The settings say down to which level a logger reports. A logger without a level of its own reports as its
parent does, which is the nearest known logger whose name stands in front of a dot in its name; the last
parent is the root. Nothing is shown before the settings were applied for the first time.
-/

namespace IndentMarkup.Log

def levelWords : List (String × Int) := [
  ("NOTSET", 0), ("DEBUG", debug), ("INFO", info), ("WARN", warning), ("WARNING", warning), ("ERROR", error),
  ("CRITICAL", critical), ("FATAL", critical)]

inductive LevelFault where
  /-- The word for the level is reserved for the usual format of a record. -/
  | usualFormat
  /-- The word for the level is reserved for the styles of formats. -/
  | formatStyles
  /-- The levels are not given by name. -/
  | kind (f : KindFault)

def LevelFault.message : LevelFault → Text
  | usualFormat => "Unknown level: '%(levelname)s:%(name)s:%(message)s'".toList
  | formatStyles =>
    ("Level not an integer or a valid string: \x7b'%': (<class 'logging.PercentStyle'>, " ++
      "'%(levelname)s:%(name)s:%(message)s'), '\x7b': (<class 'logging.StrFormatStyle'>, " ++
      "'\x7blevelname\x7d:\x7bname\x7d:\x7bmessage\x7d'), '$': (<class 'logging.StringTemplateStyle'>, " ++
      "'$\x7blevelname\x7d:$\x7bname\x7d:$\x7bmessage\x7d')\x7d").toList
  | kind f => f.message

/-- The level that a setting stands for: a number, or a word in any case. Other settings stand for the
fallback. -/
def readLevel (fallback : Int) : Json → Except LevelFault Int
  | .int level => .ok level
  | .bool b => .ok (if b then 1 else 0)
  | v =>
    match String.ofList (Text.upper v.display) with
    | "BASIC_FORMAT" => .error .usualFormat
    | "_STYLES" => .error .formatStyles
    | word => .ok ((levelWords.lookup word).getD fallback)

/-- A logger that is known: its own level, which is zero if it has none, and the name of its parent. -/
structure Logger where
  level : Int
  parent : Text
  deriving Repr

structure Levels where
  root : Int
  /-- The known loggers besides the root. -/
  known : Pairs Logger
  /-- Whether records are shown at all. -/
  shown : Bool
  deriving Repr

def rootName : Text := "root".toList

def isRoot (name : Text) : Bool := name.isEmpty || name == rootName

/-- The names that the parents of a logger may have, the nearest first: what stands in front of a dot. A
first character is in front of no dot, and of two dots next to each other the first one does not count. -/
def parentNames : Nat → Text → List Text
  | 0, _ => []
  | steps + 1, name =>
    match name.cutAtLast? '.' with
    | some (c :: front, _) => (c :: front) :: parentNames steps (c :: front).dropLast
    | _ => []

def ancestorNames (name : Text) : List Text := parentNames name.length name

namespace Levels

def initial : Levels := ⟨warning, [], false⟩

/-- The parent of a logger that becomes known now: the nearest one that is known, else the root. -/
def parentOf (l : Levels) (name : Text) : Text :=
  ((ancestorNames name).find? fun p => (l.known.get? p).isSome).getD rootName

/-- Puts a new logger between a known one below it and the parent of that one, unless the name of that
parent begins with the name of the new logger. -/
def adopt (name below : Text) (g : Logger) : Logger :=
  if (ancestorNames below).contains name && !name.isPrefixOf g.parent then { g with parent := name } else g

def enter (l : Levels) (name : Text) : Levels :=
  if isRoot name || (l.known.get? name).isSome then l
  else
    let others : Pairs Logger := l.known.map fun (other, g) => (other, adopt name other g)
    { l with known := others.put name ⟨0, l.parentOf name⟩ }

def ownLevel (l : Levels) (name : Text) : Int :=
  if isRoot name then l.root else ((l.known.get? name).map Logger.level).getD 0

def levelAlong (l : Levels) : Nat → Text → Int
  | 0, _ => l.root
  | parents + 1, name =>
    if isRoot name then l.root
    else if l.ownLevel name ≠ 0 then l.ownLevel name
    else l.levelAlong parents (((l.known.get? name).map Logger.parent).getD (l.parentOf name))

def effective (l : Levels) (name : Text) : Int := l.levelAlong (name.length + 1) name

def setLevel (l : Levels) (name : Text) (level : Int) : Levels :=
  if isRoot name then { l with root := level }
  else
    let l := l.enter name
    { l with known := l.known.map fun (other, g) => (other, if other = name then { g with level } else g) }

def setEach (fallback : Int) (l : Levels) : List (Text × Json) → Levels × Option LevelFault
  | [] => (l, none)
  | (name, v) :: rest =>
    match readLevel fallback v with
    | .ok level => setEach fallback (l.setLevel name level) rest
    | .error f => (l.enter name, some f)

/-- Sets the levels that a setting gives by name. A setting that counts as false gives none. -/
def setAll (fallback : Int) (l : Levels) : Json → Levels × Option LevelFault
  | .obj members => setEach fallback l members
  | v => if v.isTrue then (l, some (.kind (.noMembers v))) else (l, none)

/-- Applies the settings for logging: the level of the root, the levels of modules, and the levels of the
loggers that are silenced. What was set before a fault stays. -/
def configure (l : Levels) (general modules silenced : Json) : Levels × Option LevelFault :=
  let l := { l with shown := true }
  match readLevel warning general with
  | .error f => (l, some f)
  | .ok level =>
    match setAll info { l with root := level } modules with
    | (l, some f) => (l, some f)
    | (l, none) => setAll critical l silenced

def shows (l : Levels) (r : Record) : Bool := l.shown && 0 < r.level && l.effective r.logger ≤ r.level

end Levels

end IndentMarkup.Log
