import IndentMarkup.Log.Record
import IndentMarkup.Settings.Convert

/-!
# Settings

Settings are an object whose sections are objects again. A key such as `window.width` names the sections on
the way to a value. A null counts as no value.
-/

namespace IndentMarkup

abbrev Settings := Pairs Json

def lookUp : List Text → Json → Json
  | [], v => v
  | name :: rest, .obj members => lookUp rest ((Pairs.get? name members).getD .null)
  | _ :: _, _ => .null

def keyNames (key : Text) : List Text := Text.splitAtChar '.' key

namespace Settings

def value? (s : Settings) (key : Text) : Option Json :=
  match lookUp (keyNames key) (.obj s) with
  | .null => none
  | v => some v

def valueOr (s : Settings) (key : String) (other : Json) : Json := (s.value? key.toList).getD other

/-- Puts a value at the end of a path through sections. Missing sections are made. A value in the way is
named and nothing is changed. -/
def putAt (v : Json) (name : Text) : List Text → Settings → Except Text Settings
  | [], s => .ok (s.put name v)
  | next :: rest, s =>
    match s.get? name with
    | none => (putAt v next rest []).map fun inner => s.put name (.obj inner)
    | some (.obj inner) => (putAt v next rest inner).map fun inner => s.put name (.obj inner)
    | some _ => .error name

/-- What a key is overridden with: a text is converted to the kind of the value that it replaces. A text
that cannot be converted stands as it is. -/
def replacement (current given : Json) : Except ConversionFault Json :=
  match current, given with
  | .null, _ => .ok given
  | _, .str s => convertLike current s
  | _, _ => .ok given

def logger : Text := "winbuilder.core.managers.config_manager".toList

def blockedRecord (key name : Text) : Log.Record :=
  ⟨Log.error, logger,
    "Cannot set '".toList ++ key ++ "': '".toList ++ name ++ "' is a value, not a section.".toList⟩

def keptRecord (key : Text) (current given : Json) : Log.Record :=
  ⟨Log.warning, logger,
    '\'' :: key ++ "' expects a ".toList ++ current.kind.toList ++ "; keeping ".toList ++ given.shown ++
      " as text.".toList⟩

def overrideRecord (key : Text) (v : Json) : Log.Record :=
  ⟨Log.info, logger, "Setting override: ".toList ++ key ++ " = ".toList ++ v.shown⟩

def set (s : Settings) (key : Text) (given : Json) : Settings × Bool × List Log.Record :=
  let names := keyNames key
  let current := lookUp names (.obj s)
  let (v, kept) :=
    match replacement current given with
    | .ok v => (v, [])
    | .error _ => (given, [keptRecord key current given])
  match putAt v (names.headD []) names.tail s with
  | .ok changed => (changed, true, kept ++ [overrideRecord key v])
  | .error name => (s, false, [blockedRecord key name])

def shipped : Settings := [
  ("debug".toList, .obj [
    ("level".toList, .str "WARNING".toList),
    ("modules".toList, .obj [("htmlbuilder".toList, .str "WARNING".toList)]),
    ("silenced".toList, .obj [])]),
  ("builder".toList, .obj [
    ("indent_marker".toList, .str ">".toList),
    ("attribute_separator".toList, .str ";".toList)]),
  ("compile".toList, .obj [
    ("pretty".toList, .bool false),
    ("output_suffix".toList, .str ".html".toList)]),
  ("window".toList, .obj [
    ("title".toList, .str "Window".toList),
    ("width".toList, .int 800),
    ("height".toList, .int 462),
    ("min_width".toList, .int 300),
    ("min_height".toList, .int 100)])]

end Settings

end IndentMarkup
