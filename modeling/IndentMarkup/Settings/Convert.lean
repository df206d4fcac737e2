import IndentMarkup.Json.Writer
import IndentMarkup.Text.Case

/-!
# Values from words

A setting is overridden by a text, which is converted to the kind of the value that it replaces.
-/

namespace IndentMarkup

inductive ConversionFault where
  | notBoolean (given : Text)
  | notInteger (given : Text)
  | tooLong (digits : Nat)
  | notNumber (given : Text)
  | notTable
  deriving DecidableEq, Repr

/-- The wording of a fault. An integer is shown up to two hundred characters. -/
def ConversionFault.message : ConversionFault → Text
  | notBoolean given => "not a boolean: ".toList ++ given.quoted
  | notInteger given => "invalid literal for int() with base 10: ".toList ++ given.quoted.take 200
  | tooLong digits => tooLongMessage digits
  | notNumber given => "could not convert string to float: ".toList ++ given.quoted
  | notTable => "dictionary update sequence element #0 has length 1; 2 is required".toList

def trueWords : List String := ["1", "true", "yes", "on"]

def falseWords : List String := ["0", "false", "no", "off"]

def readBoolean? (s : Text) : Option Bool :=
  let word := String.ofList (Text.lowerAscii s.trim)
  if trueWords.contains word then some true else if falseWords.contains word then some false else none

def convertInteger (s : Text) : Except ConversionFault Int :=
  match readInteger s with
  | .ok i => .ok i
  | .error .malformed => .error (.notInteger s)
  | .error (.tooLong digits) => .error (.tooLong digits)

/-- The value of the kind of `like` that a text stands for. An array is made of the single characters, and
the empty text alone is an object. -/
def convertLike (like : Json) (s : Text) : Except ConversionFault Json :=
  match like with
  | .null | .str _ => .ok (.str s)
  | .bool _ =>
    match readBoolean? s with
    | some b => .ok (.bool b)
    | none => .error (.notBoolean s)
  | .int _ => (convertInteger s).map .int
  | .float _ =>
    match readFloat? s with
    | some f => .ok (.float f)
    | none => .error (.notNumber s)
  | .arr _ => .ok (.arr (s.map fun c => .str [c]))
  | .obj _ => if s.isEmpty then .ok (.obj []) else .error .notTable

end IndentMarkup
