import IndentMarkup.Settings.Basic

/-!
# Settings of the wrong kind

Settings may hold any value under any key. A value that is used in a way that its kind does not allow is a
fault, which arises only when the value is used.
-/

namespace IndentMarkup

inductive KindFault where
  /-- Its members are needed and it is no object. -/
  | noMembers (given : Json)
  /-- It is trimmed and it is no text. -/
  | noTrimming (given : Json)
  /-- It is tested for white space and it is no text. -/
  | noBlankTest (given : Json)
  /-- It has no length. -/
  | noLength (given : Json)
  /-- It separates a text and it is no text. -/
  | noSeparator (given : Json)
  /-- It is written behind a text and it is no text. -/
  | noSuffix (given : Json)
  /-- It is made a directory and it is no path. -/
  | noDirectory (given : Json)
  /-- It is called and it is no script. -/
  | noCall (given : Json)

def KindFault.message : KindFault → Text
  | noMembers v => '\'' :: v.kind.toList ++ "' object has no attribute 'items'".toList
  | noTrimming v => '\'' :: v.kind.toList ++ "' object has no attribute 'strip'".toList
  | noBlankTest v => '\'' :: v.kind.toList ++ "' object has no attribute 'isspace'".toList
  | noLength v => "object of type '".toList ++ v.kind.toList ++ "' has no len()".toList
  | noSeparator v => "must be str or None, not ".toList ++ v.kind.toList
  | noDirectory v => '\'' :: v.kind.toList ++ "' object has no attribute 'mkdir'".toList
  | noCall v => '\'' :: v.kind.toList ++ "' object is not callable".toList
  | noSuffix v => "can only concatenate str (not \"".toList ++ v.kind.toList ++ "\") to str".toList

def Json.length? : Json → Option Nat
  | .str s => some s.length
  | .arr items => some items.length
  | .obj members => some members.length
  | _ => none

end IndentMarkup
