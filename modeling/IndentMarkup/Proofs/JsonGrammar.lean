import IndentMarkup.Json.Reader

/-!
# The grammar of JSON

What a text denotes, told without reading it from left to right: numbers and strings are put together of their parts
(`Numeral`, `Piece`), and arrays and objects of the texts of their items (`Denotes`). A text that leaves arrays and
objects open may go on with a value (`Opens`). Integers of any length are part of the grammar. One that is longer than
integers may be, in front of which the text is fit to be read, is met by a reader (`MeetsOverlong`).
-/

namespace IndentMarkup.Json

/-! ## Numbers -/

structure Digits where
  chars : Text
  ne_nil : chars ≠ []
  isDigit : ∀ c ∈ chars, c.isDigit

inductive Sign where
  | absent
  | plus
  | minus

namespace Sign

def text : Sign → Text
  | absent => []
  | plus => ['+']
  | minus => ['-']

def apply (n : Nat) : Sign → Int
  | minus => -n
  | _ => n

end Sign

structure Exponent where
  letter : Char
  isLetter : letter = 'e' ∨ letter = 'E'
  sign : Sign
  digits : Digits

/-- A number in its parts. Only the number zero begins with a zero in front of the point. -/
structure Numeral where
  negative : Bool
  whole : Digits
  head_ne_zero : whole.chars.head? = some '0' → whole.chars = ['0']
  fraction : Option Digits
  exponent : Option Exponent

def signText (negative : Bool) : Text := if negative then ['-'] else []

def fractionText : Option Digits → Text
  | none => []
  | some digits => '.' :: digits.chars

def exponentText : Option Exponent → Text
  | none => []
  | some e => e.letter :: (e.sign.text ++ e.digits.chars)

def power : Option Exponent → Int
  | none => 0
  | some e => e.sign.apply (digitsValue e.digits.chars)

namespace Numeral

def text (k : Numeral) : Text :=
  signText k.negative ++ (k.whole.chars ++ (fractionText k.fraction ++ exponentText k.exponent))

def IsInteger (k : Numeral) : Prop := k.fraction = none ∧ k.exponent = none

instance (k : Numeral) : Decidable k.IsInteger :=
  decidable_of_iff (k.fraction.isNone ∧ k.exponent.isNone) (by simp [IsInteger])

/-- The value of a number. Only integers are exact. -/
def value (k : Numeral) : Json :=
  if k.IsInteger then .int (if k.negative then -(digitsValue k.whole.chars : Int) else digitsValue k.whole.chars)
  else
    let part := (k.fraction.map Digits.chars).getD []
    .float (Binary64.ofDecimal k.negative (digitsValue (k.whole.chars ++ part)) (power k.exponent - part.length))

def IsOverlong (k : Numeral) : Prop := k.IsInteger ∧ digitLimit < k.whole.chars.length

instance (k : Numeral) : Decidable k.IsOverlong := inferInstanceAs (Decidable (_ ∧ _))

end Numeral

/-- What may stand between the digits of a number and further digits. -/
inductive Joins : Text → Prop
  | nothing : Joins []
  | point : Joins ['.']
  | exponent {letter : Char} (h : letter = 'e' ∨ letter = 'E') (sign : Sign) : Joins (letter :: sign.text)

/-- The text goes on with a number that ends in front of it. -/
def Continues (s : Text) : Prop := ∃ joint d r, Joins joint ∧ d.isDigit ∧ s = joint ++ d :: r

/-! ## Strings -/

def unit? (w x y z : Char) : Option Nat := do
  let a ← hexValue? w
  let b ← hexValue? x
  let c ← hexValue? y
  let d ← hexValue? z
  return ((a * 16 + b) * 16 + c) * 16 + d

/-- A part of a string: a character, a letter behind a backslash, or four digits behind `\u`. -/
inductive Piece where
  | plain (c : Char) (hquote : c ≠ '"') (hslash : c ≠ '\\') (hcontrol : 32 ≤ c.toNat)
  | letter (c e : Char) (h : escapeChar? c = some e)
  | code (w x y z : Char) (unit : Nat) (h : unit? w x y z = some unit)

namespace Piece

def text : Piece → Text
  | plain c _ _ _ => [c]
  | letter c _ _ => ['\\', c]
  | code w x y z _ _ => ['\\', 'u', w, x, y, z]

def unit : Piece → Char ⊕ Nat
  | plain c _ _ _ => .inl c
  | letter _ e _ => .inl e
  | code _ _ _ _ unit _ => .inr unit

end Piece

def IsHigh (unit : Nat) : Prop := 0xD800 ≤ unit ∧ unit ≤ 0xDBFF

def IsLow (unit : Nat) : Prop := 0xDC00 ≤ unit ∧ unit ≤ 0xDFFF

instance (unit : Nat) : Decidable (IsHigh unit) := inferInstanceAs (Decidable (_ ∧ _))

instance (unit : Nat) : Decidable (IsLow unit) := inferInstanceAs (Decidable (_ ∧ _))

def pairChar (high low : Nat) : Char := Char.ofNat (0x10000 + (high - 0xD800) * 0x400 + (low - 0xDC00))

/-- The character of a code unit that stands alone; a half of a pair is shown by the replacement character. -/
def loneChar (unit : Nat) : Char := if IsHigh unit ∨ IsLow unit then '\ufffd' else Char.ofNat unit

def joinUnits : List (Char ⊕ Nat) → Text
  | [] => []
  | .inl c :: rest => c :: joinUnits rest
  | .inr high :: .inr low :: rest =>
    if IsHigh high ∧ IsLow low then pairChar high low :: joinUnits rest
    else loneChar high :: joinUnits (.inr low :: rest)
  | .inr unit :: rest => loneChar unit :: joinUnits rest

def quoted (ps : List Piece) : Text := '"' :: (ps.flatMap Piece.text ++ ['"'])

def spelled (ps : List Piece) : Text := joinUnits (ps.map Piece.unit)

/-! ## Values -/

def IsBlanks (s : Text) : Prop := ∀ c ∈ s, isJsonBlank c

theorem isBlanks_nil : IsBlanks [] := by simp [IsBlanks]

def words : List (Text × Json) := [
  ("null".toList, .null), ("true".toList, .bool true), ("false".toList, .bool false), ("NaN".toList, .float .nan),
  ("Infinity".toList, .float (.infinite false)), ("-Infinity".toList, .float (.infinite true))]

structure Key where
  before : Text
  pieces : List Piece
  behind : Text
  isBlanks_before : IsBlanks before
  isBlanks_behind : IsBlanks behind

namespace Key

def text (k : Key) : Text := k.before ++ (quoted k.pieces ++ (k.behind ++ [':']))

def name (k : Key) : Text := spelled k.pieces

end Key

structure Member where
  key : Key
  text : Text
  value : Json

namespace Member

def written (m : Member) : Text := m.key.text ++ m.text

def entry (m : Member) : Text × Json := (m.key.name, m.value)

end Member

def commaEnded (parts : List Text) : Text := parts.flatMap (· ++ [','])

/-- The value that a text stands for. -/
inductive Denotes : Text → Json → Prop
  | blankBefore {c : Char} {s : Text} {v : Json} (hc : isJsonBlank c) (h : Denotes s v) : Denotes (c :: s) v
  | blankBehind {c : Char} {s : Text} {v : Json} (hc : isJsonBlank c) (h : Denotes s v) : Denotes (s ++ [c]) v
  | word {s : Text} {v : Json} (h : (s, v) ∈ words) : Denotes s v
  | number (k : Numeral) : Denotes k.text k.value
  | string (ps : List Piece) : Denotes (quoted ps) (.str (spelled ps))
  | emptyArray {b : Text} (hb : IsBlanks b) : Denotes ('[' :: (b ++ [']'])) (.arr [])
  | array {items : List (Text × Json)} {last : Text} {v : Json} (hitems : ∀ i ∈ items, Denotes i.1 i.2)
      (hlast : Denotes last v) : Denotes ('[' :: (commaEnded (items.map Prod.fst) ++ (last ++ [']'])))
        (.arr (items.map Prod.snd ++ [v]))
  | emptyObject {b : Text} (hb : IsBlanks b) : Denotes ('{' :: (b ++ ['}'])) (.obj [])
  | object {members : List Member} {last : Member} (hmembers : ∀ m ∈ members, Denotes m.text m.value)
      (hlast : Denotes last.text last.value) :
      Denotes ('{' :: (commaEnded (members.map Member.written) ++ (last.written ++ ['}'])))
        (.obj (Pairs.ofList ((members ++ [last]).map Member.entry)))

/-- A text in front of a value, with the arrays and objects that it leaves open. -/
inductive Opens : Text → List Open → Prop
  | nil : Opens [] []
  | blank {p : Text} {c : Char} {opened : List Open} (hc : isJsonBlank c) (h : Opens p opened) : Opens (p ++ [c]) opened
  | item {p : Text} {items : List (Text × Json)} {opened : List Open} (hitems : ∀ i ∈ items, Denotes i.1 i.2)
      (h : Opens p opened) :
      Opens (p ++ '[' :: commaEnded (items.map Prod.fst)) (.arr (items.map Prod.snd) :: opened)
  | member {p : Text} {members : List Member} {key : Key} {opened : List Open}
      (hmembers : ∀ m ∈ members, Denotes m.text m.value) (h : Opens p opened) :
      Opens (p ++ '{' :: (commaEnded (members.map Member.written) ++ key.text))
        (.obj (Pairs.ofList (members.map Member.entry)) key.name :: opened)

/-- Behind a text, where a value may stand, there is an integer of more digits than are read. -/
def MeetsOverlongBehind (p s : Text) (digits : Nat) : Prop :=
  ∃ opened k rest, s = p ++ (Numeral.text k ++ rest) ∧ Opens p opened ∧ k.IsOverlong ∧ ¬ Continues rest ∧
    digits = k.whole.chars.length

/-- The first integer of more digits than are read where a value may stand, with the number of its digits. -/
def MeetsOverlong (s : Text) (digits : Nat) : Prop :=
  ∃ p, MeetsOverlongBehind p s digits ∧ ∀ q other, ¬ MeetsOverlongBehind q p other

end IndentMarkup.Json
