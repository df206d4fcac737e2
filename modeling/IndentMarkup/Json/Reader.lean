import IndentMarkup.Json.Basic
import IndentMarkup.Number.Notation

/-!
# Reading JSON

The reader takes a text one character at a time. Its state is what it is in the middle of (a string, a word
or number, or nothing), the arrays and objects that are still open, and what may come next. Besides the
standard language it knows the numbers `NaN`, `Infinity` and `-Infinity`. A name that occurs twice in an
object has its last value at its first place.
-/

namespace IndentMarkup.Json

inductive Fault where
  /-- It is not of the form of a value. -/
  | malformed
  /-- It holds an integer of more digits than are read. -/
  | tooLong (digits : Nat)
  deriving DecidableEq, Repr

inductive Open where
  | arr (items : List Json)
  | obj (members : Pairs Json) (name : Text)

inductive Expected where
  /-- A value. -/
  | value
  /-- The first item of an array, or its end. -/
  | firstItem
  /-- The first name of the members of an object, or its end. -/
  | firstName (members : Pairs Json)
  /-- A further name of the members of an object. -/
  | name (members : Pairs Json)
  /-- The colon behind a name. -/
  | colon (members : Pairs Json) (name : Text)
  /-- A comma or the end of the innermost array or object. -/
  | separator
  /-- Nothing: the value is complete. -/
  | nothing (value : Json)

/-- What the reader is in the middle of. The characters of a string and of a word are in reverse; `high` is
the first half of a surrogate pair. -/
inductive Inside where
  | nothing
  | word (chars : Text)
  | string (chars : Text) (high : Option Nat)
  | escape (chars : Text) (high : Option Nat)
  | code (chars : Text) (high : Option Nat) (digits : List Nat)

structure Reader where
  inside : Inside
  expected : Expected
  opened : List Open

def Reader.start : Reader := ⟨.nothing, .value, []⟩

def isJsonBlank (c : Char) : Bool := c == ' ' || c == '\t' || c == '\n' || c == '\r'

def isWordChar (c : Char) : Bool := c.isAlphanum || c == '+' || c == '-' || c == '.'

def Reader.complete (r : Reader) (v : Json) : Reader :=
  match r.opened with
  | [] => { r with inside := .nothing, expected := .nothing v }
  | .arr items :: rest => ⟨.nothing, .separator, .arr (items ++ [v]) :: rest⟩
  | .obj members name :: rest => ⟨.nothing, .separator, .obj (members.put name v) name :: rest⟩

def Expected.allowsValue : Expected → Bool
  | .value | .firstItem => true
  | _ => false

def takeDigits (s : Text) : Text × Text := s.span Char.isDigit

def takeFraction (s : Text) : Option Text × Text :=
  match s with
  | '.' :: r =>
    let (digits, rest) := takeDigits r
    if digits.isEmpty then (none, s) else (some digits, rest)
  | _ => (none, s)

def beginsExponent (s : Text) : Bool :=
  match s with
  | 'e' :: r | 'E' :: r =>
    match r with
    | '+' :: d :: _ | '-' :: d :: _ => d.isDigit
    | d :: _ => d.isDigit
    | [] => false
  | _ => false

/-- Reads a number. An integer has no fraction and no exponent. One of too many digits is a fault of its own,
whatever stands behind it. -/
def readNumber (s : Text) : Except Fault Json :=
  let (negative, body) := match s with | '-' :: r => (true, r) | _ => (false, s)
  let (whole, behind) := takeDigits body
  if whole.isEmpty ∨ (whole.head? = some '0' ∧ whole ≠ ['0']) then .error .malformed
  else
    let (fraction, rest) := takeFraction behind
    if fraction.isNone ∧ !beginsExponent rest then
      if digitLimit < whole.length then .error (.tooLong whole.length)
      else if !rest.isEmpty then .error .malformed
      else .ok (.int (if negative then -(digitsValue whole : Int) else digitsValue whole))
    else
      match readExponent? rest with
      | some power =>
        let part := fraction.getD []
        .ok (.float (Binary64.ofDecimal negative (digitsValue (whole ++ part)) (power - part.length)))
      | none => .error .malformed

def readWord (s : Text) : Except Fault Json :=
  match String.ofList s with
  | "null" => .ok .null
  | "true" => .ok (.bool true)
  | "false" => .ok (.bool false)
  | "NaN" => .ok (.float .nan)
  | "Infinity" => .ok (.float (.infinite false))
  | "-Infinity" => .ok (.float (.infinite true))
  | _ => if s.contains '_' then .error .malformed else readNumber s

def Reader.endWord (r : Reader) : Except Fault Reader :=
  match r.inside with
  | .word chars => if r.expected.allowsValue then (readWord chars.reverse).map r.complete else .error .malformed
  | _ => .ok r

def Reader.endString (r : Reader) (s : Text) : Except Fault Reader :=
  match r.expected with
  | .firstName members | .name members => .ok { r with inside := .nothing, expected := .colon members s }
  | e => if e.allowsValue then .ok (r.complete (.str s)) else .error .malformed

def Reader.between (r : Reader) (c : Char) : Except Fault Reader :=
  if isJsonBlank c then .ok r
  else if isWordChar c then .ok { r with inside := .word [c] }
  else
    match c, r.expected, r.opened with
    | '"', _, _ => .ok { r with inside := .string [] none }
    | '[', e, opened =>
      if e.allowsValue then .ok ⟨.nothing, .firstItem, .arr [] :: opened⟩ else .error .malformed
    | '{', e, opened => if e.allowsValue then .ok ⟨.nothing, .firstName [], opened⟩ else .error .malformed
    | ']', .firstItem, .arr _ :: rest => .ok (Reader.complete ⟨.nothing, .value, rest⟩ (.arr []))
    | ']', .separator, .arr items :: rest => .ok (Reader.complete ⟨.nothing, .value, rest⟩ (.arr items))
    | '}', .firstName _, rest => .ok (Reader.complete ⟨.nothing, .value, rest⟩ (.obj []))
    | '}', .separator, .obj members _ :: rest =>
      .ok (Reader.complete ⟨.nothing, .value, rest⟩ (.obj members))
    | ',', .separator, .arr _ :: _ => .ok { r with expected := .value }
    | ',', .separator, .obj members _ :: rest => .ok ⟨.nothing, .name members, rest⟩
    | ':', .colon members name, opened => .ok ⟨.nothing, .value, .obj members name :: opened⟩
    | _, _, _ => .error .malformed

/-- A half of a surrogate pair that stands alone is shown by the replacement character. -/
def settle (chars : Text) : Option Nat → Text
  | none => chars
  | some _ => '\ufffd' :: chars

def enterUnit (chars : Text) (high : Option Nat) (unit : Nat) : Inside :=
  match high with
  | some h =>
    if 0xDC00 ≤ unit ∧ unit ≤ 0xDFFF then
      .string (Char.ofNat (0x10000 + (h - 0xD800) * 0x400 + (unit - 0xDC00)) :: chars) none
    else enterPlain ('\ufffd' :: chars) unit
  | none => enterPlain chars unit
where
  enterPlain (chars : Text) (unit : Nat) : Inside :=
    if 0xD800 ≤ unit ∧ unit ≤ 0xDBFF then .string chars (some unit)
    else if 0xDC00 ≤ unit ∧ unit ≤ 0xDFFF then .string ('\ufffd' :: chars) none
    else .string (Char.ofNat unit :: chars) none

def escapeChar? : Char → Option Char
  | '"' => some '"'
  | '\\' => some '\\'
  | '/' => some '/'
  | 'b' => some '\x08'
  | 'f' => some '\x0c'
  | 'n' => some '\n'
  | 'r' => some '\r'
  | 't' => some '\t'
  | _ => none

def hexValue? (c : Char) : Option Nat :=
  if c.isDigit then some (c.toNat - 48)
  else if 'a' ≤ c ∧ c ≤ 'f' then some (c.toNat - 87)
  else if 'A' ≤ c ∧ c ≤ 'F' then some (c.toNat - 55)
  else none

def Reader.step (r : Reader) (c : Char) : Except Fault Reader :=
  match r.inside with
  | .nothing => r.between c
  | .word chars =>
    if isWordChar c then .ok { r with inside := .word (c :: chars) }
    else do Reader.between (← r.endWord) c
  | .string chars high =>
    if c = '"' then r.endString (settle chars high).reverse
    else if c = '\\' then .ok { r with inside := .escape chars high }
    else if c.toNat < 32 then .error .malformed
    else .ok { r with inside := .string (c :: settle chars high) none }
  | .escape chars high =>
    if c = 'u' then .ok { r with inside := .code chars high [] }
    else
      match escapeChar? c with
      | some e => .ok { r with inside := .string (e :: settle chars high) none }
      | none => .error .malformed
  | .code chars high digits =>
    match hexValue? c, digits with
    | some d, [x, y, z] =>
      .ok { r with inside := enterUnit chars high (((z * 16 + y) * 16 + x) * 16 + d) }
    | some d, ds => .ok { r with inside := .code chars high (d :: ds) }
    | none, _ => .error .malformed

def Reader.finish (r : Reader) : Except Fault Json := do
  let r ← r.endWord
  match r.inside, r.expected with
  | .nothing, .nothing v => .ok v
  | _, _ => .error .malformed

def read (s : Text) : Except Fault Json := do
  let r ← s.foldlM Reader.step Reader.start
  r.finish

end IndentMarkup.Json
