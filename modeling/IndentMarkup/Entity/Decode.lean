import IndentMarkup.Entity.Names
import IndentMarkup.Number.Notation

/-!
# Character references

Content may hold references to characters by number (`&#40;`, `&#x28;`) or by name (`&amp;`). `decode`
replaces them as HTML prescribes: some numbers stand for another character than the one they name, a number
that names none is replaced or dropped, and a name that is not known may still begin with a known one. What
is no reference stays as it is.
-/

namespace IndentMarkup.Entity

inductive Reference where
  | number (base : Nat) (digits : Text)
  | name (name : Text) (closed : Bool)
  deriving DecidableEq, Repr

inductive DecodeFault where
  /-- A reference has more decimal digits than are read. -/
  | tooLong (digits : Nat)
  deriving DecidableEq, Repr

def isHexDigit (c : Char) : Bool := c.isDigit || ('a' ≤ c && c ≤ 'f') || ('A' ≤ c && c ≤ 'F')

def isNameChar (c : Char) : Bool :=
  !(c == '\t' || c == '\n' || c == '\x0c' || c == ' ' || c == '<' || c == '&' || c == '#' || c == ';')

def closing (s : Text) : Nat := if s.head? = some ';' then 1 else 0

def reference? : Text → Option (Reference × Nat)
  | '#' :: r =>
    match r with
    | x :: r' =>
      if x = 'x' ∨ x = 'X' then
        let digits := r'.takeWhile isHexDigit
        if digits.isEmpty then none
        else some (.number 16 digits, 2 + digits.length + closing (r'.drop digits.length))
      else
        let digits := r.takeWhile Char.isDigit
        if digits.isEmpty then none
        else some (.number 10 digits, 1 + digits.length + closing (r.drop digits.length))
    | [] => none
  | s =>
    let name := (s.take 32).takeWhile isNameChar
    if name.isEmpty then none
    else
      let behind := closing (s.drop name.length)
      some (.name name (behind = 1), name.length + behind)

/-- The characters that the numbers 128 to 159 stand for: those of the Windows code page of Western
Europe. -/
def windowsCodes : List Nat := [
  0x20ac, 0x81, 0x201a, 0x192, 0x201e, 0x2026, 0x2020, 0x2021, 0x2c6, 0x2030, 0x160, 0x2039, 0x152, 0x8d,
  0x17d, 0x8f, 0x90, 0x2018, 0x2019, 0x201c, 0x201d, 0x2022, 0x2013, 0x2014, 0x2dc, 0x2122, 0x161, 0x203a,
  0x153, 0x9d, 0x17e, 0x178]

/-- A code point that a reference may name but that stands for nothing: a control that is not white space,
or a code point that is set aside as no character. -/
def isDropped (n : Nat) : Bool :=
  (1 ≤ n && n ≤ 8) || (14 ≤ n && n ≤ 31) || (127 ≤ n && n ≤ 159) || (0xfdd0 ≤ n && n ≤ 0xfdef) || n == 11 ||
    (n % 65536 == 0xfffe && n != 0) || (n % 65536 == 0xffff)

def numbered (n : Nat) : Text :=
  if n = 0 then ['\ufffd']
  else if n = 13 then ['\r']
  else if 128 ≤ n ∧ n ≤ 159 then [Char.ofNat (windowsCodes.getD (n - 128) 0)]
  else if (0xD800 ≤ n ∧ n ≤ 0xDFFF) ∨ 0x10FFFF < n then ['\ufffd']
  else if isDropped n then []
  else [Char.ofNat n]

def digitsIn (base : Nat) (digits : Text) : Nat :=
  digits.foldl (fun n c => base * n + (if c.isDigit then c.toNat - 48 else c.toLower.toNat - 87)) 0

/-- The longest known beginning, of at least two characters and at most the given number, of a name that
is itself not known. The characters behind it stay as they are. -/
def longestKnown? (name : Text) : Nat → Option Text
  | 0 | 1 => none
  | k + 2 =>
    match bareNamed? (name.take (k + 2)) with
    | some value => some (value ++ name.drop (k + 2))
    | none => longestKnown? name (k + 1)

def Reference.value : Reference → Except DecodeFault Text
  | .number base digits =>
    if base = 10 ∧ digitLimit < digits.length then .error (.tooLong digits.length)
    else .ok (numbered (digitsIn base digits))
  | .name word closed =>
    let written := if closed then word ++ [';'] else word
    match if closed then named? word else bareNamed? word with
    | some value => .ok value
    | none => .ok ((longestKnown? written (written.length - 1)).getD ('&' :: written))

/-- Replaces the references of a text. The count says how many characters of a reference are still to be
passed over. -/
def decodeFrom : Nat → Text → Except DecodeFault Text
  | _, [] => .ok []
  | skip + 1, _ :: r => decodeFrom skip r
  | 0, c :: r =>
    if c = '&' then
      match reference? r with
      | some (reference, length) =>
        match reference.value with
        | .ok value => (decodeFrom length r).map (value ++ ·)
        | .error fault => .error fault
      | none => (decodeFrom 0 r).map (c :: ·)
    else (decodeFrom 0 r).map (c :: ·)

def decode (s : Text) : Except DecodeFault Text := decodeFrom 0 s

end IndentMarkup.Entity
