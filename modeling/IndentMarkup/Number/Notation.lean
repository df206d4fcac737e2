import IndentMarkup.Number.Shortest
import IndentMarkup.Text.Digit

/-!
# Numbers as text

Reading and writing of integers and floating-point numbers. Both readers accept the decimal digits of every
script, white space around the number, and single underscores between digits. A number is written with the
fewest digits that read back: positionally from `0.0001` up to sixteen digits before the point, and with an
exponent elsewhere.
-/

namespace IndentMarkup

def natText (n : Nat) : Text := Nat.toDigits 10 n

def intText : Int → Text
  | .ofNat n => natText n
  | .negSucc n => '-' :: natText (n + 1)

inductive IntegerFault where
  /-- It is not of the form of an integer. -/
  | malformed
  /-- It has more digits than are read. -/
  | tooLong (digits : Nat)
  deriving DecidableEq, Repr

def digitLimit : Nat := 4300

def tooLongMessage (digits : Nat) : Text :=
  "Exceeds the limit (4300 digits) for integer string conversion: value has ".toList ++ natText digits ++
    " digits; use sys.set_int_max_str_digits() to increase the limit".toList

def digitsValue (ds : Text) : Nat := ds.foldl (fun n d => 10 * n + (d.toNat - 48)) 0

def isAsciiBlank (c : Char) : Bool := c == ' ' || (9 ≤ c.toNat && c.toNat ≤ 13)

/-- The text with the digits of all scripts written in ASCII and other white space as spaces. A character
that no number can hold becomes a question mark, which ends the text. -/
def asciiNumeral : Text → Text
  | [] => []
  | c :: r =>
    if c.toNat < 127 then c :: asciiNumeral r
    else if isBlank c then ' ' :: asciiNumeral r
    else
      match decimalValue? c with
      | some d => Char.ofNat (48 + d) :: asciiNumeral r
      | none => ['?']

def numeralBody (s : Text) : Text :=
  ((asciiNumeral s).dropWhile isAsciiBlank).reverse.dropWhile isAsciiBlank |>.reverse

def takeSign : Text → Bool × Text
  | '-' :: r => (true, r)
  | '+' :: r => (false, r)
  | r => (false, r)

/-- The digits of a run in which single underscores may stand between digits, and what follows the run.
There is no run if it would begin or end with an underscore or hold two in a row. -/
def digitRun? : Text → Option (Text × Text)
  | [] => none
  | c :: '_' :: r =>
    if c.isDigit then (digitRun? r).map fun (ds, rest) => (c :: ds, rest) else none
  | c :: r =>
    if c.isDigit then
      match digitRun? r with
      | some (ds, rest) => some (c :: ds, rest)
      | none => if (r.head?.map Char.isDigit).getD false then none else some ([c], r)
    else none

def readInteger (s : Text) : Except IntegerFault Int :=
  let (negative, body) := takeSign (numeralBody s)
  match digitRun? body with
  | none => .error .malformed
  | some (ds, rest) =>
    if digitLimit < ds.length then .error (.tooLong ds.length)
    else if rest ≠ [] then .error .malformed
    else .ok (if negative then -(digitsValue ds : Int) else digitsValue ds)

/-- Reads the exponent of a number: the letter `e`, an optional sign and digits. No exponent is zero. -/
def readExponent? : Text → Option Int
  | [] => some 0
  | c :: r =>
    if c = 'e' ∨ c = 'E' then
      let (negative, body) := takeSign r
      match digitRun? body with
      | some (ds, []) => some (if negative then -(digitsValue ds : Int) else digitsValue ds)
      | _ => none
    else none

/-- Reads an unsigned decimal: digits, an optional point with further digits, and an optional exponent. At
least one digit stands on one side of the point. -/
def readDecimal? (negative : Bool) (s : Text) : Option Binary64 :=
  let (whole, behind) := (digitRun? s).getD ([], s)
  let (fraction, rest) :=
    match behind with
    | '.' :: r => (digitRun? r).getD ([], r)
    | r => ([], r)
  if whole.isEmpty && fraction.isEmpty then none
  else
    (readExponent? rest).map fun power =>
      Binary64.ofDecimal negative (digitsValue (whole ++ fraction)) (power - fraction.length)

def readFloat? (s : Text) : Option Binary64 :=
  let (negative, body) := takeSign (numeralBody s)
  let word := String.ofList (body.map Char.toLower)
  if word = "inf" ∨ word = "infinity" then some (.infinite negative)
  else if word = "nan" then some .nan
  else readDecimal? negative body

def decimalText (digits : Nat) (power : Int) : Text :=
  let significant := ((natText digits).reverse.dropWhile (· == '0')).reverse
  let count : Int := significant.length
  -- the place of the point, counted from the first digit
  let point : Int := (natText digits).length + power
  if point ≤ -4 ∨ 16 < point then
    let exponent := point - 1
    let size := natText exponent.natAbs
    significant.take 1 ++ (if 1 < count then '.' :: significant.drop 1 else []) ++
      (if exponent < 0 then ['e', '-'] else ['e', '+']) ++ (if size.length < 2 then '0' :: size else size)
  else if point ≤ 0 then '0' :: '.' :: (List.replicate (-point).toNat '0' ++ significant)
  else if count ≤ point then significant ++ List.replicate (point - count).toNat '0' ++ ['.', '0']
  else significant.take point.toNat ++ '.' :: significant.drop point.toNat

def Binary64.text (infinity notANumber : String) : Binary64 → Text
  | .nan => notANumber.toList
  | .infinite negative => (if negative then ['-'] else []) ++ infinity.toList
  | .finite negative 0 _ => (if negative then ['-'] else []) ++ ['0', '.', '0']
  | .finite negative m e =>
    let (digits, power) := Binary64.shortest m e
    (if negative then ['-'] else []) ++ decimalText digits power

end IndentMarkup
