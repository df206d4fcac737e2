import IndentMarkup.Number.Notation

/-!
# Numbers with a given number of digits

A floating-point number to a given number of places, in positional or in exponent notation, or in the
shorter of the two. The number is exact, and what is cut off is rounded to nearest, a tie to the even digit.
-/

namespace IndentMarkup.Binary64

def multipleOf (m : Nat) (e power : Int) : Nat :=
  roundDiv (m * Nat.pow 2 e.toNat * Nat.pow 10 (-power).toNat) (Nat.pow 2 (-e).toNat * Nat.pow 10 power.toNat)

/-- Digits with a point in front of the last ones. Without places there is a point only if it is asked for. -/
def pointed (alwaysPoint : Bool) (places : Nat) (digits : Text) : Text :=
  let whole := digits.take (digits.length - places)
  if places = 0 then whole ++ (if alwaysPoint then ['.'] else [])
  else whole ++ '.' :: digits.drop (digits.length - places)

def fixedText (alwaysPoint : Bool) (places : Nat) (m : Nat) (e : Int) : Text :=
  let digits := natText (multipleOf m e (-places))
  pointed alwaysPoint places (List.replicate (places + 1 - digits.length) '0' ++ digits)

def scientificParts (places : Nat) (m : Nat) (e : Int) : Int × Text :=
  if m = 0 then (0, List.replicate (places + 1) '0')
  else
    let guess : Int := ((m.log2 : Int) + e) * 30103 / 100000
    -- the guess is the exponent or one less, and rounding may carry into a further digit
    let digits (exponent : Int) : Text := natText (multipleOf m e (exponent - places))
    if (digits guess).length ≤ places + 1 then (guess, digits guess)
    else if (digits (guess + 1)).length ≤ places + 1 then (guess + 1, digits (guess + 1))
    else (guess + 2, digits (guess + 2))

def exponentText (exponent : Int) : Text :=
  let size := natText exponent.natAbs
  'e' :: (if exponent < 0 then '-' else '+') :: (if size.length < 2 then '0' :: size else size)

def scientificText (alwaysPoint : Bool) (places : Nat) (m : Nat) (e : Int) : Text :=
  let (exponent, digits) := scientificParts places m e
  pointed alwaysPoint places digits ++ exponentText exponent

def trimZeros (s : Text) : Text :=
  if s.contains '.' then
    let kept := (s.reverse.dropWhile (· == '0')).reverse
    if kept.getLast? = some '.' then kept.dropLast else kept
  else s

/-- A bound of the significant digits of a number: a number that is no integer has at most 1074 places, and
the integral part of one with so many places is small. -/
def digitBound : Nat := 1100

/-- A number of significant digits, in the notation that is shorter. The zeros at the end are left out
unless they are asked for, so digits behind the bound make no difference. -/
def generalText (keepZeros : Bool) (precision : Nat) (m : Nat) (e : Int) : Text :=
  let precision := if keepZeros then max precision 1 else min (max precision 1) digitBound
  let (exponent, digits) := scientificParts (precision - 1) m e
  let trim := if keepZeros then id else trimZeros
  if -4 ≤ exponent ∧ exponent < precision then
    trim (fixedText keepZeros (precision - 1 - exponent).toNat m e)
  else trim (pointed keepZeros (precision - 1) digits) ++ exponentText exponent

end IndentMarkup.Binary64
