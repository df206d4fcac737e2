/-!
# Binary floating-point numbers

The numbers with a fraction that settings hold, kept exactly: a finite number is `mantissa · 2 ^ exponent`
with a sign, so zero has a sign too. `Binary64.ofDecimal` rounds a decimal to the nearest such number, a
tie to the even mantissa.
-/

namespace IndentMarkup

/-- A floating-point number of 64 bits. A mantissa has at most 53 bits and an exponent is at least
`-1074`. -/
inductive Binary64 where
  | nan
  | infinite (negative : Bool)
  | finite (negative : Bool) (mantissa : Nat) (exponent : Int)
  deriving DecidableEq, Repr, Inhabited

namespace Binary64

def isTrue : Binary64 → Bool
  | finite _ mantissa _ => mantissa != 0
  | _ => true

/-- The quotient rounded to the nearest integer, a tie to the even one. -/
def roundDiv (num den : Nat) : Nat :=
  let q := num / den
  let twice := 2 * (num % den)
  if twice < den then q else if den < twice then q + 1 else q + q % 2

def roundScaled (num den : Nat) (exponent : Int) : Nat :=
  roundDiv (num * Nat.pow 2 (-exponent).toNat) (den * Nat.pow 2 exponent.toNat)

def ofRatio (negative : Bool) (num den : Nat) : Binary64 :=
  let guess : Int := (num.log2 : Int) - den.log2 - 52
  let fine : Int := max guess (-1074)
  -- the quotient has 53 bits or one less at the guessed exponent
  let small := num * Nat.pow 2 (-fine).toNat < Nat.pow 2 52 * (den * Nat.pow 2 fine.toNat)
  let exponent := if small then max (fine - 1) (-1074) else fine
  let mantissa := roundScaled num den exponent
  let (mantissa, exponent) := if mantissa = Nat.pow 2 53 then (Nat.pow 2 52, exponent + 1) else (mantissa, exponent)
  if 971 < exponent then infinite negative else finite negative mantissa exponent

/-- The floating-point number nearest to `digits · 10 ^ power`. Powers far outside the range of the format
are answered without computing them. -/
def ofDecimal (negative : Bool) (digits : Nat) (power : Int) : Binary64 :=
  if digits = 0 then finite negative 0 (-1074)
  else
    let size : Int := (Nat.toDigits 10 digits).length + power
    if 310 < size then infinite negative
    else if size < -325 then finite negative 0 (-1074)
    else ofRatio negative (digits * Nat.pow 10 power.toNat) (Nat.pow 10 (-power).toNat)

end Binary64

end IndentMarkup
