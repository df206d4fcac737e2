import IndentMarkup.Number.Binary64

/-!
# Shortest decimals

The decimal with the fewest digits that still reads back as a given floating-point number. The reals that
round to `m · 2 ^ e` form an interval around it, which holds its ends exactly when `m` is even. On a grid
of multiples of a power of ten only the two neighbours of the number can be nearest, so the grids are tried
from coarse to fine until a neighbour lies in the interval.
-/

namespace IndentMarkup.Binary64

/-- The multiple of `10 ^ power` nearest to `m · 2 ^ e` that rounds to it, as a factor of the power. All
sides are scaled to integers. -/
def onGrid? (m : Nat) (e : Int) (power : Int) : Option Nat :=
  let below := if m = Nat.pow 2 52 ∧ -1074 < e then 1 else 2
  let scale := Nat.pow 2 (e - 2).toNat * Nat.pow 10 (-power).toNat
  let unit := Nat.pow 2 (2 - e).toNat * Nat.pow 10 power.toNat
  let value := 4 * m * scale
  let low := (4 * m - below) * scale
  let high := (4 * m + 2) * scale
  let inside (d : Nat) : Bool :=
    if m % 2 = 0 then decide (low ≤ d * unit ∧ d * unit ≤ high) else decide (low < d * unit ∧ d * unit < high)
  let d := value / unit
  let distance := value - d * unit
  match inside d && d != 0, inside (d + 1) with
  | true, true => if 2 * distance < unit ∨ (2 * distance = unit ∧ d % 2 = 0) then some d else some (d + 1)
  | true, false => some d
  | false, true => some (d + 1)
  | false, false => none

def shortestFrom (m : Nat) (e : Int) : Nat → Int → Nat × Int
  | 0, power => (0, power)
  | tries + 1, power =>
    match onGrid? m e power with
    | some d => (d, power)
    | none => shortestFrom m e tries (power - 1)

/-- The fewest digits that read back as `m · 2 ^ e`, with their power of ten. No number has more than 17
digits, and the first grid is coarser than the number. -/
def shortest (m : Nat) (e : Int) : Nat × Int :=
  shortestFrom m e 40 (((m.log2 : Int) + 1 + e) * 30103 / 100000 + 1)

end IndentMarkup.Binary64
