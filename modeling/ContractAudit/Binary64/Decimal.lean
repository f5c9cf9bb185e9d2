import ContractAudit.Binary64.Basic

/-!
# Decimal forms of binary64 numbers

From decimal to binary: the number nearest to a decimal numeral (`Binary64.ofDecimal`).

From binary to decimal: the fewest significant digits that read back as the number, and of those the
ones nearest to it (`shortest`), laid out by a `Layout`. A tie between two candidates goes to the
even last digit.
-/

namespace ContractAudit.Binary64

/-- Ten to the power `e`. -/
def tenPow (e : Int) : Rat :=
  if 0 ≤ e then ((Nat.pow 10 e.toNat : Nat) : Rat) else ((Nat.pow 10 (-e).toNat : Nat) : Rat)⁻¹

/-! ## Reading -/

/-- The number that decimal digits write. Many digits are read in two halves, so that the time does
not grow with the square of their count. -/
def ofDigits (digits : List Nat) : Nat :=
  if 64 < digits.length then
    let low := digits.drop (digits.length / 2)
    ofDigits (digits.take (digits.length / 2)) * Nat.pow 10 low.length + ofDigits low
  else digits.foldl (fun n d => n * 10 + d) 0
termination_by digits.length
decreasing_by all_goals simp only [List.length_take, List.length_drop]; omega

/-- The most digits that are told apart in a decimal. A number halfway between two neighbours of the
format has at most 767. -/
def significantDigits : Nat := 800

/-- The digits that decide how a decimal is rounded: those behind the first `significantDigits` only
matter for whether one of them is not zero, and a one stands for that. -/
def decisive (digits : List Nat) : List Nat :=
  let kept := digits.take significantDigits
  if (digits.drop significantDigits).any (· != 0) then kept ++ [1] else kept

/-- The nearest number to `digits · 10 ^ exponent`. Digits that reach above `10 ^ 310` or stay below
`10 ^ -330` are past the ends of the format, and their power of ten is not computed. -/
def ofDecimal (negative : Bool) (digits : List Nat) (exponent : Int) : Binary64 :=
  let digits := digits.dropWhile (· == 0)
  let top : Int := digits.length + exponent
  let magnitude :=
    if digits.isEmpty || top < -330 then .finite 0
    else if 310 < top then .infinite false
    else
      let decisive := decisive digits
      round (ofDigits decisive * tenPow (top - decisive.length))
  if negative then magnitude.neg else magnitude

/-! ## Writing -/

/-- The greatest `e` with `10 ^ e ≤ q`, for a positive `q` in the range of the format. The estimate
from the binary logarithm is off by one at most. -/
def floorLog10 (q : Rat) : Int :=
  -- the decimal logarithm of two, to five places
  let estimate := floorLog2 q * 30103 / 100000
  if tenPow (estimate + 1) ≤ q then estimate + 1
  else if q < tenPow estimate then estimate - 1
  else estimate

/-- The digits of the longest decimals that are needed: seventeen always do. -/
def maxDigits : Nat := 17

/-- A positive number of the format on the grid of the decimals with `maxDigits` digits, whose
points are the multiples of ten to the power `last`. All fields count such points. -/
structure Placement where
  last : Int
  /-- The first point that rounds to the number. -/
  low : Nat
  /-- The last point that rounds to the number. -/
  high : Nat
  /-- The whole numbers around twice the place of the number itself. -/
  doubleFloor : Nat
  doubleCeil : Nat

/-- The placement of the positive number `q`. The number is `significand` times the spacing around
it, and its neighbours are halfway to where other numbers are nearer. In quarters of the spacing
that is two to each side, or one below a power of two, where the numbers lie closer. The ends round
to an even significand. -/
def Placement.of (q : Rat) : Placement :=
  let exponent := spacingExponent q
  let significand := (q * twoPow (-exponent)).floor.toNat
  let last := floorLog10 q - (maxDigits - 1 : Nat)
  -- a quarter of the spacing is this fraction of a grid step
  let up := Nat.pow 2 (exponent - 2).toNat * Nat.pow 10 (-last).toNat
  let down := Nat.pow 2 (2 - exponent).toNat * Nat.pow 10 last.toNat
  let isEven := significand % 2 = 0
  let reach := if significand = Nat.pow 2 52 ∧ -1074 < exponent then 1 else 2
  let low := (4 * significand - reach) * up
  let high := (4 * significand + 2) * up
  let double := 8 * significand * up
  { last
    low := if isEven then (low + down - 1) / down else low / down + 1
    high := if isEven then high / down else (high - 1) / down
    doubleFloor := double / down
    doubleCeil := (double + down - 1) / down }

/-- The multiple of `block` next to the number, then the other one around it; on a tie the even one
first. -/
def Placement.neighbours (place : Placement) (block : Nat) : List Nat :=
  let below := place.doubleFloor / 2 / block * block
  let middle := 2 * below + block
  if place.doubleFloor < middle ∨ (place.doubleCeil = middle ∧ below / block % 2 = 0) then
    [below, below + block]
  else [below + block, below]

/-- The decimal with `zeros` fewer digits than the longest that rounds to the number, if there is
one, as a multiplier of a power of ten. -/
def Placement.pick? (place : Placement) (zeros : Nat) : Option (Nat × Int) :=
  let block := Nat.pow 10 zeros
  ((place.neighbours block).find? fun n => decide (place.low ≤ n ∧ n ≤ place.high)).map fun n =>
    (n / block, place.last + zeros)

/-- The fewest digits that round to the positive `q`, and of those the nearest to `q`, as a
multiplier of a power of ten. -/
def shortest (q : Rat) : Nat × Int :=
  ((List.range maxDigits).reverse.findSome? (Placement.of q).pick?).getD (0, 0)

/-- How the digits of a number are laid out. -/
structure Layout where
  /-- The least exponent of the leading digit that is written without an exponent. -/
  positionalFrom : Int
  /-- The greatest such exponent. -/
  positionalTo : Int
  /-- The fewest digits of a written exponent. -/
  exponentWidth : Nat
  nan : String
  infinity : String

/-- The digits of an exponent with its sign. -/
def Layout.exponent (layout : Layout) (e : Int) : String :=
  let digits := toString e.natAbs
  (if e < 0 then "-" else "+") ++
    String.ofList (List.replicate (layout.exponentWidth - digits.length) '0') ++ digits

/-- Digits with the point after the first `count` of them, and zeros where there are none. -/
def withPoint (digits : List Char) (count : Int) : String :=
  let zeros (n : Int) : List Char := List.replicate n.toNat '0'
  let whole := if count ≤ 0 then ['0'] else digits.take count.toNat ++ zeros (count - digits.length)
  let part := zeros (-count) ++ digits.drop count.toNat
  String.ofList (whole ++ '.' :: if part.isEmpty then ['0'] else part)

/-- The digits of a multiplier without the zeros at its end, and the exponent of the first. -/
def significant (n : Nat) (exponent : Int) : List Char × Int :=
  let digits := (toString n).toList
  let kept := (digits.reverse.dropWhile (· == '0')).reverse
  (kept, exponent + (digits.length - 1 : Nat))

/-- A multiplier of a power of ten in the layout. -/
def Layout.decimal (layout : Layout) (decimal : Nat × Int) : String :=
  let (digits, lead) := significant decimal.1 decimal.2
  if layout.positionalFrom ≤ lead ∧ lead ≤ layout.positionalTo then withPoint digits (lead + 1)
  else
    let mantissa := match digits with
      | first :: [] => [first]
      | first :: rest => first :: '.' :: rest
      | [] => []
    String.ofList mantissa ++ "e" ++ layout.exponent lead

/-- A positive number in the layout. -/
def Layout.magnitude (layout : Layout) (q : Rat) : String :=
  layout.decimal (shortest q)

/-- The number in the layout. -/
def Layout.write (layout : Layout) : Binary64 → String
  | .nan => layout.nan
  | .infinite negative => (if negative then "-" else "") ++ layout.infinity
  | .negativeZero => "-0.0"
  | .finite value =>
    if value = 0 then "0.0"
    else (if value < 0 then "-" else "") ++ layout.magnitude value.abs

/-- Positional from one ten-thousandth up to below ten to the sixteenth, with the words `nan` and
`inf`: the form of a number in messages and summaries. -/
def plainLayout : Layout where
  positionalFrom := -4
  positionalTo := 15
  exponentWidth := 2
  nan := "nan"
  infinity := "inf"

/-- The same digits with the words of the data format. -/
def dataLayout : Layout :=
  { plainLayout with nan := "NaN", infinity := "Infinity" }

end ContractAudit.Binary64
