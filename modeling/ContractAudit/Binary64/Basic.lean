/-!
# Binary64 numbers

The 64-bit binary floating-point numbers, as the rationals they stand for. Every operation computes
the exact rational result and rounds it once, to the nearest number of the format and to the even
neighbour on a tie (`Binary64.round`); beyond the largest number it answers an infinity.

A number keeps its value and not its bits: 53 bits of precision and the exponent range are what
`spacing` says, and the two zeros are told apart by a constructor of their own.
-/

namespace ContractAudit

/-- A number of the format. -/
inductive Binary64 where
  | nan
  | infinite (negative : Bool)
  | negativeZero
  | finite (value : Rat)
deriving DecidableEq, Repr, Inhabited

namespace Binary64

/-! ## Rounding -/

/-- Two to the power `e`. -/
def twoPow (e : Int) : Rat :=
  if 0 ≤ e then ((1 <<< e.toNat : Nat) : Rat) else ((1 <<< (-e).toNat : Nat) : Rat)⁻¹

/-- The greatest `e` with `2 ^ e ≤ q`, for a positive `q`. -/
def floorLog2 (q : Rat) : Int :=
  if 1 ≤ q then q.floor.toNat.log2 else -((q⁻¹.ceil.toNat - 1).log2 + 1 : Nat)

/-- The exponent of the distance between the numbers of the format around `q`: 53 bits of precision,
and never less than the least positive number. -/
def spacingExponent (q : Rat) : Int :=
  max (floorLog2 q.abs - 52) (-1074)

/-- The distance between the numbers of the format around `q`. -/
def spacing (q : Rat) : Rat :=
  twoPow (spacingExponent q)

/-- The nearest integer, and the even one on a tie. -/
def nearestEven (q : Rat) : Int :=
  let below := q.floor
  let part := q - below
  if part < 1 / 2 then below
  else if 1 / 2 < part then below + 1
  else if below % 2 = 0 then below else below + 1

/-- No finite number of the format reaches this one. -/
def overflowBound : Rat := twoPow 1024

/-- The number of the format nearest to `q`. -/
def round (q : Rat) : Binary64 :=
  if q = 0 then .finite 0
  else
    -- rounding up to the next power of two ends on a number too: the spacing doubles only there
    let value := nearestEven (q / spacing q) * spacing q
    if overflowBound ≤ value.abs then .infinite (decide (q < 0))
    else if value = 0 ∧ q < 0 then .negativeZero
    else .finite value

/-- The number of the format nearest to the integer `n`. -/
def ofInt (n : Int) : Binary64 := round n

/-- The exact value of a finite number. -/
def toRat? : Binary64 → Option Rat
  | .finite value => some value
  | .negativeZero => some 0
  | _ => none

/-! ## Arithmetic -/

/-- Whether the sign is minus. -/
def isNegative : Binary64 → Bool
  | .nan => false
  | .infinite negative => negative
  | .negativeZero => true
  | .finite value => decide (value < 0)

/-- The number with the other sign. -/
def neg : Binary64 → Binary64
  | .nan => .nan
  | .infinite negative => .infinite !negative
  | .negativeZero => .finite 0
  | .finite value => if value = 0 then .negativeZero else .finite (-value)

/-- The rounded sum. -/
def add : Binary64 → Binary64 → Binary64
  | .nan, _ | _, .nan => .nan
  | .infinite a, .infinite b => if a = b then .infinite a else .nan
  | .infinite a, _ | _, .infinite a => .infinite a
  | .negativeZero, y => y
  | x, .negativeZero => x
  | .finite x, .finite y => round (x + y)

/-- The rounded difference. -/
def sub (x y : Binary64) : Binary64 := add x y.neg

/-- The rounded product. -/
def mul (x y : Binary64) : Binary64 :=
  let negative := x.isNegative != y.isNegative
  match x, y with
  | .nan, _ | _, .nan => .nan
  | .infinite _, y => if y.toRat? = some 0 then .nan else .infinite negative
  | x, .infinite _ => if x.toRat? = some 0 then .nan else .infinite negative
  | .finite x, .finite y =>
    if x * y = 0 then (if negative then .negativeZero else .finite 0) else round (x * y)
  | _, _ => if negative then .negativeZero else .finite 0

/-- The rounded quotient by a positive whole number. -/
def divNat (x : Binary64) (n : Nat) : Binary64 :=
  match x with
  | .finite value => if value = 0 then .finite 0 else round (value / n)
  | x => x

/-- The number nearest to `n / d`. -/
def quotient (n : Int) (d : Nat) : Binary64 := round (n / d)

/-- The greatest whole number that is not above a finite number. -/
def floor (x : Binary64) : Int :=
  (x.toRat?.getD 0).floor

/-! ## Order -/

/-- A place on the number line with its two ends. -/
inductive Place where
  | bottom
  | at (q : Rat)
  | top
deriving DecidableEq, Repr

/-- Where a number lies; `nan` lies nowhere and the two zeros at one place. -/
def place? : Binary64 → Option Place
  | .nan => none
  | .infinite negative => some (if negative then .bottom else .top)
  | .negativeZero => some (.at 0)
  | .finite value => some (.at value)

/-- Whether one place lies strictly before another. -/
def Place.before : Place → Place → Bool
  | .at p, .at q => decide (p < q)
  | .bottom, .bottom | .top, _ => false
  | .bottom, _ | _, .top => true
  | _, .bottom => false

/-- Whether `x` is less than `y`; never with `nan`. -/
def lt (x y : Binary64) : Bool :=
  match x.place?, y.place? with
  | some p, some q => p.before q
  | _, _ => false

/-- Whether `x` is at most `y`; never with `nan`. -/
def le (x y : Binary64) : Bool :=
  match x.place?, y.place? with
  | some p, some q => !q.before p
  | _, _ => false

end Binary64

end ContractAudit
