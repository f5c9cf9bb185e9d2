import ContractAudit.Binary64.Decimal

/-!
# Numbers of the data format

A number is a whole number of any size or a binary64 number. The two kinds are told apart when they
are written (`1` and `1.0`), but compare by exact value.
-/

namespace ContractAudit

/-- A whole number or a binary64 number. -/
inductive Number where
  | int (n : Int)
  | real (x : Binary64)
deriving DecidableEq, Repr, Inhabited

namespace Number

/-- Where the number lies on the number line, exactly; `nan` lies nowhere. -/
def place? : Number → Option Binary64.Place
  | .int n => some (.at n)
  | .real x => x.place?

/-- Whether two numbers have one value. -/
def same (x y : Number) : Bool :=
  match x.place?, y.place? with
  | some p, some q => decide (p = q)
  | _, _ => false

/-- Whether `x` is less than `y`; never with `nan`. -/
def lt (x y : Number) : Bool :=
  match x.place?, y.place? with
  | some p, some q => p.before q
  | _, _ => false

theorem lt_int (m n : Int) : (Number.int m).lt (.int n) = decide (m < n) := by
  show decide ((m : Rat) < n) = decide (m < n)
  exact decide_eq_decide.2 Rat.intCast_lt_intCast

/-- The nearest binary64 number, if the number is not beyond the largest. -/
def toBinary64? : Number → Option Binary64
  | .int n => match Binary64.ofInt n with
    | .infinite _ => none
    | x => some x
  | .real x => some x

/-- The sum with a binary64 number. -/
def plus (x : Number) (y : Binary64) : Binary64 :=
  match x with
  | .int n => (Binary64.ofInt n).add y
  | .real x => x.add y

/-- The number as text, with binary64 numbers in the given layout. -/
def write (layout : Binary64.Layout) : Number → String
  | .int n => toString n
  | .real x => layout.write x

/-- The number as messages have it. -/
def literal (x : Number) : String :=
  x.write Binary64.plainLayout

end Number

end ContractAudit
