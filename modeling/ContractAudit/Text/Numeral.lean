import ContractAudit.Binary64.Decimal
import ContractAudit.Text.Blank
import ContractAudit.Text.DecimalDigit
import ContractAudit.Text.Ends

/-!
# Numerals in text

A numeral is a sign, decimal digits of any script with single underscores between them and, for a
real number, a fraction, an exponent or one of the words `inf`, `infinity` and `nan`. White space
around it does not count, except the controls U+001C to U+001F, which are no space here.
-/

namespace ContractAudit.Text.Numeral

/-- Whether `c` may stand around a numeral. -/
def isPadding (c : Char) : Bool :=
  isBlank c && !(0x1c ≤ c.toNat && c.toNat ≤ 0x1f)

/-- The text without its padding. -/
def strip (s : List Char) : List Char :=
  dropEnds isPadding s

/-- Whether the text starts with a minus, and the text after its sign. -/
def sign : List Char → Bool × List Char
  | '-' :: rest => (true, rest)
  | '+' :: rest => (false, rest)
  | s => (false, s)

/-- The longest run of digits in which no underscore stands first, last or next to another, after
the digits in `done`, reversed; and the text after the run. -/
def digitsFrom (done : List Nat) : List Char → List Nat × List Char
  | [] => (done.reverse, [])
  | '_' :: [] => (done.reverse, ['_'])
  | '_' :: c :: rest =>
    match decimalDigit? c with
    | some d => if done.isEmpty then ([], '_' :: c :: rest) else digitsFrom (d :: done) rest
    | none => (done.reverse, '_' :: c :: rest)
  | c :: rest =>
    match decimalDigit? c with
    | some d => digitsFrom (d :: done) rest
    | none => (done.reverse, c :: rest)

/-- The run of digits at the start of the text, and the text after it. -/
def digits (s : List Char) : List Nat × List Char :=
  digitsFrom [] s

/-! ## Whole numbers -/

/-- Why a text is no whole number. -/
inductive Refusal where
  | malformed
  | tooManyDigits (count : Nat)
deriving DecidableEq, Repr

/-- The most digits of a whole number. -/
def maxDigits : Nat := 4300

/-- The whole number that the text writes. The count of digits is checked before what follows them,
but after a misplaced underscore. -/
def readInt (s : List Char) : Except Refusal Int :=
  let (negative, s) := sign (strip s)
  let (ds, rest) := digits s
  if ds.isEmpty || rest.head? == some '_' then .error .malformed
  else if maxDigits < ds.length then .error (.tooManyDigits ds.length)
  else if !rest.isEmpty then .error .malformed
  else
    let n : Int := Binary64.ofDigits ds
    .ok (if negative then -n else n)

/-! ## Real numbers -/

/-- The exponent at the start of the text and the text after it; zero if there is none. -/
def exponent (s : List Char) : Int × List Char :=
  match s with
  | e :: rest =>
    if e == 'e' || e == 'E' then
      let (negative, rest) := sign rest
      let (ds, rest) := digits rest
      if ds.isEmpty then (0, s)
      else
        let n : Int := Binary64.ofDigits ds
        (if negative then -n else n, rest)
    else (0, s)
  | [] => (0, [])

/-- The fraction digits at the start of the text, after a point, and the text after them. -/
def fraction : List Char → List Nat × List Char
  | '.' :: rest => digits rest
  | s => ([], s)

/-- The unsigned real number that the text writes. -/
def readMagnitude? (negative : Bool) (s : List Char) : Option Binary64 :=
  let word := String.ofList (s.map Char.toLower)
  if word = "inf" ∨ word = "infinity" then some (.infinite negative)
  else if word = "nan" then some .nan
  else
    let (whole, rest) := digits s
    let (part, rest) := fraction rest
    let (e, rest) := exponent rest
    if (whole ++ part).isEmpty || !rest.isEmpty then none
    else some (Binary64.ofDecimal negative (whole ++ part) (e - part.length))

/-- The binary64 number nearest to the real number that the text writes. -/
def readReal? (s : List Char) : Option Binary64 :=
  let (negative, s) := sign (strip s)
  readMagnitude? negative s

end ContractAudit.Text.Numeral
