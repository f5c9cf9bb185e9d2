import ContractAudit.Json.Value
import ContractAudit.Text.Hexadecimal
import ContractAudit.Text.Numeral
import ContractAudit.Text.Utf8

/-!
# Reading JSON text

The grammar of JSON over code points, with `NaN`, `Infinity` and `-Infinity` as numbers beside it.
The last of equal keys gives the value. A whole number has at most `Text.Numeral.maxDigits` digits.
A reader may bound how deep lists and objects stand inside each other; the bound counts before what
follows it, so a text that is too deep may be malformed further on.

The text may come in any of the five Unicode encodings; they are told apart by a byte order mark or
by which of the first octets are zero, since a JSON text starts with ASCII.
-/

namespace ContractAudit.Json

/-- The kinds of values that hold others. -/
inductive Container where
  | array
  | object
deriving DecidableEq, Repr

/-- Why a text is not read as a value. -/
inductive ReadFault where
  | malformed
  /-- A list or an object stands inside too many others. -/
  | tooDeep (container : Container)
deriving DecidableEq, Repr

namespace Reader

/-- Whether the code point is the character. -/
def is (n : Nat) (c : Char) : Bool := n == c.toNat

/-- Whether the code point is white space of the grammar. -/
def isSpace (n : Nat) : Bool := is n ' ' || is n '\t' || is n '\n' || is n '\r'

/-- The text after its white space. -/
def skip (s : List Nat) : List Nat := s.dropWhile isSpace

/-- What follows a word, if the text starts with it. -/
def afterWord? (word : String) (s : List Nat) : Option (List Nat) :=
  (word.toList.map Char.toNat).isPrefixOf? s

/-! ## Numbers -/

/-- The value of an ASCII digit. -/
def digit? (n : Nat) : Option Nat :=
  if 0x30 ≤ n ∧ n ≤ 0x39 then some (n - 0x30) else none

/-- The digits at the start of the text and the text after them. -/
def digits (s : List Nat) : List Nat × List Nat :=
  let run := s.takeWhile fun n => (digit? n).isSome
  (run.filterMap digit?, s.drop run.length)

/-- The digits of a fraction, if the text starts with one. -/
def fraction? : List Nat → Option (List Nat × List Nat)
  | point :: rest =>
    let (ds, rest) := digits rest
    if is point '.' && !ds.isEmpty then some (ds, rest) else none
  | [] => none

/-- The exponent, if the text starts with one. -/
def exponent? : List Nat → Option (Int × List Nat)
  | e :: rest =>
    let negative := rest.head?.any (is · '-')
    let rest := if rest.head?.any fun n => is n '-' || is n '+' then rest.drop 1 else rest
    let (ds, rest) := digits rest
    if (is e 'e' || is e 'E') && !ds.isEmpty then
      let n : Int := Binary64.ofDigits ds
      some (if negative then -n else n, rest)
    else none
  | [] => none

/-- The number at the start of the text, after its sign. -/
def magnitude? (negative : Bool) (s : List Nat) : Option (Number × List Nat) :=
  let (run, after) := digits s
  -- a leading zero is the whole part, whatever digits follow
  let (whole, rest) := if run.head? == some 0 then ([0], s.drop 1) else (run, after)
  if whole.isEmpty then none
  else
    match fraction? rest with
    | some (part, rest) =>
      let (e, rest) := (exponent? rest).getD (0, rest)
      some (.real (Binary64.ofDecimal negative (whole ++ part) (e - part.length)), rest)
    | none =>
      match exponent? rest with
      | some (e, rest) => some (.real (Binary64.ofDecimal negative whole e), rest)
      | none =>
        if Text.Numeral.maxDigits < whole.length then none
        else
          let n : Int := Binary64.ofDigits whole
          some (.int (if negative then -n else n), rest)

/-- The number at the start of the text. -/
def number? (s : List Nat) : Option (Number × List Nat) :=
  match afterWord? "-Infinity" s with
  | some rest => some (.real (.infinite true), rest)
  | none =>
    match s with
    | n :: rest => if is n '-' then magnitude? true rest else magnitude? false s
    | [] => none

/-! ## Strings -/

/-- The unit that four hexadecimal digits write. -/
def unit? (a b c d : Nat) : Option Nat :=
  match Text.hexDigit? a, Text.hexDigit? b, Text.hexDigit? c, Text.hexDigit? d with
  | some a, some b, some c, some d => some (((a * 16 + b) * 16 + c) * 16 + d)
  | _, _, _, _ => none

/-- The code point of an escape of one letter. -/
def letterEscape? (n : Nat) : Option Nat :=
  if n == 0x22 || is n '\\' || is n '/' then some n
  else if is n 'b' then some 0x08
  else if is n 'f' then some 0x0c
  else if is n 'n' then some 0x0a
  else if is n 'r' then some 0x0d
  else if is n 't' then some 0x09
  else none

/-- Adds a unit to the code points read so far, the last first: a low surrogate joins the high one
that was escaped just before it. -/
def addUnit (high : Option Nat) (done : List Nat) (unit : Nat) : List Nat :=
  match high with
  | some h =>
    if 0xdc00 ≤ unit ∧ unit ≤ 0xdfff then
      (0x10000 + (h - 0xd800) * 0x400 + (unit - 0xdc00)) :: done.drop 1
    else unit :: done
  | none => unit :: done

/-- The unit, if it is a high surrogate. -/
def highSurrogate? (unit : Nat) : Option Nat :=
  if 0xd800 ≤ unit ∧ unit ≤ 0xdbff then some unit else none

/-- The string up to its closing quote, after the code points in `done`, reversed; `high` is the
high surrogate that was escaped just before, if one was. -/
def stringFrom? (high : Option Nat) (done : List Nat) : List Nat → Option (List Nat × List Nat)
  | [] => none
  | 0x22 :: rest => some (done.reverse, rest)
  | 0x5c :: 0x75 :: a :: b :: c :: d :: rest =>
    match unit? a b c d with
    | some unit =>
      let joined := high.isSome && decide (0xdc00 ≤ unit ∧ unit ≤ 0xdfff)
      stringFrom? (if joined then none else highSurrogate? unit) (addUnit high done unit) rest
    | none => none
  | 0x5c :: n :: rest =>
    match letterEscape? n with
    | some point => stringFrom? none (point :: done) rest
    | none => none
  | n :: rest => if n < 0x20 || is n '\\' then none else stringFrom? none (n :: done) rest

/-- The key that the text starts with, and the text of its value. -/
def key? : List Nat → Option (Str × List Nat)
  | 0x22 :: rest =>
    match stringFrom? none [] rest with
    | some (points, rest) =>
      match skip rest with
      | n :: rest => if is n ':' then some (Str.ofPoints points, skip rest) else none
      | [] => none
    | none => none
  | _ => none

/-! ## Values -/

mutual

/-- The value at the start of the text, and the text after it. At most `nesting` lists and objects
may be open inside each other. -/
def value (nesting : Nat) : Nat → List Nat → Except ReadFault (Value × List Nat)
  | 0, _ => .error .malformed
  | fuel + 1, s =>
    match s with
    | [] => .error .malformed
    | n :: rest =>
      if n == 0x22 then
        match stringFrom? none [] rest with
        | some (points, rest) => .ok (.string (Str.ofPoints points), rest)
        | none => .error .malformed
      else if is n '\x7b' then
        match nesting with
        | 0 => .error (.tooDeep .object)
        | nesting + 1 =>
          let rest := skip rest
          if rest.head?.any (is · '\x7d') then .ok (.object [], rest.drop 1)
          else members nesting fuel [] rest
      else if is n '[' then
        match nesting with
        | 0 => .error (.tooDeep .array)
        | nesting + 1 =>
          let rest := skip rest
          if rest.head?.any (is · ']') then .ok (.list [], rest.drop 1)
          else items nesting fuel [] rest
      else if let some rest := afterWord? "null" s then .ok (.null, rest)
      else if let some rest := afterWord? "true" s then .ok (.bool true, rest)
      else if let some rest := afterWord? "false" s then .ok (.bool false, rest)
      else if let some rest := afterWord? "NaN" s then .ok (.real .nan, rest)
      else if let some rest := afterWord? "Infinity" s then .ok (.real (.infinite false), rest)
      else
        match number? s with
        | some (n, rest) => .ok (.number n, rest)
        | none => .error .malformed

/-- The list whose next item the text starts with, after the items in `done`, reversed. -/
def items (nesting : Nat) : Nat → List Value → List Nat → Except ReadFault (Value × List Nat)
  | 0, _, _ => .error .malformed
  | fuel + 1, done, s =>
    match value nesting fuel s with
    | .error fault => .error fault
    | .ok (item, rest) =>
      match skip rest with
      | [] => .error .malformed
      | n :: rest =>
        if is n ']' then .ok (.list (item :: done).reverse, rest)
        else if is n ',' then items nesting fuel (item :: done) (skip rest)
        else .error .malformed

/-- The object whose next member the text starts with, after the members in `done`. -/
def members (nesting : Nat) :
    Nat → List (Str × Value) → List Nat → Except ReadFault (Value × List Nat)
  | 0, _, _ => .error .malformed
  | fuel + 1, done, s =>
    match key? s with
    | none => .error .malformed
    | some (key, rest) =>
      match value nesting fuel rest with
      | .error fault => .error fault
      | .ok (value, rest) =>
        let done := Value.insert key value done
        match skip rest with
        | [] => .error .malformed
        | n :: rest =>
          if is n '\x7d' then .ok (.object done, rest)
          else if is n ',' then members nesting fuel done (skip rest)
          else .error .malformed

end

end Reader

/-- The value that the code points write, if they are the text of one value with at most `nesting`
lists and objects inside each other. Each step of the reader passes a code point, so their count
bounds the steps. -/
def readPoints (nesting : Nat) (s : List Nat) : Except ReadFault Value :=
  match Reader.value nesting (2 * s.length + 1) (Reader.skip s) with
  | .ok (value, rest) => if (Reader.skip rest).isEmpty then .ok value else .error .malformed
  | .error fault => .error fault

/-- The value that the text writes, however deep it is. -/
def read? (s : String) : Option Value :=
  (readPoints s.length (s.toList.map Char.toNat)).toOption

/-! ## Octets -/

/-- A Unicode encoding; the wide ones with the order of their octets. -/
inductive Encoding where
  | utf8
  | utf16 (bigEndian : Bool)
  | utf32 (bigEndian : Bool)
deriving DecidableEq, Repr

/-- The encoding of a JSON text, and the octets after the byte order mark. -/
def detectEncoding (s : List UInt8) : Encoding × List UInt8 :=
  match s with
  -- the marks of four octets first, since one of them starts with a mark of two
  | 0x00 :: 0x00 :: 0xfe :: 0xff :: rest => (.utf32 true, rest)
  | 0xff :: 0xfe :: 0x00 :: 0x00 :: rest => (.utf32 false, rest)
  | 0xfe :: 0xff :: rest => (.utf16 true, rest)
  | 0xff :: 0xfe :: rest => (.utf16 false, rest)
  | 0xef :: 0xbb :: 0xbf :: rest => (.utf8, rest)
  -- without a mark, by the zeros around the first character
  | a :: b :: c :: d :: _ =>
    if a == 0 then (if b == 0 then .utf32 true else .utf16 true, s)
    else if b == 0 then (if c == 0 && d == 0 then .utf32 false else .utf16 false, s)
    else (.utf8, s)
  | [a, b] =>
    if a == 0 then (.utf16 true, s) else if b == 0 then (.utf16 false, s) else (.utf8, s)
  | _ => (.utf8, s)

/-- The units of two octets. -/
def units16? (bigEndian : Bool) : List UInt8 → Option (List Nat)
  | [] => some []
  | a :: b :: rest =>
    (units16? bigEndian rest).map
      ((if bigEndian then a.toNat * 0x100 + b.toNat else b.toNat * 0x100 + a.toNat) :: ·)
  | [_] => none

/-- The units of four octets. -/
def units32? (bigEndian : Bool) : List UInt8 → Option (List Nat)
  | [] => some []
  | a :: b :: c :: d :: rest =>
    let high := if bigEndian then a.toNat * 0x100 + b.toNat else d.toNat * 0x100 + c.toNat
    let low := if bigEndian then c.toNat * 0x100 + d.toNat else b.toNat * 0x100 + a.toNat
    (units32? bigEndian rest).map ((high * 0x10000 + low) :: ·)
  | _ => none

/-- The code points of units of sixteen bits; a surrogate without its partner stands for itself. -/
def joinSurrogates : List Nat → List Nat
  | h :: l :: rest =>
    if 0xd800 ≤ h ∧ h ≤ 0xdbff ∧ 0xdc00 ≤ l ∧ l ≤ 0xdfff then
      (0x10000 + (h - 0xd800) * 0x400 + (l - 0xdc00)) :: joinSurrogates rest
    else h :: joinSurrogates (l :: rest)
  | s => s

/-- The code points of the octets. -/
def decode? (s : List UInt8) : Option (List Nat) :=
  match detectEncoding s with
  | (.utf8, s) => Text.Utf8.decodePoints? s
  | (.utf16 bigEndian, s) => (units16? bigEndian s).map joinSurrogates
  | (.utf32 bigEndian, s) => (units32? bigEndian s).bind fun points =>
    if points.all (· < 0x110000) then some points else none

/-- The value that the octets write, with at most `nesting` lists and objects inside each other. -/
def readOctets (nesting : Nat) (s : List UInt8) : Except ReadFault Value :=
  match decode? s with
  | some points => readPoints nesting points
  | none => .error .malformed

end ContractAudit.Json
