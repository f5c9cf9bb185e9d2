import ContractAudit.Json.Value
import ContractAudit.Text.Hexadecimal

/-!
# What a JSON text denotes

The grammar of JSON as relations between a text and what it denotes. They say nothing of how a text
is written or read, so a writer and a reader can both be held against them.

* **Numbers.** Digits alone denote a whole number, of any size. A number with a fraction or an
  exponent denotes the binary64 number that is nearest to its exact value, if that is a finite one.
* **Strings.** A character stands for itself or is escaped, one beyond the first 65536 as a pair of
  units. A unit that is a surrogate without its partner denotes nothing.
* **Values.** White space may stand around every value, key and text. The keys of an object are
  distinct, and its members are denoted in their order.

No text denotes `nan`, an infinity, a string with an unpaired surrogate or an object in which a key
is repeated.
-/

namespace ContractAudit.Json.Grammar

/-- White space of the grammar. -/
def isSpace (c : Char) : Bool :=
  c == ' ' || c == '\t' || c == '\n' || c == '\r'

/-- White space, or nothing. -/
def IsGap (s : List Char) : Prop := ∀ c ∈ s, isSpace c = true

theorem isGap_nil : IsGap [] := fun _ hc => absurd hc List.not_mem_nil

theorem isGap_singleton {c : Char} (h : isSpace c = true) : IsGap [c] := fun _ hd =>
  List.mem_singleton.1 hd ▸ h

/-! ## Numbers -/

/-- Decimal digits, at least one. -/
def IsDigits (s : List Char) : Prop :=
  s ≠ [] ∧ ∀ c ∈ s, c.isDigit = true

/-- The whole part of a number: it starts with a zero only if it is the digit zero. -/
def IsWhole (s : List Char) : Prop :=
  IsDigits s ∧ (s.head? = some '0' → s = ['0'])

/-- The number that digits denote. -/
def digitsValue (s : List Char) : Nat := Nat.ofDigitChars 10 s 0

/-- The text is a fraction with its point, or empty, and denotes a number below one. -/
inductive Fraction : List Char → Rat → Prop
  | absent : Fraction [] 0
  | digits {s : List Char} (h : IsDigits s) :
    Fraction ('.' :: s) (digitsValue s / 10 ^ s.length)

/-- The text is digits, perhaps with a sign before them, and denotes a whole number. -/
inductive SignedDigits : List Char → Int → Prop
  | unsigned {s : List Char} (h : IsDigits s) : SignedDigits s (digitsValue s)
  | plus {s : List Char} (h : IsDigits s) : SignedDigits ('+' :: s) (digitsValue s)
  | minus {s : List Char} (h : IsDigits s) : SignedDigits ('-' :: s) (-digitsValue s)

/-- The text is an exponent with its letter, or empty, and denotes a whole number. -/
inductive Exponent : List Char → Int → Prop
  | absent : Exponent [] 0
  | digits {letter : Char} {s : List Char} {e : Int} (hletter : letter = 'e' ∨ letter = 'E')
    (h : SignedDigits s e) : Exponent (letter :: s) e

/-- The text is a number with a fraction or an exponent and without a sign, and `q` is its exact
value. -/
inductive Decimal : List Char → Rat → Prop
  | mk {whole fraction exponent : List Char} {part : Rat} {e : Int} (hwhole : IsWhole whole)
    (hfraction : Fraction fraction part) (hexponent : Exponent exponent e)
    (hreal : fraction ++ exponent ≠ []) :
    Decimal (whole ++ (fraction ++ exponent)) ((digitsValue whole + part) * 10 ^ e)

/-- The text is a number without a sign and denotes it. -/
inductive DenotesUnsigned : List Char → Number → Prop
  | whole {s : List Char} (h : IsWhole s) : DenotesUnsigned s (.int (digitsValue s))
  | decimal {s : List Char} {q x : Rat} (h : Decimal s q) (hx : Binary64.round q = .finite x) :
    DenotesUnsigned s (.real (.finite x))

/-- The number with the other sign. -/
def opposite : Number → Number
  | .int n => .int (-n)
  | .real x => .real x.neg

/-- The text denotes the number. -/
inductive DenotesNumber : List Char → Number → Prop
  | unsigned {s : List Char} {n : Number} (h : DenotesUnsigned s n) : DenotesNumber s n
  | minus {s : List Char} {n : Number} (h : DenotesUnsigned s n) :
    DenotesNumber ('-' :: s) (opposite n)

/-! ## Strings -/

/-- The letters of escapes, each with the character it stands for. -/
def letterEscapes : List (Char × Char) := [
  ('"', '"'), ('\\', '\\'), ('/', '/'), ('b', '\x08'), ('f', '\x0c'), ('n', '\n'), ('r', '\r'),
  ('t', '\t')]

/-- The digits are four hexadecimal ones and denote the unit `n`. -/
def IsUnit (digits : List Char) (n : Nat) : Prop :=
  digits.length = 4 ∧
    digits.foldlM (fun n c => (Text.hexDigit? c.toNat).map (n * 16 + ·)) 0 = some n

/-- What stands behind a backslash, and the character that the escape stands for. -/
inductive Escape : List Char → Char → Prop
  | letter {letter c : Char} (h : (letter, c) ∈ letterEscapes) : Escape [letter] c
  | unit {digits : List Char} {n : Nat} (h : IsUnit digits n)
    (hcharacter : Str.isCharacter n = true) : Escape ('u' :: digits) (Char.ofNat n)
  | pair {first second : List Char} {high low : Nat} (hfirst : IsUnit first high)
    (hsecond : IsUnit second low) (hhigh : 0xd800 ≤ high ∧ high ≤ 0xdbff)
    (hlow : 0xdc00 ≤ low ∧ low ≤ 0xdfff) :
    Escape ('u' :: (first ++ ('\\' :: 'u' :: second)))
      (Char.ofNat (0x10000 + (high - 0xd800) * 0x400 + (low - 0xdc00)))

/-- The text stands for the character. -/
inductive DenotesChar : List Char → Char → Prop
  | plain {c : Char} (hcontrol : 0x20 ≤ c.toNat) (hquote : c ≠ '"') (hbackslash : c ≠ '\\') :
    DenotesChar [c] c
  | escaped {s : List Char} {c : Char} (h : Escape s c) : DenotesChar ('\\' :: s) c

/-- What stands between the quotes of a string, and the characters that it denotes. -/
inductive DenotesChars : List Char → List Char → Prop
  | nil : DenotesChars [] []
  | cons {s rest : List Char} {c : Char} {chars : List Char} (h : DenotesChar s c)
    (hrest : DenotesChars rest chars) : DenotesChars (s ++ rest) (c :: chars)

/-- The text is a string in quotes and denotes `t`. -/
inductive DenotesText : List Char → String → Prop
  | mk {s : List Char} {t : String} (h : DenotesChars s t.toList) :
    DenotesText ('"' :: (s ++ ['"'])) t

/-! ## Values -/

/-- The words that are values, each with its value. -/
def words : List (List Char × Value) := [
  ("null".toList, .null), ("false".toList, .bool false), ("true".toList, .bool true)]

/-- The text is a word or a number and denotes the value. -/
inductive DenotesWord : List Char → Value → Prop
  | word {s : List Char} {x : Value} (h : (s, x) ∈ words) : DenotesWord s x
  | number {s : List Char} {n : Number} (h : DenotesNumber s n) : DenotesWord s (.number n)

/-- The text is what stands between brackets: white space, or items with commas between them. `P`
says what the text of an item is. -/
inductive Sequence {α : Type} (P : List Char → α → Prop) : List Char → List α → Prop
  | empty {gap : List Char} (h : IsGap gap) : Sequence P gap []
  | last {s : List Char} {x : α} (h : P s x) : Sequence P s [x]
  | cons {s rest : List Char} {x : α} {xs : List α} (h : P s x) (hrest : Sequence P rest xs)
    (hne : xs ≠ []) : Sequence P (s ++ (',' :: rest)) (x :: xs)

mutual

/-- The text, without white space around it, denotes the value. -/
inductive Denotes : List Char → Value → Prop
  | word {s : List Char} {x : Value} (h : DenotesWord s x) : Denotes s x
  | text {s : List Char} {t : String} (h : DenotesText s t) : Denotes s (.text t)
  | list {s : List Char} {items : List Value} (h : Sequence DenotesItem s items) :
    Denotes ('[' :: (s ++ [']'])) (.list items)
  | object {s : List Char} {members : List (Str × Value)} (h : Sequence DenotesMember s members)
    (hdistinct : (members.map Prod.fst).Nodup) :
    Denotes ('\x7b' :: (s ++ ['\x7d'])) (.object members)

/-- The text, perhaps with white space around it, denotes the value. -/
inductive DenotesItem : List Char → Value → Prop
  | mk {before s after : List Char} {x : Value} (hbefore : IsGap before) (h : Denotes s x)
    (hafter : IsGap after) : DenotesItem (before ++ (s ++ after)) x

/-- The text, perhaps with white space around it, is a key and a value with a colon between them. -/
inductive DenotesMember : List Char → Str × Value → Prop
  | mk {before key between s : List Char} {t : String} {x : Value} (hbefore : IsGap before)
    (hkey : DenotesText key t) (hbetween : IsGap between) (h : DenotesItem s x) :
    DenotesMember (before ++ (key ++ (between ++ (':' :: s)))) (.text t, x)

end

/-- The text is JSON and denotes the value. -/
def IsTextOf (s : List Char) (v : Value) : Prop := DenotesItem s v

end ContractAudit.Json.Grammar
