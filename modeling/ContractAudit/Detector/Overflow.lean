import ContractAudit.Detector.Basic
import ContractAudit.Text.DecimalDigit
import ContractAudit.Text.Pattern

/-!
# Integer overflow

Each line with arithmetic is reported, unless the source is protected as a whole: it mentions
`SafeMath`, or asks for a language version from 0.8 on, whose arithmetic is checked.
-/

namespace ContractAudit.Detector.Overflow

open Text

def profile : Profile where
  name := "overflow"
  title := "Potential Integer Overflow/Underflow"
  description :=
    "Arithmetic operations without SafeMath or Solidity ^0.8.0 can cause overflow/underflow."
  suggestions := [
    "Use OpenZeppelin's SafeMath library",
    "Upgrade to Solidity ^0.8.0 for built-in overflow protection",
    "Add explicit overflow/underflow checks",
    "Use checked\x7b\x7d blocks for arithmetic operations"]
  categories := [.security]

/-! ## Protected sources -/

/-- The character without letter case, among the letters that matter here: the long s counts as an
`s`. -/
def foldCase (c : Char) : Char :=
  if c = 'ſ' then 's' else c.toLower

/-- Whether the source mentions `SafeMath` in any letter case. -/
def mentionsSafeMath (source : List Char) : Bool :=
  mentions "safemath" (source.map foldCase)

/-- The characters of a version constraint before its number. -/
def isConstraint (c : Char) : Bool :=
  c == '^' || c == '>' || c == '=' || c == '~'

/-- Whether the text starts with a minor version from 8 on: the digit 8 or 9, or two digits. -/
def startsModernMinor : List Char → Bool
  | c :: rest =>
    c == '8' || c == '9' || (isDecimalDigit c && rest.head?.any isDecimalDigit)
  | [] => false

/-- Whether the text starts with a version directive for 0.8 or later. -/
def startsModernPragma (s : List Char) : Bool :=
  Option.any startsModernMinor do
    let s ← after? "pragma" s
    let s ← afterSomeBlanks? s
    let s ← after? "solidity" s
    -- a constraint is one run of its characters, with white space around it
    after? "0." (afterBlanks ((afterBlanks s).dropWhile isConstraint))

/-- Whether the arithmetic of the whole source is protected. -/
def isVersionProtected (source : List Char) : Bool :=
  mentionsSafeMath source || occurs startsModernPragma source

/-! ## Arithmetic -/

/-- The arithmetic operators. -/
def isOperator (c : Char) : Bool :=
  c == '+' || c == '-' || c == '*' || c == '/' || c == '%'

/-- Whether the text starts with the last character of a word, an operator and a word, with white
space between them or not. -/
def startsArithmetic : List Char → Bool
  | [] => false
  | c :: rest =>
    isWord c &&
      match afterBlanks rest with
      | op :: rest => isOperator op && (afterBlanks rest).head?.any isWord
      | [] => false

/-- Whether arithmetic occurs in the text. -/
def hasArithmetic (text : List Char) : Bool :=
  occurs startsArithmetic text

/-- Whether the text starts with the keyword and not with a longer word. -/
def startsKeyword (keyword : String) (s : List Char) : Bool :=
  match after? keyword s with
  | some rest => !rest.head?.any isWord
  | none => false

/-- Whether the line is an import or a version directive. -/
def isDirective (text : List Char) : Bool :=
  startsKeyword "import" (afterBlanks text) || startsKeyword "pragma" (afterBlanks text)

/-- Whether a line counts as arithmetic. In legacy mode any `//` or `*` rules it out, a real
multiplication too; in scoped mode its code counts, unless it is a comment or a directive. -/
def isArithmetic (mode : ScanMode) (text : List Char) : Bool :=
  match mode with
  | .legacy => hasArithmetic text && !mentions "//" text && !text.contains '*'
  | .scoped =>
    !isCommentLine text && !isDirective text && hasArithmetic (stripComments text)

/-! ## Findings -/

/-- The finding at a line of an unprotected source. -/
def findingsAt (mode : ScanMode) (line : Line) : List Finding :=
  if isArithmetic mode line.text then [profile.finding (profile.id line.index) .medium line] else []

/-- The findings of a source. -/
def inspect (source : Source) (mode : ScanMode) : List Finding :=
  if isVersionProtected source.text then [] else source.lines.toList.flatMap (findingsAt mode)

end ContractAudit.Detector.Overflow
