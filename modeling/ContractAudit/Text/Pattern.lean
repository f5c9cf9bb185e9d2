import ContractAudit.Text.Blank
import ContractAudit.Text.Occurrence
import ContractAudit.Text.Word

/-!
# Steps of a pattern

A pattern reads a text from left to right. The steps here pass a whole run of white space or of word
characters: whatever follows a run in a pattern is of another class, so a shorter run never helps.
-/

namespace ContractAudit.Text

/-- The text after its white space. -/
def afterBlanks (s : List Char) : List Char :=
  s.dropWhile isBlank

/-- The text after its white space, if it starts with some. -/
def afterSomeBlanks? : List Char → Option (List Char)
  | c :: rest => if isBlank c then some (afterBlanks rest) else none
  | [] => none

/-- The text after its word characters, if it starts with some. -/
def afterSomeWord? : List Char → Option (List Char)
  | c :: rest => if isWord c then some (rest.dropWhile isWord) else none
  | [] => none

/-- Whether the text starts with an assignment: `=`, but not the `==` of a comparison. -/
def startsAssignment : List Char → Bool
  | '=' :: rest => rest.head? != some '='
  | _ => false

end ContractAudit.Text
