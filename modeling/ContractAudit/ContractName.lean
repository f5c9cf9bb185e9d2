import ContractAudit.Source.Comment
import ContractAudit.Text.Pattern

/-!
# Contract names

The name of a source is that of the first contract, interface or library it declares. Comment lines
declare nothing, and neither does the part of a line after `//`.
-/

namespace ContractAudit

open Text

/-- Whether an identifier may start with the character. -/
def startsIdentifier (c : Char) : Bool :=
  c.isAlpha || c == '_'

/-- The text after a declaring keyword. -/
def afterKeyword? (s : List Char) : Option (List Char) :=
  match after? "contract" s with
  | some rest => some rest
  | none =>
    match after? "interface" s with
    | some rest => some rest
    | none => after? "library" s

/-- The name that a declaration at the start of the text gives. -/
def declaredName? (s : List Char) : Option (List Char) :=
  match (afterKeyword? s).bind afterSomeBlanks? with
  | some (c :: rest) => if startsIdentifier c then some (c :: rest.takeWhile isWord) else none
  | _ => none

/-- The name of the first declaration in the text; `insideWord` says whether a word character
stands right before it, where no keyword can start. -/
def firstNameFrom? (insideWord : Bool) : List Char → Option (List Char)
  | [] => none
  | c :: rest =>
    match if insideWord then none else declaredName? (c :: rest) with
    | some name => some name
    | none => firstNameFrom? (isWord c) rest

/-- The name that a line declares. -/
def nameInLine? (text : List Char) : Option (List Char) :=
  if isCommentLine text then none else firstNameFrom? false (beforeLineComment text)

/-- The name of a source. -/
def contractName? (source : List Char) : Option (List Char) :=
  (splitLines source).findSome? fun line => nameInLine? line.text

end ContractAudit
