import ContractAudit.Json.Value
import ContractAudit.Text.Quoted

/-!
# Values in messages

A message names a value by its literal: strings quoted as by `Text.Quoted`, the constants `None`,
`True` and `False`, lists in brackets and members in braces, all on one line.
-/

namespace ContractAudit.Json

/-- The string quoted. -/
def Str.literal (s : Str) : String :=
  String.ofList (Text.Quoted.encode s.points)

mutual

/-- The value as it stands in a message. -/
def Value.literal : Value → String
  | .null => "None"
  | .bool b => if b then "True" else "False"
  | .number n => n.literal
  | .string s => s.literal
  | .list [] => "[]"
  | .list (x :: xs) => literalItems ("[" ++ x.literal) xs ++ "]"
  | .object [] => "\x7b\x7d"
  | .object ((key, x) :: rest) =>
    literalMembers ("\x7b" ++ key.literal ++ ": " ++ x.literal) rest ++ "\x7d"

/-- What is written already, with the items after it. -/
def literalItems (written : String) : List Value → String
  | [] => written
  | x :: xs => literalItems (written ++ ", " ++ x.literal) xs

/-- What is written already, with the members after it. -/
def literalMembers (written : String) : List (Str × Value) → String
  | [] => written
  | (key, x) :: rest => literalMembers (written ++ ", " ++ key.literal ++ ": " ++ x.literal) rest

end

/-- The value inside a sentence: a text as it is, any other value as its literal. -/
def Value.display : Value → String
  | .string (.text s) => s
  | v => v.literal

end ContractAudit.Json
