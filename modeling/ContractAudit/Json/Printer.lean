import ContractAudit.Json.Value
import ContractAudit.Text.Hexadecimal

/-!
# Writing JSON text

One printer with a `Style`: on a single line with ASCII alone, or indented with every character
from U+0020 on as it is. Members are written in their order.
-/

namespace ContractAudit.Json

/-- How a value is written. -/
structure Style where
  /-- Spaces for each level of depth; `none` keeps everything on one line. -/
  indent : Option Nat
  /-- Whether characters beyond ASCII are escaped. -/
  asciiOnly : Bool

namespace Style

/-- One line, ASCII alone. -/
def line : Style := ⟨none, true⟩

/-- Two spaces for each level, characters as they are. -/
def indented : Style := ⟨some 2, false⟩

/-- The break before an item at a depth. -/
def newline (style : Style) (depth : Nat) : String :=
  match style.indent with
  | none => ""
  | some width => "\n" ++ String.ofList (List.replicate (width * depth) ' ')

/-- What stands between items at a depth. -/
def separator (style : Style) (depth : Nat) : String :=
  match style.indent with
  | none => ", "
  | some _ => "," ++ style.newline depth

end Style

/-- The escape of a unit of sixteen bits. -/
def escapeUnit (n : Nat) : String := "\\u" ++ String.ofList (Text.hexDigits 4 n)

/-- A code point inside a string. -/
def escapePoint (asciiOnly : Bool) (n : Nat) : String :=
  if n == 0x22 then "\\\""
  else if n == 0x5c then "\\\\"
  else if n == 0x0a then "\\n"
  else if n == 0x0d then "\\r"
  else if n == 0x09 then "\\t"
  else if n == 0x08 then "\\b"
  else if n == 0x0c then "\\f"
  else if n < 0x20 then escapeUnit n
  else if n < 0x7f || (!asciiOnly && Str.isCharacter n) then String.singleton (Char.ofNat n)
  else if n < 0x10000 then escapeUnit n
  -- 0xd7c0 is 0xd800 less the 0x40 that the offset of 0x10000 takes off the high unit
  else escapeUnit (0xd7c0 + n / 0x400) ++ escapeUnit (0xdc00 + n % 0x400)

/-- A string between its quotes. -/
def Str.write (asciiOnly : Bool) (s : Str) : String :=
  s.points.foldl (fun out n => out ++ escapePoint asciiOnly n) "\"" ++ "\""

mutual

/-- The value as text, at a depth. -/
def Value.writeAt (style : Style) (depth : Nat) : Value → String
  | .null => "null"
  | .bool b => if b then "true" else "false"
  | .number n => n.write Binary64.dataLayout
  | .string s => s.write style.asciiOnly
  | .list [] => "[]"
  | .list (x :: xs) =>
    writeItems style (depth + 1)
      ("[" ++ style.newline (depth + 1) ++ x.writeAt style (depth + 1)) xs ++
      style.newline depth ++ "]"
  | .object [] => "\x7b\x7d"
  | .object ((key, x) :: rest) =>
    writeMembers style (depth + 1)
      ("\x7b" ++ style.newline (depth + 1) ++ key.write style.asciiOnly ++ ": " ++
        x.writeAt style (depth + 1)) rest ++
      style.newline depth ++ "\x7d"

/-- What is written already, with the items after it. -/
def writeItems (style : Style) (depth : Nat) (written : String) : List Value → String
  | [] => written
  | x :: xs =>
    writeItems style depth (written ++ style.separator depth ++ x.writeAt style depth) xs

/-- What is written already, with the members after it. -/
def writeMembers (style : Style) (depth : Nat) (written : String) : List (Str × Value) → String
  | [] => written
  | (key, x) :: rest =>
    writeMembers style depth
      (written ++ style.separator depth ++ key.write style.asciiOnly ++ ": " ++
        x.writeAt style depth) rest

end

/-- The value as text. -/
def Value.write (style : Style) (v : Value) : String :=
  v.writeAt style 0

end ContractAudit.Json
