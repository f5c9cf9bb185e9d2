import ContractAudit.Text.Hexadecimal
import ContractAudit.Text.Printable

/-!
# Quoted text in messages

A text stands in a message between quotes, single ones unless it holds a single quote and no double
one. A backslash, the quote in use and every character that does not print are escaped; what prints
stands as it is.
-/

namespace ContractAudit.Text.Quoted

/-- The escape of a code point that does not print, the shortest of the three forms. -/
def numericEscape (n : Nat) : List Char :=
  if n < 0x100 then '\\' :: 'x' :: hexDigits 2 n
  else if n < 0x10000 then '\\' :: 'u' :: hexDigits 4 n
  else '\\' :: 'U' :: hexDigits 8 n

/-- A code point between quotes of the kind `quote`. -/
def encodePoint (quote : Char) (n : Nat) : List Char :=
  if n == quote.toNat || n == '\\'.toNat then ['\\', Char.ofNat n]
  else if n == '\n'.toNat then ['\\', 'n']
  else if n == '\r'.toNat then ['\\', 'r']
  else if n == '\t'.toNat then ['\\', 't']
  else if isPrintable n then [Char.ofNat n]
  else numericEscape n

/-- The quote that a text of these code points takes. -/
def quoteFor (points : List Nat) : Char :=
  if points.contains '\x27'.toNat && !points.contains '\x22'.toNat then '\x22' else '\x27'

/-- The code points as a quoted text. -/
def encode (points : List Nat) : List Char :=
  let quote := quoteFor points
  quote :: points.flatMap (encodePoint quote) ++ [quote]

end ContractAudit.Text.Quoted
