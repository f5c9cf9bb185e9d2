import ContractAudit.Text.Hexadecimal

/-!
# Targets of requests

A target is a path, and behind it perhaps a query and a fragment, which the service does not read. A
path may write its characters as percent codes.
-/

namespace ContractAudit.Http

/-- The text with each percent sign and two hexadecimal digits as the ASCII character they stand
for; codes beyond ASCII stay. -/
def percentDecode : List Char → List Char
  | '%' :: a :: b :: rest =>
    match Text.hexDigit? a.toNat, Text.hexDigit? b.toNat with
    | some high, some low =>
      if high < 8 then Char.ofNat (high * 16 + low) :: percentDecode rest
      else '%' :: percentDecode (a :: b :: rest)
    | _, _ => '%' :: percentDecode (a :: b :: rest)
  | c :: rest => c :: percentDecode rest
  | [] => []

/-- The path of a target: what stands before a query or a fragment, decoded. Tabs and the characters
that end lines do not count. -/
def pathOf (target : String) : List Char :=
  let kept := target.toList.filter fun c => c != '\t' && c != '\n' && c != '\r'
  percentDecode (kept.takeWhile fun c => c != '?' && c != '#')

/-- The path with each run of slashes as one. -/
def mergeSlashes : List Char → List Char
  | '/' :: '/' :: rest => mergeSlashes ('/' :: rest)
  | c :: rest => c :: mergeSlashes rest
  | [] => []

end ContractAudit.Http
