import ContractAudit.Number
import ContractAudit.Source.Line
import ContractAudit.Text.Utf8

/-!
# Size limits

A host refuses a source before it is analyzed when it takes too many octets or has a line of too
many characters. Of two excesses the octets are reported.
-/

namespace ContractAudit

/-- Why a source is refused. -/
inductive Rejection where
  | tooManyBytes (size : Nat) (limit : Number)
  | lineTooLong (longest : Nat) (limit : Number)
deriving DecidableEq, Repr

/-- The cause in words. -/
def Rejection.message : Rejection → String
  | .tooManyBytes size limit =>
    "Source is " ++ toString size ++ " bytes; the limit is " ++ limit.literal ++ " bytes"
  | .lineTooLong longest limit =>
    "Source contains a " ++ toString longest ++ "-character line; the limit is " ++ limit.literal

/-- The length of the longest part between newlines. -/
def longestLine (source : List Char) : Nat :=
  (parts source).foldl (fun longest part => max longest part.length) 0

/-- The source, if it keeps both limits. -/
def enforceSizeLimit (maxBytes maxLineChars : Number) (source : List Char) :
    Except Rejection (List Char) :=
  let size := Text.Utf8.size source
  if maxBytes.lt (.int size) then .error (.tooManyBytes size maxBytes)
  else
    let longest := longestLine source
    if maxLineChars.lt (.int longest) then .error (.lineTooLong longest maxLineChars)
    else .ok source

/-- The octets that a source may take where nothing else is said. -/
def defaultMaxBytes : Nat := 512 * 1024

/-- The characters that a line may have where nothing else is said. -/
def defaultMaxLineChars : Nat := 10000

end ContractAudit
