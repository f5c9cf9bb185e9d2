import ContractAudit.Analysis
import ContractAudit.Json.Literal
import ContractAudit.Json.Reader
import ContractAudit.SizeLimit

/-!
# Failures of the service

Why a submission gets no report, with the words and the status of the answer.
-/

namespace ContractAudit.Service

open Json

/-- Why there is no report for a submission. -/
inductive Failure where
  /-- A list or an object of the body stands inside too many others. -/
  | tooDeep (container : Container)
  /-- Neither a source nor a file was sent. -/
  | missingSource
  | unknownMode (value : Value)
  | emptySource
  | wrongExtension (allowed : List String)
  | notUtf8
  /-- The source has a surrogate without its partner; the code points of the source. -/
  | unpairedSurrogate (points : List Nat)
  | rejected (cause : Rejection)
  | analysis (cause : AnalysisError)

/-- Whether the code point is a surrogate. -/
def isSurrogate (n : Nat) : Bool := 0xd800 ≤ n && n ≤ 0xdfff

/-- The words for the first run of surrogates among code points. -/
def surrogateMessage (points : List Nat) : String :=
  let before := points.takeWhile (!isSurrogate ·)
  let run := (points.drop before.length).takeWhile isSurrogate
  let first := before.length
  let what := match run with
    | [n] => "character '" ++ String.ofList (Text.Quoted.numericEscape n) ++ "' in position " ++
        toString first
    | _ => "characters in position " ++ toString first ++ "-" ++ toString (first + run.length - 1)
  "'utf-8' codec can't encode " ++ what ++ ": surrogates not allowed"

/-- The words for a body that is too deep. -/
def nestingMessage (container : Container) : String :=
  let kind := match container with
    | .array => "array"
    | .object => "object"
  "maximum recursion depth exceeded while decoding a JSON " ++ kind ++ " from a unicode string"

/-- The words for an unknown mode. -/
def unknownModeMessage (value : Value) : String :=
  "Unknown scan mode " ++ value.literal ++ " (expected one of: " ++ ScanMode.legacy.name ++ ", " ++
    ScanMode.scoped.name ++ ")"

namespace Failure

/-- The cause in words. -/
def message : Failure → String
  | .tooDeep container => nestingMessage container
  | .missingSource => "Provide 'source' in a JSON body or 'file' in a multipart form."
  | .unknownMode value => unknownModeMessage value
  | .emptySource => "Source is empty"
  | .wrongExtension allowed => "Only " ++ ", ".intercalate allowed ++ " files are accepted"
  | .notUtf8 => "File is not valid UTF-8 text"
  | .unpairedSurrogate points => surrogateMessage points
  | .rejected cause => cause.message
  | .analysis cause => cause.message

/-- Whether the failure is one of the service and not of the submission. -/
def isInternal : Failure → Bool
  | .tooDeep _ | .analysis (.defect _) | .analysis (.score .quotientTooLarge) => true
  | _ => false

/-- The status of the answer. -/
def status (f : Failure) : Nat :=
  if f.isInternal then 500
  else match f with
    | .rejected _ => 413
    | _ => 400

/-- The body of the answer. -/
def toValue (f : Failure) : Value :=
  if f.isInternal then
    .record [("error", .text "Internal analysis error"), ("detail", .text f.message)]
  else .record [("error", .text f.message)]

end Failure

end ContractAudit.Service
