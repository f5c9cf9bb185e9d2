import ContractAudit.Json.Reader
import ContractAudit.Report

/-!
# Reading findings and reports from data

Data may give a number as text and a list as anything that can be gone through: the characters of a
text or the keys of an object. What is read is checked in a fixed order, which decides between two
faults: a member is looked up and converted before the next one, except that all five scores are
looked up before the first is converted. Derived members are not read.
-/

namespace ContractAudit

open Json

/-- Why data is no finding or report. -/
inductive ReadError where
  /-- A required member is missing. -/
  | missing (key : String)
  /-- A value with members was expected. -/
  | notAnObject (value : Value)
  /-- A value to go through was expected. -/
  | notAList (value : Value)
  /-- A number was expected. -/
  | notANumber (value : Value)
  /-- A suggestion is a list or an object. -/
  | compoundSuggestion (value : Value)
  | unknownSeverity (value : Value)
  | unknownCategory (value : Value)
  /-- A text writes no whole number. -/
  | malformedInteger (text : Str)
  /-- A text writes a whole number of too many digits. -/
  | tooManyDigits (count : Nat)
  /-- A text writes no real number. -/
  | malformedReal (text : Str)
  /-- A whole number was expected in place of `nan`. -/
  | integerFromNan
  /-- A whole number was expected in place of an infinity. -/
  | integerFromInfinity
  /-- A whole number is beyond the largest real number. -/
  | realTooLarge
  | score (cause : ScoreError)

namespace ReadError

/-- The most characters of a text that are shown when it writes no whole number. -/
def shownLiteral : Nat := 200

/-- The cause in words. -/
def message : ReadError → String
  | .missing key => (Str.text key).literal
  | .notAnObject value => "no members in " ++ value.literal
  | .notAList value => "no items in " ++ value.literal
  | .notANumber value => "no number: " ++ value.literal
  | .compoundSuggestion value => "no plain suggestion: " ++ value.literal
  | .unknownSeverity value => value.literal ++ " is not a valid Severity"
  | .unknownCategory value => value.literal ++ " is not a valid Category"
  | .malformedInteger text =>
    "invalid literal for int() with base 10: " ++
      String.ofList (text.literal.toList.take shownLiteral)
  | .tooManyDigits count =>
    "Exceeds the limit (" ++ toString Text.Numeral.maxDigits ++
      " digits) for integer string conversion: value has " ++ toString count ++
      " digits; use sys.set_int_max_str_digits() to increase the limit"
  | .malformedReal text => "could not convert string to float: " ++ text.literal
  | .integerFromNan => "cannot convert float NaN to integer"
  | .integerFromInfinity => "cannot convert float infinity to integer"
  | .realTooLarge => "int too large to convert to float"
  | .score cause => cause.message

end ReadError

namespace Read

/-! ## Members and items -/

/-- The value of a required member. -/
def required (key : String) (data : Value) : Except ReadError Value :=
  match data with
  | .object members =>
    match Value.lookup (.text key) members with
    | some value => .ok value
    | none => .error (.missing key)
  | _ => .error (.notAnObject data)

/-- What there is to go through in a value. -/
def items : Value → Except ReadError (List Value)
  | .list items => .ok items
  | .string s => .ok (s.points.map fun n => .string (Str.ofPoints [n]))
  | .object members => .ok (members.map fun (key, _) => .string key)
  | value => .error (.notAList value)

/-- The items of an optional member. -/
def optionalItems (key : String) (data : Value) : Except ReadError (List Value) :=
  items ((data.get? key).getD (.list []))

/-- The value of an optional member, an empty text if it is missing. -/
def optionalText (key : String) (data : Value) : Value :=
  (data.get? key).getD (.text "")

/-! ## Numbers -/

/-- The whole part of a number, without its fraction. -/
def truncate (q : Rat) : Int :=
  if 0 ≤ q then q.floor else q.ceil

/-- The whole number that a value gives. -/
def integer (value : Value) : Except ReadError Int :=
  match value with
  | .string (.text s) =>
    match Text.Numeral.readInt s.toList with
    | .ok n => .ok n
    | .error .malformed => .error (.malformedInteger (.text s))
    | .error (.tooManyDigits count) => .error (.tooManyDigits count)
  | .string s => .error (.malformedInteger s)
  | _ =>
    match value.number? with
    | some (.int n) => .ok n
    | some (.real .nan) => .error .integerFromNan
    | some (.real (.infinite _)) => .error .integerFromInfinity
    | some (.real x) => .ok (truncate (x.toRat?.getD 0))
    | none => .error (.notANumber value)

/-- The binary64 number that a value gives. -/
def real (value : Value) : Except ReadError Binary64 :=
  match value with
  | .string (.text s) =>
    match Text.Numeral.readReal? s.toList with
    | some x => .ok x
    | none => .error (.malformedReal (.text s))
  | .string s => .error (.malformedReal s)
  | _ =>
    match value.number? with
    | some n =>
      match n.toBinary64? with
      | some x => .ok x
      | none => .error .realTooLarge
    | none => .error (.notANumber value)

/-! ## Names -/

/-- The severity that a value names. -/
def severity (value : Value) : Except ReadError Severity :=
  match Severity.ofValue? value with
  | some s => .ok s
  | none => .error (.unknownSeverity value)

/-- The category that a value names. -/
def category (value : Value) : Except ReadError Category :=
  match Category.ofValue? value with
  | some c => .ok c
  | none => .error (.unknownCategory value)

/-- The categories that the items of a value name. -/
def categories (value : Value) : Except ReadError (List Category) := do
  (← items value).mapM category

end Read

/-! ## Findings, scores and reports -/

/-- The score of a category that a value gives. -/
def Score.ofValue (c : Category) (value : Value) : Except ReadError Score := do
  (Score.check c (← Read.real value)).mapError .score

/-- The scores that the data gives. -/
def CategoryScores.ofValue (data : Value) : Except ReadError CategoryScores := do
  let security ← Read.required Category.security.name data
  let gasEfficiency ← Read.required Category.gasEfficiency.name data
  let performance ← Read.required Category.performance.name data
  let codeQuality ← Read.required Category.codeQuality.name data
  let documentation ← Read.required Category.documentation.name data
  -- from here on the members are converted, in the same order
  return {
    security := ← Score.ofValue .security security
    gasEfficiency := ← Score.ofValue .gasEfficiency gasEfficiency
    performance := ← Score.ofValue .performance performance
    codeQuality := ← Score.ofValue .codeQuality codeQuality
    documentation := ← Score.ofValue .documentation documentation }

/-- The finding that the data gives. -/
def Finding.ofValue (data : Value) : Except ReadError Finding := do
  let id ← Read.required "id" data
  let title ← Read.required "title" data
  let severity ← Read.severity (← Read.required "severity" data)
  let line ← Read.integer (← Read.required "line" data)
  let suggestions ← Read.optionalItems "suggestions" data
  let categories ← (← Read.optionalItems "categories" data).mapM Read.category
  return {
    id, title, severity, line, suggestions, categories
    description := Read.optionalText "description" data
    snippet := Read.optionalText "snippet" data
    detector := Read.optionalText "detector" data }

/-- Refuses a suggestion that is a list or an object. -/
def Read.suggestion : Value → Except ReadError Value
  | .list items => .error (.compoundSuggestion (.list items))
  | .object members => .error (.compoundSuggestion (.object members))
  | value => .ok value

/-- The report that the data gives. -/
def Report.ofValue (data : Value) : Except ReadError Report := do
  let scores ← CategoryScores.ofValue (← Read.required "scores" data)
  let findings ← (← Read.optionalItems "findings" data).mapM Finding.ofValue
  let suggestions ← (← Read.optionalItems "suggestions" data).mapM Read.suggestion
  return Report.make scores findings suggestions

end ContractAudit
