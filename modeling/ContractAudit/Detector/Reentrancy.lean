import ContractAudit.Detector.Basic
import ContractAudit.Text.Pattern

/-!
# Reentrancy

A line that sends value to another contract is reported, once for each form of sending on it. The
finding is critical when a line of the window after it changes state: then the callee runs before
the books are updated.
-/

namespace ContractAudit.Detector.Reentrancy

open Text

def profile : Profile where
  name := "reentrancy"
  title := "Potential Reentrancy Vulnerability"
  description :=
    "External call detected. Ensure state updates happen before external calls to prevent " ++
      "reentrancy attacks."
  suggestions := [
    "Use the checks-effects-interactions pattern",
    "Apply ReentrancyGuard from OpenZeppelin",
    "Update state before external calls",
    "Consider using transfer() instead of call() for simple ether transfers"]
  categories := [.security]

/-- Lines of the window in legacy mode. -/
def window : Nat := 5

/-! ## Forms of sending -/

/-- Whether the text starts with a call whose braces give a value of at least one character. -/
def startsCallWithValue (s : List Char) : Bool :=
  match after? ".call\x7bvalue:" s with
  -- the value runs up to the first closing brace
  | some rest => rest.head? != some '\x7d' && rest.contains '\x7d'
  | none => false

/-- The forms of sending value, as tests on the text from the call on. -/
def forms : List (List Char → Bool) := [
  startsCallWithValue,
  fun s => startsWith ".call.value(" s,
  fun s => startsWith ".send(" s,
  fun s => startsWith ".transfer(" s]

/-- How many of the forms occur in a line. -/
def countForms (text : List Char) : Nat :=
  forms.countP fun form => occurs form text

/-! ## State mutations -/

/-- The operators that an assignment may carry before its `=`. -/
def isCompound (c : Char) : Bool :=
  c == '-' || c == '+' || c == '*' || c == '/' || c == '%' || c == '|' || c == '&' || c == '^'

/-- Whether the text is, after white space, an assignment, possibly a compound one. -/
def startsUpdate (s : List Char) : Bool :=
  match afterBlanks s with
  | c :: rest => startsAssignment (if isCompound c then rest else c :: rest)
  | [] => false

/-- The text after an index in brackets. -/
def afterIndex? (s : List Char) : Option (List Char) :=
  (after? "[" s).bind fun rest => after? "]" (rest.dropWhile (· != ']'))

/-- Whether the text starts with the last character of a name that is then changed: assigned,
directly or at one index, incremented or decremented. -/
def startsMutation : List Char → Bool
  | [] => false
  | c :: rest =>
    isWord c &&
      (startsUpdate rest || (afterIndex? rest).any startsUpdate ||
        startsWith "++" rest || startsWith "--" rest)

/-- Whether the line changes state. -/
def mutatesState (text : List Char) : Bool :=
  occurs startsMutation text

/-! ## Findings -/

/-- The lines after a call in which a mutation counts. -/
def windowAfter (lines : Array Line) (mode : ScanMode) (index : Nat) : List Line :=
  match mode with
  | .legacy => linesAfter lines index window
  | .scoped => restOfBlock lines index scopeLimit

/-- How grave a call at `index` is. -/
def severityAt (lines : Array Line) (mode : ScanMode) (index : Nat) : Severity :=
  if (windowAfter lines mode index).any fun line => mutatesState line.text then .critical
  else .high

/-- The id of the finding for the form `n` of a line, counted from zero. -/
def findingId (index n : Nat) : String :=
  profile.id index ++ if n = 0 then "" else "-" ++ toString (n + 1)

/-- The findings at a line. -/
def findingsAt (lines : Array Line) (mode : ScanMode) (line : Line) : List Finding :=
  match countForms line.text with
  | 0 => []
  | count =>
    let severity := severityAt lines mode line.index
    (List.range count).map fun n => profile.finding (findingId line.index n) severity line

/-- The findings of a source. -/
def inspect (source : Source) (mode : ScanMode) : List Finding :=
  source.lines.toList.flatMap (findingsAt source.lines mode)

end ContractAudit.Detector.Reentrancy
