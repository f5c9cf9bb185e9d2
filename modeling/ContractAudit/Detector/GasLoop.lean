import ContractAudit.Detector.Basic
import ContractAudit.Text.Pattern

/-!
# Storage writes in loops

For each line with a `for` loop, the first line of the loop that writes to an indexed variable is
reported. The finding stands at the writing line and is keyed by the loop's.
-/

namespace ContractAudit.Detector.GasLoop

open Text

def profile : Profile where
  name := "gas-loop"
  title := "Gas Inefficient Storage Access in Loop"
  description :=
    "Storage operations inside loops can be expensive. Consider moving data to memory."
  suggestions := [
    "Move storage array to memory before the loop",
    "Cache storage variables in memory",
    "Use memory arrays for intermediate calculations",
    "Consider batch operations to reduce gas costs"]
  categories := [.gasEfficiency, .performance]

/-- Lines of the window in legacy mode, with the loop's own. -/
def window : Nat := 10

/-- Whether the text starts with a loop header. -/
def startsLoop (s : List Char) : Bool :=
  match after? "for" s with
  | some rest => startsWith "(" (afterBlanks rest)
  | none => false

/-- Whether a loop header occurs in the line. -/
def isLoop (text : List Char) : Bool :=
  occurs startsLoop text

/-- Whether the text starts with the last character of a name that is assigned at one index, a word
or nothing. -/
def startsStorageWrite : List Char → Bool
  | [] => false
  | c :: rest =>
    isWord c && Option.any (fun s => startsAssignment (afterBlanks s)) do
      let s ← after? "[" rest
      after? "]" (s.dropWhile isWord)

/-- Whether the line writes to an indexed variable. -/
def writesStorage (text : List Char) : Bool :=
  occurs startsStorageWrite text

/-- The lines of a loop. -/
def loopLines (lines : Array Line) (mode : ScanMode) (index : Nat) : List Line :=
  match mode with
  | .legacy => linesFrom lines index window
  | .scoped => blockBody lines index scopeLimit

/-- The finding for a loop at a line. -/
def findingsAt (lines : Array Line) (mode : ScanMode) (line : Line) : List Finding :=
  if isLoop line.text then
    match (loopLines lines mode line.index).find? fun l => writesStorage l.text with
    | some hit => [profile.finding (profile.id line.index) .low hit]
    | none => []
  else []

/-- The findings of a source. -/
def inspect (source : Source) (mode : ScanMode) : List Finding :=
  source.lines.toList.flatMap (findingsAt source.lines mode)

end ContractAudit.Detector.GasLoop
