import ContractAudit.Detector.Registry
import ContractAudit.Report
import ContractAudit.Score.Penalty

/-!
# Analysis

An audit runs every detector in order, scores what they found and adds the general checklist. It
fails only when a detector does, or when a score falls out of its range.
-/

namespace ContractAudit

open Json

/-- Why there is no report. -/
inductive AnalysisError where
  /-- A detector failed, with its message. -/
  | defect (message : String)
  | score (cause : ScoreError)
deriving DecidableEq, Repr

/-- The cause in words. -/
def AnalysisError.message : AnalysisError → String
  | .defect message => message
  | .score cause => cause.message

/-- What every report suggests, whatever was found. -/
def generalChecklist : List String := [
  "Follow the checks-effects-interactions pattern for all external calls",
  "Use OpenZeppelin libraries for common security patterns",
  "Add comprehensive NatSpec documentation to all public functions",
  "Implement proper access control for administrative functions",
  "Consider gas optimization for frequently called functions",
  "Add event emissions for important state changes",
  "Use latest Solidity version with built-in overflow protection"]

/-- The findings of the detectors, in their order. -/
def runDetectors (detectors : List Detector) (source : Source) (mode : ScanMode) :
    Except AnalysisError (List Finding) := do
  let found ← detectors.mapM fun detector =>
    (detector.inspect source mode).mapError AnalysisError.defect
  return found.flatten

/-- The report of a source by the given detectors. -/
def analyzeWith (detectors : List Detector) (source : List Char) (mode : ScanMode) :
    Except AnalysisError Report := do
  let findings ← runDetectors detectors (Source.ofText source) mode
  let scores ← (CategoryScores.ofFindings findings).mapError .score
  return Report.make scores findings (generalChecklist.map .text)

/-- The report of a source by the built-in detectors. -/
def analyze (source : List Char) (mode : ScanMode) : Except AnalysisError Report :=
  analyzeWith Detector.builtin source mode

end ContractAudit
