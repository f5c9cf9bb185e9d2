import ContractAudit.Finding
import ContractAudit.ScanMode
import ContractAudit.Source.Window

/-!
# Detectors

A detector inspects a source in one of the two modes. It may fail, which no built-in detector does:
their inspections are total, and `Detector.ofTotal` registers them.
-/

namespace ContractAudit

/-- A named inspection. A failure carries its message. -/
structure Detector where
  name : String
  inspect : Source → ScanMode → Except String (List Finding)

namespace Detector

/-- A detector that never fails. -/
def ofTotal (name : String) (inspect : Source → ScanMode → List Finding) : Detector where
  name := name
  inspect source mode := .ok (inspect source mode)

/-- A detector that always fails. -/
def failing (name message : String) : Detector where
  name := name
  inspect _ _ := .error message

/-- What all findings of a detector share. -/
structure Profile where
  name : String
  title : String
  description : String
  suggestions : List String
  categories : List Category

/-- The id of a finding: the name of its detector and the place it is keyed by. -/
def Profile.id (profile : Profile) (index : Nat) : String :=
  profile.name ++ "-" ++ toString index

/-- The finding with an id and a severity at a line. -/
def Profile.finding (profile : Profile) (id : String) (severity : Severity) (line : Line) :
    Finding where
  id := .text id
  title := .text profile.title
  severity := severity
  line := line.number
  description := .text profile.description
  snippet := .text (String.ofList (Text.trim line.text))
  suggestions := profile.suggestions.map .text
  categories := profile.categories
  detector := .text profile.name

end Detector

end ContractAudit
