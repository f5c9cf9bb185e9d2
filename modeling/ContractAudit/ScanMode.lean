import ContractAudit.Json.Literal
import ContractAudit.Text.Blank

/-!
# Scan modes

The legacy mode looks at windows of a fixed number of lines; the scoped mode follows blocks and
comment runs. A mode is named in any letter case, with white space around it.
-/

namespace ContractAudit

/-- How far a detector looks. -/
inductive ScanMode where
  | legacy
  | scoped
deriving DecidableEq, Repr, Inhabited

namespace ScanMode

/-- The name of the mode. -/
def name : ScanMode → String
  | .legacy => "legacy"
  | .scoped => "scoped"

/-- The mode with this exact name. -/
def ofName? (name : String) : Option ScanMode :=
  if name = "legacy" then some .legacy else if name = "scoped" then some .scoped else none

theorem ofName?_eq_some_iff {name : String} {mode : ScanMode} :
    ofName? name = some mode ↔ name = mode.name := by
  cases mode <;> simp only [ofName?, ScanMode.name] <;> constructor <;> intro h
  · split at h
    · assumption
    · split at h <;> simp at h
  · simp [h]
  · split at h
    · simp at h
    · split at h
      · assumption
      · simp at h
  · simp [h]

/-- The mode that a value names, as it stands in a sentence. No letter outside ASCII becomes a
letter of the names in lower case. -/
def ofValue? (value : Json.Value) : Option ScanMode :=
  ofName? (String.ofList ((Text.trim value.display.toList).map Char.toLower))

end ScanMode

end ContractAudit
