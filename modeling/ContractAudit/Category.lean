import ContractAudit.Json.Value

/-!
# Categories

The five aspects in which a contract is scored.
-/

namespace ContractAudit

/-- An aspect that is scored. -/
inductive Category where
  | security
  | gasEfficiency
  | performance
  | codeQuality
  | documentation
deriving DecidableEq, Repr, Inhabited

namespace Category

/-- Every category, in the order of a report. -/
def all : List Category := [.security, .gasEfficiency, .performance, .codeQuality, .documentation]

/-- The name of the category in data. -/
def name : Category → String
  | .security => "security"
  | .gasEfficiency => "gasEfficiency"
  | .performance => "performance"
  | .codeQuality => "codeQuality"
  | .documentation => "documentation"

/-- The name of the category in messages. -/
def label : Category → String
  | .gasEfficiency => "gas_efficiency"
  | .codeQuality => "code_quality"
  | c => c.name

theorem mem_all (c : Category) : c ∈ all := by cases c <;> decide

/-- The category that a value names exactly. -/
def ofValue? : Json.Value → Option Category
  | .string (.text s) => all.find? (·.name == s)
  | _ => none

@[simp] theorem ofValue?_name (c : Category) : ofValue? (.text c.name) = some c := by
  cases c <;> rfl

end Category

end ContractAudit
