import ContractAudit.Finding
import ContractAudit.Number
import ContractAudit.Score.CategoryScores

/-!
# Penalties

Each finding charges the weight of its severity against every category it carries, once however
often it lists the category, and three tenths of the weight against code quality, whatever it
carries. Four of the five penalties are thus whole numbers; that of code quality is zero until the
first finding and a binary64 sum from then on, rounded once for each finding.

A category score falls from ten by a quarter of the penalty, which counts up to forty.
-/

namespace ContractAudit

/-- The penalty of each category. -/
structure Penalties where
  security : Nat
  gasEfficiency : Nat
  performance : Nat
  codeQuality : Number
  documentation : Nat
deriving DecidableEq, Repr

namespace Penalties

/-- No penalties. -/
def zero : Penalties := ⟨0, 0, 0, .int 0, 0⟩

/-- The penalty of a category. -/
def get (p : Penalties) : Category → Number
  | .security => .int p.security
  | .gasEfficiency => .int p.gasEfficiency
  | .performance => .int p.performance
  | .codeQuality => p.codeQuality
  | .documentation => .int p.documentation

/-- The penalties with a weight charged against a category. Code quality takes none: it has a charge
of its own. -/
def charge (weight : Nat) (p : Penalties) : Category → Penalties
  | .security => { p with security := p.security + weight }
  | .gasEfficiency => { p with gasEfficiency := p.gasEfficiency + weight }
  | .performance => { p with performance := p.performance + weight }
  | .codeQuality => p
  | .documentation => { p with documentation := p.documentation + weight }

/-- The part of each weight that is charged against code quality. -/
def codeQualityShare : Binary64 := .round (3 / 10)

/-- What a weight charges against code quality. -/
def qualityCharge (weight : Nat) : Binary64 :=
  (Binary64.ofInt weight).mul codeQualityShare

/-- The penalties with those of one more finding. -/
def add (p : Penalties) (f : Finding) : Penalties :=
  let p := f.categories.eraseDups.foldl (charge f.severity.weight) p
  { p with codeQuality := .real (p.codeQuality.plus (qualityCharge f.severity.weight)) }

/-- The penalties of findings. -/
def ofFindings (findings : List Finding) : Penalties :=
  findings.foldl add zero

end Penalties

/-! ## Scores from penalties -/

/-- The most that a penalty counts. -/
def maxPenalty : Int := 40

/-- A fourth of a penalty. -/
def quarter : Number → Except ScoreError Binary64
  | .int n =>
    match Binary64.quotient n 4 with
    | .infinite _ => .error .quotientTooLarge
    | x => .ok x
  | .real x => .ok (x.divNat 4)

/-- The score that a penalty leaves. -/
def categoryScore (penalty : Number) : Except ScoreError Binary64 := do
  let counted := if penalty.lt (.int maxPenalty) then penalty else .int maxPenalty
  let left := maxScore.sub (← quarter counted)
  return if minScore.lt left then left else minScore

/-- The category scores of penalties. -/
def Penalties.scores (p : Penalties) : Except ScoreError CategoryScores := do
  let security ← categoryScore (p.get .security)
  let gasEfficiency ← categoryScore (p.get .gasEfficiency)
  let performance ← categoryScore (p.get .performance)
  let codeQuality ← categoryScore (p.get .codeQuality)
  let documentation ← categoryScore (p.get .documentation)
  CategoryScores.ofValues fun
    | .security => security
    | .gasEfficiency => gasEfficiency
    | .performance => performance
    | .codeQuality => codeQuality
    | .documentation => documentation

/-- The category scores of findings. -/
def CategoryScores.ofFindings (findings : List Finding) : Except ScoreError CategoryScores :=
  (Penalties.ofFindings findings).scores

end ContractAudit
