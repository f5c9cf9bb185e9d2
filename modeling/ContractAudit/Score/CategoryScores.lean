import ContractAudit.Binary64.Decimal
import ContractAudit.Category

/-!
# Scores

A score lies between one and ten. The overall score is the weighted sum of the five category scores,
rounded half up to one decimal place. Every step is a rounded binary64 operation, in the order in
which it is written here. The sum is the plain one from left to right, in which each addition is
rounded by itself: it is not a compensated sum, which would carry what one rounding has lost into
the end and can differ in the last digit.
-/

namespace ContractAudit

/-- The least score. -/
def minScore : Binary64 := .finite 1

/-- The greatest score. -/
def maxScore : Binary64 := .finite 10

/-- Whether a number lies in the range of a score. -/
def isScore (x : Binary64) : Bool :=
  minScore.le x && x.le maxScore

/-- A number in the range of a score. -/
structure Score where
  value : Binary64
  inRange : isScore value = true
deriving DecidableEq

/-- Why numbers are no scores. -/
inductive ScoreError where
  /-- The score of a category is out of range. -/
  | outOfRange (category : Category) (value : Binary64)
  /-- The quotient of a penalty is beyond the largest number. -/
  | quotientTooLarge
deriving DecidableEq, Repr

/-- The cause in words. -/
def ScoreError.message : ScoreError → String
  | .outOfRange category value =>
    category.label ++ " score " ++ Binary64.plainLayout.write value ++ " outside [" ++
      Binary64.plainLayout.write minScore ++ ", " ++ Binary64.plainLayout.write maxScore ++ "]"
  | .quotientTooLarge => "integer division result too large for a float"

/-- The score of a category, if the number lies in the range. -/
def Score.check (category : Category) (value : Binary64) : Except ScoreError Score :=
  if h : isScore value = true then .ok ⟨value, h⟩ else .error (.outOfRange category value)

/-- A score for each category. -/
structure CategoryScores where
  security : Score
  gasEfficiency : Score
  performance : Score
  codeQuality : Score
  documentation : Score
deriving DecidableEq

namespace CategoryScores

/-- The score of a category. -/
def get (scores : CategoryScores) : Category → Score
  | .security => scores.security
  | .gasEfficiency => scores.gasEfficiency
  | .performance => scores.performance
  | .codeQuality => scores.codeQuality
  | .documentation => scores.documentation

/-- The scores of the given numbers, checked in the order of the categories. -/
def ofValues (value : Category → Binary64) : Except ScoreError CategoryScores := do
  let security ← Score.check .security (value .security)
  let gasEfficiency ← Score.check .gasEfficiency (value .gasEfficiency)
  let performance ← Score.check .performance (value .performance)
  let codeQuality ← Score.check .codeQuality (value .codeQuality)
  let documentation ← Score.check .documentation (value .documentation)
  return { security, gasEfficiency, performance, codeQuality, documentation }

/-! ## The overall score -/

/-- The share of a category in the overall score, exactly. -/
def weight : Category → Rat
  | .security => 3 / 10
  | .gasEfficiency => 2 / 10
  | .performance => 2 / 10
  | .codeQuality => 2 / 10
  | .documentation => 1 / 10

/-- The weighted sum of the scores, added in the order of the categories without compensation for
what the additions lose. -/
def weighted (scores : CategoryScores) : Binary64 :=
  Category.all.foldl
    (fun sum c => sum.add ((scores.get c).value.mul (.round (weight c)))) (.finite 0)

/-- Tenths of a number, rounded half up. -/
def tenths (x : Binary64) : Int :=
  ((x.mul (.finite 10)).add (.finite (1 / 2))).floor

/-- The overall score. -/
def overall (scores : CategoryScores) : Binary64 :=
  .quotient (tenths scores.weighted) 10

/-- The scores as data. -/
def toValue (scores : CategoryScores) : Json.Value :=
  .record (Category.all.map fun c => (c.name, .real (scores.get c).value))

end CategoryScores

end ContractAudit
