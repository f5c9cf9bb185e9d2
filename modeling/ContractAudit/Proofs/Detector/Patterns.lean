import ContractAudit.Detector.Registry
import ContractAudit.Proofs.Source.AlikeText

/-!
# The patterns of the detectors and white space

What a detector looks for in a line is found in it or not whatever white space stands at the end of
the line. Each pattern is put together from steps that ignore trailing white space, and a lemma here
follows the definition of the pattern from step to step.

Main results: `ignoresTrailing_countForms`, `ignoresTrailing_mutatesState`, `isArithmetic_congr`,
`ignoresTrailing_isLoop`, `ignoresTrailing_writesStorage`,
`ignoresTrailing_declaresPublicFunction`, `ignoresTrailing_hasGuard`,
`ignoresTrailing_isDeclaration` and `ignoresTrailing_hasDocumentation` for a line, and
`ignoresTrailing_isVersionProtected` for a source as a whole.
-/

namespace ContractAudit.Detector

open Text

/-! ## Reentrancy -/

namespace Reentrancy

theorem ignoresTrailing_startsCallWithValue : IgnoresTrailing startsCallWithValue := by
  have hvalue : IgnoresTrailing fun s => s.head? != some '\x7d' && s.contains '\x7d' := by
    intro s w hw
    have hcontains := ignoresTrailing_contains (c := '\x7d') rfl s w hw
    cases s with
    | nil =>
      -- white space alone has no closing brace
      have hnone : w.contains '\x7d' = false := hcontains
      show (w.head? != some '\x7d' && w.contains '\x7d') = false
      rw [hnone, Bool.and_false]
    | cons c s => exact congrArg ((c :: s).head? != some '\x7d' && ·) hcontains
  refine (hvalue.after ".call\x7bvalue:" rfl (.const false)).of_eq fun s => ?_
  rw [startsCallWithValue]
  cases after? ".call\x7bvalue:" s <;> rfl

theorem ignoresTrailing_countForms : IgnoresTrailing countForms := by
  have hforms : ∀ form ∈ forms, IgnoresTrailing form := by
    intro form hform
    simp only [forms, List.mem_cons, List.not_mem_nil, or_false] at hform
    rcases hform with rfl | rfl | rfl | rfl
    · exact ignoresTrailing_startsCallWithValue
    · exact ignoresTrailing_startsWith _ rfl
    · exact ignoresTrailing_startsWith _ rfl
    · exact ignoresTrailing_startsWith _ rfl
  intro s w hw
  refine List.countP_congr fun form hform => ?_
  rw [(hforms form hform).occurs s w hw]

theorem ignoresTrailing_startsUpdate : IgnoresTrailing startsUpdate := by
  have hhead : IgnoresTrailing fun s =>
      startsAssignment (if s.head?.any isCompound then s.tail else s) := by
    intro s w hw
    cases s with
    | nil =>
      cases w with
      | nil => rfl
      | cons c w =>
        -- white space is neither an operator nor the sign of an assignment
        have hc : isCompound c = false :=
          of_isBlank (p := fun c => isCompound c = false) (by decide) (isAllBlank_cons.1 hw).1
        show startsAssignment (if isCompound c then w else c :: w) = false
        rw [hc]
        exact ignoresTrailing_startsAssignment.of_isAllBlank hw
    | cons c s =>
      show startsAssignment (if isCompound c then s ++ w else c :: (s ++ w)) =
        startsAssignment (if isCompound c then s else c :: s)
      cases isCompound c with
      | true => exact ignoresTrailing_startsAssignment s w hw
      | false => exact ignoresTrailing_startsAssignment (c :: s) w hw
  refine hhead.afterBlanks.of_eq fun s => ?_
  rw [startsUpdate]
  cases afterBlanks s <;> rfl

theorem ignoresTrailing_afterIndex :
    IgnoresTrailing fun s => (afterIndex? s).any startsUpdate := by
  -- a run up to the bracket may end in the added white space, where no bracket is found
  refine (((ignoresTrailing_startsUpdate.after "]" rfl (.const false)).dropWhile
    (· != ']')).after "[" rfl (.const false)).of_eq fun s => ?_
  simp only [afterIndex?, any_eq_elim, elim_bind]

theorem ignoresTrailing_mutatesState : IgnoresTrailing mutatesState := by
  refine (IgnoresTrailing.cons rfl (fun c s => rfl) (fun c => isWord_of_isBlank) ?_).occurs
  exact ((ignoresTrailing_startsUpdate.combine ignoresTrailing_afterIndex or).combine
    (ignoresTrailing_startsWith "++" rfl) or).combine (ignoresTrailing_startsWith "--" rfl) or

end Reentrancy

/-! ## Overflow -/

namespace Overflow

theorem ignoresTrailing_hasArithmetic : IgnoresTrailing hasArithmetic := by
  have hoperator : ∀ c, isBlank c = true → isOperator c = false := fun c hc =>
    of_isBlank (p := fun c => isOperator c = false) (by decide) hc
  have hword : IgnoresTrailing fun s => (afterBlanks s).head?.any isWord :=
    (IgnoresTrailing.head fun c => isWord_of_isBlank).afterBlanks
  have hhead : IgnoresTrailing fun s =>
      s.head?.any isOperator && (afterBlanks s.tail).head?.any isWord :=
    .cons rfl (fun c s => rfl) hoperator hword
  refine (IgnoresTrailing.cons rfl (fun c s => ?_) (fun c => isWord_of_isBlank)
    hhead.afterBlanks).occurs
  rw [startsArithmetic]
  cases afterBlanks s <;> rfl

theorem ignoresTrailing_startsKeyword {keyword : String} (hk : isSolid keyword = true) :
    IgnoresTrailing (startsKeyword keyword) := by
  have hword : IgnoresTrailing fun s => !s.head?.any isWord :=
    (IgnoresTrailing.head fun c => isWord_of_isBlank).map (! ·)
  refine (hword.after keyword hk (.const false)).of_eq fun s => ?_
  rw [startsKeyword]
  cases after? keyword s <;> rfl

theorem ignoresTrailing_isDirective : IgnoresTrailing isDirective :=
  (ignoresTrailing_startsKeyword rfl).afterBlanks.combine
    (ignoresTrailing_startsKeyword rfl).afterBlanks or

/-- In scoped mode the code of the line decides, which holds of a line and not of any text. -/
theorem isArithmetic_congr {a b : List Char} (h : AlikeText a b) (mode : ScanMode) :
    isArithmetic mode b = isArithmetic mode a := by
  cases mode
  · -- the line as it is written decides
    have hlegacy : IgnoresTrailing (isArithmetic .legacy) :=
      (ignoresTrailing_hasArithmetic.combine ((ignoresTrailing_mentions "//" rfl).map not)
        and).combine ((ignoresTrailing_contains (c := '*') rfl).map not) and
    exact h.congr hlegacy
  · rw [isArithmetic, isArithmetic, h.congr ignoresTrailing_isCommentLine,
      h.congr ignoresTrailing_isDirective, h.code ignoresTrailing_hasArithmetic]

theorem foldCase_of_isBlank {c : Char} (h : isBlank c = true) : foldCase c = c :=
  of_isBlank (p := fun c => foldCase c = c) (by decide) h

theorem map_foldCase_of_isAllBlank {w : List Char} (hw : isAllBlank w = true) :
    w.map foldCase = w := by
  have hid : ∀ c ∈ w, foldCase c = c := fun c hc =>
    foldCase_of_isBlank (List.all_eq_true.1 hw c hc)
  rw [List.map_congr_left hid, List.map_id']

theorem ignoresTrailing_mentionsSafeMath : IgnoresTrailing mentionsSafeMath := by
  intro s w hw
  rw [mentionsSafeMath, mentionsSafeMath, List.map_append, map_foldCase_of_isAllBlank hw]
  exact ignoresTrailing_mentions _ rfl _ w hw

theorem ignoresTrailing_startsModernMinor : IgnoresTrailing startsModernMinor := by
  have hdigit : ∀ c, isBlank c = true → isDecimalDigit c = false := fun c hc =>
    of_isBlank (p := fun c => isDecimalDigit c = false) (by decide) hc
  intro s w hw
  cases s with
  | nil =>
    cases w with
    | nil => rfl
    | cons c w =>
      have hc := (isAllBlank_cons.1 hw).1
      have height : (c == '8') = false := beq_eq_false_iff_ne.2 (ne_of_isBlank hc rfl)
      have hnine : (c == '9') = false := beq_eq_false_iff_ne.2 (ne_of_isBlank hc rfl)
      rw [List.nil_append, startsModernMinor, height, hnine, hdigit c hc]
      rfl
  | cons c s =>
    rw [List.cons_append, startsModernMinor, startsModernMinor]
    exact congrArg (_ || isDecimalDigit c && ·) (IgnoresTrailing.head hdigit s w hw)

theorem ignoresTrailing_startsModernPragma : IgnoresTrailing startsModernPragma := by
  -- put together from the end of the directive to its start
  have hnumber :=
    (ignoresTrailing_startsModernMinor.after "0." rfl (.const false)).afterBlanks
  have hconstraint := (hnumber.dropWhile isConstraint).afterBlanks
  have hlanguage := hconstraint.after "solidity" rfl (.const false)
  refine (hlanguage.afterSomeBlanks.after "pragma" rfl (.const false)).of_eq
    fun s => ?_
  simp only [startsModernPragma, any_eq_elim, Option.bind_eq_bind, elim_bind]
  rfl

theorem ignoresTrailing_isVersionProtected : IgnoresTrailing isVersionProtected :=
  ignoresTrailing_mentionsSafeMath.combine ignoresTrailing_startsModernPragma.occurs or

end Overflow

/-! ## Storage writes in loops -/

namespace GasLoop

theorem ignoresTrailing_isLoop : IgnoresTrailing isLoop := by
  have hloop : IgnoresTrailing startsLoop := by
    have hopened := (ignoresTrailing_startsWith "(" rfl).afterBlanks
    refine (hopened.after "for" rfl (.const false)).of_eq fun s => ?_
    rw [startsLoop]
    cases after? "for" s <;> rfl
  exact hloop.occurs

theorem ignoresTrailing_writesStorage : IgnoresTrailing writesStorage := by
  refine (IgnoresTrailing.cons rfl (fun c s => rfl) (fun c => isWord_of_isBlank) ?_).occurs
  refine (((ignoresTrailing_startsAssignment.afterBlanks.after "]" rfl
    (.const false)).dropWhile isWord).after "[" rfl (.const false)).of_eq fun s => ?_
  simp only [any_eq_elim, Option.bind_eq_bind, elim_bind]

end GasLoop

/-! ## Access control -/

namespace AccessControl

theorem ignoresTrailing_declaresPublicFunction : IgnoresTrailing declaresPublicFunction := by
  -- put together from the visibility back to the keyword
  have hvisible : IgnoresTrailing fun s => startsWith "public" s || startsWith "external" s :=
    (ignoresTrailing_startsWith "public" rfl).combine (ignoresTrailing_startsWith "external" rfl) or
  have hclosed := hvisible.afterBlanks.after ")" rfl (.const false)
  have hparameters := (hclosed.dropWhile (· != ')')).after "(" rfl (.const false)
  have hname := hparameters.afterBlanks.afterSomeWord.afterSomeBlanks
  refine IgnoresTrailing.occurs ((hname.after "function" rfl (.const false)).of_eq
    fun s => ?_)
  simp only [startsPublicFunction, any_eq_elim, Option.bind_eq_bind, elim_bind, Option.elim_some]
  rfl

theorem ignoresTrailing_hasGuard : IgnoresTrailing hasGuard := by
  have hsender : IgnoresTrailing startsSenderCheck := by
    have hargument := (ignoresTrailing_startsWith "msg.sender" rfl).afterBlanks
    have hopened := (hargument.after "(" rfl (.const false)).afterBlanks
    refine (hopened.after "require" rfl (.const false)).of_eq fun s => ?_
    rw [startsSenderCheck]
    cases after? "require" s with
    | none => rfl
    | some rest =>
      dsimp only [Option.elim_some]
      cases after? "(" (afterBlanks rest) <;> rfl
  exact (((ignoresTrailing_startsWith "onlyOwner" rfl).combine hsender or).combine
    (ignoresTrailing_startsWith "modifier" rfl) or).occurs

end AccessControl

/-! ## Missing documentation -/

namespace NatSpec

theorem ignoresTrailing_declaresFunction : IgnoresTrailing declaresFunction := by
  refine IgnoresTrailing.occurs (((IgnoresTrailing.head (p := isWord) fun c =>
    isWord_of_isBlank).afterSomeBlanks.after "function" rfl (.const false)).of_eq
      fun s => ?_)
  rw [startsFunction]
  cases after? "function" s with
  | none => rfl
  | some rest =>
    dsimp only [Option.bind_some, Option.elim_some]
    cases afterSomeBlanks? rest <;> rfl

theorem ignoresTrailing_isDeclaration (mode : ScanMode) : IgnoresTrailing (isDeclaration mode) :=
  ignoresTrailing_declaresFunction.combine
    (ignoresTrailing_isCommentLine.map fun comment => mode == .legacy || !comment) and

theorem ignoresTrailing_hasDocumentation : IgnoresTrailing hasDocumentation :=
  (ignoresTrailing_mentions "///" rfl).combine (ignoresTrailing_mentions "/**" rfl) or

end NatSpec

end ContractAudit.Detector
