import ContractAudit.Proofs.Report.AtLine
import ContractAudit.Proofs.Source.CommentRuns
import ContractAudit.Proofs.Text.Runs

/-!
# The functions that scoped mode reports as undocumented

Scoped mode looks for documentation in the comment block right above a function and nowhere else.
The block is a run of comment lines without a gap, so a line documents the function exactly if it is
within the cap and all lines from it down to the function are comment lines. A line that is a
comment itself declares nothing.

Main results: `declaresFunction_iff`, `hasDocumentation_iff`, and `reported_iff_undocumented`, the
exact answer of the detector at each line.
-/

namespace ContractAudit.Detector.NatSpec

open Text

/-! ## Declarations -/

/-- The start of a function: the keyword, white space, and the first character of the name. -/
structure Declaration where
  gap : List Char
  first : Char
  gap_ne_nil : gap ≠ []
  gap_blank : isAllBlank gap = true
  first_word : isWord first = true

/-- The start of the function as it is written. -/
def Declaration.text (d : Declaration) : List Char :=
  "function".toList ++ d.gap ++ [d.first]

theorem startsFunction_iff {s : List Char} :
    startsFunction s = true ↔ ∃ d : Declaration, d.text <+: s := by
  constructor
  · intro h
    unfold startsFunction at h
    split at h
    · rename_i s₂ hsome
      obtain ⟨s₁, hkeyword, hgap⟩ := Option.bind_eq_some_iff.1 hsome
      obtain ⟨gap, gap_ne_nil, gap_blank, rfl⟩ := exists_of_afterSomeBlanks? hgap
      obtain ⟨first, hfirst, first_word⟩ := (Option.any_eq_true _ _).1 h
      obtain ⟨rest, rfl⟩ := List.head?_eq_some_iff.1 hfirst
      refine ⟨{ gap, first, gap_ne_nil, gap_blank, first_word }, rest, ?_⟩
      rw [after?_eq_some_iff.1 hkeyword]
      unfold Declaration.text
      simp only [List.append_assoc, List.singleton_append]
    · cases h
  · rintro ⟨d, rest, rfl⟩
    have hgap : afterSomeBlanks? (d.gap ++ d.first :: rest) = some (d.first :: rest) := by
      refine afterSomeBlanks?_append d.gap_ne_nil d.gap_blank fun c hc => ?_
      cases hc
      exact isBlank_of_isWord d.first_word
    unfold Declaration.text
    simp only [List.append_assoc, List.singleton_append]
    unfold startsFunction
    rw [after?_eq_some_iff.2 rfl, Option.bind_some, hgap]
    exact d.first_word

theorem declaresFunction_iff {text : List Char} :
    declaresFunction text = true ↔ ∃ d : Declaration, d.text <:+: text :=
  occurs_iff_isInfix fun _ => startsFunction_iff

/-! ## Documentation -/

theorem hasDocumentation_iff {text : List Char} :
    hasDocumentation text = true ↔ "///".toList <:+: text ∨ "/**".toList <:+: text := by
  rw [hasDocumentation, Bool.or_eq_true, mentions_iff, mentions_iff]

/-! ## Reported functions -/

/-- **The answer of scoped mode.** A line is reported exactly if it holds the start of a function,
is no comment line, and none of the comment lines that reach down to it without a gap and within the
cap holds documentation. It is then reported once. The comment block above a line is the longest run
of comment lines that ends right above it, within the cap. -/
theorem reported_iff_undocumented (source : List Char) (i : Fin (splitLines source).length) :
    let found := standingAt (i + 1) (inspect (.ofText source) .scoped)
    (found ≠ [] ↔ (∃ d : Declaration, d.text <:+: ((splitLines source).get i).text) ∧
      isCommentLine ((splitLines source).get i).text = false ∧
      ∀ (j : Nat) line, j < i → i - j ≤ 200 → CommentsBetween (splitLines source) j i →
        (splitLines source)[j]? = some line →
          ¬"///".toList <:+: line.text ∧ ¬"/**".toList <:+: line.text) ∧
    (found ≠ [] → found = [profile.finding (profile.id i) .info ((splitLines source).get i)]) ∧
    ∃ first, IsRunStart (splitLines source) i 200 first ∧
      commentBlockAbove (Source.ofText source).lines i scopeLimit =
        ((splitLines source).take i).drop first := by
  intro found
  have hfound : found =
      findingsAt (Source.ofText source).lines .scoped ((splitLines source).get i) :=
    standingAt_flatMap (fun line => (reportsAt_ite profile line .info _).standAt) i
  rw [findingsAt, index_get_splitLines] at hfound
  obtain ⟨hreported, honce⟩ := reported_of_eq_ite hfound
  refine ⟨?_, honce, exists_isRunStart i.isLt.le 200⟩
  have hdeclares : isDeclaration .scoped ((splitLines source).get i).text = true ↔
      (∃ d : Declaration, d.text <:+: ((splitLines source).get i).text) ∧
        isCommentLine ((splitLines source).get i).text = false := by
    rw [isDeclaration, Bool.and_eq_true, declaresFunction_iff]
    simp
  rw [hreported, Bool.and_eq_true, hdeclares, and_assoc, Bool.not_eq_true']
  refine and_congr_right fun _ => and_congr_right fun _ => ?_
  rw [← Bool.not_eq_true, List.any_eq_true]
  constructor
  · intro hnone j line hji hlimit hcomments hline
    have habove : line ∈ linesAbove (Source.ofText source).lines .scoped i :=
      (mem_commentBlockAbove_iff i.isLt.le).2 ⟨j, hji, hlimit, hcomments, hline⟩
    have hplain : ¬hasDocumentation line.text = true := fun h => hnone ⟨line, habove, h⟩
    rwa [hasDocumentation_iff, not_or] at hplain
  · rintro hall ⟨line, hline, hdocuments⟩
    obtain ⟨j, hji, hlimit, hcomments, hj⟩ := (mem_commentBlockAbove_iff i.isLt.le).1 hline
    obtain ⟨hslashes, hstars⟩ := hall j line hji hlimit hcomments hj
    exact (hasDocumentation_iff.1 hdocuments).elim hslashes hstars

end ContractAudit.Detector.NatSpec
