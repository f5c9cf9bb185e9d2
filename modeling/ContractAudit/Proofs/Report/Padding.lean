import ContractAudit.Proofs.Report.AlikeSources

/-!
# Blank lines around a source

Lines of white space that are put before a source and after it change nothing in its report but the
places of the findings, which move down by the number of the lines before.

They cannot hide at the ends of a window: a window that was clipped at the top or the bottom of the
source now runs on over white space, where nothing is found. And they neither bring up a version
directive nor hide one, although a directive may run over several lines: it starts with a letter and
ends with a digit.

Main result: `analyze_padded`.
-/

namespace ContractAudit

open Text

/-! ## White space before a text -/

theorem after?_of_isBlank {literal : String} (hl : isSolid literal = true)
    (hne : literal.toList ≠ []) {c : Char} (hc : isBlank c = true) (s : List Char) :
    after? literal (c :: s) = none := by
  obtain ⟨a, rest, hliteral⟩ := List.exists_cons_of_ne_nil hne
  have hsolid : isBlank a = false := not_isBlank_of_mem hl (hliteral ▸ List.mem_cons_self)
  have ha : a ≠ c := (ne_of_isBlank hc hsolid).symm
  rw [after?, hliteral, afterChars?, if_neg ha]

/-- What does not start with white space occurs after it or not at all. -/
theorem occurs_append_of_isAllBlank {test : List Char → Bool}
    (htest : ∀ c s, isBlank c = true → test (c :: s) = false) {w : List Char}
    (hw : isAllBlank w = true) (s : List Char) : occurs test (w ++ s) = occurs test s := by
  induction w with
  | nil => rfl
  | cons c w ih =>
    obtain ⟨hc, hw⟩ := isAllBlank_cons.1 hw
    rw [List.cons_append, occurs, htest c _ hc, ih hw, Bool.false_or]

namespace Detector.Overflow

theorem isVersionProtected_append_of_isAllBlank {w : List Char} (hw : isAllBlank w = true)
    (s : List Char) : isVersionProtected (w ++ s) = isVersionProtected s := by
  have hmention : mentionsSafeMath (w ++ s) = mentionsSafeMath s := by
    rw [mentionsSafeMath, mentionsSafeMath, List.map_append, map_foldCase_of_isAllBlank hw]
    refine occurs_append_of_isAllBlank (fun c s hc => ?_) hw _
    rw [startsWith, after?_of_isBlank rfl (by decide) hc]
    rfl
  have hpragma : occurs startsModernPragma (w ++ s) = occurs startsModernPragma s := by
    refine occurs_append_of_isAllBlank (fun c s hc => ?_) hw _
    rw [startsModernPragma, after?_of_isBlank rfl (by decide) hc]
    rfl
  rw [isVersionProtected, isVersionProtected, hmention, hpragma]

end Detector.Overflow

/-! ## Padded sources -/

/-- A line of white space, of any length. -/
structure BlankLine where
  text : List Char
  isBlank : isAllBlank text = true
  noNewline : '\n' ∉ text

namespace BlankLine

theorem alikeText (line : BlankLine) : AlikeText [] line.text :=
  .of_isAllBlank line.noNewline line.isBlank

theorem isAllBlank_intercalate (lines : List BlankLine) :
    isAllBlank (List.intercalate ['\n'] (lines.map text)) = true := by
  induction lines with
  | nil => rfl
  | cons line rest ih =>
    cases rest with
    | nil =>
      rw [List.map_singleton, List.intercalate_singleton]
      exact line.isBlank
    | cons next rest =>
      rw [List.map_cons, List.map_cons, List.intercalate_cons_cons, isAllBlank, List.all_append,
        List.all_append, Bool.and_eq_true, Bool.and_eq_true]
      exact ⟨⟨line.isBlank, by decide⟩, ih⟩

theorem flatMap_parts (lines : List BlankLine) :
    (lines.map text).flatMap parts = lines.map text := by
  refine flatMap_parts_of_not_mem fun text htext => ?_
  obtain ⟨line, -, rfl⟩ := List.mem_map.1 htext
  exact line.noNewline

end BlankLine

/-- The source between lines of white space, all joined by newlines. -/
def padded (before after : List BlankLine) (source : List Char) : List Char :=
  List.intercalate ['\n'] (before.map BlankLine.text ++ source :: after.map BlankLine.text)

theorem parts_padded (before after : List BlankLine) (source : List Char) :
    parts (padded before after source) =
      before.map BlankLine.text ++ (parts source ++ after.map BlankLine.text) := by
  rw [padded, parts_intercalate (List.append_ne_nil_of_right_ne_nil _ (List.cons_ne_nil _ _)),
    List.flatMap_append, List.flatMap_cons, BlankLine.flatMap_parts, BlankLine.flatMap_parts]

theorem padded_nil (after : List BlankLine) (source : List Char) :
    ∃ w, isAllBlank w = true ∧ padded [] after source = source ++ w := by
  cases after with
  | nil =>
    refine ⟨[], rfl, ?_⟩
    rw [padded, List.map_nil, List.nil_append, List.intercalate_singleton, List.append_nil]
  | cons line rest =>
    refine ⟨'\n' :: List.intercalate ['\n'] ((line :: rest).map BlankLine.text), ?_, ?_⟩
    · exact isAllBlank_cons.2 ⟨by decide, BlankLine.isAllBlank_intercalate (line :: rest)⟩
    · rw [padded, List.map_nil, List.nil_append, List.map_cons, List.intercalate_cons_cons,
        List.append_assoc]
      rfl

theorem padded_cons (line : BlankLine) (before after : List BlankLine) (source : List Char) :
    padded (line :: before) after source =
      (line.text ++ ['\n']) ++ padded before after source := by
  rw [padded, padded, List.map_cons, List.cons_append]
  -- there is always a next text, as the source itself stands further on
  obtain ⟨next, rest, h⟩ := List.exists_cons_of_ne_nil
    (List.append_ne_nil_of_right_ne_nil (before.map BlankLine.text)
      (List.cons_ne_nil source (after.map BlankLine.text)))
  rw [h, List.intercalate_cons_cons]

theorem isVersionProtected_padded (before after : List BlankLine) (source : List Char) :
    Detector.Overflow.isVersionProtected (padded before after source) =
      Detector.Overflow.isVersionProtected source := by
  -- what stands before the source is taken off line by line, what stands after it at once
  induction before with
  | nil =>
    obtain ⟨w, hw, h⟩ := padded_nil after source
    rw [h]
    exact Detector.Overflow.ignoresTrailing_isVersionProtected source w hw
  | cons line before ih =>
    have hblank : isAllBlank (line.text ++ ['\n']) = true := by
      rw [isAllBlank, List.all_append, Bool.and_eq_true]
      exact ⟨line.isBlank, by decide⟩
    rw [padded_cons, Detector.Overflow.isVersionProtected_append_of_isAllBlank hblank, ih]

theorem alikeSources_padded (before after : List BlankLine) (source : List Char) :
    AlikeSources before.length source (padded before after source) := by
  have hblank : ∀ lines : List BlankLine, ∀ text ∈ lines.map BlankLine.text, AlikeText [] text := by
    intro lines text htext
    obtain ⟨line, -, rfl⟩ := List.mem_map.1 htext
    exact line.alikeText
  have hsame : List.Forall₂ AlikeText (parts source) (parts source) :=
    List.forall₂_same.2 fun _ h => .refl (newline_not_mem_of_mem_parts h)
  have halike := AlikeSources.of_parts (parts_padded before after source) (hblank before) hsame
    (hblank after) (isVersionProtected_padded before after source).symm
  rwa [List.length_map] at halike

/-- **Padding.** Lines of white space around a source move the findings down by the number of lines
before it, in their lines and in the indices of their ids. The rest of each finding, the order of
the findings, the scores and the name stay as they are. -/
theorem analyze_padded (before after : List BlankLine) (source : List Char) (mode : ScanMode) :
    ∃ report, analyze source mode = .ok report ∧
      analyze (padded before after source) mode =
        .ok { report with
          findings := report.findings.map (Finding.shift before.length) } ∧
      contractName? (padded before after source) = contractName? source := by
  have halike := alikeSources_padded before after source
  obtain ⟨report, hreport, hpadded⟩ := halike.analyze mode
  exact ⟨report, hreport, hpadded, halike.contractName?⟩

end ContractAudit
