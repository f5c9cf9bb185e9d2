import ContractAudit.Proofs.Report.Order

/-!
# How far the two modes differ

The modes look for the same shapes in the same lines. What they do not share is how far around a
line they look, and what of a line with arithmetic they read.

A call that sends value is reported whatever stands around it, so the modes agree on the calls. The
window after a call decides on its severity and on nothing else.

A loop is reported at its first write. Both windows of a loop start at the loop and have no gap, so
a mode may miss the write, but it cannot find another one.

Arithmetic is read from the text of a line in legacy mode, where any `//` or `*` rules the line out,
and from its code in scoped mode. A line with neither is *plain*: it is no comment line and its code
is its whole text. On a plain line the modes differ by directives alone, which legacy mode does not
know, and what legacy mode reports is plain.

Main results:

* `Reentrancy.forall₂_sameButSeverity`: the same calls are reported, up to severity.
* `GasLoop.eq_of_id_eq`: findings for the same loop are equal.
* `Overflow.Plain.isArithmetic_scoped`: the modes agree on plain lines, but for directives.
* `modes_differ`: what these say about the findings of a source.
-/

namespace ContractAudit

open Detector Text

/-! ## Calls that send value -/

/-- The findings have everything in common but their severity. -/
def Finding.SameButSeverity (f g : Finding) : Prop :=
  { f with severity := g.severity } = g

namespace Detector.Reentrancy

theorem forall₂_findingsAt (lines : Array Line) (line : Line) :
    List.Forall₂ Finding.SameButSeverity (findingsAt lines .legacy line)
      (findingsAt lines .scoped line) := by
  unfold findingsAt
  cases countForms line.text with
  | zero => exact .nil
  | succ n =>
    -- the forms on the line are numbered in both modes alike
    simp only [List.forall₂_map_left_iff, List.forall₂_map_right_iff, List.forall₂_same]
    intro k _
    rfl

theorem forall₂_sameButSeverity (source : Source) :
    List.Forall₂ Finding.SameButSeverity (inspect source .legacy) (inspect source .scoped) := by
  -- two runs over the same lines
  have hlines : List.Forall₂ Eq source.lines.toList source.lines.toList :=
    List.forall₂_same.2 fun _ _ => rfl
  refine List.rel_flatMap hlines ?_
  rintro line _ rfl
  exact forall₂_findingsAt source.lines line

end Detector.Reentrancy

/-! ## Writes in loops -/

theorem Detector.Profile.index_eq_of_id_eq {profile : Profile}
    (hname : profile.name ∈ FindingKey.builtinNames) {i j : Nat}
    (h : profile.id i = profile.id j) : i = j := by
  rw [profile.id_eq_text, profile.id_eq_text] at h
  exact congrArg FindingKey.index (FindingKey.text_inj hname hname h)

namespace Detector.GasLoop

theorem IsFirstWrite.unique {lines : List Line} {loop i j : Nat} (hi : IsFirstWrite lines loop i)
    (hj : IsFirstWrite lines loop j) : i = j :=
  Nat.le_antisymm (hi.mono hj (Nat.le_refl loop)) (hj.mono hi (Nat.le_refl loop))

/-- What is reported for a loop does not depend on the mode, as long as it is reported. -/
theorem eq_of_id_eq {source : List Char} {mode mode' : ScanMode} {f g : Finding}
    (hf : f ∈ inspect (.ofText source) mode) (hg : g ∈ inspect (.ofText source) mode')
    (h : f.id = g.id) : f = g := by
  obtain ⟨loop, -, hf⟩ := List.mem_flatMap.1 hf
  obtain ⟨loop', -, hg⟩ := List.mem_flatMap.1 hg
  obtain ⟨-, place, hit, hfirst, hhit, -, rfl⟩ := exists_of_mem_findingsAt hf
  obtain ⟨-, place', hit', hfirst', hhit', -, rfl⟩ := exists_of_mem_findingsAt hg
  have hindex : loop.index = loop'.index :=
    profile.index_eq_of_id_eq (by decide) (Json.Str.text.inj (Json.Value.string.inj h))
  rw [hindex] at hfirst
  -- the first write from the loop on has one place, whatever window it was found in
  rw [hfirst.unique hfirst', hhit'] at hhit
  rw [hindex, Option.some.inj hhit]

end Detector.GasLoop

/-! ## Arithmetic -/

namespace Detector.Overflow

/-- The text has neither of the marks that make legacy mode pass over a line. -/
structure Plain (text : List Char) : Prop where
  slashes : ¬ "//".toList <:+: text
  star : '*' ∉ text

theorem Plain.stripComments_eq {text : List Char} (h : Plain text) : stripComments text = text := by
  refine stripComments_eq_self h.slashes fun hblock => ?_
  exact h.star (hblock.subset (by decide))

theorem Plain.isCommentLine_eq {text : List Char} (h : Plain text) :
    isCommentLine text = false := by
  rw [← Bool.not_eq_true]
  intro hcomment
  have hstart : text.dropWhile isBlank <:+ text := List.dropWhile_suffix isBlank
  simp only [isCommentLine, Bool.or_eq_true, startsWith_iff] at hcomment
  -- each way in which a comment line may start is with a mark
  rcases hcomment with (hslashes | hblock) | hstar
  · exact h.slashes (hslashes.isInfix.trans hstart.isInfix)
  · exact h.star (hstart.subset (hblock.subset (by decide)))
  · exact h.star (hstart.subset (hstar.subset (by decide)))

theorem isArithmetic_legacy_iff {text : List Char} :
    isArithmetic .legacy text = true ↔ hasArithmetic text = true ∧ Plain text := by
  rw [isArithmetic, Bool.and_eq_true, Bool.and_eq_true, Bool.not_eq_true', Bool.not_eq_true',
    ← Bool.not_eq_true, mentions_iff, List.contains_eq_mem, decide_eq_false_iff_not, and_assoc]
  constructor
  · rintro ⟨harithmetic, hslashes, hstar⟩
    exact ⟨harithmetic, hslashes, hstar⟩
  · rintro ⟨harithmetic, hslashes, hstar⟩
    exact ⟨harithmetic, hslashes, hstar⟩

/-- On a plain line scoped mode reads what legacy mode reads. -/
theorem Plain.isArithmetic_scoped {text : List Char} (h : Plain text) :
    isArithmetic .scoped text = (!isDirective text && hasArithmetic text) := by
  rw [isArithmetic, h.isCommentLine_eq, h.stripComments_eq, Bool.not_false, Bool.true_and]

/-- A line with arithmetic for scoped mode is one for legacy mode, if it is plain. -/
theorem Plain.isArithmetic_legacy {text : List Char} (h : Plain text)
    (hscoped : isArithmetic .scoped text = true) : isArithmetic .legacy text = true := by
  rw [h.isArithmetic_scoped, Bool.and_eq_true] at hscoped
  exact isArithmetic_legacy_iff.2 ⟨hscoped.2, h⟩

theorem mem_inspect_iff {source : List Char} {mode : ScanMode} {f : Finding} :
    f ∈ inspect (.ofText source) mode ↔ isVersionProtected source = false ∧
      ∃ line ∈ splitLines source, isArithmetic mode line.text = true ∧
        f = profile.finding (profile.id line.index) .medium line := by
  rw [inspect, List.mem_ite_nil_left, Bool.not_eq_true, List.mem_flatMap]
  simp only [findingsAt, List.mem_ite_nil_right, List.mem_singleton]
  rfl

/-- A finding of legacy mode is one of scoped mode, unless a directive is reported. -/
theorem isDirective_or_mem_scoped {source : List Char} {f : Finding}
    (h : f ∈ inspect (.ofText source) .legacy) :
    ∃ line ∈ splitLines source, f.line = line.number ∧
      (isDirective line.text = true ∨ f ∈ inspect (.ofText source) .scoped) := by
  obtain ⟨hprotected, line, hline, hlegacy, rfl⟩ := mem_inspect_iff.1 h
  obtain ⟨harithmetic, hplain⟩ := isArithmetic_legacy_iff.1 hlegacy
  refine ⟨line, hline, rfl, ?_⟩
  cases hdirective : isDirective line.text with
  | true => exact Or.inl rfl
  | false =>
    have hscoped : isArithmetic .scoped line.text = true := by
      rw [hplain.isArithmetic_scoped, hdirective, harithmetic]
      rfl
    exact Or.inr (mem_inspect_iff.2 ⟨hprotected, line, hline, hscoped, rfl⟩)

/-- What scoped mode reports on a plain line is no news. -/
theorem not_plain_of_mem_scoped {source : List Char} {f : Finding}
    (h : f ∈ inspect (.ofText source) .scoped) (hnot : f ∉ inspect (.ofText source) .legacy) :
    ∃ line ∈ splitLines source, f.line = line.number ∧ ¬Plain line.text := by
  obtain ⟨hprotected, line, hline, hscoped, rfl⟩ := mem_inspect_iff.1 h
  refine ⟨line, hline, rfl, fun hplain => hnot ?_⟩
  exact mem_inspect_iff.2 ⟨hprotected, line, hline, hplain.isArithmetic_legacy hscoped, rfl⟩

end Detector.Overflow

/-! ## Findings of a source -/

/-- **How the modes differ.** On calls that send value, in severity at most. On a loop that both
report, not at all. On arithmetic, by the directives that only legacy mode reports and by lines with
`//` or `*`. -/
theorem modes_differ (source : List Char) :
    List.Forall₂ Finding.SameButSeverity (Reentrancy.inspect (.ofText source) .legacy)
      (Reentrancy.inspect (.ofText source) .scoped) ∧
    (∀ f ∈ GasLoop.inspect (.ofText source) .legacy,
      ∀ g ∈ GasLoop.inspect (.ofText source) .scoped, f.id = g.id → f = g) ∧
    (∀ f ∈ Overflow.inspect (.ofText source) .legacy, ∃ line ∈ splitLines source,
      f.line = line.number ∧
        (Overflow.isDirective line.text = true ∨ f ∈ Overflow.inspect (.ofText source) .scoped)) ∧
    (∀ f ∈ Overflow.inspect (.ofText source) .scoped,
      f ∉ Overflow.inspect (.ofText source) .legacy → ∃ line ∈ splitLines source,
        f.line = line.number ∧ ("//".toList <:+: line.text ∨ '*' ∈ line.text)) := by
  refine ⟨Reentrancy.forall₂_sameButSeverity _, ?_, ?_, ?_⟩
  · intro f hf g hg h
    exact GasLoop.eq_of_id_eq hf hg h
  · intro f hf
    exact Overflow.isDirective_or_mem_scoped hf
  · intro f hf hnot
    obtain ⟨line, hline, hnumber, hplain⟩ := Overflow.not_plain_of_mem_scoped hf hnot
    refine ⟨line, hline, hnumber, ?_⟩
    by_contra hneither
    rw [not_or] at hneither
    exact hplain ⟨hneither.1, hneither.2⟩

/-- A product that is written in a loop: both modes report the loop by one finding, and only scoped
mode reports the product. -/
theorem modes_differ_product :
    let source := "for (;;) \x7b\na[i] = b * c;\n\x7d".toList
    let loop : Line := ⟨1, "for (;;) \x7b".toList⟩
    let write : Line := ⟨2, "a[i] = b * c;".toList⟩
    let f := GasLoop.profile.finding (GasLoop.profile.id loop.index) .low write
    let g := Overflow.profile.finding (Overflow.profile.id write.index) .medium write
    (∀ mode, f ∈ GasLoop.inspect (.ofText source) mode) ∧
    (∀ h ∈ GasLoop.inspect (.ofText source) .scoped, f.id = h.id → f = h) ∧
    g ∈ Overflow.inspect (.ofText source) .scoped ∧
    g ∉ Overflow.inspect (.ofText source) .legacy ∧
    ∃ line ∈ splitLines source, g.line = line.number ∧
      ("//".toList <:+: line.text ∨ '*' ∈ line.text) := by
  intro source loop write f g
  obtain ⟨-, hloop, -, hproduct⟩ := modes_differ source
  have hlines : splitLines source = [loop, write, ⟨3, "\x7d".toList⟩] := by decide +kernel
  have hreported : ∀ mode, f ∈ GasLoop.inspect (.ofText source) mode := by
    intro mode
    have hfind : (GasLoop.loopLines (Source.ofText source).lines mode loop.index).find?
        (fun line => GasLoop.writesStorage line.text) = some write := by
      cases mode <;> decide +kernel
    refine List.mem_flatMap.2 ⟨loop, ?_, ?_⟩
    · show loop ∈ splitLines source
      rw [hlines]
      exact List.mem_cons_self
    · rw [GasLoop.findingsAt, if_pos (by decide +kernel), hfind]
      exact List.mem_singleton_self f
  have hscoped : g ∈ Overflow.inspect (.ofText source) .scoped := by
    refine Overflow.mem_inspect_iff.2 ⟨by decide +kernel, write, ?_, by decide +kernel, rfl⟩
    rw [hlines]
    exact List.mem_cons_of_mem _ List.mem_cons_self
  have hlegacy : g ∉ Overflow.inspect (.ofText source) .legacy := by
    have hnone : Overflow.inspect (.ofText source) .legacy = [] := by
      rw [← List.isEmpty_iff]
      decide +kernel
    rw [hnone]
    exact List.not_mem_nil
  exact ⟨hreported, hloop f (hreported .legacy), hscoped, hlegacy, hproduct g hscoped hlegacy⟩

end ContractAudit
