import ContractAudit.Proofs.Report.AlikeSources

/-!
# Line endings

A source is split at newlines, so a carriage return before a newline stays at the end of its line.
It is white space there, and an analysis does not see it: the report is the same, the snippets
included, since these are trimmed.

Only the version directive is looked for in the source as a whole, where carriage returns stand
inside a run of white space that the directive may pass. What it reads before and after such a run
is the same with them and without.

Main results:

* `AddsReturns.isVersionProtected`, `AddsReturns.alikeSources`: adding carriage returns before some
  newlines gives a source that is alike.
* `analyze_withCarriageReturns`: adding one before every newline leaves the report as it is.
-/

namespace ContractAudit

open Text

/-- The second text is the first one with a carriage return added before some of its newlines. -/
inductive AddsReturns : List Char → List Char → Prop
  | nil : AddsReturns [] []
  | cons {s t : List Char} (c : Char) (h : AddsReturns s t) : AddsReturns (c :: s) (c :: t)
  | newline {s t : List Char} (h : AddsReturns s t) :
    AddsReturns ('\n' :: s) ('\r' :: '\n' :: t)

namespace AddsReturns

variable {s t : List Char}

/-! ## Steps of a pattern -/

theorem dropWhile (h : AddsReturns s t) {p : Char → Bool} (hp : p '\r' = p '\n') :
    AddsReturns (s.dropWhile p) (t.dropWhile p) := by
  induction h with
  | nil => exact .nil
  | cons c h ih =>
    rw [List.dropWhile_cons, List.dropWhile_cons]
    split
    · exact ih
    · exact .cons c h
  | newline h ih =>
    -- both characters are passed or neither is
    rw [List.dropWhile_cons, List.dropWhile_cons, List.dropWhile_cons, hp]
    split
    · exact ih
    · exact .newline h

theorem afterChars? {literal : List Char} (hl : ∀ c ∈ literal, isBlank c = false)
    (h : AddsReturns s t) :
    Option.Rel AddsReturns (afterChars? literal s) (afterChars? literal t) := by
  induction literal generalizing s t with
  | nil => exact .some h
  | cons a literal ih =>
    have ha := hl a List.mem_cons_self
    cases h with
    | nil => exact .none
    | cons c h =>
      rw [Text.afterChars?, Text.afterChars?]
      split
      · exact ih (fun d hd => hl d (List.mem_cons_of_mem a hd)) h
      · exact .none
    | newline h =>
      -- the literal goes on with neither character
      have hnewline : a ≠ '\n' := (ne_of_isBlank (by decide) ha).symm
      have hreturn : a ≠ '\r' := (ne_of_isBlank (by decide) ha).symm
      rw [Text.afterChars?, Text.afterChars?, if_neg hnewline, if_neg hreturn]
      exact .none

theorem after? {literal : String} (hl : isSolid literal = true) (h : AddsReturns s t) :
    Option.Rel AddsReturns (after? literal s) (after? literal t) :=
  afterChars? (fun _ => not_isBlank_of_mem hl) h

theorem startsWith {literal : String} (hl : isSolid literal = true) (h : AddsReturns s t) :
    startsWith literal t = startsWith literal s := by
  have hrest := h.after? hl
  rw [Text.startsWith, Text.startsWith]
  generalize Text.after? literal s = o, Text.after? literal t = o' at hrest
  cases hrest <;> rfl

theorem afterBlanks (h : AddsReturns s t) : AddsReturns (afterBlanks s) (afterBlanks t) :=
  h.dropWhile (by decide)

theorem afterSomeBlanks? (h : AddsReturns s t) :
    Option.Rel AddsReturns (afterSomeBlanks? s) (afterSomeBlanks? t) := by
  cases h with
  | nil => exact .none
  | cons c h =>
    rw [Text.afterSomeBlanks?, Text.afterSomeBlanks?]
    split
    · exact .some h.afterBlanks
    · exact .none
  | newline h =>
    rw [Text.afterSomeBlanks?, Text.afterSomeBlanks?, if_pos (by decide), if_pos (by decide)]
    exact .some h.afterBlanks

theorem any_head? (h : AddsReturns s t) {p : Char → Bool} (hp : p '\r' = p '\n') :
    t.head?.any p = s.head?.any p := by
  cases h with
  | nil => rfl
  | cons c h => rfl
  | newline h => exact hp

theorem occurs {test : List Char → Bool} (htest : ∀ s t, AddsReturns s t → test t = test s)
    (h : AddsReturns s t) : occurs test t = occurs test s := by
  induction h with
  | nil => rfl
  | cons c h ih => rw [Text.occurs, Text.occurs, ih, htest _ _ (h.cons c)]
  | @newline s t h ih =>
    -- what starts at the newline is looked for at the carriage return too
    rw [Text.occurs, Text.occurs, Text.occurs, ih, htest _ _ h.newline, htest _ _ (h.cons '\n'),
      ← Bool.or_assoc, Bool.or_self]

/-! ## The version of a source -/

section Chain

variable {o o' : Option (List Char)} (h : Option.Rel AddsReturns o o')
include h

theorem any {test : List Char → Bool} (htest : ∀ s t, AddsReturns s t → test t = test s) :
    o'.any test = o.any test := by
  cases h with
  | none => rfl
  | some h => exact htest _ _ h

theorem bind {step : List Char → Option (List Char)}
    (hstep : ∀ s t, AddsReturns s t → Option.Rel AddsReturns (step s) (step t)) :
    Option.Rel AddsReturns (o.bind step) (o'.bind step) := by
  cases h with
  | none => exact .none
  | some h => exact hstep _ _ h

end Chain

theorem map_foldCase (h : AddsReturns s t) :
    AddsReturns (s.map Detector.Overflow.foldCase) (t.map Detector.Overflow.foldCase) := by
  induction h with
  | nil => exact .nil
  | cons c _ ih => exact .cons _ ih
  | newline _ ih => exact .newline ih

theorem startsModernMinor (h : AddsReturns s t) :
    Detector.Overflow.startsModernMinor t = Detector.Overflow.startsModernMinor s := by
  cases h with
  | nil => rfl
  | cons c h =>
    rw [Detector.Overflow.startsModernMinor, Detector.Overflow.startsModernMinor,
      h.any_head? (by decide)]
  | newline h =>
    rw [Detector.Overflow.startsModernMinor, Detector.Overflow.startsModernMinor,
      show isDecimalDigit '\n' = false by decide, show isDecimalDigit '\r' = false by decide]
    rfl

theorem startsModernPragma (h : AddsReturns s t) :
    Detector.Overflow.startsModernPragma t = Detector.Overflow.startsModernPragma s := by
  rw [Detector.Overflow.startsModernPragma, Detector.Overflow.startsModernPragma]
  simp only [Option.bind_eq_bind]
  refine any ?_ fun s t h => h.startsModernMinor
  -- the keywords, the white space between them, and the constraint with white space around it
  refine bind (h.after? rfl) fun s t h => ?_
  refine bind h.afterSomeBlanks? fun s t h => ?_
  refine bind (h.after? rfl) fun s t h => ?_
  exact (h.afterBlanks.dropWhile (by decide)).afterBlanks.after? rfl

theorem isVersionProtected (h : AddsReturns s t) :
    Detector.Overflow.isVersionProtected t = Detector.Overflow.isVersionProtected s := by
  rw [Detector.Overflow.isVersionProtected, Detector.Overflow.isVersionProtected,
    Detector.Overflow.mentionsSafeMath, Detector.Overflow.mentionsSafeMath, mentions, mentions,
    h.map_foldCase.occurs fun s t h => h.startsWith rfl,
    h.occurs fun s t h => h.startsModernPragma]

/-! ## Lines -/

theorem forall₂_parts (h : AddsReturns s t) : List.Forall₂ AlikeText (parts s) (parts t) := by
  induction h with
  | nil => exact .cons (.refl List.not_mem_nil) .nil
  | @cons s t c _ ih =>
    by_cases hc : c = '\n'
    · subst hc
      exact .cons (.refl List.not_mem_nil) ih
    · -- the character goes to the front of both first parts
      obtain ⟨first, others, hs⟩ := List.exists_cons_of_ne_nil (parts_ne_nil s)
      rw [hs, List.forall₂_cons_left_iff] at ih
      obtain ⟨first', others', hfirst, hothers, ht⟩ := ih
      rw [parts_cons hc, parts_cons hc, hs, ht]
      exact .cons (hfirst.cons hc) hothers
  | newline _ ih => exact .cons (.of_isAllBlank (by decide) (by decide)) ih

theorem alikeSources (h : AddsReturns s t) : AlikeSources 0 s t := by
  have hnone : ∀ text ∈ ([] : List (List Char)), AlikeText [] text := fun _ h =>
    absurd h List.not_mem_nil
  have hparts : parts t = [] ++ (parts t ++ []) := (List.append_nil _).symm
  exact .of_parts hparts hnone h.forall₂_parts hnone h.isVersionProtected.symm

end AddsReturns

/-! ## Reports -/

/-- The findings of an analysis are keyed, so a shift by no lines leaves them as they are. -/
theorem map_shift_zero {source : List Char} {mode : ScanMode} {report : Report}
    (h : analyze source mode = .ok report) :
    report.findings.map (Finding.shift 0) = report.findings := by
  obtain ⟨report', hreport', hfindings, -⟩ := exists_analyze source mode
  obtain rfl : report' = report := Except.ok.inj (hreport'.symm.trans h)
  obtain ⟨keys, hkeys, -, hnames⟩ := exists_keys_builtin source mode
  -- zero added to the index of an id gives the digits that stood there
  have hzero : ∀ f ∈ report'.findings, f.shift 0 = f := by
    intro f hf
    have hid : f.id ∈ (builtinFound source mode).flatten.map Finding.id :=
      List.mem_map_of_mem (hfindings ▸ hf)
    rw [hkeys] at hid
    obtain ⟨key, hkey, hid⟩ := List.mem_map.1 hid
    have hkeyed : f.IsKeyed key := ⟨hid.symm, hnames key hkey⟩
    exact hkeyed.shift_zero
  rw [List.map_congr_left hzero, List.map_id']

/-- Carriage returns before some newlines change nothing in what is answered for a source. -/
theorem AddsReturns.analyze {s t : List Char} (h : AddsReturns s t) (mode : ScanMode) :
    ∃ report, analyze s mode = .ok report ∧ ContractAudit.analyze t mode = .ok report := by
  obtain ⟨report, hs, ht⟩ := h.alikeSources.analyze mode
  refine ⟨report, hs, ht.trans ?_⟩
  rw [Int.natCast_zero, map_shift_zero hs]

/-- The source with a carriage return before each of its newlines. -/
def withCarriageReturns (source : List Char) : List Char :=
  source.flatMap fun c => if c = '\n' then ['\r', '\n'] else [c]

theorem addsReturns_withCarriageReturns (source : List Char) :
    AddsReturns source (withCarriageReturns source) := by
  induction source with
  | nil => exact .nil
  | cons c rest ih =>
    rw [withCarriageReturns, List.flatMap_cons]
    split
    · rename_i hc
      subst hc
      exact .newline ih
    · exact .cons c ih

/-- **Line endings.** A source has the same report and the same name whether its lines end in
newlines or each of them in a carriage return and a newline. -/
theorem analyze_withCarriageReturns (source : List Char) (mode : ScanMode) :
    ∃ report, analyze source mode = .ok report ∧
      analyze (withCarriageReturns source) mode = .ok report ∧
      contractName? (withCarriageReturns source) = contractName? source := by
  have hreturns := addsReturns_withCarriageReturns source
  obtain ⟨report, hreport, hreport'⟩ := hreturns.analyze mode
  exact ⟨report, hreport, hreport', hreturns.alikeSources.contractName?⟩

end ContractAudit
