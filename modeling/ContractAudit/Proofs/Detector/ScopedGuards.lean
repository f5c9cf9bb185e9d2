import ContractAudit.Detector.AccessControl
import ContractAudit.Proofs.Source.Scopes

/-!
# Following a body to its end finds every guard that a fixed window finds

A function without a guard on its header is reported unless a guard stands in its window. The two
modes end this window by rules that have nothing to do with each other: legacy mode at the first
line with a closing brace anywhere in its text, within ten lines, and scoped mode at the line after
which as many blocks are closed as were opened, by the braces in the code.

For a function with a body the window of scoped mode is the longer one. Up to the line at which
legacy mode stops there is no closing brace in the texts of the lines, so there is none in their
code, which has no characters of its own. Once a block is open the depth is therefore above zero at
the end of each of these lines, and the body goes on. A closing brace on the header itself is no
exception: then legacy mode looks at the header alone.

A declaration without a body is another matter. It ends with its statement, and legacy mode goes on
into the lines after it.

Main result: `AccessControl.mem_inspect_legacy_of_scoped`.
-/

namespace ContractAudit

/-! ## Lines without closing braces -/

theorem mem_of_mem_lineCode {c : Char} (hc : c ≠ ' ') {text : List Char} (h : c ∈ lineCode text) :
    c ∈ text := by
  rw [lineCode] at h
  split at h
  · cases h
  · exact mem_of_mem_stripComments hc h

theorem closing_not_mem_codes {lines : List Line} (h : ∀ line ∈ lines, '\x7d' ∉ line.text) :
    '\x7d' ∉ codes lines := by
  intro hmem
  obtain ⟨line, hline, hcode⟩ := List.mem_flatMap.1 hmem
  exact h line hline (mem_of_mem_lineCode (by decide) hcode)

/-- A block that opens on the first line is open after the last one. -/
theorem depth_codes_pos {line : Line} {rest : List Line} (hopens : 0 < (braces line.text).opens)
    (hcloses : ∀ l ∈ line :: rest, '\x7d' ∉ l.text) : 0 < depth (codes (line :: rest)) := by
  have hopening : 0 < (lineCode line.text).count '\x7b' := by
    rwa [braces_eq_count] at hopens
  rw [depth_eq_count, List.count_eq_zero_of_not_mem (closing_not_mem_codes hcloses), codes_cons,
    List.count_append]
  omega

/-- The lines up to the first closing brace belong to a body that has opened, and the line with the
brace does too. -/
theorem take_isPrefix_throughBody_of_opens {opened isHeader : Bool} {line : Line}
    {rest : List Line} {k : Nat} (hopens : 0 < (braces line.text).opens)
    (hcloses : ∀ l ∈ (line :: rest).take k, '\x7d' ∉ l.text) :
    (line :: rest).take (k + 1) <+: throughBody 0 opened isHeader (line :: rest) := by
  rw [throughBody_of_opens rest hopens]
  refine take_isPrefix_throughClosing fun j hj => ?_
  have hwithin : (line :: rest).take (j + 1) <+: (line :: rest).take k :=
    List.take_prefix_take_left hj
  rw [List.take_succ_cons] at hwithin ⊢
  have hpos := depth_codes_pos hopens fun l hl => hcloses l (hwithin.subset hl)
  omega

/-! ## Bodies -/

/-- The lines from a header on have a body: a block opens on the header, or on the next line after a
header on which none opens and which does not end a statement. -/
inductive HasBody : List Line → Prop
  | onHeader {header : Line} {rest : List Line} (hopens : 0 < (braces header.text).opens) :
    HasBody (header :: rest)
  | onNext {header next : Line} {rest : List Line} (hheader : (braces header.text).opens = 0)
    (hends : endsStatement header.text = false) (hopens : 0 < (braces next.text).opens) :
    HasBody (header :: next :: rest)

theorem HasBody.take {lines : List Line} (h : HasBody lines) {limit : Nat} (hlimit : 1 < limit) :
    HasBody (lines.take limit) := by
  obtain ⟨limit, rfl⟩ := Nat.exists_eq_add_of_le' hlimit
  cases h with
  | onHeader hopens => exact .onHeader hopens
  | onNext hheader hends hopens => exact .onNext hheader hends hopens

/-- A body has every line up to the first one with a closing brace, and this one. -/
theorem HasBody.take_isPrefix {lines : List Line} (h : HasBody lines) {k : Nat}
    (hcloses : ∀ line ∈ lines.take k, '\x7d' ∉ line.text) :
    lines.take (k + 1) <+: throughBody 0 false true lines := by
  cases h with
  | onHeader hopens => exact take_isPrefix_throughBody_of_opens hopens hcloses
  | @onNext header next rest hheader hends hopens =>
    cases k with
    | zero => exact take_one_isPrefix_throughBody 0 false true _
    | succ k =>
      rw [List.take_succ_cons] at hcloses
      -- the header has no brace at all, so its body is left to the next line
      have hclosing : '\x7d' ∉ lineCode header.text := fun hmem =>
        hcloses header List.mem_cons_self (mem_of_mem_lineCode (by decide) hmem)
      have hbraces : braces header.text = ⟨0, 0⟩ := by
        rw [braces_eq_count] at hheader ⊢
        rw [Braces.mk.injEq]
        exact ⟨hheader, List.count_eq_zero_of_not_mem hclosing⟩
      rw [throughBody_of_plain _ hbraces hends, List.take_succ_cons, List.cons_prefix_cons]
      refine ⟨rfl, take_isPrefix_throughBody_of_opens hopens fun line hline => ?_⟩
      exact hcloses line (List.mem_cons_of_mem header hline)

/-! ## Guards -/

namespace Detector.AccessControl

/-- A guard counts when no line before it has a closing brace. -/
theorem guardedBeforeClosing_iff {lines : List Line} :
    guardedBeforeClosing lines = true ↔
      ∃ k guard, lines[k]? = some guard ∧ hasGuard guard.text = true ∧
        ∀ line ∈ lines.take k, '\x7d' ∉ line.text := by
  induction lines with
  | nil => simp [guardedBeforeClosing]
  | cons header rest ih =>
    rw [guardedBeforeClosing, Bool.or_eq_true, Bool.and_eq_true, Bool.not_eq_true',
      List.contains_eq_mem, decide_eq_false_iff_not, ih]
    -- the first line guards, or it closes nothing and the guard lies below it
    constructor
    · rintro (hguard | ⟨hheader, k, guard, hk, hguard, hbefore⟩)
      · exact ⟨0, header, rfl, hguard, fun line hline => absurd hline List.not_mem_nil⟩
      · refine ⟨k + 1, guard, hk, hguard, fun line hline => ?_⟩
        rcases List.mem_cons.1 hline with rfl | hline
        · exact hheader
        · exact hbefore line hline
    · rintro ⟨k, guard, hk, hguard, hbefore⟩
      cases k with
      | zero =>
        obtain rfl := Option.some.inj hk
        exact Or.inl hguard
      | succ k =>
        refine Or.inr ⟨hbefore header List.mem_cons_self, k, guard, hk, hguard, fun line hline => ?_⟩
        exact hbefore line (List.mem_cons_of_mem header hline)

/-- A function with a body that is guarded in legacy mode is guarded in scoped mode. -/
theorem isGuarded_scoped_of_legacy {lines : Array Line} {index : Nat}
    (hbody : HasBody (lines.toList.drop index)) (h : isGuarded lines .legacy index = true) :
    isGuarded lines .scoped index = true := by
  have hlegacy : guardedBeforeClosing ((lines.toList.drop index).take window) = true := by
    rw [← linesFrom_natCast]
    exact h
  obtain ⟨k, guard, hguardAt, hguard, hbefore⟩ := guardedBeforeClosing_iff.1 hlegacy
  rw [List.getElem?_take] at hguardAt
  split at hguardAt
  · rename_i hk
    rw [List.take_take, Nat.min_eq_left hk.le] at hbefore
    have hwindow : window < scopeLimit := by decide
    have hscope : 1 < scopeLimit := by decide
    -- both windows are cut from the same lines, so the guard lies in the body too
    have hwithin : (lines.toList.drop index).take (k + 1) <+: blockBody lines index scopeLimit := by
      have htake := (hbody.take hscope).take_isPrefix (k := k)
      rw [List.take_take, List.take_take, Nat.min_eq_left (by omega),
        Nat.min_eq_left (by omega)] at htake
      rw [blockBody, linesFrom_natCast]
      exact htake hbefore
    have hmem : guard ∈ (lines.toList.drop index).take (k + 1) := by
      apply List.mem_of_getElem? (i := k)
      rw [List.getElem?_take, if_pos (Nat.lt_succ_self k)]
      exact hguardAt
    exact List.any_eq_true.2 ⟨guard, hwithin.subset hmem, hguard⟩
  · cases hguardAt

/-! ## Findings -/

theorem mem_inspect_iff {source : List Char} {mode : ScanMode} {f : Finding} :
    f ∈ inspect (.ofText source) mode ↔ ∃ line ∈ splitLines source,
      declaresPublicFunction line.text = true ∧ hasGuard line.text = false ∧
      isGuarded (Source.ofText source).lines mode line.index = false ∧
      f = profile.finding (profile.id line.index) .high line := by
  rw [inspect, List.mem_flatMap]
  simp only [findingsAt, List.mem_ite_nil_right, List.mem_singleton, Bool.and_eq_true,
    Bool.not_eq_true', and_assoc]
  rfl

/-- **Scoped mode removes false alarms only.** A function with a body that is reported in scoped
mode is reported in legacy mode, by the same finding. -/
theorem mem_inspect_legacy_of_scoped {source : List Char} {i : Nat}
    (hbody : HasBody ((splitLines source).drop i)) {f : Finding}
    (hf : f ∈ inspect (.ofText source) .scoped) (hline : f.line = i + 1) :
    f ∈ inspect (.ofText source) .legacy := by
  obtain ⟨line, hmem, hdeclares, hheader, hscoped, rfl⟩ := mem_inspect_iff.1 hf
  -- the finding stands at its line, so the body is that of this function
  have hindex : line.index = i := by
    have hnumber : (line.number : Int) = i + 1 := hline
    rw [Line.index]
    omega
  rw [← hindex] at hbody
  have hlegacy : isGuarded (Source.ofText source).lines .legacy line.index = false := by
    rw [← Bool.not_eq_true]
    intro hguarded
    have hfollowed : isGuarded (Source.ofText source).lines .scoped line.index = true :=
      isGuarded_scoped_of_legacy hbody hguarded
    rw [hfollowed] at hscoped
    cases hscoped
  exact mem_inspect_iff.2 ⟨line, hmem, hdeclares, hheader, hlegacy, rfl⟩

/-- A function whose body opens on the line after its header and closes two lines below it, with
another block inside. -/
theorem mem_inspect_legacy_of_scoped_nested :
    let source := "function f() public\n\x7b if (a) \x7b b(); \x7d\n\x7d".toList
    let f := profile.finding (profile.id 0) .high ⟨1, "function f() public".toList⟩
    HasBody ((splitLines source).drop 0) ∧ f ∈ inspect (.ofText source) .scoped ∧
      f.line = (0 : Nat) + 1 ∧ f ∈ inspect (.ofText source) .legacy := by
  intro source f
  have hlines : splitLines source = [⟨1, "function f() public".toList⟩,
      ⟨2, "\x7b if (a) \x7b b(); \x7d".toList⟩, ⟨3, "\x7d".toList⟩] := by decide +kernel
  have hbody : HasBody ((splitLines source).drop 0) := by
    rw [hlines]
    exact .onNext (by decide +kernel) (by decide +kernel) (by decide +kernel)
  have hscoped : f ∈ inspect (.ofText source) .scoped := by
    refine mem_inspect_iff.2 ⟨⟨1, "function f() public".toList⟩, ?_, by decide +kernel,
      by decide +kernel, by decide +kernel, rfl⟩
    rw [hlines]
    exact List.mem_cons_self
  exact ⟨hbody, hscoped, rfl, mem_inspect_legacy_of_scoped hbody hscoped rfl⟩

/-- Without a body it is different: legacy mode finds a guard below the declaration. -/
example :
    let lines := (Source.ofText "function f() public;\nrequire(msg.sender == a);".toList).lines
    isGuarded lines .legacy 0 = true ∧ isGuarded lines .scoped 0 = false := by
  decide +kernel

end Detector.AccessControl

end ContractAudit
