import ContractAudit.Proofs.Detector.Patterns
import ContractAudit.Proofs.Report.Shift

/-!
# Detectors as scans of lines

Each built-in detector goes through the lines of a source and reports what it finds at each. What it
finds at a line depends on the lines within a bounded reach of it and on nothing else, but for the
version of the language that the source as a whole asks for. And it depends on these lines only up
to white space: at places that look alike the same is found, with the lines and the indices shifted
by the distance of the two places, and nothing is found on white space.

The facts are collected in `LineScan.Describes`, one proof for each detector. What follows from them
for whole sources is proved once, for any detector that is so described.

Main results:

* `Reentrancy.describes`, `Overflow.describes`, `GasLoop.describes`, `AccessControl.describes` and
  `NatSpec.describes`: each detector is a scan with the reach of its windows.
* `forall₂_describes`: the scans of the registry, in order.
-/

namespace ContractAudit

open Text

/-! ## Scans -/

/-- Offsets of lines, counted from the line that keys a finding. -/
structure Reach where
  low : Int
  high : Int
deriving DecidableEq

/-- A detector line by line. -/
structure LineScan where
  name : String
  reach : ScanMode → Reach
  findingsAt : Source → ScanMode → Line → List Finding

/-- A detector is described by a scan of bounded reach that looks through white space. -/
structure LineScan.Describes (scan : LineScan) (detector : Detector) : Prop where
  inspect_eq : ∀ source mode,
    detector.inspect source mode = .ok (source.lines.toList.flatMap (scan.findingsAt source mode))
  mem_names : scan.name ∈ FindingKey.builtinNames
  keyedAt : ∀ source mode line, KeyedAt scan.name line (scan.findingsAt source mode line)
  here : ∀ mode, (scan.reach mode).low ≤ 0 ∧ 0 ≤ (scan.reach mode).high
  blank : ∀ source mode line, AlikeText [] line.text → scan.findingsAt source mode line = []
  alike : ∀ {s t : List Char} {mode : ScanMode} {a b : Line},
    Detector.Overflow.isVersionProtected s = Detector.Overflow.isVersionProtected t →
    a ∈ splitLines s → b ∈ splitLines t → AlikeLine (b.index - a.index) a b →
    AlikeAround s t a.index b.index (scan.reach mode).low (scan.reach mode).high →
    scan.findingsAt (.ofText t) mode b =
      (scan.findingsAt (.ofText s) mode a).map (Finding.shift (b.index - a.index))

/-- Two lines that look alike around them are alike. -/
theorem AlikeAround.alikeLine {s t : List Char} {a b : Line} {low high : Int}
    (h : AlikeAround s t a.index b.index low high) (hlow : low ≤ 0) (hhigh : 0 ≤ high)
    (ha : a ∈ splitLines s) (hb : b ∈ splitLines t) : AlikeLine (b.index - a.index) a b := by
  have hat := h 0 hlow hhigh
  rw [Int.add_zero, Int.add_zero, lineAt?_natCast, lineAt?_natCast, (getElem?_splitLines ha).1,
    (getElem?_splitLines hb).1] at hat
  cases hat with
  | lines hlines => exact hlines

theorem index_lt_length {source : List Char} {line : Line} (h : line ∈ splitLines source) :
    line.index < (splitLines source).length :=
  (List.getElem?_eq_some_iff.1 (getElem?_splitLines h).1).1

/-- The line that is reported need not be the one that keys the finding; both are shifted. -/
theorem Detector.Profile.singleton_alike {profile : Profile}
    (hname : profile.name ∈ FindingKey.builtinNames) {i j : Nat} {a b : Line}
    (h : AlikeLine (j - i) a b) (severity : Severity) :
    [profile.finding (profile.id j) severity b] =
      [profile.finding (profile.id i) severity a].map (Finding.shift (j - i)) := by
  have hindex : (j : Int) = i + (j - i) := by omega
  have hshift := profile.shift_finding hname hindex h 0 severity
  rw [List.map_singleton, profile.id_eq_text, profile.id_eq_text, hshift]

theorem Detector.Profile.ite_alike {profile : Profile}
    (hname : profile.name ∈ FindingKey.builtinNames) {a b : Line}
    (h : AlikeLine (b.index - a.index) a b) {p q : Bool} (hpq : q = p) (severity : Severity) :
    (if q then [profile.finding (profile.id b.index) severity b] else []) =
      (if p then [profile.finding (profile.id a.index) severity a] else []).map
        (Finding.shift (b.index - a.index)) := by
  subst hpq
  cases q with
  | false => rfl
  | true => exact profile.singleton_alike hname h severity

namespace Detector

/-! ## Reentrancy -/

namespace Reentrancy

def scan : LineScan where
  name := profile.name
  reach
    | .legacy => ⟨0, 5⟩
    | .scoped => ⟨0, 200⟩
  findingsAt source := findingsAt source.lines

/-- The call is as grave where the lines after it are alike. -/
theorem severityAt_alike {s t : List Char} {mode : ScanMode} {i j : Nat}
    (h : AlikeAround s t i j (scan.reach mode).low (scan.reach mode).high) :
    severityAt (Source.ofText t).lines mode j = severityAt (Source.ofText s).lines mode i := by
  have hwindow : AlikeLines (j - i) (windowAfter (Source.ofText s).lines mode i)
      (windowAfter (Source.ofText t).lines mode j) := by
    cases mode
    · exact h.linesAfter window (by decide) (by decide)
    · exact h.restOfBlock scopeLimit (by decide) (by decide)
  rw [severityAt, severityAt, hwindow.any ignoresTrailing_mutatesState (by decide)]

theorem describes : scan.Describes (.ofTotal profile.name inspect) where
  inspect_eq source mode := rfl
  mem_names := by decide
  keyedAt source := Reentrancy.keyedAt source.lines
  here mode := by cases mode <;> decide
  blank source mode line h := by
    have hcount : countForms line.text = 0 := h.congr ignoresTrailing_countForms
    show findingsAt source.lines mode line = []
    rw [findingsAt, hcount]
    rfl
  alike {s t mode a b} _ _ _ hline h := by
    have hcount : countForms b.text = countForms a.text :=
      hline.text.congr ignoresTrailing_countForms
    show findingsAt _ mode b = (findingsAt _ mode a).map _
    rw [findingsAt, findingsAt, hcount, severityAt_alike h]
    split
    · rfl
    · -- the forms of the line are numbered alike
      rw [List.map_map]
      refine List.map_congr_left fun n _ => ?_
      have hindex : (b.index : Int) = a.index + (b.index - a.index) := by omega
      exact (profile.shift_finding (by decide) hindex hline n _).symm

end Reentrancy

/-! ## Overflow -/

namespace Overflow

def scan : LineScan where
  name := profile.name
  reach _ := ⟨0, 0⟩
  findingsAt source mode line :=
    if isVersionProtected source.text then [] else findingsAt mode line

theorem describes : scan.Describes (.ofTotal profile.name inspect) where
  inspect_eq source mode := by
    show Except.ok (inspect source mode) = .ok (source.lines.toList.flatMap fun line =>
      if isVersionProtected source.text then [] else findingsAt mode line)
    rw [inspect]
    split
    · rw [List.flatMap_eq_nil_iff.2 fun _ _ => rfl]
    · rfl
  mem_names := by decide
  keyedAt source mode line := by
    show KeyedAt _ _ (if isVersionProtected source.text then [] else findingsAt mode line)
    split
    · exact keyedAt_nil _ line
    · exact keyedAt_ite _ line _ _
  here _ := ⟨Int.le_refl 0, Int.le_refl 0⟩
  blank source mode line h := by
    have hnone : isArithmetic mode line.text = false := by
      rw [isArithmetic_congr h]
      cases mode <;> decide
    show (if isVersionProtected source.text then [] else findingsAt mode line) = []
    rw [findingsAt, hnone]
    split <;> rfl
  alike {s t mode a b} hprotected _ _ hline _ := by
    show (if isVersionProtected t then [] else findingsAt mode b) =
      (if isVersionProtected s then [] else findingsAt mode a).map _
    rw [hprotected]
    split
    · rfl
    · exact Profile.ite_alike (by decide) hline (isArithmetic_congr hline.text mode) _

end Overflow

/-! ## Storage writes in loops -/

namespace GasLoop

def scan : LineScan where
  name := profile.name
  reach
    | .legacy => ⟨0, 9⟩
    | .scoped => ⟨0, 199⟩
  findingsAt source := findingsAt source.lines

theorem loopLines_alike {s t : List Char} {mode : ScanMode} {i j : Nat}
    (h : AlikeAround s t i j (scan.reach mode).low (scan.reach mode).high) :
    AlikeLines (j - i) (loopLines (Source.ofText s).lines mode i)
      (loopLines (Source.ofText t).lines mode j) := by
  cases mode
  · exact h.linesFrom window (by decide) (by decide)
  · exact h.blockBody scopeLimit (by decide) (by decide)

theorem describes : scan.Describes (.ofTotal profile.name inspect) where
  inspect_eq source mode := rfl
  mem_names := by decide
  keyedAt source := GasLoop.keyedAt source.lines
  here mode := by cases mode <;> decide
  blank source mode line h := by
    have hloop : isLoop line.text = false := h.congr ignoresTrailing_isLoop
    show findingsAt source.lines mode line = []
    rw [findingsAt, hloop]
    rfl
  alike {s t mode a b} _ _ _ hline h := by
    have hloop : isLoop b.text = isLoop a.text := hline.text.congr ignoresTrailing_isLoop
    have hhit := (loopLines_alike h).find? ignoresTrailing_writesStorage (by decide)
    show findingsAt _ mode b = (findingsAt _ mode a).map _
    rw [findingsAt, findingsAt, hloop]
    split
    · -- both loops write, at lines that are alike, or neither does
      generalize (loopLines (Source.ofText s).lines mode a.index).find? _ = found,
        (loopLines (Source.ofText t).lines mode b.index).find? _ = found' at hhit
      cases hhit with
      | none => rfl
      | some hhit => exact profile.singleton_alike (by decide) hhit .low
    · rfl

end GasLoop

/-! ## Access control -/

namespace AccessControl

def scan : LineScan where
  name := profile.name
  reach
    | .legacy => ⟨0, 9⟩
    | .scoped => ⟨0, 199⟩
  findingsAt source := findingsAt source.lines

/-- White space neither guards a function nor closes it. -/
theorem guardedBeforeClosing_alike {shift : Int} {as bs : List Line}
    (h : AlikeLines shift as bs) : guardedBeforeClosing bs = guardedBeforeClosing as := by
  induction h with
  | @blank bs h =>
    induction bs with
    | nil => rfl
    | cons b bs ih =>
      have hguard : hasGuard b.text = false :=
        (h b List.mem_cons_self).congr ignoresTrailing_hasGuard
      have hrest := ih fun c hc => h c (List.mem_cons_of_mem b hc)
      show (hasGuard b.text || (!b.text.contains '\x7d' && guardedBeforeClosing bs)) = false
      rw [hguard, hrest, guardedBeforeClosing, Bool.and_false, Bool.or_false]
  | cons h _ ih =>
    rw [guardedBeforeClosing, guardedBeforeClosing, h.text.congr ignoresTrailing_hasGuard, ih,
      h.text.congr (ignoresTrailing_contains (c := '\x7d') rfl)]

theorem isGuarded_alike {s t : List Char} {mode : ScanMode} {i j : Nat}
    (h : AlikeAround s t i j (scan.reach mode).low (scan.reach mode).high) :
    isGuarded (Source.ofText t).lines mode j = isGuarded (Source.ofText s).lines mode i := by
  cases mode
  · exact guardedBeforeClosing_alike (h.linesFrom window (by decide) (by decide))
  · exact (h.blockBody scopeLimit (by decide) (by decide)).any ignoresTrailing_hasGuard (by decide)

theorem describes : scan.Describes (.ofTotal profile.name inspect) where
  inspect_eq source mode := rfl
  mem_names := by decide
  keyedAt source mode line := keyedAt_ite _ line _ _
  here mode := by cases mode <;> decide
  blank source mode line h := by
    have hnone : declaresPublicFunction line.text = false :=
      h.congr ignoresTrailing_declaresPublicFunction
    show findingsAt source.lines mode line = []
    rw [findingsAt, hnone]
    rfl
  alike {s t mode a b} _ _ _ hline h := by
    refine Profile.ite_alike (by decide) hline ?_ _
    rw [hline.text.congr ignoresTrailing_declaresPublicFunction,
      hline.text.congr ignoresTrailing_hasGuard, isGuarded_alike h]

end AccessControl

/-! ## Missing documentation -/

namespace NatSpec

def scan : LineScan where
  name := profile.name
  reach
    | .legacy => ⟨-3, 0⟩
    | .scoped => ⟨-200, 0⟩
  findingsAt source := findingsAt source.lines

theorem any_linesAbove_alike {s t : List Char} {mode : ScanMode} {i j : Nat}
    (h : AlikeAround s t i j (scan.reach mode).low (scan.reach mode).high)
    (hi : i < (splitLines s).length) (hj : j < (splitLines t).length) :
    ((linesAbove (Source.ofText t).lines mode j).any fun above => hasDocumentation above.text) =
      (linesAbove (Source.ofText s).lines mode i).any fun above => hasDocumentation above.text := by
  have habove : AlikeLines (j - i) (linesAbove (Source.ofText s).lines mode i).reverse
      (linesAbove (Source.ofText t).lines mode j).reverse := by
    cases mode
    · exact h.linesBefore window (by decide) (by decide) hi hj
    · exact h.commentBlockAbove scopeLimit (by decide) (by decide) hi hj
  have hany := habove.any ignoresTrailing_hasDocumentation (by decide)
  rwa [List.any_reverse, List.any_reverse] at hany

theorem describes : scan.Describes (.ofTotal profile.name inspect) where
  inspect_eq source mode := rfl
  mem_names := by decide
  keyedAt source mode line := keyedAt_ite _ line _ _
  here mode := by cases mode <;> decide
  blank source mode line h := by
    have hnone : isDeclaration mode line.text = false :=
      h.congr (ignoresTrailing_isDeclaration mode)
    show findingsAt source.lines mode line = []
    rw [findingsAt, hnone]
    rfl
  alike {s t mode a b} _ ha hb hline h := by
    refine Profile.ite_alike (by decide) hline ?_ _
    rw [hline.text.congr (ignoresTrailing_isDeclaration mode),
      any_linesAbove_alike h (index_lt_length ha) (index_lt_length hb)]

end NatSpec

/-! ## The registry -/

/-- The scans of the built-in detectors, in the order of the registry. -/
def builtinScans : List LineScan :=
  [Reentrancy.scan, Overflow.scan, GasLoop.scan, AccessControl.scan, NatSpec.scan]

theorem forall₂_describes : List.Forall₂ LineScan.Describes builtinScans builtin :=
  .cons Reentrancy.describes <| .cons Overflow.describes <| .cons GasLoop.describes <|
    .cons AccessControl.describes <| .cons NatSpec.describes .nil

end Detector

end ContractAudit
