import ContractAudit.Proofs.Report.Identity
import Mathlib.Data.List.Forall2

/-!
# The order of findings

The findings of a report come detector by detector, in the order of the registry, and those of one
detector in the order of the lines they stand at.

Four detectors report the line they scan, so their order is that of the scan. The fifth scans for
loops and reports the first writing line of each, which may lie far below and inside other loops.
Its order rests on the shape of the windows: a window has every line from the loop's own up to some
line, whether it is a fixed number of lines or found by counting braces (`loopLines_isPrefix`). A
loop that starts later thus cannot find its first write before the one that an earlier loop found:
that line would lie in the window of the earlier loop too (`IsFirstWrite.mono`).

Main results:

* `GasLoop.exists_isFirstWrite`: the reported line is the first writing one from the loop on.
* `forall₂_inOrder`: what a detector finds carries its name and goes up in lines.
* `findings_pairwise`: the findings of a report go up in registry place, then in line.
-/

namespace ContractAudit

open Detector

/-! ## First writes from a loop on -/

namespace Detector.GasLoop

/-- The line at `hit` is the first one from `loop` on that writes to an indexed variable. -/
structure IsFirstWrite (lines : List Line) (loop hit : Nat) : Prop where
  le : loop ≤ hit
  writes : ∃ line, lines[hit]? = some line ∧ writesStorage line.text = true
  first : ∀ i line, loop ≤ i → i < hit → lines[i]? = some line → writesStorage line.text = false

/-- A later loop does not reach its first write before an earlier loop does. -/
theorem IsFirstWrite.mono {lines : List Line} {i j k m : Nat} (hi : IsFirstWrite lines i k)
    (hj : IsFirstWrite lines j m) (hij : i ≤ j) : k ≤ m := by
  by_contra hlt
  -- the write of the later loop would stand in front of the first write of the earlier one
  obtain ⟨line, hline, hwrites⟩ := hj.writes
  have hnot := hi.first m line (hij.trans hj.le) (by omega) hline
  rw [hwrites] at hnot
  cases hnot

/-- The lines of a loop are those from its own on, without a gap. -/
theorem loopLines_isPrefix (lines : Array Line) (mode : ScanMode) (index : Nat) :
    loopLines lines mode index <+: lines.toList.drop index := by
  cases mode
  · exact linesFrom_isPrefix lines index window
  · exact blockBody_isPrefix lines index scopeLimit

theorem exists_isFirstWrite {lines : Array Line} {mode : ScanMode} {index : Nat} {hit : Line}
    (h : (loopLines lines mode index).find? (fun line => writesStorage line.text) = some hit) :
    ∃ k, IsFirstWrite lines.toList index k ∧ lines.toList[k]? = some hit := by
  obtain ⟨hwrites, n, hn, hhit, hbefore⟩ := List.find?_eq_some_iff_getElem.1 h
  -- a place in the window is a place in the source, counted from the loop
  have hplace : ∀ m (hm : m < (loopLines lines mode index).length),
      lines.toList[index + m]? = some (loopLines lines mode index)[m] := by
    intro m hm
    obtain ⟨hlength, hall⟩ := List.prefix_iff_getElem.1 (loopLines_isPrefix lines mode index)
    rw [hall m hm, ← List.getElem?_eq_getElem, List.getElem?_drop]
  have hline : lines.toList[index + n]? = some hit := hhit ▸ hplace n hn
  refine ⟨index + n, ⟨Nat.le_add_right _ _, ⟨hit, hline, hwrites⟩, ?_⟩, hline⟩
  intro i line hle hlt hi
  obtain ⟨m, rfl⟩ := Nat.exists_eq_add_of_le hle
  have hm : m < n := by omega
  rw [hplace m (hm.trans hn)] at hi
  obtain rfl := Option.some.inj hi
  simpa using hbefore m hm

/-- A loop is reported at its first write, a line of its window. -/
theorem exists_of_mem_findingsAt {lines : Array Line} {mode : ScanMode} {line : Line}
    {f : Finding} (h : f ∈ findingsAt lines mode line) :
    isLoop line.text = true ∧
      ∃ k hit, IsFirstWrite lines.toList line.index k ∧ lines.toList[k]? = some hit ∧
        hit ∈ loopLines lines mode line.index ∧
        f = profile.finding (profile.id line.index) .low hit := by
  rw [findingsAt] at h
  split at h
  · rename_i hloop
    split at h
    · rename_i hit hfind
      obtain ⟨k, hfirst, hk⟩ := exists_isFirstWrite hfind
      exact ⟨hloop, k, hit, hfirst, hk, List.mem_of_find?_eq_some hfind, List.mem_singleton.1 h⟩
    · exact absurd h List.not_mem_nil
  · exact absurd h List.not_mem_nil

end Detector.GasLoop

/-! ## The findings of a detector -/

/-- The findings name the detector and go up in lines. -/
structure InOrder (detector : Detector) (found : List Finding) : Prop where
  named : ∀ f ∈ found, f.detector = .text detector.name
  pairwise : found.Pairwise fun f g => f.line ≤ g.line

theorem inOrder_nil (detector : Detector) : InOrder detector [] :=
  ⟨fun _ h => absurd h List.not_mem_nil, .nil⟩

/-- A scan gives findings in order when a line further down never reports further up. -/
theorem inOrder_flatMap {detector : Detector} {source : List Char}
    {findingsAt : Line → List Finding}
    (hnamed : ∀ line, ∀ f ∈ findingsAt line, f.detector = .text detector.name)
    (hup : ∀ a ∈ splitLines source, ∀ b ∈ splitLines source, a.index ≤ b.index →
      ∀ f ∈ findingsAt a, ∀ g ∈ findingsAt b, f.line ≤ g.line) :
    InOrder detector ((splitLines source).flatMap findingsAt) := by
  constructor
  · intro f hf
    obtain ⟨line, -, hline⟩ := List.mem_flatMap.1 hf
    exact hnamed line f hline
  · rw [List.pairwise_flatMap]
    -- the order holds among the findings keyed at one line and from line to later line
    constructor
    · intro line hline
      refine List.pairwise_of_forall_mem_list fun f hf g hg => ?_
      exact hup line hline line hline (le_refl _) f hf g hg
    · refine (pairwise_index_splitLines source).imp_of_mem fun {a b} ha hb hab f hf g hg => ?_
      exact hup a ha b hb hab.le f hf g hg

/-- Whatever is found at a line is reported at this line and by its index. -/
def ReportsAt (profile : Profile) (line : Line) (found : List Finding) : Prop :=
  ∀ f ∈ found, ∃ ordinal severity,
    f = profile.finding (FindingKey.text ⟨profile.name, line.index, ordinal⟩) severity line

theorem reportsAt_ite (profile : Profile) (line : Line) (severity : Severity) (found : Bool) :
    ReportsAt profile line
      (if found then [profile.finding (profile.id line.index) severity line] else []) := by
  intro f hf
  cases found
  · exact absurd hf List.not_mem_nil
  · obtain rfl := List.mem_singleton.1 hf
    exact ⟨0, severity, by rw [profile.id_eq_text]⟩

theorem Detector.Reentrancy.reportsAt (lines : Array Line) (mode : ScanMode) (line : Line) :
    ReportsAt profile line (findingsAt lines mode line) := by
  intro f hf
  rw [findingsAt] at hf
  split at hf
  · exact absurd hf List.not_mem_nil
  · obtain ⟨n, -, rfl⟩ := List.mem_map.1 hf
    exact ⟨n, _, rfl⟩

/-- The findings at a line stand at it and carry the name of the detector. -/
def StandAt (profile : Profile) (line : Line) (found : List Finding) : Prop :=
  ∀ f ∈ found, f.detector = .text profile.name ∧ f.line = line.number

theorem ReportsAt.standAt {profile : Profile} {line : Line} {found : List Finding}
    (h : ReportsAt profile line found) : StandAt profile line found := by
  intro f hf
  obtain ⟨ordinal, severity, rfl⟩ := h f hf
  exact ⟨rfl, rfl⟩

/-- Findings that stand at the scanned lines go up as the scan does. -/
theorem inOrder_of_standAt {detector : Detector} {profile : Profile} {source : List Char}
    {findingsAt : Line → List Finding} (hname : detector.name = profile.name)
    (hstand : ∀ line, StandAt profile line (findingsAt line)) :
    InOrder detector ((splitLines source).flatMap findingsAt) := by
  apply inOrder_flatMap
  · intro line f hf
    rw [hname]
    exact (hstand line f hf).1
  · intro a ha b hb hab f hf g hg
    have hanumber := (getElem?_splitLines ha).2
    have hbnumber := (getElem?_splitLines hb).2
    rw [(hstand a f hf).2, (hstand b g hg).2]
    omega

/-- The findings of loops go up in lines although they do not stand at the scanned lines. -/
theorem Detector.GasLoop.inOrder (source : List Char) (mode : ScanMode) :
    InOrder (.ofTotal profile.name inspect) (inspect (.ofText source) mode) := by
  apply inOrder_flatMap
  · intro line f hf
    obtain ⟨-, k, hit, -, -, -, rfl⟩ := exists_of_mem_findingsAt hf
    rfl
  · intro a _ b _ hab f hf g hg
    obtain ⟨-, k, hit, hk, hkline, -, rfl⟩ := exists_of_mem_findingsAt hf
    obtain ⟨-, m, hit', hm, hmline, -, rfl⟩ := exists_of_mem_findingsAt hg
    -- the first write from the later loop on is not above that from the earlier one
    have hle := hk.mono hm hab
    have hnumber := number_of_getElem?_splitLines hkline
    have hnumber' := number_of_getElem?_splitLines hmline
    show (hit.number : Int) ≤ hit'.number
    omega

/-- What each built-in detector finds is in order. -/
theorem forall₂_inOrder (source : List Char) (mode : ScanMode) :
    List.Forall₂ InOrder builtin (builtinFound source mode) := by
  have hoverflow : InOrder (.ofTotal Overflow.profile.name Overflow.inspect)
      (Overflow.inspect (.ofText source) mode) := by
    rw [Overflow.inspect]
    split
    · exact inOrder_nil _
    · exact inOrder_of_standAt rfl fun line => (reportsAt_ite _ line _ _).standAt
  exact .cons (inOrder_of_standAt rfl fun line => (Reentrancy.reportsAt _ mode line).standAt) <|
    .cons hoverflow <|
    .cons (GasLoop.inOrder source mode) <|
    .cons (inOrder_of_standAt rfl fun line => (reportsAt_ite _ line _ _).standAt) <|
    .cons (inOrder_of_standAt rfl fun line => (reportsAt_ite _ line _ _).standAt) .nil

/-! ## The findings of a report -/

/-- The place in the registry of the detector that a finding names. -/
def Finding.registryPlace? (f : Finding) : Option Nat :=
  match f.detector with
  | .string (.text name) => builtin.findIdx? (·.name == name)
  | _ => none

/-- No two built-in detectors share a name, so a name gives back its place. -/
theorem findIdx?_builtin :
    ∀ i : Fin builtin.length, builtin.findIdx? (·.name == builtin[i].name) = some i.val := by
  decide

theorem registryPlace?_of_named {f : Finding} {i : Nat} (hi : i < builtin.length)
    (h : f.detector = .text builtin[i].name) : f.registryPlace? = some i := by
  rw [Finding.registryPlace?, h]
  exact findIdx?_builtin ⟨i, hi⟩

/-- **Order.** Of two findings of a report, the earlier one is from a detector that is registered
before, or from the same detector and at a line that is not below. -/
theorem findings_pairwise (source : List Char) (mode : ScanMode) :
    ∃ report, analyze source mode = .ok report ∧
      report.findings.Pairwise fun f g =>
        ∃ i j, f.registryPlace? = some i ∧ g.registryPlace? = some j ∧
          (i < j ∨ i = j ∧ f.line ≤ g.line) := by
  obtain ⟨report, hreport, hfindings, -⟩ := exists_analyze source mode
  refine ⟨report, hreport, ?_⟩
  obtain ⟨hlength, horder⟩ := List.forall₂_iff_get.1 (forall₂_inOrder source mode)
  rw [hfindings, List.pairwise_flatten]
  constructor
  · -- two findings of one detector: the lines decide
    intro found hfound
    obtain ⟨i, hi, rfl⟩ := List.getElem_of_mem hfound
    have hinOrder := horder i (hlength ▸ hi) hi
    refine hinOrder.pairwise.imp_of_mem fun {f g} hf hg hfg => ?_
    have hplace := fun x hx => registryPlace?_of_named (hlength ▸ hi) (hinOrder.named x hx)
    exact ⟨i, i, hplace f hf, hplace g hg, Or.inr ⟨rfl, hfg⟩⟩
  · -- findings of two detectors: the places do, since each carries the name of its own
    rw [List.pairwise_iff_getElem]
    intro i j hi hj hij f hf g hg
    have hfplace := registryPlace?_of_named (hlength ▸ hi) ((horder i (hlength ▸ hi) hi).named f hf)
    have hgplace := registryPlace?_of_named (hlength ▸ hj) ((horder j (hlength ▸ hj) hj).named g hg)
    exact ⟨i, j, hfplace, hgplace, Or.inl hij⟩

end ContractAudit
