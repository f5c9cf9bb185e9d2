import ContractAudit.Proofs.Detector.LineScan
import ContractAudit.Proofs.Report.AtLine

/-!
# Detectors are local

What a detector keys at a line depends on the lines in the reach of its windows alone. Two sources
may differ everywhere else, and the places may stand at different heights in them: as long as the
lines within reach have the same texts, or are missing in both, the same findings are keyed at the
two lines, with line and index shifted by the distance of the places.

The hypothesis on the lines that are missing matters at the two ends of a source, where a window is
clipped. It holds at the first line of both sources, say, and not at the first line of one and a
later line of the other.

* **Keyed findings.** The findings of a line are found again among those of the source by the index
  in their ids (`LineScan.Describes.keyedAtIndex_eq`). For loops this is not the line that is
  reported, which lies somewhere in the window.
* **Reach.** Equal texts look alike (`AlikeAround.of_same`), and at lines that look alike a scan
  finds the same.

Main result: `builtin_isLocal`, the reach of each built-in detector in each mode.
-/

namespace ContractAudit

open Text

/-! ## Findings by their index -/

/-- The findings that are keyed by the line `index`, counted from zero. -/
def keyedAtIndex (index : Nat) (found : List Finding) : List Finding :=
  found.filter fun f => f.index? == some index

theorem exists_isKeyed {name : String} (hname : name ∈ FindingKey.builtinNames) {line : Line}
    {found : List Finding} (h : KeyedAt name line found) {f : Finding} (hf : f ∈ found) :
    ∃ n, f.IsKeyed ⟨name, line.index, n⟩ := by
  obtain ⟨count, hids⟩ := h
  have hid : f.id ∈ found.map Finding.id := List.mem_map_of_mem hf
  rw [hids] at hid
  obtain ⟨n, -, hn⟩ := List.mem_map.1 hid
  exact ⟨n, hn.symm, hname⟩

theorem LineScan.Describes.index?_eq {scan : LineScan} {detector : Detector}
    (h : scan.Describes detector) {source : Source} {mode : ScanMode} {line : Line} {f : Finding}
    (hf : f ∈ scan.findingsAt source mode line) : f.index? = some line.index := by
  obtain ⟨n, hkey⟩ := exists_isKeyed h.mem_names (h.keyedAt source mode line) hf
  exact hkey.index?_eq

/-- The findings of a source with some index are those at the line there, if there is one. -/
theorem LineScan.Describes.keyedAtIndex_eq {scan : LineScan} {detector : Detector}
    (h : scan.Describes detector) (source : List Char) (mode : ScanMode) (i : Nat) :
    keyedAtIndex i ((splitLines source).flatMap (scan.findingsAt (.ofText source) mode)) =
      (splitLines source)[i]?.elim [] (scan.findingsAt (.ofText source) mode) := by
  rw [keyedAtIndex, filter_flatMap_splitLines fun line _ f hf => ?_]
  rw [h.index?_eq hf, beq_iff_eq, Option.some.injEq]

/-! ## The same lines within reach -/

/-- Around line `i` of one source and line `j` of another the lines within reach have the same text
or are missing in both. -/
def SameAround (s t : List Char) (i j : Nat) (reach : Reach) : Prop :=
  ∀ k, reach.low ≤ k → k ≤ reach.high →
    (lineAt? s (i + k)).map Line.text = (lineAt? t (j + k)).map Line.text

theorem exists_getElem?_of_lineAt? {source : List Char} {i : Int} {line : Line}
    (h : lineAt? source i = some line) :
    ∃ n : Nat, i = n ∧ (splitLines source)[n]? = some line := by
  rw [lineAt?] at h
  split at h
  · exact ⟨i.toNat, by omega, h⟩
  · cases h

theorem AlikeAround.of_same {s t : List Char} {i j : Nat} {reach : Reach}
    (h : SameAround s t i j reach) : AlikeAround s t i j reach.low reach.high := by
  intro k hlow hhigh
  have htext := h k hlow hhigh
  cases hs : lineAt? s (i + k) with
  | none =>
    rw [hs, Option.map_none, eq_comm, Option.map_eq_none_iff] at htext
    rw [htext]
    exact .absent
  | some a =>
    rw [hs, Option.map_some, eq_comm, Option.map_eq_some_iff] at htext
    obtain ⟨b, ht, htext⟩ := htext
    obtain ⟨m, hm, ha⟩ := exists_getElem?_of_lineAt? hs
    obtain ⟨n, hn, hb⟩ := exists_getElem?_of_lineAt? ht
    have hanumber := number_of_getElem?_splitLines ha
    have hbnumber := number_of_getElem?_splitLines hb
    rw [ht]
    refine .lines ⟨by omega, ?_⟩
    rw [htext]
    exact .refl (newline_not_mem_of_mem_splitLines (List.mem_of_getElem? ha))

/-! ## Locality -/

/-- In the mode, the detector keys each finding by a line of the source, and what it keys at a line
is decided by the lines within reach, up to the place of the line. -/
structure IsLocal (mode : ScanMode) (detector : Detector) (reach : Reach) : Prop where
  keyed : ∀ source, ∃ found, detector.inspect (.ofText source) mode = .ok found ∧
    ∀ f ∈ found, ∃ i, i < (splitLines source).length ∧ f.index? = some i
  same : ∀ s t i j,
    Detector.Overflow.isVersionProtected s = Detector.Overflow.isVersionProtected t →
    SameAround s t i j reach →
    ∃ found found', detector.inspect (.ofText s) mode = .ok found ∧
      detector.inspect (.ofText t) mode = .ok found' ∧
      keyedAtIndex j found' = (keyedAtIndex i found).map (Finding.shift (j - i))

theorem LineScan.Describes.isLocal {scan : LineScan} {detector : Detector}
    (h : scan.Describes detector) (mode : ScanMode) : IsLocal mode detector (scan.reach mode) where
  keyed source := by
    refine ⟨_, h.inspect_eq (.ofText source) mode, fun f hf => ?_⟩
    obtain ⟨line, hline, hf⟩ := List.mem_flatMap.1 hf
    exact ⟨line.index, index_lt_length hline, h.index?_eq hf⟩
  same s t i j hprotected hsame := by
    refine ⟨_, _, h.inspect_eq (.ofText s) mode, h.inspect_eq (.ofText t) mode, ?_⟩
    have hs : (Source.ofText s).lines.toList = splitLines s := rfl
    have ht : (Source.ofText t).lines.toList = splitLines t := rfl
    rw [hs, ht, h.keyedAtIndex_eq s mode i, h.keyedAtIndex_eq t mode j]
    obtain ⟨hlow, hhigh⟩ := h.here mode
    have haround := AlikeAround.of_same hsame
    have hhere := hsame 0 hlow hhigh
    rw [Int.add_zero, Int.add_zero, lineAt?_natCast, lineAt?_natCast] at hhere
    cases ha : (splitLines s)[i]? with
    | none =>
      -- there is no line at either place
      rw [ha, Option.map_none, eq_comm, Option.map_eq_none_iff] at hhere
      rw [hhere]
      rfl
    | some a =>
      rw [ha, Option.map_some, eq_comm, Option.map_eq_some_iff] at hhere
      obtain ⟨b, hb, -⟩ := hhere
      obtain rfl := index_of_getElem?_splitLines ha
      obtain rfl := index_of_getElem?_splitLines hb
      have hamem := List.mem_of_getElem? ha
      have hbmem := List.mem_of_getElem? hb
      rw [hb]
      exact h.alike hprotected hamem hbmem (haround.alikeLine hlow hhigh hamem hbmem) haround

/-- The reach of each built-in detector, in the order of the registry. -/
def builtinReaches : ScanMode → List Reach
  | .legacy => [⟨0, 5⟩, ⟨0, 0⟩, ⟨0, 9⟩, ⟨0, 9⟩, ⟨-3, 0⟩]
  | .scoped => [⟨0, 200⟩, ⟨0, 0⟩, ⟨0, 199⟩, ⟨0, 199⟩, ⟨-200, 0⟩]

/-- **Locality.** Each built-in detector reads no further than its reach, in either mode. -/
theorem builtin_isLocal (mode : ScanMode) :
    List.Forall₂ (IsLocal mode) Detector.builtin (builtinReaches mode) := by
  have hreaches : builtinReaches mode = Detector.builtinScans.map fun scan => scan.reach mode := by
    cases mode <;> rfl
  rw [hreaches, List.forall₂_map_right_iff]
  exact Detector.forall₂_describes.flip.imp fun _ _ h => h.isLocal mode

end ContractAudit
