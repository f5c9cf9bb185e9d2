import ContractAudit.Proofs.Report.Order

/-!
# The findings of one line

A detector goes through the lines of a source and puts together what it finds at each. What it finds
at a line can be picked out again by whatever tells the lines apart in the findings: the index in
the ids, or the line they stand at.

Main results:

* `filter_flatMap_splitLines`: a test that tells the line of a finding picks out one line.
* `standingAt_flatMap`: so the findings that stand at a line are those that were found at it.
* `reported_of_eq_ite`: at most one, for a detector that tests the line.
-/

namespace ContractAudit

/-- Only one line of consecutive ones has a given index. -/
theorem flatMap_ite_index (findingsAt : Line → List Finding) (i first : Nat) (lines : List Line)
    (hlines : ∀ k line, lines[k]? = some line → line.index = first + k) :
    (lines.flatMap fun line => if line.index = first + i then findingsAt line else []) =
      lines[i]?.elim [] findingsAt := by
  induction lines generalizing i first with
  | nil => rfl
  | cons line rest ih =>
    have hfirst : line.index = first := hlines 0 line rfl
    have hrest : ∀ k l, rest[k]? = some l → l.index = first + 1 + k := fun k l hl => by
      have hindex := hlines (k + 1) l hl
      omega
    rw [List.flatMap_cons, hfirst]
    cases i with
    | zero =>
      -- the lines after the first one have larger indices
      have hnil :
          (rest.flatMap fun l => if l.index = first + 0 then findingsAt l else []) = [] := by
        rw [List.flatMap_eq_nil_iff]
        intro l hl
        obtain ⟨k, hk⟩ := List.getElem?_of_mem hl
        have hindex := hrest k l hk
        rw [if_neg (by omega)]
      rw [hnil, if_pos (Nat.add_zero first).symm, List.append_nil]
      rfl
    | succ i =>
      have hshift : first + (i + 1) = first + 1 + i := by omega
      rw [if_neg (by omega), List.nil_append, hshift, ih i (first + 1) hrest]
      rfl

/-- A test that tells which line a finding was found at picks out the findings of this line. -/
theorem filter_flatMap_splitLines {source : List Char} {findingsAt : Line → List Finding}
    {test : Finding → Bool} {i : Nat}
    (htest : ∀ line ∈ splitLines source, ∀ f ∈ findingsAt line, test f = true ↔ line.index = i) :
    ((splitLines source).flatMap findingsAt).filter test =
      (splitLines source)[i]?.elim [] findingsAt := by
  have hfilter : ∀ line ∈ splitLines source, (findingsAt line).filter test =
      if line.index = 0 + i then findingsAt line else [] := by
    intro line hline
    rw [Nat.zero_add]
    split
    · rename_i hindex
      exact List.filter_eq_self.2 fun f hf => (htest line hline f hf).2 hindex
    · rename_i hindex
      exact List.filter_eq_nil_iff.2 fun f hf htrue => hindex ((htest line hline f hf).1 htrue)
  rw [List.filter_flatMap]
  refine Eq.trans (List.flatMap_congr hfilter) ?_
  refine flatMap_ite_index _ i 0 _ fun k line hk => ?_
  rw [index_of_getElem?_splitLines hk, Nat.zero_add]

/-- The findings that stand at the line with a number. -/
def standingAt (number : Nat) (found : List Finding) : List Finding :=
  found.filter fun f => f.line == number

/-- Where findings stand at the scanned lines, those at a line are the ones found at it. -/
theorem standingAt_flatMap {profile : Detector.Profile} {source : List Char}
    {findingsAt : Line → List Finding} (hstand : ∀ line, StandAt profile line (findingsAt line))
    (i : Fin (splitLines source).length) :
    standingAt (i + 1) ((splitLines source).flatMap findingsAt) =
      findingsAt ((splitLines source).get i) := by
  rw [standingAt, filter_flatMap_splitLines (i := i), List.getElem?_eq_getElem i.isLt]
  · rfl
  · intro line hline f hf
    have hnumber := (getElem?_splitLines hline).2
    rw [(hstand line f hf).2, beq_iff_eq]
    omega

theorem index_get_splitLines {source : List Char} (i : Fin (splitLines source).length) :
    ((splitLines source).get i).index = i :=
  index_of_getElem?_splitLines (List.getElem?_eq_getElem i.isLt)

/-- A detector with one finding for a line reports the line exactly if its test holds, and once. -/
theorem reported_of_eq_ite {found : List Finding} {test : Bool} {f : Finding}
    (h : found = if test then [f] else []) :
    (found ≠ [] ↔ test = true) ∧ (found ≠ [] → found = [f]) := by
  subst h
  cases test <;> simp

end ContractAudit
