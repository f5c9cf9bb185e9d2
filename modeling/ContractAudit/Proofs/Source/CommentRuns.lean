import ContractAudit.Source.Window
import Mathlib.Data.List.DropRight
import Mathlib.Order.Bounds.Defs

/-!
# The comment block above a line

The comment block above a line is found by going up from it, line by line, as long as the lines are
comment lines and no more than a limit of them is passed. The lines come out in the order of the
source nevertheless. Said without the scan, the block is the longest run of comment lines that ends
right above the line and is within the limit; near the top of a source the run may start with the
first line.

Main results: `exists_isRunStart`, by which the block is this run, and `mem_commentBlockAbove_iff`,
by which a line is in the block exactly if it and every line between are comment lines.
-/

namespace ContractAudit

/-- The lines from `j` on and before `i` are comment lines. -/
def CommentsBetween (lines : List Line) (j i : Nat) : Prop :=
  ∀ k line, j ≤ k → k < i → lines[k]? = some line → isCommentLine line.text = true

/-- The longest run of comment lines that ends right above line `i`, with no more than `limit`
lines, starts at line `first`. -/
def IsRunStart (lines : List Line) (i limit first : Nat) : Prop :=
  IsLeast {j | j ≤ i ∧ i - j ≤ limit ∧ CommentsBetween lines j i} first

theorem commentsBetween_iff {lines : List Line} {j i : Nat} :
    CommentsBetween lines j i ↔
      ∀ line ∈ (lines.take i).drop j, isCommentLine line.text = true := by
  constructor
  · intro h line hline
    obtain ⟨k, hk⟩ := List.getElem?_of_mem hline
    rw [List.getElem?_drop, List.getElem?_take] at hk
    split at hk
    · rename_i hlt
      exact h (j + k) line (Nat.le_add_right j k) hlt hk
    · cases hk
  · intro h k line hjk hki hline
    refine h line (List.mem_of_getElem? (i := k - j) ?_)
    rw [List.getElem?_drop, Nat.add_sub_cancel' hjk, List.getElem?_take, if_pos hki]
    exact hline

theorem CommentsBetween.mono {lines : List Line} {j k i : Nat} (h : CommentsBetween lines j i)
    (hjk : j ≤ k) : CommentsBetween lines k i :=
  fun m line hkm => h m line (hjk.trans hkm)

/-- Going up stops no earlier than at the top of a run. -/
theorem length_le_length_rtakeWhile {α : Type} {p : α → Bool} {run lines : List α}
    (hsuffix : run <:+ lines) (hrun : ∀ a ∈ run, p a = true) :
    run.length ≤ (lines.rtakeWhile p).length := by
  obtain ⟨above, rfl⟩ := hsuffix
  have hreverse : ∀ a ∈ run.reverse, p a = true := fun a ha => hrun a (List.mem_reverse.1 ha)
  rw [List.rtakeWhile, List.reverse_append, List.takeWhile_append_of_pos hreverse,
    List.length_reverse, List.length_append, List.length_reverse]
  exact Nat.le_add_right _ _

theorem exists_isRunStart {lines : Array Line} {i : Nat} (hi : i ≤ lines.toList.length)
    (limit : Nat) :
    ∃ first, IsRunStart lines.toList i limit first ∧
      commentBlockAbove lines i limit = (lines.toList.take i).drop first := by
  have hblock : commentBlockAbove lines i limit =
      ((lines.toList.take i).drop (i - limit)).rtakeWhile fun line => isCommentLine line.text := by
    rw [commentBlockAbove, linesBefore_natCast]
    rfl
  have hlength : (lines.toList.take i).length = i := by
    rw [List.length_take, Nat.min_eq_left hi]
  have hwindow : ((lines.toList.take i).drop (i - limit)).length ≤ limit := by
    rw [List.length_drop, hlength]
    omega
  have hsuffix : commentBlockAbove lines i limit <:+ (lines.toList.take i).drop (i - limit) :=
    hblock ▸ List.rtakeWhile_suffix _ _
  have hcount : (commentBlockAbove lines i limit).length ≤ limit :=
    hsuffix.length_le.trans hwindow
  have habove : commentBlockAbove lines i limit <:+ lines.toList.take i :=
    hsuffix.trans (List.drop_suffix _ _)
  have hcount' : (commentBlockAbove lines i limit).length ≤ i :=
    habove.length_le.trans hlength.le
  have hdrop : commentBlockAbove lines i limit =
      (lines.toList.take i).drop (i - (commentBlockAbove lines i limit).length) := by
    have heq := List.suffix_iff_eq_drop.1 habove
    rwa [hlength] at heq
  refine ⟨i - (commentBlockAbove lines i limit).length, ⟨⟨Nat.sub_le _ _, by omega, ?_⟩, ?_⟩, hdrop⟩
  · rw [commentsBetween_iff, ← hdrop, hblock]
    intro line hline
    exact List.mem_rtakeWhile_imp (p := fun l : Line => isCommentLine l.text) hline
  · rintro j ⟨hji, hlimit, hcomments⟩
    -- a run from `j` on is a part of the window, so it is passed as a whole
    have hrun : (lines.toList.take i).drop j <:+ (lines.toList.take i).drop (i - limit) := by
      obtain ⟨m, hm⟩ := Nat.exists_eq_add_of_le (show i - limit ≤ j by omega)
      rw [hm, ← List.drop_drop]
      exact List.drop_suffix m _
    have hle := length_le_length_rtakeWhile hrun (commentsBetween_iff.1 hcomments)
    rw [← hblock, List.length_drop, hlength] at hle
    omega

theorem mem_commentBlockAbove_iff {lines : Array Line} {i : Nat} (hi : i ≤ lines.toList.length)
    {limit : Nat} {line : Line} :
    line ∈ commentBlockAbove lines i limit ↔
      ∃ j < i, i - j ≤ limit ∧ CommentsBetween lines.toList j i ∧ lines.toList[j]? = some line := by
  obtain ⟨first, ⟨⟨hfirst, hlimit, hcomments⟩, hleast⟩, hblock⟩ := exists_isRunStart hi limit
  rw [hblock]
  constructor
  · intro hline
    obtain ⟨k, hk⟩ := List.getElem?_of_mem hline
    rw [List.getElem?_drop, List.getElem?_take] at hk
    split at hk
    · rename_i hlt
      exact ⟨first + k, hlt, by omega, hcomments.mono (Nat.le_add_right first k), hk⟩
    · cases hk
  · rintro ⟨j, hji, hjlimit, hjcomments, hj⟩
    have hle : first ≤ j := hleast ⟨hji.le, hjlimit, hjcomments⟩
    refine List.mem_of_getElem? (i := j - first) ?_
    rw [List.getElem?_drop, Nat.add_sub_cancel' hle, List.getElem?_take, if_pos hji]
    exact hj

end ContractAudit
