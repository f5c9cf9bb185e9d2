import ContractAudit.Source.Window
import Mathlib.Data.List.DropRight

/-!
# Limits of scopes

Every scope is capped: no more lines than a limit are looked at. Where a scope ends is then found
among the lines that are left, so it could in principle depend on the limit. It does not. A scan
that goes through the lines one by one, and stops by what it has passed so far, comes to the same
place whether the lines after it are cut off or not (`throughClosing_take`, `throughBody_take`). A
capped scope is therefore the scope without a cap, cut off at the limit.

* **Forward**, for the rest of a block and for a body, the limit leaves the first lines.
* **Backward**, for the comment block above a line, it leaves the last ones: going up, these are the
  first. Near the top of a source the lines run out before the limit does, so this needs the line
  to be one of the source.

Main result: `scopes_onlyTruncated`.
-/

namespace ContractAudit

/-! ## Scans of fewer lines -/

/-- Whether the block is closed by a line depends on this line and those before it. -/
theorem throughClosing_take (depth : Int) (limit : Nat) (lines : List Line) :
    throughClosing depth (lines.take limit) = (throughClosing depth lines).take limit := by
  induction lines generalizing depth limit with
  | nil => simp only [List.take_nil, throughClosing]
  | cons line rest ih =>
    cases limit with
    | zero => simp only [List.take_zero, throughClosing]
    | succ limit =>
      simp only [List.take_succ_cons, throughClosing]
      split
      · rw [List.take_succ_cons, List.take_nil]
      · rw [List.take_succ_cons, ih]

/-- A header keeps its place as the first line, so whether it has a line after it within the limit
does not matter for where the body ends. -/
theorem throughBody_take (depth : Int) (opened isHeader : Bool) (limit : Nat) (lines : List Line) :
    throughBody depth opened isHeader (lines.take limit) =
      (throughBody depth opened isHeader lines).take limit := by
  induction lines generalizing depth opened isHeader limit with
  | nil => simp only [List.take_nil, throughBody]
  | cons line rest ih =>
    cases limit with
    | zero => simp only [List.take_zero, throughBody]
    | succ limit =>
      simp only [List.take_succ_cons, throughBody]
      -- the line ends the body or not, by the depth once a brace has opened and else by itself
      split <;> split
      · rw [List.take_succ_cons, List.take_nil]
      · rw [List.take_succ_cons, ih]
      · rw [List.take_succ_cons, List.take_nil]
      · rw [List.take_succ_cons, ih]

/-! ## Scopes without a cap -/

theorem restOfBlock_eq_take (lines : Array Line) (index limit : Nat) :
    restOfBlock lines index limit =
      (throughClosing 0 (lines.toList.drop (index + 1))).take limit := by
  rw [restOfBlock, linesAfter_natCast, throughClosing_take]

theorem blockBody_eq_take (lines : Array Line) (index limit : Nat) :
    blockBody lines index limit =
      (throughBody 0 false true (lines.toList.drop index)).take limit := by
  rw [blockBody, linesFrom_natCast, throughBody_take]

theorem reverse_linesBefore {lines : Array Line} {index : Nat} (hindex : index ≤ lines.size)
    (count : Nat) :
    (linesBefore lines index count).reverse = (lines.toList.take index).reverse.take count := by
  have hlength : (lines.toList.take index).length = index := by
    rw [List.length_take, Array.length_toList]
    omega
  rw [linesBefore_natCast, List.take_reverse, hlength]

theorem reverse_commentBlockAbove {lines : Array Line} {index : Nat} (hindex : index ≤ lines.size)
    (limit : Nat) :
    (commentBlockAbove lines index limit).reverse =
      ((lines.toList.take index).reverse.takeWhile fun line =>
        isCommentLine line.text).take limit := by
  rw [commentBlockAbove, List.reverse_reverse, reverse_linesBefore hindex, List.take_takeWhile]

/-! ## Two limits -/

/-- The limit of a window only truncates it: `kept l` takes the lines that a limit of `l` leaves of
a window, and no window of the source goes beyond `size` lines. -/
structure OnlyTruncated (kept : Nat → List Line → List Line) (size : Nat)
    (window : Nat → List Line) : Prop where
  /-- The window under a limit is what this limit leaves of the window under any larger one. -/
  eq_kept : ∀ l l', l ≤ l' → window l = kept l (window l')
  /-- A window has no more lines than its limit. -/
  length_le : ∀ l, (window l).length ≤ l
  /-- A limit of `size` is as good as none. -/
  eq_of_size_le : ∀ l, size ≤ l → window l = window size
  /-- A limit that the window without a limit keeps has no effect. -/
  eq_of_length_le : ∀ l, (window size).length ≤ l → window l = window size

/-- A window is only truncated by its limit if it is one list of lines, cut off at the limit. -/
theorem OnlyTruncated.of_take {window : Nat → List Line} {whole : List Line} {size : Nat}
    (hsize : whole.length ≤ size) (h : ∀ l, window l = whole.take l) :
    OnlyTruncated List.take size window where
  eq_kept l l' hl := by rw [h l, h l', List.take_take, Nat.min_eq_left hl]
  length_le l := by
    rw [h l]
    exact List.length_take_le l whole
  eq_of_size_le l hl := by
    rw [h l, h size, List.take_of_length_le hsize, List.take_of_length_le (hsize.trans hl)]
  eq_of_length_le l hl := by
    rw [h size, List.take_of_length_le hsize] at hl
    rw [h l, h size, List.take_of_length_le hsize, List.take_of_length_le hl]

/-- The last lines of a window are the first ones of the window read upwards. -/
theorem OnlyTruncated.of_reverse {window : Nat → List Line} {size : Nat}
    (h : OnlyTruncated List.take size fun l => (window l).reverse) :
    OnlyTruncated (fun l lines => lines.rtake l) size window where
  eq_kept l l' hl := by
    rw [List.rtake_eq_reverse_take_reverse, ← h.eq_kept l l' hl, List.reverse_reverse]
  length_le l := by
    rw [← List.length_reverse]
    exact h.length_le l
  eq_of_size_le l hl := List.reverse_injective (h.eq_of_size_le l hl)
  eq_of_length_le l hl := by
    rw [← List.length_reverse] at hl
    exact List.reverse_injective (h.eq_of_length_le l hl)

/-- **The cap of a scope only truncates it.** Of two limits the smaller one leaves the first lines
of the rest of a block and of a body, and the last lines of the comment block above a line. So no
scope has more lines than its limit, and one that ends before its limit is not changed by it. -/
theorem scopes_onlyTruncated {lines : Array Line} {index : Nat} (hindex : index ≤ lines.size) :
    OnlyTruncated List.take lines.size (fun l => restOfBlock lines index l) ∧
    OnlyTruncated List.take lines.size (fun l => blockBody lines index l) ∧
    OnlyTruncated (fun l block => block.rtake l) lines.size
      (fun l => commentBlockAbove lines index l) := by
  have hsize : lines.toList.length = lines.size := Array.length_toList
  refine ⟨.of_take ?_ (restOfBlock_eq_take lines index), .of_take ?_ (blockBody_eq_take lines index),
    .of_reverse (.of_take ?_ (reverse_commentBlockAbove hindex))⟩
  · have hblock := (throughClosing_isPrefix 0 (lines.toList.drop (index + 1))).length_le
    rw [List.length_drop] at hblock
    omega
  · have hbody := (throughBody_isPrefix 0 false true (lines.toList.drop index)).length_le
    rw [List.length_drop] at hbody
    omega
  · have hcomments := (List.takeWhile_prefix (fun line : Line => isCommentLine line.text)
      (l := (lines.toList.take index).reverse)).length_le
    rw [List.length_reverse, List.length_take] at hcomments
    omega

/-- At a function with two comment lines above it and three lines of body, a limit of one line. -/
theorem scopes_onlyTruncated_function :
    let lines := (Source.ofText
      "// a\n// b\nfunction f() \x7b\n  x = 1;\n  y = 2;\n\x7d\n".toList).lines
    2 ≤ lines.size ∧
    restOfBlock lines 2 1 = (restOfBlock lines 2 200).take 1 ∧
    (blockBody lines 2 2).length ≤ 2 ∧
    blockBody lines 2 4 = blockBody lines 2 7 ∧
    commentBlockAbove lines 2 1 = (commentBlockAbove lines 2 200).rtake 1 := by
  intro lines
  have hindex : 2 ≤ lines.size := by decide +kernel
  obtain ⟨hrest, hbody, hcomments⟩ := scopes_onlyTruncated hindex
  refine ⟨hindex, hrest.eq_kept 1 200 (by decide), hbody.length_le 2, ?_,
    hcomments.eq_kept 1 200 (by decide)⟩
  exact hbody.eq_of_length_le 4 (by decide +kernel)

end ContractAudit
