import ContractAudit.Source.Comment

/-!
# Windows

The lines around a place that a detector looks at: a fixed number of them, or those of a scope that
is found by counting braces line by line. Every scope is capped.

Places and counts may be any whole numbers. A range of lines follows the rules of `slice`: a
negative bound counts from the end, and bounds past the ends are moved to them.

Main statements: `linesAfter_natCast`, `linesFrom_natCast` and `linesBefore_natCast`, by which a
range at a natural place is a part of the list of lines; `blockBody_isPrefix`, by which a body is
some number of lines from its header on.
-/

namespace ContractAudit

open Text

/-- The most lines of a scope. -/
def scopeLimit : Nat := 200

/-! ## Ranges -/

/-- The place that a bound stands for among `size` items. -/
def bound (size : Nat) (i : Int) : Nat :=
  if i < 0 then (size + i).toNat else min i.toNat size

/-- The items from the bound `low` up to before the bound `high`. -/
def slice {α : Type} (items : Array α) (low high : Int) : List α :=
  (items.extract (bound items.size low) (bound items.size high)).toList

/-- The `count` lines after the one at `index`. -/
def linesAfter (lines : Array Line) (index count : Int) : List Line :=
  slice lines (index + 1) (index + 1 + count)

/-- The `count` lines from the one at `index` on. -/
def linesFrom (lines : Array Line) (index count : Int) : List Line :=
  slice lines index (index + count)

/-- The `count` lines before the one at `index`. -/
def linesBefore (lines : Array Line) (index count : Int) : List Line :=
  slice lines (max 0 (index - count)) index

theorem bound_natCast (size n : Nat) : bound size n = min n size := by
  rw [bound, if_neg (Int.not_lt.2 (Int.natCast_nonneg n)), Int.toNat_natCast]

theorem slice_natCast {α : Type} (items : Array α) (low high : Nat) :
    slice items low high = (items.toList.take high).drop low := by
  rw [slice, bound_natCast, bound_natCast, Array.toList_extract, List.extract_eq_take_drop,
    ← Array.length_toList, List.drop_take]
  apply List.ext_getElem?
  intro i
  simp only [List.getElem?_take, List.getElem?_drop]
  grind

theorem linesFrom_natCast (lines : Array Line) (index count : Nat) :
    linesFrom lines index count = (lines.toList.drop index).take count := by
  rw [linesFrom, ← Int.natCast_add, slice_natCast, List.drop_take, Nat.add_sub_cancel_left]

theorem linesAfter_natCast (lines : Array Line) (index count : Nat) :
    linesAfter lines index count = (lines.toList.drop (index + 1)).take count :=
  linesFrom_natCast lines (index + 1) count

theorem linesBefore_natCast (lines : Array Line) (index count : Nat) :
    linesBefore lines index count = (lines.toList.take index).drop (index - count) := by
  have h : max 0 ((index : Int) - count) = (index - count : Nat) := by omega
  rw [linesBefore, h, slice_natCast]

/-! ## Scopes -/

/-- The lines up to the first one after which the depth is below zero. -/
def throughClosing (depth : Int) : List Line → List Line
  | [] => []
  | line :: rest =>
    let depth := depth + (braces line.text).net
    if depth < 0 then [line] else line :: throughClosing depth rest

/-- Nothing is left out before the line that closes the block. -/
theorem throughClosing_isPrefix (depth : Int) (lines : List Line) :
    throughClosing depth lines <+: lines := by
  induction lines generalizing depth with
  | nil => exact List.prefix_refl _
  | cons line rest ih =>
    simp only [throughClosing]
    split
    · exact List.cons_prefix_cons.2 ⟨rfl, List.nil_prefix⟩
    · exact List.cons_prefix_cons.2 ⟨rfl, ih _⟩

/-- The lines after the one at `index` up to the one that closes the enclosing block. -/
def restOfBlock (lines : Array Line) (index limit : Int) : List Line :=
  throughClosing 0 (linesAfter lines index limit)

/-- Whether the code of the line ends a statement. -/
def endsStatement (text : List Char) : Bool :=
  (trimEnd (stripComments text)).getLast? == some ';'

/-- The lines of a body from its header on. Once a brace has `opened`, they run to the line after
which the depth is not above zero; until then, to the end of the header's statement or to the line
after the header. -/
def throughBody (depth : Int) (opened isHeader : Bool) : List Line → List Line
  | [] => []
  | line :: rest =>
    let b := braces line.text
    let depth := depth + b.net
    let opened := opened || decide (0 < b.opens)
    let ends := if opened then decide (depth ≤ 0) else !isHeader || endsStatement line.text
    if ends then [line] else line :: throughBody depth opened false rest

/-- The lines from a header at `index` through the one that closes the block it opens. A header
without braces covers its own statement: the header line if it ends in a semicolon, else the line
after it too. -/
def blockBody (lines : Array Line) (index limit : Int) : List Line :=
  throughBody 0 false true (linesFrom lines index limit)

/-- A body leaves no line out between its header and its last line. -/
theorem throughBody_isPrefix (depth : Int) (opened isHeader : Bool) (lines : List Line) :
    throughBody depth opened isHeader lines <+: lines := by
  induction lines generalizing depth opened isHeader with
  | nil => exact List.prefix_refl _
  | cons line rest ih =>
    simp only [throughBody]
    -- the line ends the body or not, by the depth once a brace has opened and else by itself
    split <;> split
    · exact List.cons_prefix_cons.2 ⟨rfl, List.nil_prefix⟩
    · exact List.cons_prefix_cons.2 ⟨rfl, ih _ _ _⟩
    · exact List.cons_prefix_cons.2 ⟨rfl, List.nil_prefix⟩
    · exact List.cons_prefix_cons.2 ⟨rfl, ih _ _ _⟩

theorem linesFrom_isPrefix (lines : Array Line) (index count : Nat) :
    linesFrom lines index count <+: lines.toList.drop index := by
  rw [linesFrom_natCast]
  exact List.take_prefix _ _

theorem blockBody_isPrefix (lines : Array Line) (index limit : Nat) :
    blockBody lines index limit <+: lines.toList.drop index :=
  (throughBody_isPrefix _ _ _ _).trans (linesFrom_isPrefix lines index limit)

/-- The run of comment lines right above the line at `index`. -/
def commentBlockAbove (lines : Array Line) (index limit : Int) : List Line :=
  ((linesBefore lines index limit).reverse.takeWhile fun line => isCommentLine line.text).reverse

end ContractAudit
