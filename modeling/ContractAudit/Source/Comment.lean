import ContractAudit.Source.Line
import ContractAudit.Text.Blank
import ContractAudit.Text.Occurrence

/-!
# Comments and braces of a line

A line is read on its own: `//` starts a comment up to the end of the text, and a block comment from
`/*` runs to the next `*/` of the line, or to its end. Block comments become one space before the
line comment is cut, so a `//` inside one does not count. String literals are not recognised.

The text of a line holds no newline. For a text that does, a block comment does not run over a
newline, except that one at the very end of the text ends it.

Main statements: `beforeLineComment_cons` and `blankBlockComments_cons`, by which the two steps are
computed character by character; `stripComments_eq`, by which the code of a line is both steps
whether it has a slash or not; `stripComments_eq_self` and `mem_of_mem_stripComments`, by which a
line without comments is all code and the code of any line is part of it.
-/

namespace ContractAudit

open Text

/-! ## Line comments -/

/-- The text before the first `//`, after the characters in `done`, reversed. -/
def beforeLineCommentFrom (done : List Char) : List Char → List Char
  | [] => done.reverse
  | c :: rest =>
    if c = '/' ∧ rest.head? = some '/' then done.reverse else beforeLineCommentFrom (c :: done) rest

/-- The text before the first `//`. -/
def beforeLineComment (text : List Char) : List Char :=
  beforeLineCommentFrom [] text

theorem beforeLineCommentFrom_eq (done text : List Char) :
    beforeLineCommentFrom done text = done.reverse ++ beforeLineComment text := by
  induction text generalizing done with
  | nil => simp [beforeLineComment, beforeLineCommentFrom]
  | cons c rest ih =>
    rw [beforeLineComment, beforeLineCommentFrom, beforeLineCommentFrom]
    split
    · simp
    · rw [ih (c :: done), ih [c]]
      simp

@[simp] theorem beforeLineComment_nil : beforeLineComment [] = [] := rfl

theorem beforeLineComment_cons (c : Char) (rest : List Char) :
    beforeLineComment (c :: rest) =
      if c = '/' ∧ rest.head? = some '/' then [] else c :: beforeLineComment rest := by
  rw [beforeLineComment, beforeLineCommentFrom]
  split
  · rfl
  · rw [beforeLineCommentFrom_eq]
    rfl

/-! ## Block comments -/

/-- The length of a block comment of which `length` characters are read, if it ends. -/
def blockEndFrom? (length : Nat) : List Char → Option Nat
  | [] => some length
  | c :: rest =>
    if c = '*' ∧ rest.head? = some '/' then some (length + 2)
    else if c = '\n' then (if rest.isEmpty then some length else none)
    else blockEndFrom? (length + 1) rest

/-- The length of the block comment that the text starts with, if it starts with one. -/
def blockCommentLength? (text : List Char) : Option Nat :=
  match after? "/*" text with
  | some rest => blockEndFrom? 2 rest
  | none => none

/-- The text with one space for each block comment, after what is in `done`, reversed; the next
`skipped` characters belong to a comment. -/
def blankBlockCommentsFrom (done : List Char) (skipped : Nat) : List Char → List Char
  | [] => done.reverse
  | c :: rest =>
    match skipped with
    | k + 1 => blankBlockCommentsFrom done k rest
    | 0 =>
      match blockCommentLength? (c :: rest) with
      | some n => blankBlockCommentsFrom (' ' :: done) (n - 1) rest
      | none => blankBlockCommentsFrom (c :: done) 0 rest

/-- The text with one space for each block comment. -/
def blankBlockComments (text : List Char) : List Char :=
  blankBlockCommentsFrom [] 0 text

theorem blankBlockCommentsFrom_eq (done : List Char) (skipped : Nat) (text : List Char) :
    blankBlockCommentsFrom done skipped text =
      done.reverse ++ blankBlockComments (text.drop skipped) := by
  induction text generalizing done skipped with
  | nil => simp [blankBlockComments, blankBlockCommentsFrom]
  | cons c rest ih =>
    cases skipped with
    | succ k => rw [blankBlockCommentsFrom, ih, List.drop_succ_cons]
    | zero =>
      rw [List.drop_zero, blankBlockComments, blankBlockCommentsFrom, blankBlockCommentsFrom]
      split
      · rw [ih, ih [' ']]
        simp
      · rw [ih, ih [c]]
        simp

@[simp] theorem blankBlockComments_nil : blankBlockComments [] = [] := rfl

theorem blankBlockComments_cons (c : Char) (rest : List Char) :
    blankBlockComments (c :: rest) = match blockCommentLength? (c :: rest) with
      | some n => ' ' :: blankBlockComments (rest.drop (n - 1))
      | none => c :: blankBlockComments rest := by
  rw [blankBlockComments, blankBlockCommentsFrom]
  split <;> rw [blankBlockCommentsFrom_eq] <;> rfl

/-- A character that opens no block comment is kept. -/
theorem blankBlockComments_cons_of_not_isPrefix {c : Char} {rest : List Char}
    (h : ¬ "/*".toList <+: c :: rest) :
    blankBlockComments (c :: rest) = c :: blankBlockComments rest := by
  have hlength : blockCommentLength? (c :: rest) = none := by
    rw [blockCommentLength?]
    split
    · rename_i after hafter
      exact absurd ⟨after, (after?_eq_some_iff.1 hafter).symm⟩ h
    · rfl
  rw [blankBlockComments_cons, hlength]

/-! ## The code of a line -/

/-- The code of a line: its text without comments, of which a text without a slash has none. -/
def stripComments (text : List Char) : List Char :=
  if '/' ∈ text then beforeLineComment (blankBlockComments text) else text

theorem beforeLineComment_eq_self {text : List Char} (h : ¬ "//".toList <:+: text) :
    beforeLineComment text = text := by
  induction text with
  | nil => rfl
  | cons c rest ih =>
    have hstart : ¬(c = '/' ∧ rest.head? = some '/') := by
      rintro ⟨rfl, hhead⟩
      obtain ⟨tail, rfl⟩ := List.head?_eq_some_iff.1 hhead
      exact h ⟨[], tail, rfl⟩
    rw [beforeLineComment_cons, if_neg hstart, ih fun hrest => h (List.infix_cons hrest)]

theorem blankBlockComments_eq_self {text : List Char} (h : ¬ "/*".toList <:+: text) :
    blankBlockComments text = text := by
  induction text with
  | nil => rfl
  | cons c rest ih =>
    rw [blankBlockComments_cons_of_not_isPrefix fun hstart => h hstart.isInfix,
      ih fun hrest => h (List.infix_cons hrest)]

/-- What holds a slash is no part of a text without one. -/
theorem not_isInfix_of_slash {text part : List Char} (h : '/' ∉ text) :
    ¬ '/' :: part <:+: text :=
  fun hpart => h (hpart.subset List.mem_cons_self)

theorem stripComments_eq (text : List Char) :
    stripComments text = beforeLineComment (blankBlockComments text) := by
  rw [stripComments]
  split
  · rfl
  · rename_i h
    rw [blankBlockComments_eq_self (not_isInfix_of_slash h),
      beforeLineComment_eq_self (not_isInfix_of_slash h)]

/-- A text in which no comment starts is code as a whole. -/
theorem stripComments_eq_self {text : List Char} (hline : ¬ "//".toList <:+: text)
    (hblock : ¬ "/*".toList <:+: text) : stripComments text = text := by
  rw [stripComments_eq, blankBlockComments_eq_self hblock, beforeLineComment_eq_self hline]

theorem beforeLineComment_isPrefix (text : List Char) : beforeLineComment text <+: text := by
  induction text with
  | nil => exact List.prefix_refl []
  | cons c rest ih =>
    rw [beforeLineComment_cons]
    split
    · exact List.nil_prefix
    · exact List.cons_prefix_cons.2 ⟨rfl, ih⟩

/-- Blanking block comments brings in spaces and nothing else. -/
theorem mem_of_mem_blankBlockComments {c : Char} (hc : c ≠ ' ') {text : List Char}
    (h : c ∈ blankBlockComments text) : c ∈ text := by
  match text with
  | [] => exact h
  | d :: rest =>
    rw [blankBlockComments_cons] at h
    split at h
    · -- the text goes on behind the comment
      rename_i n _
      have hbehind : c ∈ rest.drop (n - 1) :=
        mem_of_mem_blankBlockComments hc ((List.mem_cons.1 h).resolve_left hc)
      exact List.mem_cons_of_mem d (List.mem_of_mem_drop hbehind)
    · rcases List.mem_cons.1 h with rfl | h
      · exact List.mem_cons_self
      · exact List.mem_cons_of_mem d (mem_of_mem_blankBlockComments hc h)
termination_by text.length
decreasing_by
  · rw [List.length_drop, List.length_cons]
    omega
  · exact Nat.lt_succ_self _

/-- The code of a text has no characters of its own, but for spaces. -/
theorem mem_of_mem_stripComments {c : Char} (hc : c ≠ ' ') {text : List Char}
    (h : c ∈ stripComments text) : c ∈ text := by
  rw [stripComments_eq] at h
  exact mem_of_mem_blankBlockComments hc ((beforeLineComment_isPrefix _).subset h)

/-! ## Comment lines and braces -/

/-- Whether the line is a comment as a whole, by how it starts after white space: with `//`, `/*`,
or the `*` with which the inner lines of a block comment are written. -/
def isCommentLine (text : List Char) : Bool :=
  let start := text.dropWhile isBlank
  startsWith "//" start || startsWith "/*" start || startsWith "*" start

/-- How many braces open and close in a line. -/
structure Braces where
  opens : Nat
  closes : Nat
deriving DecidableEq, Repr

/-- By how much the braces change the depth. -/
def Braces.net (b : Braces) : Int := b.opens - b.closes

/-- The braces in the code of a line; a comment line has none. -/
def braces (text : List Char) : Braces :=
  if isCommentLine text then ⟨0, 0⟩
  else
    let code := stripComments text
    ⟨code.count '\x7b', code.count '\x7d'⟩

end ContractAudit
