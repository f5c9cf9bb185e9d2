import ContractAudit.Proofs.Source.CommentScan
import ContractAudit.Proofs.Source.Scopes
import Mathlib.Data.List.TakeWhile

/-!
# Block comments that are closed on their line

A comment that is closed on its line is taken out of the code wherever it stands, and one space is
left for it. Whether the braces of the line count, however, is first asked of another test: a line
that starts with the mark of a comment is a comment line as a whole.

* **Behind code** a closed comment counts as a space. The test looks at the start of the line, which
  is the code's.
* **In front of code** it hides all braces that follow. The line starts with `/*`, and no brace of a
  comment line counts, although the code that is left of it has them. The scope that such a brace
  opens or closes is then missed.

Main results:

* `scanLine_closedComment_append`: a closed comment is read as one space.
* `braces_append_closedComment_append`: behind code it does not change the braces of a line.
* `braces_closedComment_append`: in front of code it hides them.
-/

namespace ContractAudit

open Text

/-- The block comment with a text in it. -/
def closedComment (body : List Char) : List Char :=
  "/*".toList ++ body ++ "*/".toList

/-- No comment starts in the text. -/
structure WithoutComments (text : List Char) : Prop where
  slashes : ¬"//".toList <:+: text
  block : ¬"/*".toList <:+: text

/-! ## Reading a closed comment -/

/-- A block comment is over at its first closing mark. -/
theorem scanFrom_blockComment_append {body : List Char} (hbody : ¬"*/".toList <:+: body)
    (t : List Char) : scanFrom .blockComment (body ++ "*/".toList ++ t) = scanLine t := by
  induction body with
  | nil => rfl
  | cons c body ih =>
    have hmark : ¬"*/".toList <+: c :: (body ++ "*/".toList ++ t) := by
      rintro ⟨tail, htail⟩
      obtain ⟨rfl, hrest⟩ := List.cons.inj htail
      cases body with
      | nil => exact absurd (List.cons.inj hrest).1 (by decide)
      | cons d body =>
        obtain rfl := (List.cons.inj hrest).1
        exact hbody (List.prefix_append _ body).isInfix
    rw [List.cons_append, List.cons_append, scanFrom_blockComment_cons hmark,
      ih fun hrest => hbody (List.infix_cons hrest)]

theorem scanLine_closedComment_append {body : List Char} (hbody : ¬"*/".toList <:+: body)
    (t : List Char) : scanLine (closedComment body ++ t) = (scanLine t).push ' ' := by
  have hopened : scanLine (closedComment body ++ t) =
      (scanFrom .blockComment (body ++ "*/".toList ++ t)).push ' ' := by
    rw [closedComment, List.append_assoc, List.append_assoc, ← List.append_assoc body]
    rfl
  rw [hopened, scanFrom_blockComment_append hbody]

theorem WithoutComments.tail {c : Char} {text : List Char} (h : WithoutComments (c :: text)) :
    WithoutComments text :=
  ⟨fun hslashes => h.slashes (List.infix_cons hslashes),
    fun hblock => h.block (List.infix_cons hblock)⟩

/-- Two characters that do not stand in a text do not start it when something follows, unless the
text is the first of them. -/
theorem not_isPrefix_append {c d : Char} {u : List Char} (h : ¬[c, d] <:+: u) (hu : u ≠ [])
    (hend : u.getLast? ≠ some c) (t : List Char) : ¬[c, d] <+: u ++ t := by
  rintro ⟨tail, htail⟩
  match u with
  | [] => exact hu rfl
  | [e] =>
    obtain ⟨rfl, -⟩ := List.cons.inj htail
    exact hend rfl
  | e :: f :: u =>
    obtain ⟨rfl, hrest⟩ := List.cons.inj htail
    obtain ⟨rfl, -⟩ := List.cons.inj hrest
    exact h (List.prefix_append [_, _] u).isInfix

theorem getLast?_ne_of_cons {c d : Char} {u : List Char} (h : (c :: u).getLast? ≠ some d) :
    u.getLast? ≠ some d := by
  cases u with
  | nil => simp
  | cons e u => rwa [List.getLast?_cons_cons] at h

/-- Code is copied up to its end, unless its last slash is one half of a mark. -/
theorem scanLine_append {u : List Char} (hu : WithoutComments u) (hend : u.getLast? ≠ some '/')
    (t : List Char) :
    scanLine (u ++ t) = ⟨u ++ (scanLine t).code, (scanLine t).lineComment⟩ := by
  induction u with
  | nil => rfl
  | cons c u ih =>
    have hslashes : ¬"//".toList <+: c :: (u ++ t) :=
      not_isPrefix_append hu.slashes (List.cons_ne_nil c u) hend t
    have hblock : ¬"/*".toList <+: c :: (u ++ t) :=
      not_isPrefix_append hu.block (List.cons_ne_nil c u) hend t
    rw [List.cons_append, scanLine_cons hslashes hblock, ih hu.tail (getLast?_ne_of_cons hend)]
    rfl

theorem scanLine_of_withoutComments {text : List Char} (h : WithoutComments text) :
    scanLine text = ⟨text, []⟩ := by
  induction text with
  | nil => rfl
  | cons c text ih =>
    rw [scanLine_cons (fun hslashes => h.slashes hslashes.isInfix)
      (fun hblock => h.block hblock.isInfix), ih h.tail]
    rfl

/-- The two passes leave the code that is read, if no line comment follows it. -/
theorem stripComments_eq_of_scanLine {text code : List Char} (hn : '\n' ∉ text)
    (h : scanLine text = ⟨code, []⟩) : stripComments text = code := by
  have hstripped := strippedAs_scanLine hn
  rw [h] at hstripped
  exact hstripped.eq_code (by simp)

/-! ## Comment lines -/

theorem WithoutComments.isCommentLine_iff {text : List Char} (h : WithoutComments text) :
    isCommentLine text = true ↔ "*".toList <+: text.dropWhile isBlank := by
  have hstart : text.dropWhile isBlank <:+: text := (List.dropWhile_suffix isBlank).isInfix
  simp only [isCommentLine, Bool.or_eq_true, startsWith_iff]
  constructor
  · rintro ((hslashes | hblock) | hstar)
    · exact absurd (hslashes.isInfix.trans hstart) h.slashes
    · exact absurd (hblock.isInfix.trans hstart) h.block
    · exact hstar
  · exact Or.inr

/-- What follows the code that a line starts with does not make it a comment line. -/
theorem isCommentLine_append_iff {u : List Char} (hu : WithoutComments u)
    (hend : u.getLast? ≠ some '/') (hcode : isAllBlank u = false) (t : List Char) :
    isCommentLine (u ++ t) = true ↔ "*".toList <+: u.dropWhile isBlank := by
  have hne : u.dropWhile isBlank ≠ [] := by
    intro hnil
    have hblank : isAllBlank u = true := List.all_eq_true.2 (List.dropWhile_eq_nil_iff.1 hnil)
    rw [hblank] at hcode
    cases hcode
  have hdrop : (u ++ t).dropWhile isBlank = u.dropWhile isBlank ++ t := by
    rw [List.dropWhile_append, if_neg (by simpa using hne)]
  obtain ⟨blanks, hblanks⟩ := List.dropWhile_suffix (l := u) isBlank
  have hpart : u.dropWhile isBlank <:+: u := ⟨blanks, [], by rw [List.append_nil, hblanks]⟩
  have hlast : (u.dropWhile isBlank).getLast? ≠ some '/' := by
    rwa [← hblanks, List.getLast?_append_of_ne_nil _ hne] at hend
  -- the marks of comments are two characters long, so they would have to stand in the code
  have hslashes : ¬"//".toList <+: u.dropWhile isBlank ++ t :=
    not_isPrefix_append (fun h => hu.slashes (h.trans hpart)) hne hlast t
  have hblock : ¬"/*".toList <+: u.dropWhile isBlank ++ t :=
    not_isPrefix_append (fun h => hu.block (h.trans hpart)) hne hlast t
  have hstar : "*".toList <+: u.dropWhile isBlank ++ t ↔ "*".toList <+: u.dropWhile isBlank := by
    obtain ⟨d, rest, hrest⟩ := List.exists_cons_of_ne_nil hne
    rw [hrest]
    exact ⟨fun h => (List.cons_prefix_cons.1 h).1 ▸ List.prefix_append _ rest,
      fun h => h.trans (List.prefix_append _ t)⟩
  simp only [isCommentLine, Bool.or_eq_true, startsWith_iff, hdrop, hslashes, hblock, false_or,
    hstar]

/-! ## Braces -/

theorem newline_not_mem_closedComment {body : List Char} (h : '\n' ∉ body) :
    '\n' ∉ closedComment body := by
  simp [closedComment, h]

/-- **Behind code** a closed comment counts as a space. -/
theorem braces_append_closedComment_append {u body t : List Char} (hn : '\n' ∉ u ++ body ++ t)
    (hu : WithoutComments u) (hend : u.getLast? ≠ some '/') (hcode : isAllBlank u = false)
    (hbody : ¬"*/".toList <:+: body) (ht : WithoutComments t) :
    braces (u ++ (closedComment body ++ t)) = braces (u ++ ' ' :: t) := by
  simp only [List.mem_append, not_or] at hn
  obtain ⟨⟨hnu, hnbody⟩, hnt⟩ := hn
  have hspace : scanLine (' ' :: t) = ⟨' ' :: t, []⟩ := by
    rw [scanLine_cons (by rintro ⟨_, h⟩; cases h) (by rintro ⟨_, h⟩; cases h),
      scanLine_of_withoutComments ht]
    rfl
  have hcomment : scanLine (closedComment body ++ t) = ⟨' ' :: t, []⟩ := by
    rw [scanLine_closedComment_append hbody, scanLine_of_withoutComments ht]
    rfl
  have hstrip : stripComments (u ++ (closedComment body ++ t)) = u ++ ' ' :: t := by
    refine stripComments_eq_of_scanLine ?_ (by rw [scanLine_append hu hend, hcomment])
    simp [hnu, newline_not_mem_closedComment hnbody, hnt]
  have hstrip' : stripComments (u ++ ' ' :: t) = u ++ ' ' :: t := by
    refine stripComments_eq_of_scanLine ?_ (by rw [scanLine_append hu hend, hspace])
    simp [hnu, hnt]
  have hline : isCommentLine (u ++ (closedComment body ++ t)) = isCommentLine (u ++ ' ' :: t) := by
    rw [Bool.eq_iff_iff, isCommentLine_append_iff hu hend hcode,
      isCommentLine_append_iff hu hend hcode]
  rw [braces, braces, hline, hstrip, hstrip']

theorem isCommentLine_closedComment_append (body t : List Char) :
    isCommentLine (closedComment body ++ t) = true := by
  simp only [isCommentLine, Bool.or_eq_true, startsWith_iff]
  exact Or.inl (Or.inr (List.prefix_append _ (body ++ "*/".toList ++ t)))

theorem braces_of_isCommentLine {text : List Char} (h : isCommentLine text = true) :
    braces text = ⟨0, 0⟩ := by
  rw [braces, if_pos h]

/-- A line without comments has no braces that count exactly if it has none at all or is written
like the inside of a block comment. -/
theorem WithoutComments.braces_eq_zero_iff {text : List Char} (h : WithoutComments text) :
    braces text = ⟨0, 0⟩ ↔
      "*".toList <+: text.dropWhile isBlank ∨ '\x7b' ∉ text ∧ '\x7d' ∉ text := by
  rw [braces_eq_count, lineCode, stripComments_eq_self h.slashes h.block, ← h.isCommentLine_iff]
  split
  · rename_i hline
    simp [hline]
  · rename_i hline
    simp [hline, List.count_eq_zero]

/-- **In front of code** a closed comment hides every brace of the line. So the braces are those of
the line without the comment exactly if this has none that count: none at all, or all of them behind
a star with which the line starts. The code that is left has all the braces nevertheless. -/
theorem braces_closedComment_append {body t : List Char} (ht : '\n' ∉ t)
    (hplain : WithoutComments t) (hbody : ¬"*/".toList <:+: body) :
    braces (closedComment body ++ t) = ⟨0, 0⟩ ∧
    (braces (closedComment body ++ t) = braces t ↔
      "*".toList <+: t.dropWhile isBlank ∨ '\x7b' ∉ t ∧ '\x7d' ∉ t) ∧
    ('\n' ∉ body → stripComments (closedComment body ++ t) = ' ' :: t) := by
  have hzero := braces_of_isCommentLine (isCommentLine_closedComment_append body t)
  refine ⟨hzero, ?_, fun hn => ?_⟩
  · rw [hzero, eq_comm, hplain.braces_eq_zero_iff]
  · refine stripComments_eq_of_scanLine ?_ ?_
    · simp [newline_not_mem_closedComment hn, ht]
    · rw [scanLine_closedComment_append hbody, scanLine_of_withoutComments hplain]
      rfl

/-- The header of a body behind a comment that holds another opening mark. -/
theorem braces_closedComment_append_header :
    let body := " a /* b * ".toList
    let t := " f() \x7b".toList
    '\n' ∉ t ∧ WithoutComments t ∧ ¬"*/".toList <:+: body ∧
      braces (closedComment body ++ t) = ⟨0, 0⟩ ∧ braces (closedComment body ++ t) ≠ braces t ∧
      '\n' ∉ body ∧ stripComments (closedComment body ++ t) = ' ' :: t := by
  intro body t
  have ht : '\n' ∉ t := by decide
  have hplain : WithoutComments t := ⟨by decide +kernel, by decide +kernel⟩
  have hbody : ¬"*/".toList <:+: body := by decide +kernel
  have hn : '\n' ∉ body := by decide
  obtain ⟨hzero, hiff, hstrip⟩ := braces_closedComment_append ht hplain hbody
  exact ⟨ht, hplain, hbody, hzero, fun h => absurd (hiff.1 h) (by decide +kernel), hn, hstrip hn⟩

/-- A comment in front of the brace that closes a block: the brace does not count, and the rest of
the block goes on past it. -/
theorem braces_hidden_by_comment :
    let body := " end ".toList
    let t := " \x7d".toList
    let lines := (Source.ofText "f();\n/* end */ \x7d\ng();".toList).lines
    WithoutComments t ∧ ¬"*/".toList <:+: body ∧ ¬"*".toList <+: t.dropWhile isBlank ∧
      braces t = ⟨0, 1⟩ ∧ braces (closedComment body ++ t) = ⟨0, 0⟩ ∧
      restOfBlock lines 0 200 = [⟨2, closedComment body ++ t⟩, ⟨3, "g();".toList⟩] := by
  intro body t lines
  exact ⟨⟨by decide +kernel, by decide +kernel⟩, by decide +kernel⟩

end ContractAudit
