import ContractAudit.Source.Comment

/-!
# Comments by one reading from left to right

The code of a line is found in two passes over its text: the block comments are blanked first, and
then the line is cut at the first `//`. A compiler reads a line once, from left to right, and at
each place knows whether it is inside of a comment. `scanLine` is this reading. It copies characters
up to the leftmost mark that opens a comment, puts a space for a block comment, and stops for good
at `//`.

* **Where they agree.** A mark inside of a block comment is blanked with it, so the second pass does
  not see it. A block comment that the first pass finds behind a `//` is blanked too, which does no
  harm: the `//` is still there, and the line is cut at it.
* **Where they do not.** In `//*` the second slash opens a block comment for the first pass. With
  the comment it blanks one of the two slashes, and the second pass finds no `//` any more. The
  first slash stays in the code, and so does everything behind the end of this block comment.

The reading is settled by four steps, one for each thing a line may start with: another mark or
none (`stripComments_slashes`, `stripComments_slashes_star`, `stripComments_slash_star`,
`stripComments_cons`).

Main result: `stripComments_eq_scanLine`.
-/

namespace ContractAudit

open Text

/-! ## Reading from left to right -/

/-- What the next character of a line belongs to. -/
inductive Within
  | code
  | blockComment

/-- A line as it was read: its code, and the line comment from its two slashes on, which is empty if
there is none. -/
structure ScannedLine where
  code : List Char
  lineComment : List Char
deriving DecidableEq, Repr

/-- The line with a character of code before it. -/
def ScannedLine.push (c : Char) (line : ScannedLine) : ScannedLine :=
  { line with code := c :: line.code }

@[simp] theorem ScannedLine.push_code (c : Char) (line : ScannedLine) :
    (line.push c).code = c :: line.code := rfl

@[simp] theorem ScannedLine.push_lineComment (c : Char) (line : ScannedLine) :
    (line.push c).lineComment = line.lineComment := rfl

/-- The rest of a line, read from left to right. -/
def scanFrom : Within → List Char → ScannedLine
  | _, [] => ⟨[], []⟩
  | .code, '/' :: '/' :: rest => ⟨[], '/' :: '/' :: rest⟩
  | .code, '/' :: '*' :: rest => (scanFrom .blockComment rest).push ' '
  | .code, c :: rest => (scanFrom .code rest).push c
  | .blockComment, '*' :: '/' :: rest => scanFrom .code rest
  | .blockComment, _ :: rest => scanFrom .blockComment rest

/-- A line read from left to right. -/
def scanLine (text : List Char) : ScannedLine :=
  scanFrom .code text

theorem scanLine_cons {c : Char} {rest : List Char} (hslashes : ¬"//".toList <+: c :: rest)
    (hblock : ¬"/*".toList <+: c :: rest) : scanLine (c :: rest) = (scanLine rest).push c := by
  refine scanFrom.eq_4 c rest ?_ ?_
  · rintro tail rfl rfl
    exact hslashes (List.prefix_append _ tail)
  · rintro tail rfl rfl
    exact hblock (List.prefix_append _ tail)

theorem scanFrom_blockComment_cons {c : Char} {rest : List Char}
    (h : ¬"*/".toList <+: c :: rest) :
    scanFrom .blockComment (c :: rest) = scanFrom .blockComment rest := by
  refine scanFrom.eq_6 c rest ?_
  rintro tail rfl rfl
  exact h (List.prefix_append _ tail)

/-- What stands in the line comment is no part of the code: the line that ends before it is read the
same. -/
theorem exists_before_lineComment (within : Within) (text : List Char) :
    ∃ before, text = before ++ (scanFrom within text).lineComment ∧
      scanFrom within before = ⟨(scanFrom within text).code, []⟩ := by
  fun_induction scanFrom within text with
  | case1 within => exact ⟨[], rfl, scanFrom.eq_1 within⟩
  | case2 rest => exact ⟨[], rfl, rfl⟩
  | case3 rest ih =>
    obtain ⟨before, hbefore, hscan⟩ := ih
    refine ⟨'/' :: '*' :: before, ?_, ?_⟩
    · rw [ScannedLine.push_lineComment, List.cons_append, List.cons_append, ← hbefore]
    · rw [scanFrom, hscan]
      rfl
  | case4 c rest hslashes hblock ih =>
    obtain ⟨before, hbefore, hscan⟩ := ih
    refine ⟨c :: before, ?_, ?_⟩
    · rw [ScannedLine.push_lineComment, List.cons_append, ← hbefore]
    · -- what is cut off does not end a mark that starts at `c`
      rw [scanFrom.eq_4 c before, hscan]
      · rfl
      · rintro tail hc rfl
        exact hslashes _ hc hbefore
      · rintro tail hc rfl
        exact hblock _ hc hbefore
  | case5 rest ih =>
    obtain ⟨before, hbefore, hscan⟩ := ih
    exact ⟨'*' :: '/' :: before, by rw [List.cons_append, List.cons_append, ← hbefore], hscan⟩
  | case6 c rest hends ih =>
    obtain ⟨before, hbefore, hscan⟩ := ih
    refine ⟨c :: before, by rw [List.cons_append, ← hbefore], ?_⟩
    rw [scanFrom.eq_6 c before, hscan]
    rintro tail hc rfl
    exact hends _ hc hbefore

/-! ## Steps of the two passes -/

/-- Blanking never puts a slash in front. -/
theorem head?_of_head?_blankBlockComments {text : List Char}
    (h : (blankBlockComments text).head? = some '/') : text.head? = some '/' := by
  cases text with
  | nil => exact h
  | cons c rest =>
    rw [blankBlockComments_cons] at h
    split at h
    · cases h
    · exact h

/-- A block comment of a line ends where the reading from left to right ends it. -/
theorem exists_blockEndFrom? {text : List Char} (hn : '\n' ∉ text) :
    ∃ k, (∀ length, blockEndFrom? length text = some (length + k)) ∧
      scanFrom .blockComment text = scanLine (text.drop k) := by
  induction text with
  | nil => exact ⟨0, fun length => rfl, rfl⟩
  | cons c rest ih =>
    rw [List.mem_cons, not_or] at hn
    by_cases hend : c = '*' ∧ rest.head? = some '/'
    · obtain ⟨rfl, hhead⟩ := hend
      obtain ⟨tail, rfl⟩ := List.head?_eq_some_iff.1 hhead
      exact ⟨2, fun length => rfl, rfl⟩
    · obtain ⟨k, hlength, hscan⟩ := ih hn.2
      refine ⟨k + 1, fun length => ?_, ?_⟩
      · rw [blockEndFrom?, if_neg hend, if_neg (Ne.symm hn.1), hlength]
        congr 1
        omega
      · have hmark : ¬"*/".toList <+: c :: rest := by
          rintro ⟨tail, htail⟩
          obtain ⟨rfl, rfl⟩ := List.cons.inj htail
          exact hend ⟨rfl, rfl⟩
        rw [scanFrom_blockComment_cons hmark, hscan, List.drop_succ_cons]

theorem stripComments_slashes {rest : List Char} (h : rest.head? ≠ some '*') :
    stripComments ('/' :: '/' :: rest) = [] := by
  have hfirst : ¬"/*".toList <+: '/' :: '/' :: rest := by
    rintro ⟨tail, htail⟩
    cases htail
  have hsecond : ¬"/*".toList <+: '/' :: rest := by
    rintro ⟨tail, htail⟩
    obtain ⟨-, rfl⟩ := List.cons.inj htail
    exact h rfl
  rw [stripComments_eq, blankBlockComments_cons_of_not_isPrefix hfirst,
    blankBlockComments_cons_of_not_isPrefix hsecond]
  rfl

theorem blankBlockComments_slash_star {rest : List Char} (hn : '\n' ∉ rest) :
    ∃ k, blankBlockComments ('/' :: '*' :: rest) = ' ' :: blankBlockComments (rest.drop k) ∧
      scanFrom .blockComment rest = scanLine (rest.drop k) := by
  obtain ⟨k, hlength, hscan⟩ := exists_blockEndFrom? hn
  have hcomment : blockCommentLength? ('/' :: '*' :: rest) = some (2 + k) := hlength 2
  have hdrop : ('*' :: rest).drop (2 + k - 1) = rest.drop k := by
    rw [show 2 + k - 1 = k + 1 by omega, List.drop_succ_cons]
  refine ⟨k, ?_, hscan⟩
  rw [blankBlockComments_cons, hcomment]
  simp only [hdrop]

theorem stripComments_slash_star {rest : List Char} (hn : '\n' ∉ rest) :
    ∃ k, stripComments ('/' :: '*' :: rest) = ' ' :: stripComments (rest.drop k) ∧
      scanFrom .blockComment rest = scanLine (rest.drop k) := by
  obtain ⟨k, hblank, hscan⟩ := blankBlockComments_slash_star hn
  refine ⟨k, ?_, hscan⟩
  rw [stripComments_eq, stripComments_eq, hblank, beforeLineComment_cons]
  exact if_neg fun h => absurd h.1 (by decide)

/-- The second slash is blanked with the block comment that it opens, so the first one stays. -/
theorem stripComments_slashes_star {rest : List Char} (hn : '\n' ∉ rest) :
    stripComments ('/' :: '/' :: '*' :: rest) = '/' :: stripComments ('/' :: '*' :: rest) := by
  obtain ⟨k, hblank, -⟩ := blankBlockComments_slash_star hn
  have hfirst : ¬"/*".toList <+: '/' :: '/' :: '*' :: rest := by
    rintro ⟨tail, htail⟩
    cases htail
  rw [stripComments_eq, stripComments_eq, blankBlockComments_cons_of_not_isPrefix hfirst, hblank,
    beforeLineComment_cons '/']
  exact if_neg fun h => absurd h.2 (by simp)

theorem stripComments_cons {c : Char} {rest : List Char} (hslashes : ¬"//".toList <+: c :: rest)
    (hblock : ¬"/*".toList <+: c :: rest) :
    stripComments (c :: rest) = c :: stripComments rest := by
  have hmark : ¬(c = '/' ∧ (blankBlockComments rest).head? = some '/') := by
    rintro ⟨rfl, hhead⟩
    obtain ⟨tail, rfl⟩ := List.head?_eq_some_iff.1 (head?_of_head?_blankBlockComments hhead)
    exact hslashes ⟨tail, rfl⟩
  rw [stripComments_eq, stripComments_eq, blankBlockComments_cons_of_not_isPrefix hblock,
    beforeLineComment_cons, if_neg hmark]

/-! ## The two readings -/

/-- What is left of a line after the two passes, compared with the line as it was read from left to
right: the same code, unless the line comment starts with `//*`. Then the first slash is left too,
and what the two passes leave of the rest. -/
structure StrippedAs (left : List Char) (line : ScannedLine) : Prop where
  eq_code : ¬"//*".toList <+: line.lineComment → left = line.code
  eq_append : ∀ rest, line.lineComment = "//*".toList ++ rest →
    left = line.code ++ '/' :: stripComments ("/*".toList ++ rest)

theorem StrippedAs.push {left : List Char} {line : ScannedLine} (h : StrippedAs left line)
    (c : Char) : StrippedAs (c :: left) (line.push c) where
  eq_code hmark := congrArg (c :: ·) (h.eq_code hmark)
  eq_append rest hrest := congrArg (c :: ·) (h.eq_append rest hrest)

theorem strippedAs_scanLine {text : List Char} (hn : '\n' ∉ text) :
    StrippedAs (stripComments text) (scanLine text) := by
  -- a block comment is passed as a whole, so the induction is on the length
  induction hlength : text.length using Nat.strongRecOn generalizing text with
  | _ n ih =>
    cases text with
    | nil => exact ⟨fun _ => rfl, fun rest hrest => by cases hrest⟩
    | cons c rest =>
      rw [List.mem_cons, not_or] at hn
      rw [List.length_cons] at hlength
      by_cases hslashes : "//".toList <+: c :: rest
      · -- the reading stops here
        obtain ⟨tail, htail⟩ := hslashes
        obtain ⟨rfl, rfl⟩ := List.cons.inj htail
        refine ⟨fun hmark => ?_, fun tail' htail' => ?_⟩
        · refine stripComments_slashes fun hhead => hmark ?_
          obtain ⟨tail', rfl⟩ := List.head?_eq_some_iff.1 hhead
          exact List.prefix_append _ tail'
        · obtain rfl : tail = '*' :: tail' := (List.cons.inj (List.cons.inj htail').2).2
          exact stripComments_slashes_star fun hmem => hn.2 (by simp [hmem])
      · by_cases hblock : "/*".toList <+: c :: rest
        · obtain ⟨tail, htail⟩ := hblock
          obtain ⟨rfl, rfl⟩ := List.cons.inj htail
          have hn' : '\n' ∉ tail := fun hmem => hn.2 (List.mem_cons_of_mem _ hmem)
          obtain ⟨k, hstrip, hscan⟩ := stripComments_slash_star hn'
          have hrest := ih (tail.drop k).length (by simp at hlength ⊢; omega)
            (fun hmem => hn' (List.mem_of_mem_drop hmem)) rfl
          show StrippedAs (stripComments ('/' :: '*' :: tail))
            ((scanFrom .blockComment tail).push ' ')
          rw [hstrip, hscan]
          exact hrest.push ' '
        · rw [stripComments_cons hslashes hblock, scanLine_cons hslashes hblock]
          exact (ih rest.length (by omega) hn.2 rfl).push c

/-- **Comments.** What the two passes leave of a line is its code as read from left to right, to
which the line comment adds nothing, unless this comment starts with `//*`. If it does, they also
leave the first slash and whatever follows the block comment that they take to start at the second
one. -/
theorem stripComments_eq_scanLine {text : List Char} (hn : '\n' ∉ text) :
    (¬"//*".toList <+: (scanLine text).lineComment →
      stripComments text = (scanLine text).code ∧
      ∃ before, text = before ++ (scanLine text).lineComment ∧
        stripComments before = (scanLine text).code) ∧
    (∀ rest, (scanLine text).lineComment = "//*".toList ++ rest →
      stripComments text = (scanLine text).code ++ '/' :: stripComments ("/*".toList ++ rest)) := by
  obtain ⟨heq, happend⟩ := strippedAs_scanLine hn
  refine ⟨fun hmark => ⟨heq hmark, ?_⟩, happend⟩
  obtain ⟨before, hbefore, hscan⟩ := exists_before_lineComment .code text
  have hscan' : scanLine before = ⟨(scanLine text).code, []⟩ := hscan
  have hn' : '\n' ∉ before := fun hmem => hn (by
    rw [hbefore]
    exact List.mem_append_left _ hmem)
  refine ⟨before, hbefore, ?_⟩
  rw [(strippedAs_scanLine hn').eq_code (by simp [hscan']), hscan']

/-- A line with a block comment that holds the mark of a line comment and a line comment that holds
the mark of a block comment, and a line on which the two marks overlap. -/
theorem stripComments_eq_scanLine_marks :
    let line := "a /* // */ b // c /* d".toList
    let overlapping := "a //* b */ c".toList
    '\n' ∉ line ∧ ¬"//*".toList <+: (scanLine line).lineComment ∧
      stripComments line = "a   b ".toList ∧
    '\n' ∉ overlapping ∧ (scanLine overlapping).lineComment = "//*".toList ++ " b */ c".toList ∧
      stripComments overlapping = "a /  c".toList := by
  intro line overlapping
  have hline : '\n' ∉ line := by decide
  have hmark : ¬"//*".toList <+: (scanLine line).lineComment := by decide
  have hoverlapping : '\n' ∉ overlapping := by decide
  have hrest : (scanLine overlapping).lineComment = "//*".toList ++ " b */ c".toList := by decide
  exact ⟨hline, hmark, ((stripComments_eq_scanLine hline).1 hmark).1, hoverlapping, hrest,
    (stripComments_eq_scanLine hoverlapping).2 _ hrest⟩

/-- A brace in a line comment counts when the comment starts like this. -/
theorem stripComments_past_slashes :
    let line := "x; //* a */ \x7d".toList
    scanLine line = ⟨"x; ".toList, "//* a */ \x7d".toList⟩ ∧
      stripComments line = "x; /  \x7d".toList ∧ braces line = ⟨0, 1⟩ := by
  decide

end ContractAudit
