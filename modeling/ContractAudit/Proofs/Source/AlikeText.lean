import ContractAudit.Proofs.Text.TrailingBlanks
import ContractAudit.Source.Comment

/-!
# Lines that differ in white space at their ends

The text of a line is read the same when white space is added at its end: the same code is left
after the comments are taken out, up to white space at the end of it, and the same braces are
counted.

A comment that is not closed swallows the added white space, so the code of the longer line may be
the code of the shorter one as it stands, although the lines differ. This holds of a line and not of
any text: a newline in the added white space may end a block comment that ran to the end before.

Main results:

* `exists_stripComments_append`: the code of a line keeps its end, but for white space.
* `AlikeText.code`, `AlikeText.braces`: what is read from the code.
-/

namespace ContractAudit

open Text

/-! ## Line comments -/

theorem exists_beforeLineComment_append (s : List Char) {w : List Char}
    (hw : isAllBlank w = true) :
    ∃ u, isAllBlank u = true ∧ beforeLineComment (s ++ w) = beforeLineComment s ++ u := by
  induction s with
  | nil => exact ⟨w, hw, beforeLineComment_eq_self (not_isInfix_of_slash (not_mem_of_isAllBlank hw rfl))⟩
  | cons c s ih =>
    -- a slash at the end of the text is not followed by one in the added white space
    have hhead : (s ++ w).head? = some '/' ↔ s.head? = some '/' := by
      cases s with
      | nil =>
        cases w with
        | nil => exact Iff.rfl
        | cons d w =>
          have hd : d ≠ '/' := ne_of_isBlank (isAllBlank_cons.1 hw).1 rfl
          simp [hd]
      | cons d s => exact Iff.rfl
    rw [List.cons_append, beforeLineComment_cons, beforeLineComment_cons]
    simp only [hhead]
    split
    · exact ⟨[], rfl, rfl⟩
    · obtain ⟨u, hu, h⟩ := ih
      exact ⟨u, hu, by rw [h, List.cons_append]⟩

/-! ## Block comments -/

/-- Without a closing mark and without a newline a block comment runs to the end. -/
theorem blockEndFrom?_of_isAllBlank {w : List Char} (hw : isAllBlank w = true) (hn : '\n' ∉ w)
    (length : Nat) : blockEndFrom? length w = some (length + w.length) := by
  induction w generalizing length with
  | nil => rfl
  | cons c w ih =>
    obtain ⟨hc, hw⟩ := isAllBlank_cons.1 hw
    have hstar : c ≠ '*' := ne_of_isBlank hc rfl
    have hnewline : c ≠ '\n' := fun h => hn (h ▸ List.mem_cons_self)
    rw [blockEndFrom?, if_neg fun h => hstar h.1, if_neg hnewline,
      ih hw fun h => hn (List.mem_cons_of_mem c h), List.length_cons]
    congr 1
    omega

/-- A block comment ends where it did, or runs to the end of the longer text as it ran to the end of
the shorter one. -/
theorem blockEndFrom?_append {s w : List Char} (hs : '\n' ∉ s) (hw : isAllBlank w = true)
    (hn : '\n' ∉ w) (length : Nat) :
    ∃ n, blockEndFrom? length s = some n ∧ length ≤ n ∧
      (blockEndFrom? length (s ++ w) = some n ∧ n ≤ length + s.length ∨
        blockEndFrom? length (s ++ w) = some (n + w.length) ∧ n = length + s.length) := by
  induction s generalizing length with
  | nil =>
    have hend : blockEndFrom? length ([] ++ w) = some (length + w.length) :=
      blockEndFrom?_of_isAllBlank hw hn length
    exact ⟨length, rfl, Nat.le_refl _, Or.inr ⟨hend, rfl⟩⟩
  | cons c s ih =>
    have hc : c ≠ '\n' := fun h => hs (h ▸ List.mem_cons_self)
    rw [List.cons_append, blockEndFrom?, blockEndFrom?, if_neg hc, if_neg hc]
    by_cases hclose : c = '*' ∧ s.head? = some '/'
    · -- the comment is closed inside the shorter text
      obtain ⟨d, hd, rest, rfl⟩ : ∃ d, d = '/' ∧ ∃ rest, s = d :: rest := by
        cases s with
        | nil => cases hclose.2
        | cons d rest => exact ⟨d, Option.some.inj hclose.2, rest, rfl⟩
      rw [if_pos hclose, List.cons_append, if_pos ⟨hclose.1, congrArg some hd⟩]
      refine ⟨length + 2, rfl, Nat.le_add_right _ _, Or.inl ⟨rfl, ?_⟩⟩
      simp only [List.length_cons]
      omega
    · -- nor is it closed by what was added
      have hclose' : ¬(c = '*' ∧ (s ++ w).head? = some '/') := by
        rintro ⟨rfl, hhead⟩
        cases s with
        | nil => exact not_mem_of_isAllBlank hw (c := '/') rfl (List.mem_of_mem_head? hhead)
        | cons d s => exact hclose ⟨rfl, hhead⟩
      rw [if_neg hclose, if_neg hclose']
      obtain ⟨n, hn, hle, hend⟩ := ih (fun h => hs (List.mem_cons_of_mem c h)) (length + 1)
      refine ⟨n, hn, by omega, ?_⟩
      rw [List.length_cons]
      rcases hend with ⟨hend, hbound⟩ | ⟨hend, hbound⟩
      · exact Or.inl ⟨hend, by omega⟩
      · exact Or.inr ⟨hend, by omega⟩

theorem blockCommentLength?_append {s w : List Char} (hs : '\n' ∉ s) (hw : isAllBlank w = true)
    (hn : '\n' ∉ w) :
    blockCommentLength? s = none ∧ blockCommentLength? (s ++ w) = none ∨
      ∃ n, blockCommentLength? s = some n ∧ 1 ≤ n ∧
        (blockCommentLength? (s ++ w) = some n ∧ n ≤ s.length ∨
          blockCommentLength? (s ++ w) = some (n + w.length) ∧ n = s.length) := by
  rw [blockCommentLength?, blockCommentLength?, after?_append rfl s hw]
  cases h : after? "/*" s with
  | none => exact Or.inl ⟨rfl, rfl⟩
  | some rest =>
    have hsplit : s = ['/', '*'] ++ rest := after?_eq_some_iff.1 h
    subst hsplit
    obtain ⟨n, hlength, hle, hend⟩ :=
      blockEndFrom?_append (fun h => hs (List.mem_append_right _ h)) hw hn 2
    refine Or.inr ⟨n, hlength, by omega, ?_⟩
    have htotal : (['/', '*'] ++ rest).length = 2 + rest.length := List.length_append
    rw [htotal]
    exact hend

theorem exists_blankBlockComments_append {s w : List Char} (hs : '\n' ∉ s)
    (hw : isAllBlank w = true) (hn : '\n' ∉ w) :
    ∃ u, isAllBlank u = true ∧ blankBlockComments (s ++ w) = blankBlockComments s ++ u := by
  -- a comment is passed as a whole, so the induction is on the length
  induction hlength : s.length using Nat.strongRecOn generalizing s with
  | _ n ih =>
    cases s with
    | nil => exact ⟨w, hw, blankBlockComments_eq_self (not_isInfix_of_slash (not_mem_of_isAllBlank hw rfl))⟩
    | cons c s =>
      rw [List.length_cons] at hlength
      have hs' : '\n' ∉ s := fun h => hs (List.mem_cons_of_mem c h)
      have hcomment := blockCommentLength?_append hs hw hn
      rw [List.cons_append] at hcomment
      rw [List.cons_append, blankBlockComments_cons, blankBlockComments_cons]
      rcases hcomment with ⟨hnone, hnone'⟩ | ⟨m, hm, hpos, hend⟩
      · -- no comment starts here
        rw [hnone, hnone']
        obtain ⟨u, hu, h⟩ := ih s.length (by omega) hs' rfl
        exact ⟨u, hu, by simp only [h, List.cons_append]⟩
      · rw [hm]
        rcases hend with ⟨hm', hbound⟩ | ⟨hm', hbound⟩
        · -- the comment ends inside the shorter text
          rw [List.length_cons] at hbound
          have hdrop : (s ++ w).drop (m - 1) = s.drop (m - 1) ++ w :=
            List.drop_append_of_le_length (by omega)
          have hmem : '\n' ∉ s.drop (m - 1) := fun h => hs' (List.mem_of_mem_drop h)
          obtain ⟨u, hu, h⟩ :=
            ih (s.drop (m - 1)).length (by rw [List.length_drop]; omega) hmem rfl
          refine ⟨u, hu, ?_⟩
          simp only [hm', hdrop, h, List.cons_append]
        · -- the comment swallows the added white space
          rw [List.length_cons] at hbound
          have hdrop : (s ++ w).drop (m + w.length - 1) = [] :=
            List.drop_eq_nil_of_le (by rw [List.length_append]; omega)
          have hdrop' : s.drop (m - 1) = [] := List.drop_eq_nil_of_le (by omega)
          refine ⟨[], rfl, ?_⟩
          simp only [hm', hdrop, hdrop', List.append_nil]

/-! ## The code of a line -/

theorem exists_stripComments_append {s w : List Char} (hs : '\n' ∉ s) (hw : isAllBlank w = true)
    (hn : '\n' ∉ w) :
    ∃ u, isAllBlank u = true ∧ stripComments (s ++ w) = stripComments s ++ u := by
  obtain ⟨v, hv, hblock⟩ := exists_blankBlockComments_append hs hw hn
  rw [stripComments_eq, stripComments_eq, hblock]
  exact exists_beforeLineComment_append _ hv

theorem ignoresTrailing_isCommentLine : IgnoresTrailing isCommentLine :=
  (((ignoresTrailing_startsWith "//" rfl).combine (ignoresTrailing_startsWith "/*" rfl) or).combine
    (ignoresTrailing_startsWith "*" rfl) or).afterBlanks

/-- One line is the other with white space added at its end. -/
structure AlikeText (a b : List Char) : Prop where
  noNewline : '\n' ∉ b
  exists_append : ∃ w, isAllBlank w = true ∧ b = a ++ w

namespace AlikeText

variable {α : Type} {a b : List Char} {f : List Char → α}

theorem refl (h : '\n' ∉ a) : AlikeText a a := ⟨h, [], rfl, (List.append_nil a).symm⟩

theorem of_isAllBlank (hn : '\n' ∉ b) (h : isAllBlank b = true) : AlikeText [] b := ⟨hn, b, h, rfl⟩

theorem cons {c : Char} (hc : c ≠ '\n') (h : AlikeText a b) : AlikeText (c :: a) (c :: b) := by
  obtain ⟨w, hw, hb⟩ := h.exists_append
  refine ⟨fun hmem => ?_, w, hw, congrArg (c :: ·) hb⟩
  exact (List.mem_cons.1 hmem).elim (fun h => hc h.symm) h.noNewline

theorem congr (h : AlikeText a b) (hf : IgnoresTrailing f) : f b = f a := by
  obtain ⟨w, hw, rfl⟩ := h.exists_append
  exact hf a w hw

/-- What ignores trailing white space is the same of the code of both lines. -/
theorem code (h : AlikeText a b) (hf : IgnoresTrailing f) :
    f (stripComments b) = f (stripComments a) := by
  obtain ⟨w, hw, rfl⟩ := h.exists_append
  have hn := h.noNewline
  rw [List.mem_append, not_or] at hn
  obtain ⟨u, hu, hcode⟩ := exists_stripComments_append hn.1 hw hn.2
  rw [hcode, hf _ u hu]

theorem braces (h : AlikeText a b) : braces b = braces a := by
  have hcount : ∀ c, isBlank c = false → IgnoresTrailing fun s => s.count c := fun c hc s w hw => by
    show (s ++ w).count c = s.count c
    rw [List.count_append, List.count_eq_zero_of_not_mem (not_mem_of_isAllBlank hw hc),
      Nat.add_zero]
  rw [ContractAudit.braces, ContractAudit.braces, h.congr ignoresTrailing_isCommentLine]
  show (if isCommentLine a then _ else Braces.mk _ _) = if isCommentLine a then _ else Braces.mk _ _
  rw [h.code (hcount '\x7b' rfl), h.code (hcount '\x7d' rfl)]

end AlikeText

end ContractAudit
