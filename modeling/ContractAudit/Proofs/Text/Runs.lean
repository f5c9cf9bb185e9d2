import ContractAudit.Proofs.Text.TrailingBlanks

/-!
# Runs of characters

A pattern passes over runs: white space, the characters of a word, or whatever stands before a
closing bracket. Each step here takes the whole run at once, where the pattern itself may take any
part of it. The two come to the same, because what a pattern wants behind a run never starts with
another character of the run.

So a step and a way to write the text belong together. From a step that went through, the text comes
apart into the run and the rest (`exists_of_afterSomeBlanks?`, `exists_of_afterSomeWord?`,
`exists_append_afterBlanks`). A text that is put together from a run and a rest is taken apart at
the same place again, as long as the rest does not go on with the run (`afterSomeBlanks?_append`,
`afterSomeWord?_append`, `afterBlanks_append`).
-/

namespace ContractAudit.Text

/-! ## Any run -/

theorem dropWhile_append_of_stops {p : Char → Bool} {run rest : List Char}
    (hrun : ∀ c ∈ run, p c = true) (hrest : ∀ c ∈ rest.head?, p c = false) :
    (run ++ rest).dropWhile p = rest := by
  rw [List.dropWhile_append_of_pos hrun]
  cases rest with
  | nil => rfl
  | cons c rest => rw [List.dropWhile_cons, hrest c rfl, if_neg Bool.false_ne_true]

/-- What stands before the first `closing` and what stands behind it. -/
theorem afterChars?_dropWhile_eq_some_iff (closing : Char) {s rest : List Char} :
    afterChars? [closing] (s.dropWhile (· != closing)) = some rest ↔
      ∃ inside, closing ∉ inside ∧ s = inside ++ closing :: rest := by
  rw [afterChars?_eq_some_iff]
  constructor
  · intro hclosing
    refine ⟨s.takeWhile (· != closing), fun hmem => ?_, ?_⟩
    · have hne := List.all_eq_true.1 List.all_takeWhile _ hmem
      simp at hne
    · have hsplit : s.takeWhile (· != closing) ++ s.dropWhile (· != closing) = s :=
        List.takeWhile_append_dropWhile
      rw [hclosing] at hsplit
      exact hsplit.symm
  · rintro ⟨inside, hinside, rfl⟩
    have hall : ∀ c ∈ inside, (c != closing) = true := fun c hc =>
      bne_iff_ne.2 fun h => hinside (h ▸ hc)
    exact dropWhile_append_of_stops hall fun c hc => by cases hc; simp

/-! ## White space -/

theorem isBlank_of_isWord {c : Char} (h : isWord c = true) : isBlank c = false := by
  rw [← Bool.not_eq_true]
  intro hblank
  rw [isWord_of_isBlank hblank] at h
  cases h

theorem afterBlanks_append {blanks s : List Char} (hblanks : isAllBlank blanks = true)
    (hs : ∀ c ∈ s.head?, isBlank c = false) : afterBlanks (blanks ++ s) = s :=
  dropWhile_append_of_stops (List.all_eq_true.1 hblanks) hs

theorem exists_append_afterBlanks (s : List Char) :
    ∃ blanks, isAllBlank blanks = true ∧ s = blanks ++ afterBlanks s :=
  ⟨s.takeWhile isBlank, List.all_takeWhile, List.takeWhile_append_dropWhile.symm⟩

theorem not_isBlank_of_mem_head?_afterBlanks {s : List Char} {c : Char}
    (h : c ∈ (afterBlanks s).head?) : isBlank c = false := by
  have hhead := List.head?_dropWhile_not isBlank s
  unfold afterBlanks at h
  rw [h] at hhead
  exact hhead

theorem afterSomeBlanks?_append {blanks s : List Char} (hne : blanks ≠ [])
    (hblanks : isAllBlank blanks = true) (hs : ∀ c ∈ s.head?, isBlank c = false) :
    afterSomeBlanks? (blanks ++ s) = some s := by
  obtain ⟨c, blanks, rfl⟩ := List.exists_cons_of_ne_nil hne
  obtain ⟨hc, hblanks⟩ := isAllBlank_cons.1 hblanks
  rw [List.cons_append, afterSomeBlanks?, if_pos hc, afterBlanks_append hblanks hs]

theorem exists_of_afterSomeBlanks? {s rest : List Char} (h : afterSomeBlanks? s = some rest) :
    ∃ blanks, blanks ≠ [] ∧ isAllBlank blanks = true ∧ s = blanks ++ rest := by
  cases s with
  | nil => cases h
  | cons c s =>
    rw [afterSomeBlanks?] at h
    split at h
    · rename_i hc
      obtain rfl := Option.some.inj h
      obtain ⟨blanks, hblanks, hsplit⟩ := exists_append_afterBlanks s
      exact ⟨c :: blanks, List.cons_ne_nil c blanks, isAllBlank_cons.2 ⟨hc, hblanks⟩,
        congrArg (c :: ·) hsplit⟩
    · cases h

/-! ## Words -/

theorem afterSomeWord?_append {word s : List Char} (hne : word ≠ [])
    (hword : ∀ c ∈ word, isWord c = true) (hs : ∀ c ∈ s.head?, isWord c = false) :
    afterSomeWord? (word ++ s) = some s := by
  obtain ⟨c, word, rfl⟩ := List.exists_cons_of_ne_nil hne
  rw [List.cons_append, afterSomeWord?, if_pos (hword c List.mem_cons_self),
    dropWhile_append_of_stops (fun d hd => hword d (List.mem_cons_of_mem c hd)) hs]

theorem exists_of_afterSomeWord? {s rest : List Char} (h : afterSomeWord? s = some rest) :
    ∃ word, word ≠ [] ∧ (∀ c ∈ word, isWord c = true) ∧ s = word ++ rest := by
  cases s with
  | nil => cases h
  | cons c s =>
    rw [afterSomeWord?] at h
    split at h
    · rename_i hc
      obtain rfl := Option.some.inj h
      refine ⟨c :: s.takeWhile isWord, List.cons_ne_nil c _, fun d hd => ?_, ?_⟩
      · rcases List.mem_cons.1 hd with rfl | hd
        · exact hc
        · exact List.all_eq_true.1 List.all_takeWhile d hd
      · rw [List.cons_append, List.takeWhile_append_dropWhile]
    · cases h

end ContractAudit.Text
