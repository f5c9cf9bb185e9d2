import Mathlib.Data.List.Infix

/-!
# Parts of a text

Where a part of a text can lie, told by single items. A part without some item lies on one side of
it (`isInfix_append_cons_iff`), and a part lies behind every text without its first item
(`cons_isInfix_append_iff`). A word whose first item does not come again in it cannot overlap
itself: between two texts without the word it is found at one place only (`eq_of_append_cons`).
-/

namespace ContractAudit.Text

variable {α : Type} {part a b c d : List α} {x y : α}

/-- The two places at which a text is divided are the same, or one lies before the other. -/
theorem append_cons_cases (h : a ++ x :: b = c ++ y :: d) :
    (∃ e, a = c ++ y :: e ∧ d = e ++ x :: b) ∨ (a = c ∧ x = y ∧ b = d) ∨
      ∃ e, c = a ++ x :: e ∧ b = e ++ y :: d := by
  rcases List.append_eq_append_iff.1 h with ⟨e, hc, he⟩ | ⟨e, ha, he⟩
  · cases e with
    | nil =>
      obtain ⟨hxy, hbd⟩ := List.cons.inj he
      exact Or.inr (Or.inl ⟨by rw [hc, List.append_nil], hxy, hbd⟩)
    | cons z e =>
      obtain ⟨rfl, hb⟩ := List.cons.inj he
      exact Or.inr (Or.inr ⟨e, hc, hb⟩)
  · cases e with
    | nil =>
      obtain ⟨hyx, hdb⟩ := List.cons.inj he
      exact Or.inr (Or.inl ⟨by rw [ha, List.append_nil], hyx.symm, hdb.symm⟩)
    | cons z e =>
      obtain ⟨rfl, hd⟩ := List.cons.inj he
      exact Or.inl ⟨e, ha, hd⟩

/-- A part without some item lies on one side of it. -/
theorem isInfix_append_cons_iff (h : x ∉ part) :
    part <:+: a ++ x :: b ↔ part <:+: a ∨ part <:+: b := by
  constructor
  · rw [List.infix_append_iff, List.infix_cons_iff]
    rintro (hleft | (hfirst | hright) | ⟨left, right, rfl, hleft, hright⟩)
    · exact Or.inl hleft
    · cases part with
      | nil => exact Or.inl (List.nil_infix)
      | cons y part => exact absurd (List.cons_prefix_cons.1 hfirst).1 fun hy => h (by simp [hy])
    · exact Or.inr hright
    · cases right with
      | nil => exact Or.inl (by simpa using hleft.isInfix)
      | cons y right => exact absurd (List.cons_prefix_cons.1 hright).1 fun hy => h (by simp [hy])
  · rintro (hleft | hright)
    · exact List.infix_append_of_infix_left hleft
    · exact List.infix_append_of_infix_right (List.infix_cons hright)

/-- A text starts with a part without some item before the item comes. -/
theorem isPrefix_append_cons_iff (h : x ∉ part) : part <+: a ++ x :: b ↔ part <+: a := by
  constructor
  · intro hpart
    rcases List.prefix_or_prefix_of_prefix hpart (List.prefix_append a (x :: b)) with hle | hle
    · exact hle
    · -- the part would go on behind `a`, and so with the item
      obtain ⟨e, rfl⟩ := hle
      cases e with
      | nil =>
        rw [List.append_nil]
      | cons y e =>
        rw [List.prefix_append_right_inj, List.cons_prefix_cons] at hpart
        exact absurd (List.mem_append_right a (hpart.1 ▸ List.mem_cons_self)) h
  · exact fun hpart => hpart.trans (List.prefix_append a (x :: b))

/-- A part lies behind a text without its first item. -/
theorem cons_isInfix_append_iff (h : x ∉ a) : x :: part <:+: a ++ b ↔ x :: part <:+: b := by
  induction a with
  | nil => rw [List.nil_append]
  | cons y a ih =>
    obtain ⟨hy, ha⟩ := not_or.1 (mt List.mem_cons.2 h)
    rw [List.cons_append, List.infix_cons_iff, List.cons_prefix_cons, ih ha]
    exact or_iff_right fun hfirst => hy hfirst.1

/-- The place of a word between two texts without it, if its first item does not come again. -/
theorem eq_of_append_cons {word before rest : List α} (hx : x ∉ word) (ha : ¬x :: word <:+: a)
    (hb : ¬x :: word <:+: b) (h : a ++ x :: (word ++ b) = before ++ x :: (word ++ rest)) :
    before = a ∧ rest = b := by
  rcases append_cons_cases h with ⟨e, rfl, hrest⟩ | ⟨hbefore, -, hrest⟩ | ⟨e, -, hrest⟩
  · -- the word would end before the item comes that it starts with in the text
    have hword : word <+: e := (isPrefix_append_cons_iff hx).1 (hrest ▸ List.prefix_append word rest)
    have hinfix : x :: word <:+: before ++ x :: e :=
      (List.cons_prefix_cons.2 ⟨rfl, hword⟩).isInfix.trans (List.suffix_append before _).isInfix
    exact absurd hinfix ha
  · exact ⟨hbefore.symm, (List.append_cancel_left hrest).symm⟩
  · -- the word would come again behind itself
    have hword : word <+: e := (isPrefix_append_cons_iff hx).1 (hrest ▸ List.prefix_append word b)
    obtain ⟨e, rfl⟩ := hword
    rw [List.append_assoc, List.append_cancel_left_eq] at hrest
    have hinfix : x :: word <:+: b := by
      rw [hrest, ← List.cons_append]
      exact (List.prefix_append (x :: word) rest).isInfix.trans (List.suffix_append e _).isInfix
    exact absurd hinfix hb

end ContractAudit.Text
