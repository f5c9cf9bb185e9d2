import ContractAudit.Proofs.Json.Grammar
import ContractAudit.Proofs.Text.Runs

/-!
# Where numbers, strings and words end

The smallest parts of a JSON text are determined, with what they denote, by the text that starts
with them (`Determined`). A run of characters of one class ends before the first character of
another; an escape has a fixed length; and a string ends at the first quote that is not escaped.

Numbers and words are runs of one class, so they are told apart only then. The whole part of a
number, its fraction and its exponent are again runs, of digits.

Main results: `determined_word`, `determined_text`.
-/

namespace ContractAudit.Json.Grammar

/-- A text of `P` with what follows it, if that is as `Ends` allows, shows where the text ends and
what it denotes. -/
def Determined {α : Type} (P : List Char → α → Prop) (Ends : List Char → Prop) : Prop :=
  ∀ ⦃s s' r r' : List Char⦄ ⦃x x' : α⦄, P s x → P s' x' → Ends r → Ends r' → s ++ r = s' ++ r' →
    s = s' ∧ r = r' ∧ x = x'

/-- Runs of characters of one class before characters of other classes. -/
theorem run_eq {p : Char → Bool} {s s' r r' : List Char} (hs : ∀ c ∈ s, p c = true)
    (hs' : ∀ c ∈ s', p c = true) (hr : ∀ c ∈ r.head?, p c = false)
    (hr' : ∀ c ∈ r'.head?, p c = false) (h : s ++ r = s' ++ r') : s = s' ∧ r = r' := by
  have hrest : r = r' := by
    have hdrop := congrArg (List.dropWhile p) h
    rwa [Text.dropWhile_append_of_stops hs hr, Text.dropWhile_append_of_stops hs' hr'] at hdrop
  subst hrest
  exact ⟨List.append_cancel_right h, rfl⟩

/-! ## Numbers -/

theorem IsDigits.head {c : Char} {s : List Char} (h : IsDigits (c :: s)) : c.isDigit = true :=
  h.2 c List.mem_cons_self

theorem SignedDigits.unique {s s' : List Char} {e e' : Int} (h : SignedDigits s e)
    (h' : SignedDigits s' e') (hs : s = s') : e = e' := by
  -- a sign is no digit
  cases h with
  | unsigned h =>
    cases h' with
    | unsigned _ => rw [hs]
    | plus _ => exact absurd (hs ▸ h).head (by decide)
    | minus _ => exact absurd (hs ▸ h).head (by decide)
  | plus h =>
    cases h' with
    | unsigned h' => exact absurd (hs ▸ h').head (by decide)
    | plus _ => rw [List.tail_eq_of_cons_eq hs]
    | minus _ => cases hs
  | minus h =>
    cases h' with
    | unsigned h' => exact absurd (hs ▸ h').head (by decide)
    | plus _ => cases hs
    | minus _ => rw [List.tail_eq_of_cons_eq hs]

theorem Exponent.unique {s s' : List Char} {e e' : Int} (h : Exponent s e) (h' : Exponent s' e')
    (hs : s = s') : e = e' := by
  cases h with
  | absent =>
    cases h' with
    | absent => rfl
    | digits _ _ => cases hs
  | digits _ h =>
    cases h' with
    | absent => cases hs
    | digits _ h' => exact h.unique h' (List.tail_eq_of_cons_eq hs)

/-- An exponent starts with its letter. -/
theorem Exponent.head {s : List Char} {e : Int} (h : Exponent s e) :
    ∀ c ∈ s.head?, c = 'e' ∨ c = 'E' := by
  intro c hc
  cases h with
  | absent => cases hc
  | digits hletter _ =>
    obtain rfl := Option.some.inj hc
    exact hletter

theorem Exponent.head_not_isDigit {s : List Char} {e : Int} (h : Exponent s e) :
    ∀ c ∈ s.head?, c.isDigit = false := by
  intro c hc
  rcases h.head c hc with rfl | rfl
  · decide
  · decide

/-- A fraction with the exponent behind it. -/
theorem determined_fraction :
    Determined Fraction fun r => ∃ e, Exponent r e := by
  rintro s s' r r' q q' h h' ⟨e, he⟩ ⟨e', he'⟩ hs
  -- the point of a fraction is no letter of an exponent
  have hpoint : ∀ {r : List Char} {e : Int} {t : List Char}, Exponent r e → r ≠ '.' :: t := by
    intro r e t h hr
    rcases h.head '.' (by rw [hr]; rfl) with hletter | hletter
    · cases hletter
    · cases hletter
  cases h with
  | absent =>
    cases h' with
    | absent => exact ⟨rfl, hs, rfl⟩
    | digits _ => exact absurd hs (hpoint he)
  | digits h =>
    cases h' with
    | absent => exact absurd hs.symm (hpoint he')
    | digits h' =>
      obtain ⟨rfl, rfl⟩ := run_eq h.2 h'.2 he.head_not_isDigit he'.head_not_isDigit
        (List.tail_eq_of_cons_eq hs)
      exact ⟨rfl, rfl, rfl⟩

/-- What stands behind the whole part of a number starts with a point or a letter. -/
theorem head_fraction_append {fraction exponent : List Char} {part : Rat} {e : Int}
    (hfraction : Fraction fraction part) (hexponent : Exponent exponent e) :
    ∀ c ∈ (fraction ++ exponent).head?, c.isDigit = false := by
  cases hfraction with
  | absent => exact hexponent.head_not_isDigit
  | digits _ =>
    intro c hc
    obtain rfl := Option.some.inj hc
    decide

theorem Decimal.unique {s s' : List Char} {q q' : Rat} (h : Decimal s q) (h' : Decimal s' q')
    (hs : s = s') : q = q' := by
  obtain ⟨hwhole, hfraction, hexponent, -⟩ := h
  obtain ⟨hwhole', hfraction', hexponent', -⟩ := h'
  obtain ⟨rfl, hrest⟩ := run_eq hwhole.1.2 hwhole'.1.2 (head_fraction_append hfraction hexponent)
    (head_fraction_append hfraction' hexponent') hs
  obtain ⟨-, hexp, rfl⟩ :=
    determined_fraction hfraction hfraction' ⟨_, hexponent⟩ ⟨_, hexponent'⟩ hrest
  rw [hexponent.unique hexponent' hexp]

/-- A number with a fraction or an exponent is not all digits. -/
theorem Decimal.not_isDigits {s : List Char} {q : Rat} (h : Decimal s q) : ¬IsDigits s := by
  intro hdigits
  obtain ⟨-, hfraction, hexponent, hreal⟩ := h
  obtain ⟨c, rest, hrest⟩ := List.exists_cons_of_ne_nil hreal
  have hc := head_fraction_append hfraction hexponent c (by rw [hrest]; rfl)
  rw [hdigits.2 c (by simp [hrest])] at hc
  cases hc

theorem DenotesUnsigned.unique {s s' : List Char} {n n' : Number} (h : DenotesUnsigned s n)
    (h' : DenotesUnsigned s' n') (hs : s = s') : n = n' := by
  subst hs
  cases h with
  | whole h =>
    cases h' with
    | whole _ => rfl
    | decimal h' _ => exact absurd h.1 h'.not_isDigits
  | decimal h hx =>
    cases h' with
    | whole h' => exact absurd h'.1 h.not_isDigits
    | decimal h' hx' =>
      rw [h.unique h' rfl, hx'] at hx
      rw [hx]

/-- A number without a sign starts with a digit. -/
theorem DenotesUnsigned.exists_cons {s : List Char} {n : Number} (h : DenotesUnsigned s n) :
    ∃ c rest, s = c :: rest ∧ c.isDigit = true := by
  cases h with
  | whole h =>
    obtain ⟨c, rest, rfl⟩ := List.exists_cons_of_ne_nil h.1.1
    exact ⟨c, rest, rfl, h.1.head⟩
  | decimal h _ =>
    obtain ⟨hwhole, -, -, -⟩ := h
    obtain ⟨c, rest, rfl⟩ := List.exists_cons_of_ne_nil hwhole.1.1
    exact ⟨c, _, rfl, hwhole.1.head⟩

theorem DenotesUnsigned.ne_cons_minus {s : List Char} {n : Number} (h : DenotesUnsigned s n)
    (t : List Char) : s ≠ '-' :: t := by
  intro hs
  obtain ⟨c, rest, rfl, hc⟩ := h.exists_cons
  rw [(List.cons.inj hs).1] at hc
  cases hc

theorem DenotesNumber.unique {s s' : List Char} {n n' : Number} (h : DenotesNumber s n)
    (h' : DenotesNumber s' n') (hs : s = s') : n = n' := by
  cases h with
  | unsigned h =>
    cases h' with
    | unsigned h' => exact h.unique h' hs
    | minus _ => exact absurd hs (h.ne_cons_minus _)
  | minus h =>
    cases h' with
    | unsigned h' => exact absurd hs.symm (h'.ne_cons_minus _)
    | minus h' => rw [h.unique h' (List.tail_eq_of_cons_eq hs)]

/-! ## Strings -/

theorem IsUnit.unique {digits : List Char} {n n' : Nat} (h : IsUnit digits n)
    (h' : IsUnit digits n') : n = n' :=
  Option.some.inj (h.2.symm.trans h'.2)

/-- The digits of units have one length, so what follows them is determined. -/
theorem determined_unit : Determined IsUnit fun _ => True := by
  intro s s' r r' n n' h h' _ _ hs
  obtain ⟨rfl, rfl⟩ := List.append_inj hs (h.1.trans h'.1.symm)
  exact ⟨rfl, rfl, h.unique h'⟩

theorem letterEscapes_unique : ∀ p ∈ letterEscapes, ∀ q ∈ letterEscapes, p.1 = q.1 → p.2 = q.2 := by
  decide

theorem ne_u_of_mem_letterEscapes : ∀ p ∈ letterEscapes, p.1 ≠ 'u' := by
  decide

/-- A unit that stands for a character starts no pair. -/
theorem IsUnit.append_ne_append {digits first : List Char} {n high : Nat} (h : IsUnit digits n)
    (hcharacter : Str.isCharacter n = true) (hfirst : IsUnit first high)
    (hhigh : 0xd800 ≤ high ∧ high ≤ 0xdbff) (r r' : List Char) : digits ++ r ≠ first ++ r' := by
  intro hs
  obtain ⟨-, -, rfl⟩ := determined_unit h hfirst trivial trivial hs
  simp only [Str.isCharacter, Bool.or_eq_true, Bool.and_eq_true, decide_eq_true_eq] at hcharacter
  omega

theorem determined_escape : Determined Escape fun _ => True := by
  intro s s' r r' c c' h h' _ _ hs
  cases h with
  | letter h =>
    cases h' with
    | letter h' =>
      obtain ⟨rfl, hr⟩ := List.cons.inj hs
      exact ⟨rfl, hr, letterEscapes_unique _ h _ h' rfl⟩
    | unit _ _ => exact absurd (List.cons.inj hs).1 (ne_u_of_mem_letterEscapes _ h)
    | pair _ _ _ _ => exact absurd (List.cons.inj hs).1 (ne_u_of_mem_letterEscapes _ h)
  | unit h hcharacter =>
    cases h' with
    | letter h' => exact absurd (List.cons.inj hs).1.symm (ne_u_of_mem_letterEscapes _ h')
    | unit h' _ =>
      obtain ⟨rfl, rfl, rfl⟩ := determined_unit h h' trivial trivial (List.cons.inj hs).2
      exact ⟨rfl, rfl, rfl⟩
    | pair hfirst _ hhigh _ =>
      simp only [List.cons_append, List.append_assoc, List.cons.injEq, true_and] at hs
      exact absurd hs (h.append_ne_append hcharacter hfirst hhigh _ _)
  | pair hfirst hsecond hhigh _ =>
    cases h' with
    | letter h' => exact absurd (List.cons.inj hs).1.symm (ne_u_of_mem_letterEscapes _ h')
    | unit h' hcharacter =>
      simp only [List.cons_append, List.append_assoc, List.cons.injEq, true_and] at hs
      exact absurd hs.symm (h'.append_ne_append hcharacter hfirst hhigh _ _)
    | pair hfirst' hsecond' _ _ =>
      simp only [List.cons_append, List.append_assoc, List.cons.injEq, true_and] at hs
      obtain ⟨rfl, hs, rfl⟩ := determined_unit hfirst hfirst' trivial trivial hs
      simp only [List.cons.injEq, true_and] at hs
      obtain ⟨rfl, rfl, rfl⟩ := determined_unit hsecond hsecond' trivial trivial hs
      exact ⟨rfl, rfl, rfl⟩

theorem determined_char : Determined DenotesChar fun _ => True := by
  intro s s' r r' c c' h h' _ _ hs
  cases h with
  | plain _ _ hbackslash =>
    cases h' with
    | plain _ _ _ =>
      obtain ⟨rfl, rfl⟩ := List.cons.inj hs
      exact ⟨rfl, rfl, rfl⟩
    | escaped _ => exact absurd (List.cons.inj hs).1 hbackslash
  | escaped h =>
    cases h' with
    | plain _ _ hbackslash => exact absurd (List.cons.inj hs).1.symm hbackslash
    | escaped h' =>
      obtain ⟨rfl, rfl, rfl⟩ := determined_escape h h' trivial trivial (List.cons.inj hs).2
      exact ⟨rfl, rfl, rfl⟩

/-- No character is written with a quote first. -/
theorem DenotesChar.ne_cons_quote {s : List Char} {c : Char} (h : DenotesChar s c)
    (rest t : List Char) : s ++ rest ≠ '"' :: t := by
  intro hs
  cases h with
  | plain _ hquote _ => exact hquote (List.cons.inj hs).1
  | escaped _ => cases (List.cons.inj hs).1

/-- The first quote that stands for itself ends a string. -/
theorem determined_chars : Determined DenotesChars fun r => ∃ t, r = '"' :: t := by
  rintro s s' r r' chars chars' h h' ⟨t, rfl⟩ ⟨t', rfl⟩ hs
  induction h generalizing s' chars' with
  | nil =>
    cases h' with
    | nil => exact ⟨rfl, hs, rfl⟩
    | cons h' _ =>
      rw [List.append_assoc] at hs
      exact absurd hs.symm (h'.ne_cons_quote _ _)
  | cons h _ ih =>
    rw [List.append_assoc] at hs
    cases h' with
    | nil => exact absurd hs (h.ne_cons_quote _ _)
    | cons h' hrest' =>
      rw [List.append_assoc] at hs
      obtain ⟨rfl, hs, rfl⟩ := determined_char h h' trivial trivial hs
      obtain ⟨rfl, hr, rfl⟩ := ih hrest' hs
      exact ⟨rfl, hr, rfl⟩

theorem determined_text : Determined DenotesText fun _ => True := by
  intro s s' r r' t t' h h' _ _ hs
  obtain ⟨h⟩ := h
  obtain ⟨h'⟩ := h'
  simp only [List.cons_append, List.append_assoc, List.cons.injEq, true_and] at hs
  obtain ⟨rfl, hr, ht⟩ := determined_chars h h' ⟨_, rfl⟩ ⟨_, rfl⟩ hs
  exact ⟨rfl, List.tail_eq_of_cons_eq hr, String.toList_inj.1 ht⟩

/-! ## Words -/

/-- Characters of which words and numbers are made. -/
def isWordPart (c : Char) : Bool :=
  c.isAlphanum || c == '.' || c == '+' || c == '-'

theorem isWordPart_of_isDigit {c : Char} (h : c.isDigit = true) : isWordPart c = true := by
  simp [isWordPart, Char.isAlphanum, h]

theorem IsDigits.forall_isWordPart {s : List Char} (h : IsDigits s) :
    ∀ c ∈ s, isWordPart c = true :=
  fun c hc => isWordPart_of_isDigit (h.2 c hc)

theorem SignedDigits.forall_isWordPart {s : List Char} {e : Int} (h : SignedDigits s e) :
    ∀ c ∈ s, isWordPart c = true := by
  cases h with
  | unsigned h => exact h.forall_isWordPart
  | plus h => exact List.forall_mem_cons.2 ⟨by decide, h.forall_isWordPart⟩
  | minus h => exact List.forall_mem_cons.2 ⟨by decide, h.forall_isWordPart⟩

theorem Exponent.forall_isWordPart {s : List Char} {e : Int} (h : Exponent s e) :
    ∀ c ∈ s, isWordPart c = true := by
  cases h with
  | absent => exact fun c hc => absurd hc List.not_mem_nil
  | digits hletter h =>
    refine List.forall_mem_cons.2 ⟨?_, h.forall_isWordPart⟩
    rcases hletter with rfl | rfl
    · decide
    · decide

theorem Fraction.forall_isWordPart {s : List Char} {q : Rat} (h : Fraction s q) :
    ∀ c ∈ s, isWordPart c = true := by
  cases h with
  | absent => exact fun c hc => absurd hc List.not_mem_nil
  | digits h => exact List.forall_mem_cons.2 ⟨by decide, h.forall_isWordPart⟩

theorem DenotesUnsigned.forall_isWordPart {s : List Char} {n : Number} (h : DenotesUnsigned s n) :
    ∀ c ∈ s, isWordPart c = true := by
  intro c hc
  cases h with
  | whole h => exact h.1.forall_isWordPart c hc
  | decimal h _ =>
    obtain ⟨hwhole, hfraction, hexponent, -⟩ := h
    rcases List.mem_append.1 hc with hc | hc
    · exact hwhole.1.forall_isWordPart c hc
    · rcases List.mem_append.1 hc with hc | hc
      · exact hfraction.forall_isWordPart c hc
      · exact hexponent.forall_isWordPart c hc

theorem DenotesNumber.exists_cons {s : List Char} {n : Number} (h : DenotesNumber s n) :
    ∃ c rest, s = c :: rest ∧ (c.isDigit = true ∨ c = '-') := by
  cases h with
  | unsigned h =>
    obtain ⟨c, rest, hs, hc⟩ := h.exists_cons
    exact ⟨c, rest, hs, .inl hc⟩
  | minus _ => exact ⟨_, _, rfl, .inr rfl⟩

theorem DenotesNumber.forall_isWordPart {s : List Char} {n : Number} (h : DenotesNumber s n) :
    ∀ c ∈ s, isWordPart c = true := by
  cases h with
  | unsigned h => exact h.forall_isWordPart
  | minus h => exact List.forall_mem_cons.2 ⟨by decide, h.forall_isWordPart⟩

theorem isWordPart_of_mem_words : ∀ p ∈ words, ∀ c ∈ p.1, isWordPart c = true := by
  simp only [words, List.forall_mem_cons]
  exact ⟨List.all_eq_true.1 (by decide), List.all_eq_true.1 (by decide),
    List.all_eq_true.1 (by decide), fun p hp => absurd hp List.not_mem_nil⟩

theorem DenotesWord.forall_isWordPart {s : List Char} {x : Value} (h : DenotesWord s x) :
    ∀ c ∈ s, isWordPart c = true := by
  cases h with
  | word h => exact isWordPart_of_mem_words _ h
  | number h => exact h.forall_isWordPart

theorem words_unique : ∀ p ∈ words, ∀ q ∈ words, p.1 = q.1 → p.2 = q.2 := by
  simp [words]

/-- No word starts as a number does. -/
theorem not_denotesNumber_of_mem_words {s : List Char} {x : Value} {n : Number}
    (h : (s, x) ∈ words) : ¬DenotesNumber s n := by
  intro hnumber
  obtain ⟨c, rest, rfl, hc⟩ := hnumber.exists_cons
  have hstart : ∀ p ∈ words, ∀ c ∈ p.1.head?, c.isDigit = false ∧ c ≠ '-' := by
    simp [words, Char.isDigit]
  obtain ⟨hdigit, hminus⟩ := hstart _ h c rfl
  rcases hc with hc | hc
  · rw [hdigit] at hc
    cases hc
  · exact hminus hc

theorem DenotesWord.unique {s s' : List Char} {x x' : Value} (h : DenotesWord s x)
    (h' : DenotesWord s' x') (hs : s = s') : x = x' := by
  subst hs
  cases h with
  | word h =>
    cases h' with
    | word h' => exact words_unique _ h _ h' rfl
    | number h' => exact absurd h' (not_denotesNumber_of_mem_words h)
  | number h =>
    cases h' with
    | word h' => exact absurd h (not_denotesNumber_of_mem_words h')
    | number h' => rw [h.unique h' rfl]

theorem DenotesWord.exists_cons {s : List Char} {x : Value} (h : DenotesWord s x) :
    ∃ c rest, s = c :: rest ∧ isWordPart c = true := by
  have hpart := h.forall_isWordPart
  cases s with
  | cons c rest => exact ⟨c, rest, rfl, hpart c List.mem_cons_self⟩
  | nil =>
    cases h with
    | word h => simp [words] at h
    | number h =>
      obtain ⟨c, rest, hs, -⟩ := h.exists_cons
      cases hs

/-- What may follow a word: nothing that would go on with it. -/
def EndsWord (r : List Char) : Prop := ∀ c ∈ r.head?, isWordPart c = false

theorem determined_word : Determined DenotesWord EndsWord := by
  intro s s' r r' x x' h h' hr hr' hs
  obtain ⟨rfl, rfl⟩ := run_eq h.forall_isWordPart h'.forall_isWordPart hr hr' hs
  exact ⟨rfl, rfl, h.unique h' rfl⟩

end ContractAudit.Json.Grammar
