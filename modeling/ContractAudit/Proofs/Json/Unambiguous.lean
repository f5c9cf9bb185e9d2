import ContractAudit.Proofs.Json.Tokens

/-!
# A text denotes one value

No JSON text denotes two values. The first character of a value shows whether it is a word, a
string, a list or an object. Items end before a comma or a closing bracket, which no value starts
with, and the white space around them is a run (`determined_item`, `determined_member`).

The induction is on a bound of the length, since what stands between brackets is shorter.

Main result: `IsTextOf.unique`.
-/

namespace ContractAudit.Json.Grammar

variable {α : Type}

/-- What may follow an item. -/
def EndsItem (r : List Char) : Prop := ∀ c ∈ r.head?, c = ',' ∨ c = ']' ∨ c = '\x7d'

/-! ## Starts of values -/

/-- A character with which a value may start. -/
def startsValue (c : Char) : Bool :=
  isWordPart c || c == '"' || c == '[' || c == '\x7b'

theorem Denotes.exists_cons {s : List Char} {x : Value} (h : Denotes s x) :
    ∃ c rest, s = c :: rest ∧ startsValue c = true := by
  cases h with
  | word h =>
    obtain ⟨c, rest, hs, hc⟩ := h.exists_cons
    exact ⟨c, rest, hs, by simp [startsValue, hc]⟩
  | text h =>
    obtain ⟨-⟩ := h
    exact ⟨_, _, rfl, rfl⟩
  | list _ => exact ⟨_, _, rfl, rfl⟩
  | object _ _ => exact ⟨_, _, rfl, rfl⟩

/-- White space starts no value, and in particular goes on with no word. -/
theorem startsValue_of_isSpace {c : Char} (h : isSpace c = true) : startsValue c = false := by
  simp only [isSpace, Bool.or_eq_true, beq_iff_eq] at h
  rcases h with ((rfl | rfl) | rfl) | rfl <;> decide

theorem isSpace_eq_false_of_startsValue {c : Char} (h : startsValue c = true) :
    isSpace c = false := by
  rw [Bool.eq_false_iff]
  intro hspace
  rw [startsValue_of_isSpace hspace] at h
  cases h

theorem EndsItem.not_isSpace {r : List Char} (h : EndsItem r) :
    ∀ c ∈ r.head?, isSpace c = false := by
  intro c hc
  rcases h c hc with rfl | rfl | rfl <;> decide

/-- What follows an item follows a value with white space behind it. -/
theorem EndsItem.endsWord_append {gap r : List Char} (hgap : IsGap gap) (h : EndsItem r) :
    EndsWord (gap ++ r) := by
  intro c hc
  cases gap with
  | nil => rcases h c hc with rfl | rfl | rfl <;> decide
  | cons d gap =>
    obtain rfl := Option.some.inj hc
    have hvalue := startsValue_of_isSpace (hgap d List.mem_cons_self)
    simp only [startsValue, Bool.or_eq_false_iff] at hvalue
    exact hvalue.1.1.1

/-! ## Items -/

/-- The texts of `P` of at most this length. -/
def UpTo (n : Nat) (P : List Char → α → Prop) (s : List Char) (x : α) : Prop :=
  s.length ≤ n ∧ P s x

/-- White space before a value, or what starts like one. -/
theorem gap_eq {before before' s s' : List Char} {c c' : Char} (hbefore : IsGap before)
    (hbefore' : IsGap before') (hc : isSpace c = false) (hc' : isSpace c' = false)
    (h : before ++ c :: s = before' ++ c' :: s') : before = before' ∧ c :: s = c' :: s' := by
  refine run_eq hbefore hbefore' ?_ ?_ h
  · intro d hd
    rwa [← Option.some.inj hd]
  · intro d hd
    rwa [← Option.some.inj hd]

theorem determined_item {n : Nat} (h : Determined (UpTo n Denotes) EndsWord) :
    Determined (UpTo n DenotesItem) EndsItem := by
  -- from left to right: white space, the value, white space
  rintro _ _ r r' x x' ⟨hlen, hitem⟩ ⟨hlen', hitem'⟩ hr hr' hs
  obtain ⟨hbefore, hx, hafter⟩ := hitem
  obtain ⟨hbefore', hx', hafter'⟩ := hitem'
  simp only [List.length_append] at hlen hlen'
  simp only [List.append_assoc] at hs
  obtain ⟨c, t, rfl, hc⟩ := hx.exists_cons
  obtain ⟨c', t', rfl, hc'⟩ := hx'.exists_cons
  obtain ⟨rfl, hvalue⟩ := gap_eq hbefore hbefore' (isSpace_eq_false_of_startsValue hc)
    (isSpace_eq_false_of_startsValue hc') hs
  obtain ⟨htext, hrest, rfl⟩ := h ⟨by omega, hx⟩ ⟨by omega, hx'⟩ (hr.endsWord_append hafter)
    (hr'.endsWord_append hafter') hvalue
  obtain ⟨rfl, rfl⟩ := run_eq hafter hafter' hr.not_isSpace hr'.not_isSpace hrest
  exact ⟨by rw [htext], rfl, rfl⟩

theorem determined_member {n : Nat} (h : Determined (UpTo n DenotesItem) EndsItem) :
    Determined (UpTo n DenotesMember) EndsItem := by
  -- from left to right: white space, the key, white space, the colon, the item
  rintro _ _ r r' m m' ⟨hlen, hmember⟩ ⟨hlen', hmember'⟩ hr hr' hs
  obtain ⟨hbefore, hkey, hbetween, hitem⟩ := hmember
  obtain ⟨hbefore', hkey', hbetween', hitem'⟩ := hmember'
  simp only [List.length_append, List.length_cons] at hlen hlen'
  simp only [List.append_assoc, List.cons_append] at hs
  have hquote : isSpace '"' = false := rfl
  have hcolon : isSpace ':' = false := rfl
  obtain ⟨htext⟩ := hkey
  obtain ⟨htext'⟩ := hkey'
  obtain ⟨rfl, hkeys⟩ := gap_eq hbefore hbefore' hquote hquote hs
  obtain ⟨hkey, hbetweens, rfl⟩ := determined_text (.mk htext) (.mk htext') trivial trivial hkeys
  obtain ⟨rfl, hitems⟩ := gap_eq hbetween hbetween' hcolon hcolon hbetweens
  obtain ⟨rfl, rfl, rfl⟩ := h ⟨by omega, hitem⟩ ⟨by omega, hitem'⟩ hr hr' (List.cons.inj hitems).2
  exact ⟨by rw [hkey], rfl, rfl⟩

/-! ## Sequences -/

/-- White space, perhaps, and then what starts like a value. -/
def StartsItem (s : List Char) : Prop :=
  ∃ gap c rest, s = gap ++ c :: rest ∧ IsGap gap ∧ startsValue c = true

theorem DenotesItem.startsItem {s : List Char} {x : Value} (h : DenotesItem s x) :
    StartsItem s := by
  obtain ⟨hbefore, h, -⟩ := h
  obtain ⟨c, rest, rfl, hc⟩ := h.exists_cons
  exact ⟨_, c, _, rfl, hbefore, hc⟩

theorem DenotesMember.startsItem {s : List Char} {m : Str × Value} (h : DenotesMember s m) :
    StartsItem s := by
  obtain ⟨hbefore, ⟨-⟩, -, -⟩ := h
  exact ⟨_, _, _, rfl, hbefore, rfl⟩

/-- No item starts with what ends a sequence. -/
theorem StartsItem.ne_gap_append {s gap : List Char} {close : Char} (h : StartsItem s)
    (hgap : IsGap gap) (hspace : isSpace close = false) (hclose : startsValue close = false)
    (r t : List Char) : s ++ r ≠ gap ++ close :: t := by
  intro hs
  obtain ⟨before, c, rest, rfl, hbefore, hc⟩ := h
  rw [List.append_assoc] at hs
  obtain ⟨-, hs⟩ := gap_eq hbefore hgap (isSpace_eq_false_of_startsValue hc) hspace hs
  rw [(List.cons.inj hs).1, hclose] at hc
  cases hc

section Sequences

variable {P : List Char → α → Prop} {close : Char}

/-- Items are told apart by the commas between them, and end before the closing bracket. -/
theorem determined_sequence (h : Determined P EndsItem)
    (hstart : ∀ {s : List Char} {x : α}, P s x → StartsItem s)
    (hclose : close = ']' ∨ close = '\x7d') :
    Determined (Sequence P) fun r => ∃ t, r = close :: t := by
  have hspace : isSpace close = false := by
    rcases hclose with rfl | rfl <;> decide
  have hvalue : startsValue close = false := by
    rcases hclose with rfl | rfl <;> decide
  have hcomma : close ≠ ',' := by
    rcases hclose with rfl | rfl <;> decide
  have hends : ∀ t, EndsItem (close :: t) := by
    intro t c hc
    obtain rfl := Option.some.inj hc
    exact .inr hclose
  have hcommas : ∀ t, EndsItem (',' :: t) := by
    intro t c hc
    exact .inl (Option.some.inj hc).symm
  rintro s s' r r' xs xs' hs hs' ⟨t, rfl⟩ ⟨t', rfl⟩ heq
  -- on the left one item is taken off after the other; what follows an item tells the last one
  induction hs generalizing s' xs' with
  | empty hgap =>
    cases hs' with
    | empty hgap' =>
      obtain ⟨rfl, hr⟩ := gap_eq hgap hgap' hspace hspace heq
      exact ⟨rfl, hr, rfl⟩
    | last hx' => exact absurd heq.symm ((hstart hx').ne_gap_append hgap hspace hvalue _ _)
    | cons hx' _ _ =>
      rw [List.append_assoc] at heq
      exact absurd heq.symm ((hstart hx').ne_gap_append hgap hspace hvalue _ _)
  | last hx =>
    cases hs' with
    | empty hgap' => exact absurd heq ((hstart hx).ne_gap_append hgap' hspace hvalue _ _)
    | last hx' =>
      obtain ⟨rfl, hr, rfl⟩ := h hx hx' (hends _) (hends _) heq
      exact ⟨rfl, hr, rfl⟩
    | cons hx' _ _ =>
      rw [List.append_assoc] at heq
      obtain ⟨-, hr, -⟩ := h hx hx' (hends _) (hcommas _) heq
      exact absurd (List.cons.inj hr).1 hcomma
  | cons hx _ _ ih =>
    rw [List.append_assoc] at heq
    cases hs' with
    | empty hgap' => exact absurd heq ((hstart hx).ne_gap_append hgap' hspace hvalue _ _)
    | last hx' =>
      obtain ⟨-, hr, -⟩ := h hx hx' (hcommas _) (hends _) heq
      exact absurd (List.cons.inj hr).1.symm hcomma
    | cons hx' hrest' _ =>
      rw [List.append_assoc] at heq
      obtain ⟨rfl, hr, rfl⟩ := h hx hx' (hcommas _) (hcommas _) heq
      obtain ⟨rfl, hr, rfl⟩ := ih hrest' (List.cons.inj hr).2
      exact ⟨rfl, hr, rfl⟩

theorem Sequence.upTo {n : Nat} {s : List Char} {xs : List α} (h : Sequence P s xs)
    (hlen : s.length ≤ n) : Sequence (UpTo n P) s xs := by
  induction h with
  | empty hgap => exact .empty hgap
  | last hx => exact .last ⟨hlen, hx⟩
  | cons hx _ hne ih =>
    rw [List.length_append, List.length_cons] at hlen
    exact .cons ⟨by omega, hx⟩ (ih (by omega)) hne

/-- Brackets with items between them, which are shorter than the whole. -/
theorem brackets_eq {n : Nat} (h : Determined (UpTo (n - 1) P) EndsItem)
    (hstart : ∀ {s : List Char} {x : α}, P s x → StartsItem s)
    (hclose : close = ']' ∨ close = '\x7d') {opening : Char} {s s' r r' : List Char}
    {xs xs' : List α} (hlen : (opening :: (s ++ [close])).length ≤ n)
    (hlen' : (opening :: (s' ++ [close])).length ≤ n) (hxs : Sequence P s xs)
    (hxs' : Sequence P s' xs')
    (heq : opening :: (s ++ [close]) ++ r = opening :: (s' ++ [close]) ++ r') :
    s = s' ∧ r = r' ∧ xs = xs' := by
  simp only [List.length_cons, List.length_append, List.length_nil] at hlen hlen'
  simp only [List.cons_append, List.append_assoc, List.nil_append, List.cons.injEq, true_and] at heq
  obtain ⟨hs, hr, hitems⟩ := determined_sequence h (fun hx => hstart hx.2) hclose
    (hxs.upTo (by omega)) (hxs'.upTo (by omega)) ⟨r, rfl⟩ ⟨r', rfl⟩ heq
  exact ⟨hs, (List.cons.inj hr).2, hitems⟩

end Sequences

/-! ## Texts -/

theorem DenotesWord.ne_cons {s : List Char} {x : Value} (h : DenotesWord s x) {c : Char}
    (hc : isWordPart c = false) (r t : List Char) : s ++ r ≠ c :: t := by
  intro hs
  obtain ⟨d, rest, rfl, hd⟩ := h.exists_cons
  rw [(List.cons.inj hs).1, hc] at hd
  cases hd

theorem determined_denotes (n : Nat) : Determined (UpTo n Denotes) EndsWord := by
  induction n using Nat.strongRecOn with
  | _ n ih =>
    rintro s s' r r' x x' ⟨hlen, h⟩ ⟨hlen', h'⟩ hr hr' hs
    -- the first character shows of which of the four kinds a value is
    cases h with
    | word h =>
      cases h' with
      | word h' => exact determined_word h h' hr hr' hs
      | text h' =>
        obtain ⟨-⟩ := h'
        exact absurd hs (h.ne_cons (by decide) _ _)
      | list _ => exact absurd hs (h.ne_cons (by decide) _ _)
      | object _ _ => exact absurd hs (h.ne_cons (by decide) _ _)
    | text h =>
      cases h' with
      | word h' =>
        obtain ⟨-⟩ := h
        exact absurd hs.symm (h'.ne_cons (by decide) _ _)
      | text h' =>
        obtain ⟨rfl, rfl, rfl⟩ := determined_text h h' trivial trivial hs
        exact ⟨rfl, rfl, rfl⟩
      | list _ =>
        obtain ⟨-⟩ := h
        cases (List.cons.inj hs).1
      | object _ _ =>
        obtain ⟨-⟩ := h
        cases (List.cons.inj hs).1
    | list h =>
      cases h' with
      | word h' => exact absurd hs.symm (h'.ne_cons (by decide) _ _)
      | text h' =>
        obtain ⟨-⟩ := h'
        cases (List.cons.inj hs).1
      | list h' =>
        have hitems := determined_item (ih (n - 1) (Nat.sub_one_lt_of_lt hlen))
        obtain ⟨rfl, hr, rfl⟩ := brackets_eq hitems DenotesItem.startsItem (.inl rfl) hlen hlen' h
          h' hs
        exact ⟨rfl, hr, rfl⟩
      | object _ _ => cases (List.cons.inj hs).1
    | object h _ =>
      cases h' with
      | word h' => exact absurd hs.symm (h'.ne_cons (by decide) _ _)
      | text h' =>
        obtain ⟨-⟩ := h'
        cases (List.cons.inj hs).1
      | list _ => cases (List.cons.inj hs).1
      | object h' _ =>
        have hitems := determined_item (ih (n - 1) (Nat.sub_one_lt_of_lt hlen))
        obtain ⟨rfl, hr, rfl⟩ := brackets_eq (determined_member hitems) DenotesMember.startsItem
          (.inr rfl) hlen hlen' h h' hs
        exact ⟨rfl, hr, rfl⟩

/-- **One value.** A JSON text denotes no two values. -/
theorem IsTextOf.unique {s : List Char} {v w : Value} (hv : IsTextOf s v) (hw : IsTextOf s w) :
    v = w := by
  have hends : EndsItem [] := fun c hc => nomatch hc
  obtain ⟨-, -, hvw⟩ := determined_item (determined_denotes s.length) ⟨Nat.le_refl _, hv⟩
    ⟨Nat.le_refl _, hw⟩ hends hends rfl
  exact hvw

theorem IsTextOf.iff_eq {s : List Char} {v w : Value} (h : IsTextOf s v) :
    IsTextOf s w ↔ w = v := by
  constructor
  · exact fun hw => hw.unique h
  · rintro rfl
    exact h

end ContractAudit.Json.Grammar
