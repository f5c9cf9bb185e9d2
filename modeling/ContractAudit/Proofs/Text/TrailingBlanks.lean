import ContractAudit.Text.Pattern

/-!
# White space at the end of a text

The patterns of the detectors never end in white space, so white space that is added at the end of a
text does not change what they find. This module proves it once for each step that patterns are put
together from; a pattern then ignores trailing white space because its steps do.

A step that reads a run of characters may swallow some of the added white space, or all of it. What
is left is white space in either case, which is why the property speaks of any white space at the
end and not of one added text (`IgnoresTrailing.dropWhile`).

The one step that sees the difference is "some white space": none stands at the end of a text until
it is added. No pattern ends there, and what must follow fails on the empty text
(`IgnoresTrailing.afterSomeBlanks`).

Main results:

* `isWord_of_isBlank`: no white space is a word character.
* `IgnoresTrailing.occurs`: a search ignores trailing white space when its test does.
* `ignoresTrailing_trim`: so does trimming.
-/

namespace ContractAudit.Text

/-- White space at the end of a text does not change what `f` gives. -/
def IgnoresTrailing {α : Type} (f : List Char → α) : Prop :=
  ∀ s w, isAllBlank w = true → f (s ++ w) = f s

/-! ## White space -/

/-- The code points of white space. -/
def blankCodePoints : List Nat :=
  List.range' 0x9 5 ++ List.range' 0x1c 5 ++ [0x85, 0xa0, 0x1680] ++ List.range' 0x2000 11 ++
    [0x2028, 0x2029, 0x202f, 0x205f, 0x3000]

theorem mem_blankCodePoints {c : Char} (h : isBlank c = true) : c.toNat ∈ blankCodePoints := by
  simp only [isBlank, Bool.or_eq_true, Bool.and_eq_true, decide_eq_true_eq, beq_iff_eq] at h
  simp only [blankCodePoints, List.mem_append, List.mem_range'_1, List.mem_cons, List.not_mem_nil,
    or_false]
  omega

/-- What holds of every white space is checked code point by code point. -/
theorem of_isBlank {p : Char → Prop} (hall : ∀ n ∈ blankCodePoints, p (Char.ofNat n)) {c : Char}
    (h : isBlank c = true) : p c := by
  have hc := hall c.toNat (mem_blankCodePoints h)
  rwa [Char.ofNat_toNat] at hc

theorem isWord_of_isBlank {c : Char} (h : isBlank c = true) : isWord c = false :=
  of_isBlank (p := fun c => isWord c = false) (by decide +kernel) h

theorem ne_of_isBlank {c d : Char} (h : isBlank c = true) (hd : isBlank d = false) : c ≠ d := by
  rintro rfl
  rw [h] at hd
  cases hd

theorem isAllBlank_cons {c : Char} {w : List Char} :
    isAllBlank (c :: w) = true ↔ isBlank c = true ∧ isAllBlank w = true := by
  rw [isAllBlank, List.all_cons, Bool.and_eq_true, isAllBlank]

/-- A text of white space does not hold any other character. -/
theorem not_mem_of_isAllBlank {w : List Char} (hw : isAllBlank w = true) {c : Char}
    (hc : isBlank c = false) : c ∉ w := by
  intro hmem
  have hblank := List.all_eq_true.1 hw c hmem
  rw [hblank] at hc
  cases hc

/-! ## Steps -/

/-- A literal does not go on into a text that starts with none of its characters. -/
theorem afterChars?_append {literal w : List Char} (hw : ∀ c ∈ w.head?, c ∉ literal)
    (s : List Char) : afterChars? literal (s ++ w) = (afterChars? literal s).map (· ++ w) := by
  fun_induction afterChars? literal s with
  | case1 s => rw [afterChars?]; rfl
  | case2 c literal s ih =>
    rw [List.cons_append, afterChars?, if_pos rfl]
    exact ih fun d hd hmem => hw d hd (List.mem_cons_of_mem _ hmem)
  | case3 a literal c s hne => rw [List.cons_append, afterChars?, if_neg hne]; rfl
  | case4 a literal =>
    cases w with
    | nil => rfl
    | cons c w =>
      have hne : a ≠ c := fun h => hw c rfl (h ▸ List.mem_cons_self)
      rw [List.nil_append, afterChars?, if_neg hne]
      rfl

/-- A literal without white space. -/
def isSolid (literal : String) : Bool :=
  literal.toList.all fun c => !isBlank c

theorem not_isBlank_of_mem {literal : String} (hl : isSolid literal = true) {c : Char}
    (hc : c ∈ literal.toList) : isBlank c = false := by
  have hsolid := List.all_eq_true.1 hl c hc
  rwa [Bool.not_eq_true'] at hsolid

theorem after?_append {literal : String} (hl : isSolid literal = true) (s : List Char)
    {w : List Char} (hw : isAllBlank w = true) :
    after? literal (s ++ w) = (after? literal s).map (· ++ w) := by
  refine afterChars?_append (fun c hc hmem => ?_) s
  exact ne_of_isBlank (List.all_eq_true.1 hw c (List.mem_of_mem_head? hc))
    (not_isBlank_of_mem hl hmem) rfl

/-- After a run of characters, white space is still all that was added. -/
theorem exists_dropWhile_append (p : Char → Bool) (s : List Char) {w : List Char}
    (hw : isAllBlank w = true) :
    ∃ u, isAllBlank u = true ∧ (s ++ w).dropWhile p = s.dropWhile p ++ u := by
  rw [List.dropWhile_append]
  split
  · -- the run goes on into the white space
    rename_i hempty
    refine ⟨w.dropWhile p, ?_, ?_⟩
    · exact List.all_eq_true.2 fun c hc =>
        List.all_eq_true.1 hw c ((List.dropWhile_suffix p).subset hc)
    · rw [List.isEmpty_iff.1 hempty, List.nil_append]
  · exact ⟨w, hw, rfl⟩

/-! ## Chains of steps -/

theorem any_eq_elim {α : Type} (o : Option α) (test : α → Bool) :
    o.any test = o.elim false test := by
  cases o <;> rfl

theorem elim_bind {α β γ : Type} (o : Option α) (step : α → Option β) (otherwise : γ) (f : β → γ) :
    (o.bind step).elim otherwise f = o.elim otherwise fun a => (step a).elim otherwise f := by
  cases o <;> rfl

namespace IgnoresTrailing

variable {α : Type} {f : List Char → α} {test q : List Char → Bool} {p : Char → Bool}

theorem const (a : α) : IgnoresTrailing fun _ => a :=
  fun _ _ _ => rfl

theorem of_eq {g : List Char → α} (hf : IgnoresTrailing f) (h : ∀ s, g s = f s) :
    IgnoresTrailing g :=
  fun s w hw => by rw [h, h, hf s w hw]

/-- On white space alone `f` gives what it gives on the empty text. -/
theorem of_isAllBlank (hf : IgnoresTrailing f) {w : List Char} (hw : isAllBlank w = true) :
    f w = f [] :=
  hf [] w hw

theorem dropWhile (hf : IgnoresTrailing f) (p : Char → Bool) :
    IgnoresTrailing fun s => f (s.dropWhile p) := by
  intro s w hw
  obtain ⟨u, hu, h⟩ := exists_dropWhile_append p s hw
  show f ((s ++ w).dropWhile p) = f (s.dropWhile p)
  rw [h, hf _ u hu]

theorem afterBlanks (hf : IgnoresTrailing f) : IgnoresTrailing fun s => f (afterBlanks s) :=
  hf.dropWhile isBlank

theorem after {g : List Char → α} (literal : String) (hl : isSolid literal = true)
    (hf : IgnoresTrailing f) (hg : IgnoresTrailing g) :
    IgnoresTrailing fun s => (after? literal s).elim (g s) f := by
  intro s w hw
  show (after? literal (s ++ w)).elim (g (s ++ w)) f = (after? literal s).elim (g s) f
  rw [after?_append hl s hw, hg s w hw]
  cases after? literal s with
  | none => rfl
  | some rest => exact hf rest w hw

theorem afterSomeBlanks (hf : IgnoresTrailing f) :
    IgnoresTrailing fun s => (afterSomeBlanks? s).elim (f []) f := by
  intro s w hw
  cases s with
  | nil =>
    -- the added white space is read as such, and then nothing is left
    cases w with
    | nil => rfl
    | cons c w =>
      obtain ⟨hc, hw⟩ := isAllBlank_cons.1 hw
      show (afterSomeBlanks? (c :: w)).elim (f []) f = f []
      rw [afterSomeBlanks?, if_pos hc]
      exact hf.afterBlanks.of_isAllBlank hw
  | cons c s =>
    show (afterSomeBlanks? (c :: (s ++ w))).elim (f []) f =
      (afterSomeBlanks? (c :: s)).elim (f []) f
    rw [afterSomeBlanks?, afterSomeBlanks?]
    split
    · exact hf.afterBlanks s w hw
    · rfl

/-- A test on the first character and on the text after it. -/
theorem cons (hnil : test [] = false) (hcons : ∀ c s, test (c :: s) = (p c && q s))
    (hp : ∀ c, isBlank c = true → p c = false) (hq : IgnoresTrailing q) :
    IgnoresTrailing test := by
  intro s w hw
  cases s with
  | nil =>
    cases w with
    | nil => rfl
    | cons c w =>
      rw [List.nil_append, hcons, hp c (isAllBlank_cons.1 hw).1, hnil, Bool.false_and]
  | cons c s => rw [List.cons_append, hcons, hcons, hq s w hw]

theorem head (hp : ∀ c, isBlank c = true → p c = false) :
    IgnoresTrailing fun s => s.head?.any p := by
  refine cons (p := p) (q := fun _ => true) rfl (fun c s => ?_) hp (const true)
  rw [Bool.and_true]
  rfl

theorem afterSomeWord (ht : IgnoresTrailing test) :
    IgnoresTrailing fun s => (afterSomeWord? s).elim false test := by
  refine cons (p := isWord) (q := fun s => test (s.dropWhile isWord)) rfl (fun c s => ?_)
    (fun c => isWord_of_isBlank) (ht.dropWhile isWord)
  rw [afterSomeWord?]
  cases isWord c <;> rfl

theorem map {β : Type} (hf : IgnoresTrailing f) (g : α → β) : IgnoresTrailing fun s => g (f s) :=
  fun s w hw => congrArg g (hf s w hw)

theorem combine {β γ : Type} {g : List Char → β} (hf : IgnoresTrailing f)
    (hg : IgnoresTrailing g) (op : α → β → γ) : IgnoresTrailing fun s => op (f s) (g s) := by
  intro s w hw
  show op (f (s ++ w)) (g (s ++ w)) = op (f s) (g s)
  rw [hf s w hw, hg s w hw]

/-- No rest of the text that starts in the added white space passes the test. -/
theorem occurs (ht : IgnoresTrailing test) : IgnoresTrailing (occurs test) := by
  intro s w hw
  induction s with
  | nil =>
    rw [List.nil_append]
    induction w with
    | nil => rfl
    | cons c w ih =>
      show (test (c :: w) || Text.occurs test w) = test []
      rw [ht.of_isAllBlank hw, ih (isAllBlank_cons.1 hw).2]
      exact Bool.or_self _
  | cons c s ih =>
    have htest : test (c :: (s ++ w)) = test (c :: s) := ht (c :: s) w hw
    rw [List.cons_append, Text.occurs, Text.occurs, htest, ih]

end IgnoresTrailing

/-! ## Tests -/

theorem ignoresTrailing_startsWith (literal : String) (hl : isSolid literal = true) :
    IgnoresTrailing (startsWith literal) := by
  intro s w hw
  rw [startsWith, startsWith, after?_append hl s hw, Option.isSome_map]

theorem ignoresTrailing_mentions (literal : String) (hl : isSolid literal = true) :
    IgnoresTrailing (mentions literal) :=
  (ignoresTrailing_startsWith literal hl).occurs

theorem ignoresTrailing_contains {c : Char} (hc : isBlank c = false) :
    IgnoresTrailing fun s => s.contains c := by
  intro s w hw
  show (s ++ w).contains c = s.contains c
  rw [Bool.eq_iff_iff, List.contains_iff_mem, List.contains_iff_mem, List.mem_append]
  constructor
  · exact fun h => h.resolve_right (not_mem_of_isAllBlank hw hc)
  · exact Or.inl

theorem ignoresTrailing_startsAssignment : IgnoresTrailing startsAssignment := by
  refine .cons (p := (· == '=')) (q := fun s => !s.head?.any (· == '=')) rfl ?_ ?_ ?_
  · intro c s
    by_cases hc : c = '='
    · subst hc
      cases s <;> rfl
    · rw [startsAssignment, beq_eq_false_iff_ne.2 hc, Bool.false_and]
      exact fun rest h => hc (List.cons.inj h).1
  · intro c hc
    exact beq_eq_false_iff_ne.2 (ne_of_isBlank hc rfl)
  · exact (IgnoresTrailing.head fun c hc => beq_eq_false_iff_ne.2 (ne_of_isBlank hc rfl)).map (! ·)

/-! ## Trimming -/

theorem ignoresTrailing_trimEnd : IgnoresTrailing trimEnd := by
  intro s w hw
  have hreverse : ∀ c ∈ w.reverse, isBlank c = true := fun c hc =>
    List.all_eq_true.1 hw c (List.mem_reverse.1 hc)
  rw [trimEnd, trimEnd, dropEnd, dropEnd, List.reverse_append,
    List.dropWhile_append_of_pos hreverse]

theorem ignoresTrailing_trim : IgnoresTrailing trim :=
  ignoresTrailing_trimEnd.dropWhile isBlank

end ContractAudit.Text
