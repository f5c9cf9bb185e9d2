import ContractAudit.ContractName
import ContractAudit.Proofs.Source.AlikeText
import ContractAudit.Proofs.Text.Ascii
import ContractAudit.Proofs.Text.Runs

/-!
# Names of contracts and what follows them

A name ends where its word characters do, so a character of another kind ends it, and what stands
behind this character does not matter. The one exception is white space right after the keyword,
which the name may still follow (`declaredName?_append_of_stops`).

White space at the end of a line is such an end: a keyword with white space alone after it declares
nothing, and the line declares the same name whatever white space stands at its end.

The slashes of a line comment are another one. So it does not matter for a declaration whether the
line is cut at `//` before or after the declaration is read, and the search of the cut line is a
search over the places of the whole line, with some of them left out (`nameInLine?_eq_findSome?`).

Main results: `declaredName?_append_of_stops`, `ignoresTrailing_nameInLine?`, and
`nameInLine?_congr`, by which lines are compared place by place.
-/

namespace ContractAudit

open Text

/-! ## The end of a name -/

/-- The name at the start of a text, after its keyword and white space. -/
def nameAt? : List Char → Option (List Char)
  | c :: rest => if startsIdentifier c then some (c :: rest.takeWhile isWord) else none
  | [] => none

theorem declaredName?_eq (s : List Char) :
    declaredName? s = ((afterKeyword? s).bind afterSomeBlanks?).bind nameAt? := by
  rw [declaredName?]
  rcases (afterKeyword? s).bind afterSomeBlanks? with _ | _ | ⟨c, rest⟩ <;> rfl

theorem toNat_lt_of_startsIdentifier {c : Char} (h : startsIdentifier c = true) :
    c.toNat < 0x80 := by
  rcases Bool.or_eq_true_iff.1 h with hletter | hunderscore
  · exact toNat_lt_of_isAlpha hletter
  · rw [eq_of_beq hunderscore]
    decide

theorem isWord_of_startsIdentifier {c : Char} (h : startsIdentifier c = true) :
    isWord c = true := by
  have hword : (c.isAlpha || c.isDigit || c == '_') = true := by
    rcases Bool.or_eq_true_iff.1 h with hletter | hunderscore
    · rw [hletter, Bool.true_or, Bool.true_or]
    · rw [hunderscore, Bool.or_true]
  unfold isWord
  rw [if_pos (toNat_lt_of_startsIdentifier h)]
  exact hword

theorem nameAt?_append {d : Char} (hd : isWord d = false) (s t : List Char) :
    nameAt? (s ++ d :: t) = nameAt? s := by
  cases s with
  | nil =>
    -- what ends a name does not start one
    have hstart : ¬startsIdentifier d = true := fun h => by
      rw [isWord_of_startsIdentifier h] at hd
      cases hd
    rw [List.nil_append, nameAt?, if_neg hstart]
    rfl
  | cons c s =>
    have hname : (s ++ d :: t).takeWhile isWord = s.takeWhile isWord := by
      rw [List.takeWhile_append, List.takeWhile_cons_of_neg (by simp [hd]), List.append_nil]
      split
      · rename_i hall
        exact ((List.takeWhile_prefix isWord).eq_of_length hall).symm
      · rfl
    rw [List.cons_append, nameAt?, nameAt?, hname]

theorem ignoresTrailing_nameAt? : IgnoresTrailing nameAt? := by
  intro s w hw
  cases w with
  | nil => rw [List.append_nil]
  | cons d w => exact nameAt?_append (isWord_of_isBlank (isAllBlank_cons.1 hw).1) s w

/-- A keyword ends where its letters do. -/
theorem afterKeyword?_append {d : Char} (hd : isWord d = false) (s t : List Char) :
    afterKeyword? (s ++ d :: t) = (afterKeyword? s).map (· ++ d :: t) := by
  have hkeyword : ∀ keyword : String, keyword.toList.all isWord = true →
      after? keyword (s ++ d :: t) = (after? keyword s).map (· ++ d :: t) := by
    intro keyword hall
    refine afterChars?_append (fun c hc hmem => ?_) s
    obtain rfl : d = c := Option.some.inj hc
    rw [List.all_eq_true.1 hall d hmem] at hd
    cases hd
  unfold afterKeyword?
  rw [hkeyword "contract" (by decide), hkeyword "interface" (by decide),
    hkeyword "library" (by decide)]
  cases after? "contract" s with
  | some rest => rfl
  | none => cases after? "interface" s <;> rfl

/-- The name behind a keyword ends at the same character, unless this is white space and the name is
still to come. -/
theorem afterSomeBlanks?_bind_nameAt?_append {d : Char} (hd : isWord d = false) {r : List Char}
    (hr : isBlank d = true → isAllBlank r = false) (t : List Char) :
    (afterSomeBlanks? (r ++ d :: t)).bind nameAt? = (afterSomeBlanks? r).bind nameAt? := by
  cases r with
  | nil =>
    have hblank : ¬isBlank d = true := fun h => by simpa [isAllBlank] using hr h
    rw [List.nil_append, afterSomeBlanks?, if_neg hblank]
    rfl
  | cons e r =>
    rw [List.cons_append, afterSomeBlanks?, afterSomeBlanks?]
    split
    · rename_i he
      -- the white space behind the keyword is over before `d` is reached
      have hrest : afterBlanks (r ++ d :: t) = afterBlanks r ++ d :: t := by
        obtain ⟨blanks, hblanks, hsplit⟩ := exists_append_afterBlanks r
        have hstops : ∀ c ∈ (afterBlanks r ++ d :: t).head?, isBlank c = false := by
          rw [List.head?_append]
          intro c hc
          cases hafter : (afterBlanks r).head? with
          | some f =>
            rw [hafter] at hc
            exact not_isBlank_of_mem_head?_afterBlanks (hafter.trans hc)
          | none =>
            -- all of `r` is white space, so `d` is none
            rw [hafter] at hc
            rw [List.head?_eq_none_iff.1 hafter, List.append_nil] at hsplit
            obtain rfl : d = c := Option.some.inj hc
            have hall : isAllBlank (e :: r) = true := isAllBlank_cons.2 ⟨he, hsplit ▸ hblanks⟩
            refine Bool.eq_false_iff.2 fun hblank => ?_
            rw [hr hblank] at hall
            cases hall
        have hsame := afterBlanks_append hblanks hstops
        rwa [← List.append_assoc, ← hsplit] at hsame
      rw [hrest]
      exact nameAt?_append hd _ t
    · rfl

theorem declaredName?_append_of_stops {d : Char} (hd : isWord d = false) {s : List Char}
    (hs : isBlank d = true → ∀ r, afterKeyword? s = some r → isAllBlank r = false) (t : List Char) :
    declaredName? (s ++ d :: t) = declaredName? s := by
  rw [declaredName?_eq, declaredName?_eq, afterKeyword?_append hd]
  cases hr : afterKeyword? s with
  | none => rfl
  | some r => exact afterSomeBlanks?_bind_nameAt?_append hd (fun hblank => hs hblank r hr) t

theorem declaredName?_append_slash (s t : List Char) :
    declaredName? (s ++ '/' :: t) = declaredName? s :=
  declaredName?_append_of_stops (by decide) (fun h => by cases h) t

/-- A declaration starts with the first letter of its keyword. -/
theorem exists_cons_of_declaredName? {s name : List Char} (h : declaredName? s = some name) :
    ∃ c rest, s = c :: rest ∧ isWord c = true := by
  cases s with
  | nil => cases h
  | cons c rest =>
    cases hc : isWord c with
    | true => exact ⟨c, rest, rfl, hc⟩
    | false =>
      have hnil : ∀ r, afterKeyword? [] = some r → isAllBlank r = false := fun r hr => by cases hr
      have hnone := declaredName?_append_of_stops hc (fun _ => hnil) rest
      rw [List.nil_append, h] at hnone
      cases hnone

/-! ## White space at the end -/

theorem ignoresTrailing_declaredName? : IgnoresTrailing declaredName? := by
  -- each keyword is tried where the one before it does not fit
  have hname := ignoresTrailing_nameAt?.afterSomeBlanks
  have hlibrary := hname.after "library" rfl (.const none)
  have hinterface := hname.after "interface" rfl hlibrary
  refine (hname.after "contract" rfl hinterface).of_eq fun s => ?_
  have hrest : ∀ rest, (afterSomeBlanks? rest).bind nameAt? =
      (afterSomeBlanks? rest).elim (nameAt? []) nameAt? := fun rest => by
    cases afterSomeBlanks? rest <;> rfl
  rw [declaredName?_eq, afterKeyword?]
  cases after? "contract" s with
  | some rest => exact hrest rest
  | none =>
    cases after? "interface" s with
    | some rest => exact hrest rest
    | none =>
      cases after? "library" s with
      | some rest => exact hrest rest
      | none => rfl

theorem ignoresTrailing_firstNameFrom? (insideWord : Bool) :
    IgnoresTrailing (firstNameFrom? insideWord) := by
  intro s w hw
  induction s generalizing insideWord with
  | nil =>
    -- white space alone declares nothing
    rw [List.nil_append]
    induction w generalizing insideWord with
    | nil => rfl
    | cons c w ih =>
      have hnone : declaredName? (c :: w) = none := ignoresTrailing_declaredName?.of_isAllBlank hw
      rw [firstNameFrom?.eq_2, hnone, ite_self]
      exact ih (isAllBlank_cons.1 hw).2 (isWord c)
  | cons c s ih =>
    have hdeclared : declaredName? (c :: (s ++ w)) = declaredName? (c :: s) :=
      ignoresTrailing_declaredName? (c :: s) w hw
    rw [List.cons_append, firstNameFrom?, firstNameFrom?, hdeclared, ih]

theorem ignoresTrailing_nameInLine? : IgnoresTrailing nameInLine? := by
  intro s w hw
  obtain ⟨u, hu, hcode⟩ := exists_beforeLineComment_append s hw
  rw [nameInLine?, nameInLine?, ignoresTrailing_isCommentLine s w hw, hcode,
    ignoresTrailing_firstNameFrom? false _ u hu]

/-! ## The search for a name -/

theorem eq_beforeLineComment_or_exists (text : List Char) :
    text = beforeLineComment text ∨
      ∃ rest, text = beforeLineComment text ++ '/' :: '/' :: rest := by
  induction text with
  | nil => exact Or.inl rfl
  | cons c text ih =>
    rw [beforeLineComment_cons]
    split
    · rename_i hcut
      obtain ⟨rfl, hhead⟩ := hcut
      obtain ⟨rest, rfl⟩ := List.head?_eq_some_iff.1 hhead
      exact Or.inr ⟨rest, rfl⟩
    · rcases ih with h | ⟨rest, h⟩
      · exact Or.inl (congrArg (c :: ·) h)
      · exact Or.inr ⟨rest, congrArg (c :: ·) h⟩

theorem declaredName?_beforeLineComment (text : List Char) :
    declaredName? (beforeLineComment text) = declaredName? text := by
  rcases eq_beforeLineComment_or_exists text with h | ⟨rest, h⟩
  · rw [← h]
  · have hslash := declaredName?_append_slash (beforeLineComment text) ('/' :: rest)
    rw [← h] at hslash
    exact hslash.symm

theorem mentions_slashes_cons {c : Char} {text : List Char}
    (h : ¬(c = '/' ∧ text.head? = some '/')) :
    mentions "//" (c :: text) = mentions "//" text := by
  rw [Bool.eq_iff_iff, mentions_iff, mentions_iff]
  show ['/', '/'] <:+: c :: text ↔ ['/', '/'] <:+: text
  rw [List.infix_cons_iff]
  constructor
  · rintro (⟨tail, htail⟩ | htext)
    · obtain ⟨rfl, rfl⟩ := List.cons.inj htail
      exact absurd ⟨rfl, rfl⟩ h
    · exact htext
  · exact Or.inr

/-- Whether a word may go on behind the text. -/
def endsInWord (text : List Char) : Bool :=
  text.getLast?.any isWord

/-- The name that is declared at a place of the text, where `done` stands before the text. Behind
`//` and inside of a word there is none. -/
def nameAtPlace? (done text : List Char) (i : Nat) : Option (List Char) :=
  if mentions "//" (text.take i) || endsInWord (done ++ text.take i) then none
  else declaredName? (text.drop i)

theorem nameAtPlace?_zero (done text : List Char) :
    nameAtPlace? done text 0 = if endsInWord done then none else declaredName? text := by
  unfold nameAtPlace?
  rw [List.take_zero, List.append_nil]
  rfl

theorem nameAtPlace?_succ {c : Char} {text : List Char} (h : ¬(c = '/' ∧ text.head? = some '/'))
    (done : List Char) (i : Nat) :
    nameAtPlace? done (c :: text) (i + 1) = nameAtPlace? (done ++ [c]) text i := by
  have hslashes : mentions "//" (c :: text.take i) = mentions "//" (text.take i) := by
    refine mentions_slashes_cons fun hcut => h ⟨hcut.1, ?_⟩
    rw [List.head?_take] at hcut
    split at hcut
    · cases hcut.2
    · exact hcut.2
  unfold nameAtPlace?
  rw [List.take_succ_cons, List.drop_succ_cons, hslashes, List.append_cons]

theorem nameAtPlace?_of_not_isWord {done text : List Char} {i : Nat}
    (h : ∀ c ∈ (text.drop i).head?, isWord c = false) : nameAtPlace? done text i = none := by
  have hnone : declaredName? (text.drop i) = none := by
    refine Option.eq_none_iff_forall_ne_some.2 fun name hname => ?_
    obtain ⟨c, rest, hdrop, hc⟩ := exists_cons_of_declaredName? hname
    rw [h c (by rw [hdrop]; rfl)] at hc
    cases hc
  unfold nameAtPlace?
  rw [hnone, ite_self]

/-- The search, place by place. -/
theorem firstNameFrom?_eq_findSome? (done text : List Char) {n : Nat} (hn : text.length ≤ n) :
    firstNameFrom? (endsInWord done) (beforeLineComment text) =
      (List.range n).findSome? (nameAtPlace? done text) := by
  induction text generalizing done n with
  | nil =>
    refine (List.findSome?_eq_none_iff.2 fun i _ => ?_).symm
    exact nameAtPlace?_of_not_isWord (by simp)
  | cons c text ih =>
    obtain ⟨n, rfl⟩ : ∃ m, n = m + 1 := ⟨n - 1, by rw [List.length_cons] at hn; omega⟩
    rw [beforeLineComment_cons]
    -- the line is cut here, or the search goes on to the next place
    split
    · -- the two slashes declare nothing, and they stand before every place behind them
      rename_i hcut
      obtain ⟨rfl, hhead⟩ := hcut
      obtain ⟨rest, rfl⟩ := List.head?_eq_some_iff.1 hhead
      refine (List.findSome?_eq_none_iff.2 fun i _ => ?_).symm
      match i with
      | 0 => exact nameAtPlace?_of_not_isWord (by simp; decide)
      | 1 => exact nameAtPlace?_of_not_isWord (by simp; decide)
      | i + 2 =>
        have hslashes : mentions "//" (('/' :: '/' :: rest).take (i + 2)) = true :=
          mentions_iff.2 (List.prefix_append _ (rest.take i)).isInfix
        rw [nameAtPlace?, hslashes]
        rfl
    · rename_i hcut
      have hword : endsInWord (done ++ [c]) = isWord c := by simp [endsInWord]
      have hhere : declaredName? (c :: beforeLineComment text) = declaredName? (c :: text) := by
        have hcons := declaredName?_beforeLineComment (c :: text)
        rwa [beforeLineComment_cons, if_neg hcut] at hcons
      -- seen from the next place on, the character belongs to what is done
      have hbehind : nameAtPlace? done (c :: text) ∘ Nat.succ = nameAtPlace? (done ++ [c]) text :=
        funext fun i => nameAtPlace?_succ hcut done i
      rw [firstNameFrom?, hhere, ← hword, ih (done ++ [c]) (Nat.le_of_succ_le_succ hn),
        List.range_succ_eq_map, List.findSome?_cons, List.findSome?_map, hbehind,
        nameAtPlace?_zero]
      cases (if endsInWord done then none else declaredName? (c :: text)) <;> rfl

/-- A declaration of `name` stands at a place of the text. -/
structure DeclaresAt (text : List Char) (i : Nat) (name : List Char) : Prop where
  starts : endsInWord (text.take i) = false
  declared : declaredName? (text.drop i) = some name

/-- The search for a name comes to this place of the line: no `//` stands before it, and the line is
no comment line. -/
structure IsSearched (text : List Char) (i : Nat) : Prop where
  line : isCommentLine text = false
  before : mentions "//" (text.take i) = false

/-- The name that a line declares at a place that is searched. -/
def nameSeenAt? (text : List Char) (i : Nat) : Option (List Char) :=
  if isCommentLine text then none else nameAtPlace? [] text i

theorem nameSeenAt?_eq_some_iff {text : List Char} {i : Nat} {name : List Char} :
    nameSeenAt? text i = some name ↔ IsSearched text i ∧ DeclaresAt text i name := by
  unfold nameSeenAt? nameAtPlace?
  rw [List.nil_append]
  constructor
  · intro h
    split at h
    · cases h
    rename_i hline
    split at h
    · cases h
    rename_i hplace
    rw [Bool.or_eq_true, not_or, Bool.not_eq_true, Bool.not_eq_true] at hplace
    exact ⟨⟨Bool.not_eq_true _ ▸ hline, hplace.1⟩, hplace.2, h⟩
  · rintro ⟨⟨hline, hbefore⟩, hstarts, hdeclared⟩
    rw [hline, hbefore, hstarts]
    exact hdeclared

theorem nameInLine?_eq_findSome? {text : List Char} {n : Nat} (hn : text.length ≤ n) :
    nameInLine? text = (List.range n).findSome? (nameSeenAt? text) := by
  unfold nameInLine? nameSeenAt?
  split
  · exact (List.findSome?_eq_none_iff.2 fun i _ => rfl).symm
  · exact firstNameFrom?_eq_findSome? [] text hn

/-- Two lines declare the same name if they declare the same ones where they are searched. -/
theorem nameInLine?_congr {s t : List Char}
    (h : ∀ i name, IsSearched s i ∧ DeclaresAt s i name ↔ IsSearched t i ∧ DeclaresAt t i name) :
    nameInLine? s = nameInLine? t := by
  have hplaces : nameSeenAt? s = nameSeenAt? t := by
    funext i
    refine Option.ext fun name => ?_
    rw [nameSeenAt?_eq_some_iff, nameSeenAt?_eq_some_iff]
    exact h i name
  rw [nameInLine?_eq_findSome? (Nat.le_max_left s.length t.length),
    nameInLine?_eq_findSome? (Nat.le_max_right s.length t.length), hplaces]

end ContractAudit
