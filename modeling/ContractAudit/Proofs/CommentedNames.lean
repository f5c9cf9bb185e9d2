import ContractAudit.Proofs.ContractName
import ContractAudit.Proofs.Source.CommentKinds

/-!
# Names of contracts and comments

The search for a name goes line by line. It skips the lines that start with the mark of a comment
and cuts the others at `//`. This module compares it with a search of the source whose comments are
blanked, as they are found by one reading of the whole source.

* **Line comments** play no part. Whatever stands from the first `//` of a line on is cut or skipped
  (`nameInLine?_append_slashes`), and where the reading finds a line comment, there is a `//`.
* **Block comments** are seen by the start of their lines only. A name that stands in one is taken
  from a line that starts otherwise, and code that shares its line with one may be skipped. A line
  declares clearly (`DeclaresClearly`) if no declaration of it is in such a place. The usual layout,
  in which every line of a block comment starts with `/*` or `*` and holds no code, is of this kind.
  What follows the first line with a name is not searched and may be laid out in any way.

The comparison is made place by place. At a place of code the rest of the line is read as if nothing
came before, so what is declared there differs only by the blanks that are put for the comments
behind it (`declaredName?_blanked_of_some`, `declaredName?_of_blanked`).

Main result: `contractName?_blankComments`.
-/

namespace ContractAudit

open Text

/-! ## Line comments -/

/-- A comment line is told by its first two characters after white space. -/
theorem isCommentLine_iff_of_dropWhile {text rest : List Char} {c : Char}
    (h : text.dropWhile isBlank = c :: rest) :
    isCommentLine text = true ↔
      c = '*' ∨ c = '/' ∧ (rest.head? = some '/' ∨ rest.head? = some '*') := by
  have hhead : ∀ d, [d] <+: rest ↔ rest.head? = some d := by
    intro d
    cases rest with
    | nil => simp
    | cons e rest => simp [List.cons_prefix_cons, eq_comm]
  unfold isCommentLine
  simp only [h, Bool.or_eq_true, startsWith_iff]
  show (['/', '/'] <+: c :: rest ∨ ['/', '*'] <+: c :: rest) ∨ ['*'] <+: c :: rest ↔ _
  rw [List.cons_prefix_cons, List.cons_prefix_cons, List.cons_prefix_cons, hhead, hhead,
    ← and_or_left, or_comm, eq_comm, and_iff_left List.nil_prefix, eq_comm (a := '/')]

/-- A line with a word character before `//` is as much a comment line as without what stands from
`//` on. -/
theorem isCommentLine_append_slashes {s : List Char} {c : Char} (hmem : c ∈ s)
    (hc : isWord c = true) (m : List Char) :
    isCommentLine (s ++ '/' :: '/' :: m) = isCommentLine s := by
  have hstart : c ∈ s.dropWhile isBlank := by
    have hsplit : c ∈ s.takeWhile isBlank ++ s.dropWhile isBlank := by
      rwa [List.takeWhile_append_dropWhile]
    refine (List.mem_append.1 hsplit).resolve_left fun hblank => ?_
    rw [isWord_of_isBlank (List.all_eq_true.1 List.all_takeWhile c hblank)] at hc
    cases hc
  obtain ⟨d, rest, hdrop⟩ := List.exists_cons_of_ne_nil (List.ne_nil_of_mem hstart)
  have hdrop' : (s ++ '/' :: '/' :: m).dropWhile isBlank = d :: (rest ++ '/' :: '/' :: m) := by
    rw [List.dropWhile_append, hdrop]
    rfl
  rw [Bool.eq_iff_iff, isCommentLine_iff_of_dropWhile hdrop, isCommentLine_iff_of_dropWhile hdrop']
  cases rest with
  | nil =>
    -- the word character stands alone, and no mark starts with it
    rw [hdrop, List.mem_singleton] at hstart
    subst hstart
    have hstar : c ≠ '*' := fun h => by subst h; cases hc
    have hslash : c ≠ '/' := fun h => by subst h; cases hc
    simp [hstar, hslash]
  | cons e rest => rfl

theorem declaresAt_append_slashes {s : List Char} {i : Nat} (hi : i ≤ s.length)
    (m name : List Char) :
    DeclaresAt (s ++ '/' :: '/' :: m) i name ↔ DeclaresAt s i name := by
  have htake : (s ++ '/' :: '/' :: m).take i = s.take i := List.take_append_of_le_length hi
  have hdrop : (s ++ '/' :: '/' :: m).drop i = s.drop i ++ '/' :: '/' :: m :=
    List.drop_append_of_le_length hi
  constructor
  · rintro ⟨hstarts, hdeclared⟩
    rw [htake] at hstarts
    rw [hdrop, declaredName?_append_slash] at hdeclared
    exact ⟨hstarts, hdeclared⟩
  · rintro ⟨hstarts, hdeclared⟩
    refine ⟨?_, ?_⟩
    · rwa [htake]
    · rwa [hdrop, declaredName?_append_slash]

theorem isSearched_append_slashes {s : List Char} {i : Nat} (hi : i ≤ s.length) {c : Char}
    (hmem : c ∈ s) (hc : isWord c = true) (m : List Char) :
    IsSearched (s ++ '/' :: '/' :: m) i ↔ IsSearched s i := by
  have htake : (s ++ '/' :: '/' :: m).take i = s.take i := List.take_append_of_le_length hi
  have hline := isCommentLine_append_slashes hmem hc m
  constructor
  · rintro ⟨hcode, hbefore⟩
    exact ⟨hline ▸ hcode, htake ▸ hbefore⟩
  · rintro ⟨hcode, hbefore⟩
    exact ⟨hline ▸ hcode, htake ▸ hbefore⟩

theorem lt_length_of_append_slashes {s m : List Char} {i : Nat} {name : List Char}
    (hsearched : IsSearched (s ++ '/' :: '/' :: m) i)
    (h : DeclaresAt (s ++ '/' :: '/' :: m) i name) : i < s.length := by
  refine Nat.lt_of_not_le fun hle => ?_
  obtain ⟨j, rfl⟩ := Nat.exists_eq_add_of_le hle
  obtain ⟨c, rest, hdrop, hc⟩ := exists_cons_of_declaredName? h.declared
  rw [List.drop_length_add_append] at hdrop
  -- the slashes start no declaration, and the places behind them are not searched
  match j with
  | 0 =>
    obtain rfl : '/' = c := (List.cons.inj hdrop).1
    cases hc
  | 1 =>
    obtain rfl : '/' = c := (List.cons.inj hdrop).1
    cases hc
  | j + 2 =>
    have hslashes : mentions "//" ((s ++ '/' :: '/' :: m).take (s.length + (j + 2))) = true := by
      rw [List.take_length_add_append, mentions_iff]
      exact ⟨s, m.take j, by simp⟩
    rw [hsearched.before] at hslashes
    cases hslashes

theorem DeclaresAt.lt_length {text : List Char} {i : Nat} {name : List Char}
    (h : DeclaresAt text i name) : i < text.length := by
  obtain ⟨c, rest, hdrop, -⟩ := exists_cons_of_declaredName? h.declared
  refine Nat.lt_of_not_le fun hle => ?_
  rw [List.drop_eq_nil_of_le hle] at hdrop
  cases hdrop

theorem DeclaresAt.exists_isWord {text : List Char} {i : Nat} {name : List Char}
    (h : DeclaresAt text i name) : ∃ c ∈ text, isWord c = true := by
  obtain ⟨c, rest, hdrop, hc⟩ := exists_cons_of_declaredName? h.declared
  exact ⟨c, List.mem_of_mem_drop (hdrop ▸ List.mem_cons_self), hc⟩

/-- What stands from `//` on plays no part in the name of a line. -/
theorem nameInLine?_append_slashes (s m : List Char) :
    nameInLine? (s ++ '/' :: '/' :: m) = nameInLine? s := by
  refine nameInLine?_congr fun i name => ?_
  constructor
  · rintro ⟨hsearched, h⟩
    have hi := Nat.le_of_lt (lt_length_of_append_slashes hsearched h)
    have h' := (declaresAt_append_slashes hi m name).1 h
    obtain ⟨c, hmem, hc⟩ := h'.exists_isWord
    exact ⟨(isSearched_append_slashes hi hmem hc m).1 hsearched, h'⟩
  · rintro ⟨hsearched, h⟩
    have hi := Nat.le_of_lt h.lt_length
    obtain ⟨c, hmem, hc⟩ := h.exists_isWord
    exact ⟨(isSearched_append_slashes hi hmem hc m).2 hsearched,
      (declaresAt_append_slashes hi m name).2 h⟩

theorem IsCarried.nameInLine?_blanked {line : List ReadChar} (h : IsCarried line) :
    nameInLine? (blanked [.lineComment] line) = nameInLine? (chars line) := by
  obtain ⟨before, comment, hends⟩ := h.exists_endsAs
  have hbefore : blanked [.lineComment] before = chars before :=
    blanked_eq_chars fun c hc => by simpa using hends.kind_before c hc
  have hcomment : isAllBlank (blanked [.lineComment] comment) = true :=
    isAllBlank_blanked fun c hc => by simpa using hends.kind_comment c hc
  have hblanked : blanked [.lineComment] line =
      chars before ++ blanked [.lineComment] comment := by
    rw [hends.eq_append, ← hbefore]
    exact List.map_append
  have hchars : chars line = chars before ++ chars comment := by
    rw [hends.eq_append]
    exact List.map_append
  rw [hblanked, hchars, ignoresTrailing_nameInLine? _ _ hcomment]
  rcases hends.slashes with rfl | ⟨m, hm⟩
  · rw [show chars [] = [] from rfl, List.append_nil]
  · rw [← hm]
    exact (nameInLine?_append_slashes (chars before) m).symm

/-! ## Block comments -/

/-- A keyword with white space alone behind it declares nothing. -/
theorem declaredName?_of_isAllBlank {s r : List Char} (h : afterKeyword? s = some r)
    (hr : isAllBlank r = true) : declaredName? s = none := by
  rw [declaredName?_eq, h]
  cases r with
  | nil => rfl
  | cons c r =>
    have hafter : afterBlanks (r ++ []) = [] :=
      afterBlanks_append (isAllBlank_cons.1 hr).2 (by simp)
    rw [List.append_nil] at hafter
    show (if isBlank c then some (afterBlanks r) else none).bind nameAt? = none
    rw [hafter]
    split <;> rfl

/-- The slash that ends a stretch of code starts a comment or stays. -/
theorem blanked_slash (tail : List Char) :
    (∃ m, tail = '/' :: m ∧ blanked commentKinds (readFrom .code ('/' :: tail)) =
      ' ' :: ' ' :: blanked commentKinds (readFrom .lineComment m)) ∨
    (∃ m, tail = '*' :: m ∧ blanked commentKinds (readFrom .code ('/' :: tail)) =
      ' ' :: ' ' :: blanked commentKinds (readFrom .blockComment m)) ∨
    blanked commentKinds (readFrom .code ('/' :: tail)) =
      '/' :: blanked commentKinds (readFrom .code tail) := by
  by_cases hslash : ∃ m, tail = '/' :: m
  · obtain ⟨m, rfl⟩ := hslash
    exact Or.inl ⟨m, rfl, rfl⟩
  · by_cases hstar : ∃ m, tail = '*' :: m
    · obtain ⟨m, rfl⟩ := hstar
      exact Or.inr (Or.inl ⟨m, rfl, rfl⟩)
    · refine Or.inr (Or.inr ?_)
      rw [readFrom.eq_4 '/' tail (fun m _ h => hslash ⟨m, h⟩) fun m _ h => hstar ⟨m, h⟩]
      rfl

/-- A name that is declared by code is declared when the comments are blanked. -/
theorem declaredName?_blanked_of_some {s name : List Char} (h : declaredName? s = some name) :
    declaredName? (blanked commentKinds (readFrom .code s)) = some name := by
  by_cases hs : '/' ∈ s
  · obtain ⟨code, tail, rfl, hcode⟩ := List.eq_append_cons_of_mem hs
    rw [declaredName?_append_slash] at h
    -- the name stands before the slash, so a space behind it does not matter
    have hspace : ∀ rest, declaredName? (code ++ ' ' :: rest) = some name := by
      intro rest
      rw [declaredName?_append_of_stops (by decide), h]
      intro _ r hr
      refine Bool.eq_false_iff.2 fun hblank => ?_
      rw [declaredName?_of_isAllBlank hr hblank] at h
      cases h
    rw [blanked_code_append hcode]
    rcases blanked_slash tail with ⟨m, -, hblanked⟩ | ⟨m, -, hblanked⟩ | hblanked
    · rw [hblanked, hspace]
    · rw [hblanked, hspace]
    · rw [hblanked, declaredName?_append_slash, h]
  · rwa [blanked_code hs]

/-- And the other way around, unless a block comment starts behind the white space after the
keyword. -/
theorem declaredName?_of_blanked {s name : List Char} (hn : '\n' ∉ s)
    (h : declaredName? (blanked commentKinds (readFrom .code s)) = some name)
    (hclear : ∀ after ∈ afterKeyword? s, startsWith "/*" (afterBlanks after) = false) :
    declaredName? s = some name := by
  by_cases hs : '/' ∈ s
  · obtain ⟨code, tail, rfl, hcode⟩ := List.eq_append_cons_of_mem hs
    rw [declaredName?_append_slash]
    rw [blanked_code_append hcode] at h
    rcases blanked_slash tail with ⟨m, rfl, hblanked⟩ | ⟨m, rfl, hblanked⟩ | hblanked
    · -- nothing but white space is left of a line comment
      have hcomment : isAllBlank (blanked commentKinds (readFrom .lineComment m)) = true := by
        refine isAllBlank_blanked fun c hc => ?_
        obtain ⟨hkind, hchar⟩ := readFrom_lineComment (fun hmem => hn (by simp [hmem])) c hc
        exact ⟨by rw [hkind]; decide, hchar⟩
      rw [hblanked, ignoresTrailing_declaredName? code] at h
      · exact h
      · exact isAllBlank_cons.2 ⟨rfl, isAllBlank_cons.2 ⟨rfl, hcomment⟩⟩
    · rw [hblanked, declaredName?_append_of_stops (by decide)] at h
      · exact h
      intro _ r hr
      refine Bool.eq_false_iff.2 fun hblank => ?_
      have hafter : afterKeyword? (code ++ '/' :: '*' :: m) = some (r ++ '/' :: '*' :: m) := by
        rw [afterKeyword?_append (by decide), hr]
        rfl
      have hstart := hclear _ hafter
      rw [afterBlanks_append hblank (by simp; decide)] at hstart
      cases hstart
    · rwa [hblanked, declaredName?_append_slash] at h
  · rwa [blanked_code hs] at h

/-- Whether a declaration stands at the place of the text. -/
def declares (text : List Char) (i : Nat) : Bool :=
  !endsInWord (text.take i) && (declaredName? (text.drop i)).isSome

/-- The block comments of a line neither hold a declaration that is found nor hide one of the code.

* A declaration in a block comment stands on a comment line or behind a `//`.
* A declaration of the code, which the blanked line shows, stands on a line that is a comment line
  exactly if the blanked line is. No `//` stands before it on the line, as there may be one inside of
  a block comment, and no block comment between its keyword and its name. -/
structure DeclaresClearly (cs : List ReadChar) : Prop where
  in_comment : ∀ i, (hi : i < cs.length) → cs[i].kind = .blockComment →
    declares (chars cs) i = true →
      isCommentLine (chars cs) = true ∨ mentions "//" ((chars cs).take i) = true
  in_code : ∀ i < cs.length, declares (blanked commentKinds cs) i = true →
    isCommentLine (chars cs) = isCommentLine (blanked commentKinds cs) ∧
      mentions "//" ((chars cs).take i) = false ∧
      ∀ after ∈ afterKeyword? ((chars cs).drop i), startsWith "/*" (afterBlanks after) = false

instance (cs : List ReadChar) : Decidable (DeclaresClearly cs) :=
  decidable_of_iff (_ ∧ _) (Iff.symm ⟨fun h => ⟨h.in_comment, h.in_code⟩, fun h => ⟨h.1, h.2⟩⟩)

theorem declares_iff {text : List Char} {i : Nat} :
    declares text i = true ↔ ∃ name, DeclaresAt text i name := by
  unfold declares
  rw [Bool.and_eq_true, Bool.not_eq_true', Option.isSome_iff_exists]
  constructor
  · rintro ⟨hstarts, name, hdeclared⟩
    exact ⟨name, hstarts, hdeclared⟩
  · rintro ⟨name, hstarts, hdeclared⟩
    exact ⟨hstarts, name, hdeclared⟩

/-- A word goes on into code as it does when the comments are blanked: none goes on behind a
comment. -/
theorem endsInWord_blanked {before rest : List ReadChar} {c : ReadChar} (h : Place before c rest)
    (hc : c.kind = .code) :
    endsInWord (blanked commentKinds before) = endsInWord (chars before) := by
  unfold endsInWord blanked chars
  rw [List.getLast?_map, List.getLast?_map]
  cases hlast : before.getLast? with
  | none => rfl
  | some d =>
    obtain ⟨char, kind⟩ := d
    rcases h.last hc _ hlast with hcode | hslash
    · obtain rfl : kind = .code := hcode
      rfl
    · obtain rfl : char = '/' := hslash
      cases kind <;> decide

section Place

variable {cs : List ReadChar} {i : Nat} {name : List Char}

theorem IsCarried.place_getElem (h : IsCarried cs) (hi : i < cs.length) :
    Place (cs.take i) cs[i] (cs.drop (i + 1)) := by
  refine h.place ?_
  rw [← List.drop_eq_getElem_cons hi, List.take_append_drop]

theorem drop_of_code (h : IsCarried cs) (hi : i < cs.length) (hcode : cs[i].kind = .code) :
    cs.drop i = readFrom .code ((chars cs).drop i) := by
  have hread := (h.place_getElem hi).eq_readFrom hcode
  rw [← List.drop_eq_getElem_cons hi] at hread
  exact hread.trans (congrArg (readFrom .code) List.map_drop)

theorem endsInWord_take_of_code (h : IsCarried cs) (hi : i < cs.length)
    (hcode : cs[i].kind = .code) :
    endsInWord ((blanked commentKinds cs).take i) = endsInWord ((chars cs).take i) := by
  have hword := endsInWord_blanked (h.place_getElem hi) hcode
  rwa [blanked, chars, List.map_take, List.map_take] at hword

theorem declaresAt_blanked (h : IsCarried cs) (hi : i < cs.length)
    (hcode : cs[i].kind = .code) (hname : DeclaresAt (chars cs) i name) :
    DeclaresAt (blanked commentKinds cs) i name := by
  refine ⟨?_, ?_⟩
  · rw [endsInWord_take_of_code h hi hcode]
    exact hname.starts
  · have hdeclared := declaredName?_blanked_of_some hname.declared
    rw [← drop_of_code h hi hcode] at hdeclared
    rwa [blanked, ← List.map_drop]

theorem declaresAt_of_blanked (h : IsCarried cs) (hi : i < cs.length)
    (hcode : cs[i].kind = .code) (hname : DeclaresAt (blanked commentKinds cs) i name)
    (hclear : ∀ after ∈ afterKeyword? ((chars cs).drop i),
      startsWith "/*" (afterBlanks after) = false) :
    DeclaresAt (chars cs) i name := by
  refine ⟨?_, declaredName?_of_blanked ?_ ?_ hclear⟩
  · rw [← endsInWord_take_of_code h hi hcode]
    exact hname.starts
  · exact fun hmem => h.newline_not_mem_chars (List.mem_of_mem_drop hmem)
  · have hdeclared := hname.declared
    rwa [blanked, ← List.map_drop, drop_of_code h hi hcode] at hdeclared

/-- Nothing is declared where a comment was blanked. -/
theorem kind_of_declaresAt_blanked (hi : i < cs.length)
    (hname : DeclaresAt (blanked commentKinds cs) i name) : cs[i].kind = .code := by
  obtain ⟨c, rest, hdrop, hc⟩ := exists_cons_of_declaredName? hname.declared
  rw [blanked, ← List.map_drop, List.drop_eq_getElem_cons hi, List.map_cons] at hdrop
  have hspace : c ≠ ' ' := fun h => by subst h; cases hc
  have hn : c ≠ '\n' := fun h => by subst h; cases hc
  rw [eq_code_of_blanked (List.cons.inj hdrop).1 hspace hn]

/-- Nothing is declared by a line comment where it is searched. -/
theorem not_isSearched_of_lineComment (h : IsCarried cs) (hi : i < cs.length)
    (hkind : cs[i].kind = .lineComment) (hname : DeclaresAt (chars cs) i name) :
    ¬IsSearched (chars cs) i := by
  intro hsearched
  rcases (h.place_getElem hi).slashes hkind with hslash | hslashes
  · obtain ⟨c, rest, hdrop, hc⟩ := exists_cons_of_declaredName? hname.declared
    rw [chars, ← List.map_drop, List.drop_eq_getElem_cons hi, List.map_cons] at hdrop
    rw [← (List.cons.inj hdrop).1, hslash] at hc
    cases hc
  · rw [chars, List.map_take] at hslashes
    have hmentions := mentions_iff.2 hslashes
    have hbefore := hsearched.before
    rw [chars, hmentions] at hbefore
    cases hbefore

theorem isSearched_blanked (h : IsCarried cs)
    (hline : isCommentLine (blanked commentKinds cs) = false) :
    IsSearched (blanked commentKinds cs) i := by
  refine ⟨hline, Bool.eq_false_iff.2 fun hmentions => not_slashes_blanked h ?_⟩
  exact (mentions_iff.1 hmentions).trans (List.take_prefix _ _).isInfix

end Place

theorem DeclaresClearly.nameInLine?_blanked {cs : List ReadChar} (hline : IsCarried cs)
    (h : DeclaresClearly cs) :
    nameInLine? (blanked commentKinds cs) = nameInLine? (chars cs) := by
  refine nameInLine?_congr fun i name => ?_
  constructor
  · rintro ⟨hsearched, hname⟩
    have hi : i < cs.length := by simpa [blanked] using hname.lt_length
    have hcode := kind_of_declaresAt_blanked hi hname
    obtain ⟨hsame, hbefore, hclear⟩ := h.in_code i hi (declares_iff.2 ⟨name, hname⟩)
    exact ⟨⟨hsame.trans hsearched.line, hbefore⟩, declaresAt_of_blanked hline hi hcode hname hclear⟩
  · rintro ⟨hsearched, hname⟩
    have hi : i < cs.length := by simpa [chars] using hname.lt_length
    -- what is found in the line stands in its code, or nothing is found
    cases hkind : cs[i].kind with
    | code =>
      have hname' := declaresAt_blanked hline hi hkind hname
      obtain ⟨hsame, -, -⟩ := h.in_code i hi (declares_iff.2 ⟨name, hname'⟩)
      exact ⟨isSearched_blanked hline (hsame.symm.trans hsearched.line), hname'⟩
    | lineComment =>
      exact absurd hsearched (not_isSearched_of_lineComment hline hi hkind hname)
    | blockComment =>
      rcases h.in_comment i hi hkind (declares_iff.2 ⟨name, hname⟩) with hcomment | hslashes
      · rw [hsearched.line] at hcomment
        cases hcomment
      · rw [hsearched.before] at hslashes
        cases hslashes

/-! ## The name of a source -/

/-- The first name that a line declares. -/
theorem contractName?_eq (source : List Char) :
    contractName? source = ((parts source).map nameInLine?).findSome? id := by
  rw [List.findSome?_map]
  by_cases hsource : source = []
  · rw [hsource]
    rfl
  · rw [← map_text_splitLines hsource, List.findSome?_map]
    rfl

/-- The lines up to the first one that declares a name, with this one. -/
def searchedLines : List (List ReadChar) → List (List ReadChar)
  | [] => []
  | cs :: rest => if (nameInLine? (chars cs)).isSome then [cs] else cs :: searchedLines rest

/-- The name is the same if no line that is searched for it declares another one when blanked. -/
theorem contractName?_blankComments_eq {kinds : List CharKind} {source : List Char}
    (h : ∀ cs ∈ searchedLines (readLines source),
      nameInLine? (blanked kinds cs) = nameInLine? (chars cs)) :
    contractName? (blankComments kinds source) = contractName? source := by
  rw [contractName?_eq, contractName?_eq, parts_blankComments, parts_eq_chars, List.map_map,
    List.map_map]
  generalize readLines source = lines at h ⊢
  induction lines with
  | nil => rfl
  | cons cs rest ih =>
    unfold searchedLines at h
    rw [List.map_cons, List.map_cons, List.findSome?_cons, List.findSome?_cons]
    simp only [Function.comp_apply, id_eq]
    cases hname : nameInLine? (chars cs) with
    | some name =>
      -- the search ends here
      rw [hname] at h
      rw [h cs List.mem_cons_self, hname]
    | none =>
      rw [hname] at h
      obtain ⟨hcs, hrest⟩ := List.forall_mem_cons.1 h
      rw [hcs, hname]
      exact ih hrest

theorem searchedLines_subset (lines : List (List ReadChar)) : searchedLines lines ⊆ lines := by
  induction lines with
  | nil => exact List.Subset.refl _
  | cons cs rest ih =>
    unfold searchedLines
    split
    · exact List.cons_subset_cons cs (List.nil_subset rest)
    · exact List.cons_subset_cons cs ih

/-- **Comments and names.** To blank the line comments of a source never changes its name. To blank
the block comments as well does not change it if every line that is searched declares clearly. -/
theorem contractName?_blankComments (source : List Char) :
    contractName? (blankComments [.lineComment] source) = contractName? source ∧
      ((∀ cs ∈ searchedLines (readLines source), DeclaresClearly cs) →
        contractName? (blankComments commentKinds source) = contractName? source) := by
  have hcarried : ∀ cs ∈ searchedLines (readLines source), IsCarried cs := fun cs hcs =>
    isCarried_of_mem_readLines (searchedLines_subset _ hcs)
  constructor
  · exact contractName?_blankComments_eq fun cs hcs => (hcarried cs hcs).nameInLine?_blanked
  · intro h
    exact contractName?_blankComments_eq fun cs hcs =>
      (h cs hcs).nameInLine?_blanked (hcarried cs hcs)

/-- A documented contract, with a line behind it that does not declare clearly. -/
theorem contractName?_blankComments_documented :
    let source :=
      "/**\n * The contract Fake.\n */\ncontract Real \x7b // library B\n /* */ library A".toList
    (∀ cs ∈ searchedLines (readLines source), DeclaresClearly cs) ∧
      contractName? (blankComments commentKinds source) = contractName? source ∧
      contractName? source = some "Real".toList := by
  intro source
  have h : ∀ cs ∈ searchedLines (readLines source), DeclaresClearly cs := by decide +kernel
  exact ⟨h, (contractName?_blankComments source).2 h, by decide +kernel⟩

/-- A line inside of a block comment that starts with no mark. -/
theorem contractName?_of_comment :
    let source := "/*\ncontract Fake \x7b\x7d\n*/\ncontract Real \x7b\x7d".toList
    contractName? source = some "Fake".toList ∧
      contractName? (blankComments commentKinds source) = some "Real".toList := by
  decide +kernel

end ContractAudit
