import ContractAudit.Source.Comment

/-!
# Comments of a whole source

The code of a line is found from this line alone. A compiler reads a source as a whole, from left to
right, and a block comment goes on over any number of lines. `readSource` is this reading. It says
of each character what it belongs to: the code, a line comment or a block comment. A newline ends a
line comment and belongs to the code again.

To blank comments is to put a space for each of their characters but the newlines, so the lines stay
where they are. Each line of the blanked source is then the line of the source at the same place
with its own comments blanked (`parts_blankComments`). What a line is read as depends on the lines
above it only by the kind that is carried over: a block comment may be open, a line comment never
is (`isCarried_of_mem_readLines`).

Of a line that is read by a carried kind the following is known:

* `IsCarried.place`: from a character of code on it is read as if nothing came before, this code
  follows other code or the slash that closes a block comment, and a line comment follows `//`.
* `IsCarried.exists_endsAs`: its line comment, if it has one, is its end from `//` on.
* `not_slashes_blanked`: with its comments blanked it holds no `//`.
-/

namespace ContractAudit

open Text

/-- What a character of a source belongs to. -/
inductive CharKind
  | code
  | lineComment
  | blockComment
deriving DecidableEq, Repr

/-- The kinds of comments. -/
def commentKinds : List CharKind :=
  [.lineComment, .blockComment]

/-- A character of a source as it was read. -/
structure ReadChar where
  char : Char
  kind : CharKind
deriving DecidableEq, Repr

/-- The rest of a source, read from left to right, where the next character is of the given kind
unless a mark starts or a newline ends it. -/
def readFrom : CharKind → List Char → List ReadChar
  | _, [] => []
  | .code, '/' :: '/' :: rest =>
    ⟨'/', .lineComment⟩ :: ⟨'/', .lineComment⟩ :: readFrom .lineComment rest
  | .code, '/' :: '*' :: rest =>
    ⟨'/', .blockComment⟩ :: ⟨'*', .blockComment⟩ :: readFrom .blockComment rest
  | .code, c :: rest => ⟨c, .code⟩ :: readFrom .code rest
  | .lineComment, '\n' :: rest => ⟨'\n', .code⟩ :: readFrom .code rest
  | .lineComment, c :: rest => ⟨c, .lineComment⟩ :: readFrom .lineComment rest
  | .blockComment, '*' :: '/' :: rest =>
    ⟨'*', .blockComment⟩ :: ⟨'/', .blockComment⟩ :: readFrom .code rest
  | .blockComment, c :: rest => ⟨c, .blockComment⟩ :: readFrom .blockComment rest

/-- A source read from left to right. -/
def readSource (source : List Char) : List ReadChar :=
  readFrom .code source

/-- The characters that were read. -/
def chars (line : List ReadChar) : List Char :=
  line.map ReadChar.char

/-- The character, or a space for one of a comment of these kinds. -/
def ReadChar.blanked (kinds : List CharKind) (c : ReadChar) : Char :=
  if c.kind ∈ kinds ∧ c.char ≠ '\n' then ' ' else c.char

/-- The characters that were read, with spaces for the comments of these kinds. -/
def blanked (kinds : List CharKind) (line : List ReadChar) : List Char :=
  line.map (ReadChar.blanked kinds)

/-- The source with spaces for its comments of these kinds. -/
def blankComments (kinds : List CharKind) (source : List Char) : List Char :=
  blanked kinds (readSource source)

/-- Whether a line ends with the character. -/
def ReadChar.isNewline (c : ReadChar) : Bool :=
  c.char == '\n'

/-- The lines of a source as they were read. -/
def readLines (source : List Char) : List (List ReadChar) :=
  (readSource source).splitOnP ReadChar.isNewline

/-! ## Lines of what was read -/

theorem chars_readFrom (kind : CharKind) (source : List Char) :
    chars (readFrom kind source) = source := by
  unfold chars
  fun_induction readFrom kind source <;> simp_all

theorem ReadChar.blanked_eq_newline_iff (kinds : List CharKind) (c : ReadChar) :
    c.blanked kinds = '\n' ↔ c.char = '\n' := by
  unfold ReadChar.blanked
  split
  · rename_i h
    simp [h.2]
  · rfl

/-- Whatever is made of the characters one by one, the lines stay the same if the newlines do. -/
theorem parts_map {f : ReadChar → Char} (hf : ∀ c, f c = '\n' ↔ c.char = '\n')
    (source : List ReadChar) :
    parts (source.map f) = (source.splitOnP ReadChar.isNewline).map (List.map f) := by
  induction source with
  | nil => rfl
  | cons c source ih =>
    rw [List.map_cons, List.splitOnP_cons_eq_if_modifyHead]
    unfold ReadChar.isNewline at ih ⊢
    by_cases hc : c.char = '\n'
    · rw [(hf c).2 hc, parts_newline, ih, if_pos (beq_iff_eq.2 hc)]
      rfl
    · rw [parts_cons fun h => hc ((hf c).1 h), ih, if_neg fun h => hc (beq_iff_eq.1 h)]
      -- the character goes to the front of the first line
      obtain ⟨first, others, hsplit⟩ :=
        List.exists_cons_of_ne_nil (List.splitOnP_ne_nil (fun c => c.char == '\n') source)
      rw [hsplit]
      rfl

theorem parts_eq_chars (source : List Char) : parts source = (readLines source).map chars := by
  have hparts := parts_map (f := ReadChar.char) (fun _ => Iff.rfl) (readSource source)
  have hsource : (readSource source).map ReadChar.char = source := chars_readFrom .code source
  rw [hsource] at hparts
  exact hparts

theorem parts_blankComments (kinds : List CharKind) (source : List Char) :
    parts (blankComments kinds source) = (readLines source).map (blanked kinds) :=
  parts_map (ReadChar.blanked_eq_newline_iff kinds) (readSource source)

/-- A block comment over two lines, and a line comment that holds the mark of another one. -/
example : blankComments commentKinds "a /* b\nc */ d // /* e\nf".toList =
    "a     \n     d        \nf".toList := by
  decide

/-! ## The kind that is carried over -/

/-- A line as it is read by the kind that the lines above leave. -/
def IsCarried (line : List ReadChar) : Prop :=
  ∃ kind text, kind ≠ .lineComment ∧ '\n' ∉ text ∧ line = readFrom kind text

theorem exists_of_append_newline_eq {d : Char} (hd : d ≠ '\n') {text rest tail : List Char}
    (h : text ++ '\n' :: rest = d :: tail) : ∃ tail', text = d :: tail' := by
  cases text with
  | nil => exact absurd (List.cons.inj h).1.symm hd
  | cons e text => exact ⟨text, by rw [(List.cons.inj h).1]⟩

/-- Reading goes on behind a newline by a kind that the text before it leaves. -/
theorem exists_readFrom_append_newline {text : List Char} (hn : '\n' ∉ text) (kind : CharKind) :
    ∃ newline : ReadChar, newline.isNewline = true ∧ ∃ next, next ≠ .lineComment ∧ ∀ rest,
      readFrom kind (text ++ '\n' :: rest) =
        readFrom kind text ++ newline :: readFrom next rest := by
  fun_induction readFrom kind text with
  | case1 kind =>
    -- an open block comment is carried over, a line comment is not
    cases kind with
    | code => exact ⟨⟨'\n', .code⟩, rfl, .code, by decide, fun rest => rfl⟩
    | lineComment => exact ⟨⟨'\n', .code⟩, rfl, .code, by decide, fun rest => rfl⟩
    | blockComment => exact ⟨⟨'\n', .blockComment⟩, rfl, .blockComment, by decide, fun rest => rfl⟩
  | case2 rest ih =>
    obtain ⟨newline, hnewline, next, hnext, hread⟩ := ih (by simp_all)
    exact ⟨newline, hnewline, next, hnext, fun r => by simp [readFrom, hread]⟩
  | case3 rest ih =>
    obtain ⟨newline, hnewline, next, hnext, hread⟩ := ih (by simp_all)
    exact ⟨newline, hnewline, next, hnext, fun r => by simp [readFrom, hread]⟩
  | case4 c rest hslashes hblock ih =>
    obtain ⟨newline, hnewline, next, hnext, hread⟩ := ih (by simp_all)
    refine ⟨newline, hnewline, next, hnext, fun r => ?_⟩
    -- the newline does not end a mark that starts at `c`
    rw [List.cons_append, readFrom.eq_4, hread, List.cons_append]
    · intro tail hc htail
      obtain ⟨tail', hrest⟩ := exists_of_append_newline_eq (by decide) htail
      exact hslashes tail' hc hrest
    · intro tail hc htail
      obtain ⟨tail', hrest⟩ := exists_of_append_newline_eq (by decide) htail
      exact hblock tail' hc hrest
  | case5 rest ih => simp at hn
  | case6 c rest hc ih =>
    obtain ⟨newline, hnewline, next, hnext, hread⟩ := ih (by simp_all)
    refine ⟨newline, hnewline, next, hnext, fun r => ?_⟩
    rw [List.cons_append, readFrom.eq_6 _ _ hc, hread, List.cons_append]
  | case7 rest ih =>
    obtain ⟨newline, hnewline, next, hnext, hread⟩ := ih (by simp_all)
    exact ⟨newline, hnewline, next, hnext, fun r => by simp [readFrom, hread]⟩
  | case8 c rest hend ih =>
    obtain ⟨newline, hnewline, next, hnext, hread⟩ := ih (by simp_all)
    refine ⟨newline, hnewline, next, hnext, fun r => ?_⟩
    rw [List.cons_append, readFrom.eq_8, hread, List.cons_append]
    intro tail hc htail
    obtain ⟨tail', hrest⟩ := exists_of_append_newline_eq (by decide) htail
    exact hend tail' hc hrest

theorem newline_not_mem_readFrom {text : List Char} (hn : '\n' ∉ text) (kind : CharKind) :
    ∀ c ∈ readFrom kind text, c.isNewline = false := by
  intro c hc
  have hmem : c.char ∈ chars (readFrom kind text) := List.mem_map_of_mem hc
  rw [chars_readFrom] at hmem
  exact beq_eq_false_iff_ne.2 fun h => hn (h ▸ hmem)

theorem isCarried_of_mem_splitOnP {kind : CharKind} (hkind : kind ≠ .lineComment)
    {source : List Char} {line : List ReadChar}
    (hline : line ∈ (readFrom kind source).splitOnP ReadChar.isNewline) : IsCarried line := by
  -- a line is passed as a whole, so the induction is on the length
  induction hlength : source.length using Nat.strongRecOn generalizing kind source with
  | _ n ih =>
    by_cases hmem : '\n' ∈ source
    · obtain ⟨text, rest, rfl, hn⟩ := List.eq_append_cons_of_mem hmem
      obtain ⟨newline, hnewline, next, hnext, hread⟩ := exists_readFrom_append_newline hn kind
      rw [hread rest, List.splitOnP_append_cons _ _ hnewline,
        List.splitOnP_eq_singleton (newline_not_mem_readFrom hn kind)] at hline
      rcases List.mem_cons.1 hline with rfl | hline
      · exact ⟨kind, text, hkind, hn, rfl⟩
      · refine ih rest.length ?_ hnext hline rfl
        rw [← hlength, List.length_append, List.length_cons]
        omega
    · rw [List.splitOnP_eq_singleton (newline_not_mem_readFrom hmem kind),
        List.mem_singleton] at hline
      exact ⟨kind, source, hkind, hmem, hline⟩

theorem isCarried_of_mem_readLines {source : List Char} {line : List ReadChar}
    (h : line ∈ readLines source) : IsCarried line :=
  isCarried_of_mem_splitOnP (by decide) h

/-! ## Code -/

/-- Code without a slash is read as such, and what follows it as if it came first. -/
theorem readFrom_code_append {code : List Char} (hcode : '/' ∉ code) (rest : List Char) :
    readFrom .code (code ++ rest) = code.map (⟨·, .code⟩) ++ readFrom .code rest := by
  induction code with
  | nil => rfl
  | cons c code ih =>
    rw [List.mem_cons, not_or] at hcode
    rw [List.cons_append, readFrom.eq_4, ih hcode.2]
    · rfl
    · exact fun tail hc => absurd hc.symm hcode.1
    · exact fun tail hc => absurd hc.symm hcode.1

/-- What is known of the text that is passed where the next character is of the given kind. -/
structure Reached (past : List ReadChar) (kind : CharKind) : Prop where
  code : kind = .code → ∀ d ∈ past.getLast?, d.kind = .code ∨ d.char = '/'
  lineComment : kind = .lineComment → "//".toList <:+: chars past

/-- What is known of the character `c` of a line and of the text at its two sides. -/
structure Place (before : List ReadChar) (c : ReadChar) (rest : List ReadChar) : Prop where
  eq_readFrom : c.kind = .code → c :: rest = readFrom .code (chars (c :: rest))
  last : c.kind = .code → ∀ d ∈ before.getLast?, d.kind = .code ∨ d.char = '/'
  slashes : c.kind = .lineComment → c.char = '/' ∨ "//".toList <:+: chars before

theorem Place.of_blockComment {before rest : List ReadChar} {c : Char} :
    Place before ⟨c, .blockComment⟩ rest :=
  ⟨nofun, nofun, nofun⟩

/-- A place is here or behind the character that stands here. -/
theorem place_of_cons_eq_append {past others before rest : List ReadChar} {b c : ReadChar}
    (hhere : Place past b others)
    (hbehind : ∀ between, others = between ++ c :: rest → Place (past ++ [b] ++ between) c rest)
    (h : b :: others = before ++ c :: rest) : Place (past ++ before) c rest := by
  cases before with
  | nil =>
    obtain ⟨rfl, rfl⟩ := List.cons.inj h
    rwa [List.append_nil]
  | cons d between =>
    obtain ⟨rfl, hothers⟩ := List.cons.inj h
    rw [List.append_cons]
    exact hbehind between hothers

/-- The invariant of the reading, and what it says of each place. -/
theorem place_of_readFrom {kind : CharKind} {source : List Char} (hn : '\n' ∉ source)
    {past before rest : List ReadChar} {c : ReadChar} (hpast : Reached past kind)
    (h : readFrom kind source = before ++ c :: rest) : Place (past ++ before) c rest := by
  -- each mark is passed at once, so it makes two places, and the invariant is shown behind both
  fun_induction readFrom kind source generalizing past before with
  | case1 kind => simp at h
  | case2 source ih =>
    have hslash : ∀ before rest, Place before ⟨'/', .lineComment⟩ rest := fun before rest =>
      ⟨nofun, nofun, fun _ => Or.inl rfl⟩
    refine place_of_cons_eq_append (hslash _ _) (fun before h => ?_) h
    refine place_of_cons_eq_append (hslash _ _) (fun before h => ?_) h
    exact ih (by simp_all) ⟨nofun, fun _ => ⟨chars past, [], by simp [chars]⟩⟩ h
  | case3 source ih =>
    refine place_of_cons_eq_append .of_blockComment (fun before h => ?_) h
    refine place_of_cons_eq_append .of_blockComment (fun before h => ?_) h
    exact ih (by simp_all) ⟨nofun, nofun⟩ h
  | case4 d source hslashes hblock ih =>
    have hread : readFrom .code (d :: chars (readFrom .code source)) =
        ⟨d, .code⟩ :: readFrom .code source := by
      rw [chars_readFrom, readFrom.eq_4 d source hslashes hblock]
    refine place_of_cons_eq_append ⟨fun _ => hread.symm, hpast.code, nofun⟩ (fun before h => ?_) h
    exact ih (by simp_all) ⟨fun _ => by simp, nofun⟩ h
  | case5 source ih => simp at hn
  | case6 d source hd ih =>
    -- the slashes that opened the comment are still among what is passed
    have hslashes := hpast.lineComment rfl
    have hhere : Place past ⟨d, .lineComment⟩ (readFrom .lineComment source) :=
      ⟨nofun, nofun, fun _ => Or.inr hslashes⟩
    refine place_of_cons_eq_append hhere (fun before h => ?_) h
    refine ih (by simp_all) ⟨nofun, fun _ => ?_⟩ h
    rw [chars, List.map_append]
    exact hslashes.trans (List.prefix_append _ _).isInfix
  | case7 source ih =>
    refine place_of_cons_eq_append .of_blockComment (fun before h => ?_) h
    refine place_of_cons_eq_append .of_blockComment (fun before h => ?_) h
    exact ih (by simp_all) ⟨fun _ => by simp, nofun⟩ h
  | case8 d source hend ih =>
    refine place_of_cons_eq_append .of_blockComment (fun before h => ?_) h
    exact ih (by simp_all) ⟨nofun, nofun⟩ h

theorem IsCarried.place {line before rest : List ReadChar} {c : ReadChar} (h : IsCarried line)
    (hline : line = before ++ c :: rest) : Place before c rest := by
  obtain ⟨kind, text, hkind, hn, rfl⟩ := h
  have hpast : Reached [] kind := ⟨by simp, fun h => absurd h hkind⟩
  exact place_of_readFrom hn hpast hline

/-! ## Line comments -/

theorem readFrom_lineComment {text : List Char} (hn : '\n' ∉ text) :
    ∀ c ∈ readFrom .lineComment text, c.kind = .lineComment ∧ c.char ≠ '\n' := by
  induction text with
  | nil => simp [readFrom]
  | cons d text ih =>
    rw [List.mem_cons, not_or] at hn
    have hd : d ≠ '\n' := Ne.symm hn.1
    rw [readFrom.eq_6 d text hd]
    simpa [hd] using ih hn.2

/-- A line and its line comment, if it has one. -/
structure EndsAs (line before comment : List ReadChar) : Prop where
  eq_append : line = before ++ comment
  kind_before : ∀ c ∈ before, c.kind ≠ .lineComment
  kind_comment : ∀ c ∈ comment, c.kind = .lineComment ∧ c.char ≠ '\n'
  slashes : comment = [] ∨ "//".toList <+: chars comment

theorem EndsAs.cons {line before comment : List ReadChar} (h : EndsAs line before comment)
    {c : ReadChar} (hc : c.kind ≠ .lineComment) : EndsAs (c :: line) (c :: before) comment :=
  ⟨by rw [h.eq_append]; rfl, List.forall_mem_cons.2 ⟨hc, h.kind_before⟩, h.kind_comment, h.slashes⟩

theorem exists_endsAs_readFrom {kind : CharKind} (hkind : kind ≠ .lineComment) {text : List Char}
    (hn : '\n' ∉ text) : ∃ before comment, EndsAs (readFrom kind text) before comment := by
  fun_induction readFrom kind text with
  | case1 kind => exact ⟨[], [], rfl, by simp, by simp, Or.inl rfl⟩
  | case2 text ih =>
    have hn' : '\n' ∉ text := by simp_all
    refine ⟨[], _, rfl, by simp, ?_, Or.inr (List.prefix_append _ _)⟩
    simpa using readFrom_lineComment hn'
  | case3 text ih =>
    obtain ⟨before, comment, h⟩ := ih (by decide) (by simp_all)
    exact ⟨_, comment, (h.cons (by decide)).cons (by decide)⟩
  | case4 d text hslashes hblock ih =>
    obtain ⟨before, comment, h⟩ := ih (by decide) (by simp_all)
    exact ⟨_, comment, h.cons nofun⟩
  | case5 text ih => simp at hn
  | case6 d text hd ih =>
    -- no line starts inside of a line comment
    exact absurd rfl hkind
  | case7 text ih =>
    obtain ⟨before, comment, h⟩ := ih (by decide) (by simp_all)
    exact ⟨_, comment, (h.cons (by decide)).cons (by decide)⟩
  | case8 d text hend ih =>
    obtain ⟨before, comment, h⟩ := ih (by decide) (by simp_all)
    exact ⟨_, comment, h.cons nofun⟩

theorem IsCarried.exists_endsAs {line : List ReadChar} (h : IsCarried line) :
    ∃ before comment, EndsAs line before comment := by
  obtain ⟨kind, text, hkind, hn, rfl⟩ := h
  exact exists_endsAs_readFrom hkind hn

theorem IsCarried.newline_not_mem_chars {line : List ReadChar} (h : IsCarried line) :
    '\n' ∉ chars line := by
  obtain ⟨kind, text, -, hn, rfl⟩ := h
  rwa [chars_readFrom]

/-! ## Blanking -/

theorem blanked_eq_chars {kinds : List CharKind} {line : List ReadChar}
    (h : ∀ c ∈ line, c.kind ∉ kinds) : blanked kinds line = chars line := by
  refine List.map_congr_left fun c hc => ?_
  unfold ReadChar.blanked
  exact if_neg fun hkind => h c hc hkind.1

theorem isAllBlank_blanked {kinds : List CharKind} {line : List ReadChar}
    (h : ∀ c ∈ line, c.kind ∈ kinds ∧ c.char ≠ '\n') : isAllBlank (blanked kinds line) = true := by
  refine List.all_eq_true.2 fun d hd => ?_
  obtain ⟨c, hc, rfl⟩ := List.mem_map.1 hd
  unfold ReadChar.blanked
  rw [if_pos (h c hc)]
  rfl

/-- What is left when comments are blanked is code, but for spaces and newlines. -/
theorem eq_code_of_blanked {c : ReadChar} {d : Char} (h : c.blanked commentKinds = d)
    (hspace : d ≠ ' ') (hn : d ≠ '\n') : c = ⟨d, .code⟩ := by
  obtain ⟨char, kind⟩ := c
  unfold ReadChar.blanked at h
  split at h
  · exact absurd h.symm hspace
  · rename_i hkept
    obtain rfl : char = d := h
    have hkind : kind ∉ commentKinds := fun hmem => hkept ⟨hmem, hn⟩
    cases kind with
    | code => rfl
    | lineComment => exact absurd (by decide) hkind
    | blockComment => exact absurd (by decide) hkind

theorem not_slashes_blanked {line : List ReadChar} (h : IsCarried line) :
    ¬"//".toList <:+: blanked commentKinds line := by
  rintro ⟨u, v, huv⟩
  obtain ⟨front, behind, hline, hfront, -⟩ := List.map_eq_append_iff.1 huv.symm
  obtain ⟨before, slashes, rfl, -, hslashes⟩ := List.map_eq_append_iff.1 hfront
  obtain ⟨c, rest, rfl, hc, hrest⟩ := List.map_eq_cons_iff.1 hslashes
  obtain ⟨d, rest, rfl, hd, -⟩ := List.map_eq_cons_iff.1 hrest
  obtain rfl := eq_code_of_blanked hc (by decide) (by decide)
  obtain rfl := eq_code_of_blanked hd (by decide) (by decide)
  -- read as code, the first slash opens a line comment
  rw [List.append_assoc] at hline
  have hread := (h.place hline).eq_readFrom rfl
  have hkind := congrArg (fun read => read.head?.map ReadChar.kind) hread
  cases hkind

/-- Up to its first slash code is left as it is. -/
theorem blanked_code_append {code : List Char} (hcode : '/' ∉ code) (rest : List Char) :
    blanked commentKinds (readFrom .code (code ++ rest)) =
      code ++ blanked commentKinds (readFrom .code rest) := by
  have hkept : blanked commentKinds (code.map (⟨·, .code⟩)) = code := by
    unfold blanked
    rw [List.map_map]
    exact List.map_id _
  rw [readFrom_code_append hcode, blanked, List.map_append]
  exact congrArg (· ++ _) hkept

theorem blanked_code {code : List Char} (hcode : '/' ∉ code) :
    blanked commentKinds (readFrom .code code) = code := by
  have hsame := blanked_code_append hcode []
  rwa [List.append_nil, show blanked commentKinds (readFrom .code []) = [] from rfl,
    List.append_nil] at hsame

end ContractAudit
