/-!
# Sources and their lines

A source is split at every newline character and nowhere else: a carriage return stays at the end of
its line, and the empty source has no lines.

Main statements: `parts_cons` with `parts_newline`, by which `parts` is computed character by
character; `intercalate_parts` and `parts_intercalate`, on parts that are joined by newlines and on
the parts of what was joined; `getElem?_splitLines`, by which the line at a place carries that place
as its number.
-/

namespace ContractAudit

/-- A line of a source, counted from one, with its exact text. -/
structure Line where
  number : Nat
  text : List Char
deriving DecidableEq, Repr, Inhabited

/-- The place of the line, counted from zero. -/
def Line.index (line : Line) : Nat := line.number - 1

/-- The texts between newlines; one more than there are newlines. -/
def parts (source : List Char) : List (List Char) :=
  source.foldr
    (fun c parts =>
      if c = '\n' then [] :: parts
      else match parts with
        | [] => [[c]]
        | part :: rest => (c :: part) :: rest)
    [[]]

@[simp] theorem parts_nil : parts [] = [[]] := rfl

@[simp] theorem parts_newline (rest : List Char) : parts ('\n' :: rest) = [] :: parts rest := rfl

theorem parts_cons {c : Char} (h : c ≠ '\n') (rest : List Char) :
    parts (c :: rest) = match parts rest with
      | [] => [[c]]
      | part :: others => (c :: part) :: others := by
  simp [parts, h]

theorem parts_ne_nil (source : List Char) : parts source ≠ [] := by
  cases source with
  | nil => exact List.cons_ne_nil _ _
  | cons c rest =>
    by_cases hc : c = '\n'
    · subst hc
      exact List.cons_ne_nil _ _
    · rw [parts_cons hc]
      split <;> exact List.cons_ne_nil _ _

/-- Only the empty source is one empty part. -/
theorem eq_nil_of_parts {source : List Char} (h : parts source = [[]]) : source = [] := by
  cases source with
  | nil => rfl
  | cons c rest =>
    by_cases hc : c = '\n'
    · subst hc
      rw [parts_newline] at h
      exact absurd (List.cons.inj h).2 (parts_ne_nil rest)
    · rw [parts_cons hc] at h
      split at h
      · exact absurd (List.cons.inj h).1 (List.cons_ne_nil _ _)
      · exact absurd (List.cons.inj h).1 (List.cons_ne_nil _ _)

theorem parts_of_not_mem {text : List Char} (h : '\n' ∉ text) : parts text = [text] := by
  induction text with
  | nil => rfl
  | cons c rest ih =>
    have hc : c ≠ '\n' := fun hc => h (hc ▸ List.mem_cons_self)
    rw [parts_cons hc, ih fun hrest => h (List.mem_cons_of_mem c hrest)]

theorem parts_append_newline (s t : List Char) :
    parts (s ++ '\n' :: t) = parts s ++ parts t := by
  induction s with
  | nil => rfl
  | cons c s ih =>
    by_cases hc : c = '\n'
    · subst hc
      rw [List.cons_append, parts_newline, parts_newline, ih, List.cons_append]
    · rw [List.cons_append, parts_cons hc, parts_cons hc, ih]
      -- the character goes to the front of the first part of `s`
      cases hs : parts s with
      | nil => exact absurd hs (parts_ne_nil s)
      | cons first others => rfl

/-- Joined by newlines, the parts give back the source. -/
theorem intercalate_parts (source : List Char) : ['\n'].intercalate (parts source) = source := by
  induction source with
  | nil => rfl
  | cons c rest ih =>
    by_cases hc : c = '\n'
    · subst hc
      rw [parts_newline, List.intercalate_cons_of_ne_nil (parts_ne_nil rest), ih]
      rfl
    · obtain ⟨first, others, hparts⟩ := List.exists_cons_of_ne_nil (parts_ne_nil rest)
      rw [hparts] at ih
      rw [parts_cons hc, hparts]
      cases others with
      | nil => simpa [List.intercalate_singleton] using ih
      | cons second others => simpa [List.intercalate_cons_cons] using ih

/-- Texts that are joined by newlines give their parts one after another. -/
theorem parts_intercalate {texts : List (List Char)} (h : texts ≠ []) :
    parts (List.intercalate ['\n'] texts) = texts.flatMap parts := by
  induction texts with
  | nil => exact absurd rfl h
  | cons s rest ih =>
    cases rest with
    | nil => rw [List.intercalate_singleton, List.flatMap_singleton]
    | cons t rest =>
      rw [List.flatMap_cons, List.intercalate_cons_cons, List.append_assoc,
        List.singleton_append, parts_append_newline, ih (List.cons_ne_nil t rest)]

theorem flatMap_parts_of_not_mem {texts : List (List Char)} (h : ∀ text ∈ texts, '\n' ∉ text) :
    texts.flatMap parts = texts := by
  induction texts with
  | nil => rfl
  | cons text rest ih =>
    obtain ⟨htext, hrest⟩ := List.forall_mem_cons.1 h
    rw [List.flatMap_cons, parts_of_not_mem htext, ih hrest, List.singleton_append]

/-- No part holds a newline. -/
theorem newline_not_mem_of_mem_parts {source part : List Char} (h : part ∈ parts source) :
    '\n' ∉ part := by
  induction source generalizing part with
  | nil =>
    obtain rfl := List.mem_singleton.1 h
    exact List.not_mem_nil
  | cons c rest ih =>
    by_cases hc : c = '\n'
    · subst hc
      rw [parts_newline] at h
      rcases List.mem_cons.1 h with rfl | h
      · exact List.not_mem_nil
      · exact ih h
    · have hne : '\n' ≠ c := fun h => hc h.symm
      rw [parts_cons hc] at h
      -- the character goes to the front of the first part, if there is one
      split at h
      · obtain rfl := List.mem_singleton.1 h
        exact fun hmem => (List.mem_cons.1 hmem).elim hne List.not_mem_nil
      · rename_i first others hparts
        rw [hparts] at ih
        rcases List.mem_cons.1 h with rfl | h
        · exact fun hmem => (List.mem_cons.1 hmem).elim hne (ih List.mem_cons_self)
        · exact ih (List.mem_cons_of_mem _ h)

/-- The lines of a source. -/
def splitLines (source : List Char) : List Line :=
  if source.isEmpty then []
  else (parts source).mapIdx fun i text => ⟨i + 1, text⟩

@[simp] theorem splitLines_nil : splitLines [] = [] := rfl

theorem getElem?_splitLines_eq {source : List Char} (h : source ≠ []) (i : Nat) :
    (splitLines source)[i]? = (parts source)[i]?.map fun text => ⟨i + 1, text⟩ := by
  have hempty : source.isEmpty = false := List.isEmpty_eq_false_iff.2 h
  rw [splitLines, hempty]
  exact List.getElem?_mapIdx

theorem map_text_splitLines {source : List Char} (h : source ≠ []) :
    (splitLines source).map Line.text = parts source := by
  refine List.ext_getElem? fun i => ?_
  rw [List.getElem?_map, getElem?_splitLines_eq h, Option.map_map]
  exact congrFun Option.map_id _

theorem text_mem_parts_of_mem_splitLines {source : List Char} {line : Line}
    (h : line ∈ splitLines source) : line.text ∈ parts source := by
  rw [splitLines] at h
  split at h
  · cases h
  · obtain ⟨i, hi, rfl⟩ := List.mem_mapIdx.1 h
    exact List.getElem_mem hi

theorem newline_not_mem_of_mem_splitLines {source : List Char} {line : Line}
    (h : line ∈ splitLines source) : '\n' ∉ line.text :=
  newline_not_mem_of_mem_parts (text_mem_parts_of_mem_splitLines h)

/-! ## Numbers of lines -/

theorem number_of_getElem?_splitLines {source : List Char} {i : Nat} {line : Line}
    (h : (splitLines source)[i]? = some line) : line.number = i + 1 := by
  rw [splitLines] at h
  split at h
  · cases h
  · rw [List.getElem?_mapIdx, Option.map_eq_some_iff] at h
    obtain ⟨text, -, rfl⟩ := h
    rfl

theorem index_of_getElem?_splitLines {source : List Char} {i : Nat} {line : Line}
    (h : (splitLines source)[i]? = some line) : line.index = i := by
  rw [Line.index, number_of_getElem?_splitLines h, Nat.add_sub_cancel]

/-- A line of a source stands at the place that its number gives. -/
theorem getElem?_splitLines {source : List Char} {line : Line} (h : line ∈ splitLines source) :
    (splitLines source)[line.index]? = some line ∧ line.number = line.index + 1 := by
  obtain ⟨i, hi⟩ := List.getElem?_of_mem h
  have hindex := index_of_getElem?_splitLines hi
  refine ⟨?_, ?_⟩
  · rw [hindex]
    exact hi
  · rw [number_of_getElem?_splitLines hi, hindex]

theorem pairwise_index_splitLines (source : List Char) :
    (splitLines source).Pairwise fun a b => a.index < b.index := by
  rw [List.pairwise_iff_getElem]
  intro i j hi hj hij
  rw [index_of_getElem?_splitLines (List.getElem?_eq_getElem hi),
    index_of_getElem?_splitLines (List.getElem?_eq_getElem hj)]
  exact hij

/-- A source with its lines at hand. -/
structure Source where
  text : List Char
  lines : Array Line
  lines_eq : lines = (splitLines text).toArray

/-- The source of a text. -/
def Source.ofText (text : List Char) : Source where
  text := text
  lines := (splitLines text).toArray
  lines_eq := rfl

end ContractAudit
