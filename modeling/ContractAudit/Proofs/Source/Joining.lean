import ContractAudit.ContractName

/-!
# Joining sources and lines

Every line number and every window rests on how a source is split. Splitting loses nothing:

* **Back.** The texts of the lines, joined by newlines, are the source, and the lines are numbered
  from one to one more than there are newlines.
* **Forth.** Texts without newlines are the lines of the source that they are joined to. The one
  exception is a single empty text: its source is empty, and the empty source has no lines.
* **Composition.** The lines of two sources that are joined by a newline are those of the first one,
  and below them those of the second. What is found by going through the lines from the top, as the
  name of the source is, is found in the first source if it is there at all.

Main results: `map_text_splitLines_intercalate_iff`, `splitLines_append_newline` and
`splitLines_lossless`.
-/

namespace ContractAudit

/-! ## Numbers -/

theorem length_parts (source : List Char) :
    (parts source).length = source.count '\n' + 1 := by
  induction source with
  | nil => rfl
  | cons c rest ih =>
    by_cases hc : c = '\n'
    · subst hc
      rw [parts_newline, List.length_cons, ih, List.count_cons_self]
    · -- the character goes to the front of the first part
      obtain ⟨first, others, hparts⟩ := List.exists_cons_of_ne_nil (parts_ne_nil rest)
      rw [hparts] at ih
      rw [parts_cons hc, hparts, List.count_cons_of_ne hc]
      exact ih

theorem length_splitLines {source : List Char} (h : source ≠ []) :
    (splitLines source).length = source.count '\n' + 1 := by
  rw [← length_parts, ← map_text_splitLines h, List.length_map]

theorem map_number_splitLines {source : List Char} (h : source ≠ []) :
    (splitLines source).map Line.number = List.range' 1 (source.count '\n' + 1) := by
  refine List.ext_getElem ?_ fun i hi _ => ?_
  · rw [List.length_map, length_splitLines h, List.length_range']
  · rw [List.length_map] at hi
    rw [List.getElem_map, List.getElem_range',
      number_of_getElem?_splitLines (List.getElem?_eq_getElem hi)]
    omega

/-! ## Texts that are joined to a source -/

/-- Texts without newlines are the lines of what they are joined to, but for one empty text. -/
theorem map_text_splitLines_intercalate_iff {texts : List (List Char)}
    (h : ∀ text ∈ texts, '\n' ∉ text) :
    (splitLines (['\n'].intercalate texts)).map Line.text = texts ↔ texts ≠ [[]] := by
  constructor
  · rintro hsplit rfl
    cases hsplit
  · intro hne
    by_cases htexts : texts = []
    · subst htexts
      rfl
    · have hparts : parts (['\n'].intercalate texts) = texts := by
        rw [parts_intercalate htexts, flatMap_parts_of_not_mem h]
      -- only one empty text is joined to the empty source
      have hsource : ['\n'].intercalate texts ≠ [] := by
        intro hnil
        rw [hnil, parts_nil] at hparts
        exact hne hparts.symm
      rw [map_text_splitLines hsource, hparts]

/-! ## Sources that are joined -/

/-- The line with `n` lines put above its source. -/
def Line.shift (n : Nat) (line : Line) : Line :=
  { line with number := line.number + n }

theorem splitLines_append_newline {s t : List Char} (hs : s ≠ []) (ht : t ≠ []) :
    splitLines (s ++ '\n' :: t) =
      splitLines s ++ (splitLines t).map (Line.shift (splitLines s).length) := by
  refine List.ext_getElem? fun i => ?_
  have hlength : (splitLines s).length = (parts s).length := by
    rw [length_splitLines hs, length_parts]
  rw [getElem?_splitLines_eq (List.append_ne_nil_of_left_ne_nil hs _), parts_append_newline]
  rcases Nat.lt_or_ge i (parts s).length with hi | hi
  · -- a line of the first source keeps its number
    rw [List.getElem?_append_left hi, List.getElem?_append_left (hlength ▸ hi),
      getElem?_splitLines_eq hs]
  · rw [List.getElem?_append_right hi, List.getElem?_append_right (hlength ▸ hi),
      List.getElem?_map, getElem?_splitLines_eq ht, hlength, Option.map_map]
    have hnumber : i + 1 = i - (parts s).length + 1 + (parts s).length := by omega
    rw [hnumber]
    rfl

theorem contractName?_append_newline {s t : List Char} (hs : s ≠ []) (ht : t ≠ []) :
    contractName? (s ++ '\n' :: t) = (contractName? s).or (contractName? t) := by
  unfold contractName?
  -- no line is searched by its number
  rw [splitLines_append_newline hs ht, List.findSome?_append, List.findSome?_map]
  rfl

/-- **Lines.** A source with characters is its lines joined by newlines, and these are counted up
from one; texts without newlines are split again as they were joined, unless there is one and it is
empty. The lines of two joined sources are those of one above those of the other, so the name of the
whole is that of the first source, or else that of the second. -/
theorem splitLines_lossless :
    (∀ source : List Char, source ≠ [] →
      ['\n'].intercalate ((splitLines source).map Line.text) = source ∧
      (∀ line ∈ splitLines source, '\n' ∉ line.text) ∧
      (splitLines source).map Line.number = List.range' 1 (source.count '\n' + 1)) ∧
    (∀ texts : List (List Char), (∀ text ∈ texts, '\n' ∉ text) →
      ((splitLines (['\n'].intercalate texts)).map Line.text = texts ↔ texts ≠ [[]])) ∧
    ∀ s t : List Char, s ≠ [] → t ≠ [] →
      splitLines (s ++ '\n' :: t) =
        splitLines s ++ (splitLines t).map (Line.shift (splitLines s).length) ∧
      contractName? (s ++ '\n' :: t) = (contractName? s).or (contractName? t) := by
  refine ⟨fun source hsource => ⟨?_, ?_, map_number_splitLines hsource⟩, ?_, ?_⟩
  · rw [map_text_splitLines hsource, intercalate_parts]
  · exact fun line hline => newline_not_mem_of_mem_splitLines hline
  · exact fun texts htexts => map_text_splitLines_intercalate_iff htexts
  · exact fun s t hs ht => ⟨splitLines_append_newline hs ht, contractName?_append_newline hs ht⟩

/-- Newlines at both ends of a source, and next to the one that joins two sources. -/
theorem splitLines_lossless_empty_lines :
    let s := "\n// contract A\n".toList
    let t := "\ncontract B\nlibrary C".toList
    s ≠ [] ∧ t ≠ [] ∧
      ['\n'].intercalate ((splitLines s).map Line.text) = s ∧
      (splitLines s).map Line.number = [1, 2, 3] ∧
      (splitLines (['\n'].intercalate [[], ['a'], [], []])).map Line.text = [[], ['a'], [], []] ∧
      (splitLines (s ++ '\n' :: t)).map Line.number = [1, 2, 3, 4, 5, 6] ∧
      contractName? (s ++ '\n' :: t) = some ['B'] := by
  intro s t
  have hs : s ≠ [] := by decide
  have ht : t ≠ [] := by decide
  obtain ⟨hback, hforth, hjoined⟩ := splitLines_lossless
  obtain ⟨htexts, -, hnumbers⟩ := hback s hs
  obtain ⟨hlines, hname⟩ := hjoined s t hs ht
  refine ⟨hs, ht, htexts, hnumbers, (hforth _ (by decide)).2 (by decide), ?_, ?_⟩
  · rw [hlines]
    decide
  · rw [hname]
    decide

end ContractAudit
