import ContractAudit.Proofs.Service.Audits
import ContractAudit.Proofs.Text.Ascii
import ContractAudit.Proofs.Text.TrailingBlanks
import ContractAudit.Proofs.Text.Utf8
import Mathlib.Data.List.DropRight

/-!
# Names of uploads

Which uploads are refused for their extension. The extension is checked on the secured form of the
name, so what securing does to the end of a name decides.

* **The end of a name stays.** An extension is a point and ASCII letters or digits. It has no white
  space, so it ends the last word; nothing of it is dropped by the class of portable characters; and
  its last character is not taken off the end (`exists_secure_append`).
* **Its point may be taken off.** The point of the extension is then the first character of the
  name: nothing that stays on the left was before it (`dropEnds_append_of_forall`). This is so for
  names as `.sol`, `$.sol` or names in another script. What is left has no point and therefore no
  extension at all.

So a name with an accepted extension is refused exactly if its stem leaves neither a letter nor a
digit nor a hyphen: `isAllowed_secure_append_iff`, and for uploads `Host.readUpload_of_extension`.
-/

namespace ContractAudit.FileName

open Text

/-! ## Extensions -/

/-- An extension is a point and letters or digits. -/
def IsExtension (ending : List Char) : Prop :=
  ∃ letters, ending = '.' :: letters ∧ letters ≠ [] ∧ ∀ c ∈ letters, c.isAlphanum = true

/-- The lower-case form of a character, as far as it is in ASCII. Besides the ASCII letters the
sign U+212A has such a form; the lower-case form of a dotted capital I is an i with a mark behind,
which no extension has. -/
def lower (c : Char) : Char :=
  if c = Char.ofNat 0x212a then 'k' else c.toLower

/-- A character that securing keeps wherever it stands in a name. -/
def IsPlain (c : Char) : Prop := c.isAlphanum = true ∨ c = '-'

instance (c : Char) : Decidable (IsPlain c) := inferInstanceAs (Decidable (_ ∨ _))

theorem isPlain_of_isPortable {c : Char} (hportable : isPortable c = true)
    (hedge : isEdge c = false) : IsPlain c := by
  simp only [isEdge, Bool.or_eq_false_iff, beq_eq_false_iff_ne] at hedge
  simpa [IsPlain, isPortable, hedge.1, hedge.2] using hportable

theorem IsPlain.toNat_lt {c : Char} (h : IsPlain c) : c.toNat < 0x80 := by
  rcases h with hletter | rfl
  · exact toNat_lt_of_isAlphanum hletter
  · decide

/-- No step of securing touches a plain character. -/
theorem IsPlain.kept {c : Char} (h : IsPlain c) :
    isBlank c = false ∧ c ≠ '/' ∧ isPortable c = true ∧ isEdge c = false :=
  of_ascii (p := fun c => IsPlain c →
    isBlank c = false ∧ c ≠ '/' ∧ isPortable c = true ∧ isEdge c = false) (by decide +kernel)
    h.toNat_lt h

theorem IsPlain.ne_underscore {c : Char} (h : IsPlain c) : c ≠ '_' := by
  rintro rfl
  exact absurd h (by decide)

/-- The character with a slash as white space. -/
def spaced (c : Char) : Char := if c = '/' then ' ' else c

theorem mem_map_spaced_iff {c : Char} (h : IsPlain c) {s : List Char} :
    c ∈ s.map spaced ↔ c ∈ s := by
  rw [List.mem_map]
  constructor
  · rintro ⟨d, hd, hdc⟩
    unfold spaced at hdc
    split at hdc
    · exact absurd (hdc ▸ h) (by decide)
    · exact hdc ▸ hd
  · exact fun hc => ⟨c, hc, if_neg h.kept.2.1⟩

theorem IsExtension.mem {ending : List Char} (h : IsExtension ending) {c : Char}
    (hc : c ∈ ending) : c = '.' ∨ c.isAlphanum = true := by
  obtain ⟨letters, rfl, -, hletters⟩ := h
  rcases List.mem_cons.1 hc with hc | hc
  · exact Or.inl hc
  · exact Or.inr (hletters c hc)

/-! ## Words -/

theorem wordsFrom_of_forall {word t : List Char} (ht : ∀ c ∈ t, isBlank c = false)
    (hne : t ≠ []) : wordsFrom word t = [word.reverse ++ t] := by
  induction t generalizing word with
  | nil => exact absurd rfl hne
  | cons c t ih =>
    have hc : ¬isBlank c = true := by simp [ht c List.mem_cons_self]
    rw [wordsFrom, if_neg hc]
    cases t with
    | nil => simp [wordsFrom]
    | cons d t =>
      rw [ih (fun c hc => ht c (List.mem_cons_of_mem _ hc)) (List.cons_ne_nil d t)]
      simp

/-- What has no white space ends the last word, behind all that is not white space. -/
theorem exists_intercalate_wordsFrom_append {t : List Char} (ht : ∀ c ∈ t, isBlank c = false)
    (hne : t ≠ []) (word s : List Char) :
    ∃ front, ['_'].intercalate (wordsFrom word (s ++ t)) = front ++ t ∧
      ∀ c, c ≠ '_' → (c ∈ front ↔ c ∈ word ∨ c ∈ s ∧ isBlank c = false) := by
  induction s generalizing word with
  | nil =>
    rw [List.nil_append, wordsFrom_of_forall ht hne, List.intercalate_singleton]
    exact ⟨word.reverse, rfl, by simp⟩
  | cons c s ih =>
    by_cases hc : isBlank c = true
    · obtain ⟨front, hfront, hmem⟩ := ih []
      cases word with
      | nil =>
        refine ⟨front, ?_, fun d hd => ?_⟩
        · rw [List.cons_append, wordsFrom, if_pos hc]
          exact hfront
        · rw [hmem d hd]
          grind
      | cons w word =>
        -- the word ends here, and a `_` stands for the white space behind it
        have hrest : wordsFrom [] (s ++ t) ≠ [] := by
          intro hnil
          rw [hnil] at hfront
          exact hne (List.append_eq_nil_iff.1 hfront.symm).2
        refine ⟨(w :: word).reverse ++ '_' :: front, ?_, fun d hd => ?_⟩
        · rw [List.cons_append, wordsFrom, if_pos hc, if_neg (by simp),
            List.intercalate_cons_of_ne_nil hrest, hfront]
          simp
        · simp only [List.mem_append, List.mem_reverse, List.mem_cons, hmem d hd]
          grind
    · obtain ⟨front, hfront, hmem⟩ := ih (c :: word)
      refine ⟨front, ?_, fun d hd => ?_⟩
      · rw [List.cons_append, wordsFrom, if_neg hc]
        exact hfront
      · rw [hmem d hd]
        grind

/-! ## Ends of a name -/

variable {front tail ending : List Char}

theorem dropEnd_append_letters (front : List Char) {letters : List Char} (hne : letters ≠ [])
    (hletters : ∀ c ∈ letters, c.isAlphanum = true) :
    dropEnd isEdge (front ++ letters) = front ++ letters := by
  have hlast : IsPlain (letters.getLast hne) := Or.inl (hletters _ (List.getLast_mem hne))
  refine List.rdropWhile_eq_self_iff.2 fun h => ?_
  rw [List.getLast_append_of_ne_nil h hne, hlast.kept.2.2.2]
  exact Bool.false_ne_true

/-- An extension stays at the end of a name in which a character stays before it. -/
theorem dropEnds_append_of_exists (hending : IsExtension ending)
    (hfront : ∃ c ∈ front, isEdge c = false) :
    dropEnds isEdge (front ++ ending) = front.dropWhile isEdge ++ ending := by
  obtain ⟨letters, rfl, hne, hletters⟩ := hending
  obtain ⟨c, hc, hedge⟩ := hfront
  have hkept : (front.dropWhile isEdge).isEmpty = false := by
    rw [List.isEmpty_eq_false_iff, Ne, List.dropWhile_eq_nil_iff]
    intro hall
    rw [hall c hc] at hedge
    cases hedge
  rw [dropEnds, List.dropWhile_append, hkept, if_neg Bool.false_ne_true]
  have happend := dropEnd_append_letters (front.dropWhile isEdge ++ ['.']) hne hletters
  rwa [List.append_assoc] at happend

/-- The point of an extension is taken off with the characters before it that do not stay. -/
theorem dropEnds_append_of_forall (hending : IsExtension ending)
    (hfront : ∀ c ∈ front, isEdge c = true) :
    dropEnds isEdge (front ++ ending) = ending.tail := by
  obtain ⟨letters, rfl, hne, hletters⟩ := hending
  have hfirst : letters.dropWhile isEdge = letters := by
    cases letters with
    | nil => exact absurd rfl hne
    | cons c letters =>
      have hc : IsPlain c := Or.inl (hletters c List.mem_cons_self)
      exact List.dropWhile_cons_of_neg (by simp [hc.kept.2.2.2])
  rw [dropEnds, List.dropWhile_append_of_pos hfront, List.dropWhile_cons_of_pos (by decide),
    hfirst, List.tail_cons]
  exact dropEnd_append_letters [] hne hletters

/-- The stem leaves a character in the secured name that is not taken off its ends. -/
def LeavesTrace (stem : List Char) : Prop :=
  ∃ c ∈ stem.flatMap asciiPart, IsPlain c

instance (stem : List Char) : Decidable (LeavesTrace stem) :=
  decidable_of_iff ((stem.flatMap asciiPart).any fun c => decide (IsPlain c)) <| by
    rw [List.any_eq_true, LeavesTrace]
    simp only [decide_eq_true_eq]

/-- Securing keeps an extension as the end of the text whose ends are taken off. -/
theorem exists_secure_append (stem : List Char) (hending : IsExtension (tail.flatMap asciiPart)) :
    ∃ front, secure (stem ++ tail) = dropEnds isEdge (front ++ tail.flatMap asciiPart) ∧
      ((∃ c ∈ front, isEdge c = false) ↔ LeavesTrace stem) := by
  -- up to the ends, each step of securing leaves the extension as it is
  have hkept : ∀ c ∈ tail.flatMap asciiPart,
      isBlank c = false ∧ c ≠ '/' ∧ isPortable c = true := by
    intro c hc
    rcases hending.mem hc with rfl | hletter
    · decide
    · obtain ⟨hblank, hslash, hportable, -⟩ := IsPlain.kept (Or.inl hletter)
      exact ⟨hblank, hslash, hportable⟩
  have hne : tail.flatMap asciiPart ≠ [] := by
    obtain ⟨letters, hletters, -⟩ := hending
    rw [hletters]
    exact List.cons_ne_nil '.' letters
  have hspaced : ((stem ++ tail).flatMap asciiPart).map spaced =
      (stem.flatMap asciiPart).map spaced ++ tail.flatMap asciiPart := by
    have htail : ∀ c ∈ tail.flatMap asciiPart, spaced c = c := fun c hc => if_neg (hkept c hc).2.1
    rw [List.flatMap_append, List.map_append, List.map_congr_left htail, List.map_id']
  obtain ⟨front, hjoined, hmem⟩ := exists_intercalate_wordsFrom_append
    (fun c hc => (hkept c hc).1) hne [] ((stem.flatMap asciiPart).map spaced)
  refine ⟨front.filter isPortable, ?_, ?_⟩
  · show dropEnds isEdge ((['_'].intercalate (words
      (((stem ++ tail).flatMap asciiPart).map spaced))).filter isPortable) = _
    rw [hspaced, words, hjoined, List.filter_append,
      List.filter_eq_self.2 fun c hc => (hkept c hc).2.2]
  · -- the joined words have one character more, the `_`, and it does not stay at an end
    constructor
    · rintro ⟨c, hc, hedge⟩
      obtain ⟨hc, hportable⟩ := List.mem_filter.1 hc
      have hplain := isPlain_of_isPortable hportable hedge
      obtain ⟨hc, hblank⟩ := ((hmem c hplain.ne_underscore).1 hc).resolve_left List.not_mem_nil
      exact ⟨c, (mem_map_spaced_iff hplain).1 hc, hplain⟩
    · rintro ⟨c, hc, hplain⟩
      obtain ⟨hblank, -, hportable, hedge⟩ := hplain.kept
      have hfront : c ∈ front :=
        (hmem c hplain.ne_underscore).2 (Or.inr ⟨(mem_map_spaced_iff hplain).2 hc, hblank⟩)
      exact ⟨c, List.mem_filter.2 ⟨hfront, hportable⟩, hedge⟩

/-! ## Letter case -/

theorem isAlphanum_of_toLower {c : Char} (h : c.toLower.isAlphanum = true) :
    c.isAlphanum = true := by
  rcases Nat.lt_or_ge c.toNat 0x80 with hascii | hascii
  · exact of_ascii (p := fun c => c.toLower.isAlphanum = true → c.isAlphanum = true) (by decide)
      hascii h
  · rwa [toLower_of_not_ascii hascii] at h

theorem eq_point_of_toLower {c : Char} (h : c.toLower = '.') : c = '.' := by
  rcases Nat.lt_or_ge c.toNat 0x80 with hascii | hascii
  · exact of_ascii (p := fun c => c.toLower = '.' → c = '.') (by decide) hascii h
  · rwa [toLower_of_not_ascii hascii] at h

theorem IsExtension.of_map_toLower (h : IsExtension (ending.map Char.toLower)) :
    IsExtension ending := by
  obtain ⟨letters, hmap, hne, hletters⟩ := h
  obtain ⟨point, letters, rfl, hpoint, rfl⟩ := List.map_eq_cons_iff.1 hmap
  refine ⟨letters, by rw [eq_point_of_toLower hpoint], by simpa using hne, fun c hc => ?_⟩
  exact isAlphanum_of_toLower (hletters _ (List.mem_map_of_mem hc))

theorem map_toLower_asciiPart {c : Char} (h : (lower c).toNat < 0x80) :
    (asciiPart c).map Char.toLower = [lower c] := by
  unfold lower at h ⊢
  split
  · rename_i hsign
    rw [hsign]
    decide +kernel
  · rename_i hsign
    rw [if_neg hsign] at h
    rcases Nat.lt_or_ge c.toNat 0x80 with hascii | hascii
    · rw [asciiPart, if_pos hascii, List.map_singleton]
    · rw [toLower_of_not_ascii hascii] at h
      exact absurd h (Nat.not_lt_of_le hascii)

/-- A name with an extension in whatever letter case has it in its ASCII part. -/
theorem map_toLower_flatMap_asciiPart (h : IsExtension (tail.map lower)) :
    (tail.flatMap asciiPart).map Char.toLower = tail.map lower := by
  have hascii : ∀ c ∈ tail, (lower c).toNat < 0x80 := by
    intro c hc
    rcases h.mem (List.mem_map_of_mem hc) with hpoint | hletter
    · rw [hpoint]
      decide
    · exact toNat_lt_of_isAlphanum hletter
  rw [List.map_flatMap, List.flatMap_congr fun c hc => map_toLower_asciiPart (hascii c hc)]
  exact List.flatMap_pure_eq_map lower tail

/-- A name whose stem leaves a trace keeps its extension. -/
theorem isAllowed_secure_append {stem : List Char} {extensions : List String}
    (htail : IsExtension (tail.map lower)) (hmem : String.ofList (tail.map lower) ∈ extensions)
    (hstem : LeavesTrace stem) : isAllowed extensions (secure (stem ++ tail)) = true := by
  have hlower := map_toLower_flatMap_asciiPart htail
  have hending : IsExtension (tail.flatMap asciiPart) := .of_map_toLower (hlower ▸ htail)
  obtain ⟨front, hsecure, hleaves⟩ := exists_secure_append stem hending
  rw [isAllowed, List.any_eq_true]
  refine ⟨_, hmem, ?_⟩
  rw [hsecure, dropEnds_append_of_exists hending (hleaves.2 hstem), List.map_append, hlower,
    List.isSuffixOf_iff_suffix, String.toList_ofList]
  exact List.suffix_append _ _

/-- A name whose stem leaves no trace loses the point of its extension, and with it every
extension. -/
theorem leavesTrace_of_isAllowed {stem : List Char} {extensions : List String}
    (hextensions : ∀ ending ∈ extensions, IsExtension ending.toList)
    (htail : IsExtension (tail.map lower))
    (h : isAllowed extensions (secure (stem ++ tail)) = true) : LeavesTrace stem := by
  have hending : IsExtension (tail.flatMap asciiPart) :=
    .of_map_toLower (map_toLower_flatMap_asciiPart htail ▸ htail)
  obtain ⟨front, hsecure, hleaves⟩ := exists_secure_append stem hending
  rw [isAllowed, List.any_eq_true] at h
  obtain ⟨extension, hextension, hsuffix⟩ := h
  rw [← hleaves]
  by_contra hnone
  have hedge : ∀ c ∈ front, isEdge c = true := by
    intro c hc
    by_contra hc'
    exact hnone ⟨c, hc, Bool.eq_false_iff.2 hc'⟩
  rw [hsecure, dropEnds_append_of_forall hending hedge, List.isSuffixOf_iff_suffix] at hsuffix
  obtain ⟨letters, hletters, -⟩ := hextensions extension hextension
  have hpoint : '.' ∈ ((tail.flatMap asciiPart).tail).map Char.toLower :=
    hsuffix.subset (hletters ▸ List.mem_cons_self)
  obtain ⟨c, hc, hlowered⟩ := List.mem_map.1 hpoint
  obtain ⟨letters, hletters, -, halphanum⟩ := hending
  rw [hletters, List.tail_cons] at hc
  exact absurd (eq_point_of_toLower hlowered ▸ halphanum c hc) (by decide)

theorem isAllowed_secure_append_iff (stem : List Char) {extensions : List String}
    (hextensions : ∀ ending ∈ extensions, IsExtension ending.toList)
    (hmem : String.ofList (tail.map lower) ∈ extensions) :
    isAllowed extensions (secure (stem ++ tail)) = true ↔ LeavesTrace stem := by
  have htail : IsExtension (tail.map lower) := by
    simpa using hextensions _ hmem
  exact ⟨leavesTrace_of_isAllowed hextensions htail, isAllowed_secure_append htail hmem⟩

/-! ## Names as they are sent -/

/-- A name with an extension is not empty, so it is secured. -/
theorem ofSent_eq_secure {name : String} {stem : List Char} (hname : name.toList = stem ++ tail)
    (htail : IsExtension (tail.map lower)) : ofSent name = secure (stem ++ tail) := by
  have hne : name.isEmpty = false := by
    obtain ⟨letters, hletters, -⟩ := htail
    rw [Bool.eq_false_iff, Ne, String.isEmpty_iff]
    intro hempty
    rw [hempty] at hname
    obtain ⟨-, rfl⟩ := List.append_eq_nil_iff.1 hname.symm
    exact absurd hletters (by simp)
  rw [ofSent, hne, if_neg Bool.false_ne_true, hname]

/-- The name is a stem that leaves a trace and one of the extensions, in whatever letter case. -/
def HasExtension (extensions : List String) (name : String) : Prop :=
  ∃ stem tail, name.toList = stem ++ tail ∧ LeavesTrace stem ∧
    IsExtension (tail.map lower) ∧ String.ofList (tail.map lower) ∈ extensions

theorem HasExtension.isAllowed_ofSent {extensions : List String} {name : String}
    (h : HasExtension extensions name) : isAllowed extensions (ofSent name) = true := by
  obtain ⟨stem, tail, hname, hstem, htail, hmem⟩ := h
  rw [ofSent_eq_secure hname htail]
  exact isAllowed_secure_append htail hmem hstem

end ContractAudit.FileName

namespace ContractAudit.Service

open FileName

theorem Host.readUpload_of_not_isAllowed {host : Host} {upload : Http.Upload}
    (h : isAllowed host.settings.allowedExtensions (ofSent upload.name) = false) :
    host.readUpload upload = .error (.wrongExtension host.settings.allowedExtensions) := by
  unfold Host.readUpload
  simp [h]

/-- A file whose name has an accepted extension, in whatever letter case, and whose octets are those
of a text is read with this text, unless the stem leaves nothing in the secured name. Then it is
refused for its extension, although it has it. -/
theorem Host.readUpload_of_extension (host : Host) {upload : Http.Upload}
    {stem tail source : List Char}
    (hextensions : ∀ ending ∈ host.settings.allowedExtensions, IsExtension ending.toList)
    (hname : upload.name.toList = stem ++ tail)
    (htail : String.ofList (tail.map lower) ∈ host.settings.allowedExtensions)
    (hcontent : upload.content = Text.Utf8.encode source) :
    (LeavesTrace stem → host.readUpload upload =
      .ok (String.ofList (secure upload.name.toList), source)) ∧
    (¬LeavesTrace stem → host.readUpload upload =
      .error (.wrongExtension host.settings.allowedExtensions)) := by
  have hsent : ofSent upload.name = secure (stem ++ tail) :=
    ofSent_eq_secure hname (by simpa using hextensions _ htail)
  have hallowed := isAllowed_secure_append_iff stem hextensions htail
  refine ⟨fun hleaves => ?_, fun hlost => ?_⟩
  · refine Host.readUpload_eq_ok_iff.2 ⟨?_, ?_, ?_⟩
    · rw [hsent]
      exact hallowed.2 hleaves
    · rw [hcontent, Text.Utf8.decode?_encode]
    · rw [hsent, hname]
  · refine Host.readUpload_of_not_isAllowed ?_
    rw [hsent]
    exact Bool.eq_false_iff.2 (mt hallowed.1 hlost)

theorem isExtension_of_mem_testing :
    ∀ ending ∈ (Host.ofEnvironment "testing").settings.allowedExtensions,
      IsExtension ending.toList := by
  intro ending hending
  obtain rfl := List.mem_singleton.1 hending
  exact ⟨"sol".toList, by decide, by decide, List.all_eq_true.1 (by decide)⟩

/-- Of a stem in another script a hyphen and a version are left. -/
theorem Host.readUpload_of_extension_version :
    let host := Host.ofEnvironment "testing"
    (∀ ending ∈ host.settings.allowedExtensions, IsExtension ending.toList) ∧
    String.ofList (".SOL".toList.map lower) ∈ host.settings.allowedExtensions ∧
    LeavesTrace "合同-v2".toList ∧
    host.readUpload ⟨"合同-v2.SOL", Text.Utf8.encode ['a']⟩ = .ok ("-v2.SOL", ['a']) := by
  intro host
  have hending : String.ofList (".SOL".toList.map lower) ∈ host.settings.allowedExtensions := by
    decide +kernel
  have hleaves : LeavesTrace "合同-v2".toList := by decide +kernel
  let upload : Http.Upload := ⟨"合同-v2.SOL", Text.Utf8.encode ['a']⟩
  have hname : upload.name.toList = "合同-v2".toList ++ ".SOL".toList := by decide +kernel
  have hread := (Host.readUpload_of_extension host isExtension_of_mem_testing hname hending
    rfl).1 hleaves
  have hsecure : secure "合同-v2.SOL".toList = "-v2.SOL".toList := by decide +kernel
  rw [hsecure] at hread
  exact ⟨isExtension_of_mem_testing, hending, hleaves, hread⟩

/-- Files with the accepted extension are refused for it if securing leaves nothing of the stem. -/
theorem Host.readUpload_of_lost_stem :
    let host := Host.ofEnvironment "testing"
    (∀ ending ∈ host.settings.allowedExtensions, IsExtension ending.toList) ∧
    ".sol" ∈ host.settings.allowedExtensions ∧
    ∀ stem ∈ ["合同", "$", "../", ""],
      ((stem ++ ".sol").toList.map lower) = stem.toList ++ ".sol".toList ∧
      host.readUpload ⟨stem ++ ".sol", Text.Utf8.encode ['a']⟩ =
        .error (.wrongExtension [".sol"]) := by
  intro host
  refine ⟨isExtension_of_mem_testing, by decide, fun stem hstem => ⟨?_, ?_⟩⟩
  · revert stem
    decide +kernel
  · refine Host.readUpload_of_not_isAllowed ?_
    revert stem
    decide +kernel

end ContractAudit.Service
