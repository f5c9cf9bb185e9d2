import ContractAudit.Json.Printer
import ContractAudit.Proofs.Json.Numbers
import ContractAudit.Proofs.Json.Scalars
import ContractAudit.Proofs.Json.Unambiguous

/-!
# What is written is JSON for the value

In every style the printer writes a text of the grammar that denotes the value. Left out are the
values that no JSON text denotes (`Value.IsExpressible`): `nan` and the infinities, strings with an
unpaired surrogate, and objects in which a key is repeated.

The printer passes along what is written already, so its loops are first taken apart into the texts
of the single items (`toList_writeItems`, `toList_writeMembers`). The induction is on how the value
is built, over all depths, since an item stands one level deeper than its list.

Main results: `Value.isTextOf_write`, and that what is written tells the value, `Value.write_inj`.
-/

namespace ContractAudit.Json

open Grammar

/-! ## Strings -/

theorem hexDigit?_digitChar {d : Nat} (h : d < 16) :
    Text.hexDigit? (Nat.digitChar d).toNat = some d := by
  have hdigits : ∀ d < 16, Text.hexDigit? (Nat.digitChar d).toNat = some d := by decide
  exact hdigits d h

theorem isUnit_hexDigits {n : Nat} (h : n < 0x10000) : IsUnit (Text.hexDigits 4 n) n := by
  have hdigit : ∀ m, Text.hexDigit? (Nat.digitChar (m % 16)).toNat = some (m % 16) := fun m =>
    hexDigit?_digitChar (Nat.mod_lt m (by decide))
  refine ⟨rfl, ?_⟩
  simp only [Text.hexDigits, List.nil_append, List.cons_append, List.foldlM_cons, List.foldlM_nil,
    hdigit, Option.map_some, Option.bind_eq_bind, Option.bind_some]
  refine congrArg some ?_
  omega

theorem toList_escapeUnit (n : Nat) :
    (escapeUnit n).toList = '\\' :: 'u' :: Text.hexDigits 4 n := by
  simp [escapeUnit]

/-- The code point of a character is below the surrogates, or above them in the range. -/
theorem isCharacter_toNat (c : Char) : Str.isCharacter c.toNat = true := by
  have hvalid : c.toNat < 0xd800 ∨ (0xdfff < c.toNat ∧ c.toNat < 0x110000) := c.valid
  simp only [Str.isCharacter, Bool.or_eq_true, Bool.and_eq_true, decide_eq_true_eq]
  omega

theorem toList_escapePoint_letter (asciiOnly : Bool) :
    ∀ p ∈ letterEscapes, p.1 ≠ '/' → (escapePoint asciiOnly p.2.toNat).toList = ['\\', p.1] := by
  cases asciiOnly <;> decide

/-- The escape of a character for which there is no letter. -/
theorem escapePoint_of_forall (asciiOnly : Bool) {c : Char}
    (h : ∀ letter, (letter, c) ∈ letterEscapes → letter = '/') :
    escapePoint asciiOnly c.toNat =
      if c.toNat < 0x20 then escapeUnit c.toNat
      else if c.toNat < 0x7f || !asciiOnly then String.singleton c
      else if c.toNat < 0x10000 then escapeUnit c.toNat
      else escapeUnit (0xd7c0 + c.toNat / 0x400) ++ escapeUnit (0xdc00 + c.toNat % 0x400) := by
  have hne : ∀ p ∈ letterEscapes, p.1 ≠ '/' → c.toNat ≠ p.2.toNat := by
    rintro ⟨letter, d⟩ hp hletter heq
    obtain rfl : c = d := Char.toNat_inj.1 heq
    exact hletter (h letter hp)
  have h22 : c.toNat ≠ 0x22 := hne ('"', '"') (by decide) (by decide)
  have h5c : c.toNat ≠ 0x5c := hne ('\\', '\\') (by decide) (by decide)
  have h0a : c.toNat ≠ 0x0a := hne ('n', '\n') (by decide) (by decide)
  have h0d : c.toNat ≠ 0x0d := hne ('r', '\r') (by decide) (by decide)
  have h09 : c.toNat ≠ 0x09 := hne ('t', '\t') (by decide) (by decide)
  have h08 : c.toNat ≠ 0x08 := hne ('b', '\x08') (by decide) (by decide)
  have h0c : c.toNat ≠ 0x0c := hne ('f', '\x0c') (by decide) (by decide)
  simp [escapePoint, h22, h5c, h0a, h0d, h09, h08, h0c, isCharacter_toNat, Char.ofNat_toNat]

theorem denotesChar_escapeUnit {c : Char} (h : c.toNat < 0x10000) :
    DenotesChar (escapeUnit c.toNat).toList c := by
  have hescape := Escape.unit (isUnit_hexDigits h) (isCharacter_toNat c)
  rw [Char.ofNat_toNat] at hescape
  rw [toList_escapeUnit]
  exact .escaped hescape

/-- A character beyond the units is escaped by two of them. -/
theorem denotesChar_escapeUnit_append {c : Char} (h : 0x10000 ≤ c.toNat) :
    DenotesChar (escapeUnit (0xd7c0 + c.toNat / 0x400) ++
      escapeUnit (0xdc00 + c.toNat % 0x400)).toList c := by
  have hcharacter := isCharacter_toNat c
  simp only [Str.isCharacter, Bool.or_eq_true, Bool.and_eq_true, decide_eq_true_eq] at hcharacter
  have hhigh : 0xd800 ≤ 0xd7c0 + c.toNat / 0x400 ∧ 0xd7c0 + c.toNat / 0x400 ≤ 0xdbff := by omega
  have hlow : 0xdc00 ≤ 0xdc00 + c.toNat % 0x400 ∧ 0xdc00 + c.toNat % 0x400 ≤ 0xdfff := by omega
  have hpoint : 0x10000 + (0xd7c0 + c.toNat / 0x400 - 0xd800) * 0x400 +
      (0xdc00 + c.toNat % 0x400 - 0xdc00) = c.toNat := by omega
  have hescape := Escape.pair (isUnit_hexDigits (by omega)) (isUnit_hexDigits (by omega)) hhigh hlow
  rw [hpoint, Char.ofNat_toNat] at hescape
  rw [String.toList_append, toList_escapeUnit, toList_escapeUnit]
  exact .escaped hescape

/-- What is written for a character stands for it. -/
theorem denotesChar_escapePoint (asciiOnly : Bool) (c : Char) :
    DenotesChar (escapePoint asciiOnly c.toNat).toList c := by
  by_cases hletter : ∃ letter, (letter, c) ∈ letterEscapes ∧ letter ≠ '/'
  · obtain ⟨letter, hmem, hslash⟩ := hletter
    rw [toList_escapePoint_letter asciiOnly _ hmem hslash]
    exact .escaped (.letter hmem)
  have hnone : ∀ letter, (letter, c) ∈ letterEscapes → letter = '/' := by
    intro letter hmem
    by_contra hslash
    exact hletter ⟨letter, hmem, hslash⟩
  rw [escapePoint_of_forall asciiOnly hnone]
  split
  · exact denotesChar_escapeUnit (by omega)
  · rename_i hcontrol
    split
    · -- a quote and a backslash have letters, so this is neither
      rw [String.toList_singleton]
      refine .plain (Nat.le_of_not_lt hcontrol) ?_ ?_
      · rintro rfl
        exact absurd (hnone '"' (by decide)) (by decide)
      · rintro rfl
        exact absurd (hnone '\\' (by decide)) (by decide)
    · split
      · exact denotesChar_escapeUnit ‹_›
      · exact denotesChar_escapeUnit_append (by omega)

theorem toList_foldl_append {α : Type} (f : α → String) (items : List α) (written : String) :
    (items.foldl (fun out x => out ++ f x) written).toList =
      written.toList ++ items.flatMap fun x => (f x).toList := by
  induction items generalizing written with
  | nil => simp
  | cons x rest ih => simp [ih]

theorem toList_write_text (asciiOnly : Bool) (s : String) :
    (Str.write asciiOnly (.text s)).toList =
      '"' :: (s.toList.flatMap (fun c => (escapePoint asciiOnly c.toNat).toList) ++ ['"']) := by
  unfold Str.write Str.points
  rw [String.toList_append, toList_foldl_append, List.flatMap_map]
  rfl

theorem denotesText_write (asciiOnly : Bool) (s : String) :
    DenotesText (Str.write asciiOnly (.text s)).toList s := by
  rw [toList_write_text]
  refine .mk ?_
  induction s.toList with
  | nil => exact .nil
  | cons c rest ih => exact .cons (denotesChar_escapePoint asciiOnly c) ih

/-! ## Lists and objects -/

namespace Style

variable (style : Style) (depth : Nat)

theorem isGap_newline : IsGap (style.newline depth).toList := by
  unfold newline
  split
  · exact isGap_nil
  · intro c hc
    rw [String.toList_append] at hc
    rcases List.mem_append.1 hc with hc | hc
    · rw [List.mem_singleton.1 hc]
      rfl
    · rw [String.toList_ofList] at hc
      rw [List.eq_of_mem_replicate hc]
      rfl

/-- Items are separated by a comma and white space. -/
theorem exists_separator :
    ∃ gap, (style.separator depth).toList = ',' :: gap ∧ IsGap gap := by
  unfold separator
  split
  · exact ⟨[' '], rfl, isGap_singleton rfl⟩
  · exact ⟨_, String.toList_append, style.isGap_newline depth⟩

end Style

section Printing

variable (style : Style) (depth : Nat)

/-- The text of a member. -/
def memberText (member : Str × Value) : List Char :=
  (member.1.write style.asciiOnly).toList ++ [':', ' '] ++ (member.2.writeAt style depth).toList

theorem toList_writeItems (written : String) (items : List Value) :
    (writeItems style depth written items).toList = written.toList ++
      items.flatMap fun x =>
        (style.separator depth).toList ++ (x.writeAt style depth).toList := by
  induction items generalizing written with
  | nil => simp [writeItems]
  | cons x rest ih => simp [writeItems, ih]

theorem toList_writeMembers (written : String) (members : List (Str × Value)) :
    (writeMembers style depth written members).toList = written.toList ++
      members.flatMap fun member =>
        (style.separator depth).toList ++ memberText style depth member := by
  induction members generalizing written with
  | nil => simp [writeMembers]
  | cons member rest ih => simp [writeMembers, ih, memberText]

end Printing

/-- Texts with commas and white space between them, where each may have white space around it. -/
theorem sequence_append {α : Type} {P : List Char → α → Prop} (text : α → List Char)
    {separator after : List Char} (hseparator : ∃ gap, separator = ',' :: gap ∧ IsGap gap)
    (hafter : IsGap after) {x : α} {xs : List α}
    (h : ∀ y ∈ x :: xs, ∀ before after, IsGap before → IsGap after →
      P (before ++ (text y ++ after)) y)
    {before : List Char} (hbefore : IsGap before) :
    Sequence P (before ++ text x ++ xs.flatMap (fun y => separator ++ text y) ++ after)
      (x :: xs) := by
  obtain ⟨gap, rfl, hgap⟩ := hseparator
  induction xs generalizing x before with
  | nil =>
    rw [List.flatMap_nil, List.append_nil, List.append_assoc]
    exact .last (h x List.mem_cons_self before after hbefore hafter)
  | cons y ys ih =>
    have hfirst := h x List.mem_cons_self before [] hbefore isGap_nil
    have hrest := ih (fun z hz => h z (List.mem_cons_of_mem x hz)) hgap
    rw [List.append_nil] at hfirst
    have hcons := Sequence.cons hfirst hrest (List.cons_ne_nil y ys)
    simpa using hcons

/-! ## Values -/

/-- A value that JSON text can express: its real numbers are finite ones of the format, its strings
are texts, and the keys of an object are distinct. -/
inductive Value.IsExpressible : Value → Prop
  | null : IsExpressible .null
  | bool (b : Bool) : IsExpressible (.bool b)
  | int (n : Int) : IsExpressible (.int n)
  | real {x : Binary64} (h : x.IsFinite) : IsExpressible (.real x)
  | text (s : String) : IsExpressible (.text s)
  | list {items : List Value} (h : ∀ x ∈ items, IsExpressible x) : IsExpressible (.list items)
  | object {members : List (Str × Value)} (hkeys : ∀ member ∈ members, ∃ s, member.1 = .text s)
    (hdistinct : (members.map Prod.fst).Nodup) (h : ∀ member ∈ members, IsExpressible member.2) :
    IsExpressible (.object members)

theorem toList_writeAt_list (style : Style) (depth : Nat) (x : Value) (xs : List Value) :
    ((Value.list (x :: xs)).writeAt style depth).toList =
      '[' :: ((style.newline (depth + 1)).toList ++ (x.writeAt style (depth + 1)).toList ++
        xs.flatMap (fun y => (style.separator (depth + 1)).toList ++
          (y.writeAt style (depth + 1)).toList) ++
        (style.newline depth).toList ++ [']']) := by
  simp [Value.writeAt, toList_writeItems]

theorem toList_writeAt_object (style : Style) (depth : Nat) (member : Str × Value)
    (members : List (Str × Value)) :
    ((Value.object (member :: members)).writeAt style depth).toList =
      '\x7b' :: ((style.newline (depth + 1)).toList ++ memberText style (depth + 1) member ++
        members.flatMap (fun m => (style.separator (depth + 1)).toList ++
          memberText style (depth + 1) m) ++
        (style.newline depth).toList ++ ['\x7d']) := by
  simp [Value.writeAt, toList_writeMembers, memberText]

/-- At every depth what is written for a value denotes it. -/
theorem Value.IsExpressible.denotes {v : Value} (h : v.IsExpressible) (style : Style)
    (depth : Nat) : Denotes (v.writeAt style depth).toList v := by
  induction h generalizing depth with
  | null => exact .word (.word (by simp [words, Value.writeAt]))
  | bool b =>
    cases b with
    | false => exact .word (.word (by simp [words, Value.writeAt]))
    | true => exact .word (.word (by simp [words, Value.writeAt]))
  | int n => exact .word (.number (denotesNumber_int n))
  | real hx => exact .word (.number (Binary64.denotesNumber_write _ hx))
  | text s => exact .text (denotesText_write style.asciiOnly s)
  | @list items _ ih =>
    cases items with
    | nil =>
      have hempty := Denotes.list (.empty isGap_nil)
      simpa [Value.writeAt] using hempty
    | cons x xs =>
      rw [toList_writeAt_list]
      refine .list (sequence_append (fun y : Value => (y.writeAt style (depth + 1)).toList)
        (style.exists_separator _) (style.isGap_newline _) ?_ (style.isGap_newline _))
      intro y hy before after hbefore hafter
      exact .mk hbefore (ih y hy (depth + 1)) hafter
  | @object members hkeys hdistinct _ ih =>
    cases members with
    | nil =>
      have hempty := Denotes.object (.empty isGap_nil) List.nodup_nil
      simpa [Value.writeAt] using hempty
    | cons member members =>
      rw [toList_writeAt_object]
      refine .object (sequence_append (memberText style (depth + 1))
        (style.exists_separator _) (style.isGap_newline _) ?_ (style.isGap_newline _)) hdistinct
      rintro ⟨key, x⟩ hm before after hbefore hafter
      obtain ⟨s, rfl⟩ := hkeys _ hm
      -- a colon follows the key at once, and a space follows the colon
      have hitem := DenotesItem.mk (isGap_singleton (c := ' ') rfl) (ih _ hm (depth + 1)) hafter
      have hmember := DenotesMember.mk hbefore (denotesText_write style.asciiOnly s) isGap_nil hitem
      simpa [memberText] using hmember

/-- **Writing.** In every style, what is written for a value is JSON that denotes the value. -/
theorem Value.isTextOf_write {v : Value} (h : v.IsExpressible) (style : Style) :
    IsTextOf (v.write style).toList v := by
  have hitem := DenotesItem.mk isGap_nil (h.denotes style 0) isGap_nil
  rwa [List.nil_append, List.append_nil] at hitem

/-- What is written tells the value. -/
theorem Value.write_inj {v w : Value} (hv : v.IsExpressible) (hw : w.IsExpressible) {style : Style}
    (h : v.write style = w.write style) : v = w := by
  have htext := isTextOf_write hv style
  rw [h] at htext
  exact htext.unique (isTextOf_write hw style)

theorem Value.isTextOf_write_newline {v : Value} (h : v.IsExpressible) (style : Style) :
    IsTextOf (v.write style ++ "\n").toList v := by
  rw [String.toList_append]
  exact DenotesItem.mk isGap_nil (h.denotes style 0) (isGap_singleton rfl)

end ContractAudit.Json
