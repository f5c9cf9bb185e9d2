import ContractAudit.Proofs.Analysis
import Mathlib.Data.List.Forall2
import Mathlib.Data.List.Nodup

/-!
# The findings of a report have different ids

An id is written from a key: the name of the detector, the index of the line that keys the finding,
and how many findings of the same key stand before it. Loops key a finding by their own line and
not by the line that is reported, so two loops around one write still give two ids.

* **Reading a key back.** The names of the built-in detectors differ in their first letter. After
  the name and a hyphen the digits of the index end where the text ends or at the next hyphen, which
  is why `reentrancy-1-2` is not `reentrancy-12`. Digits give back their number.
* **Keys of a detector.** A detector goes through the lines once, and each line has an index of its
  own, so its keys are pairwise different (`hasKeys_flatMap`).

Main results:

* `FindingKey.text_inj`: different keys of registered detectors are written differently.
* `exists_keys_builtin`: the findings of an analysis are written from pairwise different keys.
* `ids_nodup`: the ids of a report are pairwise different.
-/

namespace ContractAudit

open Detector

/-- What an id says: the detector, the line that keys the finding, counted from zero, and the count
of earlier findings with both in common. -/
structure FindingKey where
  detector : String
  index : Nat
  ordinal : Nat
deriving DecidableEq

namespace FindingKey

/-- The end of an id: nothing for the first finding of a key, then `-2`, `-3` and so on. -/
def ordinalSuffix (n : Nat) : String := if n = 0 then "" else "-" ++ toString (n + 1)

/-- The id with this key. -/
def text (key : FindingKey) : String :=
  key.detector ++ "-" ++ toString key.index ++ ordinalSuffix key.ordinal

/-! ## Reading a key back -/

theorem toList_toString (n : Nat) : (toString n).toList = Nat.toDigits 10 n := Nat.toList_repr

theorem toDigits_injective {m n : Nat} (h : Nat.toDigits 10 m = Nat.toDigits 10 n) : m = n := by
  have hvalue := congrArg (Nat.ofDigitChars 10 · 0) h
  simpa only [Nat.ofDigitChars_toDigits (show 1 < 10 by decide) (Nat.le_refl 10)] using hvalue

/-- Digits end where no digit follows. -/
theorem takeWhile_isDigit_toDigits (n : Nat) {rest : List Char}
    (h : rest.head?.any Char.isDigit = false) :
    (Nat.toDigits 10 n ++ rest).takeWhile Char.isDigit = Nat.toDigits 10 n := by
  have hdigits : ∀ c ∈ Nat.toDigits 10 n, c.isDigit = true := fun c hc =>
    Nat.isDigit_of_mem_toDigits (by decide) (by decide) hc
  rw [List.takeWhile_append_of_pos hdigits]
  -- the digits are all taken, and nothing of what follows
  cases rest with
  | nil => simp
  | cons c rest =>
    have hc : c.isDigit = false := h
    rw [List.takeWhile_cons_of_neg (by simp [hc]), List.append_nil]

theorem toDigits_append_inj {m n : Nat} {r s : List Char}
    (hr : r.head?.any Char.isDigit = false) (hs : s.head?.any Char.isDigit = false)
    (h : Nat.toDigits 10 m ++ r = Nat.toDigits 10 n ++ s) : m = n ∧ r = s := by
  -- the leading digits of both sides are the two numbers, and what is left is `r` and `s`
  have hdigits := congrArg (List.takeWhile Char.isDigit) h
  rw [takeWhile_isDigit_toDigits m hr, takeWhile_isDigit_toDigits n hs] at hdigits
  obtain rfl := toDigits_injective hdigits
  exact ⟨rfl, List.append_cancel_left h⟩

theorem toList_ordinalSuffix_succ (n : Nat) :
    (ordinalSuffix (n + 1)).toList = '-' :: Nat.toDigits 10 (n + 2) := by
  rw [ordinalSuffix, if_neg (Nat.succ_ne_zero n), String.toList_append, toList_toString]
  rfl

theorem head?_ordinalSuffix (n : Nat) :
    (ordinalSuffix n).toList.head?.any Char.isDigit = false := by
  cases n with
  | zero => rfl
  | succ n => rw [toList_ordinalSuffix_succ]; rfl

theorem ordinalSuffix_injective {m n : Nat}
    (h : (ordinalSuffix m).toList = (ordinalSuffix n).toList) : m = n := by
  cases m with
  | zero =>
    cases n with
    | zero => rfl
    | succ n => rw [toList_ordinalSuffix_succ] at h; cases h
  | succ m =>
    cases n with
    | zero => rw [toList_ordinalSuffix_succ] at h; cases h
    | succ n =>
      rw [toList_ordinalSuffix_succ, toList_ordinalSuffix_succ] at h
      have := toDigits_injective (List.cons.inj h).2
      omega

/-- The names of the built-in detectors. -/
def builtinNames : List String := builtin.map Detector.name

/-- The first letter tells the built-in detectors apart. -/
theorem builtinNames_head {a b : String} (ha : a ∈ builtinNames) (hb : b ∈ builtinNames)
    (h : a.toList.head? = b.toList.head?) : a = b := by
  have hall : ∀ a ∈ builtinNames, ∀ b ∈ builtinNames, a.toList.head? = b.toList.head? → a = b := by
    decide
  exact hall a ha b hb h

theorem builtinNames_ne_nil {a : String} (h : a ∈ builtinNames) : a.toList ≠ [] := by
  have hall : ∀ a ∈ builtinNames, a.toList ≠ [] := by decide
  exact hall a h

theorem toList_text (key : FindingKey) : key.text.toList =
    key.detector.toList ++ '-' :: (Nat.toDigits 10 key.index ++
      (ordinalSuffix key.ordinal).toList) := by
  simp only [text, String.toList_append, toList_toString, List.append_assoc]
  rfl

/-- Different keys of registered detectors are written differently. -/
theorem text_inj {k l : FindingKey} (hk : k.detector ∈ builtinNames)
    (hl : l.detector ∈ builtinNames) (h : k.text = l.text) : k = l := by
  have hlist := congrArg String.toList h
  rw [toList_text, toList_text] at hlist
  -- the first letter decides on the detector, whatever follows the names
  have hdetector : k.detector = l.detector := by
    apply builtinNames_head hk hl
    rw [← List.head?_append_of_ne_nil _ (builtinNames_ne_nil hk), hlist,
      List.head?_append_of_ne_nil _ (builtinNames_ne_nil hl)]
  rw [hdetector] at hlist
  -- after equal names and the hyphen stand the digits of the index
  have hrest := (List.cons.inj (List.append_cancel_left hlist)).2
  obtain ⟨hindex, hsuffix⟩ := toDigits_append_inj (head?_ordinalSuffix _) (head?_ordinalSuffix _)
    hrest
  have hordinal := ordinalSuffix_injective hsuffix
  cases k
  cases l
  simp_all

end FindingKey

/-! ## Keys of a detector -/

/-- The findings at a line have the keys of that line, in order. -/
def KeyedAt (name : String) (line : Line) (found : List Finding) : Prop :=
  ∃ count, found.map Finding.id =
    (List.range count).map fun n => .text (FindingKey.text ⟨name, line.index, n⟩)

theorem keyedAt_nil (name : String) (line : Line) : KeyedAt name line [] := ⟨0, rfl⟩

/-- The plain id of a line is written from the first key of that line. -/
theorem Detector.Profile.id_eq_text (profile : Profile) (index : Nat) :
    profile.id index = FindingKey.text ⟨profile.name, index, 0⟩ :=
  String.append_empty.symm

/-- A single finding with the plain id of a line is keyed by it, wherever it stands. -/
theorem keyedAt_singleton (profile : Profile) (line hit : Line) (severity : Severity) :
    KeyedAt profile.name line [profile.finding (profile.id line.index) severity hit] := by
  refine ⟨1, ?_⟩
  show [Json.Value.text (profile.id line.index)] = _
  rw [profile.id_eq_text]
  rfl

theorem keyedAt_ite (profile : Profile) (line : Line) (severity : Severity) (found : Bool) :
    KeyedAt profile.name line
      (if found then [profile.finding (profile.id line.index) severity line] else []) := by
  cases found
  · exact keyedAt_nil _ line
  · exact keyedAt_singleton profile line line severity

theorem Detector.Reentrancy.keyedAt (lines : Array Line) (mode : ScanMode) (line : Line) :
    KeyedAt profile.name line (findingsAt lines mode line) := by
  refine ⟨countForms line.text, ?_⟩
  rw [findingsAt]
  split
  · -- no form, no finding
    rename_i hcount
    rw [hcount]
    rfl
  · rw [List.map_map]
    rfl

theorem Detector.GasLoop.keyedAt (lines : Array Line) (mode : ScanMode) (line : Line) :
    KeyedAt profile.name line (findingsAt lines mode line) := by
  rw [findingsAt]
  split
  · split
    · exact keyedAt_singleton profile line _ _
    · exact keyedAt_nil _ line
  · exact keyedAt_nil _ line

/-- The findings are written from pairwise different keys of one detector. -/
def HasKeys (name : String) (found : List Finding) : Prop :=
  ∃ keys : List FindingKey, found.map Finding.id = keys.map (fun key => .text key.text) ∧
    keys.Nodup ∧ ∀ key ∈ keys, key.detector = name

theorem hasKeys_nil (name : String) : HasKeys name [] :=
  ⟨[], rfl, List.nodup_nil, fun _ h => absurd h List.not_mem_nil⟩

/-- Findings that are keyed line by line have different keys, since no two lines share an index. -/
theorem hasKeys_flatMap {name : String} {lines : List Line} {findingsAt : Line → List Finding}
    (hlines : lines.Pairwise fun a b => a.index < b.index)
    (hkeyed : ∀ line, KeyedAt name line (findingsAt line)) :
    HasKeys name (lines.flatMap findingsAt) := by
  choose count hcount using hkeyed
  refine ⟨lines.flatMap fun line => (List.range (count line)).map fun n => ⟨name, line.index, n⟩,
    ?_, ?_, ?_⟩
  · rw [List.map_flatMap, List.map_flatMap]
    refine List.flatMap_congr fun line _ => ?_
    rw [hcount, List.map_map]
    rfl
  · rw [List.nodup_flatMap]
    constructor
    · -- at one line the ordinals differ
      intro line _
      refine List.nodup_range.map fun m n hmn => ?_
      exact congrArg FindingKey.ordinal hmn
    · -- of two lines the later one has a larger index
      refine hlines.imp fun {a b} hab => ?_
      intro key ha hb
      obtain ⟨m, -, rfl⟩ := List.mem_map.1 ha
      obtain ⟨n, -, hn⟩ := List.mem_map.1 hb
      have hindex : b.index = a.index := congrArg FindingKey.index hn
      omega
  · intro key hkey
    obtain ⟨line, -, hline⟩ := List.mem_flatMap.1 hkey
    obtain ⟨n, -, rfl⟩ := List.mem_map.1 hline
    rfl

/-! ## Keys of a report -/

/-- What each detector finds is written from keys with its name. -/
theorem forall₂_hasKeys (source : List Char) (mode : ScanMode) :
    List.Forall₂ HasKeys FindingKey.builtinNames (builtinFound source mode) := by
  have hlines : (Source.ofText source).lines.toList.Pairwise fun a b => a.index < b.index :=
    pairwise_index_splitLines source
  have hoverflow : HasKeys Overflow.profile.name (Overflow.inspect (.ofText source) mode) := by
    rw [Overflow.inspect]
    split
    · exact hasKeys_nil _
    · exact hasKeys_flatMap hlines fun line => keyedAt_ite _ line _ _
  exact .cons (hasKeys_flatMap hlines (Reentrancy.keyedAt _ mode)) <| .cons hoverflow <|
    .cons (hasKeys_flatMap hlines (GasLoop.keyedAt _ mode)) <|
    .cons (hasKeys_flatMap hlines fun line => keyedAt_ite _ line _ _) <|
    .cons (hasKeys_flatMap hlines fun line => keyedAt_ite _ line _ _) .nil

/-- Detectors of different names do not share a key. -/
theorem exists_keys_flatten {names : List String} {founds : List (List Finding)}
    (h : List.Forall₂ HasKeys names founds) (hnames : names.Nodup) :
    ∃ keys : List FindingKey, founds.flatten.map Finding.id = keys.map (fun key => .text key.text) ∧
      keys.Nodup ∧ ∀ key ∈ keys, key.detector ∈ names := by
  induction h with
  | nil => exact ⟨[], rfl, List.nodup_nil, fun _ h => absurd h List.not_mem_nil⟩
  | @cons name found names founds hfound _ ih =>
    obtain ⟨hname, hrest⟩ := List.nodup_cons.1 hnames
    obtain ⟨first, hfirst, hfirstNodup, hfirstName⟩ := hfound
    obtain ⟨later, hlater, hlaterNodup, hlaterName⟩ := ih hrest
    refine ⟨first ++ later, ?_, ?_, ?_⟩
    · rw [List.flatten_cons, List.map_append, hfirst, hlater, List.map_append]
    · refine hfirstNodup.append hlaterNodup ?_
      -- a key in both would bring the first name up again among the later ones
      intro key hkey hkey'
      have hin := hlaterName key hkey'
      rw [hfirstName key hkey] at hin
      exact hname hin
    · intro key hkey
      rcases List.mem_append.1 hkey with hkey | hkey
      · exact List.mem_cons.2 (Or.inl (hfirstName key hkey))
      · exact List.mem_cons_of_mem name (hlaterName key hkey)

/-- The findings of an analysis are written from pairwise different keys of the registry. -/
theorem exists_keys_builtin (source : List Char) (mode : ScanMode) :
    ∃ keys : List FindingKey,
      (builtinFound source mode).flatten.map Finding.id = keys.map (fun key => .text key.text) ∧
      keys.Nodup ∧ ∀ key ∈ keys, key.detector ∈ FindingKey.builtinNames :=
  exists_keys_flatten (forall₂_hasKeys source mode) (by decide)

/-- **Identity.** The ids of a report are texts, and no two findings have the same one: not across
detectors, not for several findings at one line, and not for loops that report the same line. -/
theorem ids_nodup (source : List Char) (mode : ScanMode) :
    ∃ report, analyze source mode = .ok report ∧
      ∃ ids : List String, report.findings.map Finding.id = ids.map Json.Value.text ∧
        ids.Nodup := by
  obtain ⟨report, hreport, hfindings, -⟩ := exists_analyze source mode
  obtain ⟨keys, hkeys, hnodup, hnames⟩ := exists_keys_builtin source mode
  refine ⟨report, hreport, keys.map FindingKey.text, ?_, ?_⟩
  · rw [hfindings, hkeys, List.map_map]
    rfl
  · refine hnodup.map_on fun k hk l hl hkl => ?_
    exact FindingKey.text_inj (hnames k hk) (hnames l hl) hkl

end ContractAudit
