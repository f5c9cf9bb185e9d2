import ContractAudit.Proofs.Text.Parts
import ContractAudit.Proofs.Text.Utf8
import ContractAudit.SizeLimit
import Mathlib.Algebra.Order.Ring.Rat
import Mathlib.Order.Bounds.Basic
import Mathlib.Order.Lattice

/-!
# Which sources are within the limits

A source is let through when neither its octets nor the characters of its longest line are beyond a
limit. The longest line keeps a limit exactly when every line does (`longestLine_le_iff`), so for
whole limits this is a condition on the octets and on each line.

A limit that is kept is kept by everything smaller, whatever number it is: also an infinite one, and
one that is no number, which nothing exceeds (`Number.not_lt_of_le`).

A part of a source is cut out anywhere, so its first and its last line need not be lines of the
source. But a text without newlines is a part of a source exactly if it is a part of one of its
lines (`isInfix_iff_of_not_mem`): no line of a part is longer than the line it is cut from. Octets
only get fewer. So parts keep the limits that the source keeps (`enforceSizeLimit_eq_ok_of_isInfix`).

Main results: `enforceSizeLimit_int_eq_ok_iff` and `enforceSizeLimit_int_exact`.
-/

namespace ContractAudit

/-! ## Limits -/

theorem Number.not_lt_of_le {limit : Number} {m n : Nat} (h : m ≤ n)
    (hn : limit.lt (.int n) = false) : limit.lt (.int m) = false := by
  have hcast : (m : Rat) ≤ n := by exact_mod_cast h
  unfold Number.lt at hn ⊢
  cases hplace : limit.place? with
  | none => rfl
  | some p =>
    rw [hplace] at hn
    cases p with
    | bottom => cases hn
    | top => rfl
    | «at» q =>
      have hq : ¬ q < (n : Rat) := by simpa [Number.place?, Binary64.Place.before] using hn
      have hq' : ¬ q < (m : Rat) := fun hlt => hq (hlt.trans_le hcast)
      simpa [Number.place?, Binary64.Place.before] using hq'

/-! ## Lines -/

theorem foldl_max_length_le_iff (texts : List (List Char)) (longest n : Nat) :
    texts.foldl (fun longest text => max longest text.length) longest ≤ n ↔
      longest ≤ n ∧ ∀ text ∈ texts, text.length ≤ n := by
  induction texts generalizing longest with
  | nil => simp
  | cons text rest ih =>
    rw [List.foldl_cons, ih, Nat.max_le, List.forall_mem_cons, and_assoc]

/-- The longest line is no longer than every line may be. -/
theorem longestLine_le_iff {source : List Char} {n : Nat} :
    longestLine source ≤ n ↔ ∀ line ∈ parts source, line.length ≤ n := by
  rw [longestLine, foldl_max_length_le_iff]
  simp

/-- The lengths of the lines of a source. -/
def lineLengths (source : List Char) : Set Nat := {n | ∃ line ∈ parts source, line.length = n}

theorem isGreatest_longestLine (source : List Char) :
    IsGreatest (lineLengths source) (longestLine source) := by
  have hle := longestLine_le_iff.1 (Nat.le_refl (longestLine source))
  constructor
  · by_contra hnone
    -- else the lines would all be shorter, and there is one
    have hshorter : ∀ line ∈ parts source, line.length ≤ longestLine source - 1 := by
      intro line hline
      have hne : line.length ≠ longestLine source := fun h => hnone ⟨line, hline, h⟩
      have := hle line hline
      omega
    obtain ⟨first, others, hparts⟩ := List.exists_cons_of_ne_nil (parts_ne_nil source)
    have hfirst : first.length ≠ longestLine source := fun h =>
      hnone ⟨first, hparts ▸ List.mem_cons_self, h⟩
    have hfirst' := hle first (hparts ▸ List.mem_cons_self)
    have hlongest := longestLine_le_iff.2 hshorter
    omega
  · rintro n ⟨line, hline, rfl⟩
    exact hle line hline

/-- The longest line is a line, so for a negative limit too it keeps the limit when all lines do. -/
theorem longestLine_le_int_iff {source : List Char} {n : Int} :
    longestLine source ≤ n ↔ ∀ line ∈ parts source, line.length ≤ n := by
  obtain ⟨⟨longest, hlongest, hlength⟩, hgreatest⟩ := isGreatest_longestLine source
  constructor
  · intro h line hline
    have hle := hgreatest ⟨line, hline, rfl⟩
    omega
  · intro h
    rw [← hlength]
    exact h longest hlongest

/-! ## Parts of a source -/

/-- Texts without newlines do not reach over a newline that joins others. -/
theorem isInfix_intercalate_iff {run : List Char} (hrun : '\n' ∉ run) {texts : List (List Char)}
    (hne : texts ≠ []) :
    run <:+: ['\n'].intercalate texts ↔ ∃ text ∈ texts, run <:+: text := by
  induction texts with
  | nil => exact absurd rfl hne
  | cons text rest ih =>
    cases rest with
    | nil => simp
    | cons second rest =>
      rw [List.intercalate_cons_cons, List.append_assoc, List.singleton_append,
        Text.isInfix_append_cons_iff hrun, ih (List.cons_ne_nil second rest)]
      exact (List.exists_mem_cons_iff ..).symm

theorem isInfix_iff_of_not_mem {run source : List Char} (hrun : '\n' ∉ run) :
    run <:+: source ↔ ∃ line ∈ parts source, run <:+: line := by
  rw [← isInfix_intercalate_iff hrun (parts_ne_nil source), intercalate_parts]

/-- No line of a part of a source is longer than all lines of the source. -/
theorem longestLine_le_of_isInfix {part source : List Char} (h : part <:+: source) :
    longestLine part ≤ longestLine source := by
  rw [longestLine_le_iff]
  intro line hline
  have hplain := newline_not_mem_of_mem_parts hline
  have hpart : line <:+: part := (isInfix_iff_of_not_mem hplain).2 ⟨line, hline, List.infix_rfl⟩
  -- the line is cut from a line of the source
  obtain ⟨whole, hwhole, hcut⟩ := (isInfix_iff_of_not_mem hplain).1 (hpart.trans h)
  exact hcut.length_le.trans (longestLine_le_iff.1 (Nat.le_refl _) whole hwhole)

/-! ## Sources -/

theorem enforceSizeLimit_eq_ok_iff {maxBytes maxLineChars : Number} {source text : List Char} :
    enforceSizeLimit maxBytes maxLineChars source = .ok text ↔
      maxBytes.lt (.int (Text.Utf8.size source)) = false ∧
        maxLineChars.lt (.int (longestLine source)) = false ∧ source = text := by
  unfold enforceSizeLimit
  dsimp only
  split
  · rename_i hbytes
    simp [hbytes]
  split
  · rename_i hbytes hline
    simp [hline]
  · rename_i hbytes hline
    simp [hbytes, hline]

/-- Under whole limits a source is let through, unchanged, exactly when its octets and the
characters of each of its lines keep them. -/
theorem enforceSizeLimit_int_eq_ok_iff {maxBytes maxLineChars : Int} {source text : List Char} :
    enforceSizeLimit (.int maxBytes) (.int maxLineChars) source = .ok text ↔
      (Text.Utf8.encode source).length ≤ maxBytes ∧
        (∀ line ∈ parts source, line.length ≤ maxLineChars) ∧ source = text := by
  rw [enforceSizeLimit_eq_ok_iff, Number.lt_int, Number.lt_int, Text.Utf8.length_encode]
  simp only [decide_eq_false_iff_not, Int.not_lt, longestLine_le_int_iff]

theorem enforceSizeLimit_eq_tooManyBytes_iff {maxBytes maxLineChars : Number}
    {source : List Char} :
    enforceSizeLimit maxBytes maxLineChars source =
        .error (.tooManyBytes (Text.Utf8.size source) maxBytes) ↔
      maxBytes.lt (.int (Text.Utf8.size source)) = true := by
  unfold enforceSizeLimit
  dsimp only
  split
  · rename_i hbytes
    simp [hbytes]
  split
  · rename_i hbytes hline
    simp [hbytes]
  · rename_i hbytes hline
    simp [hbytes]

theorem enforceSizeLimit_eq_lineTooLong_iff {maxBytes maxLineChars : Number}
    {source : List Char} :
    enforceSizeLimit maxBytes maxLineChars source =
        .error (.lineTooLong (longestLine source) maxLineChars) ↔
      maxBytes.lt (.int (Text.Utf8.size source)) = false ∧
        maxLineChars.lt (.int (longestLine source)) = true := by
  unfold enforceSizeLimit
  dsimp only
  split
  · rename_i hbytes
    simp [hbytes]
  split
  · rename_i hbytes hline
    simp [hbytes, hline]
  · rename_i hbytes hline
    simp [hline]

/-- Whatever the limits are, what is cut out of a source that keeps them keeps them. -/
theorem enforceSizeLimit_eq_ok_of_isInfix {maxBytes maxLineChars : Number}
    {part source : List Char} (hpart : part <:+: source)
    (h : enforceSizeLimit maxBytes maxLineChars source = .ok source) :
    enforceSizeLimit maxBytes maxLineChars part = .ok part := by
  obtain ⟨hbytes, hline, -⟩ := enforceSizeLimit_eq_ok_iff.1 h
  exact enforceSizeLimit_eq_ok_iff.2
    ⟨Number.not_lt_of_le (Text.Utf8.size_le_of_isInfix hpart) hbytes,
      Number.not_lt_of_le (longestLine_le_of_isInfix hpart) hline, rfl⟩

/-- The check of a source under whole limits: what is let through, and unchanged, and which excess is
reported, with the exact number of octets or of characters of the longest line. What is let through
is let through under greater limits too, and so is every part of it. -/
theorem enforceSizeLimit_int_exact (maxBytes maxLineChars : Int) (source : List Char) :
    ∃ longest : Nat, IsGreatest (lineLengths source) longest ∧
      let size := (Text.Utf8.encode source).length
      let outcome := enforceSizeLimit (.int maxBytes) (.int maxLineChars) source
      (∀ text, outcome = .ok text ↔
        size ≤ maxBytes ∧ (∀ line ∈ parts source, line.length ≤ maxLineChars) ∧ source = text) ∧
      (outcome = .error (.tooManyBytes size (.int maxBytes)) ↔ maxBytes < size) ∧
      (outcome = .error (.lineTooLong longest (.int maxLineChars)) ↔
        size ≤ maxBytes ∧ ∃ line ∈ parts source, maxLineChars < line.length) ∧
      (Rejection.tooManyBytes size (.int maxBytes)).message =
        "Source is " ++ toString size ++ " bytes; the limit is " ++ toString maxBytes ++
          " bytes" ∧
      (Rejection.lineTooLong longest (.int maxLineChars)).message =
        "Source contains a " ++ toString longest ++ "-character line; the limit is " ++
          toString maxLineChars ∧
      (∀ maxBytes' maxLineChars' : Int, maxBytes ≤ maxBytes' → maxLineChars ≤ maxLineChars' →
        outcome = .ok source →
        enforceSizeLimit (.int maxBytes') (.int maxLineChars') source = .ok source) ∧
      ∀ part, part <:+: source → outcome = .ok source →
        enforceSizeLimit (.int maxBytes) (.int maxLineChars) part = .ok part := by
  refine ⟨longestLine source, isGreatest_longestLine source, ?_⟩
  intro size outcome
  have hsize : Text.Utf8.size source = size := (Text.Utf8.length_encode source).symm
  refine ⟨fun text => enforceSizeLimit_int_eq_ok_iff, ?bytes, ?line, rfl, rfl, ?limits,
    fun part hpart => enforceSizeLimit_eq_ok_of_isInfix hpart⟩
  case bytes =>
    rw [← hsize, enforceSizeLimit_eq_tooManyBytes_iff, Number.lt_int, decide_eq_true_iff]
  case line =>
    rw [enforceSizeLimit_eq_lineTooLong_iff, Number.lt_int, Number.lt_int, hsize,
      decide_eq_false_iff_not, Int.not_lt, decide_eq_true_iff, ← Int.not_le,
      longestLine_le_int_iff]
    simp only [not_forall, Int.not_le, exists_prop]
  case limits =>
    intro maxBytes' maxLineChars' hbytes hline hok
    obtain ⟨hsize', hlines, -⟩ := enforceSizeLimit_int_eq_ok_iff.1 hok
    exact enforceSizeLimit_int_eq_ok_iff.2
      ⟨hsize'.trans hbytes, fun line h => (hlines line h).trans hline, rfl⟩

/-- A letter of two octets: five octets, and two characters in the longest line. -/
theorem enforceSizeLimit_int_exact_accent :
    let source := "é\nab".toList
    enforceSizeLimit (.int 5) (.int 2) source = .ok source ∧
      enforceSizeLimit (.int 6) (.int 9) source = .ok source ∧
      enforceSizeLimit (.int 5) (.int 2) "\na".toList = .ok "\na".toList ∧
      enforceSizeLimit (.int 4) (.int 1) source = .error (.tooManyBytes 5 (.int 4)) ∧
      enforceSizeLimit (.int 5) (.int 1) source = .error (.lineTooLong 2 (.int 1)) := by
  intro source
  obtain ⟨-, -, hok, -, -, -, -, hlimits, hparts⟩ := enforceSizeLimit_int_exact 5 2 source
  have haccepted : enforceSizeLimit (.int 5) (.int 2) source = .ok source :=
    (hok source).2 ⟨by decide, by decide, rfl⟩
  obtain ⟨-, -, -, hbytes, -⟩ := enforceSizeLimit_int_exact 4 1 source
  obtain ⟨longest, hlongest, -, -, hline, -⟩ := enforceSizeLimit_int_exact 5 1 source
  have htwo : longest = 2 := hlongest.unique (isGreatest_longestLine source)
  refine ⟨haccepted, hlimits 6 9 (by decide) (by decide) haccepted,
    hparts "\na".toList ⟨"é".toList, "b".toList, by decide⟩ haccepted, hbytes.2 (by decide), ?_⟩
  rw [← htwo]
  exact hline.2 ⟨by decide, "ab".toList, by decide, by decide⟩

end ContractAudit
