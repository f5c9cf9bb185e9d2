import ContractAudit.Number
import ContractAudit.Proofs.Binary64.Shortest
import ContractAudit.Proofs.Json.Grammar
import Mathlib.Data.List.DropRight

/-!
# Numbers are written in the grammar

A whole number is written as its digits. A binary64 number is written as the fewest digits that
round to it, laid out with a point or with an exponent, which is either way a decimal with the value
of these digits (`decimal_withPoint`, `decimal_mantissa`). By `round_shortest` it denotes the
number.

Main results: `denotesNumber_int`, `denotesNumber_write`.
-/

namespace ContractAudit

open Json.Grammar

/-! ## Digits -/

namespace Json.Grammar

variable {s t : List Char}

theorem digitsValue_append (s t : List Char) :
    digitsValue (s ++ t) = digitsValue s * 10 ^ t.length + digitsValue t := by
  unfold digitsValue
  rw [Nat.ofDigitChars_append, Nat.ofDigitChars_eq_ofDigitChars_zero, Nat.mul_comm]

theorem digitsValue_replicate_zero (n : Nat) : digitsValue (List.replicate n '0') = 0 := by
  simp [digitsValue]

theorem digitsValue_toDigits (n : Nat) : digitsValue (Nat.toDigits 10 n) = n :=
  Nat.ofDigitChars_ten_toDigits

theorem isDigits_append_replicate (h : IsDigits s) (n : Nat) :
    IsDigits (s ++ List.replicate n '0') := by
  refine ⟨by simp [h.1], fun c hc => ?_⟩
  rcases List.mem_append.1 hc with hc | hc
  · exact h.2 c hc
  · rw [List.eq_of_mem_replicate hc]
    rfl

theorem isDigits_replicate_append (h : IsDigits s) (n : Nat) :
    IsDigits (List.replicate n '0' ++ s) := by
  refine ⟨by simp [h.1], fun c hc => ?_⟩
  rcases List.mem_append.1 hc with hc | hc
  · rw [List.eq_of_mem_replicate hc]
    rfl
  · exact h.2 c hc

theorem isDigits_toDigits (n : Nat) : IsDigits (Nat.toDigits 10 n) :=
  ⟨Nat.toDigits_ne_nil, fun _ => Nat.isDigit_of_mem_toDigits (by decide) (by decide)⟩

theorem head?_toDigits_ne_zero {n : Nat} (h : 0 < n) : (Nat.toDigits 10 n).head? ≠ some '0' := by
  induction n using Nat.strong_induction_on with
  | _ n ih =>
    rcases Nat.lt_or_ge n 10 with hlt | hge
    · have hdigit : ∀ d < 10, 0 < d → Nat.digitChar d ≠ '0' := by decide
      rw [Nat.toDigits_of_lt_base hlt, List.head?_singleton, Ne, Option.some.injEq]
      exact hdigit n hlt h
    · -- the first digit is that of the number without its last digit
      obtain ⟨c, hc⟩ := Option.isSome_iff_exists.1
        (List.isSome_head?.2 (Nat.toDigits_ne_nil (n := n / 10) (b := 10)))
      have hfirst := ih (n / 10) (by omega) (by omega)
      rw [Nat.toDigits_of_base_le (by decide) hge, List.head?_append, hc, Option.some_or]
      rwa [hc] at hfirst

theorem isWhole_toDigits (n : Nat) : IsWhole (Nat.toDigits 10 n) := by
  refine ⟨isDigits_toDigits n, fun hhead => ?_⟩
  rcases Nat.eq_zero_or_pos n with rfl | hpos
  · exact Nat.toDigits_zero 10
  · exact absurd hhead (head?_toDigits_ne_zero hpos)

theorem isWhole_zero : IsWhole ['0'] := by
  have h := isWhole_toDigits 0
  rwa [Nat.toDigits_zero] at h

/-- A whole number of any size is written as what denotes it. -/
theorem denotesNumber_int (n : Int) : DenotesNumber (toString n).toList (.int n) := by
  cases n with
  | ofNat n =>
    have h := DenotesUnsigned.whole (isWhole_toDigits n)
    rw [digitsValue_toDigits] at h
    exact Nat.toList_repr ▸ .unsigned h
  | negSucc n =>
    have h := DenotesUnsigned.whole (isWhole_toDigits (n + 1))
    rw [digitsValue_toDigits] at h
    have htext : (toString (Int.negSucc n)).toList = '-' :: Nat.toDigits 10 (n + 1) := by
      rw [← Nat.toList_repr]
      exact String.toList_append
    rw [htext]
    exact .minus h

/-- A decimal with a point and no exponent. -/
theorem decimal_point {whole part : List Char} (hwhole : IsWhole whole)
    (hpart : ∀ c ∈ part, c.isDigit = true) :
    Decimal (whole ++ '.' :: if part.isEmpty then ['0'] else part)
      (digitsValue whole + digitsValue part / 10 ^ part.length) := by
  have hfraction : Fraction ('.' :: if part.isEmpty then ['0'] else part)
      (digitsValue part / 10 ^ part.length) := by
    cases part with
    | nil =>
      have hvalue : (digitsValue [] : Rat) / 10 ^ ([] : List Char).length =
          digitsValue ['0'] / 10 ^ ['0'].length := by
        norm_num [digitsValue, Nat.ofDigitChars]
      rw [hvalue]
      exact .digits isWhole_zero.1
    | cons c part => exact .digits ⟨List.cons_ne_nil c part, hpart⟩
  have hdecimal := Decimal.mk hwhole hfraction .absent (by simp)
  rwa [List.append_nil, zpow_zero, mul_one] at hdecimal

end Json.Grammar

namespace Binary64

/-! ## Layouts -/

variable {s : List Char}

/-- Digits of which the first is not zero. -/
structure IsLeading (s : List Char) : Prop where
  digits : IsDigits s
  head : s.head? ≠ some '0'

theorem IsLeading.isWhole_append (h : IsLeading s) (n : Nat) :
    IsWhole (s ++ List.replicate n '0') := by
  refine ⟨isDigits_append_replicate h.digits n, fun hhead => ?_⟩
  obtain ⟨c, hc⟩ := Option.isSome_iff_exists.1 (List.isSome_head?.2 h.digits.1)
  rw [List.head?_append, hc, Option.some_or, ← hc] at hhead
  exact absurd hhead h.head

theorem IsLeading.take (h : IsLeading s) {n : Nat} (hn : 0 < n) : IsLeading (s.take n) := by
  refine ⟨⟨?_, fun c hc => h.digits.2 c (List.mem_of_mem_take hc)⟩, ?_⟩
  · simp [h.digits.1, hn.ne']
  · rw [List.head?_take, if_neg hn.ne']
    exact h.head

theorem toList_withPoint_natCast (s : List Char) {c : Nat} (hc : 0 < c) :
    (withPoint s c).toList = s.take c ++ List.replicate (c - s.length) '0' ++
      '.' :: if (s.drop c).isEmpty then ['0'] else s.drop c := by
  have hzeros : ((c : Int) - s.length).toNat = c - s.length := by omega
  simp [withPoint, hzeros, hc.ne']

theorem toList_withPoint_neg (s : List Char) (c : Nat) :
    (withPoint s (-c)).toList = ['0'] ++
      '.' :: if (List.replicate c '0' ++ s).isEmpty then ['0'] else List.replicate c '0' ++ s := by
  simp [withPoint]

/-- Digits with the point after the first `count` of them. -/
theorem decimal_withPoint (hs : IsLeading s) (count : Int) :
    Decimal (withPoint s count).toList (digitsValue s * 10 ^ (count - s.length)) := by
  rcases Int.lt_or_le 0 count with hcount | hcount
  · obtain ⟨c, rfl⟩ := Int.eq_ofNat_of_zero_le hcount.le
    have hpart : ∀ d ∈ s.drop c, d.isDigit = true := fun d hd =>
      hs.digits.2 d (List.mem_of_mem_drop hd)
    have hc : 0 < c := by omega
    have hdecimal := decimal_point ((hs.take hc).isWhole_append (c - s.length)) hpart
    rw [toList_withPoint_natCast s hc]
    convert hdecimal using 1
    -- the point is behind the digits and perhaps zeros, or between the digits
    rcases Nat.le_total s.length c with hlen | hlen
    · obtain ⟨j, rfl⟩ := Nat.exists_eq_add_of_le hlen
      rw [digitsValue_append, digitsValue_replicate_zero, List.length_replicate,
        List.take_of_length_le hlen, List.drop_of_length_le hlen, Nat.add_sub_cancel_left,
        Nat.cast_add, add_sub_cancel_left, zpow_natCast]
      simp [digitsValue]
    · obtain ⟨j, hj⟩ := Nat.exists_eq_add_of_le hlen
      have hsplit := digitsValue_append (s.take c) (s.drop c)
      have hdrop : (s.drop c).length = j := by rw [List.length_drop]; omega
      rw [List.take_append_drop, hdrop] at hsplit
      rw [hsplit, hdrop, hj, Nat.sub_eq_zero_of_le (by omega), List.replicate_zero,
        List.append_nil, Nat.cast_add c, sub_add_cancel_left, zpow_neg, zpow_natCast]
      push_cast
      field_simp
  · obtain ⟨c, hc⟩ := Int.eq_ofNat_of_zero_le (show 0 ≤ -count by omega)
    obtain rfl : count = -c := by omega
    have hdecimal := decimal_point isWhole_zero (isDigits_replicate_append hs.digits c).2
    rw [toList_withPoint_neg]
    convert hdecimal using 1
    have hzero : digitsValue ['0'] = 0 := rfl
    rw [digitsValue_append, digitsValue_replicate_zero, List.length_append, List.length_replicate,
      hzero, ← neg_add', zpow_neg, ← Nat.cast_add, zpow_natCast]
    push_cast
    ring

theorem exponent_layout (layout : Layout) (e : Int) :
    Exponent ('e' :: (layout.exponent e).toList) e := by
  unfold Layout.exponent
  dsimp only
  have hdigits := isDigits_replicate_append (isDigits_toDigits e.natAbs)
    (layout.exponentWidth - (toString e.natAbs).length)
  have hvalue : digitsValue (List.replicate
      (layout.exponentWidth - (toString e.natAbs).length) '0' ++ Nat.toDigits 10 e.natAbs) =
        e.natAbs := by
    rw [digitsValue_append, digitsValue_replicate_zero, digitsValue_toDigits, Nat.zero_mul,
      Nat.zero_add]
  have htext : (toString e.natAbs).toList = Nat.toDigits 10 e.natAbs := Nat.toList_repr
  rw [String.toList_append, String.toList_append, String.toList_ofList, htext, List.append_assoc]
  split
  · rename_i hneg
    have h := SignedDigits.minus hdigits
    rw [hvalue, show -((e.natAbs : Nat) : Int) = e by omega] at h
    exact .digits (.inl rfl) h
  · have h := SignedDigits.plus hdigits
    rw [hvalue, show ((e.natAbs : Nat) : Int) = e by omega] at h
    exact .digits (.inl rfl) h

/-- One digit before the point, if there are more, and an exponent. -/
theorem decimal_mantissa (layout : Layout) {first : Char} {rest : List Char}
    (hs : IsLeading (first :: rest)) (e : Int) :
    Decimal ((if rest.isEmpty then [first] else first :: '.' :: rest) ++
        'e' :: (layout.exponent e).toList)
      (digitsValue (first :: rest) * 10 ^ (e - rest.length)) := by
  have hwhole : IsWhole [first] := (hs.take one_pos).isWhole_append 0
  have hsplit := digitsValue_append [first] rest
  have hfraction : Fraction (if rest.isEmpty then [] else '.' :: rest)
      (digitsValue rest / 10 ^ rest.length) := by
    cases rest with
    | nil => simpa [digitsValue] using Fraction.absent
    | cons c rest =>
      exact .digits ⟨List.cons_ne_nil c rest, fun d hd => hs.digits.2 d (List.mem_cons_of_mem _ hd)⟩
  have hdecimal := Decimal.mk hwhole hfraction (exponent_layout layout e) (by simp)
  convert hdecimal using 1
  · cases rest <;> rfl
  · rw [← List.singleton_append, hsplit, zpow_sub₀ (by norm_num), zpow_natCast]
    push_cast
    field_simp

/-- The significant digits of a number are all of its digits but the zeros at the end. -/
theorem exists_significant {n : Nat} (hn : 0 < n) (e : Int) :
    ∃ (zeros : Nat) (s : List Char), significant n e = (s, e + zeros + s.length - 1) ∧
      IsLeading s ∧ n = digitsValue s * 10 ^ zeros := by
  obtain ⟨digits, hdigits⟩ : ∃ digits, (toString n).toList = digits := ⟨_, rfl⟩
  have htoDigits : Nat.toDigits 10 n = digits := Nat.toList_repr ▸ hdigits
  obtain ⟨s, hs⟩ : ∃ s, digits.rdropWhile (· == '0') = s := ⟨_, rfl⟩
  obtain ⟨zeros, hzeros⟩ : ∃ zeros, digits.rtakeWhile (· == '0') = List.replicate zeros '0' :=
    ⟨_, List.eq_replicate_of_mem fun c hc =>
      eq_of_beq (List.mem_rtakeWhile_imp (p := fun c => c == '0') hc)⟩
  have hsplit : s ++ List.replicate zeros '0' = digits := by
    rw [← hs, ← hzeros, List.rdropWhile_append_rtakeWhile]
  have hvalue : n = digitsValue s * 10 ^ zeros := by
    rw [← digitsValue_toDigits n, htoDigits, ← hsplit, digitsValue_append,
      digitsValue_replicate_zero, List.length_replicate, Nat.add_zero]
  have hne : s ≠ [] := by
    rintro rfl
    exact hn.ne' (hvalue.trans (Nat.zero_mul _))
  refine ⟨zeros, s, ?_, ⟨⟨hne, fun c hc => ?_⟩, ?_⟩, hvalue⟩
  · unfold significant
    dsimp only
    rw [hdigits, ← hs]
    refine Prod.ext rfl ?_
    have hlength : digits.length = s.length + zeros := by
      rw [← hsplit, List.length_append, List.length_replicate]
    have hpos := List.length_pos_iff.2 hne
    show e + (digits.length - 1 : Nat) = e + zeros + (digits.rdropWhile (· == '0')).length - 1
    rw [hs]
    omega
  · exact (isDigits_toDigits n).2 c (by rw [htoDigits, ← hsplit]; exact List.mem_append_left _ hc)
  · have hhead := head?_toDigits_ne_zero hn
    obtain ⟨c, hc⟩ := Option.isSome_iff_exists.1 (List.isSome_head?.2 hne)
    rwa [htoDigits, ← hsplit, List.head?_append, hc, Option.some_or, ← hc] at hhead

/-- The text of a decimal by its significant digits. -/
theorem toList_decimal (layout : Layout) {n : Nat} {e lead : Int} {first : Char}
    {rest : List Char} (h : significant n e = (first :: rest, lead)) :
    (layout.decimal (n, e)).toList =
      if layout.positionalFrom ≤ lead ∧ lead ≤ layout.positionalTo then
        (withPoint (first :: rest) (lead + 1)).toList
      else
        (if rest.isEmpty then [first] else first :: '.' :: rest) ++
          'e' :: (layout.exponent lead).toList := by
  simp only [Layout.decimal, h]
  split
  · rfl
  · cases rest <;> simp

/-- The text of a decimal has its value, laid out either way. -/
theorem decimal_decimal (layout : Layout) {n : Nat} (hn : 0 < n) (e : Int) :
    Decimal (layout.decimal (n, e)).toList (n * tenPow e) := by
  obtain ⟨zeros, s, hsignificant, hs, hvalue⟩ := exists_significant hn e
  have hscale : (n : Rat) * tenPow e = digitsValue s * 10 ^ (e + zeros) := by
    rw [hvalue, tenPow_eq_zpow, zpow_add₀ (by norm_num), zpow_natCast]
    push_cast
    ring
  obtain ⟨first, rest, rfl⟩ := List.exists_cons_of_ne_nil hs.digits.1
  rw [toList_decimal layout hsignificant, hscale]
  split
  · have hdecimal := decimal_withPoint hs (e + zeros + (first :: rest).length - 1 + 1)
    have hexp : e + zeros + ((first :: rest).length : Nat) - 1 + 1 - (first :: rest).length =
        e + zeros := by omega
    rwa [hexp] at hdecimal
  · have hdecimal := decimal_mantissa layout hs (e + zeros + (first :: rest).length - 1)
    have hexp : e + zeros + ((first :: rest).length : Nat) - 1 - rest.length = e + zeros := by
      rw [List.length_cons]
      omega
    rwa [hexp] at hdecimal

theorem write_pos (layout : Layout) {q : Rat} (hq : 0 < q) :
    layout.write (.finite q) = layout.decimal (shortest q) := by
  simp only [Layout.write]
  rw [if_neg hq.ne', if_neg (not_lt.2 hq.le), Rat.abs_of_nonneg hq.le, String.empty_append]
  rfl

/-- The sign stands before the text of the magnitude. -/
theorem write_neg (layout : Layout) {q : Rat} (hq : 0 ≤ q) :
    layout.write (finite q).neg = "-" ++ layout.write (.finite q) := by
  rcases hq.eq_or_lt with rfl | hpos
  · rfl
  · have hneg : -q < 0 := neg_lt_zero.2 hpos
    rw [write_pos layout hpos]
    simp only [neg, if_neg hpos.ne', Layout.write]
    rw [if_neg hneg.ne, if_pos hneg, Rat.abs_neg, Rat.abs_of_nonneg hq]
    rfl

/-- The text of a number that is not negative is a decimal that rounds to it. -/
theorem exists_decimal_write (layout : Layout) {q : Rat} (hq : 0 ≤ q) (h : round q = .finite q) :
    ∃ p, Decimal (layout.write (.finite q)).toList p ∧ round p = .finite q := by
  rcases hq.eq_or_lt with rfl | hpos
  · have hdecimal : Decimal ['0', '.', '0'] _ := decimal_point isWhole_zero isWhole_zero.1.2
    have hzero : (layout.write (.finite 0)).toList = ['0', '.', '0'] := by simp [Layout.write]
    refine ⟨_, hzero ▸ hdecimal, ?_⟩
    rw [← h]
    congr 1
    norm_num [digitsValue, Nat.ofDigitChars]
  · have hround := round_shortest hpos h
    obtain ⟨⟨n, e⟩, hshortest⟩ : ∃ decimal, shortest q = decimal := ⟨_, rfl⟩
    rw [hshortest] at hround
    have hn : 0 < n := by
      rw [Nat.pos_iff_ne_zero]
      rintro rfl
      rw [Nat.cast_zero, zero_mul, round_zero] at hround
      exact hpos.ne (finite.inj hround)
    rw [write_pos layout hpos, hshortest]
    exact ⟨n * tenPow e, decimal_decimal layout hn e, hround⟩

/-- **Numbers as text.** A finite number of the format is written as what denotes it. -/
theorem denotesNumber_write (layout : Layout) {x : Binary64} (hx : x.IsFinite) :
    DenotesNumber (layout.write x).toList (.real x) := by
  obtain ⟨q, hq, h, hx⟩ := hx
  obtain ⟨p, hdecimal, hround⟩ := exists_decimal_write layout hq h
  rcases hx with rfl | rfl
  · exact .unsigned (.decimal hdecimal hround)
  · rw [write_neg layout hq, String.toList_append]
    exact .minus (.decimal hdecimal hround)

end Binary64

end ContractAudit
