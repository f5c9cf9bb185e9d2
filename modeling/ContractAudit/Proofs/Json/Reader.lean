import ContractAudit.Json.Reader
import ContractAudit.Proofs.Text.Utf8

/-!
# Texts that are not read

The reader refuses some texts that the grammar of JSON allows: a value in which too many lists or
objects stand inside each other, and one with a whole number of too many digits. The two refusals
differ: the first is told apart from all others, the second is one like that of a malformed text.

A text that starts like such a value is refused for it, whatever follows: the reader does not look
behind the place at which it stops.
-/

namespace ContractAudit.Json

/-- A text in UTF-8 that is taken for one is read by its characters. -/
theorem readOctets_encode {nesting : Nat} {s : List Char}
    (h : detectEncoding (Text.Utf8.encode s) = (.utf8, Text.Utf8.encode s)) :
    readOctets nesting (Text.Utf8.encode s) = readPoints nesting (s.map Char.toNat) := by
  have hdecode : decode? (Text.Utf8.encode s) = some (s.map Char.toNat) := by
    rw [decode?, h]
    exact Text.Utf8.decodePoints?_encode s
  rw [readOctets, hdecode]

/-! ## Lists inside lists -/

namespace Reader

/-- The innermost list that is read opens one too many; two steps of the reader lead into a list. -/
theorem value_replicate_bracket (nesting fuel : Nat) (rest : List Nat) (h : 2 * nesting < fuel) :
    value nesting fuel (List.replicate (nesting + 1) 0x5b ++ rest) = .error (.tooDeep .array) := by
  induction nesting generalizing fuel with
  | zero =>
    obtain ⟨fuel, rfl⟩ : ∃ n, fuel = n + 1 := ⟨fuel - 1, by omega⟩
    rfl
  | succ nesting ih =>
    obtain ⟨fuel, rfl⟩ : ∃ n, fuel = n + 2 := ⟨fuel - 2, by omega⟩
    rw [List.replicate_succ, List.cons_append]
    show items nesting (fuel + 1) [] (List.replicate (nesting + 1) 0x5b ++ rest) = _
    rw [items, ih fuel (by omega)]

end Reader

theorem readPoints_replicate_bracket (nesting : Nat) (rest : List Nat) :
    readPoints nesting (List.replicate (nesting + 1) 0x5b ++ rest) = .error (.tooDeep .array) := by
  have hskip : Reader.skip (List.replicate (nesting + 1) 0x5b ++ rest) =
      List.replicate (nesting + 1) 0x5b ++ rest := by
    rw [List.replicate_succ, List.cons_append]
    rfl
  have hfuel : 2 * nesting < 2 * (List.replicate (nesting + 1) 0x5b ++ rest).length + 1 := by
    rw [List.length_append, List.length_replicate]
    omega
  rw [readPoints, hskip, Reader.value_replicate_bracket nesting _ rest hfuel]

/-! ## Long numbers -/

namespace Reader

/-- A run of one digit before a comma. -/
theorem digits_replicate (n : Nat) (rest : List Nat) :
    digits (List.replicate n 0x31 ++ 0x2c :: rest) = (List.replicate n 1, 0x2c :: rest) := by
  have hrun : (List.replicate n 0x31 ++ 0x2c :: rest).takeWhile (fun n => (digit? n).isSome) =
      List.replicate n 0x31 := by
    rw [List.takeWhile_append_of_pos fun d hd => by rw [List.eq_of_mem_replicate hd]; rfl,
      List.takeWhile_cons_of_neg (by decide), List.append_nil]
  have hvalues : (List.replicate n 0x31).filterMap digit? = List.replicate n 1 :=
    List.filterMap_replicate_of_some rfl
  rw [digits, hrun, hvalues, List.drop_left]

section LongNumber

variable {n : Nat} (h : Text.Numeral.maxDigits < n) (rest : List Nat)
include h

theorem magnitude?_replicate :
    magnitude? false (List.replicate n 0x31 ++ 0x2c :: rest) = none := by
  have hzero : (List.replicate n 1).head? ≠ some 0 := by simp [List.head?_replicate]
  have hfraction : fraction? (0x2c :: rest) = none := rfl
  have hexponent : exponent? (0x2c :: rest) = none := rfl
  simp [magnitude?, digits_replicate, hzero, hfraction, hexponent, h]

theorem value_replicate_digit (nesting fuel : Nat) :
    value nesting (fuel + 1) (List.replicate n 0x31 ++ 0x2c :: rest) = .error .malformed := by
  have hmagnitude := magnitude?_replicate h rest
  obtain ⟨n, rfl⟩ : ∃ m, n = m + 1 := ⟨n - 1, by omega⟩
  rw [List.replicate_succ, List.cons_append] at hmagnitude ⊢
  -- the text starts with no quote, no bracket and no word, so it is read as a number
  have hwords : ∀ word ∈ ["null", "true", "false", "NaN", "Infinity"],
      afterWord? word (0x31 :: (List.replicate n 0x31 ++ 0x2c :: rest)) = none := by
    intro word hword
    simp only [List.mem_cons, List.not_mem_nil, or_false] at hword
    rcases hword with rfl | rfl | rfl | rfl | rfl <;> rfl
  have hnumber : number? (0x31 :: (List.replicate n 0x31 ++ 0x2c :: rest)) = none := hmagnitude
  simp [value, hwords, hnumber, is]

/-- An object whose first member is a long number. -/
theorem value_object_replicate_digit (nesting fuel : Nat) :
    value (nesting + 1) (fuel + 3)
      (['\x7b', '"', 'n', '"', ':'].map Char.toNat ++ (List.replicate n 0x31 ++ 0x2c :: rest)) =
        .error .malformed := by
  have hkey : ∀ s, key? (['"', 'n', '"', ':'].map Char.toNat ++ s) = some (.text "n", skip s) :=
    fun _ => rfl
  have hskip : skip (List.replicate n 0x31 ++ 0x2c :: rest) =
      List.replicate n 0x31 ++ 0x2c :: rest := by
    obtain ⟨n, rfl⟩ : ∃ m, n = m + 1 := ⟨n - 1, by omega⟩
    rfl
  show members nesting (fuel + 2) [] (['"', 'n', '"', ':'].map Char.toNat ++ _) = _
  rw [members, hkey, hskip]
  simp only [value_replicate_digit h]

end LongNumber

end Reader

theorem readPoints_object_replicate_digit {n : Nat} (h : Text.Numeral.maxDigits < n)
    (nesting : Nat) (rest : List Nat) :
    readPoints (nesting + 1)
      (['\x7b', '"', 'n', '"', ':'].map Char.toNat ++ (List.replicate n 0x31 ++ 0x2c :: rest)) =
        .error .malformed := by
  unfold readPoints
  generalize hs : ['\x7b', '"', 'n', '"', ':'].map Char.toNat ++
    (List.replicate n 0x31 ++ 0x2c :: rest) = s
  obtain ⟨fuel, hfuel⟩ : ∃ fuel, 2 * s.length + 1 = fuel + 3 := by
    refine ⟨2 * s.length - 2, ?_⟩
    have : 0 < s.length := by rw [← hs]; exact Nat.zero_lt_succ _
    omega
  have hskip : Reader.skip s = s := by rw [← hs]; rfl
  rw [hfuel, hskip, ← hs, Reader.value_object_replicate_digit h]

end ContractAudit.Json
