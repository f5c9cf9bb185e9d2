import ContractAudit.Proofs.Report.Identity
import ContractAudit.Proofs.Source.AlikeLines

/-!
# Findings further down

A finding says twice where it stands: by its line, and by the index in its id, which is the first
number of the id, since no name of a detector holds a digit. The two differ for loops, where the
index is that of the loop and the line that of the write.

When lines are put before a source, both go up by their number and nothing else about the finding
changes (`Finding.shift`). Adding to the index means writing another number in the place of its
digits: what follows them, the ordinal of the finding at its line, stays.

Main results:

* `FindingKey.firstNumber?_text`, `FindingKey.addToFirstNumber_text`: the first number of an id is
  its index.
* `Detector.Profile.shift_finding`: what a detector reports at a line is, shifted, what it reports
  at the line that is alike further down.
* `Finding.IsKeyed.shift_zero`: no shift changes nothing.
-/

namespace ContractAudit

open Text

/-! ## The first number of a text -/

/-- The text before its first digit. -/
def beforeDigits (s : List Char) : List Char :=
  s.takeWhile fun c => !c.isDigit

/-- The text from its first digit on. -/
def fromDigits (s : List Char) : List Char :=
  s.dropWhile fun c => !c.isDigit

/-- The first number that is written in a text. -/
def firstNumber? (s : List Char) : Option Nat :=
  match (fromDigits s).takeWhile Char.isDigit with
  | [] => none
  | digits => some (Nat.ofDigitChars 10 digits 0)

/-- The text with `n` added to its first number. -/
def addToFirstNumber (n : Int) (s : List Char) : List Char :=
  match firstNumber? s with
  | none => s
  | some m =>
    beforeDigits s ++
      (Nat.toDigits 10 (m + n).toNat ++ (fromDigits s).dropWhile Char.isDigit)

section FirstNumber

variable {before rest : List Char} (hbefore : ∀ c ∈ before, c.isDigit = false)
include hbefore

theorem beforeDigits_append (n : Nat) :
    beforeDigits (before ++ (Nat.toDigits 10 n ++ rest)) = before := by
  have hnot : ∀ c ∈ before, (!c.isDigit) = true := fun c hc => by rw [hbefore c hc]; rfl
  obtain ⟨d, ds, hdigits⟩ := List.exists_cons_of_ne_nil (Nat.toDigits_ne_nil (n := n) (b := 10))
  have hd : d.isDigit = true :=
    Nat.isDigit_of_mem_toDigits (by decide) (by decide) (hdigits ▸ List.mem_cons_self)
  rw [beforeDigits, List.takeWhile_append_of_pos hnot, hdigits, List.cons_append,
    List.takeWhile_cons_of_neg (by simp [hd]), List.append_nil]

theorem fromDigits_append (n : Nat) :
    fromDigits (before ++ (Nat.toDigits 10 n ++ rest)) = Nat.toDigits 10 n ++ rest := by
  -- what is taken off and what is left make up the text
  have hsplit : beforeDigits (before ++ (Nat.toDigits 10 n ++ rest)) ++
      fromDigits (before ++ (Nat.toDigits 10 n ++ rest)) =
        before ++ (Nat.toDigits 10 n ++ rest) :=
    List.takeWhile_append_dropWhile
  rw [beforeDigits_append hbefore] at hsplit
  exact List.append_cancel_left hsplit

theorem firstNumber?_append (n : Nat) (hrest : rest.head?.any Char.isDigit = false) :
    firstNumber? (before ++ (Nat.toDigits 10 n ++ rest)) = some n := by
  rw [firstNumber?, fromDigits_append hbefore, FindingKey.takeWhile_isDigit_toDigits n hrest]
  have hne : Nat.toDigits 10 n ≠ [] := Nat.toDigits_ne_nil
  have hvalue : Nat.ofDigitChars 10 (Nat.toDigits 10 n) 0 = n :=
    Nat.ofDigitChars_toDigits (by decide) (Nat.le_refl 10)
  split
  · exact absurd ‹_› hne
  · rw [hvalue]

theorem addToFirstNumber_append {m n : Nat} {shift : Int} (hm : (m : Int) = n + shift)
    (hrest : rest.head?.any Char.isDigit = false) :
    addToFirstNumber shift (before ++ (Nat.toDigits 10 n ++ rest)) =
      before ++ (Nat.toDigits 10 m ++ rest) := by
  have hsplit : (Nat.toDigits 10 n ++ rest).takeWhile Char.isDigit ++
      (Nat.toDigits 10 n ++ rest).dropWhile Char.isDigit = Nat.toDigits 10 n ++ rest :=
    List.takeWhile_append_dropWhile
  rw [FindingKey.takeWhile_isDigit_toDigits n hrest] at hsplit
  have hnumber : (n + shift).toNat = m := by omega
  simp only [addToFirstNumber, firstNumber?_append hbefore n hrest, beforeDigits_append hbefore,
    fromDigits_append hbefore, List.append_cancel_left hsplit, hnumber]

end FirstNumber

/-! ## The index in an id -/

namespace FindingKey

theorem not_isDigit_of_mem_builtinNames {name : String} (h : name ∈ builtinNames) :
    ∀ c ∈ name.toList ++ ['-'], c.isDigit = false := by
  have hall : ∀ name ∈ builtinNames,
      (name.toList ++ ['-']).all (fun c => !c.isDigit) = true := by decide
  intro c hc
  have hdigit := List.all_eq_true.1 (hall name h) c hc
  rwa [Bool.not_eq_true'] at hdigit

theorem toList_text_eq (key : FindingKey) : key.text.toList =
    (key.detector.toList ++ ['-']) ++ (Nat.toDigits 10 key.index ++
      (ordinalSuffix key.ordinal).toList) := by
  rw [toList_text, List.append_assoc]
  rfl

theorem firstNumber?_text {key : FindingKey} (h : key.detector ∈ builtinNames) :
    firstNumber? key.text.toList = some key.index := by
  rw [toList_text_eq]
  exact firstNumber?_append (not_isDigit_of_mem_builtinNames h) _ (head?_ordinalSuffix _)

/-- Adding to the first number of an id adds to its index. -/
theorem addToFirstNumber_text {key : FindingKey} (h : key.detector ∈ builtinNames) {index : Nat}
    {shift : Int} (hindex : (index : Int) = key.index + shift) :
    addToFirstNumber shift key.text.toList =
      ({ key with index := index } : FindingKey).text.toList := by
  rw [toList_text_eq, toList_text_eq]
  exact addToFirstNumber_append (not_isDigit_of_mem_builtinNames h) hindex (head?_ordinalSuffix _)

end FindingKey

example : addToFirstNumber 3 "reentrancy-9-2".toList = "reentrancy-12-2".toList := by decide

/-! ## Shifted findings -/

/-- The index in the id of a finding: the line that keys it, counted from zero. -/
def Finding.index? (f : Finding) : Option Nat :=
  match f.id with
  | .string (.text id) => firstNumber? id.toList
  | _ => none

/-- The finding with its line and the index in its id moved down by `shift` lines. -/
def Finding.shift (shift : Int) (f : Finding) : Finding :=
  { f with
    line := f.line + shift
    id := match f.id with
      | .string (.text id) => .text (String.ofList (addToFirstNumber shift id.toList))
      | id => id }

/-- The finding has the id of a key of a built-in detector. -/
def Finding.IsKeyed (f : Finding) (key : FindingKey) : Prop :=
  f.id = .text key.text ∧ key.detector ∈ FindingKey.builtinNames

theorem Finding.IsKeyed.index?_eq {f : Finding} {key : FindingKey} (h : f.IsKeyed key) :
    f.index? = some key.index := by
  rw [Finding.index?, h.1]
  exact FindingKey.firstNumber?_text h.2

theorem Finding.IsKeyed.shift_eq {f : Finding} {key : FindingKey} (h : f.IsKeyed key) {index : Nat}
    {shift : Int} (hindex : (index : Int) = key.index + shift) :
    f.shift shift = { f with
      line := f.line + shift
      id := .text ({ key with index := index } : FindingKey).text } := by
  rw [Finding.shift, h.1]
  show { f with line := _, id := Json.Value.text (String.ofList (addToFirstNumber _ _)) } = _
  rw [FindingKey.addToFirstNumber_text h.2 hindex, String.ofList_toList]

theorem Finding.IsKeyed.shift_zero {f : Finding} {key : FindingKey} (h : f.IsKeyed key) :
    f.shift 0 = f := by
  rw [h.shift_eq (Int.add_zero _).symm, Int.add_zero, ← h.1]

/-- A shifted finding is what is reported at the line that is alike, by the index that is shifted
too. -/
theorem Detector.Profile.shift_finding {profile : Profile}
    (hname : profile.name ∈ FindingKey.builtinNames) {shift : Int} {i j : Nat}
    (hij : (j : Int) = i + shift) {a b : Line} (h : AlikeLine shift a b) (ordinal : Nat)
    (severity : Severity) :
    (profile.finding (FindingKey.text ⟨profile.name, i, ordinal⟩) severity a).shift shift =
      profile.finding (FindingKey.text ⟨profile.name, j, ordinal⟩) severity b := by
  have hkeyed : (profile.finding (FindingKey.text ⟨profile.name, i, ordinal⟩) severity a).IsKeyed
      ⟨profile.name, i, ordinal⟩ := ⟨rfl, hname⟩
  rw [hkeyed.shift_eq hij, Profile.finding, Profile.finding, h.number,
    h.text.congr ignoresTrailing_trim]

end ContractAudit
