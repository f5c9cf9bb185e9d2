import ContractAudit.Proofs.Source.AlikeText
import ContractAudit.Source.Window

/-!
# Windows over lines that are alike

Two places, each in a source of its own, look alike around them when the lines at the same offset
are alike, where a line that is absent from the first source may be white space in the second or
absent there too. Then the windows at the two places are alike as well: those of a fixed number of
lines, which may be clipped in one source and run on over white space in the other, and those that
are found by counting braces or by following comment lines, since a line of white space has no brace
and is no comment.

A window above a place is compared from the place upwards, that is in reverse: there too what one
source has more than the other comes last.

Main results:

* `AlikeLines.throughClosing`, `AlikeLines.throughBody`, `AlikeLines.takeWhile_isCommentLine`: what
  follows the lines of a scope keeps them alike.
* `AlikeAround.linesFrom`, `AlikeAround.linesAfter`, `AlikeAround.linesBefore`: the windows of a
  fixed number of lines.
* `AlikeAround.restOfBlock`, `AlikeAround.blockBody`, `AlikeAround.commentBlockAbove`: the scopes.
-/

namespace ContractAudit

open Text

/-! ## Lines that are alike -/

theorem AlikeText.endsStatement {a b : List Char} (h : AlikeText a b) :
    endsStatement b = endsStatement a := by
  rw [ContractAudit.endsStatement, ContractAudit.endsStatement, h.code ignoresTrailing_trimEnd]

/-- Line `b` is line `a` with white space added at its end, `shift` lines further down. -/
structure AlikeLine (shift : Int) (a b : Line) : Prop where
  number : (b.number : Int) = a.number + shift
  text : AlikeText a.text b.text

/-- The second list has lines like those of the first, and after them white space only. -/
inductive AlikeLines (shift : Int) : List Line → List Line → Prop
  | blank {bs : List Line} (h : ∀ b ∈ bs, AlikeText [] b.text) : AlikeLines shift [] bs
  | cons {a b : Line} {as bs : List Line} (h : AlikeLine shift a b) (hs : AlikeLines shift as bs) :
    AlikeLines shift (a :: as) (b :: bs)

namespace AlikeLines

variable {shift : Int} {as bs : List Line} {p : List Char → Bool}

/-- A search that passes over white space finds a line in both lists or in none. -/
theorem any (h : AlikeLines shift as bs) (hp : IgnoresTrailing p) (hnil : p [] = false) :
    (bs.any fun line => p line.text) = as.any fun line => p line.text := by
  induction h with
  | blank h =>
    rw [List.any_nil, List.any_eq_false]
    intro b hb
    rw [(h b hb).congr hp, hnil]
    exact Bool.false_ne_true
  | cons h _ ih => rw [List.any_cons, List.any_cons, ih, h.text.congr hp]

theorem find? (h : AlikeLines shift as bs) (hp : IgnoresTrailing p) (hnil : p [] = false) :
    Option.Rel (AlikeLine shift) (as.find? fun line => p line.text)
      (bs.find? fun line => p line.text) := by
  induction h with
  | @blank bs h =>
    have hnone : bs.find? (fun line => p line.text) = none := by
      rw [List.find?_eq_none]
      intro b hb
      rw [(h b hb).congr hp, hnil]
      exact Bool.false_ne_true
    rw [List.find?_nil, hnone]
    exact .none
  | @cons a b as bs h _ ih =>
    rw [List.find?_cons, List.find?_cons, h.text.congr hp]
    cases p a.text with
    | true => exact .some h
    | false => exact ih

/-! ## Scopes -/

theorem throughClosing (h : AlikeLines shift as bs) (depth : Int) :
    AlikeLines shift (throughClosing depth as) (throughClosing depth bs) := by
  induction h generalizing depth with
  | blank h => exact .blank fun b hb => h b ((throughClosing_isPrefix depth _).subset hb)
  | cons h _ ih =>
    simp only [ContractAudit.throughClosing, h.text.braces]
    split
    · exact .cons h (.blank fun _ hb => absurd hb List.not_mem_nil)
    · exact .cons h (ih _)

theorem throughBody (h : AlikeLines shift as bs) (depth : Int) (opened isHeader : Bool) :
    AlikeLines shift (throughBody depth opened isHeader as)
      (throughBody depth opened isHeader bs) := by
  induction h generalizing depth opened isHeader with
  | blank h => exact .blank fun b hb => h b ((throughBody_isPrefix _ _ _ _).subset hb)
  | cons h _ ih =>
    simp only [ContractAudit.throughBody, h.text.braces, h.text.endsStatement]
    -- both bodies end at these lines or both go on
    split <;> split
    · exact .cons h (.blank fun _ hb => absurd hb List.not_mem_nil)
    · exact .cons h (ih _ _ _)
    · exact .cons h (.blank fun _ hb => absurd hb List.not_mem_nil)
    · exact .cons h (ih _ _ _)

theorem takeWhile_isCommentLine (h : AlikeLines shift as bs) :
    AlikeLines shift (as.takeWhile fun line => isCommentLine line.text)
      (bs.takeWhile fun line => isCommentLine line.text) := by
  induction h with
  | blank h => exact .blank fun b hb => h b ((List.takeWhile_prefix _).subset hb)
  | @cons a b as bs h _ ih =>
    rw [List.takeWhile_cons, List.takeWhile_cons, h.text.congr ignoresTrailing_isCommentLine]
    split
    · exact .cons h ih
    · exact .blank fun _ hb => absurd hb List.not_mem_nil

end AlikeLines

/-! ## Places that look alike -/

/-- The line at a place, which may lie before the first line or after the last one. -/
def lineAt? (source : List Char) (i : Int) : Option Line :=
  if 0 ≤ i then (splitLines source)[i.toNat]? else none

theorem lineAt?_natCast (source : List Char) (i : Nat) :
    lineAt? source i = (splitLines source)[i]? := by
  rw [lineAt?, if_pos (Int.natCast_nonneg i), Int.toNat_natCast]

/-- What stands at two places is alike: what is absent may be white space in the second source. -/
inductive AlikeAt (shift : Int) : Option Line → Option Line → Prop
  | lines {a b : Line} (h : AlikeLine shift a b) : AlikeAt shift (some a) (some b)
  | blank {b : Line} (h : AlikeText [] b.text) : AlikeAt shift none (some b)
  | absent : AlikeAt shift none none

theorem alikeLines_of_alikeAt {shift : Int} {as bs : List Line}
    (h : ∀ k : Nat, AlikeAt shift as[k]? bs[k]?) : AlikeLines shift as bs := by
  induction as generalizing bs with
  | nil =>
    refine .blank fun b hb => ?_
    obtain ⟨k, hk⟩ := List.getElem?_of_mem hb
    have hat := h k
    rw [List.getElem?_nil, hk] at hat
    cases hat with
    | blank hblank => exact hblank
  | cons a as ih =>
    have hat := h 0
    cases bs with
    | nil => cases hat
    | cons b bs =>
      cases hat with
      | lines hlines => exact .cons hlines (ih fun k => h (k + 1))

/-- The line `i` of one source and the line `j` of the other look alike around them, at the offsets
from `low` to `high`. -/
def AlikeAround (s t : List Char) (i j : Nat) (low high : Int) : Prop :=
  ∀ k, low ≤ k → k ≤ high → AlikeAt (j - i) (lineAt? s (i + k)) (lineAt? t (j + k))

namespace AlikeAround

variable {s t : List Char} {i j : Nat} {low high : Int}

theorem drop_take (h : AlikeAround s t i j low high) (m n : Nat) (hlow : low ≤ m)
    (hhigh : (m + n : Int) ≤ high + 1) :
    AlikeLines (j - i) (((splitLines s).drop (i + m)).take n)
      (((splitLines t).drop (j + m)).take n) := by
  refine alikeLines_of_alikeAt fun k => ?_
  rw [List.getElem?_take, List.getElem?_take, List.getElem?_drop, List.getElem?_drop]
  split
  · have hat := h (m + k : Nat) (by omega) (by omega)
    rwa [← Int.natCast_add, ← Int.natCast_add, lineAt?_natCast, lineAt?_natCast, ← Nat.add_assoc,
      ← Nat.add_assoc] at hat
  · exact .absent

theorem linesFrom (h : AlikeAround s t i j low high) (n : Nat) (hlow : low ≤ 0)
    (hhigh : (n : Int) ≤ high + 1) :
    AlikeLines (j - i) (linesFrom (Source.ofText s).lines i n)
      (linesFrom (Source.ofText t).lines j n) := by
  rw [linesFrom_natCast, linesFrom_natCast]
  exact h.drop_take 0 n hlow (by omega)

theorem linesAfter (h : AlikeAround s t i j low high) (n : Nat) (hlow : low ≤ 1)
    (hhigh : (n : Int) ≤ high) :
    AlikeLines (j - i) (linesAfter (Source.ofText s).lines i n)
      (linesAfter (Source.ofText t).lines j n) := by
  rw [linesAfter_natCast, linesAfter_natCast]
  exact h.drop_take 1 n hlow (by omega)

theorem restOfBlock (h : AlikeAround s t i j low high) (n : Nat) (hlow : low ≤ 1)
    (hhigh : (n : Int) ≤ high) :
    AlikeLines (j - i) (restOfBlock (Source.ofText s).lines i n)
      (restOfBlock (Source.ofText t).lines j n) :=
  (h.linesAfter n hlow hhigh).throughClosing 0

theorem blockBody (h : AlikeAround s t i j low high) (n : Nat) (hlow : low ≤ 0)
    (hhigh : (n : Int) ≤ high + 1) :
    AlikeLines (j - i) (blockBody (Source.ofText s).lines i n)
      (blockBody (Source.ofText t).lines j n) :=
  (h.linesFrom n hlow hhigh).throughBody 0 false true

/-- Upwards from a line stand those at the places before it, down to the first one. -/
theorem getElem?_reverse_linesBefore (source : List Char) {index : Nat}
    (hindex : index < (splitLines source).length) (n k : Nat) :
    (ContractAudit.linesBefore (Source.ofText source).lines index n).reverse[k]? =
      if k < n then lineAt? source (index - 1 - k) else none := by
  have hlines : (Source.ofText source).lines.toList = splitLines source := rfl
  rw [linesBefore_natCast, hlines]
  have hlength : (((splitLines source).take index).drop (index - n)).length =
      index - (index - n) := by
    rw [List.length_drop, List.length_take, Nat.min_eq_left (Nat.le_of_lt hindex)]
  by_cases hk : k < n
  · rw [if_pos hk]
    by_cases hki : k < index
    · have hplace : (index - 1 - k : Int) = (index - 1 - k : Nat) := by omega
      rw [List.getElem?_reverse (by omega), hlength, List.getElem?_drop, List.getElem?_take,
        if_pos (by omega), hplace, lineAt?_natCast]
      congr 1
      omega
    · -- above the first line nothing stands
      rw [List.getElem?_eq_none (by rw [List.length_reverse]; omega), lineAt?, if_neg (by omega)]
  · rw [if_neg hk]
    exact List.getElem?_eq_none (by rw [List.length_reverse]; omega)

theorem linesBefore (h : AlikeAround s t i j low high) (n : Nat) (hlow : low ≤ -n)
    (hhigh : -1 ≤ high) (hi : i < (splitLines s).length) (hj : j < (splitLines t).length) :
    AlikeLines (j - i) (linesBefore (Source.ofText s).lines i n).reverse
      (ContractAudit.linesBefore (Source.ofText t).lines j n).reverse := by
  refine alikeLines_of_alikeAt fun k => ?_
  rw [getElem?_reverse_linesBefore s hi, getElem?_reverse_linesBefore t hj]
  split
  · have hat := h (-1 - k) (by omega) (by omega)
    have hplace : ∀ m : Nat, (m + (-1 - k) : Int) = m - 1 - k := fun m => by omega
    rwa [hplace, hplace] at hat
  · exact .absent

theorem commentBlockAbove (h : AlikeAround s t i j low high) (n : Nat) (hlow : low ≤ -n)
    (hhigh : -1 ≤ high) (hi : i < (splitLines s).length) (hj : j < (splitLines t).length) :
    AlikeLines (j - i) (commentBlockAbove (Source.ofText s).lines i n).reverse
      (commentBlockAbove (Source.ofText t).lines j n).reverse := by
  rw [ContractAudit.commentBlockAbove, ContractAudit.commentBlockAbove, List.reverse_reverse,
    List.reverse_reverse]
  exact (h.linesBefore n hlow hhigh hi hj).takeWhile_isCommentLine

end AlikeAround

end ContractAudit
