import ContractAudit.Source.Window
import Mathlib.Data.List.Infix

/-!
# Scopes and the braces that close them

A scope is found line by line: the braces of a line are counted, and the depth changes by their
difference at the end of the line. Here this is compared with the depth that follows the code of the
lines character by character. At the end of every line the two depths agree (`net_braces`), so they
differ only inside of lines, where a brace may close a block and another one open the next.

* **The rest of a block** ends with the first line after which the depth is below zero. That is the
  line that closes the block, unless this line opens as many blocks as it closes, as `} else {`
  does: then the lines of the next block are taken for lines of the same one.
* **A body** goes on as long as the depth is above zero at the end of a line, and inside of the body
  it always is: what stands before the brace that opens the body closes nothing, so the depth there
  is not below zero, and the brace itself is not closed yet. A body thus never ends too early.

Main results:

* `restOfBlock_through_closing`: where the rest of a block ends.
* `blockBody_through_closing`: a body reaches the brace that closes it.
-/

namespace ContractAudit

/-! ## The depth along a text -/

/-- By how much a character changes the depth. -/
def braceStep (c : Char) : Int :=
  if c = '\x7b' then 1 else if c = '\x7d' then -1 else 0

/-- The depth after a text, followed from zero character by character. -/
def depth (text : List Char) : Int :=
  text.foldl (fun depth c => depth + braceStep c) 0

theorem foldl_braceStep (start : Int) (text : List Char) :
    text.foldl (fun depth c => depth + braceStep c) start =
      start + (text.count '\x7b' - text.count '\x7d' : Int) := by
  induction text generalizing start with
  | nil => simp
  | cons c rest ih =>
    rw [List.foldl_cons, ih, List.count_cons, List.count_cons, braceStep]
    by_cases hopen : c = '\x7b'
    · subst hopen
      simp
      omega
    · by_cases hclose : c = '\x7d'
      · subst hclose
        simp
        omega
      · simp [hopen, hclose]

theorem depth_eq_count (text : List Char) :
    depth text = text.count '\x7b' - text.count '\x7d' := by
  rw [depth, foldl_braceStep, Int.zero_add]

theorem depth_append (s t : List Char) : depth (s ++ t) = depth s + depth t := by
  simp only [depth_eq_count, List.count_append]
  omega

/-- After a text that closes nothing the depth is not below zero. -/
theorem depth_nonneg_of_not_mem {text : List Char} (h : '\x7d' ∉ text) : 0 ≤ depth text := by
  rw [depth_eq_count, List.count_eq_zero_of_not_mem h]
  omega

/-- Somewhere along the text the depth is below zero. -/
def DropsBelow (text : List Char) : Prop :=
  ∃ before, before <+: text ∧ depth before < 0

instance (text : List Char) : Decidable (DropsBelow text) :=
  decidable_of_iff (∃ before ∈ text.inits, depth before < 0) (by
    simp only [DropsBelow, List.mem_inits])

theorem not_dropsBelow_nil : ¬DropsBelow [] := by decide

theorem DropsBelow.of_isPrefix {s t : List Char} (hs : DropsBelow s) (h : s <+: t) :
    DropsBelow t := by
  obtain ⟨before, hbefore, hdepth⟩ := hs
  exact ⟨before, hbefore.trans h, hdepth⟩

theorem depth_nonneg_of_not_dropsBelow {text : List Char} (h : ¬DropsBelow text) :
    0 ≤ depth text :=
  Int.not_lt.1 fun hdepth => h ⟨text, List.prefix_refl _, hdepth⟩

/-- The brace that opens a block after `before` is closed within the text: along what follows the
brace, the depth drops below the one after it. -/
def ClosedIn (before text : List Char) : Prop :=
  ∃ after, text = before ++ '\x7b' :: after ∧ DropsBelow after

instance (before text : List Char) : Decidable (ClosedIn before text) :=
  decidable_of_iff (before ++ ['\x7b'] <+: text ∧ DropsBelow (text.drop (before.length + 1))) (by
    constructor
    · rintro ⟨⟨after, rfl⟩, hdrops⟩
      exact ⟨after, by simp, by simpa using hdrops⟩
    · rintro ⟨after, rfl, hdrops⟩
      exact ⟨⟨after, by simp⟩, by simpa using hdrops⟩)

theorem not_closedIn_nil (before : List Char) : ¬ClosedIn before [] := by
  rintro ⟨after, h, -⟩
  simp at h

theorem ClosedIn.of_isPrefix {before s t : List Char} (hs : ClosedIn before s) (h : s <+: t) :
    ClosedIn before t := by
  obtain ⟨after, rfl, hdrops⟩ := hs
  obtain ⟨rest, rfl⟩ := h
  refine ⟨after ++ rest, ?_, hdrops.of_isPrefix (List.prefix_append after rest)⟩
  rw [List.append_assoc, List.cons_append]

/-! ## The code of lines -/

/-- The part of a line in which braces count: its code, of which a comment line has none. -/
def lineCode (text : List Char) : List Char :=
  if isCommentLine text then [] else stripComments text

theorem braces_eq_count (text : List Char) :
    braces text = ⟨(lineCode text).count '\x7b', (lineCode text).count '\x7d'⟩ := by
  rw [braces, lineCode]
  split <;> rfl

/-- At the end of a line, counting its braces and following them come to the same. -/
theorem net_braces (text : List Char) : (braces text).net = depth (lineCode text) := by
  rw [braces_eq_count, depth_eq_count, Braces.net]

theorem opens_pos {text before after : List Char} (h : lineCode text = before ++ '\x7b' :: after) :
    0 < (braces text).opens := by
  rw [braces_eq_count]
  refine List.count_pos_iff.2 ?_
  rw [h]
  exact List.mem_append_right before List.mem_cons_self

/-- The code of lines, one after another. -/
def codes (lines : List Line) : List Char :=
  lines.flatMap fun line => lineCode line.text

theorem codes_nil : codes [] = [] := rfl

theorem codes_cons (line : Line) (rest : List Line) :
    codes (line :: rest) = lineCode line.text ++ codes rest := rfl

theorem codes_append (s t : List Line) : codes (s ++ t) = codes s ++ codes t :=
  List.flatMap_append

theorem codes_take_isPrefix {m n : Nat} (h : m ≤ n) (lines : List Line) :
    codes (lines.take m) <+: codes (lines.take n) := by
  obtain ⟨k, rfl⟩ := Nat.exists_eq_add_of_le h
  rw [List.take_add, codes_append]
  exact List.prefix_append _ _

/-- Line `k` is the first one by whose end the code is as `P` says. -/
def FirstOn (P : List Char → Prop) (lines : List Line) (k : Nat) : Prop :=
  ¬P (codes (lines.take k)) ∧ P (codes (lines.take (k + 1)))

instance (P : List Char → Prop) [DecidablePred P] (lines : List Line) (k : Nat) :
    Decidable (FirstOn P lines k) :=
  inferInstanceAs (Decidable (_ ∧ _))

/-- Between no line and `n` lines there is a first one, if the end of `n` lines is as `P` says. -/
theorem exists_firstOn {P : List Char → Prop} (hnil : ¬P []) {lines : List Line} {n : Nat}
    (h : P (codes (lines.take n))) : ∃ k, k < n ∧ FirstOn P lines k := by
  induction n with
  | zero => exact absurd h hnil
  | succ n ih =>
    by_cases hn : P (codes (lines.take n))
    · obtain ⟨k, hk, hfirst⟩ := ih hn
      exact ⟨k, by omega, hfirst⟩
    · exact ⟨n, Nat.lt_succ_self n, hn, h⟩

/-! ## The rest of a block -/

/-- The lines at whose ends the depth is not below zero are taken, and the search goes on from the
depth after them. -/
theorem throughClosing_eq_append {start : Int} {lines : List Line} {k : Nat}
    (h : ∀ j, j < k → 0 ≤ start + depth (codes (lines.take (j + 1)))) :
    throughClosing start lines =
      lines.take k ++ throughClosing (start + depth (codes (lines.take k))) (lines.drop k) := by
  induction k generalizing start lines with
  | zero =>
    rw [List.take_zero, List.drop_zero, List.nil_append]
    exact congrArg (throughClosing · lines) (Int.add_zero start).symm
  | succ k ih =>
    cases lines with
    | nil => rfl
    | cons line rest =>
      have hline := h 0 (Nat.succ_pos k)
      rw [List.take_succ_cons, List.take_zero, codes_cons, codes_nil, List.append_nil] at hline
      have hrest : ∀ j, j < k →
          0 ≤ start + depth (lineCode line.text) + depth (codes (rest.take (j + 1))) := by
        intro j hj
        have hlater := h (j + 1) (Nat.succ_lt_succ hj)
        rwa [List.take_succ_cons, codes_cons, depth_append, ← Int.add_assoc] at hlater
      rw [List.take_succ_cons, List.drop_succ_cons, codes_cons, depth_append, ← Int.add_assoc,
        List.cons_append, ← ih hrest]
      simp only [throughClosing, net_braces]
      rw [if_neg (Int.not_lt.2 hline)]

/-- The line after those is taken too, whatever the depth at its end. -/
theorem take_isPrefix_throughClosing {start : Int} {lines : List Line} {k : Nat}
    (h : ∀ j, j < k → 0 ≤ start + depth (codes (lines.take (j + 1)))) :
    lines.take (k + 1) <+: throughClosing start lines := by
  rw [throughClosing_eq_append h, List.take_add, List.prefix_append_right_inj]
  cases lines.drop k with
  | nil => exact List.nil_prefix
  | cons line rest =>
    simp only [throughClosing]
    split <;> exact List.cons_prefix_cons.2 ⟨rfl, List.nil_prefix⟩

/-- A line at whose end the depth is below zero is the last one. -/
theorem throughClosing_eq_take {start : Int} {lines : List Line} {k : Nat}
    (h : ∀ j, j < k → 0 ≤ start + depth (codes (lines.take (j + 1))))
    (hlast : start + depth (codes (lines.take (k + 1))) < 0) :
    throughClosing start lines = lines.take (k + 1) := by
  rw [throughClosing_eq_append h, List.take_add, List.append_cancel_left_eq]
  rw [List.take_add, codes_append, depth_append, ← Int.add_assoc] at hlast
  cases hdrop : lines.drop k with
  | nil => rfl
  | cons line rest =>
    rw [hdrop, List.take_succ_cons, List.take_zero, codes_cons, codes_nil, List.append_nil] at hlast
    simp only [throughClosing, net_braces]
    rw [if_pos hlast]
    rfl

/-- Along lines that do not close the block the depth is never below zero. -/
theorem depth_nonneg_of_le {lines : List Line} {k : Nat}
    (h : ¬DropsBelow (codes (lines.take k))) {j : Nat} (hj : j ≤ k) :
    0 ≤ depth (codes (lines.take j)) :=
  depth_nonneg_of_not_dropsBelow fun hdrops => h (hdrops.of_isPrefix (codes_take_isPrefix hj lines))

/-- **The rest of a block.** Follow the depth character by character through the lines after a
place, up to the limit. If it first drops below zero on a line and is still below zero at the end of
this line, the rest of the block ends with the line. If the line opens as many blocks again, the
rest of the block goes on past it. If the depth never drops below zero, all the lines are taken. -/
theorem restOfBlock_through_closing (lines : Array Line) (index limit : Nat) :
    let next := (lines.toList.drop (index + 1)).take limit
    (∀ k, FirstOn DropsBelow next k → depth (codes (next.take (k + 1))) < 0 →
      restOfBlock lines index limit = next.take (k + 1)) ∧
    (∀ k, FirstOn DropsBelow next k → 0 ≤ depth (codes (next.take (k + 1))) →
      next.take (k + 2) <+: restOfBlock lines index limit) ∧
    ((∀ k, ¬FirstOn DropsBelow next k) → restOfBlock lines index limit = next) := by
  intro next
  have hrest : restOfBlock lines index limit = throughClosing 0 next := by
    rw [restOfBlock, linesAfter_natCast]
  rw [hrest]
  refine ⟨fun k hk hlast => ?_, fun k hk hlast => ?_, fun hnone => ?_⟩
  · refine throughClosing_eq_take (fun j hj => ?_) (by rwa [Int.zero_add])
    rw [Int.zero_add]
    exact depth_nonneg_of_le hk.1 hj
  · refine take_isPrefix_throughClosing fun j hj => ?_
    rw [Int.zero_add]
    -- up to the line the depth is never below zero, and at its end it is not either
    rcases Nat.lt_succ_iff_lt_or_eq.1 hj with hj | rfl
    · exact depth_nonneg_of_le hk.1 hj
    · exact hlast
  · have hnot : ¬DropsBelow (codes (next.take next.length)) := by
      intro hdrops
      obtain ⟨k, -, hk⟩ := exists_firstOn not_dropsBelow_nil hdrops
      exact hnone k hk
    have hall : next.take (next.length + 1) <+: throughClosing 0 next := by
      refine take_isPrefix_throughClosing fun j hj => ?_
      rw [Int.zero_add]
      exact depth_nonneg_of_le hnot hj
    rw [List.take_of_length_le (Nat.le_succ _)] at hall
    exact (throughClosing_isPrefix 0 next).eq_of_length_le hall.length_le

/-- A line that closes the block, a line that closes it and opens another one, and no such line. -/
theorem restOfBlock_through_closing_lines :
    let lines (text : String) : Array Line := (Source.ofText text.toList).lines
    restOfBlock (lines "f();\n\x7d\ng();") 0 200 = [⟨2, "\x7d".toList⟩] ∧
    [⟨2, "\x7d else \x7b".toList⟩, ⟨3, "g();".toList⟩] <+:
      restOfBlock (lines "f();\n\x7d else \x7b\ng();\nh();") 0 200 ∧
    restOfBlock (lines "f();\ng();") 0 200 = [⟨2, "g();".toList⟩] := by
  intro lines
  refine ⟨?_, ?_, ?_⟩
  · exact (restOfBlock_through_closing (lines _) 0 200).1 0 (by decide +kernel) (by decide +kernel)
  · exact (restOfBlock_through_closing (lines "f();\n\x7d else \x7b\ng();\nh();") 0 200).2.1 0
      (by decide +kernel) (by decide +kernel)
  · refine (restOfBlock_through_closing (lines _) 0 200).2.2 fun k hk => ?_
    have hnot : ¬DropsBelow (codes [⟨2, "g();".toList⟩]) := by decide +kernel
    exact hnot (hk.2.of_isPrefix (codes_take_isPrefix (Nat.le_succ (k + 1)) _))

/-- The branch of a condition ends with the line that closes it, but the lines of the other branch
are taken as well when it opens on the same line. -/
theorem restOfBlock_past_closing :
    let lines := (Source.ofText
      "if (a) \x7b\n  f.send(1);\n\x7d else \x7b\n  b = 2;\n\x7d".toList).lines
    FirstOn DropsBelow ((lines.toList.drop 2).take 200) 0 ∧
    restOfBlock lines 1 200 =
      [⟨3, "\x7d else \x7b".toList⟩, ⟨4, "  b = 2;".toList⟩, ⟨5, "\x7d".toList⟩] := by
  decide +kernel

/-! ## Bodies -/

/-- Once a brace has opened it, a body is the rest of a block one level deeper. -/
theorem throughBody_opened (start : Int) (isHeader : Bool) (lines : List Line) :
    throughBody start true isHeader lines = throughClosing (start - 1) lines := by
  induction lines generalizing start isHeader with
  | nil => rfl
  | cons line rest ih =>
    simp only [throughBody, throughClosing, Bool.true_or, if_true, decide_eq_true_eq, ih]
    have hdepth : start - 1 + (braces line.text).net = start + (braces line.text).net - 1 := by
      omega
    rw [hdepth]
    by_cases hle : start + (braces line.text).net ≤ 0
    · rw [if_pos hle, if_pos (by omega)]
    · rw [if_neg hle, if_neg (by omega)]

/-- A line with an opening brace opens the body. -/
theorem throughBody_of_opens {start : Int} {opened isHeader : Bool} {line : Line}
    (rest : List Line) (h : 0 < (braces line.text).opens) :
    throughBody start opened isHeader (line :: rest) =
      throughClosing (start - 1) (line :: rest) := by
  rw [← throughBody_opened start isHeader]
  simp only [throughBody, h, decide_true, Bool.or_true]

/-- The lines from a header on open a body by a brace that stands, in their code, after `before`: a
brace of the header that nothing on the header closes before it, or one of the next line when the
header has no brace and does not end a statement. -/
inductive OpensBody : List Line → List Char → Prop
  | onHeader {header : Line} {rest : List Line} {before after : List Char}
    (hcode : lineCode header.text = before ++ '\x7b' :: after) (hbefore : '\x7d' ∉ before) :
    OpensBody (header :: rest) before
  | onNext {header next : Line} {rest : List Line} {before after : List Char}
    (hheader : braces header.text = ⟨0, 0⟩) (hends : endsStatement header.text = false)
    (hcode : lineCode next.text = before ++ '\x7b' :: after) (hbefore : '\x7d' ∉ before) :
    OpensBody (header :: next :: rest) (lineCode header.text ++ before)

theorem OpensBody.take {lines : List Line} {before : List Char} (h : OpensBody lines before)
    {limit : Nat} (hlimit : 1 < limit) : OpensBody (lines.take limit) before := by
  obtain ⟨limit, rfl⟩ := Nat.exists_eq_add_of_le' hlimit
  cases h with
  | onHeader hcode hbefore => exact .onHeader hcode hbefore
  | onNext hheader hends hcode hbefore => exact .onNext hheader hends hcode hbefore

/-- Inside of a body the depth is above zero. -/
theorem depth_pos_of_not_closedIn {before after : List Char} (hbefore : '\x7d' ∉ before)
    (h : ¬ClosedIn before (before ++ '\x7b' :: after)) :
    0 < depth (before ++ '\x7b' :: after) := by
  have hafter : 0 ≤ depth after :=
    depth_nonneg_of_not_dropsBelow fun hdrops => h ⟨after, rfl, hdrops⟩
  have hstart := depth_nonneg_of_not_mem hbefore
  have hbrace : depth ['\x7b'] = 1 := rfl
  rw [← List.singleton_append, depth_append, depth_append, hbrace]
  omega

theorem take_one_isPrefix_throughBody (start : Int) (opened isHeader : Bool) (lines : List Line) :
    lines.take 1 <+: throughBody start opened isHeader lines := by
  cases lines with
  | nil => exact List.nil_prefix
  | cons line rest =>
    simp only [throughBody]
    split <;> split <;> exact List.cons_prefix_cons.2 ⟨rfl, List.nil_prefix⟩

/-- A header that neither opens a body nor ends a statement leaves it to the next line. -/
theorem throughBody_of_plain {start : Int} {header : Line} (rest : List Line)
    (hbraces : braces header.text = ⟨0, 0⟩) (hends : endsStatement header.text = false) :
    throughBody start false true (header :: rest) =
      header :: throughBody start false false rest := by
  have hnet : (Braces.mk 0 0).net = 0 := rfl
  simp [throughBody, hbraces, hends, hnet]

/-- As long as the brace is not closed, the next line belongs to the body. -/
theorem take_isPrefix_throughBody {lines : List Line} {before : List Char}
    (hopens : OpensBody lines before) {k : Nat} (h : ¬ClosedIn before (codes (lines.take k))) :
    lines.take (k + 1) <+: throughBody 0 false true lines := by
  have hnot : ∀ j, j ≤ k → ¬ClosedIn before (codes (lines.take j)) := fun j hj hclosed =>
    h (hclosed.of_isPrefix (codes_take_isPrefix hj lines))
  cases hopens with
  | @onHeader header rest before after hcode hbefore =>
    rw [throughBody_of_opens rest (opens_pos hcode)]
    refine take_isPrefix_throughClosing fun j hj => ?_
    have hdepth := hnot (j + 1) hj
    rw [List.take_succ_cons, codes_cons, hcode, List.append_assoc, List.cons_append] at hdepth ⊢
    have hpos := depth_pos_of_not_closedIn hbefore hdepth
    omega
  | @onNext header next rest before after hheader hends hcode hbefore =>
    rw [throughBody_of_plain _ hheader hends, throughBody_of_opens rest (opens_pos hcode)]
    cases k with
    | zero => exact List.cons_prefix_cons.2 ⟨rfl, List.nil_prefix⟩
    | succ k =>
      refine List.cons_prefix_cons.2 ⟨rfl, take_isPrefix_throughClosing fun j hj => ?_⟩
      -- the header has a code too, but no brace in it
      have hplain : depth (lineCode header.text) = 0 := by
        rw [← net_braces, hheader]
        rfl
      have hcloses : '\x7d' ∉ lineCode header.text := by
        rw [braces_eq_count, Braces.mk.injEq] at hheader
        exact List.count_eq_zero.1 hheader.2
      have hdepth := hnot (j + 2) (by omega)
      rw [List.take_succ_cons, codes_cons, List.take_succ_cons, codes_cons, hcode,
        List.append_assoc, List.cons_append, ← List.append_assoc] at hdepth
      have hpos := depth_pos_of_not_closedIn (by simp [hcloses, hbefore]) hdepth
      rw [List.append_assoc, depth_append, hplain] at hpos
      rw [List.take_succ_cons, codes_cons, hcode, List.append_assoc, List.cons_append]
      omega

/-- **Bodies.** A body that is opened by a brace has every line from its header through the one that
closes this brace, followed character by character. If none of the lines up to the limit does, it
has all of them. -/
theorem blockBody_through_closing (lines : Array Line) (index limit : Nat) {before : List Char}
    (hopens : OpensBody (lines.toList.drop index) before) :
    let block := lines.toList.drop index
    (∀ k, k < limit → FirstOn (ClosedIn before) block k →
      block.take (k + 1) <+: blockBody lines index limit) ∧
    ((∀ k, k < limit → ¬FirstOn (ClosedIn before) block k) →
      blockBody lines index limit = block.take limit) := by
  intro block
  have hreach : ∀ k, k < limit → ¬ClosedIn before (codes (block.take k)) →
      block.take (k + 1) <+: blockBody lines index limit := by
    intro k hk hnot
    have hwithin : (block.take limit).take (k + 1) = block.take (k + 1) := by
      rw [List.take_take, Nat.min_eq_left hk]
    rw [blockBody, linesFrom_natCast, ← hwithin]
    by_cases hlimit : 1 < limit
    · refine take_isPrefix_throughBody (hopens.take hlimit) ?_
      rwa [List.take_take, Nat.min_eq_left hk.le]
    · -- a single line is taken, whether it opens the body or not
      obtain rfl : k = 0 := by omega
      exact take_one_isPrefix_throughBody 0 false true _
  refine ⟨fun k hk hfirst => hreach k hk hfirst.1, fun hnone => ?_⟩
  have hprefix : blockBody lines index limit <+: block.take limit := by
    rw [blockBody, linesFrom_natCast]
    exact throughBody_isPrefix 0 false true _
  cases limit with
  | zero => exact List.prefix_nil.1 hprefix
  | succ n =>
    have hnot : ¬ClosedIn before (codes (block.take n)) := by
      intro hclosed
      obtain ⟨k, hk, hfirst⟩ := exists_firstOn (not_closedIn_nil before) hclosed
      exact hnone k (by omega) hfirst
    exact hprefix.eq_of_length_le (hreach n (Nat.lt_succ_self n) hnot).length_le

/-- The header leaves the body to the next line, where two braces open; the last brace of the third
line closes the first of them. -/
theorem blockBody_through_closing_nested :
    let lines := (Source.ofText
      "f()\n\x7b if (a) \x7b b(); \x7d else \x7b\n\x7d \x7d\ng()".toList).lines
    OpensBody lines.toList "f()".toList ∧
    FirstOn (ClosedIn "f()".toList) lines.toList 2 ∧
    lines.toList.take 3 <+: blockBody lines 0 200 ∧
    blockBody lines 0 2 = lines.toList.take 2 := by
  intro lines
  have hnext : lineCode "\x7b if (a) \x7b b(); \x7d else \x7b".toList =
      [] ++ '\x7b' :: " if (a) \x7b b(); \x7d else \x7b".toList := by decide +kernel
  have hopens : OpensBody lines.toList "f()".toList :=
    .onNext (by decide +kernel) (by decide +kernel) hnext List.not_mem_nil
  have hcloses : FirstOn (ClosedIn "f()".toList) lines.toList 2 := by decide +kernel
  have hopen : ∀ k, k < 2 → ¬FirstOn (ClosedIn "f()".toList) lines.toList k := by decide +kernel
  exact ⟨hopens, hcloses,
    (blockBody_through_closing lines 0 200 hopens).1 2 (by decide) hcloses,
    (blockBody_through_closing lines 0 2 hopens).2 hopen⟩

end ContractAudit
