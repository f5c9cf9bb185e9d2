import ContractAudit.Proofs.Detector.Mutations
import ContractAudit.Proofs.Text.Parts

/-!
# Assignments at indices

A variable may be assigned at an index, at several of them one behind another, as in `a[b][c] = d`,
or at an index that has indices inside, as in `a[b[c]] = d`. Only the first kind is taken for a
change of state, and only if no bracket stands inside of the index.

The reason is what the test allows between a name and the sign: one pair of brackets with no closing
bracket inside. Of several indices the last stands behind a bracket and not behind a name. An index
with indices inside has more than one closing bracket, and so is not passed as one pair. No other
name reaches up to the sign, so the assignment is missed, and the line changes state only if
something before or behind the sign does.

Main results:

* `mutatesState_append_sign`: a sign of assignment divides a line into parts that are read on their
  own.
* `IndexedTarget.endsInTarget_iff`: only a flat index ends in a target.
* `mutatesState_at_indices_iff`: when an assignment at indices is taken for a change of state.
-/

namespace ContractAudit.Detector.Reentrancy

open Text

/-! ## Lines divided by a sign -/

theorem steps_append_sign {left after : List Char} :
    Steps (left ++ '=' :: after) ↔ Steps left ∨ Steps after := by
  have hpart : ∀ {c : Char} {mark : String}, isWord c = true → '=' ∉ mark.toList →
      (c :: mark.toList <:+: left ++ '=' :: after ↔
        c :: mark.toList <:+: left ∨ c :: mark.toList <:+: after) := by
    intro c mark hc hmark
    refine isInfix_append_cons_iff fun hmem => ?_
    rcases List.mem_cons.1 hmem with rfl | hmem
    · cases hc
    · exact hmark hmem
  simp only [Steps, ← exists_or, ← and_or_left]
  refine exists_congr fun c => and_congr_right fun hc => ?_
  rw [hpart hc (by decide), hpart hc (by decide)]
  exact or_or_or_comm

/-- The character can stand between a name or its index and the sign. -/
def IsBeforeSign (c : Char) : Prop :=
  isBlank c = true ∨ isCompound c = true

instance (c : Char) : Decidable (IsBeforeSign c) :=
  inferInstanceAs (Decidable (_ ∨ _))

theorem isBeforeSign_of_mem {blanks operator : List Char} (hblanks : isAllBlank blanks = true)
    (hoperator : IsOperator operator) {c : Char} (hc : c ∈ blanks ++ operator) :
    IsBeforeSign c := by
  rcases List.mem_append.1 hc with hc | hc
  · exact Or.inl (List.all_eq_true.1 hblanks c hc)
  · rcases hoperator with rfl | ⟨o, ho, rfl⟩
    · cases hc
    · rw [List.mem_singleton.1 hc]
      exact Or.inr ho

/-- Behind every bracket that the text opens it closes one. -/
def ClosesBrackets (text : List Char) : Prop :=
  ∀ before behind, text = before ++ '[' :: behind → ']' ∈ behind

/-- A target behind a sign does not reach back over it, if no bracket before the sign is open. -/
theorem EndsInTarget.of_append_sign {left e : List Char} (hclosed : ClosesBrackets left)
    (h : EndsInTarget (left ++ '=' :: e)) :
    EndsInTarget e := by
  obtain ⟨start, c, index, blanks, operator, hsplit, hc, hindex, hblanks, hoperator⟩ := h
  have hsign : '=' ∉ blanks ++ operator := fun hmem =>
    absurd (isBeforeSign_of_mem hblanks hoperator hmem) (by decide)
  rcases append_cons_cases hsplit with ⟨m, hleft, htail⟩ | ⟨-, rfl, -⟩ | ⟨e', -, rfl⟩
  · rcases hindex with rfl | ⟨key, hkey, rfl⟩
    · have htail' : blanks ++ operator = m ++ '=' :: e := htail
      exact absurd (by simp [htail']) hsign
    · -- the sign would stand inside of the index, whose bracket is open before it
      cases m with
      | nil => exact absurd (List.cons.inj htail).1 (by decide)
      | cons d m =>
        obtain ⟨rfl, hrest⟩ : d = '[' ∧ m ++ '=' :: e = key ++ ']' :: (blanks ++ operator) := by
          simpa [eq_comm] using htail
        have hm : ']' ∈ m := hclosed (start ++ [c]) m (by simp [hleft])
        rcases append_cons_cases hrest with ⟨m', -, hbehind⟩ | ⟨-, heq, -⟩ | ⟨m', rfl, -⟩
        · exact absurd (by simp [hbehind]) hsign
        · exact absurd heq (by decide)
        · exact absurd (List.mem_append_left _ hm) hkey
  · cases hc
  · exact ⟨e', c, index, blanks, operator, rfl, hc, hindex, hblanks, hoperator⟩

theorem assigns_append_sign {left after : List Char} (hafter : after.head? ≠ some '=')
    (hlast : left.getLast? ≠ some '=') (hclosed : ClosesBrackets left) :
    Assigns (left ++ '=' :: after) ↔ EndsInTarget left ∨ Assigns left ∨ Assigns after := by
  constructor
  · rintro ⟨before, rest, hsplit, htarget, hrest⟩
    rcases append_cons_cases hsplit with ⟨e, rfl, rfl⟩ | ⟨rfl, -, -⟩ | ⟨e, rfl, rfl⟩
    · refine Or.inr (Or.inl ⟨before, e, rfl, htarget, fun hhead => hrest ?_⟩)
      rw [List.head?_append, hhead]
      rfl
    · exact Or.inl htarget
    · exact Or.inr (Or.inr ⟨e, rest, rfl, htarget.of_append_sign hclosed, hrest⟩)
  · rintro (htarget | ⟨before, rest, rfl, htarget, hrest⟩ | ⟨before, rest, rfl, htarget, hrest⟩)
    · exact ⟨left, after, rfl, htarget, hafter⟩
    · refine ⟨before, rest ++ '=' :: after, by simp, htarget, ?_⟩
      cases rest with
      | nil => exact absurd (by simp) hlast
      | cons d rest => exact hrest
    · exact ⟨left ++ '=' :: before, rest, by simp, (htarget.append ['=']).append left, hrest⟩

/-- A sign of assignment divides a line: it assigns to what stands before it, and the parts on its
two sides are read on their own. -/
theorem mutatesState_append_sign {left after : List Char} (hafter : after.head? ≠ some '=')
    (hlast : left.getLast? ≠ some '=') (hclosed : ClosesBrackets left) :
    mutatesState (left ++ '=' :: after) = true ↔
      EndsInTarget left ∨ mutatesState left = true ∨ mutatesState after = true := by
  rw [mutatesState_iff, mutatesState_iff, mutatesState_iff, steps_append_sign,
    assigns_append_sign hafter hlast hclosed]
  tauto

/-! ## Indices -/

/-- Every bracket that the text opens it closes, and no other. -/
inductive Balanced : List Char → Prop
  | nil : Balanced []
  | char {c : Char} {rest : List Char} : c ≠ '[' → c ≠ ']' → Balanced rest → Balanced (c :: rest)
  | nest {inner rest : List Char} :
      Balanced inner → Balanced rest → Balanced ('[' :: inner ++ ']' :: rest)

/-- One index in brackets or several, one behind another. -/
inductive Indices : List Char → Prop
  | last {key : List Char} : Balanced key → Indices ('[' :: key ++ [']'])
  | before {key rest : List Char} :
      Balanced key → Indices rest → Indices ('[' :: key ++ ']' :: rest)

/-- One index, without brackets inside. -/
def IsFlat (indices : List Char) : Prop :=
  ∃ key, '[' ∉ key ∧ ']' ∉ key ∧ indices = '[' :: key ++ [']']

theorem Balanced.of_not_mem {key : List Char} (hopen : '[' ∉ key) (hclose : ']' ∉ key) :
    Balanced key := by
  induction key with
  | nil => exact .nil
  | cons c key ih =>
    rw [List.mem_cons, not_or] at hopen hclose
    exact .char (Ne.symm hopen.1) (Ne.symm hclose.1) (ih hopen.2 hclose.2)

theorem IsFlat.indices {indices : List Char} (h : IsFlat indices) : Indices indices := by
  obtain ⟨key, hopen, hclose, rfl⟩ := h
  exact .last (.of_not_mem hopen hclose)

theorem Balanced.closesBrackets {key : List Char} (h : Balanced key) : ClosesBrackets key := by
  induction h with
  | nil =>
    intro before behind hsplit
    cases before <;> cases hsplit
  | char hopen _ _ ih =>
    intro before behind hsplit
    cases before with
    | nil => exact absurd (List.cons.inj hsplit).1 hopen
    | cons d before => exact ih before behind (List.cons.inj hsplit).2
  | nest _ _ _ ih =>
    intro before behind hsplit
    cases before with
    | nil =>
      obtain ⟨-, rfl⟩ := List.cons.inj hsplit
      simp
    | cons d before =>
      have hsplit' := (List.cons.inj hsplit).2
      rcases append_cons_cases hsplit' with ⟨e, -, rfl⟩ | ⟨-, heq, -⟩ | ⟨e, -, hrest⟩
      · simp
      · exact absurd heq (by decide)
      · exact ih e behind hrest

/-- Indices start with a bracket and end in one. -/
theorem Indices.exists_inside {indices : List Char} (h : Indices indices) :
    ∃ inside, indices = '[' :: (inside ++ [']']) := by
  induction h with
  | @last key _ => exact ⟨key, rfl⟩
  | @before key _ _ _ ih =>
    obtain ⟨inside, rfl⟩ := ih
    exact ⟨key ++ ']' :: '[' :: inside, by simp⟩

/-- An index without a closing bracket inside, with which indices end, is the only one or stands
behind another. -/
theorem Indices.eq_nil_or_getLast? {indices : List Char} (h : Indices indices) :
    ∀ {u key : List Char}, indices = u ++ '[' :: (key ++ [']']) → ']' ∉ key →
      u = [] ∨ u.getLast? = some ']' := by
  induction h with
  | last hbalanced =>
    intro u key hsplit hkey
    cases u with
    | nil => exact Or.inl rfl
    | cons d u =>
      have hinner := List.append_cancel_right
        (((List.cons.inj hsplit).2).trans (List.append_assoc u ('[' :: key) [']']).symm)
      exact absurd (hbalanced.closesBrackets _ _ hinner) hkey
  | @before first rest hbalanced _ ih =>
    intro u key hsplit hkey
    cases u with
    | nil => exact Or.inl rfl
    | cons d u =>
      have hsplit' := (List.cons.inj hsplit).2
      rcases append_cons_cases hsplit' with ⟨e, rfl, hrest⟩ | ⟨-, heq, -⟩ | ⟨e, rfl, hrest⟩
      · -- the first index closes what it opens, so the last one cannot start inside of it
        have he : ']' ∈ e := hbalanced.closesBrackets _ _ rfl
        rcases append_cons_cases hrest with ⟨m, rfl, -⟩ | ⟨rfl, -, -⟩ | ⟨m, -, hnil⟩
        · exact absurd (by simp) hkey
        · exact absurd he hkey
        · exact absurd hnil (by simp)
      · exact absurd heq (by decide)
      · refine Or.inr ?_
        rcases ih hrest hkey with rfl | hlast
        · rw [← List.cons_append, List.getLast?_concat]
        · rw [show d :: (first ++ ']' :: e) = (d :: first ++ [']']) ++ e by simp,
            List.getLast?_append, hlast]
          rfl

/-- Indices in which the first closing bracket is the last one are a single flat one. -/
theorem Indices.isFlat {key : List Char} (h : Indices ('[' :: (key ++ [']']))) (hkey : ']' ∉ key) :
    IsFlat ('[' :: (key ++ [']'])) := by
  refine ⟨key, fun hmem => ?_, hkey, rfl⟩
  obtain ⟨u, v, rfl⟩ := List.append_of_mem hmem
  have hv : ']' ∉ v := fun hmem => hkey (by simp [hmem])
  have hsplit : '[' :: (u ++ '[' :: v ++ [']']) = '[' :: u ++ '[' :: (v ++ [']']) := by simp
  rcases h.eq_nil_or_getLast? hsplit hv with hnil | hlast
  · cases hnil
  · rcases List.mem_cons.1 (List.mem_of_getLast? hlast) with heq | hu
    · exact absurd heq (by decide)
    · exact hkey (List.mem_append_left _ hu)

/-! ## Targets at indices -/

/-- The white space and the operator with which a text ends start behind the last character of
another kind. -/
theorem eq_of_append_ends {a b s t : List Char} {x y : Char} (hs : ∀ c ∈ s, IsBeforeSign c)
    (ht : ∀ c ∈ t, IsBeforeSign c) (hx : ¬IsBeforeSign x) (hy : ¬IsBeforeSign y)
    (h : a ++ x :: s = b ++ y :: t) : a = b ∧ x = y := by
  rcases append_cons_cases h with ⟨e, -, rfl⟩ | ⟨hab, hxy, -⟩ | ⟨e, -, rfl⟩
  · exact absurd (ht x (by simp)) hx
  · exact ⟨hab, hxy⟩
  · exact absurd (hs y (by simp)) hy

theorem not_isBeforeSign_of_isWord {c : Char} (hc : isWord c = true) : ¬IsBeforeSign c := by
  rintro (hblank | hcompound)
  · rw [isWord_of_isBlank hblank] at hc
    cases hc
  · simp only [isCompound, Bool.or_eq_true, beq_iff_eq] at hcompound
    obtain ((((((rfl | rfl) | rfl) | rfl) | rfl) | rfl) | rfl) | rfl := hcompound <;> cases hc

/-- A flat index behind a name, with which a name and its indices end, is all of these indices. -/
theorem Indices.isFlat_of_append_eq {before start indices key : List Char} {c d : Char}
    (h : Indices indices) (hd : isWord d = true) (hkey : ']' ∉ key)
    (hsplit : before ++ c :: indices = start ++ d :: '[' :: (key ++ [']'])) : IsFlat indices := by
  obtain ⟨inside, rfl⟩ := h.exists_inside
  rcases append_cons_cases hsplit with ⟨e, -, hbehind⟩ | ⟨-, -, heq⟩ | ⟨e, -, hindices⟩
  · -- the bracket of the index is opened before the name, and is closed by the end of the indices
    have hinside : '[' :: key ++ [']'] = (e ++ c :: '[' :: inside) ++ [']'] := by simp [hbehind]
    refine h.isFlat fun hmem => ?_
    have hmem' : ']' ∈ '[' :: key := by simp [List.append_cancel_right hinside, hmem]
    exact hkey ((List.mem_cons.1 hmem').resolve_left (by decide))
  · rw [heq] at h ⊢
    exact h.isFlat hkey
  · -- the last of several indices stands behind a bracket and not behind a name
    have hlast : e ++ [d] = [] ∨ (e ++ [d]).getLast? = some ']' :=
      h.eq_nil_or_getLast? (by simp [hindices]) hkey
    rw [List.getLast?_concat] at hlast
    rcases hlast with hnil | hlast
    · exact absurd hnil (by simp)
    · cases hlast
      cases hd

/-- What an assignment at indices assigns to: a name and its indices, with the white space and the
operator before the sign, and whatever stands before the name's last character. -/
structure IndexedTarget where
  before : List Char
  last : Char
  indices : List Char
  blanks : List Char
  operator : List Char
  isWord_last : isWord last = true
  isIndices : Indices indices
  isAllBlank_blanks : isAllBlank blanks = true
  isOperator : IsOperator operator

namespace IndexedTarget

/-- The line up to the sign. -/
def text (target : IndexedTarget) : List Char :=
  target.before ++ target.last :: (target.indices ++ target.blanks ++ target.operator)

/-- Behind the last bracket there are white space and an operator alone. -/
theorem exists_text_eq (target : IndexedTarget) : ∃ inside ends,
    target.indices = '[' :: (inside ++ [']']) ∧
    target.text = (target.before ++ target.last :: '[' :: inside) ++ ']' :: ends ∧
    ∀ x ∈ ends, IsBeforeSign x := by
  obtain ⟨inside, hinside⟩ := target.isIndices.exists_inside
  refine ⟨inside, target.blanks ++ target.operator, hinside, by simp [text, hinside], ?_⟩
  exact fun _ => isBeforeSign_of_mem target.isAllBlank_blanks target.isOperator

theorem endsInTarget_iff (target : IndexedTarget) :
    EndsInTarget target.text ↔ IsFlat target.indices := by
  constructor
  · rintro ⟨start, d, index, blanks, operator, hsplit, hd, hindex, hblanks, hoperator⟩
    obtain ⟨inside, ends, hinside, htext, hends⟩ := target.exists_text_eq
    have hends' : ∀ x ∈ blanks ++ operator, IsBeforeSign x :=
      fun _ => isBeforeSign_of_mem hblanks hoperator
    have hclosing : ¬IsBeforeSign ']' := by decide
    rw [htext] at hsplit
    rcases hindex with rfl | ⟨key, hkey, rfl⟩
    · -- a name would end where the last bracket stands
      obtain ⟨-, rfl⟩ := eq_of_append_ends hends hends' hclosing
        (not_isBeforeSign_of_isWord hd) hsplit
      cases hd
    · have hsplit' : (target.before ++ target.last :: '[' :: inside) ++ ']' :: ends =
          (start ++ d :: '[' :: key) ++ ']' :: (blanks ++ operator) := by simpa using hsplit
      obtain ⟨heq, -⟩ := eq_of_append_ends hends hends' hclosing hclosing hsplit'
      have hname : target.before ++ target.last :: target.indices =
          start ++ d :: '[' :: (key ++ [']']) := by
        simpa [hinside] using congrArg (· ++ [']']) heq
      exact target.isIndices.isFlat_of_append_eq hd hkey hname
  · rintro ⟨key, -, hkey, hflat⟩
    exact ⟨target.before, target.last, target.indices, target.blanks, target.operator, rfl,
      target.isWord_last, Or.inr ⟨key, hkey, hflat⟩, target.isAllBlank_blanks, target.isOperator⟩

/-- The sign divides the line: what is assigned to counts if the index is a single flat one. -/
theorem mutatesState_append_sign (target : IndexedTarget) {after : List Char}
    (hafter : after.head? ≠ some '=') :
    mutatesState (target.text ++ '=' :: after) = true ↔
      IsFlat target.indices ∨ mutatesState target.text = true ∨ mutatesState after = true := by
  obtain ⟨inside, ends, -, htext, hends⟩ := target.exists_text_eq
  have hlast : target.text.getLast? ≠ some '=' := by
    intro hlast
    rw [htext, List.getLast?_append_of_ne_nil _ (List.cons_ne_nil _ _)] at hlast
    rcases List.mem_cons.1 (List.mem_of_getLast? hlast) with heq | hmem
    · exact absurd heq (by decide)
    · exact absurd (hends _ hmem) (by decide)
  have hclosed : ClosesBrackets target.text := by
    -- whatever is open is closed by the last bracket
    intro before behind hsplit
    rcases append_cons_cases (htext.symm.trans hsplit) with ⟨e, -, rfl⟩ | ⟨-, heq, -⟩ | ⟨e, -, rfl⟩
    · simp
    · exact absurd heq (by decide)
    · exact absurd (hends '[' (by simp)) (by decide)
  rw [Reentrancy.mutatesState_append_sign hafter hlast hclosed, target.endsInTarget_iff]

end IndexedTarget

/-! ## Assignments at indices -/

/-- **Assignments at indices.** An assignment at a single flat index changes state. At indices
behind one another or inside of one another it is missed, and its line changes state only by what
stands before or behind the sign. So, in either mode, a call with such a line in its window is
critical by this or by another line. -/
theorem mutatesState_at_indices_iff (target : IndexedTarget) {after : List Char}
    (hafter : after.head? ≠ some '=') :
    (mutatesState (target.text ++ '=' :: after) = true ↔
      IsFlat target.indices ∨ mutatesState target.text = true ∨ mutatesState after = true) ∧
    ∀ (lines : Array Line) (mode : ScanMode) (call other : Line),
      other ∈ windowAfter lines mode call.index → other.text = target.text ++ '=' :: after →
      ∀ f ∈ findingsAt lines mode call, f.severity = .critical ↔
        (IsFlat target.indices ∨ mutatesState target.text = true ∨ mutatesState after = true) ∨
          ∃ rest ∈ windowAfter lines mode call.index,
            rest ≠ other ∧ mutatesState rest.text = true := by
  have hiff := target.mutatesState_append_sign hafter
  refine ⟨hiff, fun lines mode call other hother htext f hf => ?_⟩
  rw [severity_eq_critical_iff hother hf, htext, hiff]

/-- The books are updated at one index after a call. -/
theorem mutatesState_at_indices_iff_flat :
    ∃ target : IndexedTarget, target.text = "a[msg.sender] -".toList ∧
      " b;".toList.head? ≠ some '=' ∧ IsFlat target.indices ∧
      mutatesState "a[msg.sender] -= b;".toList = true ∧
      ∀ mode,
        let lines := (Source.ofText "f.send(1);\na[msg.sender] -= b;".toList).lines
        let findings := findingsAt lines mode ⟨1, "f.send(1);".toList⟩
        findings ≠ [] ∧ ∀ f ∈ findings, f.severity = .critical := by
  have hflat : IsFlat "[msg.sender]".toList :=
    ⟨"msg.sender".toList, by decide, by decide, by decide⟩
  let target : IndexedTarget := {
    before := []
    last := 'a'
    indices := "[msg.sender]".toList
    blanks := " ".toList
    operator := ['-']
    isWord_last := by decide
    isIndices := hflat.indices
    isAllBlank_blanks := by decide
    isOperator := Or.inr ⟨'-', by decide, rfl⟩ }
  have hafter : " b;".toList.head? ≠ some '=' := by decide
  obtain ⟨hiff, hcritical⟩ := mutatesState_at_indices_iff target hafter
  refine ⟨target, rfl, hafter, hflat, hiff.2 (Or.inl hflat), fun mode => ?_⟩
  intro lines findings
  let call : Line := ⟨1, "f.send(1);".toList⟩
  let other : Line := ⟨2, "a[msg.sender] -= b;".toList⟩
  have hother : other ∈ windowAfter lines mode call.index := by
    cases mode <;> decide +kernel
  have htext : other.text = target.text ++ '=' :: " b;".toList := rfl
  refine ⟨by cases mode <;> decide +kernel, fun f hf => ?_⟩
  exact (hcritical lines mode call other hother htext f hf).2 (Or.inl (Or.inl hflat))

/-- Books with two keys, and books whose key is looked up, are updated after a call that is not
critical. -/
theorem high_at_deep_indices :
    Indices "[b][c]".toList ∧ mutatesState "a[b][c] -= d;".toList = false ∧
    Indices "[b[c]]".toList ∧ mutatesState "a[b[c]] = d;".toList = false ∧
    let source : Source := .ofText "f.send(1);\na[b][c] -= d;\na[b[c]] = d;".toList
    ∀ mode, (inspect source mode).map Finding.severity = [.high] := by
  have hb : Balanced ['b'] := .of_not_mem (by decide) (by decide)
  have hc : Balanced ['c'] := .of_not_mem (by decide) (by decide)
  refine ⟨.before hb (.last hc), by decide +kernel,
    .last (.char (by decide) (by decide) (.nest hc .nil)), by decide +kernel, ?_⟩
  intro source mode
  cases mode <;> decide +kernel

end ContractAudit.Detector.Reentrancy
