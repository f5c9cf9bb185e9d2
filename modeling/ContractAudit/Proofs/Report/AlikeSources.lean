import ContractAudit.Proofs.ContractName
import ContractAudit.Proofs.Detector.LineScan

/-!
# Sources that are alike

One source may be another one with lines of white space around it and white space added at the ends
of its lines. An analysis does not see it, but for the place of things: the findings are the same,
further down by the number of the lines above, and so are the scores and the name.

Every window of a detector is compared at once, by `LineScan.Describes.alike`, since around
corresponding lines such sources look alike as far as one looks. What the detectors read of a source
as a whole is the version it asks for, which has to be the same.

Main results:

* `AlikeSources.of_parts`: sources are alike when their lines are.
* `AlikeSources.analyze`: they have the same report, with the findings shifted.
* `AlikeSources.contractName?`: they have the same name.
-/

namespace ContractAudit

open Text

/-- The second source is the first one with `above` lines of white space over it, and otherwise with
white space at the ends of lines and after them. -/
structure AlikeSources (above : Nat) (s t : List Char) : Prop where
  alikeAt : ∀ i : Int, AlikeAt above (lineAt? s i) (lineAt? t (i + above))
  isVersionProtected :
    Detector.Overflow.isVersionProtected s = Detector.Overflow.isVersionProtected t

/-! ## Sources by their lines -/

theorem text_mem_parts_of_lineAt? {source : List Char} {i : Int} {line : Line}
    (h : lineAt? source i = some line) : line.text ∈ parts source := by
  rw [lineAt?] at h
  split at h
  · exact text_mem_parts_of_mem_splitLines (List.mem_of_getElem? h)
  · cases h

namespace AlikeSources

variable {above : Nat} {s t : List Char}

theorem alikeAt_none {t : List Char} (h : ∀ text ∈ parts t, AlikeText [] text) (i : Int) :
    AlikeAt above none (lineAt? t i) := by
  cases hline : lineAt? t i with
  | none => exact .absent
  | some b => exact .blank (h b.text (text_mem_parts_of_lineAt? hline))

section Parts

variable {front middle back : List (List Char)} (hparts : parts t = front ++ (middle ++ back))
  (hfront : ∀ b ∈ front, AlikeText [] b) (hmiddle : List.Forall₂ AlikeText (parts s) middle)
  (hback : ∀ b ∈ back, AlikeText [] b)
include hparts hmiddle

/-- An empty source is alike to an empty one only. -/
theorem eq_nil_of_eq_nil (ht : t = []) : s = [] := by
  subst ht
  -- of the one part there is, the first source takes all
  have hlength := congrArg List.length hparts
  rw [parts_nil, List.length_singleton, List.length_append, List.length_append] at hlength
  have hpos : 0 < middle.length :=
    hmiddle.length_eq ▸ List.length_pos_iff.2 (parts_ne_nil s)
  obtain rfl : front = [] := List.length_eq_zero_iff.1 (by omega)
  obtain rfl : back = [] := List.length_eq_zero_iff.1 (by omega)
  rw [parts_nil, List.nil_append, List.append_nil] at hparts
  rw [← hparts, List.forall₂_cons_right_iff] at hmiddle
  obtain ⟨a, rest, ha, hrest, hs⟩ := hmiddle
  rw [List.forall₂_nil_right_iff] at hrest
  obtain ⟨w, -, haw⟩ := ha.exists_append
  rw [(List.append_eq_nil_iff.1 haw.symm).1, hrest] at hs
  exact eq_nil_of_parts hs

include hfront hback

/-- Around an empty source everything is white space. -/
theorem alikeText_of_eq_nil (hs : s = []) : ∀ text ∈ parts t, AlikeText [] text := by
  subst hs
  rw [parts_nil, List.forall₂_cons_left_iff] at hmiddle
  obtain ⟨b, rest, hb, hrest, rfl⟩ := hmiddle
  rw [List.forall₂_nil_left_iff] at hrest
  subst hrest
  intro text htext
  rw [hparts, List.mem_append, List.mem_append, List.mem_singleton] at htext
  rcases htext with htext | rfl | htext
  · exact hfront text htext
  · exact hb
  · exact hback text htext

omit hmiddle hback in
/-- Above the first source stand the lines in front. -/
theorem alikeAt_of_neg (ht : t ≠ []) {i : Int} (hi : i < 0) :
    AlikeAt front.length (lineAt? s i) (lineAt? t (i + front.length)) := by
  rw [lineAt?, if_neg (by omega), lineAt?]
  split
  · have hplace : (i + front.length).toNat < front.length := by omega
    rw [getElem?_splitLines_eq ht, hparts, List.getElem?_append_left hplace,
      List.getElem?_eq_getElem hplace]
    exact .blank (hfront _ (List.getElem_mem hplace))
  · exact .absent

omit hfront in
/-- From there on stand the corresponding lines, and below them the lines at the back. -/
theorem alikeAt_natCast (hs : s ≠ []) (ht : t ≠ []) (k : Nat) :
    AlikeAt front.length (lineAt? s k) (lineAt? t (k + front.length)) := by
  have hplace : (parts t)[k + front.length]? = (middle ++ back)[k]? := by
    rw [hparts, List.getElem?_append_right (Nat.le_add_left _ _), Nat.add_sub_cancel]
  rw [← Int.natCast_add, lineAt?_natCast, lineAt?_natCast, getElem?_splitLines_eq hs,
    getElem?_splitLines_eq ht, hplace]
  rcases Nat.lt_or_ge k (parts s).length with hk | hk
  · have hk' : k < middle.length := hmiddle.length_eq ▸ hk
    rw [List.getElem?_append_left hk', List.getElem?_eq_getElem hk, List.getElem?_eq_getElem hk']
    refine .lines ⟨?_, hmiddle.get hk hk'⟩
    show ((k + front.length + 1 : Nat) : Int) = (k + 1 : Nat) + front.length
    omega
  · rw [List.getElem?_eq_none hk, List.getElem?_append_right (hmiddle.length_eq ▸ hk)]
    cases hline : back[k - middle.length]? with
    | none => exact .absent
    | some b => exact .blank (hback b (List.mem_of_getElem? hline))

/-- Lines of white space above and below, and lines that are alike between them. -/
theorem of_parts
    (hprotected : Detector.Overflow.isVersionProtected s = Detector.Overflow.isVersionProtected t) :
    AlikeSources front.length s t := by
  refine ⟨fun i => ?_, hprotected⟩
  by_cases hs : s = []
  · -- an empty source has no line anywhere
    have hnone : lineAt? s i = none := by
      rw [hs, lineAt?, splitLines_nil, List.getElem?_nil, ite_self]
    rw [hnone]
    exact alikeAt_none (alikeText_of_eq_nil hparts hfront hmiddle hback hs) _
  · have ht : t ≠ [] := fun h => hs (eq_nil_of_eq_nil hparts hmiddle h)
    rcases Int.lt_or_le i 0 with hi | hi
    · exact alikeAt_of_neg hparts hfront ht hi
    · obtain ⟨k, rfl⟩ := Int.eq_ofNat_of_zero_le hi
      exact alikeAt_natCast hparts hmiddle hback hs ht k

end Parts

/-! ## Corresponding lines -/

theorem alikeAround (h : AlikeSources above s t) {i j : Nat} (hij : j = i + above)
    (low high : Int) : AlikeAround s t i j low high := by
  intro k _ _
  have hat := h.alikeAt (i + k)
  have hshift : (j - i : Int) = above := by omega
  have hplace : (i + k + above : Int) = j + k := by omega
  rwa [hplace, ← hshift] at hat

theorem blank_of_mem_take (h : AlikeSources above s t) {line : Line}
    (hline : line ∈ (splitLines t).take above) : AlikeText [] line.text := by
  obtain ⟨k, hk⟩ := List.getElem?_of_mem hline
  rw [List.getElem?_take] at hk
  split at hk
  · rename_i hlt
    have hat := h.alikeAt (k - above)
    have hnone : lineAt? s (k - above) = none := by rw [lineAt?, if_neg (by omega)]
    rw [hnone, Int.sub_add_cancel, lineAt?_natCast, hk] at hat
    cases hat with
    | blank hblank => exact hblank
  · cases hk

theorem alikeLines (h : AlikeSources above s t) :
    AlikeLines above (splitLines s) ((splitLines t).drop above) := by
  refine alikeLines_of_alikeAt fun k => ?_
  have hat := h.alikeAt k
  rwa [← Int.natCast_add, lineAt?_natCast, lineAt?_natCast, Nat.add_comm k,
    ← List.getElem?_drop] at hat

end AlikeSources

/-! ## Findings -/

/-- What is found line by line, and never on white space, is found at corresponding lines. -/
theorem AlikeLines.flatMap_eq {shift : Int} {as bs : List Line} {f g : Line → List Finding}
    (h : AlikeLines shift as bs) (hblank : ∀ b ∈ bs, AlikeText [] b.text → g b = [])
    (halike : ∀ a ∈ as, ∀ b ∈ bs, AlikeLine shift a b → g b = (f a).map (Finding.shift shift)) :
    bs.flatMap g = (as.flatMap f).map (Finding.shift shift) := by
  induction h with
  | blank h =>
    rw [List.flatMap_nil, List.map_nil, List.flatMap_eq_nil_iff]
    exact fun b hb => hblank b hb (h b hb)
  | cons h hs ih =>
    rw [List.flatMap_cons, List.flatMap_cons, List.map_append,
      halike _ List.mem_cons_self _ List.mem_cons_self h]
    congr 1
    refine ih (fun b hb => hblank b (List.mem_cons_of_mem _ hb)) ?_
    exact fun a ha b hb => halike a (List.mem_cons_of_mem _ ha) b (List.mem_cons_of_mem _ hb)

theorem LineScan.Describes.inspect_alike {scan : LineScan} {name : String}
    {inspect : Source → ScanMode → List Finding} (h : scan.Describes (.ofTotal name inspect))
    {above : Nat} {s t : List Char} (hst : AlikeSources above s t) (mode : ScanMode) :
    inspect (.ofText t) mode = (inspect (.ofText s) mode).map (Finding.shift above) := by
  have hs : inspect (.ofText s) mode =
      (splitLines s).flatMap (scan.findingsAt (.ofText s) mode) :=
    Except.ok.inj (h.inspect_eq (.ofText s) mode)
  have ht : inspect (.ofText t) mode =
      (splitLines t).flatMap (scan.findingsAt (.ofText t) mode) :=
    Except.ok.inj (h.inspect_eq (.ofText t) mode)
  -- nothing is found above the first corresponding line
  have htake : ((splitLines t).take above).flatMap (scan.findingsAt (.ofText t) mode) = [] := by
    rw [List.flatMap_eq_nil_iff]
    exact fun b hb => h.blank _ mode b (hst.blank_of_mem_take hb)
  rw [hs, ht, ← List.take_append_drop above (splitLines t), List.flatMap_append, htake,
    List.nil_append]
  -- from there on the lines correspond one to one, and around them all windows look alike
  refine hst.alikeLines.flatMap_eq (fun b _ => h.blank _ mode b) fun a ha b hb hline => ?_
  have hb : b ∈ splitLines t := List.mem_of_mem_drop hb
  have hindex : b.index = a.index + above := by
    have hnumber := hline.number
    have hanumber := (getElem?_splitLines ha).2
    have hbnumber := (getElem?_splitLines hb).2
    omega
  have hshift : (b.index - a.index : Int) = above := by omega
  have haround := hst.alikeAround hindex (scan.reach mode).low (scan.reach mode).high
  have halike := h.alike hst.isVersionProtected ha hb (hshift ▸ hline) haround
  rwa [hshift] at halike

namespace AlikeSources

variable {above : Nat} {s t : List Char}

theorem builtinFound (h : AlikeSources above s t) (mode : ScanMode) :
    builtinFound t mode = (builtinFound s mode).map (List.map (Finding.shift above)) := by
  simp only [ContractAudit.builtinFound, List.map_cons, List.map_nil,
    Detector.Reentrancy.describes.inspect_alike h, Detector.Overflow.describes.inspect_alike h,
    Detector.GasLoop.describes.inspect_alike h, Detector.AccessControl.describes.inspect_alike h,
    Detector.NatSpec.describes.inspect_alike h]

/-- Scores do not depend on where the findings stand. -/
theorem ofFindings_shift (found : List Finding) (shift : Int) :
    CategoryScores.ofFindings (found.map (Finding.shift shift)) =
      CategoryScores.ofFindings found := by
  rw [CategoryScores.ofFindings, CategoryScores.ofFindings, Penalties.ofFindings, List.foldl_map]
  rfl

/-- The report is the same but for the places of its findings. -/
theorem analyze (h : AlikeSources above s t) (mode : ScanMode) :
    ∃ report, analyze s mode = .ok report ∧
      ContractAudit.analyze t mode =
        .ok { report with findings := report.findings.map (Finding.shift above) } := by
  obtain ⟨r, hr, hrfound, hrscores⟩ := exists_analyze s mode
  obtain ⟨q, hq, hqfound, hqscores⟩ := exists_analyze t mode
  refine ⟨r, hr, hq.trans (congrArg Except.ok ?_)⟩
  have hfound : q.findings = r.findings.map (Finding.shift above) := by
    rw [hqfound, hrfound, h.builtinFound, List.map_flatten]
  have hscores : q.scores = r.scores := by
    rw [hfound, ofFindings_shift, hrscores] at hqscores
    exact (Except.ok.inj hqscores).symm
  -- the suggestions are the checklist in both
  obtain ⟨_, _, rfl⟩ := exists_eq_make_of_analyzeWith hr
  obtain ⟨_, _, rfl⟩ := exists_eq_make_of_analyzeWith hq
  rw [Report.mk.injEq]
  exact ⟨hscores, hfound, rfl⟩

/-! ## Names -/

theorem contractName? (h : AlikeSources above s t) : contractName? t = contractName? s := by
  have hblank : ∀ {text}, AlikeText [] text → nameInLine? text = none := fun h =>
    h.congr ignoresTrailing_nameInLine?
  have htake :
      ((splitLines t).take above).findSome? (fun line => nameInLine? line.text) = none := by
    rw [List.findSome?_eq_none_iff]
    exact fun b hb => hblank (h.blank_of_mem_take hb)
  have hdrop : ∀ {as bs : List Line}, AlikeLines above as bs →
      bs.findSome? (fun line => nameInLine? line.text) =
        as.findSome? fun line => nameInLine? line.text := by
    intro as bs h
    induction h with
    | blank h =>
      rw [List.findSome?_nil, List.findSome?_eq_none_iff]
      exact fun b hb => hblank (h b hb)
    | cons h _ ih =>
      rw [List.findSome?_cons, List.findSome?_cons, ih, h.text.congr ignoresTrailing_nameInLine?]
  -- the first line with a name is the corresponding one
  rw [ContractAudit.contractName?, ContractAudit.contractName?,
    ← List.take_append_drop above (splitLines t), List.findSome?_append, htake, Option.none_or]
  exact hdrop h.alikeLines

end AlikeSources

end ContractAudit
