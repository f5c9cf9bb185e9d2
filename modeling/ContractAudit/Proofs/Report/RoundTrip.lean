import ContractAudit.Proofs.Analysis
import ContractAudit.Reading

/-!
# Writing a report and reading it back

A report that was made by an analysis, or read from any data, is the one that reading its own data
gives.

* **Parts.** Each reader undoes its writer on everything the writer can be given, since the types
  carry what the readers check: a severity has a name, a score is in its range.
* **Suggestions.** Reading refuses compound suggestions and keeps each content once, so not every
  list of values comes back. Those of a report that was obtained do (`Report.Settled`).
* **Derived members.** Reading looks up three members and no other, so the overall score and the
  counts of the data have no say (`Report.ofValue_congr`).

Main results:

* `Finding.ofValue_toValue`, `CategoryScores.ofValue_toValue`: reading undoes writing.
* `Report.Obtained.settled`: suggestions of a report that was obtained are plain and distinct.
* `Report.read_write`: a report survives being written and read, whatever its derived members say.
-/

namespace ContractAudit

open Json

/-! ## Findings -/

theorem Read.integer_int (n : Int) : Read.integer (.int n) = .ok n := rfl

theorem Read.severity_name (s : Severity) : Read.severity (.text s.name) = .ok s := by
  rw [Read.severity, Severity.ofValue?_name]

theorem Read.category_name (c : Category) : Read.category (.text c.name) = .ok c := by
  rw [Read.category, Category.ofValue?_name]

theorem Finding.ofValue_toValue (f : Finding) : Finding.ofValue f.toValue = .ok f := by
  have hcategories : (f.categories.map fun c => Value.text c.name).mapM Read.category =
      .ok f.categories := mapM_map_eq_ok Read.category_name f.categories
  -- each member is found under its own key, and reading turns it back
  simp [Finding.ofValue, Finding.toValue, Value.record, Read.required, Read.optionalItems,
    Read.optionalText, Read.items, Value.get?, Value.lookup, Read.severity_name,
    Read.integer_int, hcategories, bind, Except.bind, pure, Except.pure]

/-! ## Scores -/

theorem Read.real_real (x : Binary64) : Read.real (.real x) = .ok x := rfl

theorem Score.ofValue_value (c : Category) (s : Score) :
    Score.ofValue c (.real s.value) = .ok s := by
  rw [Score.ofValue, Read.real_real]
  show (Score.check c s.value).mapError ReadError.score = .ok s
  -- the score brings the proof that it is in its range
  rw [Score.check_of_isScore c s.inRange]
  rfl

theorem CategoryScores.ofValue_toValue (scores : CategoryScores) :
    CategoryScores.ofValue scores.toValue = .ok scores := by
  simp [CategoryScores.ofValue, CategoryScores.toValue, Value.record, Category.all,
    Category.name, CategoryScores.get, Read.required, Value.lookup, Score.ofValue_value, bind,
    Except.bind, pure, Except.pure]

/-! ## Suggestions -/

theorem Read.suggestion_text (s : String) : Read.suggestion (.text s) = .ok (.text s) := rfl

/-- A suggestion that is read may be read again. -/
theorem Read.suggestion_of_eq_ok {value read : Value} (h : Read.suggestion value = .ok read) :
    Read.suggestion read = .ok read := by
  cases value with
  | list items => cases h
  | object members => cases h
  | _ =>
    obtain rfl := Except.ok.inj h
    rfl

namespace Report

/-- The suggestions pass the reader as they are, and it drops none of them. -/
structure Settled (r : Report) : Prop where
  plain : ∀ s ∈ r.suggestions, Read.suggestion s = .ok s
  distinct : Value.Distinct r.suggestions

/-- Plain suggestions are settled once each is kept a single time. -/
theorem settled_make {suggestions : List Value}
    (h : ∀ s ∈ suggestions, Read.suggestion s = .ok s) (scores : CategoryScores)
    (findings : List Finding) : (Report.make scores findings suggestions).Settled := by
  constructor
  · exact fun s hs => h s ((Value.dedup_sublist suggestions).subset hs)
  · exact Value.distinct_dedup suggestions

/-- A report that came about: made by an analysis, with whatever detectors, or read from data. -/
inductive Obtained (r : Report) : Prop where
  | analyzed {detectors : List Detector} {source : List Char} {mode : ScanMode}
      (h : analyzeWith detectors source mode = .ok r)
  | read {data : Value} (h : Report.ofValue data = .ok r)

theorem Obtained.settled {r : Report} (h : r.Obtained) : r.Settled := by
  cases h with
  | analyzed h =>
    obtain ⟨scores, findings, rfl⟩ := exists_eq_make_of_analyzeWith h
    refine Report.settled_make (fun s hs => ?_) scores findings
    obtain ⟨text, -, rfl⟩ := List.mem_map.1 hs
    exact Read.suggestion_text text
  | read h =>
    obtain ⟨_, -, h⟩ := bind_eq_ok_iff.1 h
    obtain ⟨scores, -, h⟩ := bind_eq_ok_iff.1 h
    obtain ⟨_, -, h⟩ := bind_eq_ok_iff.1 h
    obtain ⟨findings, -, h⟩ := bind_eq_ok_iff.1 h
    obtain ⟨items, -, h⟩ := bind_eq_ok_iff.1 h
    obtain ⟨suggestions, hsuggestions, h⟩ := bind_eq_ok_iff.1 h
    obtain rfl := Except.ok.inj h
    refine Report.settled_make (fun s hs => ?_) scores findings
    -- whatever item `s` was read from, it is plain
    obtain ⟨value, -, hs⟩ := exists_of_mem_mapM hsuggestions hs
    exact Read.suggestion_of_eq_ok hs

/-! ## Reports -/

theorem ofValue_toValue {r : Report} (h : r.Settled) :
    Report.ofValue r.toValue = .ok r := by
  have hfindings : (r.findings.map Finding.toValue).mapM Finding.ofValue = .ok r.findings :=
    mapM_map_eq_ok Finding.ofValue_toValue r.findings
  have hsuggestions : r.suggestions.mapM Read.suggestion = .ok r.suggestions :=
    mapM_eq_ok_self h.plain
  -- making the report again drops no suggestion
  have hmake : Report.make r.scores r.findings r.suggestions = r := by
    rw [Report.make, Value.dedup_of_distinct h.distinct]
  simp [Report.ofValue, Report.toValue, Report.members, Value.record, Read.required,
    Read.optionalItems, Read.items, Value.get?, Value.lookup, CategoryScores.ofValue_toValue,
    hfindings, hsuggestions, hmake, bind, Except.bind, pure, Except.pure]

/-! ## Derived members -/

/-- The keys of the members that a report derives. -/
def derivedKeys : List String := ["overallScore", "severityCounts"]

/-- Two objects agree in every member that is not derived; a derived one may be anything in either,
or missing. -/
inductive SameBesidesDerived : Value → Value → Prop where
  | object {members others : List (Str × Value)}
      (h : ∀ key, (∀ name ∈ derivedKeys, key ≠ .text name) →
        Value.lookup key members = Value.lookup key others) :
      SameBesidesDerived (.object members) (.object others)

theorem SameBesidesDerived.trans {data other last : Value}
    (h : SameBesidesDerived data other) (h' : SameBesidesDerived other last) :
    SameBesidesDerived data last := by
  obtain ⟨h⟩ := h
  obtain ⟨h'⟩ := h'
  exact .object fun key hkey => (h key hkey).trans (h' key hkey)

/-- Binding a derived key to another value, in its place or as a new member. -/
theorem sameBesidesDerived_insert {name : String} (h : name ∈ derivedKeys) (value : Value)
    (members : List (Str × Value)) :
    SameBesidesDerived (.object members) (.object (Value.insert (.text name) value members)) :=
  .object fun _ hkey => (Value.lookup_insert_of_ne (hkey name h).symm value members).symm

/-- Leaving a derived key out. -/
theorem sameBesidesDerived_erase {name : String} (h : name ∈ derivedKeys)
    (members : List (Str × Value)) :
    SameBesidesDerived (.object members) (.object (Value.erase (.text name) members)) :=
  .object fun _ hkey => (Value.lookup_erase_of_ne (hkey name h).symm members).symm

/-- Reading has no use for the derived members, also when it refuses the data. -/
theorem ofValue_congr {data other : Value} (h : SameBesidesDerived data other) :
    Report.ofValue data = Report.ofValue other := by
  obtain ⟨h⟩ := h
  -- the only three members that are looked up
  have hscores := h (.text "scores") (by decide)
  have hfindings := h (.text "findings") (by decide)
  have hsuggestions := h (.text "suggestions") (by decide)
  simp only [Report.ofValue, Read.required, Read.optionalItems, Value.get?, hscores, hfindings,
    hsuggestions]

/-- The data of the report that the data gives. -/
def rewrite (data : Value) : Except ReadError Value :=
  (Report.ofValue data).map Report.toValue

theorem rewrite_eq_ok_iff {data written : Value} :
    rewrite data = .ok written ↔ ∃ r, Report.ofValue data = .ok r ∧ r.toValue = written := by
  rw [rewrite]
  cases Report.ofValue data with
  | error e => simp [Except.map]
  | ok r => simp [Except.map]

/-- **Round trip.** Reading the data of a report that came about gives the report itself. What the
data says of the derived members has no say, so writing what was read settles at once, with both
members derived anew from the scores and the findings. -/
theorem read_write :
    (∀ r : Report, r.Obtained → Report.ofValue r.toValue = .ok r) ∧
    (∀ data other, SameBesidesDerived data other → Report.ofValue other = Report.ofValue data) ∧
    ∀ data other written, SameBesidesDerived data other → rewrite data = .ok written →
      rewrite other = .ok written ∧ rewrite written = .ok written ∧
      ∃ r, Report.ofValue data = .ok r ∧
        written.get? "overallScore" = some (.real r.scores.overall) ∧
        written.get? "severityCounts" = some r.severityCounts := by
  refine ⟨fun r h => ofValue_toValue h.settled, fun data other h => (ofValue_congr h).symm, ?_⟩
  intro data other written hsame hwritten
  obtain ⟨r, hr, rfl⟩ := rewrite_eq_ok_iff.1 hwritten
  have hback : Report.ofValue r.toValue = .ok r := ofValue_toValue (Obtained.read hr).settled
  have hother : Report.ofValue other = .ok r := (ofValue_congr hsame).symm.trans hr
  exact ⟨rewrite_eq_ok_iff.2 ⟨r, hother, rfl⟩, rewrite_eq_ok_iff.2 ⟨r, hback, rfl⟩, r, hr, rfl, rfl⟩

/-- A forged score and missing counts change nothing in what is read. -/
theorem read_write_forged :
    let scores := CategoryScores.uniform CategoryScores.lowest
    let found := Value.record [
      ("id", .int 0), ("title", .text "Title"), ("severity", .text "High"), ("line", .real (.finite 7)),
      ("categories", .list [.text "codeQuality"])]
    let members : List (Str × Value) := [
      (.text "scores", scores.toValue), (.text "severityCounts", .null),
      (.text "findings", .list [found]),
      (.text "suggestions", .list [.int 1, .bool true, .text "a"])]
    let forged := Value.insert (.text "overallScore") (.int 10)
      (Value.erase (.text "severityCounts") members)
    let finding : Finding := ⟨.int 0, .text "Title", .high, 7, .text "", .text "", [],
      [.codeQuality], .text ""⟩
    let r : Report := ⟨scores, [finding], [.int 1, .text "a"]⟩
    Report.ofValue (.object members) = .ok r ∧ Report.ofValue r.toValue = .ok r ∧
      Report.ofValue (.object forged) = .ok r ∧ rewrite (.object forged) = .ok r.toValue := by
  intro scores found members forged finding r
  have hread : Report.ofValue (.object members) = .ok r := rfl
  have hsame : SameBesidesDerived (.object members) (.object forged) :=
    (sameBesidesDerived_erase (by decide) members).trans
      (sameBesidesDerived_insert (by decide) (.int 10) _)
  obtain ⟨hback, hcongr, hrewrite⟩ := Report.read_write
  have hwritten : rewrite (.object members) = .ok r.toValue := rewrite_eq_ok_iff.2 ⟨r, hread, rfl⟩
  exact ⟨hread, hback r (.read hread), (hcongr _ _ hsame).trans hread,
    (hrewrite _ _ _ hsame hwritten).1⟩

end Report

end ContractAudit
