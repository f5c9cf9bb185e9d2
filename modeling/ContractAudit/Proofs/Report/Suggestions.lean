import ContractAudit.Proofs.Json.Scalars
import ContractAudit.Proofs.Report.RoundTrip

/-!
# Suggestions of a report

A report stores each suggestion once, whether it is made of parts or read from data. Of the scalars
that stand for the same it stores the first, as it was given: of `1`, `true` and `1.0` the one that
comes first in the list.

Reading adds nothing to that. A scalar passes the reader as it is, so data with suggestions gives
the report that the data gives without them, with these suggestions stored, and it is refused for
its scores and findings alone (`Report.ofValue_insert_suggestions`).

Main results: `Report.make_suggestions` and `Report.suggestions_areFirsts`.
-/

namespace ContractAudit

open Json

theorem Read.suggestion_of_isScalar {x : Value} (h : x.IsScalar) : Read.suggestion x = .ok x := by
  cases h <;> rfl

namespace Report

/-- To store again what a report stores changes nothing. -/
theorem make_suggestions (scores : CategoryScores) (findings : List Finding)
    (suggestions : List Value) :
    Report.make scores findings (Report.make scores findings suggestions).suggestions =
      Report.make scores findings suggestions := by
  unfold Report.make
  rw [Value.dedup_of_distinct (Value.distinct_dedup suggestions)]

/-! ## Suggestions that are read -/

/-- All other members are those of the data without suggestions. -/
theorem lookup_insert_suggestions {key : String} (h : key ≠ "suggestions") (value : Value)
    (members : List (Str × Value)) :
    Value.lookup (.text key) (Value.insert (.text "suggestions") value members) =
      Value.lookup (.text key) (Value.erase (.text "suggestions") members) := by
  have hne : Str.text "suggestions" ≠ Str.text key := fun heq => h (Str.text.inj heq).symm
  rw [Value.lookup_insert_of_ne hne, Value.lookup_erase_of_ne hne]

/-- Suggestions that are scalars are the last to be read, and they are not refused. -/
theorem ofValue_insert_suggestions {items : List Value} (h : ∀ x ∈ items, x.IsScalar)
    (members : List (Str × Value)) :
    Report.ofValue (.object (Value.insert (.text "suggestions") (.list items) members)) =
      (Report.ofValue (.object (Value.erase (.text "suggestions") members))).map fun r =>
        Report.make r.scores r.findings items := by
  have hitems : items.mapM Read.suggestion = .ok items :=
    mapM_eq_ok_self fun x hx => Read.suggestion_of_isScalar (h x hx)
  have hscores := lookup_insert_suggestions (show "scores" ≠ _ by decide) (.list items) members
  have hfindings := lookup_insert_suggestions (show "findings" ≠ _ by decide) (.list items) members
  unfold Report.ofValue Read.required Read.optionalItems Value.get?
  simp only [hscores, hfindings, Value.lookup_insert_self, Value.lookup_erase_self]
  show _ = (fun r : Report => Report.make r.scores r.findings items) <$> _
  simp only [map_bind]
  -- up to the suggestions both readings take the same steps
  refine bind_congr fun data => bind_congr fun scores => ?_
  refine bind_congr fun list => bind_congr fun findings => ?_
  show (items.mapM Read.suggestion >>= fun suggestions =>
    pure (make scores findings suggestions)) = .ok (make scores findings items)
  rw [hitems]
  rfl

/-! ## What is stored -/

/-- **Suggestions.** Scalars that a report is made of are stored in their order without those that
stand for the same as an earlier one. So no two that are stored stand for the same, each that is
given stands for the same as a stored one, and the stored ones are the items at the first places of
their contents, in the order of these places. Storing them again changes nothing, and data that
gives them is read as the data without suggestions, with the same ones stored. -/
theorem suggestions_areFirsts {items : List Value} (h : ∀ x ∈ items, x.IsScalar)
    (scores : CategoryScores) (findings : List Finding) :
    let r := Report.make scores findings items
    r.suggestions.Sublist items ∧
      (r.suggestions.map Value.content?).Nodup ∧
      (∀ x ∈ items, ∃ y ∈ r.suggestions, y.content? = x.content?) ∧
      (∀ y ∈ r.suggestions, items[Value.firstPlace items y]? = some y) ∧
      (r.suggestions.map (Value.firstPlace items)).Pairwise (· < ·) ∧
      Report.make scores findings r.suggestions = r ∧
      ∀ members,
        Report.ofValue (.object (Value.insert (.text "suggestions") (.list items) members)) =
          (Report.ofValue (.object (Value.erase (.text "suggestions") members))).map fun other =>
            { other with suggestions := r.suggestions } := by
  intro r
  have hfirsts : Value.KeepsFirsts r.suggestions items := Value.keepsFirsts_dedup h
  exact ⟨Value.dedup_sublist items, hfirsts.nodup_map_content?, hfirsts.covers, hfirsts.first,
    hfirsts.ordered, make_suggestions scores findings items, ofValue_insert_suggestions h⟩

/-- One and zero come in three kinds each, and a text comes twice. -/
theorem suggestions_areFirsts_mixed :
    let items : List Value := [.int 1, .text "a", .real (.finite 1), .bool true,
      .real .negativeZero, .int 0, .text "a", .bool false, .null, .real (.infinite true)]
    let stored : List Value := [.int 1, .text "a", .real .negativeZero, .null,
      .real (.infinite true)]
    let scores := CategoryScores.uniform CategoryScores.lowest
    (∀ x ∈ items, x.IsScalar) ∧ (Report.make scores [] items).suggestions = stored ∧
      stored.Sublist items ∧ (stored.map Value.content?).Nodup ∧
      stored.map (Value.firstPlace items) = [0, 1, 4, 8, 9] ∧
      Report.make scores [] stored = Report.make scores [] items ∧
      Report.ofValue (.record [("scores", scores.toValue), ("suggestions", .list items)]) =
        .ok ⟨scores, [], stored⟩ := by
  intro items stored scores
  have hitems : ∀ x ∈ items, x.IsScalar := by
    have htext : (Value.text "a").IsScalar := .string [0x61]
    simp only [items, List.forall_mem_cons]
    exact ⟨.number (by decide), htext, .number (by decide), .bool true, .number (by decide),
      .number (by decide), htext, .bool false, .null, .number (by decide), by simp⟩
  have hstored : (Report.make scores [] items).suggestions = stored := rfl
  obtain ⟨hsublist, hnodup, -, -, -, hagain, hread⟩ := suggestions_areFirsts hitems scores []
  rw [hstored] at hsublist hnodup hagain hread
  exact ⟨hitems, hstored, hsublist, hnodup, by decide, hagain,
    hread [(.text "scores", scores.toValue)]⟩

end Report

end ContractAudit
