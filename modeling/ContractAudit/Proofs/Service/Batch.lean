import ContractAudit.Http.Multipart.Writer
import ContractAudit.Proofs.Score.Range
import ContractAudit.Service.Response

/-!
# Batches are audited file by file

A batch that may run is answered with one entry for each file. The entry of a file is the one it has
by itself (`Host.entry`), whatever stands beside it in the batch: the other files only decide on its
place. Any detectors may run, also ones that fail.

* **Ranks.** An overall score is a number up to ten, so the rank of a failed file lies beyond all
  scores, and the sort by ranks is one by rational numbers.
* **Stability.** Entries that rank alike are a sublist of those sent that is sorted already, and a
  stable sort keeps it (`filter_mergeSort`).
* **Data.** The data of an entry has the score by which it is sorted, or an error where it has none
  (`Entry.isShownBy_toValue`), so the order can be seen in the answer.

Main result: `Host.analyzeBatch_inRiskOrder`.
-/

namespace ContractAudit.Service

open Http Json

/-! ## Stable sorting -/

section Sorting

variable {α : Type} {le : α → α → Bool} (trans : ∀ a b c, le a b → le b c → le a c)
  (total : ∀ a b, le a b || le b a)
include trans total

/-- What may stand in any order keeps the order it has. -/
theorem filter_mergeSort {p : α → Bool} (hp : ∀ a b, p a → p b → le a b) (l : List α) :
    (l.mergeSort le).filter p = l.filter p := by
  have hsorted : (l.filter p).Pairwise fun a b => le a b := by
    refine List.pairwise_of_forall_mem_list fun a ha b hb => ?_
    exact hp a b (List.mem_filter.1 ha).2 (List.mem_filter.1 hb).2
  have hsublist : (l.filter p).Sublist (l.mergeSort le) :=
    List.sublist_mergeSort trans total hsorted List.filter_sublist
  -- both lists have as many items that pass, so the sublist of them is all of them
  have hfiltered := hsublist.filter p
  simp only [List.filter_filter, Bool.and_self] at hfiltered
  refine (hfiltered.eq_of_length ?_).symm
  exact ((List.mergeSort_perm l le).filter p).length_eq.symm

end Sorting

/-! ## The order of entries -/

namespace Entry

/-- The overall score of an entry; a file that failed has none. -/
def score? : Entry → Option Binary64
  | .audited _ audit => some audit.report.overall
  | .failed _ _ => none

/-- The data has the overall score of the entry, or an error if the entry has none. -/
structure IsShownBy (e : Entry) (data : Value) : Prop where
  score : data.get? "overallScore" = e.score?.map Value.real
  error : (data.get? "error").isSome = e.score?.isNone

theorem isShownBy_toValue (e : Entry) : e.IsShownBy e.toValue := by
  cases e with
  | audited name audit => exact ⟨rfl, rfl⟩
  | failed name cause => exact ⟨rfl, rfl⟩

/-- Scores do not fall, and no score follows a failure. -/
def Precedes (a b : Entry) : Prop :=
  match a.score?, b.score? with
  | some x, some y => x.le y = true
  | none, some _ => False
  | _, none => True

/-- The rank of an entry, exactly. -/
def exactRank (e : Entry) : Rat :=
  e.rank.toRat?.getD 0

theorem rank_eq_getD (e : Entry) : e.rank = e.score?.getD (.finite 999) := by
  cases e <;> rfl

theorem rank_audited (name : String) (audit : Audit) :
    (Entry.audited name audit).rank = .finite (Entry.audited name audit).exactRank ∧
      (Entry.audited name audit).exactRank ≤ 10 := by
  obtain ⟨q, hq, -, hten⟩ := audit.report.scores.overall_between
  have hrank : (Entry.audited name audit).rank = .finite q := hq
  rw [exactRank, hrank]
  exact ⟨rfl, hten⟩

theorem rank_eq (e : Entry) : e.rank = .finite e.exactRank := by
  cases e with
  | audited name audit => exact (rank_audited name audit).1
  | failed name cause => rfl

/-- The sort compares the exact ranks. -/
theorem not_rank_lt_eq (a b : Entry) :
    (!b.rank.lt a.rank) = decide (a.exactRank ≤ b.exactRank) := by
  rw [rank_eq a, rank_eq b, Bool.eq_iff_iff, decide_eq_true_iff, ← Binary64.le_finite_iff]
  exact Iff.rfl

theorem precedes_of_exactRank_le {a b : Entry} (h : a.exactRank ≤ b.exactRank) :
    a.Precedes b := by
  cases b with
  | failed name cause => cases a <;> trivial
  | audited name audit =>
    cases a with
    | audited name' audit' =>
      show (Entry.audited name' audit').rank.le (Entry.audited name audit).rank = true
      rw [rank_eq, rank_eq]
      exact Binary64.le_finite_iff.2 h
    | failed name' cause =>
      -- no score reaches the rank of a failure
      have hscore := (rank_audited name audit).2
      have hfailed : (Entry.failed name' cause).exactRank = 999 := rfl
      rw [hfailed] at h
      exact absurd (h.trans hscore) (by decide)

end Entry

/-- The entries are those sent, each as often as it was: first the scored ones, by rising scores,
then the failed ones. Those of one score, and the failed ones, stand as they were sent. -/
structure InRiskOrder (sent entries : List Entry) : Prop where
  perm : entries.Perm sent
  ordered : entries.Pairwise Entry.Precedes
  stable : ∀ score, entries.filter (·.score? = score) = sent.filter (·.score? = score)

theorem inRiskOrder_mergeSort (sent : List Entry) :
    InRiskOrder sent (sent.mergeSort fun a b => !b.rank.lt a.rank) := by
  simp only [Entry.not_rank_lt_eq]
  have htrans : ∀ a b c : Entry, decide (a.exactRank ≤ b.exactRank) = true →
      decide (b.exactRank ≤ c.exactRank) = true → decide (a.exactRank ≤ c.exactRank) = true := by
    intro a b c hab hbc
    rw [decide_eq_true_iff] at hab hbc ⊢
    exact hab.trans hbc
  have htotal : ∀ a b : Entry,
      (decide (a.exactRank ≤ b.exactRank) || decide (b.exactRank ≤ a.exactRank)) = true := by
    intro a b
    rw [Bool.or_eq_true, decide_eq_true_iff, decide_eq_true_iff]
    exact le_total _ _
  refine ⟨List.mergeSort_perm _ _, ?_, fun score => ?_⟩
  · refine (List.pairwise_mergeSort htrans htotal sent).imp fun {a b} hab => ?_
    exact Entry.precedes_of_exactRank_le (decide_eq_true_iff.1 hab)
  · refine filter_mergeSort htrans htotal (fun a b ha hb => ?_) sent
    -- entries of one score rank alike
    rw [decide_eq_true_iff] at ha hb
    have hrank : a.rank = b.rank := by
      rw [Entry.rank_eq_getD, Entry.rank_eq_getD, ha, hb]
    rw [Entry.exactRank, hrank, Entry.exactRank, decide_eq_true_iff]

/-- A batch that may run is answered with its entries. -/
theorem Host.analyzeBatch_eq {host : Host} {body : Option Body} {form : Form} {mode : ScanMode}
    (hform : host.form? body = some form) (hfiles : form.files "files[]" ≠ [])
    (hlimit : host.settings.maxBatchFiles.lt (.int (form.files "files[]").length) = false)
    (hmode : host.mode (form.valueOrNull "mode") = .ok mode) :
    host.analyzeBatch body =
      ⟨200, some (.list ((host.batch mode (form.files "files[]")).map Entry.toValue))⟩ := by
  -- none of the refusals of a batch applies
  have hrun : host.runBatch (form.files "files[]") (form.valueOrNull "mode") =
      .ok (host.batch mode (form.files "files[]")) := by
    rw [Host.runBatch, if_neg (by rwa [List.isEmpty_iff]), hlimit, hmode]
    rfl
  simp only [Host.analyzeBatch, hform, hrun]

/-- **Batches.** Files up to the limit, in a mode that is known, are answered with an entry for each
of them that says of the file what it would say of it alone, in the order of risk. The answer shows
the scores that this order is about. -/
theorem Host.analyzeBatch_inRiskOrder (host : Host) {body : Option Body} {form : Form}
    {mode : ScanMode} (hform : host.form? body = some form) (hfiles : form.files "files[]" ≠ [])
    (hlimit : host.settings.maxBatchFiles.lt (.int (form.files "files[]").length) = false)
    (hmode : host.mode (form.valueOrNull "mode") = .ok mode) :
    ∃ entries, host.analyzeBatch body = ⟨200, some (.list (entries.map Entry.toValue))⟩ ∧
      InRiskOrder ((form.files "files[]").map (host.entry mode)) entries ∧
      ∀ entry ∈ entries, entry.IsShownBy entry.toValue := by
  refine ⟨host.batch mode (form.files "files[]"), ?_, inRiskOrder_mergeSort _, ?_⟩
  · exact Host.analyzeBatch_eq hform hfiles hlimit hmode
  · exact fun entry _ => entry.isShownBy_toValue

/-- A refused file and an audited one, sent in this order in the mode of the host. -/
theorem Host.analyzeBatch_inRiskOrder_two :
    let form : Form := [.file "files[]" ⟨"notes.txt", []⟩, .file "files[]" ⟨"a.sol", [120]⟩]
    ∃ entries, (Host.ofEnvironment "testing").analyzeBatch
        (some ⟨Multipart.contentType "b", Multipart.write "b" form⟩) =
          ⟨200, some (.list (entries.map Entry.toValue))⟩ ∧
      InRiskOrder ((form.files "files[]").map ((Host.ofEnvironment "testing").entry .legacy))
        entries ∧
      ∀ entry ∈ entries, entry.IsShownBy entry.toValue := by
  refine Host.analyzeBatch_inRiskOrder _ (by decide +kernel) (by decide) (by decide) rfl

end ContractAudit.Service
