import ContractAudit.Proofs.Service.Audits
import ContractAudit.Proofs.Service.Batch

/-!
# A file by itself and in a batch

Both endpoints read a file, keep the limits and run the detectors in the same way, so they audit the
same files with the same result. The one difference is a check that only the endpoint for one source
makes: it refuses a file of nothing but white space, which a batch audits like any other.

* **One file.** `Host.auditUpload_eq_ok_iff_entry`: the audit of a file by itself is the one of its
  entry, unless the file is blank.
* **Answers.** An entry leaves out the findings and the suggestions; what it does hold stands under
  the same names in the answer for one source (`Audit.get?_toValue`).

Main result: `Host.analyze_agreesWithEntry`.
-/

namespace ContractAudit.Service

open Http Json

variable {host : Host} {mode : ScanMode} {upload : Upload}

/-! ## One file -/

/-- The entry of a file that was audited. -/
def Entry.IsAudited (e : Entry) : Prop := ∃ name audit, e = .audited name audit

/-- The file holds a text of nothing but white space. -/
def IsBlankFile (upload : Upload) : Prop :=
  ∃ source, Text.Utf8.decode? upload.content = some source ∧ Text.isAllBlank source = true

theorem Host.entry_eq_audited_iff {name : String} {audit : Audit} :
    host.entry mode upload = .audited name audit ↔
      host.auditFile mode upload = .ok (name, audit) := by
  unfold Host.entry
  cases host.auditFile mode upload with
  | ok named => simp [Prod.ext_iff]
  | error cause => simp

/-- A file that can be read is blank when its text is. -/
theorem isBlankFile_iff {name : String} {source : List Char}
    (hread : host.readUpload upload = .ok (name, source)) :
    IsBlankFile upload ↔ Text.isAllBlank source = true := by
  have hdecode := (Host.readUpload_eq_ok_iff.1 hread).2.1
  simp [IsBlankFile, hdecode]

theorem Host.auditUpload_eq_ok_iff_entry {asked : Value} {audit : Audit}
    (hmode : host.mode asked = .ok mode) :
    host.auditUpload upload asked = .ok audit ↔
      ¬IsBlankFile upload ∧ ∃ name, host.entry mode upload = .audited name audit := by
  simp only [Host.auditUpload_eq_ok_iff hmode, Host.entry_eq_audited_iff, Host.auditFile_eq_ok_iff]
  constructor
  · rintro ⟨name, source, hread, hblank, haudit⟩
    have hfile : ¬IsBlankFile upload := by simp [isBlankFile_iff hread, hblank]
    exact ⟨hfile, name, source, hread, haudit⟩
  · rintro ⟨hfile, name, source, hread, haudit⟩
    have hblank : Text.isAllBlank source = false := by simpa [isBlankFile_iff hread] using hfile
    exact ⟨name, source, hread, hblank, haudit⟩

/-- What a batch would audit is refused for being blank, and for nothing else. -/
theorem Host.auditUpload_of_isBlankFile {asked : Value} (hmode : host.mode asked = .ok mode)
    (hentry : (host.entry mode upload).IsAudited) (hblank : IsBlankFile upload) :
    host.auditUpload upload asked = .error .emptySource := by
  obtain ⟨name, audit, hentry⟩ := hentry
  obtain ⟨source, hread, -⟩ := Host.auditFile_eq_ok_iff.1 (Host.entry_eq_audited_iff.1 hentry)
  have hsource := (isBlankFile_iff hread).1 hblank
  simp only [Host.auditUpload, hread, hmode, bind, Except.bind, Host.auditText, hsource, if_true]

/-! ## Answers -/

/-- The members of an audit that an entry holds too. -/
def sharedKeys : List String := ["contractName", "overallScore", "scores", "severityCounts"]

theorem Audit.get?_toValue (audit : Audit) (name : String) {key : String}
    (hkey : key ∈ sharedKeys) :
    ∃ value, (Entry.audited name audit).toValue.get? key = some value ∧
      audit.toValue.get? key = some value := by
  simp only [sharedKeys, List.mem_cons, List.not_mem_nil, or_false] at hkey
  rcases hkey with rfl | rfl | rfl | rfl
  · exact ⟨audit.nameValue, rfl, rfl⟩
  · exact ⟨.real audit.report.overall, rfl, rfl⟩
  · exact ⟨audit.report.scores.toValue, rfl, rfl⟩
  · exact ⟨audit.report.severityCounts, rfl, rfl⟩

/-- How the answer for a file by itself and its entry in a batch agree, and where they do not. -/
structure AgreesWithEntry (upload : Upload) (answer : Response) (entry : Entry) : Prop where
  ok_iff : answer.status = 200 ↔ entry.IsAudited ∧ ¬IsBlankFile upload
  shared : answer.status = 200 → ∀ key ∈ sharedKeys, ∃ value,
    entry.toValue.get? key = some value ∧ answer.body.bind (·.get? key) = some value
  blank : entry.IsAudited → IsBlankFile upload → answer = .error 400 "Source is empty"

theorem Host.agreesWithEntry {body : Option Body} {form : Form}
    (hform : host.form? body = some form) (hfile : (form.files "file").head? = some upload)
    (hmode : host.mode (form.valueOrNull "mode") = .ok mode) :
    AgreesWithEntry upload (host.analyze body) (host.entry mode upload) := by
  have hanswer := Host.analyze_eq hform
  rw [Host.auditRequest_eq_auditUpload hfile] at hanswer
  have hstatus : (host.analyze body).status = 200 ↔
      ∃ audit, host.auditUpload upload (form.valueOrNull "mode") = .ok audit := by
    rw [Host.status_analyze_eq_ok_iff hform, Host.auditRequest_eq_auditUpload hfile]
  constructor
  case ok_iff =>
    simp only [hstatus, Host.auditUpload_eq_ok_iff_entry hmode]
    constructor
    · rintro ⟨audit, hblank, name, hentry⟩
      exact ⟨⟨name, audit, hentry⟩, hblank⟩
    · rintro ⟨⟨name, audit, hentry⟩, hblank⟩
      exact ⟨audit, hblank, name, hentry⟩
  case shared =>
    intro hok key hkey
    obtain ⟨audit, haudit⟩ := hstatus.1 hok
    obtain ⟨-, name, hentry⟩ := (Host.auditUpload_eq_ok_iff_entry hmode).1 haudit
    rw [haudit] at hanswer
    rw [hentry, hanswer]
    exact audit.get?_toValue name hkey
  case blank =>
    intro hentry hblank
    rw [Host.auditUpload_of_isBlankFile hmode hentry hblank] at hanswer
    exact hanswer

/--
**One file, two endpoints.** Any host, with any detectors, given:

* a request for one source whose first file is the upload (`hsingle`, `hfile`);
* a batch within its limit that holds the upload somewhere (`hbatch`, `hsent`, `hlimit`);
* one mode that is known in both (`hmode`, `hbatchMode`).

Then the batch has an entry for the upload, and the answer for it by itself agrees with this entry
unless the upload is blank.
-/
theorem Host.analyze_agreesWithEntry (host : Host) {single batch : Option Body}
    {form batchForm : Form} {upload : Upload} {mode : ScanMode}
    (hsingle : host.form? single = some form) (hfile : (form.files "file").head? = some upload)
    (hmode : host.mode (form.valueOrNull "mode") = .ok mode)
    (hbatch : host.form? batch = some batchForm) (hsent : upload ∈ batchForm.files "files[]")
    (hlimit : host.settings.maxBatchFiles.lt (.int (batchForm.files "files[]").length) = false)
    (hbatchMode : host.mode (batchForm.valueOrNull "mode") = .ok mode) :
    ∃ entries : List Entry,
      host.analyzeBatch batch = ⟨200, some (.list (entries.map Entry.toValue))⟩ ∧
      host.entry mode upload ∈ entries ∧
      AgreesWithEntry upload (host.analyze single) (host.entry mode upload) := by
  refine ⟨host.batch mode (batchForm.files "files[]"), ?_, ?_,
    Host.agreesWithEntry hsingle hfile hmode⟩
  · exact Host.analyzeBatch_eq hbatch (List.ne_nil_of_mem hsent) hlimit hbatchMode
  · exact List.mem_mergeSort.2 (List.mem_map_of_mem hsent)

/-- A file of one letter, sent both ways in the mode of the host. -/
theorem Host.analyze_agreesWithEntry_letter :
    let host := Host.ofEnvironment "testing"
    let upload : Upload := ⟨"a.sol", [120]⟩
    let body (field : String) : Option Body :=
      some ⟨Multipart.contentType "b", Multipart.write "b" [.file field upload]⟩
    ∃ entries : List Entry,
      host.analyzeBatch (body "files[]") = ⟨200, some (.list (entries.map Entry.toValue))⟩ ∧
      host.entry .legacy upload ∈ entries ∧
      AgreesWithEntry upload (host.analyze (body "file")) (host.entry .legacy upload) := by
  intro host upload body
  have hsingle : host.form? (body "file") = some [.file "file" upload] := by decide +kernel
  have hbatch : host.form? (body "files[]") = some [.file "files[]" upload] := by decide +kernel
  have hmode : host.mode .null = .ok .legacy := Host.mode_null_testing
  exact Host.analyze_agreesWithEntry host hsingle rfl hmode hbatch List.mem_cons_self (by decide)
    hmode

/-- A file of one space is refused by itself, and in a batch it has an entry with scores. -/
theorem Host.blank_audited_only_in_batch :
    let host := Host.ofEnvironment "testing"
    let upload : Upload := ⟨"a.sol", [32]⟩
    let body (field : String) : Option Body :=
      some ⟨Multipart.contentType "b", Multipart.write "b" [.file field upload]⟩
    host.analyze (body "file") = .error 400 "Source is empty" ∧
    ∃ audit, host.analyzeBatch (body "files[]") =
      ⟨200, some (.list [(Entry.audited "a.sol" audit).toValue])⟩ := by
  intro host upload body
  have hsingle : host.form? (body "file") = some [.file "file" upload] := by decide +kernel
  have hbatch : host.form? (body "files[]") = some [.file "files[]" upload] := by decide +kernel
  -- the file is audited with the report of its text
  have hread : host.readUpload upload = .ok ("a.sol", [' ']) :=
    Host.readUpload_eq_ok_iff.2
      ⟨by decide +kernel, Text.Utf8.decode?_encode [' '], by decide +kernel⟩
  have hlimit : enforceSizeLimit host.settings.maxSourceBytes host.settings.maxLineChars [' '] =
      .ok [' '] := by decide
  obtain ⟨report, -, haudit⟩ := host.exists_audit rfl .legacy hlimit
  have hentry : host.entry .legacy upload = .audited "a.sol" ⟨report, nameOf [' ']⟩ :=
    Host.entry_eq_audited_iff.2 (Host.auditFile_eq_ok_iff.2 ⟨_, hread, haudit⟩)
  have hblank : IsBlankFile upload := (isBlankFile_iff hread).2 rfl
  have hmode : host.mode .null = .ok .legacy := Host.mode_null_testing
  constructor
  · exact (Host.agreesWithEntry hsingle rfl hmode).blank ⟨_, _, hentry⟩ hblank
  · refine ⟨⟨report, nameOf [' ']⟩, ?_⟩
    rw [Host.analyzeBatch_eq hbatch (List.cons_ne_nil _ _) (by decide) hmode]
    show Response.mk 200 (some (.list (List.map Entry.toValue (host.batch .legacy [upload])))) = _
    rw [Host.batch, List.map_singleton, List.mergeSort_singleton, List.map_singleton, hentry]

end ContractAudit.Service
