import ContractAudit.Proofs.Analysis
import ContractAudit.Proofs.Except
import ContractAudit.Proofs.Json.Reader
import ContractAudit.Proofs.SizeLimit
import ContractAudit.Service.Response

/-!
# When there is an audit

A source is audited when it keeps the limits of the host and the detectors give a report; a source
that is submitted by itself must not be blank either. What is said here of each step is all that the
later steps and the endpoints need of it.

Main results:

* `Host.audit_eq_ok_iff`, `Host.auditText_eq_ok_iff`, `Host.auditUpload_eq_ok_iff`: when there is an
  audit of a source, of a text and of a file.
* `Host.analyze_eq`, `Host.status_analyze_eq_ok_iff`: what the endpoint for one source answers, and
  that the answer has status 200 exactly when there is an audit.
-/

namespace ContractAudit.Service

open Http Json

variable {host : Host} {audit : Audit} {mode : ScanMode}

/-! ## Modes -/

theorem Host.mode_eq_ok_iff {asked : Value} :
    host.mode asked = .ok mode ↔
      ScanMode.ofValue? (host.settings.chooseMode asked) = some mode := by
  unfold Host.mode
  cases h : ScanMode.ofValue? (host.settings.chooseMode asked) <;> simp [h]

/-- The name of a mode asks for it. -/
theorem Host.mode_name (host : Host) (mode : ScanMode) :
    host.mode (.text mode.name) = .ok mode := by
  have hchosen : host.settings.chooseMode (.text mode.name) = .text mode.name := by
    cases mode <;> rfl
  rw [Host.mode_eq_ok_iff, hchosen]
  cases mode <;> decide +kernel

theorem Host.mode_null_testing : (Host.ofEnvironment "testing").mode .null = .ok .legacy := by
  rw [Host.mode_eq_ok_iff]
  decide +kernel

/-! ## Audits of a source -/

theorem Host.audit_eq_ok_iff {source : List Char} :
    host.audit source mode = .ok audit ↔
      enforceSizeLimit host.settings.maxSourceBytes host.settings.maxLineChars source =
        .ok source ∧
      analyzeWith host.detectors source mode = .ok audit.report ∧
      audit.contractName = nameOf source := by
  unfold Host.audit Host.auditIn
  constructor
  · intro h
    obtain ⟨text, hlimit, h⟩ := bind_eq_ok_iff.1 h
    rw [mapError_eq_ok_iff] at hlimit
    obtain rfl := (enforceSizeLimit_eq_ok_iff.1 hlimit).2.2
    obtain ⟨mode', hmode, h⟩ := bind_eq_ok_iff.1 h
    obtain rfl := Except.ok.inj hmode
    obtain ⟨report, hreport, h⟩ := bind_eq_ok_iff.1 h
    obtain rfl := Except.ok.inj h
    exact ⟨hlimit, mapError_eq_ok_iff.1 hreport, rfl⟩
  · rintro ⟨hlimit, hreport, hname⟩
    obtain ⟨report, name⟩ := audit
    obtain rfl : name = nameOf source := hname
    refine bind_eq_ok_iff.2 ⟨source, mapError_eq_ok_iff.2 hlimit, ?_⟩
    refine bind_eq_ok_iff.2 ⟨mode, rfl, ?_⟩
    exact bind_eq_ok_iff.2 ⟨report, mapError_eq_ok_iff.2 hreport, rfl⟩

/-- With the built-in detectors every source within the limits is audited. -/
theorem Host.exists_audit (host : Host) (hbuiltin : host.detectors = Detector.builtin)
    {source : List Char} (mode : ScanMode)
    (hlimit : enforceSizeLimit host.settings.maxSourceBytes host.settings.maxLineChars source =
      .ok source) :
    ∃ report, ContractAudit.analyze source mode = .ok report ∧
      host.audit source mode = .ok ⟨report, nameOf source⟩ := by
  obtain ⟨report, hreport, -⟩ := exists_analyze source mode
  have hwith : analyzeWith host.detectors source mode = .ok report := by
    rw [hbuiltin]
    exact hreport
  exact ⟨report, hreport, Host.audit_eq_ok_iff.2 ⟨hlimit, hwith, rfl⟩⟩

theorem Host.auditText_eq_ok_iff {source : List Char} :
    host.auditText source mode = .ok audit ↔
      Text.isAllBlank source = false ∧ host.audit source mode = .ok audit := by
  unfold Host.auditText
  split
  · rename_i hblank
    simp [hblank]
  · rename_i hblank
    simp [hblank]

/-! ## Audits of a file -/

/-- Which files are read: those whose secured name has an accepted ending and whose octets are those
of a text. -/
theorem Host.readUpload_eq_ok_iff {upload : Upload} {name : String} {source : List Char} :
    host.readUpload upload = .ok (name, source) ↔
      FileName.isAllowed host.settings.allowedExtensions (FileName.ofSent upload.name) = true ∧
      Text.Utf8.decode? upload.content = some source ∧
      name = String.ofList (FileName.ofSent upload.name) := by
  unfold Host.readUpload
  dsimp only
  split
  · rename_i hname
    have hname' : FileName.isAllowed host.settings.allowedExtensions
        (FileName.ofSent upload.name) = false := by simpa using hname
    simp [hname']
  · rename_i hname
    have hname' : FileName.isAllowed host.settings.allowedExtensions
        (FileName.ofSent upload.name) = true := by simpa using hname
    cases Text.Utf8.decode? upload.content with
    | none => simp
    | some text => simp [hname', eq_comm, and_comm]

theorem Host.auditFile_eq_ok_iff {upload : Upload} {name : String} :
    host.auditFile mode upload = .ok (name, audit) ↔
      ∃ source, host.readUpload upload = .ok (name, source) ∧
        host.audit source mode = .ok audit := by
  unfold Host.auditFile
  constructor
  · intro h
    obtain ⟨⟨name', source⟩, hread, h⟩ := bind_eq_ok_iff.1 h
    obtain ⟨audit', haudit, h⟩ := bind_eq_ok_iff.1 h
    obtain ⟨rfl, rfl⟩ := Prod.mk.inj (Except.ok.inj h)
    exact ⟨source, hread, haudit⟩
  · rintro ⟨source, hread, haudit⟩
    exact bind_eq_ok_iff.2 ⟨_, hread, bind_eq_ok_iff.2 ⟨audit, haudit, rfl⟩⟩

/-- A file by itself is audited when a batch would audit it and it is not blank. -/
theorem Host.auditUpload_eq_ok_iff {upload : Upload} {asked : Value}
    (hmode : host.mode asked = .ok mode) :
    host.auditUpload upload asked = .ok audit ↔
      ∃ name source, host.readUpload upload = .ok (name, source) ∧
        Text.isAllBlank source = false ∧ host.audit source mode = .ok audit := by
  unfold Host.auditUpload
  rw [hmode]
  constructor
  · intro h
    obtain ⟨⟨name, source⟩, hread, h⟩ := bind_eq_ok_iff.1 h
    exact ⟨name, source, hread, Host.auditText_eq_ok_iff.1 h⟩
  · rintro ⟨name, source, hread, haudit⟩
    exact bind_eq_ok_iff.2 ⟨_, hread, Host.auditText_eq_ok_iff.2 haudit⟩

/-! ## The endpoint for one source -/

theorem Failure.status_ne_ok (cause : Failure) : cause.status ≠ 200 := by
  unfold Failure.status
  split
  · decide
  · split <;> decide

/-- The answer with what the audit of a source came to. -/
def Response.ofAudit : Except Failure Audit → Response
  | .ok audit => ⟨200, some audit.toValue⟩
  | .error cause => ⟨cause.status, some cause.toValue⟩

theorem Host.analyze_eq {body : Option Body} {form : Form} (hform : host.form? body = some form) :
    host.analyze body = .ofAudit (host.auditRequest form body) := by
  simp only [Host.analyze, hform]
  cases host.auditRequest form body with
  | ok audit => rfl
  | error cause => rfl

theorem Host.status_analyze_eq_ok_iff {body : Option Body} {form : Form}
    (hform : host.form? body = some form) :
    (host.analyze body).status = 200 ↔ ∃ audit, host.auditRequest form body = .ok audit := by
  rw [Host.analyze_eq hform]
  cases host.auditRequest form body with
  | ok audit => simp [Response.ofAudit]
  | error cause => simpa [Response.ofAudit] using cause.status_ne_ok

/-- A request with a file in its form is about that file, whatever else it holds. -/
theorem Host.auditRequest_eq_auditUpload {body : Option Body} {form : Form} {upload : Upload}
    (hfile : (form.files "file").head? = some upload) :
    host.auditRequest form body = host.auditUpload upload (form.valueOrNull "mode") := by
  unfold Host.auditRequest
  cases hfiles : form.files "file" with
  | nil =>
    rw [hfiles] at hfile
    cases hfile
  | cons first others =>
    rw [hfiles] at hfile
    obtain rfl := Option.some.inj hfile
    rfl

/-! ## JSON bodies -/

theorem Host.maxNesting_testing : (Host.ofEnvironment "testing").settings.maxNesting = 980 := by rfl

/-- A body of the JSON type with a text in it. -/
def jsonBody (text : List Char) : Body := ⟨"application/json", Text.Utf8.encode text⟩

theorem json_jsonBody {maxNesting : Nat} {text : List Char}
    (h : detectEncoding (Text.Utf8.encode text) = (.utf8, Text.Utf8.encode text)) :
    (jsonBody text).json maxNesting = match readPoints maxNesting (text.map Char.toNat) with
      | .ok value => .ok (some value)
      | .error .malformed => .ok none
      | .error (.tooDeep container) => .error container := by
  have htype : isJsonType "application/json" = true := by decide
  cases hread : readPoints maxNesting (text.map Char.toNat) with
  | ok value => simp only [Body.json, jsonBody, htype, if_true, readOctets_encode h, hread]
  | error fault =>
    cases fault <;> simp only [Body.json, jsonBody, htype, if_true, readOctets_encode h, hread]

/-- A body of a JSON type is no form. -/
theorem Host.form?_of_isJsonType {body : Body} (hjson : isJsonType body.contentType = true) :
    host.form? (some body) =
      if Multipart.exceeds host.settings.maxContentLength body.octets.length then none
      else some [] := by
  have hboundary : formBoundary? body.contentType = none := by
    unfold formBoundary?
    split
    · rename_i hmedia
      simp only [isJsonType, eq_of_beq hmedia] at hjson
      exact absurd hjson (by decide)
    · rfl
  simp only [Host.form?, Form.ofBody?, hboundary]

/-- The mode is judged before the text. -/
theorem Host.auditJson_eq (host : Host) {value : Option Value} {source : Str}
    (hsource : value.bind (·.get? "source") = some (.string source)) :
    host.auditJson value = host.mode ((value.bind (·.get? "mode")).getD .null) >>= fun mode =>
      match source with
      | .text s => host.auditText s.toList mode
      | .unpaired points => .error (.unpairedSurrogate points) := by
  cases source <;> simp only [Host.auditJson, hsource]

/-- What is answered to a JSON body that is not too long. -/
theorem Host.analyze_eq_of_isJsonType {body : Body} (hjson : isJsonType body.contentType = true)
    (hlength : Multipart.exceeds host.settings.maxContentLength body.octets.length = false) :
    host.analyze (some body) = .ofAudit (match body.json host.settings.maxNesting with
      | .ok value => host.auditJson value
      | .error container => .error (.tooDeep container)) := by
  have hform : host.form? (some body) = some [] := by
    rw [Host.form?_of_isJsonType hjson, hlength]
    rfl
  rw [Host.analyze_eq hform]
  simp only [Host.auditRequest, Form.files, List.filterMap_nil, Option.map_some]
  cases body.json host.settings.maxNesting with
  | ok value => rfl
  | error container => rfl

end ContractAudit.Service
