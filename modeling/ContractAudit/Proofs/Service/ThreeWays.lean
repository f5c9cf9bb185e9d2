import ContractAudit.CommandLine
import ContractAudit.Http.Multipart.Writer
import ContractAudit.Proofs.Report.LineEndings
import ContractAudit.Proofs.Service.Expressible
import ContractAudit.Proofs.Service.UploadNames
import Mathlib

/-!
# One source, sent in three ways

A source can be sent to the service in a JSON body or as a file, and the scan command reads it from
the disk. The service keeps a source as it was sent, with all its carriage returns; the command ends
every line in a newline before it looks at a limit. So its text may be another one, and both limits
and the analysis have to be followed from one text to the other:

* **Texts.** Where every carriage return stands before a newline, the command sees the source
  without them (`addsReturns_unifyNewlines`).
* **Limits.** Carriage returns only add octets and characters to lines, so the text of the command
  keeps every limit that the source keeps (`AddsReturns.enforceSizeLimit`).
* **Reports.** They change nothing in the report (`AddsReturns.analyze`).

The converse of the second point fails: the command may audit a source that the service refuses for
its size.

The service answers with the data of an audit and the command prints a text. The text is JSON that
denotes the data, since this data can be expressed (`Audit.isExpressible`) and the printer writes
such data as what denotes it (`Value.isTextOf_write_newline`). It denotes nothing else, as no text
denotes two values (`IsTextOf.unique`).

Main result: `Host.analyze_threeWays`.
-/

namespace ContractAudit

/-! ## The text of a file -/

/-- Every carriage return stands before a newline. -/
def ReturnsBeforeNewlines (s : List Char) : Prop :=
  ∀ before after, s = before ++ '\r' :: after → after.head? = some '\n'

theorem ReturnsBeforeNewlines.tail {c : Char} {s : List Char} (h : ReturnsBeforeNewlines (c :: s)) :
    ReturnsBeforeNewlines s := fun before after hs =>
  h (c :: before) after (by rw [hs, List.cons_append])

/-- What is left out in reading a file are carriage returns before newlines. -/
theorem addsReturns_unifyNewlines {s : List Char} (h : ReturnsBeforeNewlines s) :
    AddsReturns (CommandLine.unifyNewlines s) s := by
  -- a carriage return is read together with its newline, so the induction is on the length
  induction hn : s.length using Nat.strong_induction_on generalizing s with
  | _ n ih =>
    subst hn
    cases s with
    | nil => exact .nil
    | cons c rest =>
      by_cases hc : c = '\r'
      · subst hc
        obtain ⟨rest, rfl⟩ : ∃ tail, rest = '\n' :: tail := by
          have hhead := h [] rest rfl
          cases rest with
          | nil => cases hhead
          | cons d tail => exact ⟨tail, by rw [Option.some.inj hhead]⟩
        rw [CommandLine.unifyNewlines_pair]
        exact .newline (ih rest.length (by simp only [List.length_cons]; omega) h.tail.tail rfl)
      · rw [CommandLine.unifyNewlines_cons hc]
        exact .cons c (ih rest.length (by simp) h.tail rfl)

/-! ## Limits -/

namespace AddsReturns

variable {s t : List Char}

theorem size_le (h : AddsReturns s t) : Text.Utf8.size s ≤ Text.Utf8.size t := by
  induction h with
  | nil => exact Nat.le_refl _
  | cons c _ ih =>
    rw [Text.Utf8.size_cons, Text.Utf8.size_cons]
    omega
  | newline _ ih =>
    simp only [Text.Utf8.size_cons]
    omega

theorem longestLine_le (h : AddsReturns s t) : longestLine s ≤ longestLine t := by
  rw [longestLine_le_iff]
  intro line hline
  obtain ⟨line', hline', halike⟩ := exists_of_mem_forall₂ h.forall₂_parts hline
  obtain ⟨w, -, rfl⟩ := halike.exists_append
  have hle : (line ++ w).length ≤ longestLine t := longestLine_le_iff.1 (Nat.le_refl _) _ hline'
  rw [List.length_append] at hle
  omega

/-- A source without the carriage returns keeps the limits that it keeps with them. -/
theorem enforceSizeLimit (h : AddsReturns s t) {maxBytes maxLineChars : Number}
    (ht : ContractAudit.enforceSizeLimit maxBytes maxLineChars t = .ok t) :
    ContractAudit.enforceSizeLimit maxBytes maxLineChars s = .ok s := by
  obtain ⟨hbytes, hline, -⟩ := enforceSizeLimit_eq_ok_iff.1 ht
  exact enforceSizeLimit_eq_ok_iff.2 ⟨Number.not_lt_of_le h.size_le hbytes,
    Number.not_lt_of_le h.longestLine_le hline, rfl⟩

/-- The audit of a source is that of the source without the carriage returns. -/
theorem audit (h : AddsReturns s t) {host : Service.Host}
    (hbuiltin : host.detectors = Detector.builtin) {mode : ScanMode} {audit : Service.Audit}
    (ht : host.audit t mode = .ok audit) : host.audit s mode = .ok audit := by
  obtain ⟨hlimit, hreport, hname⟩ := Service.Host.audit_eq_ok_iff.1 ht
  obtain ⟨report, hs, ht⟩ := h.analyze mode
  rw [hbuiltin] at hreport
  obtain rfl : report = audit.report := Except.ok.inj (ht.symm.trans hreport)
  have hwith : analyzeWith host.detectors s mode = .ok audit.report := by
    rw [hbuiltin]
    exact hs
  have hnames : Service.nameOf t = Service.nameOf s := by
    rw [Service.nameOf, Service.nameOf, h.alikeSources.contractName?]
  exact Service.Host.audit_eq_ok_iff.2 ⟨h.enforceSizeLimit hlimit, hwith, hname.trans hnames⟩

end AddsReturns

namespace Service

open Http Json CommandLine

variable {source : String} {asked : Option ScanMode}

/-! ## Three ways to send a source -/

/-- The host reads the body as an object with the source and, if one is asked for, a mode. -/
def Host.ReadsSource (host : Host) (body : Body) (source : String) (asked : Option ScanMode) :
    Prop :=
  ∃ value, body.json host.settings.maxNesting = .ok (some value) ∧
    value.get? "source" = some (.text source) ∧
    value.get? "mode" = asked.map fun mode => .text mode.name

/-- The form has a file with the octets of the source and, if one is asked for, a mode. -/
structure Form.Submits (form : Form) (upload : Upload) (source : String)
    (asked : Option ScanMode) : Prop where
  file : (form.files "file").head? = some upload
  content : upload.content = Text.Utf8.encode source.toList
  mode : form.value? "mode" = asked.map ScanMode.name

/-- What a request says of the mode, as data; one that leaves it open says null. -/
def askedValue (asked : Option ScanMode) : Value :=
  (asked.map fun mode => Value.text mode.name).getD .null

theorem Form.Submits.valueOrNull {form : Form} {upload : Upload}
    (h : form.Submits upload source asked) : form.valueOrNull "mode" = askedValue asked := by
  rw [Form.valueOrNull, h.mode]
  cases asked <;> rfl

theorem Host.ReadsSource.analyze_eq {host : Host} {body : Body}
    (h : host.ReadsSource body source asked)
    (hlength : Multipart.exceeds host.settings.maxContentLength body.octets.length = false) :
    host.analyze (some body) = .ofAudit (host.mode (askedValue asked) >>= fun mode =>
      host.auditText source.toList mode) := by
  obtain ⟨value, hvalue, hsource, hmode⟩ := h
  have hjson : isJsonType body.contentType = true := by
    by_contra hother
    rw [Body.json, if_neg hother] at hvalue
    cases hvalue
  have hsource' : (some value).bind (·.get? "source") = some (.string (.text source)) := hsource
  have hasked : ((some value).bind (·.get? "mode")).getD .null = askedValue asked := by
    rw [Option.bind_some, hmode, askedValue]
  rw [Host.analyze_eq_of_isJsonType hjson hlength, hvalue]
  simp only [host.auditJson_eq hsource', hasked]

/-- Where a JSON body is answered with an audit, its mode is known and the audit is of its text. -/
theorem Host.ReadsSource.exists_audit {host : Host} {body : Body}
    (h : host.ReadsSource body source asked)
    (hok : (host.analyze (some body)).status = 200) :
    ∃ mode audit, host.mode (askedValue asked) = .ok mode ∧
      host.auditText source.toList mode = .ok audit ∧
      host.analyze (some body) = ⟨200, some audit.toValue⟩ := by
  have hlength : Multipart.exceeds host.settings.maxContentLength body.octets.length = false := by
    by_contra hlong
    rw [Bool.not_eq_false] at hlong
    simp [Host.analyze, Host.form?, hlong, Response.tooLarge, Response.error] at hok
  have hanswer := h.analyze_eq hlength
  cases hresult : host.mode (askedValue asked) >>= fun mode =>
      host.auditText source.toList mode with
  | error cause =>
    rw [hanswer, hresult] at hok
    exact absurd hok cause.status_ne_ok
  | ok audit =>
    obtain ⟨mode, hmode, htext⟩ := bind_eq_ok_iff.1 hresult
    exact ⟨mode, audit, hmode, htext, by rw [hanswer, hresult]; rfl⟩

theorem Host.analyze_of_form {host : Host} {body : Body} {form : Form} {upload : Upload}
    {mode : ScanMode} {audit : Audit} (hform : host.form? (some body) = some form)
    (h : form.Submits upload source asked)
    (hname : FileName.isAllowed host.settings.allowedExtensions (FileName.ofSent upload.name) =
      true)
    (hmode : host.mode (askedValue asked) = .ok mode)
    (haudit : host.auditText source.toList mode = .ok audit) :
    host.analyze (some body) = ⟨200, some audit.toValue⟩ := by
  have hdecode : Text.Utf8.decode? upload.content = some source.toList := by
    rw [h.content, Text.Utf8.decode?_encode]
  have hread := Host.readUpload_eq_ok_iff.2 ⟨hname, hdecode, rfl⟩
  rw [← h.valueOrNull] at hmode
  have hupload := (Host.auditUpload_eq_ok_iff hmode).2
    ⟨_, _, hread, Host.auditText_eq_ok_iff.1 haudit⟩
  rw [Host.analyze_eq hform, Host.auditRequest_eq_auditUpload h.file, hupload]
  rfl

theorem audit_commandLine {host : Host} {mode : ScanMode}
    (hmode : host.mode (askedValue asked) = .ok mode) (text : List Char) :
    CommandLine.audit host asked text = host.audit text mode := by
  unfold CommandLine.audit Host.audit
  cases asked with
  | none => exact congrArg (host.auditIn · text) hmode
  | some asked => exact congrArg (host.auditIn · text) ((host.mode_name asked).symm.trans hmode)

theorem scan_eq_printed {host : Host} {file? : String → Option (List UInt8)} {args : List String}
    {path : String} {audit : Audit} (hargs : Order.ofArguments args = .ok ⟨path, asked, none⟩)
    (hfile : file? path = some (Text.Utf8.encode source.toList))
    (haudit : CommandLine.audit host asked (unifyNewlines source.toList) = .ok audit) :
    scan host file? args = .printed (audit.toValue.write .indented ++ "\n") false := by
  have htext : readText (Text.Utf8.encode source.toList) = unifyNewlines source.toList := by
    rw [readText, Text.Utf8.decodeLenient_encode]
  simp only [scan, hargs, hfile, run, htext, haudit, Option.any_none]

/--
**Three ways.** A JSON body, a form and a file on the disk agree, given:

* carriage returns that all stand before newlines (`hreturns`), since the command turns each of them
  into a line end;
* the same source and the same mode in all three, or no mode in any (`hobject`, `hsubmits`, `hargs`,
  `hfile`), and no score below which the command fails;
* a form that can be read, whose file is sent under a name with an accepted extension (`hform`,
  `hname`);
* an audit for the JSON body (`hok`).

Then the form has the same answer, and the command succeeds. What it prints is the answer written
with indents and a newline, and as JSON it denotes the answer and nothing else.
-/
theorem Host.analyze_threeWays (host : Host) (hbuiltin : host.detectors = Detector.builtin)
    (file? : String → Option (List UInt8)) {source : String} {asked : Option ScanMode}
    {object formBody : Body} {form : Form} {upload : Upload} {args : List String} {path : String}
    (hreturns : ReturnsBeforeNewlines source.toList)
    (hobject : host.ReadsSource object source asked)
    (hform : host.form? (some formBody) = some form) (hsubmits : form.Submits upload source asked)
    (hname : FileName.HasExtension host.settings.allowedExtensions upload.name)
    (hargs : Order.ofArguments args = .ok ⟨path, asked, none⟩)
    (hfile : file? path = some (Text.Utf8.encode source.toList))
    (hok : (host.analyze (some object)).status = 200) :
    ∃ answer, host.analyze (some object) = ⟨200, some answer⟩ ∧
      host.analyze (some formBody) = ⟨200, some answer⟩ ∧
      (scan host file? args).exitStatus = 0 ∧
      (scan host file? args).output = answer.write .indented ++ "\n" ∧
      ∀ v, Grammar.IsTextOf (scan host file? args).output.toList v ↔ v = answer := by
  obtain ⟨mode, audit, hmode, haudit, hanswer⟩ := hobject.exists_audit hok
  have hupload := Host.analyze_of_form hform hsubmits hname.isAllowed_ofSent hmode haudit
  -- the command sees the source without its carriage returns
  have hunified := (addsReturns_unifyNewlines hreturns).audit hbuiltin
    (Host.auditText_eq_ok_iff.1 haudit).2
  rw [← audit_commandLine hmode] at hunified
  have hscan := scan_eq_printed hargs hfile hunified
  -- the data of the answer is such that its text denotes it
  have hreport := (Host.audit_eq_ok_iff.1 (Host.auditText_eq_ok_iff.1 haudit).2).2.1
  rw [hbuiltin] at hreport
  have htext := Value.isTextOf_write_newline (Audit.isExpressible hreport) .indented
  refine ⟨audit.toValue, hanswer, hupload, ?_⟩
  rw [hscan]
  exact ⟨rfl, rfl, fun _ => htext.iff_eq⟩

/-- A line that ends in a carriage return and a newline, in the mode of the host. -/
theorem Host.analyze_threeWays_line :
    let host := Host.ofEnvironment "testing"
    let octets := Text.Utf8.encode "a\r\n".toList
    let object := jsonBody "\x7b\"source\":\"a\\r\\n\"\x7d".toList
    let form : Form := [.file "file" ⟨"a.sol", octets⟩]
    let formBody : Body := ⟨Multipart.contentType "b", Multipart.write "b" form⟩
    ∃ answer, host.analyze (some object) = ⟨200, some answer⟩ ∧
      host.analyze (some formBody) = ⟨200, some answer⟩ ∧
      (scan host (fun _ => some octets) ["a.sol"]).exitStatus = 0 ∧
      (scan host (fun _ => some octets) ["a.sol"]).output = answer.write .indented ++ "\n" ∧
      ∀ v, Grammar.IsTextOf (scan host (fun _ => some octets) ["a.sol"]).output.toList v ↔
        v = answer := by
  intro host octets object form formBody
  have hreturns : ReturnsBeforeNewlines "a\r\n".toList := by
    intro before after h
    rcases before with _ | ⟨_, _ | ⟨_, before⟩⟩
    · cases h
    · obtain rfl := (List.cons.inj (List.cons.inj h).2).2
      rfl
    · -- there is no further carriage return
      have hmem : '\r' ∈ before ++ '\r' :: after := List.mem_append_right _ List.mem_cons_self
      have hrest : before ++ '\r' :: after = ['\n'] := (List.cons.inj (List.cons.inj h).2).2.symm
      rw [hrest] at hmem
      exact absurd hmem (by decide)
  have hread : readPoints 980 ("\x7b\"source\":\"a\\r\\n\"\x7d".toList.map Char.toNat) =
      .ok (.record [("source", .text "a\r\n")]) := by cbv
  have hvalue : object.json host.settings.maxNesting =
      .ok (some (.record [("source", .text "a\r\n")])) := by
    rw [Host.maxNesting_testing, json_jsonBody rfl, hread]
  have hobject : host.ReadsSource object "a\r\n" none := ⟨_, hvalue, rfl, rfl⟩
  have hform : host.form? (some formBody) = some form := by decide +kernel
  -- the body is answered with an audit
  have hok : (host.analyze (some object)).status = 200 := by
    have hlimit : enforceSizeLimit host.settings.maxSourceBytes host.settings.maxLineChars
        "a\r\n".toList = .ok "a\r\n".toList := by decide
    obtain ⟨report, -, haudit⟩ := host.exists_audit rfl .legacy hlimit
    have htext := Host.auditText_eq_ok_iff.2 ⟨by decide, haudit⟩
    have hresult := bind_eq_ok_iff.2 ⟨_, Host.mode_null_testing, htext⟩
    exact (congrArg Response.status (hobject.analyze_eq (by decide))).trans
      (congrArg (fun result => (Response.ofAudit result).status) hresult)
  have hname : FileName.HasExtension host.settings.allowedExtensions "a.sol" :=
    ⟨['a'], ".sol".toList, rfl, by decide,
      ⟨"sol".toList, by decide, by decide, List.all_eq_true.1 (by decide)⟩, by decide⟩
  exact host.analyze_threeWays rfl (fun _ => some octets) hreturns hobject hform ⟨rfl, rfl, rfl⟩
    hname rfl rfl hok

end Service

end ContractAudit
