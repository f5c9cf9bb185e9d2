import ContractAudit.ContractName
import ContractAudit.FileName
import ContractAudit.Service.Failure
import ContractAudit.Service.Request
import ContractAudit.Settings

/-!
# Submissions

A submission is a source with the mode to scan it in. It comes as a JSON body or as an uploaded
file; both are checked against the settings of the host before the source is analyzed.
-/

namespace ContractAudit.Service

open Http Json

/-- A host: its settings and the detectors it runs. -/
structure Host where
  settings : Settings
  detectors : List Detector

/-- The host of an environment, with the built-in detectors. -/
def Host.ofEnvironment (name : String) : Host :=
  ⟨Settings.ofEnvironment name, Detector.builtin⟩

/-- A report and the name of its source. -/
structure Audit where
  report : Report
  contractName : Option String

/-- The name as data. -/
def Audit.nameValue (audit : Audit) : Value :=
  match audit.contractName with
  | some name => .text name
  | none => .null

/-- The audit as data. -/
def Audit.toValue (audit : Audit) : Value :=
  .record (audit.report.members ++ [("contractName", audit.nameValue)])

/-- The name of a source as text. -/
def nameOf (source : List Char) : Option String :=
  (contractName? source).map String.ofList

/-! ## Checks -/

/-- The mode that is asked for, or the configured one. -/
def Host.mode (host : Host) (asked : Value) : Except Failure ScanMode :=
  let value := host.settings.chooseMode asked
  match ScanMode.ofValue? value with
  | some mode => .ok mode
  | none => .error (.unknownMode value)

/-- The secured name and the text of an uploaded file. -/
def Host.readUpload (host : Host) (upload : Upload) : Except Failure (String × List Char) :=
  let name := FileName.ofSent upload.name
  if !FileName.isAllowed host.settings.allowedExtensions name then
    .error (.wrongExtension host.settings.allowedExtensions)
  else
    match Text.Utf8.decode? upload.content with
    | some source => .ok (String.ofList name, source)
    | none => .error .notUtf8

/-- The audit of a source within the size limits, in a mode that is still to be found: an excess of
size counts before a mode that is not known. -/
def Host.auditIn (host : Host) (mode : Except Failure ScanMode) (source : List Char) :
    Except Failure Audit := do
  let source ←
    (enforceSizeLimit host.settings.maxSourceBytes host.settings.maxLineChars source).mapError
      .rejected
  let report ← (analyzeWith host.detectors source (← mode)).mapError .analysis
  return ⟨report, nameOf source⟩

/-- The audit of a source within the size limits. -/
def Host.audit (host : Host) (source : List Char) (mode : ScanMode) : Except Failure Audit :=
  host.auditIn (.ok mode) source

/-- The audit of a source that is not blank. -/
def Host.auditText (host : Host) (source : List Char) (mode : ScanMode) : Except Failure Audit :=
  if Text.isAllBlank source then .error .emptySource else host.audit source mode

/-! ## The two ways to submit -/

/-- The audit of an uploaded file. -/
def Host.auditUpload (host : Host) (upload : Upload) (asked : Value) : Except Failure Audit := do
  let (_, source) ← host.readUpload upload
  let mode ← host.mode asked
  host.auditText source mode

/-- The audit of a JSON body; one that is missing or no object counts as empty. -/
def Host.auditJson (host : Host) (body : Option Value) : Except Failure Audit := do
  match body.bind (·.get? "source") with
  | some (.string source) =>
    -- the mode is judged before the text
    let mode ← host.mode ((body.bind (·.get? "mode")).getD .null)
    match source with
    | .text s => host.auditText s.toList mode
    | .unpaired points => .error (.unpairedSurrogate points)
  | _ => .error .missingSource

end ContractAudit.Service
