import ContractAudit.Service.Submission

/-!
# Batches

Several files are audited one by one in one mode. A file that fails leaves an entry with its cause
and does not disturb the others. The riskiest files come first and the failed ones last; files of
equal score, and the failed ones, keep the order in which they were sent.
-/

namespace ContractAudit.Service

open Http Json

/-- The result for one file of a batch. -/
inductive Entry where
  /-- A file with its secured name. -/
  | audited (name : String) (audit : Audit)
  /-- A file with its name as sent. -/
  | failed (name : String) (cause : Failure)

namespace Entry

/-- The number by which entries are sorted: the overall score, and one beyond all scores for a file
that failed. -/
def rank : Entry → Binary64
  | .audited _ audit => audit.report.overall
  | .failed _ _ => .finite 999

/-- The entry as data. -/
def toValue : Entry → Value
  | .audited name audit => .record [
      ("filename", .text name),
      ("contractName", audit.nameValue),
      ("overallScore", .real audit.report.overall),
      ("scores", audit.report.scores.toValue),
      ("severityCounts", audit.report.severityCounts)]
  | .failed name cause => .record [("filename", .text name), ("error", .text cause.message)]

end Entry

/-- The audit of one file, blank or not, with its secured name. -/
def Host.auditFile (host : Host) (mode : ScanMode) (upload : Upload) :
    Except Failure (String × Audit) := do
  let (name, source) ← host.readUpload upload
  let audit ← host.audit source mode
  return (name, audit)

/-- The entry of one file. -/
def Host.entry (host : Host) (mode : ScanMode) (upload : Upload) : Entry :=
  match host.auditFile mode upload with
  | .ok (name, audit) => .audited name audit
  | .error cause => .failed upload.name cause

/-- The entries of the files, sorted. -/
def Host.batch (host : Host) (mode : ScanMode) (uploads : List Upload) : List Entry :=
  -- the sort is stable
  (uploads.map (host.entry mode)).mergeSort fun a b => !b.rank.lt a.rank

/-- Why a batch is refused as a whole. -/
inductive BatchRefusal where
  | noFiles
  | tooManyFiles (limit : Number)
  | mode (cause : Failure)

/-- The cause in words. -/
def BatchRefusal.message : BatchRefusal → String
  | .noFiles => "No files provided"
  | .tooManyFiles limit => "Maximum " ++ limit.literal ++ " files per batch"
  | .mode cause => cause.message

/-- The entries of a batch, if it may run. -/
def Host.runBatch (host : Host) (uploads : List Upload) (asked : Value) :
    Except BatchRefusal (List Entry) :=
  if uploads.isEmpty then .error .noFiles
  else if host.settings.maxBatchFiles.lt (.int uploads.length) then
    .error (.tooManyFiles host.settings.maxBatchFiles)
  else
    match host.mode asked with
    | .ok mode => .ok (host.batch mode uploads)
    | .error cause => .error (.mode cause)

end ContractAudit.Service
