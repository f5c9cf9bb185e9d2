import ContractAudit.Json.Printer
import ContractAudit.Main
import ContractAudit.Proofs.CommentedNames
import ContractAudit.Proofs.Detector.DocumentedFunctions
import ContractAudit.Proofs.Detector.IndexedAssignments
import ContractAudit.Proofs.Detector.LegacyGuards
import ContractAudit.Proofs.Detector.Locality
import ContractAudit.Proofs.Detector.Modes
import ContractAudit.Proofs.Detector.ScopedGuards
import ContractAudit.Proofs.Detector.SendingForms
import ContractAudit.Proofs.Detector.VersionGate
import ContractAudit.Proofs.Report.Anchors
import ContractAudit.Proofs.Report.LineEndings
import ContractAudit.Proofs.Report.Order
import ContractAudit.Proofs.Report.Padding
import ContractAudit.Proofs.Report.RoundTrip
import ContractAudit.Proofs.Report.Suggestions
import ContractAudit.Proofs.Score.Charges
import ContractAudit.Proofs.Score.ExactOverall
import ContractAudit.Proofs.Score.Monotone
import ContractAudit.Proofs.Score.SeverityCounts
import ContractAudit.Proofs.Service.JsonAnswers
import ContractAudit.Proofs.Service.SingleAndBatch
import ContractAudit.Proofs.Service.ThreeWays
import ContractAudit.Proofs.Service.UploadNames
import ContractAudit.Proofs.Source.ClosedComments
import ContractAudit.Proofs.Source.Joining
import ContractAudit.Proofs.Source.ScopeLimits
import ContractAudit.Proofs.Source.Scopes
import ContractAudit.Reading
