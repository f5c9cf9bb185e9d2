import ContractAudit.Detector.AccessControl
import ContractAudit.Detector.GasLoop
import ContractAudit.Detector.NatSpec
import ContractAudit.Detector.Overflow
import ContractAudit.Detector.Reentrancy

/-!
# Built-in detectors

The detectors of an audit, in the order in which their findings stand in a report.
-/

namespace ContractAudit.Detector

/-- The built-in detectors. -/
def builtin : List Detector := [
  .ofTotal Reentrancy.profile.name Reentrancy.inspect,
  .ofTotal Overflow.profile.name Overflow.inspect,
  .ofTotal GasLoop.profile.name GasLoop.inspect,
  .ofTotal AccessControl.profile.name AccessControl.inspect,
  .ofTotal NatSpec.profile.name NatSpec.inspect]

end ContractAudit.Detector
