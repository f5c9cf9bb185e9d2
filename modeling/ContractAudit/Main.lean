import ContractAudit.CommandLine

/-!
# The program

`scan` with its arguments audits a file. The environment is that of development.
-/

namespace ContractAudit.Program

/-- The content of the file at a path, if there is a file. -/
def readFile? (path : String) : IO (Option (List UInt8)) := do
  try
    let content ← IO.FS.readBinFile path
    return some content.toList
  catch _ => return none

/-- What the program says about its use. -/
def usageText : String := "Usage: scan [--mode legacy|scoped] [--fail-under FLOAT] PATH"

/-- Runs the command and reports its outcome. -/
def runScan (args : List String) : IO UInt32 := do
  let host := Service.Host.ofEnvironment "development"
  let content ← match CommandLine.Order.ofArguments args with
    | .ok order => readFile? order.path
    | .error _ => pure none
  let outcome := CommandLine.scan host (fun _ => content) args
  IO.print outcome.output
  match outcome with
  | .usage => IO.eprintln usageText
  | .nullInPath => IO.eprintln CommandLine.nullInPathMessage
  | .failed cause => IO.eprintln cause.message
  | _ => pure ()
  IO.eprint (outcome.complaint?.getD "")
  return outcome.exitStatus.toUInt32

end ContractAudit.Program

/-- The entry point of the program. -/
def main (args : List String) : IO UInt32 :=
  match args with
  | "scan" :: rest => ContractAudit.Program.runScan rest
  | _ => do
    IO.eprintln ContractAudit.Program.usageText
    return 2
