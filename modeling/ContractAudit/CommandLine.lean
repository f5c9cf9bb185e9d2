import ContractAudit.Json.Printer
import ContractAudit.Service.Submission

/-!
# The scan command

The command audits one file and prints the report. It takes the path of the file and two options, a
scan mode and a score below which it fails. An option stands anywhere, with its value behind an
equals sign or as the next argument; the last of equal options counts, and two dashes end the
options.
-/

namespace ContractAudit.CommandLine

open Json Service

/-! ## Arguments -/

/-- The arguments as they stand, not yet checked. -/
structure Arguments where
  mode : Option String
  failUnder : Option String
  /-- Everything that is no option, in order. -/
  paths : List String

/-- The options of the command. -/
inductive OptionName where
  | mode
  | failUnder
deriving DecidableEq, Repr

/-- The option of a name with its dashes. -/
def OptionName.ofString? (name : String) : Option OptionName :=
  if name = "--mode" then some .mode
  else if name = "--fail-under" then some .failUnder
  else none

/-- The arguments with an option set. -/
def Arguments.set (args : Arguments) (name : OptionName) (value : String) : Arguments :=
  match name with
  | .mode => { args with mode := some value }
  | .failUnder => { args with failUnder := some value }

/-- Whether the argument is an option: a dash with something behind it. -/
def isOption (arg : String) : Bool :=
  match arg.toList with
  | '-' :: _ :: _ => true
  | _ => false

/-- The name of an option and the value behind its first equals sign. -/
def splitOption (arg : String) : String × Option String :=
  let name := arg.toList.takeWhile (· != '=')
  match arg.toList.drop name.length with
  | _ :: value => (String.ofList name, some (String.ofList value))
  | [] => (arg, none)

/-- The arguments after those already collected; `none` for an unknown option or a missing value. -/
def collect (args : Arguments) : List String → Option Arguments
  | [] => some args
  | arg :: rest =>
    -- all that follows the two dashes is no option, whatever it looks like
    if arg = "--" then some { args with paths := args.paths ++ rest }
    else if isOption arg then
      match splitOption arg with
      | (name, some value) => (OptionName.ofString? name).bind fun name =>
        collect (args.set name value) rest
      | (name, none) =>
        match rest with
        | [] => none
        | value :: rest => (OptionName.ofString? name).bind fun name =>
          collect (args.set name value) rest
    else collect { args with paths := args.paths ++ [arg] } rest

/-- What the command is asked to do. -/
structure Order where
  path : String
  mode : Option ScanMode
  failUnder : Option Binary64

/-- Applies a reading to an optional argument; `none` when it is there and cannot be read. -/
def readOptional {α : Type} (read : String → Option α) : Option String → Option (Option α)
  | none => some none
  | some s => (read s).map some

/-- Why arguments give no order. -/
inductive ArgumentFault where
  /-- They are not well formed. -/
  | usage
  /-- The path holds the null character, which no path of a file does. -/
  | nullInPath
deriving DecidableEq, Repr

/-- The order of a path and what may stand behind it, with the options already read. -/
def Order.ofPaths (mode : Option ScanMode) (failUnder : Option Binary64) :
    List String → Except ArgumentFault Order
  | [] => .error .usage
  | path :: more =>
    if path.toList.contains '\x00' then .error .nullInPath
    else if more.isEmpty then .ok ⟨path, mode, failUnder⟩
    else .error .usage

/-- The order that the arguments give. The options are read before the path. -/
def Order.ofArguments (args : List String) : Except ArgumentFault Order :=
  let read : Option (Except ArgumentFault Order) := do
    let args ← collect ⟨none, none, []⟩ args
    let mode ← readOptional ScanMode.ofName? args.mode
    let failUnder ← readOptional (fun s => Text.Numeral.readReal? s.toList) args.failUnder
    some (Order.ofPaths mode failUnder args.paths)
  read.getD (.error .usage)

/-! ## The text of a file -/

/-- The text with each carriage return, alone or before a newline, as one newline, after that in
`done`, reversed. -/
def unifyNewlinesFrom (done : List Char) : List Char → List Char
  | [] => done.reverse
  | '\r' :: '\n' :: rest => unifyNewlinesFrom ('\n' :: done) rest
  | c :: rest => unifyNewlinesFrom ((if c = '\r' then '\n' else c) :: done) rest

/-- The text with each carriage return, alone or before a newline, as one newline. -/
def unifyNewlines (s : List Char) : List Char :=
  unifyNewlinesFrom [] s

theorem unifyNewlinesFrom_append (done tail s : List Char) :
    unifyNewlinesFrom (done ++ tail) s = tail.reverse ++ unifyNewlinesFrom done s := by
  fun_induction unifyNewlinesFrom done s with
  | case1 done => simp [unifyNewlinesFrom]
  | case2 done rest ih => rw [unifyNewlinesFrom, ← List.cons_append, ih]
  | case3 done c rest h ih => rw [unifyNewlinesFrom, ← List.cons_append, ih]; exact h

theorem unifyNewlinesFrom_eq (done s : List Char) :
    unifyNewlinesFrom done s = done.reverse ++ unifyNewlines s :=
  unifyNewlinesFrom_append [] done s

theorem unifyNewlines_pair (rest : List Char) :
    unifyNewlines ('\r' :: '\n' :: rest) = '\n' :: unifyNewlines rest := by
  rw [unifyNewlines, unifyNewlinesFrom, unifyNewlinesFrom_eq]
  rfl

theorem unifyNewlines_cons {c : Char} (h : c ≠ '\r') (rest : List Char) :
    unifyNewlines (c :: rest) = c :: unifyNewlines rest := by
  rw [unifyNewlines, unifyNewlinesFrom, unifyNewlinesFrom_eq]
  · simp [h]
  · simp [h]

/-- The text of a file: each ill-formed part is U+FFFD, and lines end in a newline. -/
def readText (content : List UInt8) : List Char :=
  unifyNewlines (Text.Utf8.decodeLenient content)

/-! ## Outcomes -/

/-- How the command ends. -/
inductive Outcome where
  /-- The arguments are not well formed, or name no file. -/
  | usage
  /-- The path holds the null character. -/
  | nullInPath
  /-- The source is refused. -/
  | rejected (cause : Rejection)
  /-- The audit itself fails. -/
  | failed (cause : Failure)
  /-- The report is printed; `below` says that the score is below the given one. -/
  | printed (text : String) (below : Bool)

namespace Outcome

/-- The exit status. -/
def exitStatus : Outcome → Nat
  | .usage | .rejected _ => 2
  | .nullInPath | .failed _ => 1
  | .printed _ below => if below then 1 else 0

/-- What is printed. -/
def output : Outcome → String
  | .printed text _ => text
  | _ => ""

/-- What is said about a refused source. -/
def complaint? : Outcome → Option String
  | .rejected cause => some ("Rejected: " ++ cause.message ++ "\n")
  | _ => none

end Outcome

/-- The audit of a text in the mode asked for, or in the configured one. A blank text is audited
like any other. -/
def audit (host : Host) (mode : Option ScanMode) (source : List Char) : Except Failure Audit :=
  host.auditIn (match mode with
    | some mode => .ok mode
    | none => host.mode .null) source

/-- The outcome of an order for a file of the given content. -/
def run (host : Host) (order : Order) (content : List UInt8) : Outcome :=
  match audit host order.mode (readText content) with
  | .ok audit =>
    .printed (audit.toValue.write .indented ++ "\n")
      (order.failUnder.any audit.report.overall.lt)
  | .error (.rejected cause) => .rejected cause
  | .error cause => .failed cause

/-- The words for a path with the null character. -/
def nullInPathMessage : String := "embedded null byte"

/-- The outcome of the command, with the files that it may read. -/
def scan (host : Host) (file? : String → Option (List UInt8)) (args : List String) : Outcome :=
  match Order.ofArguments args with
  | .error .usage => .usage
  | .error .nullInPath => .nullInPath
  | .ok order =>
    match file? order.path with
    | some content => run host order content
    | none => .usage

end ContractAudit.CommandLine
