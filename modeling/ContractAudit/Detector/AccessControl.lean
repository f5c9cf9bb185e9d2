import ContractAudit.Detector.Basic
import ContractAudit.Text.Pattern

/-!
# Access control

A function that others can call is reported when neither its header nor its body mentions a guard:
`onlyOwner`, `modifier`, or a requirement on `msg.sender`.
-/

namespace ContractAudit.Detector.AccessControl

open Text

def profile : Profile where
  name := "access"
  title := "Missing Access Control"
  description := "Public/external function without access control modifiers."
  suggestions := [
    "Add onlyOwner modifier for administrative functions",
    "Use OpenZeppelin's AccessControl for role-based permissions",
    "Add require() statements to check msg.sender",
    "Consider making function internal if not needed externally"]
  categories := [.security]

/-- Lines of the window in legacy mode, with the header's own. -/
def window : Nat := 10

/-- Whether the text starts with the header of a function that others can call. -/
def startsPublicFunction (s : List Char) : Bool :=
  Option.any (fun s => startsWith "public" s || startsWith "external" s) do
    let s ← after? "function" s
    let s ← afterSomeBlanks? s
    let s ← afterSomeWord? s
    let s ← after? "(" (afterBlanks s)
    let s ← after? ")" (s.dropWhile (· != ')'))
    some (afterBlanks s)

/-- Whether a function that others can call is declared in the line. -/
def declaresPublicFunction (text : List Char) : Bool :=
  occurs startsPublicFunction text

/-- Whether the text starts with a requirement on the sender. -/
def startsSenderCheck (s : List Char) : Bool :=
  match after? "require" s with
  | some rest =>
    match after? "(" (afterBlanks rest) with
    | some rest => startsWith "msg.sender" (afterBlanks rest)
    | none => false
  | none => false

/-- Whether the text starts with a guard. -/
def startsGuard (s : List Char) : Bool :=
  startsWith "onlyOwner" s || startsSenderCheck s || startsWith "modifier" s

/-- Whether a guard occurs in the line. -/
def hasGuard (text : List Char) : Bool :=
  occurs startsGuard text

/-- Whether a guard comes before the first line with a closing brace has passed. A guard on that
line still counts. -/
def guardedBeforeClosing : List Line → Bool
  | [] => false
  | line :: rest =>
    hasGuard line.text || (!line.text.contains '\x7d' && guardedBeforeClosing rest)

/-- Whether the function whose header is at `index` is guarded. -/
def isGuarded (lines : Array Line) (mode : ScanMode) (index : Nat) : Bool :=
  match mode with
  | .legacy => guardedBeforeClosing (linesFrom lines index window)
  | .scoped => (blockBody lines index scopeLimit).any fun line => hasGuard line.text

/-- The finding for a function at a line. -/
def findingsAt (lines : Array Line) (mode : ScanMode) (line : Line) : List Finding :=
  if declaresPublicFunction line.text && !hasGuard line.text &&
      !isGuarded lines mode line.index then
    [profile.finding (profile.id line.index) .high line]
  else []

/-- The findings of a source. -/
def inspect (source : Source) (mode : ScanMode) : List Finding :=
  source.lines.toList.flatMap (findingsAt source.lines mode)

end ContractAudit.Detector.AccessControl
