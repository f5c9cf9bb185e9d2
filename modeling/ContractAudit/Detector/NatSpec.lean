import ContractAudit.Detector.Basic
import ContractAudit.Text.Pattern

/-!
# Missing documentation

A function is reported when no documentation comment, `///` or `/**`, stands on the lines above it.
-/

namespace ContractAudit.Detector.NatSpec

open Text

def profile : Profile where
  name := "natspec"
  title := "Missing NatSpec Documentation"
  description := "Function lacks NatSpec documentation for better code maintainability."
  suggestions := [
    "Add @notice for function description",
    "Add @param for parameter descriptions",
    "Add @return for return value descriptions",
    "Use /// for single-line NatSpec comments"]
  categories := [.documentation]

/-- Lines of the window in legacy mode. -/
def window : Nat := 3

/-- Whether the text starts with the header of a named function. -/
def startsFunction (s : List Char) : Bool :=
  match (after? "function" s).bind afterSomeBlanks? with
  | some rest => rest.head?.any isWord
  | none => false

/-- Whether a named function is declared in the line. -/
def declaresFunction (text : List Char) : Bool :=
  occurs startsFunction text

/-- Whether a documentation comment starts in the line. -/
def hasDocumentation (text : List Char) : Bool :=
  mentions "///" text || mentions "/**" text

/-- The lines above a declaration that may document it. -/
def linesAbove (lines : Array Line) (mode : ScanMode) (index : Nat) : List Line :=
  match mode with
  | .legacy => linesBefore lines index window
  | .scoped => commentBlockAbove lines index scopeLimit

/-- Whether the line declares a function for this detector; in scoped mode a comment line declares
none. -/
def isDeclaration (mode : ScanMode) (text : List Char) : Bool :=
  declaresFunction text && (mode == .legacy || !isCommentLine text)

/-- The finding for a function at a line. -/
def findingsAt (lines : Array Line) (mode : ScanMode) (line : Line) : List Finding :=
  if isDeclaration mode line.text &&
      !(linesAbove lines mode line.index).any fun above => hasDocumentation above.text then
    [profile.finding (profile.id line.index) .info line]
  else []

/-- The findings of a source. -/
def inspect (source : Source) (mode : ScanMode) : List Finding :=
  source.lines.toList.flatMap (findingsAt source.lines mode)

end ContractAudit.Detector.NatSpec
