import ContractAudit.Text.Blank
import ContractAudit.Text.Compatibility
import ContractAudit.Text.Ends

/-!
# Names of uploaded files

An uploaded file keeps a secured form of its name: ASCII letters, digits, `_`, `.` and `-` alone,
without directories, and with neither `.` nor `_` at its ends. The extension is checked on that
form.
-/

namespace ContractAudit.FileName

open Text

/-- Whether the character may stand in a secured name. -/
def isPortable (c : Char) : Bool :=
  c.isAlphanum || c == '_' || c == '.' || c == '-'

/-- Whether the character is taken off the ends of a secured name. -/
def isEdge (c : Char) : Bool :=
  c == '.' || c == '_'

/-- The secured form of a name. -/
def secure (name : List Char) : List Char :=
  let ascii := name.flatMap asciiPart
  let spaced := ascii.map fun c => if c = '/' then ' ' else c
  dropEnds isEdge (((words spaced).intersperse ['_']).flatten.filter isPortable)

/-- The name of a file that comes without one. -/
def unnamed : String := "contract.sol"

/-- The secured form of a name as it was sent. -/
def ofSent (name : String) : List Char :=
  secure (if name.isEmpty then unnamed else name).toList

/-- Whether a secured name, in lower case, has one of the endings. -/
def isAllowed (extensions : List String) (name : List Char) : Bool :=
  extensions.any fun ending => ending.toList.isSuffixOf (name.map Char.toLower)

end ContractAudit.FileName
