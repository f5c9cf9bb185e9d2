import ContractAudit.Text.Ends

/-!
# Blank characters

The white space of every script: the controls U+0009 to U+000D and U+001C to U+001F, the spaces, and
the line and paragraph separators. Trimming and splitting into words go by this class.
-/

namespace ContractAudit.Text

/-- Whether `c` is white space. -/
def isBlank (c : Char) : Bool :=
  let n := c.toNat
  (0x9 ≤ n && n ≤ 0xd) || (0x1c ≤ n && n ≤ 0x20) || n == 0x85 || n == 0xa0 || n == 0x1680 ||
    (0x2000 ≤ n && n ≤ 0x200a) || n == 0x2028 || n == 0x2029 || n == 0x202f || n == 0x205f ||
    n == 0x3000

/-- The text without the white space at its end. -/
def trimEnd (s : List Char) : List Char :=
  dropEnd isBlank s

/-- The text without the white space at its two ends. -/
def trim (s : List Char) : List Char :=
  dropEnds isBlank s

/-- Whether the text is white space only. -/
def isAllBlank (s : List Char) : Bool :=
  s.all isBlank

/-- The runs of characters between white space, with the run read so far in reverse. -/
def wordsFrom (word : List Char) : List Char → List (List Char)
  | [] => if word.isEmpty then [] else [word.reverse]
  | c :: rest =>
    if isBlank c then
      if word.isEmpty then wordsFrom [] rest else word.reverse :: wordsFrom [] rest
    else wordsFrom (c :: word) rest

/-- The runs of characters between white space. -/
def words (s : List Char) : List (List Char) :=
  wordsFrom [] s

end ContractAudit.Text
