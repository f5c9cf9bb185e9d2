import ContractAudit.Http.HeaderValue
import ContractAudit.Source.Line
import ContractAudit.Text.Blank

/-!
# Parts of a form

A part of a form is a file or a value, under a field. Which it is, and the field, stand in the
headers before its content.
-/

namespace ContractAudit.Http

/-- A file as it was sent. -/
structure Upload where
  name : String
  content : List UInt8
deriving DecidableEq

namespace Multipart

/-- A part of a form. -/
inductive Part where
  | file (field : String) (upload : Upload)
  | value (field : String) (text : String)
deriving DecidableEq

/-- The field of the part. -/
def Part.field : Part → String
  | .file field _ | .value field _ => field

/-! ## Headers -/

/-- The headers of a part. -/
abbrev Headers := List (List Char × List Char)

/-- The text with each line break before a space or a tab, and that character, as one space, after
that in `done`, reversed. -/
def unfoldFrom (done : List Char) : List Char → List Char
  | '\r' :: '\n' :: c :: rest =>
    if isFieldSpace c then unfoldFrom (' ' :: done) rest
    else unfoldFrom ('\n' :: '\r' :: done) (c :: rest)
  | b :: c :: rest =>
    if (b = '\r' || b = '\n') && isFieldSpace c then unfoldFrom (' ' :: done) rest
    else unfoldFrom (b :: done) (c :: rest)
  | [c] => (c :: done).reverse
  | [] => done.reverse

/-- The headers in a text, one in a line; a line may go on in the next one behind white space. -/
def headersOf (text : List Char) : Headers :=
  let text := (unfoldFrom [] text).map fun c => if c = '\r' then '\n' else c
  (parts text).filterMap fun line =>
    if Text.isAllBlank line then none
    else
      let name := line.takeWhile (· != ':')
      some (Text.trim name, Text.trim (line.drop (name.length + 1)))

/-- The value of the first header of a name in lower case. -/
def header? (headers : Headers) (name : String) : Option HeaderValue :=
  (headers.find? fun header => header.1.map Char.toLower == name.toList).map fun header =>
    HeaderValue.ofText header.2

/-! ## What the headers say -/

/-- What the headers of a part say about it. -/
structure Label where
  field : Option String
  fileName : Option String
  /-- The character set of a value. -/
  charset : Charset

/-- The label that headers give; they must have a disposition. -/
def Label.ofHeaders? (headers : Headers) : Option Label :=
  (header? headers "content-disposition").map fun disposition =>
    let charset := do
      let name ← (← header? headers "content-type").parameter? "charset"
      Charset.ofName? (name.map Char.toLower)
    { field := (disposition.parameter? "name").map String.ofList
      fileName := (disposition.parameter? "filename").map String.ofList
      charset := charset.getD .utf8 }

/-- The label that the octets of headers give. -/
def Label.ofOctets? (octets : List UInt8) : Option Label :=
  (Text.Utf8.decode? octets).bind fun text => Label.ofHeaders? (headersOf text)

/-- The part of a label and a content. A part without a field is under none. -/
def Label.part? (label : Label) (content : List UInt8) : Option Part :=
  label.field.map fun field =>
    match label.fileName with
    | some name => .file field ⟨name, content⟩
    | none => .value field (String.ofList (label.charset.decode content))

end Multipart

end ContractAudit.Http
