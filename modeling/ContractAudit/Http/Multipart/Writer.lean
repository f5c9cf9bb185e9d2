import ContractAudit.Http.Multipart.Part

/-!
# Writing a form in parts

The octets of a form, as a client sends them: each part behind a delimiter, with headers for its
field and for the name of its file. Names stand in the headers as they are, so that one with a quote
or a line break is not read back.
-/

namespace ContractAudit.Http.Multipart

/-- The parts in the order in which they are sent: values before files, and of either those of one
field together. -/
def inSendingOrder (parts : List Part) : List Part :=
  let grouped (ps : List Part) : List Part :=
    (ps.map Part.field).eraseDups.flatMap fun field => ps.filter (·.field = field)
  let isFile : Part → Bool
    | .file _ _ => true
    | .value _ _ => false
  grouped (parts.filter (!isFile ·)) ++ grouped (parts.filter isFile)

/-- The headers of the part, each line with its break. -/
def Part.headers : Part → String
  | .file field upload =>
    "Content-Disposition: form-data; name=\"" ++ field ++ "\"; filename=\"" ++ upload.name ++
      "\"\r\nContent-Type: application/octet-stream\r\n"
  | .value field _ => "Content-Disposition: form-data; name=\"" ++ field ++ "\"\r\n"

/-- The content of the part. -/
def Part.content : Part → List UInt8
  | .file _ upload => upload.content
  | .value _ text => Text.Utf8.encode text.toList

/-- The octets of a form with the boundary between its parts. An empty content has no blank line of
its own: the line break of the next delimiter makes it. -/
def write (boundary : String) (parts : List Part) : List UInt8 :=
  let octets (s : String) : List UInt8 := Text.Utf8.encode s.toList
  let delimiter := "\r\n--" ++ boundary
  let one (part : Part) : List UInt8 :=
    octets (delimiter ++ "\r\n" ++ part.headers) ++
      if part.content.isEmpty then [] else octets "\r\n" ++ part.content
  (inSendingOrder parts).flatMap one ++ octets (delimiter ++ "--\r\n")

/-- The content type of a form with the boundary between its parts. -/
def contentType (boundary : String) : String :=
  "multipart/form-data; boundary=\"" ++ boundary ++ "\""

end ContractAudit.Http.Multipart
