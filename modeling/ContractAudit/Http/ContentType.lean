import ContractAudit.Http.HeaderValue

/-!
# Content types

A content type is a media type and perhaps parameters behind a semicolon. Letter case does not
count, and neither do spaces and tabs around the media type.
-/

namespace ContractAudit.Http

/-- The media type of a content type in lower case, without its parameters. -/
def mediaType (contentType : String) : List Char :=
  (HeaderValue.ofText contentType.toList).value.map Char.toLower

/-- Whether a content type is JSON. -/
def isJsonType (contentType : String) : Bool :=
  let media := mediaType contentType
  media == "application/json".toList ||
    ("application/".toList.isPrefixOf media && "+json".toList.isSuffixOf media)

/-- The boundary between the parts of a form, if the content type is that of a form in parts. It is
empty where the content type does not name one. -/
def formBoundary? (contentType : String) : Option (List Char) :=
  if mediaType contentType == "multipart/form-data".toList then
    some (((HeaderValue.ofText contentType.toList).parameter? "boundary").getD [])
  else none

end ContractAudit.Http
