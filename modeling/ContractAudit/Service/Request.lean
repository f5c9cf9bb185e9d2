import ContractAudit.Http.ContentType
import ContractAudit.Http.Multipart.Reader
import ContractAudit.Json.Reader

/-!
# Requests to the service

A request has a method, a target and perhaps a body, whose octets have a content type. A body of a
JSON type is read as JSON, and only to a bounded depth; one that is a form in parts gives files and
values. A body of another type, or one that cannot be read, is as good as none.
-/

namespace ContractAudit.Service

open Http Json

/-- The body of a request. -/
structure Body where
  contentType : String
  octets : List UInt8

/-- A request; the target is the path relative to the service and what may follow it. -/
structure Request where
  method : String
  target : String
  body : Option Body

/-! ## Forms -/

/-- The parts of a form. -/
abbrev Form := List Multipart.Part

namespace Form

/-- The form of a body, empty if the body is none that can be read; `none` if it is too large. -/
def ofBody? (limits : Multipart.Limits) (body : Body) : Option Form :=
  match formBoundary? body.contentType with
  | none => some []
  | some boundary =>
    match Multipart.read limits boundary body.octets with
    | .ok parts => some parts
    | .error .malformed => some []
    | .error .tooLarge => none

/-- The files under a field, in their order. -/
def files (field : String) (form : Form) : List Upload :=
  form.filterMap fun
    | .file name upload => if name = field then some upload else none
    | .value _ _ => none

/-- The first value under a field. -/
def value? (field : String) (form : Form) : Option String :=
  form.findSome? fun
    | .value name text => if name = field then some text else none
    | .file _ _ => none

/-- The first value under a field as data. -/
def valueOrNull (field : String) (form : Form) : Value :=
  match form.value? field with
  | some text => .text text
  | none => .null

end Form

/-! ## JSON -/

/-- The JSON value of a body, `none` if it has none that is readable. Only a value whose lists and
objects stand inside each other too deep is more than unreadable. -/
def Body.json (maxNesting : Nat) (body : Body) : Except Container (Option Value) :=
  if isJsonType body.contentType then
    match readOctets maxNesting body.octets with
    | .ok value => .ok (some value)
    | .error .malformed => .ok none
    | .error (.tooDeep container) => .error container
  else .ok none

end ContractAudit.Service
