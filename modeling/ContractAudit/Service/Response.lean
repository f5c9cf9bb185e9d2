import ContractAudit.Http.Method
import ContractAudit.Http.Target
import ContractAudit.Service.Batch

/-!
# Answers of the service

The service has three endpoints: the state of the host, the audit of one source and the audit of a
batch. Each takes one method; another method or path gets an answer without data.
-/

namespace ContractAudit.Service

open Http Json

/-- An answer; one without a body carries no data. -/
structure Response where
  status : Nat
  body : Option Value

namespace Response

/-- An answer whose body says what is wrong. -/
def error (status : Nat) (message : String) : Response :=
  ⟨status, some (.record [("error", .text message)])⟩

/-- An answer to a request whose body is too long. -/
def tooLarge : Response := error 413 "Request body too large"

/-- An answer without data. -/
def bare (status : Nat) : Response := ⟨status, none⟩

end Response

/-! ## Endpoints -/

/-- The state of the host. -/
def Host.health (host : Host) : Response :=
  ⟨200, some (.record [("status", .text "ok"), ("version", host.settings.version)])⟩

/-- The form of a body, empty if it is none; `none` if the body or the form is too large. -/
def Host.form? (host : Host) (body : Option Body) : Option Form :=
  match body with
  | none => some []
  | some body =>
    if Multipart.exceeds host.settings.maxContentLength body.octets.length then none
    else Form.ofBody? ⟨host.settings.maxFormOctets, host.settings.maxFormParts⟩ body

/-- The audit that a request asks for: of the first file of its form, or of its JSON value. -/
def Host.auditRequest (host : Host) (form : Form) (body : Option Body) : Except Failure Audit :=
  match form.files "file" with
  | upload :: _ => host.auditUpload upload (form.valueOrNull "mode")
  | [] =>
    match body.map (Body.json host.settings.maxNesting) with
    | none => host.auditJson none
    | some (.ok value) => host.auditJson value
    | some (.error container) => .error (.tooDeep container)

/-- The audit of one source. -/
def Host.analyze (host : Host) (body : Option Body) : Response :=
  match host.form? body with
  | none => .tooLarge
  | some form =>
    match host.auditRequest form body with
    | .ok audit => ⟨200, some audit.toValue⟩
    | .error cause => ⟨cause.status, some cause.toValue⟩

/-- The audit of a batch. -/
def Host.analyzeBatch (host : Host) (body : Option Body) : Response :=
  match host.form? body with
  | none => .tooLarge
  | some form =>
    match host.runBatch (form.files "files[]") (form.valueOrNull "mode") with
    | .ok entries => ⟨200, some (.list (entries.map Entry.toValue))⟩
    | .error cause => .error 400 cause.message

/-! ## Routes -/

/-- An endpoint. -/
inductive Endpoint where
  | health
  | analyze
  | batch
deriving DecidableEq, Repr

namespace Endpoint

/-- Every endpoint. -/
def all : List Endpoint := [.health, .analyze, .batch]

/-- The path of the endpoint. -/
def path : Endpoint → String
  | .health => "/health"
  | .analyze => "/analyze"
  | .batch => "/analyze/batch"

/-- The endpoint at exactly this path. -/
def ofPath? (path : List Char) : Option Endpoint :=
  all.find? fun endpoint => endpoint.path.toList == path

/-- The method of the endpoint. -/
def method : Endpoint → Method
  | .health => .get
  | .analyze | .batch => .post

/-- Whether the endpoint takes the method. Each says what it takes, and one that can be got also
takes requests for the head of its answer. -/
def takes (endpoint : Endpoint) (method : Method) : Bool :=
  method = .options || method = endpoint.method || (method = .head && endpoint.method = .get)

end Endpoint

/-- The answer of an endpoint to a method that it takes. -/
def Host.answerAt (host : Host) (endpoint : Endpoint) (method : Method) (body : Option Body) :
    Response :=
  if method = .options then .bare 200
  else match endpoint with
    | .health => host.health
    | .analyze => host.analyze body
    | .batch => host.analyzeBatch body

/-- The answer to a request with its data. A path that is one of an endpoint but for repeated
slashes is sent on to it. -/
def Host.answerInFull (host : Host) (request : Request) : Response :=
  let method := Method.ofName request.method
  let path := pathOf request.target
  match Endpoint.ofPath? path with
  | some endpoint =>
    if endpoint.takes method then host.answerAt endpoint method request.body else .bare 405
  | none =>
    match Endpoint.ofPath? (mergeSlashes path) with
    | some endpoint => .bare (if endpoint.takes method then 308 else 405)
    | none => .bare 404

/-- The answer to a request. The head of an answer is all that is given where it is asked for in
upper case. -/
def Host.answer (host : Host) (request : Request) : Response :=
  let response := host.answerInFull request
  if request.method = "HEAD" then .bare response.status else response

end ContractAudit.Service
