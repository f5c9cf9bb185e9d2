import ContractAudit.Json.Value
import ContractAudit.SizeLimit

/-!
# Settings

The settings of a host, by the name of its environment. A name that is not known gets the settings
of development.
-/

namespace ContractAudit

open Json

/-- What a host is configured with. -/
structure Settings where
  maxSourceKilobytes : Int
  maxSourceBytes : Number
  maxLineChars : Number
  /-- Octets of a request body, if they are limited. -/
  maxContentLength : Option Number
  /-- Octets of a value of a form, and of what waits to be read of one, if they are limited. -/
  maxFormOctets : Option Number
  /-- Parts of a form, if they are limited. -/
  maxFormParts : Option Number
  /-- How deep the lists and objects of a JSON body may stand inside each other. No configuration
  says so: the depth is what the run of the host has room for. -/
  maxNesting : Nat
  maxBatchFiles : Number
  /-- Endings of the names of accepted files. -/
  allowedExtensions : List String
  /-- The scan mode where none is asked for; it is read when it is needed. -/
  scanMode : Value
  logLevel : String
  corsOrigins : String
  debug : Bool
  testing : Bool
  /-- What the state of the host says about its version. -/
  version : Value

namespace Settings

/-- What the environments share. -/
def base : Settings where
  maxSourceKilobytes := 512
  maxSourceBytes := .int defaultMaxBytes
  maxLineChars := .int defaultMaxLineChars
  maxContentLength := some (.int (2 * defaultMaxBytes))
  maxFormOctets := some (.int 500000)
  maxFormParts := some (.int 1000)
  maxNesting := 980
  maxBatchFiles := .int 100
  allowedExtensions := [".sol"]
  scanMode := .text "legacy"
  logLevel := "INFO"
  corsOrigins := "same-origin"
  debug := false
  testing := false
  version := .text "1.0.0"

/-- Settings for development. -/
def development : Settings := { base with debug := true, logLevel := "DEBUG" }

/-- Settings for production. -/
def production : Settings := base

/-- Settings for tests, with small limits. -/
def tests : Settings := { base with
  debug := true
  testing := true
  maxSourceKilobytes := 4
  maxSourceBytes := .int (4 * 1024)
  maxLineChars := .int 500
  maxContentLength := some (.int (64 * 1024))
  maxBatchFiles := .int 3 }

/-- The settings of an environment. -/
def ofEnvironment (name : String) : Settings :=
  if name = "production" then production
  else if name = "testing" then tests
  else development

/-- The settings as data. -/
def toValue (s : Settings) : Value :=
  .record [
    ("ALLOWED_EXTENSIONS", .list (s.allowedExtensions.map .text)),
    ("CORS_ORIGINS", .text s.corsOrigins),
    ("DEBUG", .bool s.debug),
    ("LOG_LEVEL", .text s.logLevel),
    ("MAX_BATCH_FILES", .number s.maxBatchFiles),
    ("MAX_CONTENT_LENGTH", match s.maxContentLength with
      | some limit => .number limit
      | none => .null),
    ("MAX_LINE_CHARS", .number s.maxLineChars),
    ("MAX_SOURCE_BYTES", .number s.maxSourceBytes),
    ("MAX_SOURCE_KB", .int s.maxSourceKilobytes),
    ("SCAN_MODE", s.scanMode),
    ("TESTING", .bool s.testing),
    ("VERSION", s.version)]

/-- The mode that is asked for, or the configured one where the request leaves it open with an
absent or falsy value. -/
def chooseMode (s : Settings) (asked : Value) : Value :=
  if asked.isFalsy then s.scanMode else asked

end Settings

end ContractAudit
