import GeoPolicy.Action
import GeoPolicy.Backend
import GeoPolicy.Timestamp
import GeoPolicy.Yaml.Place

/-!
# Errors

Every way in which an operation of the library can fail, and the sentence that tells it.

## Main definitions

* `FileError` — why a file could not be read or written.
* `LookupFailure`, `RemoteFailure`, `DatabaseFailure` — why a collaborator failed.
* `YamlFailure`, `JsonFailure`, `ConfigFailure` — why a document or a setting is unusable.
* `Error` — a failure of an operation.
* `Error.message` — the sentence shown for it.
-/

namespace GeoPolicy

/-! ## Files -/

/-- Why a file could not be read or written. -/
inductive FileError where
  /-- The system refused, with its error number and its words. -/
  | system (number : Nat) (words : String)
  /-- No system error, with the words for it. -/
  | custom (words : String)
  deriving DecidableEq, Repr

namespace FileError

/-- There is no file of that name, or no directory to hold it. -/
def notFound : FileError := system 2 "No such file or directory"

/-- The device behind the name is missing. -/
def noDevice : FileError := system 6 "No such device or address"

/-- The content is more than fits into memory. -/
def outOfMemory : FileError := system 12 "Cannot allocate memory"

/-- A name inside something that is not a directory. -/
def notDirectory : FileError := system 20 "Not a directory"

/-- The name is that of a directory. -/
def isDirectory : FileError := system 21 "Is a directory"

/-- The file is a program that runs. -/
def textBusy : FileError := system 26 "Text file busy"

/-- There is no room for the content. -/
def noSpace : FileError := system 28 "No space left on device"

/-- A name or a path is longer than the system takes. -/
def nameTooLong : FileError := system 36 "File name too long"

/-- The content is not text. -/
def notText : FileError := custom "stream did not contain valid UTF-8"

/-- The words for a file error. -/
def message : FileError → String
  | system number words => s!"{words} (os error {number})"
  | custom words => words

end FileError

/-! ## Collaborators -/

/-- Why a registry gave no location. -/
inductive LookupFailure where
  /-- The registry answered with an error status. -/
  | status (code : Nat)
  /-- No answer arrived. -/
  | transport
  /-- The body of the answer broke off. -/
  | unreadable
  /-- The body of the answer is no registry record. -/
  | malformed
  /-- The registry gave a reason of its own. -/
  | reported (reason : String)
  deriving DecidableEq, Repr

/-- The words for a failed lookup. -/
def LookupFailure.message : LookupFailure → String
  | status code => s!"Registry error: {code}"
  | transport => "Transport error"
  | unreadable => "failed to read response"
  | malformed => "malformed registry response"
  | reported reason => reason

/-- Why a remote generator gave no policy. -/
inductive RemoteFailure where
  /-- The server answered with an error status. -/
  | status (code : Nat)
  /-- No answer arrived. -/
  | transport
  /-- The body of the answer broke off. -/
  | unreadable
  /-- The generator gave a reason of its own. -/
  | reported (reason : String)
  deriving DecidableEq, Repr

/-- The words for a failed generation. -/
def RemoteFailure.message : RemoteFailure → String
  | status code => s!"HTTP error: {code}"
  | transport => "Transport error"
  | unreadable => "failed to read response"
  | reported reason => reason

/-- Why a location database gave no location. -/
inductive DatabaseFailure where
  /-- The file breaks the format, for the given reason. -/
  | invalid (reason : String)
  /-- A record is well formed, but not of the expected kind. -/
  | decoding
  /-- No record covers the address. -/
  | addressNotFound
  /-- The file could not be read. -/
  | file (cause : FileError)
  /-- The database gave a reason of its own. -/
  | reported (reason : String)
  deriving DecidableEq, Repr

/-- The words for a failed database access. -/
def DatabaseFailure.message : DatabaseFailure → String
  | invalid reason => s!"InvalidDatabaseError: {reason}"
  | decoding => "DecodingError"
  | addressNotFound => "AddressNotFoundError: Address not found in database"
  | file cause => s!"IoError: {cause.message}"
  | reported reason => reason

/-! ## Settings -/

/-- Why a text is no YAML document of the expected shape. -/
inductive YamlFailure where
  /-- The text breaks the rules, or a value is of another kind. Nothing more is told. -/
  | malformed
  /-- A text that names no backend, in the mapping that starts at a place. -/
  | unknownBackend (text : String) (place : Yaml.Place)
  /-- A name or a tag that names no action, noticed at a place. -/
  | unknownAction (name : String) (place : Yaml.Place)
  /-- Another reason. -/
  | reported (reason : String)
  deriving DecidableEq, Repr

/-- What is said of a YAML failure after its kind. -/
def YamlFailure.details : YamlFailure → String
  | malformed => ""
  | unknownBackend text place => s!": invalid backend: {text}{place.words}"
  | unknownAction name place =>
    let expected := ", ".intercalate (Action.documentNames.map fun known => s!"`{known}`")
    s!": unknown variant `{name}`, expected one of {expected}{place.words}"
  | reported reason => s!": {reason}"

/-- Why a text is no JSON document of the expected shape. -/
inductive JsonFailure where
  /-- The text breaks the rules, or a value is of another kind. Nothing more is told. -/
  | malformed
  /-- Another reason. -/
  | reported (reason : String)
  deriving DecidableEq, Repr

/-- What is said of a JSON failure after its kind. -/
def JsonFailure.details : JsonFailure → String
  | malformed => ""
  | reported reason => s!": {reason}"

/-- Why a setting is unusable. -/
inductive ConfigFailure where
  /-- A generation time that is not a date and time of RFC 3339. -/
  | timestamp (text : String) (fault : Timestamp.Fault)
  /-- Another reason. -/
  | reported (reason : String)
  deriving DecidableEq, Repr

/-- The words for an unusable setting. -/
def ConfigFailure.message : ConfigFailure → String
  | timestamp text fault => s!"invalid timestamp {text}: {fault.message}"
  | reported reason => reason

/-! ## Operations -/

/-- A failure of an operation. -/
inductive Error where
  /-- A text that names no backend. -/
  | invalidBackend (text : String)
  /-- A backend that no script is generated for. -/
  | unsupportedBackend (backend : Backend)
  /-- A text that is no region code, in the form it was checked in. -/
  | invalidRegion (text : String)
  /-- A text that names no action. -/
  | invalidAction (text : String)
  /-- A text that is no address range. -/
  | invalidRange (text : String)
  /-- A text that is no address. -/
  | invalidAddress (text : String)
  /-- A registry lookup failed. -/
  | lookup (failure : LookupFailure)
  /-- A database lookup failed. -/
  | database (failure : DatabaseFailure)
  /-- A remote generator failed. -/
  | remote (failure : RemoteFailure)
  /-- A file could not be read or written. -/
  | file (cause : FileError)
  /-- A text is no YAML document of the expected shape. -/
  | yaml (failure : YamlFailure)
  /-- A text is no JSON document of the expected shape. -/
  | json (failure : JsonFailure)
  /-- A setting is unusable. -/
  | config (failure : ConfigFailure)
  deriving DecidableEq, Repr

/-- The sentence shown for an error. -/
def Error.message : Error → String
  | invalidBackend text => s!"invalid backend: {text}"
  | unsupportedBackend backend => s!"backend not implemented: {backend.name}"
  | invalidRegion text => s!"invalid region code (must be 2 letters): {text}"
  | invalidAction text => s!"invalid policy action: {text}"
  | invalidRange text => s!"invalid CIDR pattern: {text}"
  | invalidAddress text => s!"invalid IP address: {text}"
  | lookup failure => s!"lookup failed: {failure.message}"
  | database failure => s!"GeoIP error: {failure.message}"
  | remote failure => s!"remote generator error: {failure.message}"
  | file cause => s!"IO error: {cause.message}"
  | yaml failure => s!"YAML parsing error{failure.details}"
  | json failure => s!"JSON error{failure.details}"
  | config failure => s!"configuration error: {failure.message}"

end GeoPolicy
