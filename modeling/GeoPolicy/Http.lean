import GeoPolicy.Text.Utf8
import GeoPolicy.Text.Blank

/-!
# HTTP exchanges

What the library asks of a server and what it learns from the answer. How the bytes travel is left
to a transport.

## Main definitions

* `Http.Request`, `Http.Response` — the two sides of an exchange.
* `Http.Transport` — a way to reach servers.
* `Http.Response.mediaType`, `Http.Response.text?` — an answer as the library reads it.
-/

namespace GeoPolicy

namespace Http

/-- A request. -/
structure Request where
  method : String
  url : String
  contentType : Option String
  body : String
  deriving DecidableEq, Repr

/-- An answer. The body is incomplete where the connection broke off before its announced end. -/
structure Response where
  status : Nat
  contentType : Option String
  body : List UInt8
  isComplete : Bool := true
  deriving DecidableEq, Repr

/-- A way to reach servers; nothing where no answer arrives. -/
abbrev Transport := Request → Option Response

/-- The transport that reaches no server. -/
def Transport.none : Transport := fun _ => Option.none

namespace Response

/-- Whether the status tells of an error. -/
def isError (r : Response) : Bool :=
  400 ≤ r.status

/-- The kind of content: the content type up to its parameters. Without one, it is plain text. -/
def mediaType (r : Response) : String :=
  match r.contentType with
  | some header => String.ofList (header.toList.takeWhile (· ≠ ';'))
  | none => "text/plain"

/-- The longest body that is read as text, in bytes. -/
def textLimit : Nat := 10 * 1024 * 1024

/-- The body as text, if it is complete and not too long. -/
def text? (r : Response) : Option String :=
  if r.isComplete ∧ r.body.length ≤ textLimit then some (Utf8.decodeLossy r.body) else none

end Response

/-- An address of a server without the slashes at its end. -/
def baseUrl (s : String) : String :=
  String.ofList (s.toList.reverse.dropWhile (· = '/')).reverse

end Http

end GeoPolicy
