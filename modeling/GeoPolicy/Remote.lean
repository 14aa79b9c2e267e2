import GeoPolicy.Http
import GeoPolicy.Parity
import GeoPolicy.Wire

/-!
# Remote generators

A remote generator is a server that is sent a generate request and answers with a script, either
bare or together with its ruleset as JSON.

## Main definitions

* `Remote.endpoint` — where a server is asked.
* `Remote.request` — what it is asked.
* `Remote.policyOf` — the policy in an answer.
* `Generator.remote` — a server as a generator.
-/

namespace GeoPolicy

namespace Remote

/-- The address that generate requests are sent to. -/
def endpoint (server : String) : String :=
  Http.baseUrl server ++ "/v1/generate"

/-- The request for a policy. -/
def request (server : String) (p : Policy) : Http.Request where
  method := "POST"
  url := endpoint server
  contentType := some "application/json"
  body := (GenerateRequest.ofPolicy p).toJson.compact

/-- The policy in the body of an answer. A JSON body holds script and ruleset, and its rules are
marked as remote ones; any other body is the script alone. -/
def policyOf (mediaType body : String) : Except Error CompiledPolicy :=
  if Text.startsWith "application/json".toList mediaType.toList then do
    let policy ← decode CompiledPolicy.ofJson? body
    return { policy with ruleset := policy.ruleset.markRemote }
  else
    .ok { script := body, ruleset := .empty }

/-- The policy in an answer. -/
def receive : Option Http.Response → Except Error CompiledPolicy
  | none => .error (.remote .transport)
  | some r =>
    if r.isError then .error (.remote (.status r.status))
    else
      match r.text? with
      | none => .error (.remote .unreadable)
      | some body => policyOf r.mediaType body

end Remote

/-- A server as a generator. It is named by its address. -/
def Generator.remote (transport : Http.Transport) (server : String) : Generator where
  name := Http.baseUrl server
  generate p := Remote.receive (transport (Remote.request server p))

end GeoPolicy
