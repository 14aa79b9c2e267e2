import GeoPolicy.Http
import GeoPolicy.Wire

/-!
# Registries

A registry is a server that knows the locations of addresses and answers with a JSON record.

## Main definitions

* `Registry.Record` — the parts of an answer that matter.
* `Registry.url` — where an address is asked for.
* `Registry.locationOf` — the location in an answer's body.
* `Registry.lookup` — a registry as a source of locations.
-/

namespace GeoPolicy

namespace Registry

open Json

/-- The registry that is asked where no other one is named. -/
def defaultServer : String := "https://ipapi.co"

/-- The parts of an answer that matter. -/
structure Record where
  error : Option Bool
  reason : Option String
  city : Option String
  region : Option String
  countryName : Option String
  countryCode : Option String
  org : Option String
  deriving DecidableEq, Repr

/-- The record of a JSON form. All members may be left out of an object; an array has to hold them
all, but for `null` in their places. -/
def Record.ofJson? (v : Json) : Option Record := do
  let names := ["error", "reason", "city", "region", "country_name", "country_code", "org"]
  let isShort := match v with
    | .array elements => decide (elements.length < names.length)
    | _ => false
  match ← fields? names v with
  | [error, reason, city, region, countryName, countryCode, org] =>
    if isShort then none
    else
      return {
        error := ← withDefault? none (optional? bool?) error
        reason := ← withDefault? none (optional? string?) reason
        city := ← withDefault? none (optional? string?) city
        region := ← withDefault? none (optional? string?) region
        countryName := ← withDefault? none (optional? string?) countryName
        countryCode := ← withDefault? none (optional? string?) countryCode
        org := ← withDefault? none (optional? string?) org }
  | _ => none

/-- The address to ask for the location of an internet address. -/
def url (server : String) (a : Address) : String :=
  Http.baseUrl server ++ "/" ++ a.text ++ "/json/"

/-- The request for the location of an address. -/
def request (server : String) (a : Address) : Http.Request where
  method := "GET"
  url := url server a
  contentType := none
  body := ""

/-- The location that a record tells. A record may tell an error instead. -/
def Record.location (r : Record) (a : Address) : Except Error Location :=
  if r.error.getD false then
    .error (.lookup (.reported (r.reason.getD "IP not found.")))
  else
    .ok {
      address := a
      country := Location.orUnknown r.countryName
      code := (r.countryCode.filter (· ≠ "")).getD Location.unknownCode
      region := Location.orUnknown r.region
      city := Location.orUnknown r.city
      isp := Location.orUnknown r.org }

/-- The location in the body of an answer. -/
def locationOf (a : Address) (body : String) : Except Error Location :=
  match (Json.parse? body).bind Record.ofJson? with
  | some record => record.location a
  | none => .error (.lookup .malformed)

/-- The location in an answer. -/
def receive (a : Address) : Option Http.Response → Except Error Location
  | none => .error (.lookup .transport)
  | some r =>
    if r.isError then .error (.lookup (.status r.status))
    else
      match r.text? with
      | none => .error (.lookup .unreadable)
      | some body => locationOf a body

/-- A registry as a source of locations. -/
def lookup (transport : Http.Transport) (server : String) : Lookup :=
  fun a => receive a (transport (request server a))

end Registry

end GeoPolicy
