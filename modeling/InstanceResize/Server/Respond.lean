import InstanceResize.Engine.Program
import InstanceResize.Relay.Session
import InstanceResize.Server.ApiDocument
import InstanceResize.Server.Route

/-!
# Answering requests

* `respond`: the answer to a request. Listings and readings ask the provider.
* `connect`: what a client that wants a connection gets: a session, or a response.
-/

namespace InstanceResize.Server

/-- An error with its kind, for programs to read. -/
def errorDocument (kind message : String) : Document :=
  .table [("error", .text kind), ("message", .text message)]

/-- The response to an error of the provider. -/
def errorResponse (e : ProviderError) : Response :=
  match e with
  | .notFound id => .document 404 (errorDocument "not_found" ("Instance not found: " ++ id))
  | .rejected .. => .document 409 (errorDocument "provider_rejected" e.message)
  | .unreachable _ => .document 502 (errorDocument "provider_unreachable" e.message)

/-- Asks the provider, and responds with its answer. -/
def asking (c : Call) (response : c.Result → Response) : Program Response :=
  .call c fun
    | .ok a => .done (response a)
    | .error e => .done (errorResponse e)

/-- What a request for a connection lacks, checked in a fixed order. -/
def upgradeProblem (r : HttpRequest) : Response :=
  let has (name : String) (accepts : List Char → Bool) : Bool :=
    ((r.header? name).map fun v => accepts (v.toList.map Char.toLower)).getD false
  if !has "connection" (HttpRequest.hasPart "upgrade".toList) then
    .plain 400 "Connection header did not include 'upgrade'"
  else if !has "upgrade" (· == "websocket".toList) then
    .plain 400 "`Upgrade` header did not include 'websocket'"
  else if (r.header? "sec-websocket-key").isNone then
    .plain 400 "`Sec-WebSocket-Key` header missing"
  else if r.header? "sec-websocket-version" ≠ some "13" then
    .plain 400 "`Sec-WebSocket-Version` header did not include '13'"
  else .plain 426 "WebSocket request couldn't be upgraded since no upgrade state was present"

/-- The answer to a request to read what a route stands for. -/
def read (provider : String) (r : HttpRequest) : Route → Program Response
  | .health => .done (.value Health.schema ⟨"ok", ApiDocument.version, provider⟩)
  | .apiDocument => .done (.document 200 ApiDocument.document)
  | .instances => asking .instances (.value (.list Summary.schema))
  | .instanceTypes => asking .instanceTypes (.value (.list InstanceType.schema))
  | .addresses => asking .addresses fun as => .value (.list Address.schema) (Address.openOnes as)
  | .status id =>
    match Route.decodeId id with
    | .ok id => asking (.status id) fun s => .value statusSchema (s, s.state)
    | .error response => .done response
  | .workflow _ _ =>
    if r.method = "GET" then .done (upgradeProblem r)
    else .done (.plain 405 "Request method must be `GET`")

/-- The methods that every path knows. -/
def methods : String := "GET,HEAD"

/-- The answer to a request. -/
def respond (provider : String) (r : HttpRequest) : Program Response :=
  let route? := Route.ofPath? r.path
  if r.method = "OPTIONS" then .done (.empty 200 (route?.map fun _ => methods))
  else
    match route? with
    | none => .done (.empty 404 none)
    | some route =>
      if r.method = "GET" then read provider r route
      else if r.method = "HEAD" then return (← read provider r route).withoutBody
      else .done (.empty 405 (some methods))

/-- The state that a query declares. -/
def declaredState (query : String) : Except Response String :=
  let problem (reason : String) :=
    Response.plain 400 ("Failed to deserialize query string: " ++ reason)
  match (Text.Percent.decodeForm query).filter (·.1 == "state") with
  | [] => .error (problem "missing field `state`")
  | [(_, state)] => .ok state
  | _ => .error (problem "duplicate field `state`")

/-- What a client that wants a connection gets. -/
def connect (provider : String) (target : String) : Except (Program Response) Relay.Session :=
  let r : HttpRequest := ⟨"GET", target, []⟩
  match Route.ofPath? r.path with
  | some (.workflow id kind) =>
    match Route.decodeId id with
    | .error response => .error (.done response)
    | .ok instanceId =>
      match declaredState r.query with
      | .error response => .error (.done response)
      | .ok declaredState => .ok { instanceId, declaredState, kind }
  | _ => .error (respond provider r)

end InstanceResize.Server
