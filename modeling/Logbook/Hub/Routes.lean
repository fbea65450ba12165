import Logbook.Hub.Message
import Logbook.Ingest
import Logbook.Store

/-!
# The hub

A hub holds a store and answers requests.  It tells how many records there are, takes records in,
runs queries and checks them.

* `Route`: what can be asked, and under which path and method.
* `Hub.handle`: the response to a request, and the store after it.
* `Hub.run`: the responses to requests in turn.
-/

namespace Logbook

/-! ## Routes -/

/-- What a hub can be asked for. -/
inductive Route where
  | status
  | logs
  | query
  | validate
deriving DecidableEq, Repr

namespace Route

/-- The path of a route. -/
def path : Route → String
  | status => "/api/status"
  | logs => "/api/logs"
  | query => "/api/logs/query"
  | validate => "/api/logs/query/validate"

/-- All routes. -/
def all : List Route := [status, logs, query, validate]

/-- The route that has a path. -/
def ofPath? (path : String) : Option Route := all.find? fun route => route.path = path

end Route

/-! ## Answers -/

/-- A failure that is not an answer to a query. -/
def Response.failure (status : Nat) (message : String) : Response :=
  .json status (.map [("success", .bool false), ("error", .str message)])

/-- A failure that answers a query. -/
def Response.queryFailure (status : Nat) (message : String) (issues : List (String × Value)) :
    Response :=
  .json status (.map ([("success", .bool false), ("data", .list []), ("count", .ofNat 0),
    ("error", .str message)] ++ issues))

/-- The issues of a query, as a member. -/
def Issue.member (issues : List Issue) : String × Value :=
  ("errors", .list (issues.map Issue.toValue))

/-- The failure of a query. -/
def Response.ofQueryError : QueryError → Response
  | .invalid issues => .queryFailure 400 (Issue.summary issues) [Issue.member issues]
  | .store error => .queryFailure 500 error.message []

/-- The success of a query. -/
def Response.ofAnswer (a : Answer) : Response :=
  .json 200 (.map [("success", .bool true), ("data", .list a.data), ("count", .ofNat a.count),
    ("total-count", .ofNat a.totalCount)])

/-- The verdict on a query. -/
def Query.verdict (raw : Value) : Value :=
  match issues raw with
  | [] => .map [("valid", .bool true)]
  | found => .map [("valid", .bool false), Issue.member found]

/-! ## The hub -/

/-- A hub: its settings, and what it calls its store. -/
structure Hub where
  settings : Settings
  storeName : String

/-- What a hub takes from the world when it is asked. -/
structure Moment where
  supply : Supply
  /-- The seconds since the hub was started. -/
  uptime : Nat

namespace Hub

/-- The version that a hub states. -/
def version : String := "0.1.0"

/-- Tells about the hub and the number of its records. -/
def status (hub : Hub) (moment : Moment) (store : Store) : Response :=
  match store.readAll with
  | .error e => .failure 500 e.message
  | .ok records =>
    .json 200 (.map [("version", .str version), ("store", .str hub.storeName),
      ("records", .ofNat records.length), ("uptime_seconds", .ofNat moment.uptime)])

/-- Takes a payload in. -/
def ingest (hub : Hub) (moment : Moment) (payload : Value) (store : Store) : Response × Store :=
  match Payload.prepare hub.settings.rules moment.supply payload with
  | .error refusal => (.failure 400 refusal.message, store)
  | .ok records =>
    match store.appendAll records with
    | (.ok count, store) =>
      (.json 201 (.map [("success", .bool true), ("count", .ofNat count)]), store)
    | (.error e, store) => (.failure 500 e.message, store)

/-- Answers a query. -/
def query (raw : Value) (store : Store) : Response :=
  match store.execute raw with
  | .ok answer => .ofAnswer answer
  | .error e => .ofQueryError e

/-- Checks a query. -/
def validate (raw : Value) : Response := .json 200 (Query.verdict raw)

/-- Answers a request for a route by the method `POST`. -/
def post (hub : Hub) (moment : Moment) (route : Route) (request : Request) (store : Store) :
    Response × Store :=
  match route, request.payload hub.settings.maxBodyBytes with
  | .status, _ => (.empty 405, store)
  | .logs, .ok payload => hub.ingest moment payload store
  | .query, .ok raw => (query raw store, store)
  | .validate, .ok raw => (validate raw, store)
  | .query, .error rejection => (.queryFailure rejection.status rejection.message [], store)
  | _, .error rejection => (.failure rejection.status rejection.message, store)

/-- The response to a request, and the store after it.  The method `OPTIONS` is answered on every
path, and `HEAD` wherever `GET` is. -/
def handle (hub : Hub) (moment : Moment) (request : Request) (store : Store) : Response × Store :=
  if request.method = "OPTIONS" then (.empty 200, store)
  else
    match Route.ofPath? request.path, request.method with
    | none, _ => (.empty 404, store)
    | some .status, "GET" => (hub.status moment store, store)
    | some .status, "HEAD" => ((hub.status moment store).withoutBody, store)
    | some route, "POST" => hub.post moment route request store
    | some _, _ => (.empty 405, store)

/-- The responses to requests in turn, each with the store after it. -/
def run (hub : Hub) : List (Moment × Request) → Store → List (Response × Store)
  | [], _ => []
  | (moment, request) :: rest, store =>
    let after := hub.handle moment request store
    after :: run hub rest after.2

end Hub

end Logbook
