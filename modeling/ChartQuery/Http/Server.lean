import ChartQuery.Http.Endpoint
import ChartQuery.Service.RateLimiter
import ChartQuery.Service.Settings
import ChartQuery.Service.Sources

/-!
# The server

A request is led to its endpoint by its path. Requests for charts count against the limit of their
client, once their body has been read; those that come too often are refused whatever it holds.

## Main definitions

* `Http.Endpoint.ofPath?`: the endpoint of a path
* `Http.Server`: the registry of data sources and the limiter of requests
* `Http.ServerSetup.ofSettings`, `Http.Server.ofSettings`: what settings ask for
* `Http.Server.answer`, `Http.Server.run`: the responses to requests, and the server afterwards
-/

namespace ChartQuery.Http

/-! ## Paths -/

/-- What a path leads to. -/
inductive Endpoint where
  | root
  | health
  | chart
  | batch
  | tables
  | columns (table : String)
  deriving DecidableEq, Repr

namespace Endpoint

/-- What the path of the columns of a table begins with. -/
def columnsPath : String := "/api/database/schema/"

/-- The name of the table in the path of its columns. -/
def tableOfPath? (path : String) : Option String :=
  if columnsPath.toList.isPrefixOf path.toList then
    let name := path.toList.drop columnsPath.length
    if name.isEmpty || name.contains '/' then none else some (String.ofList name)
  else none

/-- The endpoint of a path. -/
def ofPath? (path : String) : Option Endpoint :=
  match path with
  | "/" => some root
  | "/health" => some health
  | "/api/database/chart-data" => some chart
  | "/api/database/chart-data/batch" => some batch
  | "/api/database/tables" => some tables
  | _ => (tableOfPath? path).map columns

/-- The method by which an endpoint is asked. -/
def method : Endpoint → String
  | chart | batch => "POST"
  | _ => "GET"

/-- Requests for charts count against the limit of their client. -/
def isLimited : Endpoint → Bool
  | chart | batch => true
  | _ => false

end Endpoint

/-- The path with the slashes at its end taken away, or with one put there. -/
def otherEnding (path : String) : String :=
  match path.toList.reverse with
  | '/' :: cs => String.ofList (cs.dropWhile (· == '/')).reverse
  | _ => path ++ "/"

/-- The path leads to an endpoint with the other ending. -/
def isMisended (path : String) : Bool := (Endpoint.ofPath? (otherEnding path)).isSome

/-- The response to a path that leads nowhere: it may lead on to the other ending. -/
def answerUnknown (path : String) : Response :=
  if isMisended path then ⟨307, .null⟩ else .detail 404 "Not Found"

/-! ## Serving -/

/-- How data sources are opened, how charts are made, and how many a batch may have. -/
structure ServerSetup where
  opener : Opener
  policy : ServicePolicy
  mostCharts : Int

/-- The setup that settings ask for. -/
def ServerSetup.ofSettings (opener : Opener) (s : Settings) : ServerSetup :=
  ⟨opener, ⟨s.rowLimits, Sql.procedureNames s.storedProcedureWhitelist⟩, s.maxBatchSize⟩

/-- The services over a registry of data sources. -/
def ServerSetup.services (setup : ServerSetup) : Services (StateM Registry) where
  chart := Registry.chart setup.opener setup.policy
  tables id := Registry.listTables setup.opener id
  columns id table := Registry.describeTable setup.opener id table
  mostCharts := setup.mostCharts

/-- The registry of data sources and the limiter of requests. -/
structure Server (τ : Type) where
  registry : Registry
  limiter : RateLimiter τ

/-- The server of settings before its first request. -/
def Server.ofSettings (s : Settings) : Server ClockReading where
  registry := .new (some s.databasePath) s.connections (some s.maxConnections) s.readOnly
    s.allowExternalAccess
  limiter := .new s.rateLimitRequests (.whole s.rateLimitWindowSeconds)

/-- The name under which the requests of a client are counted. -/
def clientKey (client : Option String) : String := client.getD "unknown"

/-- The response to a client whose requests come too often. -/
def tooMany (remaining : Int) : Response :=
  .refusal 429 ("Too many requests, try again later. Remaining: " ++ toString remaining)

/-- The response of an endpoint whose limit allows the request. -/
def Services.answer {m : Type → Type} [Monad m] (s : Services m) (e : Endpoint) (r : Request) :
    m Response :=
  match e with
  | .root => pure ⟨200, .object [("name", .text "Chart Data Engine"), ("version", .text "0.1.0"),
      ("status", .text "running")]⟩
  | .health => pure ⟨200, .object [("status", .text "healthy")]⟩
  | .chart => s.answerChart r.body
  | .batch => s.answerBatch r.body
  | .tables => s.answerTables r.query
  | .columns table => s.answerColumns r.query table

/-- The body cannot be read at all. -/
def Body.isMalformed : Body → Bool
  | .unreadable | .malformed _ => true
  | _ => false

section Serving

variable {τ : Type} [Sub τ] [LT τ] [DecidableLT τ]

/-- The response of an endpoint whose requests are counted, and the server afterwards. -/
def Server.answerLimited (setup : ServerSetup) (now : τ) (e : Endpoint) (r : Request)
    (server : Server τ) : Response × Server τ :=
  let client := clientKey r.client
  let (allowed, limiter) := server.limiter.request client now
  if allowed then
    let (response, registry) := (setup.services.answer e r).run server.registry
    (response, ⟨registry, limiter⟩)
  else
    let (n, limiter) := limiter.remaining client now
    (tooMany n, ⟨server.registry, limiter⟩)

/-- The response of an endpoint, and the server afterwards. A body that cannot be read is not
counted. -/
def Server.answerAt (setup : ServerSetup) (now : τ) (e : Endpoint) (r : Request)
    (server : Server τ) : Response × Server τ :=
  if e.isLimited && !r.body.isMalformed then server.answerLimited setup now e r
  else
    let (response, registry) := (setup.services.answer e r).run server.registry
    (response, { server with registry })

/-- The response to a request, and the server afterwards. -/
def Server.answer (setup : ServerSetup) (now : τ) (r : Request) (server : Server τ) :
    Response × Server τ :=
  match Endpoint.ofPath? r.path with
  | none => (answerUnknown r.path, server)
  | some e =>
    if r.method = e.method then server.answerAt setup now e r
    else (.detail 405 "Method Not Allowed", server)

/-- The responses to requests at times, and the server afterwards. -/
def Server.run (setup : ServerSetup) (server : Server τ) :
    List (τ × Request) → List Response × Server τ
  | [] => ([], server)
  | (now, r) :: rest =>
    let (response, server) := server.answer setup now r
    let (responses, server) := server.run setup rest
    (response :: responses, server)

end Serving

/-- The server at its end: all pools are closed. -/
def Server.stop {τ : Type} (server : Server τ) : Server τ :=
  { server with registry := server.registry.closeAll }

end ChartQuery.Http
