/-
The middleware chain (`server.py`).

A middleware turns a handler into a handler.  What a handler does with a request is `Ended`:
a response or something raised, and what was logged and counted on the way.  The chain of
`create_app` is the four middlewares around whatever the router and the handler do, and
`seen` is what aiohttp then sends: an `HTTPException` is a response of its own, and any other
exception is answered with a plain 500.

A handler that prepares a response sends its headers.  That response is what the client gets,
however the handler ends: a header that is set later is not among those the client sees, and an
exception that is raised later is logged and counted, but there is no other response any more.
Durations are left out.
-/
import ExecRestApi.Model.Upstream

namespace ExecRestApi

open Py

/-! ### Requests and responses -/

/-- An aiohttp `HTTPException`, which is sent as plain text. -/
structure HttpException where
  status : Nat
  reason : String
  /-- the methods its `Allow` header names -/
  allowed : List String := []
  deriving DecidableEq

/-- What leaves a handler that does not return. -/
inductive Failure where
  /-- `HTTPNotFound` -/
  | notFound
  /-- any other `HTTPException` -/
  | http (x : HttpException)
  /-- any other exception -/
  | exc (e : Exc)
  deriving DecidableEq

/-- The content of a response. -/
inductive Content where
  | body (b : Body)
  | text (s : String)
  deriving DecidableEq

/-- `web.StreamResponse` -/
structure StreamResponse where
  status : Nat
  headers : List (String × String)
  content : Content
  deriving DecidableEq

/-- `resp.headers[name] = value` -/
def StreamResponse.setHeader (r : StreamResponse) (name value : String) : StreamResponse :=
  { r with headers := Dict.setIn name value r.headers }

/-- The value of a response header. -/
def StreamResponse.header? (r : StreamResponse) (name : String) : Option String :=
  Dict.lookupIn name r.headers

/-- A `web.Response` on its way. -/
def Response.stream (r : Response) : StreamResponse := ⟨r.status, r.headers, .body r.body⟩

/-- What the middlewares look at in a request. -/
structure Incoming where
  method : String
  path : String
  /-- its `X-Request-ID` header -/
  idHeader : Option String
  /-- `uuid.uuid4().hex` -/
  uuid : String
  /-- the canonical path of the resource the router matched -/
  resource : Option String
  /-- `request["request_id"]` -/
  requestId : Option String := none

/-- The fields of a line in the access log. -/
structure LogLine where
  requestId : Option String
  method : String
  path : String
  status : Nat
  deriving DecidableEq

/-- The arguments of `inc_request`. -/
structure Counted where
  method : String
  pathTemplate : String
  status : Nat
  deriving DecidableEq

/-- How a handler ends, and what is recorded by then. -/
structure Ended where
  outcome : Except Failure StreamResponse
  /-- the response that has been prepared, as its headers were then -/
  sent : Option StreamResponse := none
  logged : List LogLine := []
  counted : List Counted := []

/-- `Handler` -/
abbrev WebHandler := Incoming → Ended

/-- What the middlewares look at in `request.app`. -/
structure Server where
  /-- the canonical paths of `app.router.resources()` -/
  resources : List String
  /-- whether there is an `app["metrics"]` -/
  metrics : Bool
  /-- `app["chain_head"].current` -/
  chainHead : Option Int

/-- The `status` a middleware notes before it lets go. -/
def sentStatus : Except Failure StreamResponse → Nat
  | .ok r => r.status
  | .error .notFound => 404
  | .error (.http x) => x.status
  | .error (.exc _) => 500

/-! ### The middlewares -/

/-- `request.headers.get("X-Request-ID") or uuid.uuid4().hex` -/
def Incoming.rid (req : Incoming) : String :=
  match req.idHeader with
  | some s => if s = "" then req.uuid else s
  | none => req.uuid

/-- `request_id_middleware` -/
def requestIdMiddleware (handler : WebHandler) : WebHandler := fun req =>
  let ended := handler { req with requestId := some req.rid }
  { ended with outcome := ended.outcome.map fun r => r.setHeader "X-Request-ID" req.rid }

/-- `access_log_middleware` -/
def accessLogMiddleware (handler : WebHandler) : WebHandler := fun req =>
  let ended := handler req
  { ended with
    logged := ended.logged ++ [⟨req.requestId, req.method, req.path, sentStatus ended.outcome⟩] }

/-- `_path_template` -/
def pathTemplate (req : Incoming) : String := req.resource.getD "__not_found__"

/-- The headers `metrics_middleware` adds; the number of the block is printed. -/
def addChainHeaders (s : Server) (methods : List String) (r : StreamResponse) :
    Except Failure StreamResponse :=
  let r := if methods.isEmpty then r else r.setHeader "X-Upstream-Method" (",".intercalate methods)
  match s.chainHead with
  | none => .ok r
  | some n =>
      match strInt n with
      | .ok value => .ok (r.setHeader "X-Block-Height" value)
      | .error e => .error (.exc e)

/-- `metrics_middleware`, given the methods the handler has called -/
def metricsMiddleware (s : Server) (methods : List String) (handler : WebHandler) : WebHandler :=
  fun req =>
    let ended := handler req
    { ended with
      outcome := ended.outcome.bind (addChainHeaders s methods)
      counted := ended.counted ++
        if s.metrics then [⟨req.method, pathTemplate req, sentStatus ended.outcome⟩] else [] }

/-- `path.rstrip("/") or "/"` -/
def normalizedPath (path : String) : String :=
  let stripped := String.ofList (path.toList.reverse.dropWhile fun c => c == '/').reverse
  if stripped = "" then "/" else stripped

/-- `_available_url_templates` -/
def availableUrlTemplates (s : Server) : List String :=
  ((s.resources.map normalizedPath).eraseDups).mergeSort fun a b => decide (a ≤ b)

/-- `_with_instance` -/
def withInstance (p : Problem) (inst : String) : Problem := { p with inst := some inst }

/-- `return problem_response(problem)` -/
def respondProblem (p : Problem) : Except Failure StreamResponse :=
  match printProblem p with
  | .ok r => .ok r.stream
  | .error e => .error (.exc e)

/-- The problem of an upstream that failed. -/
def upstreamProblem (path msg : String) : Problem :=
  ⟨502, "upstream-error", "Upstream error", some ⟨msg, none⟩, some path, none, .null⟩

/-- The problem of any other exception. -/
def internalProblem (path : String) : Problem :=
  ⟨500, "internal-error", "Internal error", none, some path, none, .null⟩

/-- What `error_mapping_middleware` makes of an exception. -/
def mapFailure (s : Server) (req : Incoming) : Failure → Except Failure StreamResponse
  | .exc (.jsonRpcError e) => respondProblem (withInstance (mapJsonrpcError e) req.path)
  | .exc (.upstreamError msg) => respondProblem (upstreamProblem req.path msg)
  | .notFound =>
      respondProblem ⟨404, "path-not-supported", "Path not supported",
        some ⟨"No handler is registered for " ++ req.method ++ " " ++ req.path, none⟩,
        some req.path, none,
        .obj [("availableUrls", .arr ((availableUrlTemplates s).map .str))]⟩
  | .http x => .error (.http x)
  | .exc _ => respondProblem (internalProblem req.path)

/-- `error_mapping_middleware` -/
def errorMappingMiddleware (s : Server) (handler : WebHandler) : WebHandler := fun req =>
  let ended := handler req
  { ended with outcome := ended.outcome.tryCatch (mapFailure s req) }

/-- The chain of `create_app` around a handler. -/
def appChain (s : Server) (methods : List String) (handler : WebHandler) : WebHandler :=
  requestIdMiddleware (accessLogMiddleware (metricsMiddleware s methods
    (errorMappingMiddleware s handler)))

/-! ### What is sent -/

/-- An `HTTPException` as the response it is. -/
def HttpException.stream (x : HttpException) : StreamResponse where
  status := x.status
  headers := if x.allowed.isEmpty then [] else [("Allow", ",".intercalate x.allowed)]
  content := .text (toString x.status ++ ": " ++ x.reason)

/-- What aiohttp prepares at the end. -/
def finished : Except Failure StreamResponse → StreamResponse
  | .ok r => r
  | .error .notFound => HttpException.stream ⟨404, "Not Found", []⟩
  | .error (.http x) => x.stream
  | .error (.exc _) => HttpException.stream ⟨500, "Internal Server Error", []⟩

/-- What the client gets. -/
def seen (ended : Ended) : StreamResponse := ended.sent.getD (finished ended.outcome)

end ExecRestApi
