/-
One call of the upstream over HTTP (`UpstreamClient.call` in `upstream.py`).

`Exchange` is what comes of the request at the level of the HTTP library: an exception before
there is a response, or a response with its status and what reading its body gives.  `call`
follows the three nested `try` blocks over it, with `status` as it stands when the outermost
`finally` reports the call.
-/
import ExecRestApi.Lib.JsonRoundTrip
import ExecRestApi.Model.Upstream
import ExecRestApi.Model.UpstreamWs

namespace ExecRestApi

open Py

/-! ### The exchange -/

/-- What the HTTP library raises. -/
inductive HttpExc where
  /-- `aiohttp.ClientError`, with its text -/
  | clientError (text : String)
  /-- `asyncio.TimeoutError`, once the total time is over -/
  | timeoutError
  | other
  deriving DecidableEq

/-- What reading the body of a response gives. -/
inductive HttpBody where
  | unread (e : HttpExc)
  /-- The bytes are no text in the encoding of the response: `UnicodeDecodeError`, with its
  text. -/
  | undecodable (text : String)
  /-- The text without the blanks around it. -/
  | text (s : String)
  deriving DecidableEq

/-- What comes of the request. -/
inductive Exchange where
  | raised (e : HttpExc)
  | response (status : Int) (body : HttpBody)
  deriving DecidableEq

/-- What the standard library prints and rounds. -/
structure Printing where
  /-- The text of what `json.loads` raises. -/
  loadsError : String → String
  /-- `repr(v)` -/
  repr : Json → String
  /-- `str(v)` of a value that is no string. -/
  str : Json → String
  /-- `int(x)` of a finite number literal with a fraction or an exponent. -/
  truncate : String → Int

namespace Printing

variable (py : Printing)

/-- `int(v)` -/
def intOf (v : Json) : Except Exc Int :=
  match intRaises v with
  | some e => .error e
  | none =>
      match v with
      | .int n => .ok n
      | .bool b => .ok (if b then 1 else 0)
      | .str s => .ok ((int? s).getD 0)
      | .float lit => .ok (py.truncate lit)
      | _ => .error .typeError

/-- `str(v)` -/
def strOf : Json → String
  | .str s => s
  | v => py.str v

end Printing

/-! ### The call -/

/-- The status the observer is told. -/
inductive CallStatus where
  /-- `"ok"` -/
  | ok
  /-- `"error"` -/
  | error
  /-- `"transport-error"` -/
  | transportError
  deriving DecidableEq

/-- `OnCall`, without the duration. -/
abbrev OnCall := String → CallStatus → Except Exc Unit

/-- The calls of the observer that `_notify` makes. -/
def notifyCall (onCall : Option OnCall) (method : String) (status : CallStatus) :
    List (String × CallStatus) :=
  match onCall with
  | none => []
  | some observe =>
      match observe method status with
      | .ok _ => [(method, status)]
      -- logged, and no more
      | .error _ => [(method, status)]

/-- The body of the request. -/
def requestBody (id : Nat) (method : String) (params : List Json) : Json :=
  .obj [("jsonrpc", .str "2.0"), ("id", .int id), ("method", .str method), ("params", .arr params)]

/-- Printing the body, which `session.post` does before anything is sent. -/
def printBody (depth : Nat) (body : Json) : Except Exc (List Char) :=
  if depth < body.depth then .error .recursionError
  else
    match body.dumps with
    | some text => .ok text
    | none => .error .valueError

/-- What an exception of the HTTP library turns into. -/
def transportError : HttpExc → Exc
  | .clientError text => .upstreamError ("upstream transport error: " ++ text)
  | .timeoutError => .timeoutError
  | .other => .other

/-- `await resp.json(content_type=None)` of a body that could be read: nothing is `None`. -/
def bodyJson (depth : Nat) (s : String) : Except Json.LoadsError Json :=
  if s.toList = [] then .ok .null else Json.loads depth s.toList

/-- The inner `try` blocks: the payload of the response. -/
def callPayload (py : Printing) (depth : Nat) : Exchange → Except Exc Json
  | .raised e => .error (transportError e)
  | .response status body =>
      if status = 200 then
        match body with
        | .unread e => .error (transportError e)
        | .undecodable text => .error (.upstreamError ("upstream returned non-JSON body: " ++ text))
        | .text s =>
            match bodyJson depth s with
            | .ok payload => .ok payload
            | .error .recursion => .error .recursionError
            | .error _ =>
                .error (.upstreamError ("upstream returned non-JSON body: " ++ py.loadsError s))
      else .error (.upstreamError ("upstream HTTP " ++ String.ofList (intText status)))

/-- The rest of the outer `try` block: what the payload amounts to, and `status` by then. -/
def readPayload (py : Printing) (payload : Json) : CallStatus × Except Exc Json :=
  match payload with
  | .obj fields =>
      match Json.field? fields "error" with
      | some (.obj err) =>
          (.error, do
            let code ← py.intOf ((Json.field? err "code").getD (.int (-32603)))
            .error (.jsonRpcError ⟨code, py.strOf ((Json.field? err "message").getD (.str "")),
              (Json.field? err "data").getD .null⟩))
      | some err =>
          (.ok, .error (.upstreamError ("upstream error object malformed: " ++ py.repr err)))
      | none =>
          match Json.field? fields "result" with
          | some v => (.ok, .ok v)
          | none =>
              (.ok, .error (.upstreamError
                ("upstream response has neither result nor error: " ++ py.repr payload)))
  | _ => (.ok, .error (.upstreamError ("upstream returned non-object: " ++ py.repr payload)))

/-- The outer `try` block. -/
def tryCall (py : Printing) (depth : Nat) (body : Json) (x : Exchange) :
    CallStatus × Except Exc Json :=
  match printBody depth body with
  | .error e => (.ok, .error e)
  | .ok _ =>
      match callPayload py depth x with
      | .error e => (.ok, .error e)
      | .ok payload => readPayload py payload

/-- `except UpstreamError: status = "transport-error"` -/
def finalStatus (status : CallStatus) (out : Except Exc Json) : CallStatus :=
  match out with
  | .error (.upstreamError _) => .transportError
  | _ => status

/-- `UpstreamClient.call`: how it ends, and what the observer has been told. -/
def upstreamCall (py : Printing) (depth : Nat) (onCall : Option OnCall) (id : Nat)
    (method : String) (params : List Json) (x : Exchange) :
    Except Exc Json × List (String × CallStatus) :=
  let tried := tryCall py depth (requestBody id method params) x
  (tried.2, notifyCall onCall method (finalStatus tried.1 tried.2))

end ExecRestApi
