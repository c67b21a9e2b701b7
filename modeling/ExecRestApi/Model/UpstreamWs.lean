/-
JSON-RPC over the upstream WebSocket (`upstream_ws.py`).

Several tasks call `request` while `_run_forever` connects, reads frames and connects
again; each segment between two `await`s is one step.  A call is named by a number of its
own, a socket by the order in which the connections came.  Futures are objects that
`_pending` and the call both point at, so they live in a heap.

A connection is lost before anybody knows.  `closed` is what `ws.closed` says of the socket
in `_ws`: it turns true when `receive` comes to the end of a lost connection, when the
heartbeat misses a pong, or when this side closes; until then requests are taken as before
and wait for answers that cannot come.  `lost` is the fact itself.  Frames that had reached
the socket by then are still there for `_read_loop` to take; a closed socket hands out none.
-/
import ExecRestApi.Lib.JsonLoads
import ExecRestApi.Model.Errors
import Mathlib.Logic.Function.Basic

namespace ExecRestApi

open Py

/-! ### Frames -/

/-- What a response does to the future that waits for it. -/
inductive Answer where
  /-- `set_result` -/
  | result (v : Json)
  /-- `set_exception` -/
  | error (e : Exc)
  /-- Building the exception raises. -/
  | raises (e : Exc)
  deriving DecidableEq

/-- A text frame, as `_dispatch` sorts them. -/
inductive Frame where
  /-- not JSON, no object, or without an integer id -/
  | ignored
  | notification (payload : Json)
  | reply (rid : Int) (answer : Answer)
  /-- `json.loads` raises what `except ValueError` does not catch. -/
  | breaks (e : Exc)
  deriving DecidableEq

/-- What `int(v)` raises, if it does. -/
def intRaises : Json → Option Exc
  | .int _ => none
  | .bool _ => none
  | .str s => if (int? s).isSome then none else some .valueError
  | .float lit =>
      if lit = "NaN" then some .valueError
      else if lit = "Infinity" ∨ lit = "-Infinity" ∨ floatOverflows lit then some .other
      else none
  | _ => some .typeError

/-- The exception for an `error` member. -/
def errorAnswer : Json → Answer
  | .obj err =>
      let code := (Json.field? err "code").getD (.int (-32603))
      match intRaises code with
      | some e => .raises e
      | none =>
          .error (.upstreamWsJsonRpcError code ((Json.field? err "message").getD (.str ""))
            ((Json.field? err "data").getD .null))
  | _ => .raises .attributeError

/-- The answer a response carries. -/
def answerOf (payload : List (String × Json)) : Answer :=
  match Json.field? payload "error" with
  | some err => errorAnswer err
  | none => .result ((Json.field? payload "result").getD .null)

/-- The first half of `_dispatch`: what kind of frame a text is. -/
def readFrame (depth : Nat) (raw : String) : Frame :=
  match Json.loads depth raw.toList with
  | .error .recursion => .breaks .recursionError
  | .error _ => .ignored
  | .ok (.obj payload) =>
      if (Json.field? payload "method").isSome ∧ (Json.field? payload "id").isNone then
        .notification (.obj payload)
      else
        match Json.field? payload "id" with
        | some (.int n) => .reply n (answerOf payload)
        -- `isinstance(True, int)`
        | some (.bool b) => .reply (if b then 1 else 0) (answerOf payload)
        | _ => .ignored
  | .ok _ => .ignored

/-! ### The state -/

/-- `asyncio.Future` -/
inductive Future where
  | pending
  | result (v : Json)
  | exception (e : Exc)
  /-- cancelled by the timeout -/
  | cancelled
  deriving DecidableEq

/-- Where a call of `request` stands. -/
inductive Call where
  | fresh
  /-- awaits `send_str` on a socket -/
  | sending (socket : Nat) (rid : Int) (future : Nat)
  /-- awaits its future -/
  | waiting (socket : Nat) (rid : Int) (future : Nat)
  | returned (rid : Int) (v : Json)
  /-- has raised; without an id if the socket was not connected -/
  | raised (rid : Option Int) (e : Exc)
  deriving DecidableEq

/-- Where `_run_forever` stands. -/
inductive Runner where
  /-- sleeps or connects -/
  | away
  /-- awaits `on_reconnect` -/
  | reconnecting
  /-- is in `_read_loop` -/
  | reading
  deriving DecidableEq

/-- `UpstreamWebSocket` and the calls of its `request`. -/
structure UpstreamWs where
  /-- The next value of `_id_counter`. -/
  nextId : Int
  /-- `_pending` -/
  pending : Dict Int Nat
  future : Nat → Future
  nextFuture : Nat
  call : Nat → Call
  runner : Runner
  /-- The socket in `_ws`. -/
  socket : Option Nat
  /-- Once its connection is lost: what has reached it and has not been taken. -/
  lost : Option (List String)
  closed : Bool
  nextSocket : Nat
  /-- `_connected_event` -/
  connectedEvent : Bool

namespace UpstreamWs

def init : UpstreamWs where
  nextId := 1
  pending := .empty
  future := fun _ => .pending
  nextFuture := 0
  call := fun _ => .fresh
  runner := .away
  socket := none
  lost := none
  closed := false
  nextSocket := 0
  connectedEvent := false

/-- `connected` -/
def connected (s : UpstreamWs) : Bool := s.socket.isSome && !s.closed

def setCall (s : UpstreamWs) (c : Nat) (x : Call) : UpstreamWs :=
  { s with call := Function.update s.call c x }

def setFuture (s : UpstreamWs) (f : Nat) (x : Future) : UpstreamWs :=
  { s with future := Function.update s.future f x }

/-! ### request -/

/-- `request`, up to its first `await`. -/
def request (s : UpstreamWs) (c : Nat) : UpstreamWs :=
  match s.socket, s.closed with
  | some g, false =>
      { s with
        nextId := s.nextId + 1
        pending := s.pending.set s.nextId s.nextFuture
        future := Function.update s.future s.nextFuture .pending
        nextFuture := s.nextFuture + 1 }.setCall c (.sending g s.nextId s.nextFuture)
  | _, _ => s.setCall c (.raised none (.upstreamWsClosed "ws not connected"))

/-- What `json.dumps` and `send_str` can raise. -/
def raisedBySend : Exc → Bool
  | .connectionResetError => true
  | .valueError => true
  | .typeError => true
  | .other => true
  | _ => false

/-- How `request` ends, and its `finally`. -/
def finish (s : UpstreamWs) (c : Nat) (rid : Int) (outcome : Except Exc Json) : UpstreamWs :=
  { s with pending := s.pending.erase rid }.setCall c
    (match outcome with
      | .ok v => .returned rid v
      | .error e => .raised (some rid) e)

/-- What a future that is done gives its waiter. -/
def Future.outcome : Future → Option (Except Exc Json)
  | .pending => none
  | .result v => some (.ok v)
  | .exception e => some (.error e)
  | .cancelled => some (.error .timeoutError)

/-! ### The connection -/

/-- `_fail_pending` -/
def failPending (s : UpstreamWs) (e : Exc) : UpstreamWs :=
  { s with
    future := fun f =>
      if f ∈ s.pending.values ∧ s.future f = .pending then .exception e else s.future f
    pending := .empty }

/-- The `finally` of `_run_forever`. -/
def disconnected (s : UpstreamWs) : UpstreamWs :=
  { s with runner := .away, socket := none, lost := none, closed := false }.failPending
    (.upstreamWsClosed "ws disconnected")

/-- The second half of `_dispatch`: a response goes to the future under its id.  What it raises
leaves `_read_loop` and closes the socket. -/
def dispatch (s : UpstreamWs) : Frame → UpstreamWs
  | .ignored => s
  | .notification _ => s
  | .breaks _ => { s with closed := true }
  | .reply rid answer =>
      match s.pending.get? rid with
      | none => s
      | some f =>
          match s.future f with
          | .pending =>
              match answer with
              | .result v => s.setFuture f (.result v)
              | .error e => s.setFuture f (.exception e)
              | .raises _ => { s with closed := true }
          | _ => s

/-- What `_dispatch` raises. -/
def raised (s : UpstreamWs) : Frame → Option Exc
  | .breaks e => some e
  | .reply rid (.raises e) =>
      match s.pending.get? rid with
      | none => none
      | some f => if s.future f = .pending then some e else none
  | _ => none

/-- What `on_notification` is called with. -/
def notified : Frame → Option Json
  | .notification payload => some payload
  | _ => none

/-- A new connection; every one but the first awaits `on_reconnect` before it reads. -/
def connect (s : UpstreamWs) : UpstreamWs :=
  { s with
    runner := if s.connectedEvent then .reconnecting else .reading
    socket := some s.nextSocket
    lost := none
    closed := false
    nextSocket := s.nextSocket + 1
    connectedEvent := true }

/-- `on_reconnect` has returned or raised. -/
def reconnected (s : UpstreamWs) (returned : Bool) : UpstreamWs :=
  { s with runner := .reading, closed := s.closed || !returned }

/-! ### The operations -/

/-- What happens to the socket and the calls. -/
inductive Op where
  | request (c : Nat)
  /-- `send_str` has returned. -/
  | sent (c : Nat)
  | sendFailed (c : Nat) (e : Exc)
  /-- The 30 seconds of a call are over. -/
  | expire (c : Nat)
  /-- A call whose future is done runs on. -/
  | resume (c : Nat)
  | connect
  | reconnected (returned : Bool)
  /-- `_read_loop` takes a text frame. -/
  | deliver (raw : String)
  /-- The connection is lost, with so many frames still to take. -/
  | drop (unread : List String)
  /-- `receive` or the heartbeat finds that it is lost. -/
  | notice
  /-- `_run_forever` leaves a closed socket. -/
  | leave

/-- Whether `_read_loop` takes frames. -/
def isReading (s : UpstreamWs) : Bool := s.runner == .reading && !s.closed

/-- What the socket of a lost connection still has once `raw` is taken. -/
def unreadAfter (s : UpstreamWs) (raw : String) : Option (Option (List String)) :=
  match s.lost with
  | none => some none
  | some [] => none
  | some (next :: rest) => if next = raw then some (some rest) else none

/-- One step. -/
def step (depth : Nat) (s : UpstreamWs) : Op → Option UpstreamWs
  | .request c =>
      match s.call c with
      | .fresh => some (s.request c)
      | _ => none
  | .sent c =>
      match s.call c with
      | .sending g rid f => some (s.setCall c (.waiting g rid f))
      | _ => none
  | .sendFailed c e =>
      match s.call c with
      | .sending _ rid _ => if raisedBySend e then some (s.finish c rid (.error e)) else none
      | _ => none
  | .expire c =>
      match s.call c with
      | .waiting _ _ f => some (s.setFuture f .cancelled)
      | _ => none
  | .resume c =>
      match s.call c with
      | .waiting _ rid f => (Future.outcome (s.future f)).map (s.finish c rid)
      | _ => none
  | .connect => if s.runner = .away then some s.connect else none
  | .reconnected returned =>
      if s.runner = .reconnecting then some (s.reconnected returned) else none
  | .deliver raw =>
      if s.isReading then
        (s.unreadAfter raw).map fun lost => { s.dispatch (readFrame depth raw) with lost := lost }
      else none
  | .drop unread =>
      if s.socket.isSome ∧ s.lost = none then some { s with lost := some unread } else none
  | .notice => if s.lost.isSome then some { s with closed := true } else none
  | .leave => if s.runner = .reading ∧ s.closed = true then some s.disconnected else none

end UpstreamWs

end ExecRestApi
