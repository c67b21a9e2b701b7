/-
Starting the upstream WebSocket (`upstream_ws.py`).

`start` waits for an event that `_run_forever` sets, and reads the error that it has left.  What a
connection carries is in `Model.UpstreamWs`; here a connection is established, or fails, and ends.
`stop` is not called while `start` waits, so `_stopping` is false throughout.
-/
import ExecRestApi.Model.Errors

namespace ExecRestApi

/-- The arguments of `UpstreamWebSocket` that `_run_forever` reads: the delays are milliseconds. -/
structure WsOptions where
  reconnect : Bool
  backoffSchedule : List Nat

/-- How an attempt to connect ends. -/
inductive Attempt where
  | established
  /-- any `Exception` -/
  | failed (e : Exc)
  | cancelled
  deriving DecidableEq

/-- Where `_run_forever` stands. -/
inductive ForeverAt where
  /-- awaits `ws_connect` -/
  | connecting
  /-- is inside `async with` -/
  | connected
  | sleeping (delay : Nat)
  /-- has returned or raised -/
  | ended
  deriving DecidableEq

/-- Where `start` stands. -/
inductive Starter where
  /-- awaits `_connected_event` -/
  | waiting
  | returned
  /-- has raised `UpstreamWsClosed`, which names the error -/
  | raised (cause : Exc)
  deriving DecidableEq

/-- What `start` and `_run_forever` share, and where they stand. -/
structure WsStart where
  /-- `_connected_event` -/
  connectedEvent : Bool
  /-- `_first_connect_error` -/
  firstConnectError : Option Exc
  attempt : Nat
  forever : ForeverAt
  starter : Starter
  deriving DecidableEq

namespace WsStart

def init : WsStart where
  connectedEvent := false
  firstConnectError := none
  attempt := 0
  forever := .connecting
  starter := .waiting

/-- `except Exception as exc` -/
def caught (s : WsStart) (e : Exc) : WsStart :=
  { s with firstConnectError := if s.connectedEvent then s.firstConnectError else some e }

/-- What follows the `try` statement.  An empty schedule has no last delay. -/
def goOn (opts : WsOptions) (s : WsStart) : WsStart :=
  if !opts.reconnect then { s with connectedEvent := true, forever := .ended }
  else
    match opts.backoffSchedule[min s.attempt (opts.backoffSchedule.length - 1)]? with
    | some delay => { s with attempt := s.attempt + 1, forever := .sleeping delay }
    | none => { s with forever := .ended }

/-- What happens to the two tasks. -/
inductive Op where
  | connect (attempt : Attempt)
  /-- The connection has ended: `_read_loop` has returned, or something has raised. -/
  | disconnect (raised : Option Exc)
  | cancel
  | slept
  /-- `start` runs on, once the event is set. -/
  | wake
  deriving DecidableEq

/-- One step. -/
def step (opts : WsOptions) (s : WsStart) : Op → Option WsStart
  | .connect attempt =>
      if s.forever = .connecting then
        match attempt with
        | .established =>
            some { s with attempt := 0, connectedEvent := true, forever := .connected }
        | .failed e => some ((s.caught e).goOn opts)
        | .cancelled => some { s with forever := .ended }
      else none
  | .disconnect raised =>
      if s.forever = .connected then
        match raised with
        | none => some (s.goOn opts)
        | some e => some ((s.caught e).goOn opts)
      else none
  | .cancel => if s.forever = .connected then some { s with forever := .ended } else none
  | .slept =>
      match s.forever with
      | .sleeping _ => some { s with forever := .connecting }
      | _ => none
  | .wake =>
      if s.starter = .waiting ∧ s.connectedEvent = true then
        match s.firstConnectError with
        | none => some { s with starter := .returned }
        | some e => some { s with starter := .raised e }
      else none

end WsStart

end ExecRestApi
