/-
The upstream WebSocket from `start` to `stop` (`upstream_ws.py`).

`Model.UpstreamWs` is what a connection carries, `Model.UpstreamStart` is the loop that makes the
connections.  Here they are one object, and a task calls `stop` while the loop, the callers and the
upstream go on.  Once its task is cancelled the loop takes no step but to end; a caller can be
cancelled at any time.  That the loop raises with an empty schedule of delays, and `stop` with it,
is left out.

`stop` awaits `ws.close()`.  That waits in turn for whoever is in `receive`, with `ws.closed` still
false, so that for a while requests are taken and frames dispatched as before; then the socket is
marked closed, by `close` or by the loop on its way out, and only then is there an end to wait for.
-/
import ExecRestApi.Model.UpstreamStart
import ExecRestApi.Model.UpstreamWs

namespace ExecRestApi

/-- Where `stop` stands. -/
inductive Stopper where
  | idle
  /-- awaits `ws.close()` -/
  | closing
  /-- awaits the task it has cancelled -/
  | joining
  | stopped
  deriving DecidableEq

/-- `UpstreamWebSocket`, its loop and its end. -/
structure Lifetime where
  ws : UpstreamWs
  loop : WsStart
  stopper : Stopper

namespace Lifetime

/-- `start` has created the task. -/
def init : Lifetime := ⟨.init, .init, .idle⟩

/-- `_stopping` -/
def stopping (s : Lifetime) : Bool := decide (s.stopper ≠ .idle)

/-- `not self._reconnect or self._stopping` ends the loop. -/
def options (opts : WsOptions) (s : Lifetime) : WsOptions :=
  { opts with reconnect := opts.reconnect && !s.stopping }

/-- What happens next. -/
inductive Op where
  /-- A step of a caller, or the connection is lost or found so. -/
  | call (op : UpstreamWs.Op)
  /-- The task of a call is cancelled. -/
  | abandon (c : Nat)
  /-- `ws_connect` is over. -/
  | connect (attempt : Attempt)
  /-- `on_reconnect` is over. -/
  | reconnected (returned : Bool)
  | deliver (raw : String)
  /-- The loop leaves a closed socket. -/
  | leave (raised : Option Exc)
  | slept
  /-- `start` runs on. -/
  | wake
  | stop
  /-- `ws.close()` marks the socket closed. -/
  | shut
  /-- `ws.close()` has returned. -/
  | closed
  /-- `CancelledError` reaches the loop. -/
  | cancelled
  /-- `await self._task` is over. -/
  | joined

/-- The steps of the socket that the loop takes. -/
def ofLoop : UpstreamWs.Op → Bool
  | .connect => true
  | .reconnected _ => true
  | .deliver _ => true
  | .leave => true
  | _ => false

/-- `future.cancel()` -/
def cancelFuture : Future → Future
  | .pending => .cancelled
  | f => f

/-- The loop ends. -/
def ended (s : Lifetime) : Lifetime := { s with loop := { s.loop with forever := .ended } }

/-- `ws_connect` is over, for a loop that is not cancelled. -/
def connected (depth : Nat) (opts : WsOptions) (s : Lifetime) : Attempt → Option Lifetime
  | .established => do
      let ws ← s.ws.step depth .connect
      let loop ← s.loop.step (s.options opts) (.connect .established)
      some { s with ws, loop }
  | .failed e => do
      let loop ← s.loop.step (s.options opts) (.connect (.failed e))
      some { s with ws := s.ws.disconnected, loop }
  | .cancelled => none

/-- A step of the loop, which it does not take once it is cancelled. -/
def unlessCancelled (s : Lifetime) (x : Option Lifetime) : Option Lifetime :=
  if s.stopper = .joining then none else x

/-- One step. -/
def step (depth : Nat) (opts : WsOptions) (s : Lifetime) : Op → Option Lifetime
  | .call op =>
      if ofLoop op then none else (s.ws.step depth op).map fun ws => { s with ws }
  | .abandon c =>
      match s.ws.call c with
      | .sending _ rid _ => some { s with ws := s.ws.finish c rid (.error .other) }
      | .waiting _ rid f =>
          some { s with
            ws := (s.ws.setFuture f (cancelFuture (s.ws.future f))).finish c rid (.error .other) }
      | _ => none
  | .connect attempt => s.unlessCancelled (s.connected depth opts attempt)
  | .reconnected returned =>
      s.unlessCancelled ((s.ws.step depth (.reconnected returned)).map fun ws => { s with ws })
  | .deliver raw =>
      s.unlessCancelled ((s.ws.step depth (.deliver raw)).map fun ws => { s with ws })
  | .leave raised =>
      s.unlessCancelled do
        let ws ← s.ws.step depth .leave
        let loop ← s.loop.step (s.options opts) (.disconnect raised)
        some { s with ws, loop }
  | .slept =>
      s.unlessCancelled ((s.loop.step opts .slept).map fun loop =>
        -- `while not self._stopping`
        if s.stopping then s.ended else { s with loop })
  | .wake => (s.loop.step opts .wake).map fun loop => { s with loop }
  | .stop =>
      if s.stopper = .idle then
        some { s with stopper := if s.ws.connected then .closing else .joining }
      else none
  | .shut =>
      if s.stopper = .closing ∧ s.ws.connected = true then
        some { s with ws := { s.ws with closed := true } }
      else none
  | .closed =>
      if s.stopper = .closing ∧ s.ws.connected = false then some { s with stopper := .joining }
      else none
  | .cancelled =>
      if s.stopper = .joining then
        match s.loop.forever with
        | .connecting => some { s.ended with ws := s.ws.disconnected }
        | .connected => some { s.ended with ws := s.ws.disconnected }
        | .sleeping _ => some s.ended
        | .ended => none
      else none
  | .joined =>
      if s.stopper = .joining ∧ s.loop.forever = .ended then
        some { s with
          ws := s.ws.failPending (.upstreamWsClosed "ws stopped"), stopper := .stopped }
      else none

end Lifetime

end ExecRestApi
