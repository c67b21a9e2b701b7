/-
The chain head of a tracker that polls (`_update` and `_poll_loop` in `chain_head.py`).

`_run` comes here if it could not subscribe, with no block number yet.  What a call of the upstream
ends with is in `Model.UpstreamCall`; the identifiers are drawn from a counter that is shared with
the other callers.  `stop` sets the event and cancels the task in one go.
-/
import ExecRestApi.Model.Encoding
import ExecRestApi.Model.UpstreamCall

namespace ExecRestApi

open Py

/-- Where the task stands. -/
inductive TaskAt where
  /-- awaits `self._upstream.call` -/
  | calling
  /-- awaits `asyncio.wait_for` -/
  | pausing
  | returned
  | raised (e : Exc)
  | cancelled
  deriving DecidableEq

/-- `ChainHeadTracker`, with what it has asked the upstream for. -/
structure ChainHead where
  current : Option Nat
  /-- the `chain_head_block` gauge, once it has been set -/
  gauge : Option Nat
  /-- `_stop_event` -/
  stopEvent : Bool
  calls : List String
  task : TaskAt
  deriving DecidableEq

namespace ChainHead

/-- `_update` -/
def update (s : ChainHead) (blockNumber : Nat) : ChainHead :=
  { s with current := some blockNumber, gauge := some blockNumber }

/-- What `except (UpstreamError, UpstreamJsonRpcError, EncodingError)` catches. -/
def caught : Exc → Bool
  | .upstreamError _ => true
  | .jsonRpcError _ => true
  | .encodingError _ => true
  | _ => false

/-- The head of the loop, up to where it awaits the upstream. -/
def enter (s : ChainHead) : ChainHead :=
  if s.stopEvent then { s with task := .returned }
  else { s with calls := s.calls ++ ["eth_blockNumber"], task := .calling }

/-- The `try` statement, once the upstream has been heard from. -/
def poll (s : ChainHead) (out : Except Exc Json) : ChainHead :=
  match out >>= hexToInt with
  | .ok n => { s.update n with task := .pausing }
  | .error e => if caught e then { s with task := .pausing } else { s with task := .raised e }

/-- Neither returned nor raised. -/
def Running (s : ChainHead) : Prop := s.task = .calling ∨ s.task = .pausing

instance (s : ChainHead) : Decidable s.Running := inferInstanceAs (Decidable (_ ∨ _))

/-- The loop as it begins. -/
def start : ChainHead :=
  enter { current := none, gauge := none, stopEvent := false, calls := [], task := .calling }

/-- What happens to the task. -/
inductive Op where
  /-- What comes of the request with this identifier. -/
  | answer (id : Nat) (x : Exchange)
  /-- The interval is over. -/
  | elapse
  | stop
  deriving DecidableEq

/-- What the call in a round ends with. -/
def outcome (py : Printing) (depth : Nat) (onCall : Option OnCall) (id : Nat) (x : Exchange) :
    Except Exc Json :=
  (upstreamCall py depth onCall id "eth_blockNumber" [] x).1

/-- One step. -/
def step (py : Printing) (depth : Nat) (onCall : Option OnCall) (s : ChainHead) :
    Op → Option ChainHead
  | .answer id x =>
      if s.task = .calling then some (s.poll (outcome py depth onCall id x)) else none
  | .elapse => if s.task = .pausing then some s.enter else none
  | .stop =>
      some { s with stopEvent := true, task := if s.Running then .cancelled else s.task }

end ChainHead

end ExecRestApi
