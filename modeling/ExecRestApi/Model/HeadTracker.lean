/-
The task of a `ChainHeadTracker` (`chain_head.py`).

`_run` subscribes to the new heads and follows them, or polls if it cannot.  What it keeps is
the `ChainHead` of the polling loop, whose `task` is where that loop stands once it has begun
and how the task has ended.  What comes of a `subscribe` that `stop` cancels is left out of
`Tracked`.
-/
import ExecRestApi.Model.ChainHead
import ExecRestApi.Model.Streams

namespace ExecRestApi

open Py

/-- Where `_run` stands. -/
inductive TrackerAt where
  /-- has not begun -/
  | created
  /-- awaits `self._subscriptions.subscribe` -/
  | subscribing
  /-- awaits the next event -/
  | reading
  /-- awaits `stream.aclose`, and how the task ends after it -/
  | closing (out : TaskAt)
  /-- polls, as `task` says -/
  | polling
  /-- has ended, as `task` says -/
  | ended
  deriving DecidableEq

/-- `ChainHeadTracker` -/
structure HeadTracker where
  head : ChainHead
  at_ : TrackerAt
  deriving DecidableEq

namespace HeadTracker

/-- `ChainHeadTracker(...)`, once `start` has made its task. -/
def init : HeadTracker := ⟨⟨none, none, false, [], .calling⟩, .created⟩

/-- The task has ended. -/
def finish (s : HeadTracker) (out : TaskAt) : HeadTracker :=
  ⟨{ s.head with task := out }, .ended⟩

/-- What `_consume_subscription` makes of the payload of an event. -/
def consume (s : ChainHead) (payload : Json) : ChainHead :=
  match payload with
  | .obj fields =>
      match Json.field? fields "number" with
      | some (.str numberHex) =>
          match hexToInt (.str numberHex) with
          | .ok n => s.update n
          | .error _ => s
      | _ => s
  | _ => s

/-- One turn of the loop in `_consume_subscription`. -/
def turn (s : HeadTracker) (ev : StreamEvent) : HeadTracker :=
  -- never so here: `stop` cancels the task in the same step in which it sets the event
  if s.head.stopEvent then { s with at_ := .closing .returned }
  else
    match ev with
    | .gap => s
    | .event payload => { s with head := consume s.head payload }

/-- `subscribe` has ended. -/
def subscribed (s : HeadTracker) : Except Raised Unit → HeadTracker
  | .ok _ => { s with at_ := .reading }
  | .error (.exception _) => ⟨s.head.enter, .polling⟩
  | .error .cancelled => s.finish .cancelled

/-- `aclose` has ended. -/
def closed (s : HeadTracker) (out : TaskAt) : Except Raised Unit → HeadTracker
  | .ok _ => s.finish out
  | .error (.exception e) => s.finish (.raised e)
  | .error .cancelled => s.finish .cancelled

/-- `stop`: the event is set, and the task is cancelled. -/
def stop (s : HeadTracker) : HeadTracker :=
  let s := { s with head := { s.head with stopEvent := true } }
  match s.at_ with
  | .created => s.finish .cancelled
  | .subscribing => s.finish .cancelled
  | .reading => { s with at_ := .closing .cancelled }
  | .closing _ => s.finish .cancelled
  | .polling =>
      if s.head.Running then { s with head := { s.head with task := .cancelled } } else s
  | .ended => s

/-- What happens to the task. -/
inductive Op where
  /-- The task begins. -/
  | begin
  | subscribed (r : Except Raised Unit)
  | event (ev : StreamEvent)
  | closed (r : Except Raised Unit)
  /-- What comes of the request with this identifier. -/
  | answer (id : Nat) (x : Exchange)
  /-- The interval is over. -/
  | elapse
  | stop

/-- One step, with a subscription manager or without one. -/
def step (py : Printing) (depth : Nat) (onCall : Option OnCall) (manager : Bool) (s : HeadTracker) :
    Op → Option HeadTracker
  | .begin =>
      if s.at_ = .created then
        some (if manager then { s with at_ := .subscribing } else ⟨s.head.enter, .polling⟩)
      else none
  | .subscribed r => if s.at_ = .subscribing then some (s.subscribed r) else none
  | .event ev => if s.at_ = .reading then some (s.turn ev) else none
  | .closed r =>
      match s.at_ with
      | .closing out => some (s.closed out r)
      | _ => none
  | .answer id x =>
      if s.at_ = .polling then
        (s.head.step py depth onCall (.answer id x)).map fun h => { s with head := h }
      else none
  | .elapse =>
      if s.at_ = .polling then
        (s.head.step py depth onCall .elapse).map fun h => { s with head := h }
      else none
  | .stop => some s.stop

end HeadTracker

/-- A tracker and the manager it has subscribed with. -/
structure Tracked where
  mgr : Manager
  tracker : HeadTracker

namespace Tracked

/-- What happens, once the tracker has its stream. -/
inductive Op where
  /-- to the manager, except that the stream is read or closed -/
  | manage (connected : Bool) (op : Manager.Op)
  /-- The tracker takes the next event off the queue. -/
  | take (connected : Bool) (ev : StreamEvent)
  /-- `stop`, which closes the stream -/
  | stop (connected : Bool)
  /-- `aclose` has ended, and with it the task -/
  | closed

/-- What only the tracker does to its stream. -/
def isOwn (k : Nat) : Manager.Op → Bool
  | .read j _ => decide (j = k)
  | .aclose j => decide (j = k)
  | _ => false

/-- One step, where `k` is the stream. -/
def step (py : Printing) (depth : Nat) (onCall : Option OnCall) (k : Nat) (x : Tracked) :
    Op → Option Tracked
  | .manage connected op =>
      if isOwn k op then none
      else (x.mgr.step (connected, op)).map fun m => { x with mgr := m }
  | .take connected ev =>
      match x.mgr.step (connected, .read k ev), x.tracker.step py depth onCall true (.event ev) with
      | some m, some t => some ⟨m, t⟩
      | _, _ => none
  | .stop connected =>
      if x.tracker.at_ = .reading then
        (x.mgr.step (connected, .aclose k)).map fun m => ⟨m, x.tracker.stop⟩
      else none
  | .closed =>
      if x.mgr.phase k = .closed then
        (x.tracker.step py depth onCall true (.closed (.ok ()))).map fun t => { x with tracker := t }
      else none

end Tracked

end ExecRestApi
