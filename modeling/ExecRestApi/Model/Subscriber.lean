/-
One stream from the subscription manager to the socket (`subscriptions.py`,
`handlers/streams.py`).

`events` of `_run_stream` is the `_ConsumerStream` the manager has returned: a call of
`__anext__` of `to_bytes` ends when the manager's queue for the stream has an event for it,
or at once if `to_bytes` has ended before.  The manager goes on serving its other tasks.
-/
import ExecRestApi.Model.LiveLoop

namespace ExecRestApi

/-- The manager, and the live loop of one of its streams. -/
structure Subscriber where
  mgr : Manager
  loop : LiveLoop

namespace Subscriber

/-- What happens. -/
inductive Op where
  /-- to the manager, except that the stream is read -/
  | manage (connected : Bool) (op : Manager.Op)
  /-- to the loop, except that it is given an event -/
  | proceed (op : LiveLoop.Op)
  /-- call `n` of `__anext__` takes the next event off the queue -/
  | take (connected : Bool) (n : Nat)

/-- The owner of the stream reads it. -/
def isRead (k : Nat) : Manager.Op → Bool
  | .read j _ => decide (j = k)
  | _ => false

/-- A call of `__anext__` that ends now has been given an event. -/
def isGiven (s : Stream) (events : Nat → StreamEvent) : LiveLoop.Op → Bool
  | .finish n => !s.endedBy events n
  | _ => false

/-- One step, where `k` is the stream and `events` are what it will be given. -/
def step (s : Stream) (k : Nat) (events : Nat → StreamEvent) (x : Subscriber) :
    Op → Option Subscriber
  | .manage connected op =>
      if isRead k op then none
      else (x.mgr.step (connected, op)).map fun m => { x with mgr := m }
  | .proceed op =>
      if isGiven s events op then none
      else (x.loop.step s events op).map fun c => { x with loop := c }
  | .take connected n =>
      if s.endedBy events n then none
      else
        match x.mgr.step (connected, .read k (events n)), x.loop.step s events (.finish n) with
        | some m, some c => some ⟨m, c⟩
        | _, _ => none

end Subscriber

end ExecRestApi
