/-
A stream and the manager it has subscribed with (`handlers/streams.py`,
`subscriptions.py`).

`subscribe` and `aclose` of `_run_stream` are calls of the manager, which serves its other
consumers and its socket meanwhile.  The call of `aclose` is made in the step in which the
live loop is left.  Either call can wait for the lock, and it ends when the manager says
so: it has no other way to return.

A task that is cancelled while its `aclose` awaits the lock gives up its place in the
queue.  `_closed` has been set by then, so no later call goes for the lock again.  The
machine stops when the stream is left; what comes of a `subscribe` that is cancelled is
left out.
-/
import ExecRestApi.Model.Streams

namespace ExecRestApi

open Py

/-- The manager, and where one of its streams stands. -/
structure Consumer where
  mgr : Manager
  at_ : At

namespace Consumer

/-- What happens. -/
inductive Op where
  /-- to the manager, by another of its callers or by its socket -/
  | manage (connected : Bool) (op : Manager.Op)
  /-- The stream calls `subscribe`. -/
  | call (connected : Bool)
  /-- An `await` of the stream ends. -/
  | moment (connected : Bool) (m : Moment)

/-- What only the stream asks of the manager. -/
def isOwn (k : Nat) : Manager.Op → Bool
  | .subscribe j _ _ => decide (j = k)
  | .aclose j => decide (j = k)
  | _ => false

/-- How a call can end, as far as the manager is. -/
def mayEnd (m : Manager) (k : Nat) : Moment → Bool
  | .returned (.subscribe _ _) (.ok _) =>
      match m.phase k with
      | .streaming _ _ => true
      | _ => false
  | .returned (.subscribe _ _) (.error (.exception e)) => decide (m.phase k = .failed e)
  | .returned (.subscribe _ _) (.error .cancelled) => false
  -- cancelled, wherever it stands
  | .returned .aclose (.error .cancelled) => true
  | .returned .aclose _ => decide (m.phase k = .closed)
  | _ => true

/-- A call that is cancelled awaits the lock no longer. -/
def after (m : Manager) (k : Nat) : Moment → Manager
  | .returned .aclose (.error .cancelled) => { m with waiters := m.waiters.erase (.consumer k) }
  | _ => m

/-- One step, where `k` is the stream. -/
def step (s : Stream) (k : Nat) (x : Consumer) : Op → Option Consumer
  | .manage connected op =>
      match x.at_ with
      | .left _ => none
      | _ =>
          if isOwn k op then none
          else (x.mgr.step (connected, op)).map fun m => { x with mgr := m }
  | .call connected =>
      match x.at_ with
      | .subscribing =>
          (x.mgr.step (connected, .subscribe k s.kind s.params)).map fun m => { x with mgr := m }
      | _ => none
  | .moment connected mo =>
      if mayEnd x.mgr k mo then
        match s.step x.at_ mo with
        | none => none
        | some (.closing out) =>
            (x.mgr.step (connected, .aclose k)).map fun m => ⟨m, .closing out⟩
        | some a => some ⟨after x.mgr k mo, a⟩
      else none

/-- `_run_stream` begins. -/
def init : Consumer := ⟨.init, .subscribing⟩

end Consumer

end ExecRestApi
