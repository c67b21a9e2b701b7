/-
`stream_with_heartbeat` (`sse.py`).

A source is what its `__anext__` gives, call by call.  Each call runs in a task of its own, which
`shield` keeps running when `wait_for` times out; the tasks are listed in the order they were
created, and `next_task` points at one of them.  The interval may expire at any time while the
generator waits, also when the task has just finished.  A task that has finished by the time
`shield` is called is read at once.  The consumer that closes the generator is left out.
-/
import Mathlib
import ExecRestApi.Model.Sse

namespace ExecRestApi

open Py

/-- What `__anext__` gives. -/
inductive Given where
  | chunk (bytes : ByteArray)
  /-- `StopAsyncIteration` -/
  | stop
  | raised (e : Exc)
  deriving DecidableEq

/-- What the generator yields: a chunk of its source, or a ping of its own. -/
inductive Yielded where
  | chunk (bytes : ByteArray)
  | ping (now : Int)
  deriving DecidableEq

/-- The bytes that are yielded. -/
def Yielded.bytes : Yielded → ByteArray
  | chunk bytes => bytes
  | ping now => (SseFrame.comment (String.ofList ("ping ".toList ++ intText now))).bytes

/-- Where the generator stands. -/
inductive GeneratorAt where
  /-- has not started, or has yielded -/
  | suspended
  /-- awaits `wait_for` -/
  | waiting
  | returned
  | raised (e : Exc)
  deriving DecidableEq

/-- The generator and the tasks it has created. -/
structure Heartbeat where
  /-- what each task has come to, `none` while it runs -/
  tasks : List (Option Given)
  /-- `next_task` -/
  nextTask : Option Nat
  at_ : GeneratorAt
  output : List Yielded
  deriving DecidableEq

namespace Heartbeat

def init : Heartbeat where
  tasks := []
  nextTask := none
  at_ := .suspended
  output := []

/-- What `next_task` has come to, if it has finished. -/
def finished (s : Heartbeat) : Option Given := s.nextTask.bind fun n => (s.tasks[n]?).join

/-- `except asyncio.TimeoutError` -/
def ping (s : Heartbeat) (now : Int) : Heartbeat :=
  { s with at_ := .suspended, output := s.output ++ [.ping now] }

/-- What `await wait_for(...)` does once it has the outcome of the task. -/
def settle (s : Heartbeat) (now : Int) : Given → Heartbeat
  | .chunk bytes =>
      { s with nextTask := none, at_ := .suspended, output := s.output ++ [.chunk bytes] }
  | .stop => { s with at_ := .returned }
  | .raised e => if e = .timeoutError then s.ping now else { s with at_ := .raised e }

/-- A round of the loop, up to where it waits. -/
def enter (s : Heartbeat) (now : Int) : Heartbeat :=
  match s.nextTask with
  | none => { s with
      tasks := s.tasks ++ [none], nextTask := some s.tasks.length, at_ := .waiting }
  | some _ =>
      match s.finished with
      | some given => s.settle now given
      | none => { s with at_ := .waiting }

/-- What happens to the generator and its tasks, with the time of a ping. -/
inductive Op where
  /-- The consumer asks for more. -/
  | resume (now : Int)
  /-- A task finishes. -/
  | finish (n : Nat)
  /-- The finished task wakes the generator. -/
  | deliver (now : Int)
  /-- The interval expires. -/
  | expire (now : Int)
  deriving DecidableEq

/-- One step. -/
def step (source : Nat → Given) (s : Heartbeat) : Op → Option Heartbeat
  | .resume now => if s.at_ = .suspended then some (s.enter now) else none
  | .finish n =>
      if s.tasks[n]? = some none then some { s with tasks := s.tasks.set n (some (source n)) }
      else none
  | .deliver now =>
      if s.at_ = .waiting then s.finished.map fun given => s.settle now given else none
  | .expire now => if s.at_ = .waiting then some (s.ping now) else none

end Heartbeat

end ExecRestApi
