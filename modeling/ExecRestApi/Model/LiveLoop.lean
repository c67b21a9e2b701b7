/-
The live loop of `_run_stream`, piece by piece (`handlers/streams.py`, `sse.py`).

`Model/Streams` takes the loop as one machine.  Here are the coroutines it is made of:
`to_bytes` renders what the subscription gives, `stream_with_heartbeat` puts pings in
between, and the loop writes what it gets.  `events` are what the subscription will ever
give, in order; when it gives them is up to the schedule.

`full` is what `_over_backpressure_threshold` finds.  A cancelled task is not resumed; what
becomes of a generator that nobody asks any more is left out.
-/
import ExecRestApi.Model.Heartbeat
import ExecRestApi.Model.Streams

namespace ExecRestApi

open Py

namespace Stream

/-- What `to_bytes` makes of an event. -/
def rendered (s : Stream) : StreamEvent → Given
  | .gap => .chunk s.gapFrame.bytes
  | .event payload =>
      match s.formatter payload with
      | .error _ => .chunk errorFrame.bytes
      | .ok parts =>
          match renderParts parts with
          | .ok frame => .chunk frame.bytes
          | .error e => .raised e

/-- Whether `to_bytes` goes on after an event. -/
def goesOn (s : Stream) : StreamEvent → Bool
  | .gap => true
  | .event payload =>
      match s.formatter payload with
      | .error _ => false
      | .ok parts => (renderParts parts).toOption.isSome

/-- Whether `to_bytes` has ended within `n` events. -/
def endedBy (s : Stream) (events : Nat → StreamEvent) (n : Nat) : Bool :=
  !(List.range n).all fun i => s.goesOn (events i)

/-- `to_bytes`: what its `n`-th `__anext__` gives. -/
def toBytes (s : Stream) (events : Nat → StreamEvent) (n : Nat) : Given :=
  if s.endedBy events n then .stop else s.rendered (events n)

end Stream

/-- What the loop awaits. -/
inductive LoopAt where
  /-- `anext` of the generator -/
  | next
  /-- `resp.write` -/
  | write (chunk : ByteArray)
  /-- `events.aclose`, and how the loop is left after it -/
  | aclose (out : Left)
  | left (out : Left)
  deriving DecidableEq

/-- The loop, its generator, and what has been written. -/
structure LiveLoop where
  generator : Heartbeat
  at_ : LoopAt
  sent : List ByteArray
  deriving DecidableEq

namespace LiveLoop

/-- The loop asks for the first chunk. -/
def start : LiveLoop := ⟨Heartbeat.init.enter 0, .next, []⟩

/-- `except ConnectionResetError: pass` -/
def leaving : Raised → Left
  | .exception .connectionResetError => .returned
  | r => .raised r

/-- The generator has run up to where it waits, yields or ends. -/
def react (c : LiveLoop) (full : Bool) (generator : Heartbeat) : LiveLoop :=
  match generator.at_, generator.output.getLast? with
  | .suspended, some chunk =>
      { c with generator := generator, at_ := if full then .aclose .returned else .write chunk.bytes }
  | .returned, _ => { c with generator := generator, at_ := .aclose .returned }
  | .raised e, _ => { c with generator := generator, at_ := .aclose (leaving (.exception e)) }
  | _, _ => { c with generator := generator, at_ := .next }

/-- What happens to the loop. -/
inductive Op where
  /-- A call of `__anext__` ends. -/
  | finish (n : Nat)
  /-- Its end wakes the generator. -/
  | deliver (now : Nat) (full : Bool)
  /-- The interval expires. -/
  | expire (now : Nat) (full : Bool)
  /-- The task is cancelled while it waits for the generator. -/
  | cancel
  /-- `resp.write` ends. -/
  | wrote (r : Except Raised Json) (now : Nat) (full : Bool)
  /-- `events.aclose` ends. -/
  | closed (r : Except Raised Json)
  deriving DecidableEq

/-- One step. -/
def step (s : Stream) (events : Nat → StreamEvent) (c : LiveLoop) : Op → Option LiveLoop
  | .finish n =>
      (c.generator.step (s.toBytes events) (.finish n)).map fun g => { c with generator := g }
  | .deliver now full =>
      match c.at_ with
      | .next => (c.generator.step (s.toBytes events) (.deliver now)).map (c.react full)
      | _ => none
  | .expire now full =>
      match c.at_ with
      | .next => (c.generator.step (s.toBytes events) (.expire now)).map (c.react full)
      | _ => none
  | .cancel =>
      match c.at_ with
      | .next => some { c with at_ := .aclose (.raised .cancelled) }
      | _ => none
  | .wrote r now full =>
      match c.at_, r with
      | .write chunk, .ok _ =>
          (c.generator.step (s.toBytes events) (.resume now)).map
            ({ c with sent := c.sent ++ [chunk] }.react full)
      | .write _, .error r => some { c with at_ := .aclose (leaving r) }
      | _, _ => none
  | .closed r =>
      match c.at_, r with
      | .aclose out, .ok _ => some { c with at_ := .left out }
      | .aclose _, .error r => some { c with at_ := .left (.raised r) }
      | _, _ => none

end LiveLoop

end ExecRestApi
