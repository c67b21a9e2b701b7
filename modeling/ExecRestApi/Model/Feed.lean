/-
One connection to `/streams/blocks`, and the chain it follows.

The chain only grows, and the upstream announces its blocks one after the other, some
time after they are there.  A block announced once the stream has subscribed goes to the
queue of its consumer, unless that is full.  Everything the stream awaits may take as
long as it likes, so between two of its steps any number of blocks may be mined and
announced.  What the upstream can answer at a given moment is `Honest`.
-/
import ExecRestApi.Model.Streams

namespace ExecRestApi

open Py

/-- A connection and its chain. -/
structure Feed where
  at_ : At
  /-- The number of the head block. -/
  head : Nat
  /-- The last block that has been announced. -/
  announced : Nat
  /-- The last block that had been announced when the stream subscribed. -/
  since : Nat
  /-- The queue of the consumer. -/
  queue : List StreamEvent

/-- What happens next. -/
inductive FeedStep where
  | mine
  | announce (payload : Json)
  | stream (m : Moment)

/-- The number of a block or header as the upstream sends it. -/
def headerNumber (payload : Json) : Except Exc Nat := do
  let number ← getItem payload "number"
  hexToInt number

namespace Feed

/-- `_enqueue` for this consumer. -/
def put (queue : List StreamEvent) (ev : StreamEvent) : List StreamEvent :=
  if queue.length < queueSize then queue ++ [ev] else queue

/-- Whether the consumer is on the list of its slot. -/
def joined : At → Bool
  | .subscribing => false
  | _ => true

/-- The queue after a step of the stream. -/
def queueAfter (f : Feed) : Moment → List StreamEvent
  | .returned (.subscribe _ _) _ => []
  | .woke (.item _) _ => f.queue.tail
  | _ => f.queue

/-- The last block announced before the subscription, after a step of the stream. -/
def sinceAfter (f : Feed) : Moment → Nat
  | .returned (.subscribe _ _) _ => f.announced
  | _ => f.since

/-- One step of the connection or of the chain. -/
def step (s : Stream) (f : Feed) : FeedStep → Option Feed
  | .mine => some { f with head := f.head + 1 }
  | .announce payload =>
      some { f with
        announced := f.announced + 1
        queue := if joined f.at_ then put f.queue (.event payload) else f.queue }
  | .stream m =>
      (s.step f.at_ m).map fun a =>
        { f with at_ := a, queue := f.queueAfter m, since := f.sinceAfter m }

/-- What may happen to a chain that only grows, announced block by block. -/
def Honest (f : Feed) : FeedStep → Prop
  | .mine => True
  | .announce payload => f.announced < f.head ∧ headerNumber payload = .ok (f.announced + 1)
  | .stream (.returned (.io (.call c)) (.ok v)) =>
      (c.method = "eth_blockNumber" → ∃ H, hexToInt v = .ok H ∧ H ≤ f.head)
        ∧ ∀ h, c = ⟨"eth_getBlockByNumber", [.str h, .bool true]⟩ →
            v = .null ∨ headerNumber v = hexToInt (.str h)
  | .stream (.woke (.item ev) _) => f.queue.head? = some ev
  | .stream _ => True

/-- The connection as it starts. -/
def init (head announced : Nat) : Feed := ⟨.subscribing, head, announced, 0, []⟩

end Feed

/-- The frame a step has written. -/
def FeedStep.frame? : FeedStep → Option SseFrame
  | .stream (.returned (.io (.write frame)) (.ok _)) => some frame
  | _ => none

end ExecRestApi
