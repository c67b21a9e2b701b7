/-
The connections gauge of the event streams (`_publish_sse_gauge` in `handlers/streams.py`).

Every request of a stream runs `_run_stream`, and between the `await`s of one the others go
on.  The counts belong to the application; `_run_stream` adds one once it has subscribed, and
its `finally` takes it away.  Nobody else sets the gauge.
-/
import ExecRestApi.Model.Metrics
import ExecRestApi.Model.Streams

namespace ExecRestApi

open Py

/-- `stream_label`, which a handler gives with its kind. -/
def Stream.label (s : Stream) : String :=
  match s.kind with
  | .newHeads => "blocks"
  | .logs => "logs"
  | .newPendingTransactions => "pending-transactions"
  | .syncing => "sync-status"

/-- A request that runs `_run_stream`. -/
structure Connection where
  stream : Stream
  at_ : At

/-- What the requests share, and the requests. -/
structure SseApp where
  /-- `app["__sse_counts__"]` -/
  counts : Dict String Int
  /-- `app.get("metrics")` -/
  metrics : Option Metrics
  connections : List Connection

namespace SseApp

/-- The application before its first request. -/
def init (metrics : Option Metrics) : SseApp := ⟨.empty, metrics, []⟩

/-- `_publish_sse_gauge` -/
def publishSseGauge (app : SseApp) (stream : String) (delta : Int) : SseApp :=
  match app.metrics with
  | none => app
  | some metrics =>
      let count := (app.counts.get? stream).getD 0 + delta
      { app with
        counts := app.counts.set stream count
        metrics := some (metrics.setSseConnections stream count) }

/-- Request `i`, which stood at `a`, goes on to `b`. -/
def move (app : SseApp) (i : Nat) (s : Stream) (a b : At) : SseApp :=
  let app := { app with connections := app.connections.set i ⟨s, b⟩ }
  match a, b with
  -- `subscribe` has raised
  | .subscribing, .left _ => app
  | .subscribing, _ => app.publishSseGauge s.label 1
  -- `finally`
  | _, .left _ => app.publishSseGauge s.label (-1)
  | _, _ => app

/-- What happens. -/
inductive Op where
  /-- A request comes. -/
  | request (s : Stream)
  /-- The `await` of a request ends. -/
  | moment (i : Nat) (m : Moment)
  /-- Someone else uses the registry. -/
  | metric (op : Metrics.Op)

/-- One step. -/
def step (app : SseApp) : Op → Option SseApp
  | .request s => some { app with connections := app.connections ++ [⟨s, .subscribing⟩] }
  | .moment i m =>
      match app.connections[i]? with
      | none => none
      | some c =>
          match c.stream.step c.at_ m with
          | none => none
          | some b => some (app.move i c.stream c.at_ b)
  | .metric (.setSseConnections _ _) => none
  | .metric op => some { app with metrics := app.metrics.map fun metrics => metrics.step op }

end SseApp

end ExecRestApi
