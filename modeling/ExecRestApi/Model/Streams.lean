/-
The `/streams/*` handlers (`handlers/streams.py`).

A replay is a program: it calls the upstream, writes frames, and ends.  `_run_stream`
goes on for as long as its client and its source do, so it is a machine: `At` is the
`await` it stands at, and a `Moment` is how that `await` ends.  What the live loop does
between the end of one `anext` and the next `await` is one step, and `full` is what
`_over_backpressure_threshold` finds during it.

`except Exception` does not catch the cancellation of a task, which is why an `await`
can raise more than an exception.  The replays have no handler of their own around an
`await`, so a cancelled one is left at once.

The connections gauge is left out, and so is what the handlers log.
-/
import ExecRestApi.Model.Blocks
import ExecRestApi.Model.Logs
import ExecRestApi.Model.Sse
import ExecRestApi.Model.Subscriptions
import ExecRestApi.Model.Transactions

namespace ExecRestApi

open Py Interaction

/-! ### Formatters -/

/-- The name, the id and the data of a frame. -/
abbrev FrameParts := String × Option String × Json

/-- `format_event` on them. -/
def renderParts (parts : FrameParts) : Except Exc SseFrame :=
  formatEvent parts.1 parts.2.1 parts.2.2

/-- `v[key]` where it is a number. -/
def numberAt (v : Json) (key : String) : Except Exc Int := do
  let x ← getItem v key
  match x with
  | .int n => pure n
  | _ => .error .typeError

/-- `_block_event` -/
def blockEvent (payload : Json) : Except Exc FrameParts := do
  let header ← blockHeaderFromRpc payload
  let number ← numberAt header "number"
  let id ← strInt number
  pure ("block", some id, header)

/-- The id of a log frame: `f"{blockNumber}-{logIndex}"`. -/
def logFrameId (blockNumber logIndex : Int) : Except Exc String := do
  let b ← strInt blockNumber
  let i ← strInt logIndex
  pure (b ++ "-" ++ i)

/-- `_log_event` -/
def logEvent (payload : Json) : Except Exc FrameParts := do
  let restLog ← logFromRpc payload
  let blockNumber ← numberAt restLog "blockNumber"
  let logIndex ← numberAt restLog "logIndex"
  let id ← logFrameId blockNumber logIndex
  pure ("log", some id, restLog)

/-- `_sync_status_event` -/
def syncStatusEvent (payload : Json) : Except Exc FrameParts :=
  if payload = .bool false then .ok ("sync-status", none, .obj [("syncing", .bool false)])
  else do
    let startingBlock ← getItem payload "startingBlock"
    let startingBlock ← hexJson startingBlock
    let currentBlock ← getItem payload "currentBlock"
    let currentBlock ← hexJson currentBlock
    let highestBlock ← getItem payload "highestBlock"
    let highestBlock ← hexJson highestBlock
    pure ("sync-status", none, .obj [("syncing", .bool true), ("startingBlock", startingBlock),
      ("currentBlock", currentBlock), ("highestBlock", highestBlock)])

/-! ### Replays -/

/-- What a replay awaits. -/
inductive StreamIo where
  /-- `resp.write` -/
  | write (frame : SseFrame)
  /-- `upstream.call` -/
  | call (c : RpcCall)
  deriving DecidableEq

/-- `ReplayFn` -/
abbrev Replay := Prog StreamIo Reply Exc

/-- What a replay exchanged. -/
abbrev ReplayTrace := List (StreamIo × Reply)

/-- `await upstream.call(method, params)` -/
def replayCall (method : String) (params : List Json) : Replay Json :=
  .ask (.call ⟨method, params⟩) Prog.ofExcept

/-- `await resp.write(frame)` -/
def replayWrite (frame : SseFrame) : Replay Unit :=
  .ask (.write frame) fun
    | .ok _ => .pure ()
    | .error e => .throw e

/-- The frame that announces a gap. -/
def gapParts (first last : Int) : FrameParts :=
  ("gap", none, .obj [("from", .int first), ("to", .int last)])

/-- The number of the head block. -/
def replayHead : Replay Nat := do
  let headHex ← replayCall "eth_blockNumber" []
  let head ← hexToInt headHex
  pure head

/-- Write a frame. -/
def replayFrame (parts : Except Exc FrameParts) : Replay Unit := do
  let parts ← parts
  let frame ← renderParts parts
  replayWrite frame

/-- The `for` loop of `_replay_blocks`: so many blocks from `n` on. -/
def replayRange : Int → Nat → Replay Unit
  | _, 0 => pure ()
  | n, left + 1 => do
      let rpc ← replayCall "eth_getBlockByNumber" [.str (hex n), .bool true]
      if rpc = .null then replayRange (n + 1) left
      else do
        replayFrame (blockEvent rpc)
        replayRange (n + 1) left

/-- `_replay_blocks`, given `config.sse_replay_window` -/
def replayBlocks (window : Int) (lastEventId : String) : Replay Unit :=
  match int? lastEventId with
  | none => pure ()
  | some lastBlock => do
      let head ← replayHead
      if (head : Int) ≤ lastBlock then pure ()
      else if window < head - lastBlock then replayFrame (.ok (gapParts (lastBlock + 1) head))
      else replayRange (lastBlock + 1) (head - lastBlock).toNat

/-- The block of an id: what comes before its first dash. -/
def idBlock (lastEventId : String) : Option Int :=
  if '-' ∈ lastEventId.toList then
    int? (String.ofList (lastEventId.toList.takeWhile fun c => c != '-'))
  else none

/-- `for log in result or []` -/
def replayedLogs (result : Json) : Except Exc (List Json) :=
  if result.isFalsy then .ok [] else iterate result

/-- The `for` loop of `_replay_logs`. -/
def replayEach : List Json → Replay Unit
  | [] => pure ()
  | log :: rest => do
      replayFrame (logEvent log)
      replayEach rest

/-- The filter of the missed range. -/
def fetchFilter (filter : List (String × Json)) (first last : Int) : List (String × Json) :=
  Dict.setIn "toBlock" (.str (hex last)) (Dict.setIn "fromBlock" (.str (hex first)) filter)

/-- `_replay_logs`, given `config.sse_replay_window` -/
def replayLogs (window : Int) (filter : List (String × Json)) (lastEventId : String) :
    Replay Unit :=
  match idBlock lastEventId with
  | none => pure ()
  | some lastBlock => do
      let head ← replayHead
      if (head : Int) ≤ lastBlock then pure ()
      else if window < head - lastBlock then replayFrame (.ok (gapParts (lastBlock + 1) head))
      else do
        let result ← replayCall "eth_getLogs" [.obj (fetchFilter filter (lastBlock + 1) head)]
        let logs ← replayedLogs result
        replayEach logs

/-! ### The driver -/

/-- The arguments of `_run_stream`, and the `Last-Event-ID` of its request. -/
structure Stream where
  kind : StreamKind
  params : Json
  formatter : Json → Except Exc FrameParts
  gapEventName : String := "gap"
  replay : Option (String → Replay Unit) := none
  lastEventId : Option String

/-- What `_run_stream` awaits. -/
inductive StreamOp where
  /-- `subscriptions.subscribe` -/
  | subscribe (kind : StreamKind) (params : Json)
  /-- `resp.prepare` -/
  | prepare
  | io (op : StreamIo)
  /-- `events.aclose` -/
  | aclose
  deriving DecidableEq

/-- What an `await` raises. -/
inductive Raised where
  /-- what `except Exception` catches -/
  | exception (e : Exc)
  /-- `asyncio.CancelledError`, and what else is a mere `BaseException` -/
  | cancelled
  deriving DecidableEq

/-- How `_run_stream` is left. -/
inductive Left where
  /-- `subscribe` raised; a problem if there is one for it -/
  | refused (r : Raised)
  | returned
  | raised (r : Raised)
  deriving DecidableEq

/-- The `await` `_run_stream` stands at.  The live loop is `finished` once its generator can
only end. -/
inductive At where
  | subscribing
  | preparing
  | retrying
  | replaying (op : StreamIo) (k : Reply → Replay Unit)
  | resuming
  | listening (finished : Bool)
  | writing (finished : Bool) (frame : SseFrame)
  | closing (out : Left)
  | left (out : Left)

/-- What `anext(stream_with_heartbeat(to_bytes()))` finds. -/
inductive Wake where
  /-- nothing for the length of the heartbeat; the time now -/
  | timeout (now : Nat)
  /-- the next event of the source -/
  | item (ev : StreamEvent)
  /-- the source has ended -/
  | ended
  | raised (r : Raised)
  deriving DecidableEq

/-- How an `await` ends. -/
inductive Moment where
  | returned (op : StreamOp) (r : Except Raised Json)
  | woke (w : Wake) (full : Bool)
  deriving DecidableEq

namespace Stream

/-- The frame of a formatter that raised. -/
def errorFrame : SseFrame :=
  .event "error" none (.obj [("type", .str "https://errors.ethereum-rest/internal-error"),
    ("title", .str "Internal error")])

/-- The frame of a gap. -/
def gapFrame (s : Stream) : SseFrame := .event s.gapEventName none (.obj [])

/-- What a replay awaits next.  An exception it raises is logged, and the stream goes on. -/
def enter : Replay Unit → At
  | .pure _ => .listening false
  | .throw _ => .listening false
  | .ask op k => .replaying op k

/-- Once the response is open. -/
def opened (s : Stream) : At :=
  match s.lastEventId with
  | none => .listening false
  | some id =>
      match s.replay with
      | some replay => enter (replay id)
      | none => .resuming

/-- The live loop has been left by `r`: `except ConnectionResetError: pass`, and the stream of
the consumer is closed. -/
def failed : Raised → At
  | .exception .connectionResetError => .closing .returned
  | r => .closing (.raised r)

/-- The live loop has a chunk. -/
def deliver (finished full : Bool) (frame : SseFrame) : At :=
  if full then .closing .returned else .writing finished frame

/-- One turn of `to_bytes`. -/
def turn (s : Stream) (full : Bool) : StreamEvent → At
  | .gap => deliver false full s.gapFrame
  | .event payload =>
      match s.formatter payload with
      | .error _ => deliver true full errorFrame
      | .ok parts =>
          match renderParts parts with
          | .ok frame => deliver false full frame
          | .error e => failed (.exception e)

/-- The live loop goes on. -/
def wake (s : Stream) (finished full : Bool) : Wake → At
  | .timeout now => deliver finished full (.comment (String.ofList ("ping ".toList ++ intText now)))
  | .item ev => if finished then .closing .returned else s.turn full ev
  | .ended => .closing .returned
  | .raised r => failed r

/-- The operation that is awaited. -/
def awaiting (s : Stream) : At → Option StreamOp
  | .subscribing => some (.subscribe s.kind s.params)
  | .preparing => some .prepare
  | .retrying => some (.io (.write (.retry 5000)))
  | .replaying op _ => some (.io op)
  | .resuming => some (.io (.write s.gapFrame))
  | .listening _ => none
  | .writing _ frame => some (.io (.write frame))
  | .closing _ => some .aclose
  | .left _ => none

/-- That operation has ended. -/
def resume (s : Stream) : At → Except Raised Json → At
  | .subscribing, .ok _ => .preparing
  | .subscribing, .error r => .left (.refused r)
  | .preparing, .ok _ => .retrying
  | .preparing, .error r => .left (.raised r)
  | .retrying, .ok _ => s.opened
  | .retrying, .error r => .left (.raised r)
  | .replaying _ k, .ok v => enter (k (.ok v))
  | .replaying _ k, .error (.exception e) => enter (k (.error e))
  | .replaying _ _, .error .cancelled => .left (.raised .cancelled)
  | .resuming, .ok _ => .listening false
  | .resuming, .error r => .left (.raised r)
  | .writing finished _, .ok _ => .listening finished
  | .writing _ _, .error r => failed r
  | .closing out, .ok _ => .left out
  | .closing _, .error r => .left (.raised r)
  | .listening finished, _ => .listening finished
  | .left out, _ => .left out

/-- One step of `_run_stream`. -/
def step (s : Stream) (at_ : At) : Moment → Option At
  | .returned op r => if s.awaiting at_ = some op then some (s.resume at_ r) else none
  | .woke w full =>
      match at_ with
      | .listening finished => some (s.wake finished full w)
      | _ => none

/-- `get_streams_blocks` -/
def blocks (window : Int) (lastEventId : Option String) : Stream where
  kind := .newHeads
  params := .null
  formatter := blockEvent
  replay := some (replayBlocks window)
  lastEventId := lastEventId

/-- `_parse_log_filter` -/
def parseLogFilter (req : Request) : Except Msg (List (String × Json)) := do
  let addressed ← match req.queryGet "address" with
    | none => pure []
    | some raw =>
        if raw = "" then pure []
        else do
          let addrs ← (splitOn ',' raw.toList).mapM fun piece =>
            encodingMsg (mapAddressLowercase (.str (String.ofList (strip piece))))
          pure [("address", Json.arr (addrs.map .str))]
  let (topics, kept) ← ["topic0", "topic1", "topic2", "topic3"].foldlM (topicStep req) ([], 0)
  pure (if 0 < kept then addressed ++ [("topics", .arr (topics.take kept))] else addressed)

/-- `get_streams_logs`, once it has read its filter. -/
def logs (window : Int) (filter : List (String × Json)) (lastEventId : Option String) :
    Stream where
  kind := .logs
  params := .obj filter
  formatter := logEvent
  replay := some (replayLogs window filter)
  lastEventId := lastEventId

/-- `get_streams_logs` -/
def getStreamsLogs (window : Int) (req : Request) (lastEventId : Option String) :
    Response ⊕ Stream :=
  match parseLogFilter req with
  | .error msg => .inl (badRequest req.path msg)
  | .ok filter => .inr (logs window filter lastEventId)

/-- `get_streams_sync_status` -/
def syncStatus (lastEventId : Option String) : Stream where
  kind := .syncing
  params := .null
  formatter := syncStatusEvent
  gapEventName := "resumed"
  lastEventId := lastEventId

end Stream

end ExecRestApi
