/-
Handlers that pass a result on as it is: the calls of `handlers/traces.py` and the replays of
`handlers/transactions.py` and `handlers/blocks.py`.

Each reads its body, makes one call and returns the result.  No error of the call is looked
at; all of them go on to the middleware.
-/
import ExecRestApi.Model.Computed

namespace ExecRestApi

open Py Interaction

/-- A handler that reads a request, makes one call and returns the result. -/
def passedOn (read : Request → Except Exc (Response ⊕ RpcCall)) (req : Request) :
    Handler Response := do
  match ← (read req : Except Exc (Response ⊕ RpcCall)) with
  | .inl resp => pure resp
  | .inr rpc => do
      let result ← call rpc.method rpc.params
      jsonResponse result []

/-! ### Tracers -/

/-- The tracers there are. -/
def allowedTracers : List String := ["trace", "vmTrace", "stateDiff"]

/-- `t in allowed`; a value that cannot be hashed raises. -/
def tracerAllowed (t : Json) : Except Exc Bool :=
  match t with
  | .str s => .ok (decide (s ∈ allowedTracers))
  | .arr _ => .error .typeError
  | .obj _ => .error .typeError
  | _ => .ok false

/-- The loop over the tracers: the message for the first unknown one. -/
def checkTracers (unknown : Json → Msg) : List Json → Except Exc (Option Msg)
  | [] => .ok none
  | t :: ts => do
      let known ← tracerAllowed t
      if known then checkTracers unknown ts else pure (some (unknown t))

/-- The tracers of a request, where any `message` is answered. -/
def orUnknownTracer (path : String) (unknown : Json → Msg) (tracers : List Json) :
    Except Exc (Response ⊕ List Json) := do
  let message ← checkTracers unknown tracers
  match message with
  | some msg => pure (.inl (badRequest path msg))
  | none => pure (.inr tracers)

/-! ### handlers/traces.py -/

/-- `_read_json_object` -/
def readJsonObject (req : Request) : Except Exc (Response ⊕ List (String × Json)) :=
  unlessRefused (readJson req) fun body =>
    match body with
    | .obj fields => .ok (.inr fields)
    | _ => .ok (.inl (badRequest req.path ⟨"request body must be a JSON object", none⟩))

/-- The message of `_validate_tracers` for an unknown tracer, whose `repr` stands before the
semicolon. -/
def unknownTracer (t : Json) : Msg :=
  ⟨"unknown tracer ; allowed: ['stateDiff', 'trace', 'vmTrace']", some t⟩

/-- `_validate_tracers`, with a message answered. -/
def validateTracers (path : String) (value : Json) : Except Exc (Response ⊕ List Json) :=
  match value with
  | .arr (t :: ts) => orUnknownTracer path unknownTracer (t :: ts)
  | _ => .ok (.inl (badRequest path ⟨"field `tracers` must be a non-empty array", none⟩))

/-- The call of `trace_call_handler`. -/
def traceCallOf (req : Request) : Except Exc (Response ⊕ RpcCall) :=
  unlessRefused (readJsonObject req) fun body =>
    match Json.field? body "call", Json.field? body "tracers" with
    | some c, some tracers =>
        unlessRefused (validateTracers req.path tracers) fun tracers =>
          unlessRefused (orBadRequest req.path (do
            let (rpcCall, _) ← callRequestToRpc lower c
            let at_ ← bodyAt body
            pure (rpcCall, at_))) fun (rpcCall, at_) =>
              .ok (.inr ⟨"trace_call", [.obj rpcCall, .arr tracers, .str at_]⟩)
    | _, _ =>
        .ok (.inl (badRequest req.path ⟨"fields `call` and `tracers` are required", none⟩))

/-- `trace_call_handler` -/
def traceCall (_ : App) (req : Request) : Handler Response := passedOn traceCallOf req

/-- One call of `trace_callMany`. -/
def tracedCall (tracers : List Json) (c : Json) : Except Exc Json := do
  let rpc ← innerCall c
  pure (.arr [rpc, .arr tracers])

/-- The call of `trace_call_many_handler`. -/
def traceCallManyOf (req : Request) : Except Exc (Response ⊕ RpcCall) :=
  unlessRefused (readJsonObject req) fun body =>
    match Json.field? body "calls", Json.field? body "tracers" with
    | some calls, some tracers =>
        unlessRefused (validateTracers req.path tracers) fun tracers =>
          match calls with
          | .arr calls =>
              unlessRefused (orBadRequest req.path (do
                let rpcCalls ← calls.mapM (tracedCall tracers)
                let at_ ← bodyAt body
                pure (rpcCalls, at_))) fun (rpcCalls, at_) =>
                  .ok (.inr ⟨"trace_callMany", [.arr rpcCalls, .str at_]⟩)
          | _ => .ok (.inl (badRequest req.path ⟨"`calls` must be an array", none⟩))
    | _, _ =>
        .ok (.inl (badRequest req.path ⟨"fields `calls` and `tracers` are required", none⟩))

/-- `trace_call_many_handler` -/
def traceCallMany (_ : App) (req : Request) : Handler Response := passedOn traceCallManyOf req

/-- The call of `trace_raw_transaction_handler`. -/
def traceRawTransactionOf (req : Request) : Except Exc (Response ⊕ RpcCall) :=
  unlessRefused (readJsonObject req) fun body =>
    let refuse : Except Exc (Response ⊕ RpcCall) :=
      .ok (.inl (badRequest req.path ⟨"field `raw` must be 0x-prefixed hex bytes", none⟩))
    match (Json.field? body "raw").getD .null with
    | .str raw =>
        if hexBytesRe raw then
          unlessRefused (validateTracers req.path ((Json.field? body "tracers").getD .null))
            fun tracers =>
              .ok (.inr ⟨"trace_rawTransaction", [.str (lower raw), .arr tracers]⟩)
        else refuse
    | _ => refuse

/-- `trace_raw_transaction_handler` -/
def traceRawTransaction (_ : App) (req : Request) : Handler Response :=
  passedOn traceRawTransactionOf req

/-! ### The replays -/

/-- The tracers of a replay. -/
def replayTracers (req : Request) : Except Exc (Response ⊕ List Json) :=
  unlessRefused (readJson req) fun body =>
    let tracers := match body with
      | .obj fields => (Json.field? fields "tracers").getD .null
      | _ => .null
    match tracers with
    | .arr (t :: ts) => orUnknownTracer req.path (fun t => ⟨"unknown tracer ", some t⟩) (t :: ts)
    | _ =>
        .ok (.inl (badRequest req.path ⟨"field `tracers` (non-empty array) is required", none⟩))

/-- `_validate_tx_hash` -/
def validateTxHash (raw : String) : Option String :=
  if fixedHexRe 64 raw.toList then some (lower raw) else none

/-- The call of `post_trace_replay`. -/
def traceReplayOf (req : Request) : Except Exc (Response ⊕ RpcCall) :=
  match validateTxHash (req.matched "hash") with
  | none =>
      .ok (.inl (badRequest req.path ⟨"transaction hash must be 0x-prefixed 32-byte hex", none⟩))
  | some hash =>
      unlessRefused (replayTracers req) fun tracers =>
        .ok (.inr ⟨"trace_replayTransaction", [.str hash, .arr tracers]⟩)

/-- `post_trace_replay` -/
def postTraceReplay (_ : App) (req : Request) : Handler Response := passedOn traceReplayOf req

/-- `_parse_id` -/
def parseId (raw path : String) : Except Exc (Response ⊕ BlockId) :=
  match parseBlockId (.str raw) with
  | .ok bid => .ok (.inr bid)
  | .error (.blockIdError msg) => .ok (.inl (badRequest path msg))
  | .error e => .error e

/-- The call of `post_block_traces_replay`. -/
def blockTracesReplayOf (req : Request) : Except Exc (Response ⊕ RpcCall) :=
  unlessRefused (parseId (req.matched "id") req.path) fun bid =>
    unlessRefused (replayTracers req) fun tracers =>
      .ok (.inr ⟨"trace_replayBlockTransactions", [.str bid.toRpcParam, .arr tracers]⟩)

/-- `post_block_traces_replay` -/
def postBlockTracesReplay (_ : App) (req : Request) : Handler Response :=
  passedOn blockTracesReplayOf req

end ExecRestApi
