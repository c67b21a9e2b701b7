/-
The computed reads (`handlers/computed.py`).

Each handler reads its body, makes one call and shapes what comes back.  The first part is a
pure function of the request, which either answers or names the call; the second is the same
code in every handler: a revert is answered with a body of its own, any other error goes on
to the middleware.
-/
import ExecRestApi.Model.AbiRevert
import ExecRestApi.Model.Blocks
import ExecRestApi.Model.CallRequest
import ExecRestApi.Model.Logs

namespace ExecRestApi

open Py Interaction

/-! ### Reading a request -/

/-- The body of a request, with an unreadable one answered. -/
def readJson (req : Request) : Except Exc (Response ⊕ Json) :=
  match req.body with
  | .ok v => .ok (.inr v)
  | .error e =>
      if e.isValueError || e == .typeError then
        .ok (.inl (badRequest req.path ⟨"request body must be valid JSON", none⟩))
      else .error e

theorem ok_of_readJson {req : Request} {v : Json} (h : readJson req = .ok (.inr v)) :
    req.body = .ok v := by
  unfold readJson at h
  split at h
  · injection h with h
    injection h with h
    rw [← h]
    assumption
  · split_ifs at h
    cases h

/-- `except (ValueError, KeyError)` catches it. -/
def Exc.isBadInput : Exc → Bool
  | keyError _ => true
  | e => e.isValueError

/-- Answer a conversion that raises `ValueError` or `KeyError` with its message. -/
def orBadRequest {α : Type} (path : String) (x : Except Exc α) : Except Exc (Response ⊕ α) :=
  match x with
  | .ok a => .ok (.inr a)
  | .error e => if e.isBadInput then .ok (.inl (badRequest path e.str)) else .error e

/-- Go on with what was read, unless it is already answered. -/
def unlessRefused {α β : Type} (x : Except Exc (Response ⊕ α))
    (f : α → Except Exc (Response ⊕ β)) : Except Exc (Response ⊕ β) :=
  x >>= fun
    | .inl resp => .ok (.inl resp)
    | .inr a => f a

theorem unlessRefused_inr {α β : Type} (a : α) (f : α → Except Exc (Response ⊕ β)) :
    unlessRefused (.ok (.inr a)) f = f a := rfl

theorem unlessRefused_eq_inr {α β : Type} {x : Except Exc (Response ⊕ α)}
    {f : α → Except Exc (Response ⊕ β)} {b : β} (h : unlessRefused x f = .ok (.inr b)) :
    ∃ a, x = .ok (.inr a) ∧ f a = .ok (.inr b) := by
  cases x with
  | error e => cases h
  | ok r =>
      cases r with
      | inl resp => cases h
      | inr a => exact ⟨a, rfl, h⟩

/-- `_read_call_request` -/
def readCallRequest (req : Request) : Except Exc (Response ⊕ (List (String × Json) × String)) :=
  unlessRefused (readJson req) fun body => orBadRequest req.path (callRequestToRpc lower body)

/-! ### Making the call -/

/-- `await upstream.call(...)`, with a revert answered by its body. -/
def orReverted (rpc : RpcCall) (shape : Json → Except Exc Response) : Handler Response :=
  .ask rpc fun
    | .ok result => Prog.ofExcept (shape result)
    | .error (.jsonRpcError e) =>
        if isRevert e || isOutOfGas e then Prog.ofExcept (jsonResponse (revertBody e) [])
        else .throw (.jsonRpcError e)
    | .error e => .throw e

/-- A handler that reads a request, makes one call and answers reverts. -/
def computed (read : Request → Except Exc (Response ⊕ RpcCall))
    (shape : Request → Json → Except Exc Response) (req : Request) : Handler Response := do
  match ← (read req : Except Exc (Response ⊕ RpcCall)) with
  | .inl resp => pure resp
  | .inr rpc => orReverted rpc (shape req)

/-- The response to a result of the wrong type. -/
def upstreamMalformed (path detail : String) : Response :=
  problemResponse ⟨502, "upstream-error", "Upstream error", some ⟨detail, none⟩, some path, none, .null⟩

/-- The call of `call`, `gas_estimate` and `access_list`. -/
def callOf (method : String) (req : Request) : Except Exc (Response ⊕ RpcCall) :=
  unlessRefused (readCallRequest req) fun (rpcBody, at_) =>
    .ok (.inr ⟨method, [.obj rpcBody, .str at_]⟩)

/-- The response of `call`. -/
def callShape (req : Request) (result : Json) : Except Exc Response :=
  match result with
  | .str s => jsonResponse (.obj [("data", .str (lower s))]) []
  | _ => .ok (upstreamMalformed req.path "eth_call returned non-string result")

/-- `call` -/
def postCall (_ : App) (req : Request) : Handler Response :=
  computed (callOf "eth_call") callShape req

/-- The response of `gas_estimate`. -/
def gasEstimateShape (req : Request) (result : Json) : Except Exc Response :=
  match result with
  | .str s => do
      let gas ← hexToInt (.str s)
      jsonResponse (.obj [("gas", .int gas)]) []
  | _ => .ok (upstreamMalformed req.path "eth_estimateGas returned non-string result")

/-- `gas_estimate` -/
def gasEstimate (_ : App) (req : Request) : Handler Response :=
  computed (callOf "eth_estimateGas") gasEstimateShape req

/-- `v or []`, walked through. -/
def iterateOrEmpty (v : Json) : Except Exc (List Json) := if v.isFalsy then .ok [] else iterate v

/-- An entry of the access list in a result. -/
def accessListItem (entry : Json) : Except Exc Json := do
  let address ← getItem entry "address"
  let address ← mapAddressLowercase address
  let keys ← dictGetOr entry "storageKeys" (.arr [])
  let keys ← iterate keys
  let keys ← keys.mapM (inputLower lower)
  pure (.obj [("address", .str address), ("storageKeys", .arr keys)])

/-- The response of `access_list`. -/
def accessListShape (_ : Request) (result : Json) : Except Exc Response := do
  let entries ← dictGet result "accessList"
  let entries ← iterateOrEmpty entries
  let entries ← entries.mapM accessListItem
  let gasUsed ← getItem result "gasUsed"
  let gasUsed ← hexToInt gasUsed
  let error ← passOn result "error" .ok
  jsonResponse (.obj ([("accessList", .arr entries), ("gasUsed", .int gasUsed)] ++ error)) []

/-- `access_list` -/
def accessList (_ : App) (req : Request) : Handler Response :=
  computed (callOf "eth_createAccessList") accessListShape req

/-! ### simulate -/

/-- `tmp[key]` after an override of a block state has been converted. -/
def overrideOf (convert : List (String × Json) → List (String × Json) →
      Except Exc (List (String × Json))) (key : String) (bsc out : List (String × Json)) :
    Except Exc (List (String × Json)) :=
  match Json.field? bsc key with
  | none => .ok out
  | some v => do
      let tmp ← convert [] [(key, v)]
      let x ← getItem (.obj tmp) key
      pure (Dict.setIn key x out)

/-- `call_request_to_rpc(c)[0]` -/
def innerCall (c : Json) : Except Exc Json := do
  let (rpc, _) ← callRequestToRpc lower c
  pure (.obj rpc)

/-- One entry of `blockStateCalls`. -/
def blockStateCall (bsc : Json) : Except Exc Json :=
  match bsc with
  | .obj fields => do
      let out ← overrideOf (convertBlockOverrides lower) "blockOverrides" fields []
      let out ← overrideOf (convertStateOverrides lower) "stateOverrides" fields out
      match (Json.field? fields "calls").getD (.arr []) with
      | .arr calls => do
          let calls ← calls.mapM innerCall
          pure (.obj (Dict.setIn "calls" (.arr calls) out))
      | _ => .error (.badValue ⟨"`calls` must be an array", none⟩)
  | _ => .error (.badValue ⟨"each blockStateCalls entry must be an object", none⟩)

/-- The flags `simulate` passes on. -/
def simulateFlags : List String := ["traceTransfers", "validation", "returnFullTransactions"]

/-- One of the flags of the body. -/
def simulateFlag (body out : List (String × Json)) (flag : String) : List (String × Json) :=
  match Json.field? body flag with
  | none => out
  | some v => Dict.setIn flag (.bool (!v.isFalsy)) out

/-- The block of a body, whatever its type. -/
def bodyAt (body : List (String × Json)) : Except Exc String := do
  let bid ← parseBlockId ((Json.field? body "at").getD (.str "latest"))
  pure bid.toRpcParam

/-- The payload of `eth_simulateV1` and the block. -/
def simulatePayload (body : List (String × Json)) (calls : Json) :
    Except Exc (List (String × Json) × String) := do
  let bscs ← iterate calls
  let bscs ← bscs.mapM blockStateCall
  let payload := simulateFlags.foldl (simulateFlag body) [("blockStateCalls", .arr bscs)]
  let at_ ← bodyAt body
  pure (payload, at_)

/-- The call of `simulate`. -/
def simulateOf (req : Request) : Except Exc (Response ⊕ RpcCall) :=
  unlessRefused (readJson req) fun body =>
    let refuse : Except Exc (Response ⊕ RpcCall) :=
      .ok (.inl (badRequest req.path ⟨"field `blockStateCalls` is required", none⟩))
    match body with
    | .obj fields =>
        match Json.field? fields "blockStateCalls" with
        | none => refuse
        | some calls =>
            unlessRefused (orBadRequest req.path (simulatePayload fields calls))
              fun (payload, at_) => .ok (.inr ⟨"eth_simulateV1", [.obj payload, .str at_]⟩)
    | _ => refuse

/-- `int(s, 16)` on text that starts with `0x`, `none` where it raises `ValueError`. -/
def hexStatus (s : String) : Option Nat :=
  let digit := fun c : Char => (hexVal c).or (decimalVal c)
  let rec go : List Char → Nat → Option Nat
    | [], _ => none
    | [c], acc => (digit c).map fun d => 16 * acc + d
    | c :: '_' :: cs, acc => (digit c).bind fun d => go cs (16 * acc + d)
    | c :: cs, acc => (digit c).bind fun d => go cs (16 * acc + d)
  match (strip s.toList).drop 2 with
  | '_' :: cs => go cs 0
  | cs => go cs 0

/-- Whether the `status` of a simulated call says that it failed. -/
def statusFailed (status : Json) : Bool :=
  match status with
  | .str s =>
      match s.toList with
      | '0' :: 'x' :: _ => hexStatus s == some 0
      | _ => false
  | _ => false

/-- A text, or `0x`. -/
def textOr0x : Json → String
  | .str s => s
  | _ => "0x"

/-- `_simulate_call_result` -/
def simulateCallResult (callRpc : Json) : Except Exc Json := do
  let status ← dictGet callRpc "status"
  let error ← dictGet callRpc "error"
  if statusFailed status || !error.isFalsy then do
    let data ← dictGetOr callRpc "returnData" (.str "0x")
    let data := textOr0x data
    let (reason, panic) := decodeRevertData (.str data)
    pure (.obj [("reverted", .bool true), ("data", .str (lower data)), ("reason", reasonJson reason),
      ("panicCode", panicJson panic)])
  else do
    let returnData ← dictGet callRpc "returnData"
    let gasUsed ← getItem callRpc "gasUsed"
    let gasUsed ← hexToInt gasUsed
    let logs ← dictGet callRpc "logs"
    if logs = .null then
      pure (.obj [("returnData", .str (lower (textOr0x returnData))), ("gasUsed", .int gasUsed)])
    else do
      let logs ← iterate logs
      let logs ← logs.mapM logFromRpc
      pure (.obj [("returnData", .str (lower (textOr0x returnData))), ("gasUsed", .int gasUsed),
        ("logs", .arr logs)])

/-- One block of the result of `eth_simulateV1`. -/
def simulatedBlock (blockRpc : Json) : Except Exc Json := do
  let block ← blockHeaderFromRpc blockRpc
  let calls ← dictGetOr blockRpc "calls" (.arr [])
  let calls ← iterate calls
  let calls ← calls.mapM simulateCallResult
  pure (.obj [("block", block), ("calls", .arr calls)])

/-- The response of `simulate`. -/
def simulateShape (req : Request) (result : Json) : Except Exc Response :=
  match result with
  | .arr blocks => do
      let blocks ← blocks.mapM simulatedBlock
      jsonResponse (.arr blocks) []
  | _ => .ok (upstreamMalformed req.path "eth_simulateV1 returned non-list result")

/-- `simulate` -/
def simulate (_ : App) (req : Request) : Handler Response :=
  computed simulateOf simulateShape req

/-! ### debug_traces_call -/

/-- The call of `debug_traces_call`. -/
def debugTracesOf (req : Request) : Except Exc (Response ⊕ RpcCall) :=
  unlessRefused (readJson req) fun body =>
    let refuse : Except Exc (Response ⊕ RpcCall) :=
      .ok (.inl (badRequest req.path ⟨"field `call` is required", none⟩))
    match body with
    | .obj fields =>
        match Json.field? fields "call" with
        | none => refuse
        | some c =>
            unlessRefused (orBadRequest req.path (do
              let (rpcCall, _) ← callRequestToRpc lower c
              let at_ ← bodyAt fields
              pure (rpcCall, at_))) fun (rpcCall, at_) =>
                match (Json.field? fields "tracer").getD .null with
                | .null => .ok (.inr ⟨"debug_traceCall", [.obj rpcCall, .str at_, .obj []]⟩)
                | .obj tracer =>
                    .ok (.inr ⟨"debug_traceCall", [.obj rpcCall, .str at_, .obj tracer]⟩)
                | _ => .ok (.inl (badRequest req.path ⟨"`tracer` must be an object", none⟩))
    | _ => refuse

/-- A result that is passed on as it is. -/
def passShape (_ : Request) (result : Json) : Except Exc Response := jsonResponse result []

/-- `debug_traces_call` -/
def debugTracesCall (_ : App) (req : Request) : Handler Response :=
  computed debugTracesOf passShape req

end ExecRestApi
