/-
Shape converters of `handlers/transactions.py`.
-/
import ExecRestApi.Lib.FloatText
import ExecRestApi.Model.Encoding

namespace ExecRestApi

open Py

/-- `log_from_rpc` -/
def logFromRpc (rpc : Json) : Except Exc Json := do
  let address ← getItem rpc "address"
  let address ← mapAddressLowercase address
  let topics ← getItem rpc "topics"
  let topics ← iterate topics
  let topics ← topics.mapM lowerOf
  let data ← getItem rpc "data"
  let data ← lowerOf data
  let blockHash ← getItem rpc "blockHash"
  let blockHash ← lowerOf blockHash
  let blockNumber ← getItem rpc "blockNumber"
  let blockNumber ← hexToInt blockNumber
  let transactionHash ← getItem rpc "transactionHash"
  let transactionHash ← lowerOf transactionHash
  let transactionIndex ← getItem rpc "transactionIndex"
  let transactionIndex ← hexToInt transactionIndex
  let logIndex ← getItem rpc "logIndex"
  let logIndex ← hexToInt logIndex
  let removed ← dictGet rpc "removed"
  pure (.obj [("address", .str address), ("topics", .arr (topics.map .str)), ("data", .str data),
    ("blockHash", .str blockHash), ("blockNumber", .int blockNumber),
    ("transactionHash", .str transactionHash), ("transactionIndex", .int transactionIndex),
    ("logIndex", .int logIndex), ("removed", .bool (!removed.isFalsy))])

/-- `int(v)` -/
def intOf (v : Json) : Except Exc Int :=
  match v with
  | .int n => .ok n
  | .bool b => .ok (if b then 1 else 0)
  | .str s => intOfText s
  | .float lit =>
      if lit = "NaN" then .error .valueError
      else if lit = "Infinity" ∨ lit = "-Infinity" ∨ floatOverflows lit then .error .other
      else .ok (truncFloat lit)
  | _ => .error .typeError

/-- A field that is passed on if it is there and not `None`. -/
def passOn (rpc : Json) (key : String) (convert : Json → Except Exc Json) :
    Except Exc (List (String × Json)) := do
  let v ← dictGet rpc key
  if v = .null then pure []
  else do
    let x ← convert v
    pure [(key, x)]

/-- The `transactionPosition` of a trace. -/
def tracePosition (v : Json) : Except Exc Json :=
  match v with
  | .str _ => do
      let n ← hexToInt v
      pure (.int n)
  | _ => do
      let n ← intOf v
      pure (.int n)

/-- `rpc.get(key, default)` -/
def dictGetOr (v : Json) (key : String) (default : Json) : Except Exc Json :=
  match v with
  | .obj fields => .ok ((Json.field? fields key).getD default)
  | _ => .error .attributeError

/-- `trace_from_rpc` -/
def traceFromRpc (rpc : Json) : Except Exc Json := do
  let action ← dictGetOr rpc "action" (.obj [])
  let type ← getItem rpc "type"
  let subtraces ← getItem rpc "subtraces"
  let subtraces ← intOf subtraces
  let traceAddress ← dictGetOr rpc "traceAddress" (.arr [])
  let traceAddress ← iterate traceAddress
  let transactionHash ← getItem rpc "transactionHash"
  let transactionHash ← lowerOf transactionHash
  let blockHash ← getItem rpc "blockHash"
  let blockHash ← lowerOf blockHash
  let blockNumber ← getItem rpc "blockNumber"
  let blockNumber ← coerceRpcInt blockNumber
  let result ← passOn rpc "result" .ok
  let error ← passOn rpc "error" .ok
  let position ← passOn rpc "transactionPosition" tracePosition
  pure (.obj ([("action", action), ("type", type), ("subtraces", .int subtraces),
    ("traceAddress", .arr traceAddress), ("transactionHash", .str transactionHash),
    ("blockHash", .str blockHash), ("blockNumber", .int blockNumber)] ++ result ++ error ++ position))

end ExecRestApi
