/-
Blocks and transactions (`handlers/blocks.py`, `handlers/transactions.py`).

What a block, a transaction and a receipt look like to a client, and what the handlers of these
have in common: each validates its path, makes one call, answers `None` with a 404 and shapes
anything else.
-/
import ExecRestApi.Model.BlockTransactions
import ExecRestApi.Model.ContentNeg

namespace ExecRestApi

open Py Interaction

/-! ### Shapes -/

/-- `_STATUS_RPC_TO_REST` -/
def statusRpcToRest : List (String × String) := [("0x0", "failed"), ("0x1", "success")]

/-- `rest_status_from_rpc` -/
def restStatusFromRpc (rpc : Json) : Except Exc Json :=
  let unknown : Except Exc Json := .error (.encodingError ⟨"unknown receipt status: ", rpc⟩)
  match rpc with
  | .str s =>
      match Dict.lookupIn s statusRpcToRest with
      | some t => .ok (.str t)
      | none => unknown
  | _ => if rpc.isHashable then unknown else .error .typeError

/-- `[shape(x) for x in v]` -/
def shapeItems (shape : Json → Except Exc Json) (v : Json) : Except Exc Json := do
  let items ← iterate v
  let items ← items.mapM shape
  pure (.arr items)

/-- The logs of a receipt. -/
def receiptLogs (rpc : Json) : Except Exc Json := do
  let logs ← dictGetOr rpc "logs" (.arr [])
  shapeItems logFromRpc logs

/-- The fields of a receipt that are left out if they are missing or `None`. -/
def receiptExtras (rpc : Json) : Except Exc (List (String × Json)) := do
  let effectiveGasPrice ← headerExtra weiJson rpc "effectiveGasPrice"
  let blobGasUsed ← headerExtra hexJson rpc "blobGasUsed"
  let blobGasPrice ← headerExtra weiJson rpc "blobGasPrice"
  pure (effectiveGasPrice ++ blobGasUsed ++ blobGasPrice)

/-- `v[key]`, converted. -/
def itemAs (convert : Json → Except Exc Json) (v : Json) (key : String) : Except Exc Json := do
  let item ← getItem v key
  convert item

/-- `receipt_from_rpc` -/
def receiptFromRpc (rpc : Json) : Except Exc Json := do
  let transactionHash ← lowerItem rpc "transactionHash"
  let transactionIndex ← itemAs hexJson rpc "transactionIndex"
  let blockHash ← lowerItem rpc "blockHash"
  let blockNumber ← itemAs hexJson rpc "blockNumber"
  let sender ← itemAs inputAddress rpc "from"
  let cumulativeGasUsed ← itemAs hexJson rpc "cumulativeGasUsed"
  let gasUsed ← itemAs hexJson rpc "gasUsed"
  let logsBloom ← lowerItem rpc "logsBloom"
  let logs ← receiptLogs rpc
  let status ← itemAs restStatusFromRpc rpc "status"
  let type ← itemAs restTxTypeFromRpc rpc "type"
  let recipient ← orNone inputAddress rpc "to"
  let contractAddress ← orNone inputAddress rpc "contractAddress"
  let extras ← receiptExtras rpc
  pure (.obj ([("transactionHash", transactionHash), ("transactionIndex", transactionIndex),
    ("blockHash", blockHash), ("blockNumber", blockNumber), ("from", sender),
    ("cumulativeGasUsed", cumulativeGasUsed), ("gasUsed", gasUsed), ("logsBloom", logsBloom),
    ("logs", logs), ("status", status), ("type", type), ("to", recipient),
    ("contractAddress", contractAddress)] ++ extras))

/-- `[transaction_from_rpc(tx) for tx in rpc.get("transactions") or []]` -/
def blockTransactions (rpc : Json) : Except Exc Json := do
  let txs ← dictGet rpc "transactions"
  let txs ← iterateOrEmpty txs
  let txs ← txs.mapM transactionFromRpc
  pure (.arr txs)

/-- An entry of `withdrawals`. -/
def withdrawal (w : Json) : Except Exc Json := do
  let index ← itemAs hexJson w "index"
  let validatorIndex ← itemAs hexJson w "validatorIndex"
  let address ← itemAs inputAddress w "address"
  let amount ← itemAs weiJson w "amount"
  pure (.obj [("index", index), ("validatorIndex", validatorIndex), ("address", address),
    ("amount", amount)])

/-- The fields `block_from_rpc` adds to a header. -/
def withBlockFields (header : Json) (fields : List (String × Json)) : Json :=
  match header with
  | .obj h => .obj (h ++ fields)
  | v => v

/-- `block_from_rpc` -/
def blockFromRpc (rpc : Json) : Except Exc Json := do
  let header ← blockHeaderFromRpc rpc
  let txs ← blockTransactions rpc
  let withdrawals ← headerExtra (shapeItems withdrawal) rpc "withdrawals"
  pure (withBlockFields header (("transactions", txs) :: withdrawals))

/-! ### What handlers share -/

/-- `_bad_hash` -/
def badHash (path : String) : Response :=
  badRequest path ⟨"transaction hash must be 0x-prefixed 32-byte hex", none⟩

/-- The detail for a missing block. -/
def blockMissing (req : Request) : Option Msg :=
  some ⟨"block " ++ req.matched "id" ++ " not found", none⟩

/-- The detail for something missing of a transaction. -/
def ofHashMissing (what : String) (req : Request) : Option Msg :=
  (validateTxHash (req.matched "hash")).map fun hash => ⟨what ++ hash ++ " not found", none⟩

/-- `_by_number_method` -/
def byNumberMethod (stem : String) (bid : BlockId) : String :=
  if bid.isHash then stem ++ "ByHash" else stem ++ "ByNumber"

/-- The call of `_fetch_block`. -/
def fetchBlock (bid : BlockId) : RpcCall :=
  ⟨byNumberMethod "eth_getBlock" bid, [.str bid.toRpcParam, .bool true]⟩

end ExecRestApi
