/-
`GET /blocks/{id}/transactions/{index}` (`handlers/blocks.py`), and the shape of a transaction
(`handlers/transactions.py`).
-/
import ExecRestApi.Model.Accounts
import ExecRestApi.Model.TraceCalls

namespace ExecRestApi

open Py Interaction

/-- `_TX_TYPE_RPC_TO_REST` -/
def txTypeRpcToRest : List (String × String) :=
  [("0x0", "legacy"), ("0x1", "access-list"), ("0x2", "dynamic-fee"), ("0x3", "blob")]

/-- `rest_tx_type_from_rpc` -/
def restTxTypeFromRpc (rpc : Json) : Except Exc Json :=
  let unknown : Except Exc Json := .error (.encodingError ⟨"unknown transaction type: ", rpc⟩)
  match rpc with
  | .str s =>
      match Dict.lookupIn s txTypeRpcToRest with
      | some t => .ok (.str t)
      | none => unknown
  | _ => if rpc.isHashable then unknown else .error .typeError

/-- A field that is `None` if it is missing or `None` upstream. -/
def orNone (convert : Json → Except Exc Json) (rpc : Json) (key : String) : Except Exc Json := do
  let v ← dictGet rpc key
  if v = .null then pure .null else convert v

/-- The hash of the block, where any falsy value is `None`. -/
def blockHashOrNone (rpc : Json) : Except Exc Json := do
  let v ← dictGet rpc "blockHash"
  if v.isFalsy then pure .null else lowerItem rpc "blockHash"

/-- An entry of the access list of a transaction. -/
def txAccessListEntry (entry : Json) : Except Exc Json := do
  let address ← getItem entry "address"
  let address ← inputAddress address
  let keys ← lowerList entry "storageKeys"
  pure (.obj [("address", address), ("storageKeys", keys)])

/-- The access list of a transaction. -/
def txAccessList (v : Json) : Except Exc Json := do
  let entries ← iterate v
  let entries ← entries.mapM txAccessListEntry
  pure (.arr entries)

/-- `[h.lower() for h in v]` -/
def lowerItems (v : Json) : Except Exc Json := do
  let items ← iterate v
  let items ← items.mapM (inputLower lower)
  pure (.arr items)

/-- The fields of a transaction that are left out if they are missing or `None`. -/
def txExtras (rpc : Json) : Except Exc (List (String × Json)) := do
  let chainId ← headerExtra hexJson rpc "chainId"
  let gasPrice ← headerExtra weiJson rpc "gasPrice"
  let maxFeePerGas ← headerExtra weiJson rpc "maxFeePerGas"
  let maxPriorityFeePerGas ← headerExtra weiJson rpc "maxPriorityFeePerGas"
  let maxFeePerBlobGas ← headerExtra weiJson rpc "maxFeePerBlobGas"
  let accessList ← headerExtra txAccessList rpc "accessList"
  let blobVersionedHashes ← headerExtra lowerItems rpc "blobVersionedHashes"
  let v ← headerExtra (inputLower lower) rpc "v"
  let yParity ← headerExtra hexJson rpc "yParity"
  pure (chainId ++ gasPrice ++ maxFeePerGas ++ maxPriorityFeePerGas ++ maxFeePerBlobGas ++ accessList
    ++ blobVersionedHashes ++ v ++ yParity)

/-- `transaction_from_rpc` -/
def transactionFromRpc (rpc : Json) : Except Exc Json := do
  let type ← getItem rpc "type"
  let type ← restTxTypeFromRpc type
  let hash ← lowerItem rpc "hash"
  let sender ← getItem rpc "from"
  let sender ← inputAddress sender
  let nonce ← getItem rpc "nonce"
  let nonce ← hexJson nonce
  let gas ← getItem rpc "gas"
  let gas ← hexJson gas
  let input ← lowerItem rpc "input"
  let value ← getItem rpc "value"
  let value ← weiJson value
  let r ← lowerItem rpc "r"
  let s ← lowerItem rpc "s"
  let blockHash ← blockHashOrNone rpc
  let blockNumber ← orNone hexJson rpc "blockNumber"
  let transactionIndex ← orNone hexJson rpc "transactionIndex"
  let recipient ← orNone inputAddress rpc "to"
  let extras ← txExtras rpc
  pure (.obj ([("type", type), ("hash", hash), ("from", sender), ("nonce", nonce), ("gas", gas),
    ("input", input), ("value", value), ("r", r), ("s", s), ("blockHash", blockHash),
    ("blockNumber", blockNumber), ("transactionIndex", transactionIndex), ("to", recipient)] ++ extras))

/-- `_not_found` -/
def notFound (path : String) (detail : Msg) : Response :=
  problemResponse ⟨404, "not-found", "Not found", some detail, some path, none, .null⟩

/-- `BlockId.is_hash` -/
def BlockId.isHash : BlockId → Bool
  | hash _ => true
  | _ => false

/-- The call of `get_block_transaction_by_index`. -/
def blockTransactionOf (req : Request) : Except Exc (Response ⊕ RpcCall) :=
  unlessRefused (parseId (req.matched "id") req.path) fun bid =>
    let indexRaw := req.matched "index"
    if decimalRe indexRaw.toList then do
      let index ← intOfText indexRaw
      let hexIndex ← decimalToHex index
      let method := if bid.isHash then "eth_getTransactionByBlockHashAndIndex"
        else "eth_getTransactionByBlockNumberAndIndex"
      pure (.inr ⟨method, [.str bid.toRpcParam, .str hexIndex]⟩)
    else
      .ok (.inl (badRequest req.path
        ⟨"transaction index must be a non-negative integer, got ", some (.str indexRaw)⟩))

/-- The answer to a missing transaction, which names the index as a number. -/
def transactionNotFound (req : Request) : Except Exc Response := do
  let index ← intOfText (req.matched "index")
  let text ← strInt index
  pure (notFound req.path
    ⟨"transaction at index " ++ text ++ " not found in block " ++ req.matched "id", none⟩)

/-- `get_block_transaction_by_index` -/
def getBlockTransactionByIndex (_ : App) (req : Request) : Handler Response := do
  match ← (blockTransactionOf req : Except Exc (Response ⊕ RpcCall)) with
  | .inl resp => pure resp
  | .inr rpc => do
      let result ← call rpc.method rpc.params
      if result = .null then transactionNotFound req
      else do
        let tx ← transactionFromRpc result
        jsonResponse tx []

end ExecRestApi
