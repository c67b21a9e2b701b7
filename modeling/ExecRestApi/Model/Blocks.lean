/-
Shape converters of `handlers/blocks.py`.
-/
import ExecRestApi.Model.Encoding

namespace ExecRestApi

open Py

/-- `key in v` with a string key: a field of an object, an item of a list, a part of a text. -/
def isIn (key : String) (v : Json) : Except Exc Bool :=
  match v with
  | .obj fields => .ok (Json.field? fields key).isSome
  | .arr items => .ok (decide (Json.str key ∈ items))
  | .str s => .ok (contains s key)
  | _ => .error .typeError

/-- `_hex` -/
def headerHex (rpc : Json) (key : String) : Except Exc (String × Json) := do
  let v ← dictGet rpc key
  match v with
  | .str s => pure (key, .str (lower s))
  | _ => pure (key, .str "0x")

/-- `_int` -/
def headerInt (rpc : Json) (key : String) : Except Exc (String × Json) := do
  let v ← dictGet rpc key
  match v with
  | .str _ => do
      let n ← hexToInt v
      pure (key, .int n)
  | _ => pure (key, .int 0)

/-- `_wei` -/
def headerWei (rpc : Json) (key : String) : Except Exc (String × Json) := do
  let v ← dictGet rpc key
  match v with
  | .str _ => do
      let w ← weiFromRpc v
      pure (key, .str w)
  | _ => pure (key, .str "0")

/-- A field that is only there if it is there upstream and not `None`. -/
def headerExtra (convert : Json → Except Exc Json) (rpc : Json) (key : String) :
    Except Exc (List (String × Json)) := do
  let v ← dictGet rpc key
  if v = .null then pure []
  else do
    let x ← convert v
    pure [(key, x)]

/-- The address of the miner, which defaults to zero. -/
def headerMiner (rpc : Json) : Except Exc (String × Json) := do
  let present ← isIn "miner" rpc
  if present then do
    let v ← getItem rpc "miner"
    let a ← mapAddressLowercase v
    pure ("miner", .str a)
  else pure ("miner", .str "0x0000000000000000000000000000000000000000")

/-- `v.lower()` as a value. -/
def lowerJson (v : Json) : Except Exc Json := do
  let s ← lowerOf v
  pure (.str s)

/-- `hex_to_int(v)` as a value. -/
def hexJson (v : Json) : Except Exc Json := do
  let n ← hexToInt v
  pure (.int n)

/-- `wei_from_rpc(v)` as a value. -/
def weiJson (v : Json) : Except Exc Json := do
  let w ← weiFromRpc v
  pure (.str w)

/-- The fields of a header past its number and hash. -/
def headerRest (rpc : Json) : Except Exc (List (String × Json)) := do
  let roots ← ["parentHash", "stateRoot", "transactionsRoot", "receiptsRoot", "logsBloom"].mapM
    (headerHex rpc)
  let sizes ← ["gasUsed", "gasLimit", "timestamp"].mapM (headerInt rpc)
  let miner ← headerMiner rpc
  let difficulties ← ["difficulty", "totalDifficulty"].mapM (headerWei rpc)
  let blobs ← ["extraData", "mixHash", "nonce"].mapM (headerHex rpc)
  let size ← headerInt rpc "size"
  let baseFeePerGas ← headerExtra weiJson rpc "baseFeePerGas"
  let withdrawalsRoot ← headerExtra lowerJson rpc "withdrawalsRoot"
  let blobGasUsed ← headerExtra hexJson rpc "blobGasUsed"
  let excessBlobGas ← headerExtra hexJson rpc "excessBlobGas"
  let parentBeaconBlockRoot ← headerExtra lowerJson rpc "parentBeaconBlockRoot"
  pure (roots ++ sizes ++ [miner] ++ difficulties ++ blobs ++ [size] ++ baseFeePerGas
    ++ withdrawalsRoot ++ blobGasUsed ++ excessBlobGas ++ parentBeaconBlockRoot)

/-- What the check at the top of `block_header_from_rpc` finds. -/
def hasNumberAndHash (rpc : Json) : Except Exc Bool := do
  let number ← isIn "number" rpc
  if number then isIn "hash" rpc else pure false

/-- `block_header_from_rpc` -/
def blockHeaderFromRpc (rpc : Json) : Except Exc Json := do
  let complete ← hasNumberAndHash rpc
  if complete then do
    let number ← getItem rpc "number"
    let number ← hexToInt number
    let hash ← getItem rpc "hash"
    let hash ← lowerOf hash
    let rest ← headerRest rpc
    pure (.obj (("number", .int number) :: ("hash", .str hash) :: rest))
  else .error (.keyError "block header requires `number` and `hash`")

/-- **The number of a header is the number of its block.** -/
theorem number_of_blockHeaderFromRpc {rpc header : Json}
    (h : blockHeaderFromRpc rpc = .ok header) :
    ∃ raw number rest, getItem rpc "number" = .ok raw ∧ hexToInt raw = .ok number ∧
      header = .obj (("number", .int number) :: rest) := by
  unfold blockHeaderFromRpc at h
  obtain ⟨complete, -, h⟩ := bind_eq_ok.mp h
  cases complete with
  | false => cases h
  | true =>
      simp only [if_true, bind_eq_ok] at h
      obtain ⟨raw, hraw, number, hnumber, hash, -, hash', -, rest, -, heq⟩ := h
      cases heq
      exact ⟨raw, number, _, hraw, hnumber, rfl⟩

end ExecRestApi
