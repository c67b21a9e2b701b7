/-
Block identifiers (`block_id.py`, `block_resolve.py`).

`parse_block_id` is given strings by query parameters and any JSON value by request
bodies, so it is modelled on the latter.
-/
import ExecRestApi.Model.Encoding
import ExecRestApi.Model.Upstream

namespace ExecRestApi

open Py Interaction

/-- `_BLOCK_TAGS` -/
def blockTags : List String := ["latest", "safe", "finalized", "pending", "earliest"]

/-- `BlockId`, which has exactly one of its three fields set. -/
inductive BlockId where
  | tag (t : String)
  | number (n : Int)
  | hash (h : String)
  deriving DecidableEq

/-- `BlockId.to_rpc_param` -/
def BlockId.toRpcParam : BlockId → String
  | tag t => t
  | number n => formatHex n
  | hash h => h

/-- `parse_block_id` -/
def parseBlockId (raw : Json) : Except Exc BlockId :=
  if raw.isFalsy then .error (.blockIdError ⟨"block id is empty", none⟩)
  else match raw with
    | .str s =>
        if s ∈ blockTags then .ok (.tag s)
        else if decimalRe s.toList then
          match int? s with
          | some n => .ok (.number n)
          | none => .error .valueError
        else if fixedHexRe 64 s.toList then .ok (.hash (lower s))
        else .error (.blockIdError ⟨"unrecognised block identifier: ", raw⟩)
    -- unhashable for the set of tags, or not text for the pattern
    | _ => .error .typeError

/-- The `number` field of a block, or `None` for no block. -/
def blockNumberOf (rpc : Json) : Except Exc (Option Int) :=
  if rpc = .null then .ok none
  else do
    let n ← getItem rpc "number"
    let n ← hexToInt n
    pure (some (n : Int))

/-- `resolve_block_id` -/
def resolveBlockId : BlockId → Handler (Option Int)
  | .number n => pure (some n)
  | .tag t =>
      if t = "earliest" then pure (some 0)
      else if t = "latest" then do
        let headHex ← call "eth_blockNumber" []
        let n ← hexToInt headHex
        pure (some (n : Int))
      else do
        let rpc ← call "eth_getBlockByNumber" [.str t, .bool false]
        blockNumberOf rpc
  | .hash h => do
      let rpc ← call "eth_getBlockByHash" [.str h, .bool false]
      blockNumberOf rpc

end ExecRestApi
