/-
Internal block-range chunking for `/logs` (`pagination.py`).

The `while` loop is `fetchLoop`.  A page moves `cur` up by at least one block and a
rejection halves the chunk, so the blocks left, weighed above any chunk size, plus the
chunk size itself go down at every turn; this is what lets the loop be an ordinary
recursive function for every behaviour of the upstream.
-/
import ExecRestApi.Model.Encoding
import ExecRestApi.Model.Upstream
import Mathlib.Tactic.Linarith

namespace ExecRestApi

open Py Interaction

/-- `DEFAULT_CHUNK_SIZE` -/
def defaultChunkSize : Nat := 5000

/-- `_MIN_CHUNK_SIZE` -/
def minChunkSize : Nat := 1

/-- `_TOO_LARGE_PATTERNS` -/
def tooLargePatterns : List String := ["query returned more than", "exceed maximum block range"]

/-- `_is_too_large` -/
def isTooLarge (err : JsonRpcError) : Bool :=
  err.code == -32000 && tooLargePatterns.any fun p => contains (lower err.message) p

/-- `PaginationResult`: `nextFromBlock` is `none` if the requested range was fully scanned. -/
structure PaginationResult where
  items : List Json
  nextFromBlock : Option Nat
  lastLogIndex : Int
  deriving DecidableEq

/-- The chunk sizes the loop goes through. -/
def ChunkSize : Type := {n : Nat // 1 ≤ n ∧ n ≤ 5000}

/-- The chunk the loop starts with. -/
def ChunkSize.default : ChunkSize := ⟨defaultChunkSize, by decide⟩

/-- `max(_MIN_CHUNK_SIZE, chunk // 2)` -/
def ChunkSize.halve (c : ChunkSize) : ChunkSize :=
  ⟨max minChunkSize (c.1 / 2), by
    have := c.2
    simp only [minChunkSize]
    omega⟩

/-- `min(DEFAULT_CHUNK_SIZE, max(_MIN_CHUNK_SIZE, chunk * 2))` -/
def ChunkSize.grow (c : ChunkSize) : ChunkSize :=
  ⟨min defaultChunkSize (max minChunkSize (c.1 * 2)), by
    have := c.2
    simp only [minChunkSize, defaultChunkSize]
    omega⟩

/-- The last block of the range asked next: `min(cur + chunk - 1, to_block)`. -/
def chunkEnd (cur : Int) (chunk : ChunkSize) (toBlock : Int) : Int := min (cur + chunk.1 - 1) toBlock

/-- The `params` of one `eth_getLogs` call. -/
def getLogsParams (filter : List (String × Json)) (cur last : Int) : Except Exc Json := do
  let fromHex ← decimalToHex cur
  let toHex ← decimalToHex last
  pure (.obj ((filter.filter fun kv => kv.1 != "fromBlock" && kv.1 != "toBlock")
    ++ [("fromBlock", .str fromHex), ("toBlock", .str toHex)]))

/-- The block number and log index of a log. -/
def logPosition (log : Json) : Except Exc (Nat × Nat) := do
  let blockNumber ← getItem log "blockNumber"
  let blockNumber ← hexToInt blockNumber
  let logIndex ← getItem log "logIndex"
  let logIndex ← hexToInt logIndex
  pure (blockNumber, logIndex)

/-- What does not change while the loop runs. -/
structure Fetch where
  filter : List (String × Json)
  toBlock : Int
  limit : Int
  skipUntil : Int

/-- The `for` loop over one page: the items so far, or the result if the limit is reached. -/
def scanPage (f : Fetch) (skipBlock : Int) :
    List Json → List Json → Except Exc (List Json ⊕ PaginationResult)
  | items, [] => .ok (.inl items)
  | items, log :: rest => do
      let (blockNumber, logIndex) ← logPosition log
      if (blockNumber : Int) = skipBlock ∧ (logIndex : Int) ≤ f.skipUntil then
        scanPage f skipBlock items rest
      else if f.limit ≤ ((items ++ [log]).length : Int) then
        -- stopped mid-block: the index just emitted is where the next page resumes
        pure (.inr ⟨items ++ [log], some blockNumber, logIndex⟩)
      else scanPage f skipBlock (items ++ [log]) rest

/-- One page as `eth_getLogs` returned it. -/
def readPage (f : Fetch) (skipBlock : Int) (items : List Json) (page : Json) :
    Except Exc (List Json ⊕ PaginationResult) := do
  let logs ← iterate page
  scanPage f skipBlock items logs

/-- The `while` loop of `fetch_logs_paginated`. -/
def fetchLoop (f : Fetch) (cur : Int) (chunk : ChunkSize) (skipBlock : Int) (items : List Json) :
    Handler PaginationResult :=
  if cur ≤ f.toBlock ∧ (items.length : Int) < f.limit then
    match getLogsParams f.filter cur (chunkEnd cur chunk f.toBlock) with
    | .error e => .throw e
    | .ok params =>
        .ask ⟨"eth_getLogs", [params]⟩ fun
          | .error (.jsonRpcError e) =>
              if isTooLarge e = true ∧ minChunkSize < chunk.1 then
                fetchLoop f cur chunk.halve skipBlock items
              else .throw (.jsonRpcError e)
          | .error e => .throw e
          | .ok page =>
              match readPage f skipBlock items page with
              | .error e => .throw e
              | .ok (.inr result) => .pure result
              -- the skip window is only for the very first block
              | .ok (.inl items') =>
                  fetchLoop f (chunkEnd cur chunk f.toBlock + 1) chunk.grow (-1) items'
  else .pure ⟨items, none, -1⟩
termination_by (f.toBlock + 1 - cur).toNat * 5001 + chunk.1
decreasing_by
  · rename_i hlt
    have : max minChunkSize (chunk.1 / 2) < chunk.1 := by
      have := hlt.2
      simp only [minChunkSize] at this ⊢
      omega
    simp only [ChunkSize.halve]
    omega
  · have hc := chunk.2
    have hg := chunk.grow.2
    simp only [chunkEnd]
    omega

/-- `fetch_logs_paginated` -/
def fetchLogsPaginated (filter : List (String × Json)) (fromBlock toBlock limit skipUntil : Int) :
    Handler PaginationResult :=
  fetchLoop ⟨filter, toBlock, limit, skipUntil⟩ fromBlock .default
    (if 0 ≤ skipUntil then fromBlock else -1) []

end ExecRestApi
