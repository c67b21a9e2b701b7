/-
The endpoints that fan out (`handlers/chain.py`, `handlers/accounts.py`, `delegation.py`).

They give `asyncio.gather` some coroutines, each of which makes one call of the upstream, and
shape what the calls have returned.
-/
import ExecRestApi.Lib.Gather
import ExecRestApi.Model.Accounts

namespace ExecRestApi

open Py Interaction

/-- A coroutine that is given to `asyncio.gather`. -/
inductive Coro where
  /-- `upstream.call` -/
  | call (rpc : RpcCall)
  /-- `_maybe` -/
  | maybe (rpc : RpcCall)
  deriving DecidableEq

/-- The call it makes. -/
def Coro.rpc : Coro → RpcCall
  | .call rpc => rpc
  | .maybe rpc => rpc

/-- The codes that `_maybe` takes for `None`. -/
def degradedCodes : List Int := [-32601, -32004]

/-- What it does. -/
def Coro.run : Coro → Handler Json
  | .call rpc => .ask rpc Prog.ofExcept
  | .maybe rpc =>
      .ask rpc fun
        | .ok v => .pure v
        | .error (.jsonRpcError e) =>
            if e.code ∈ degradedCodes then .pure .null else .throw (.jsonRpcError e)
        | .error e => .throw e

/-- A handler that gathers. -/
structure Composite where
  coros : List Coro
  /-- The response to what they return. -/
  shape : List Json → Except Exc Response

/-- The awaited `asyncio.gather`. -/
abbrev Gathering := Gather RpcCall Reply Exc Json

namespace Composite

/-- The coroutines begin. -/
def start (c : Composite) : Gathering := Gather.start (c.coros.map Coro.run)

/-- The response, once it is there. -/
def response (c : Composite) (g : Gathering) : Option (Except Exc Response) :=
  g.outcome.map fun out => out >>= c.shape

/-- The handler that awaits one call after the other. -/
def inOrder (c : Composite) : Handler Response := do
  let vs ← Prog.inOrder (c.coros.map Coro.run)
  c.shape vs

end Composite

/-! ### chain.py -/

/-- `_sync_to_rest` -/
def syncToRest (rpcValue : Json) : Except Exc Json :=
  match rpcValue with
  | .bool false => .ok (.obj [("syncing", .bool false)])
  | .obj _ => do
      let startingBlock ← getItem rpcValue "startingBlock"
      let startingBlock ← hexJson startingBlock
      let currentBlock ← getItem rpcValue "currentBlock"
      let currentBlock ← hexJson currentBlock
      let highestBlock ← getItem rpcValue "highestBlock"
      let highestBlock ← hexJson highestBlock
      pure (.obj [("syncing", .bool true), ("startingBlock", startingBlock),
        ("currentBlock", currentBlock), ("highestBlock", highestBlock)])
  | _ => .error (.badValue ⟨"unexpected eth_syncing response: ", some rpcValue⟩)

/-- The response of `chain`. -/
def chainShape : List Json → Except Exc Response
  | [chainIdHex, networkId, clientVer, sync, blockHex] => do
      let chainId ← hexJson chainIdHex
      let blockNumber ← hexJson blockHex
      let syncing ← syncToRest sync
      jsonResponse (.obj [("chainId", chainId), ("networkId", networkId), ("client", clientVer),
        ("blockNumber", blockNumber), ("syncing", syncing)]) []
  | _ => .error .valueError

/-- `chain` -/
def chain : Composite where
  coros := [.call ⟨"eth_chainId", []⟩, .call ⟨"net_version", []⟩, .call ⟨"web3_clientVersion", []⟩,
    .call ⟨"eth_syncing", []⟩, .call ⟨"eth_blockNumber", []⟩]
  shape := chainShape

/-- The response of `chain_peers`. -/
def chainPeersShape : List Json → Except Exc Response
  | [peerHex, listening] => do
      let peerCount ← hexJson peerHex
      jsonResponse (.obj [("peerCount", peerCount), ("listening", .bool (!listening.isFalsy))]) []
  | _ => .error .valueError

/-- `chain_peers` -/
def chainPeers : Composite where
  coros := [.call ⟨"net_peerCount", []⟩, .call ⟨"net_listening", []⟩]
  shape := chainPeersShape

/-! ### delegation.py -/

/-- `_DELEGATION_PREFIX` -/
def delegationPrefix : List Char := "ef0100".toList

/-- `_DELEGATION_CODE_LEN_HEX` -/
def delegationCodeLenHex : Nat := 46

/-- `detect_delegate` -/
def detectDelegate (codeHex : String) : Except Exc (Option String) :=
  if hexBytesRe codeHex then
    let payload := (lower (String.ofList (codeHex.toList.drop 2))).toList
    if payload.length ≠ delegationCodeLenHex then .ok none
    else if payload.take delegationPrefix.length ≠ delegationPrefix then .ok none
    else .ok (some (String.ofList ('0' :: 'x' :: payload.drop delegationPrefix.length)))
  else .error (.badValue ⟨"expected 0x-prefixed even-length hex, got ", some (.str codeHex)⟩)

/-! ### accounts.py -/

/-- The delegate of an account with this code, or `None`. -/
def delegatedTo (codeLower : String) : Except Exc Json :=
  if codeLower = "0x" then .ok .null
  else do
    let delegate ← detectDelegate codeLower
    pure (match delegate with
      | some d => .str d
      | none => .null)

/-- The response of `account_summary`. -/
def accountSummaryShape (addr : String) : List Json → Except Exc Response
  | [balance, nonce, code] => do
      let codeLower ← lowerOf code
      let delegate ← delegatedTo codeLower
      let balance ← weiJson balance
      let nonce ← hexJson nonce
      jsonResponse (.obj [("address", .str addr), ("balance", balance), ("nonce", nonce),
        ("hasCode", .bool (decide (codeLower ≠ "0x"))), ("delegatedTo", delegate)]) []
  | _ => .error .valueError

/-- `account_summary`, up to where it gathers. -/
def accountSummary (req : Request) : Except Exc (Response ⊕ Composite) :=
  unlessRefused (parseAddress (req.matched "addr") req.path) fun addr =>
    unlessRefused (parseAt req) fun bid =>
      let params : List Json := [.str addr, .str bid.toRpcParam]
      .ok (.inr {
        coros := [.call ⟨"eth_getBalance", params⟩, .call ⟨"eth_getTransactionCount", params⟩,
          .call ⟨"eth_getCode", params⟩]
        shape := accountSummaryShape addr })

/-- A price that is only there if the upstream has given one. -/
def templatePrice (key : String) (price : Json) : Except Exc (List (String × Json)) :=
  if price = .null then .ok []
  else do
    let wei ← weiJson price
    pure [(key, wei)]

/-- The response of `transaction_template`. -/
def transactionTemplateShape : List Json → Except Exc Response
  | [nonce, chainId, gasPrice, priorityFee] => do
      let nonce ← hexJson nonce
      let chainId ← hexJson chainId
      let gasPrice ← templatePrice "gasPrice" gasPrice
      let priorityFee ← templatePrice "maxPriorityFeePerGas" priorityFee
      jsonResponse (.obj ([("nonce", nonce), ("chainId", chainId)] ++ gasPrice ++ priorityFee)) []
  | _ => .error .valueError

/-- `transaction_template`, up to where it gathers. -/
def transactionTemplate (req : Request) : Except Exc (Response ⊕ Composite) :=
  unlessRefused (parseAddress (req.matched "addr") req.path) fun addr =>
    unlessRefused (parseAt req) fun bid =>
      .ok (.inr {
        coros := [.call ⟨"eth_getTransactionCount", [.str addr, .str bid.toRpcParam]⟩,
          .call ⟨"eth_chainId", []⟩, .maybe ⟨"eth_gasPrice", []⟩,
          .maybe ⟨"eth_maxPriorityFeePerGas", []⟩]
        shape := transactionTemplateShape })

/-- The endpoints. -/
inductive CompositeEndpoint where
  | chain
  | chainPeers
  | accountSummary
  | transactionTemplate
  deriving DecidableEq

/-- What an endpoint gathers for a request, unless it refuses it. -/
def compositeOf : CompositeEndpoint → Request → Except Exc (Response ⊕ Composite)
  | .chain, _ => .ok (.inr chain)
  | .chainPeers, _ => .ok (.inr chainPeers)
  | .accountSummary, req => accountSummary req
  | .transactionTemplate, req => transactionTemplate req

end ExecRestApi
