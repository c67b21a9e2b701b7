/-
Storage and proofs of an account (`handlers/accounts.py`).

A slot is hexadecimal or decimal in a path or a query, and hexadecimal only in the body of
`POST /accounts/{addr}/proof/search`.  Only `BlockIdError` is caught around the block, unlike in
the handlers that convert a call, and nothing around the conversion of a decimal slot.
-/
import ExecRestApi.Model.Computed

namespace ExecRestApi

open Py Interaction

/-- `_HEX_SLOT_RE.fullmatch`: `0x` and one to 64 hexadecimal digits. -/
def hexSlotRe (s : String) : Bool :=
  match s.toList with
  | '0' :: 'x' :: cs => cs.all isHex && decide (1 ≤ cs.length) && decide (cs.length ≤ 64)
  | _ => false

/-- `_pad_slot_to_32_bytes` -/
def padSlotTo32Bytes (slot : String) : String :=
  let digits := slot.toList.drop 2
  if 64 ≤ digits.length then slot
  else String.ofList ('0' :: 'x' :: (List.replicate (64 - digits.length) '0' ++ digits))

/-- `_parse_address` -/
def parseAddress (raw path : String) : Except Exc (Response ⊕ String) :=
  match mapAddressLowercase (.str raw) with
  | .ok addr => .ok (.inr addr)
  | .error (.encodingError msg) => .ok (.inl (badRequest path msg))
  | .error e => .error e

/-- `_parse_at` -/
def parseAt (req : Request) : Except Exc (Response ⊕ BlockId) :=
  match parseBlockId (.str ((req.queryGet "at").getD "latest")) with
  | .ok bid => .ok (.inr bid)
  | .error (.blockIdError msg) => .ok (.inl (badRequest req.path msg))
  | .error e => .error e

/-- `_parse_slot` -/
def parseSlot (raw path : String) : Except Exc (Response ⊕ String) :=
  if hexSlotRe raw then .ok (.inr (lower raw))
  else if decimalRe raw.toList then do
    let n ← intOfText raw
    pure (.inr (formatHex n))
  else .ok (.inl (badRequest path ⟨"storage slot must be 0x-hex or decimal, got ", some (.str raw)⟩))

/-- The loop of `_parse_slots_csv` over the pieces. -/
def parsePieces (path : String) : List (List Char) → Except Exc (Response ⊕ List String)
  | [] => .ok (.inr [])
  | piece :: rest =>
      unlessRefused (parseSlot (String.ofList (strip piece)) path) fun slot =>
        unlessRefused (parsePieces path rest) fun out =>
          .ok (.inr (padSlotTo32Bytes slot :: out))

/-- `_parse_slots_csv` -/
def parseSlotsCsv (raw : Option String) (path : String) : Except Exc (Response ⊕ List String) :=
  match raw with
  | none => .ok (.inr [])
  | some raw => if raw = "" then .ok (.inr []) else parsePieces path (splitOn ',' raw.toList)

/-- An entry of `slots`. -/
def proofSlot (s : Json) : Except Msg Json :=
  match s with
  | .str t =>
      if hexSlotRe t then .ok (.str (padSlotTo32Bytes (lower t)))
      else .error ⟨"slot must be 0x-hex (1..64 chars), got ", some s⟩
  | _ => .error ⟨"slot entries must be strings", none⟩

/-- The block of a body, which must be a string. -/
def proofAt (req : Request) (body : List (String × Json)) : Except Exc (Response ⊕ String) :=
  match (Json.field? body "at").getD (.str "latest") with
  | .str s =>
      match parseBlockId (.str s) with
      | .ok bid => .ok (.inr bid.toRpcParam)
      | .error (.blockIdError msg) => .ok (.inl (badRequest req.path msg))
      | .error e => .error e
  | _ => .ok (.inl (badRequest req.path ⟨"`at` must be a string block identifier", none⟩))

/-- The call of `post_proof_search`. -/
def proofSearchOf (req : Request) : Except Exc (Response ⊕ RpcCall) :=
  unlessRefused (parseAddress (req.matched "addr") req.path) fun addr =>
    unlessRefused (readJson req) fun body =>
      let refuse : Except Exc (Response ⊕ RpcCall) :=
        .ok (.inl (badRequest req.path ⟨"field `slots` is required", none⟩))
      match body with
      | .obj fields =>
          match Json.field? fields "slots" with
          | none => refuse
          | some (.arr slots) =>
              match slots.mapM proofSlot with
              | .error msg => .ok (.inl (badRequest req.path msg))
              | .ok slots =>
                  unlessRefused (proofAt req fields) fun at_ =>
                    .ok (.inr ⟨"eth_getProof", [.str addr, .arr slots, .str at_]⟩)
          | some _ => .ok (.inl (badRequest req.path ⟨"`slots` must be an array", none⟩))
      | _ => refuse

/-- `[p.lower() for p in v.get(key, [])]` -/
def lowerList (v : Json) (key : String) : Except Exc Json := do
  let items ← dictGetOr v key (.arr [])
  let items ← iterate items
  let items ← items.mapM (inputLower lower)
  pure (.arr items)

/-- `v[key].lower()` -/
def lowerItem (v : Json) (key : String) : Except Exc Json := do
  let item ← getItem v key
  inputLower lower item

/-- An entry of `storageProof`. -/
def storageProofEntry (entry : Json) : Except Exc Json := do
  let key ← lowerItem entry "key"
  let value ← lowerItem entry "value"
  let proof ← lowerList entry "proof"
  pure (.obj [("key", key), ("value", value), ("proof", proof)])

/-- `_proof_from_rpc` -/
def proofFromRpc (rpc : Json) : Except Exc Json := do
  let address ← getItem rpc "address"
  let address ← inputAddress address
  let balance ← getItem rpc "balance"
  let balance ← weiJson balance
  let codeHash ← lowerItem rpc "codeHash"
  let nonce ← getItem rpc "nonce"
  let nonce ← hexJson nonce
  let storageHash ← lowerItem rpc "storageHash"
  let accountProof ← lowerList rpc "accountProof"
  let storageProof ← dictGetOr rpc "storageProof" (.arr [])
  let storageProof ← iterate storageProof
  let storageProof ← storageProof.mapM storageProofEntry
  pure (.obj [("address", address), ("balance", balance), ("codeHash", codeHash), ("nonce", nonce),
    ("storageHash", storageHash), ("accountProof", accountProof),
    ("storageProof", .arr storageProof)])

/-- `post_proof_search` -/
def postProofSearch (_ : App) (req : Request) : Handler Response := do
  match ← (proofSearchOf req : Except Exc (Response ⊕ RpcCall)) with
  | .inl resp => pure resp
  | .inr rpc => do
      let result ← call rpc.method rpc.params
      let proof ← proofFromRpc result
      jsonResponse proof []

/-- The call of `account_storage`. -/
def storageOf (req : Request) : Except Exc (Response ⊕ RpcCall) :=
  unlessRefused (parseAddress (req.matched "addr") req.path) fun addr =>
    unlessRefused (parseSlot (req.matched "slot") req.path) fun slot =>
      unlessRefused (parseAt req) fun bid =>
        .ok (.inr ⟨"eth_getStorageAt", [.str addr, .str slot, .str bid.toRpcParam]⟩)

/-- `account_storage` -/
def accountStorage (_ : App) (req : Request) : Handler Response := do
  match ← (storageOf req : Except Exc (Response ⊕ RpcCall)) with
  | .inl resp => pure resp
  | .inr rpc => do
      let result ← call rpc.method rpc.params
      let value ← lowerOf result
      jsonResponse (.obj [("value", .str value)]) []

/-- The call of `account_proof`. -/
def accountProofOf (req : Request) : Except Exc (Response ⊕ RpcCall) :=
  unlessRefused (parseAddress (req.matched "addr") req.path) fun addr =>
    unlessRefused (parseAt req) fun bid =>
      unlessRefused (parseSlotsCsv (req.queryGet "slots") req.path) fun slots =>
        .ok (.inr ⟨"eth_getProof", [.str addr, .arr (slots.map .str), .str bid.toRpcParam]⟩)

/-- `account_proof` -/
def accountProof (_ : App) (req : Request) : Handler Response := do
  match ← (accountProofOf req : Except Exc (Response ⊕ RpcCall)) with
  | .inl resp => pure resp
  | .inr rpc => do
      let result ← call rpc.method rpc.params
      let proof ← proofFromRpc result
      jsonResponse proof []

end ExecRestApi
