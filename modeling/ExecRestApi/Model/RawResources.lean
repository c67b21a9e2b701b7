/-
Raw bytes in and out (`handlers/blocks.py`, `handlers/transactions.py`).

A client can have some resources as the bytes the node keeps, and can send a transaction as such.
The upstream has bytes as hexadecimal text, which `bytes.fromhex` reads: it skips ASCII blanks
between two bytes, and refuses anything else that is no digit.
-/
import ExecRestApi.Lib.HexBytes
import ExecRestApi.Model.Resources

namespace ExecRestApi

open Py Interaction

/-! ### Bytes -/

/-- ASCII white space -/
def isAsciiSpace (c : Char) : Bool := (9 ≤ c.toNat && c.toNat ≤ 13) || c.toNat == 32

/-- `bytes.fromhex` -/
def bytesFromHex : List Char → Except Exc (List Nat)
  | [] => .ok []
  | [c] => if isAsciiSpace c then .ok [] else .error .valueError
  | c :: d :: cs =>
      if isAsciiSpace c then bytesFromHex (d :: cs)
      else if isHex c && isHex d then do
        let bs ← bytesFromHex cs
        pure ((16 * digitOf c + digitOf d) :: bs)
      else .error .valueError

/-- `hex_str[2:] if hex_str.startswith("0x") else hex_str` -/
def withoutZeroX : List Char → List Char
  | '0' :: 'x' :: cs => cs
  | cs => cs

/-- `_hex_to_bytes` -/
def hexToBytes (v : Json) : Except Exc (List Nat) :=
  match v with
  | .str s => bytesFromHex (withoutZeroX s.toList)
  | _ => .error .attributeError

/-! ### Two representations -/

/-- A response, or bytes with the content type of RLP. -/
inductive Representation where
  | json (r : Response)
  | rlp (body : List Nat)
  deriving DecidableEq

/-- What the handlers read of a request. -/
structure RawRequest where
  req : Request
  /-- its `Accept` header -/
  accept : Option String
  /-- its `Content-Type` header -/
  contentType : Option String
  /-- `await request.read()` -/
  bytes : List Nat

/-- The representations there are. -/
def supportedTypes : List String := [contentTypeJson, contentTypeRlp]

theorem supportedTypes_ne_nil : supportedTypes ≠ [] := List.cons_ne_nil _ _

/-- `_not_acceptable` -/
def notAcceptable (path : String) : Response :=
  problemResponse ⟨406, "not-acceptable", "Not acceptable",
    some ⟨"supported representations: " ++ ", ".intercalate supportedTypes, none⟩, some path, none,
    .null⟩

/-- `_rlp_response` -/
def rlpResponse (v : Json) : Except Exc Representation := do
  let bs ← hexToBytes v
  pure (.rlp bs)

/-- What a handler with two representations gets and makes of it. -/
structure RawResource where
  /-- the answer, or the two calls -/
  read : Request → Except Exc (Response ⊕ (RpcCall × RpcCall))
  missing : Request → Option Msg
  shape : Json → Except Exc Json
  /-- the bytes of a raw result, or `None` if the handler takes it for missing -/
  raw : Json → Option (Except Exc Representation)

/-- The response to a result. -/
def RawResource.respond (r : RawResource) (req : Request) (result : Json) : Except Exc Response :=
  match result, r.missing req with
  | .null, some detail => .ok (notFound req.path detail)
  | _, _ => do
      let v ← r.shape result
      jsonResponse v []

/-- The response to a raw result. -/
def RawResource.respondRaw (r : RawResource) (req : Request) (result : Json) :
    Except Exc Representation :=
  match r.raw result with
  | none => .ok (.json (notFound req.path ((r.missing req).getD ⟨"", none⟩)))
  | some x => x

/-- The handler. -/
def RawResource.run (r : RawResource) (sort : List (String × Flt) → List (String × Flt))
    (req : RawRequest) : Handler Representation := do
  match ← (r.read req.req : Except Exc (Response ⊕ (RpcCall × RpcCall))) with
  | .inl resp => pure (.json resp)
  | .inr (rpc, rawRpc) =>
      match selectRepresentation lower sort req.accept supportedTypes supportedTypes_ne_nil with
      | none => pure (.json (notAcceptable req.req.path))
      | some chosen =>
          if chosen = contentTypeRlp then do
            let result ← call rawRpc.method rawRpc.params
            r.respondRaw req.req result
          else do
            let result ← call rpc.method rpc.params
            let resp ← (r.respond req.req result : Except Exc Response)
            pure (.json resp)

/-- Where `None` and `"0x"` are missing. -/
def rawUnlessEmpty (raw : Json) : Option (Except Exc Representation) :=
  if raw = .null ∨ raw = .str "0x" then none else some (rlpResponse raw)

/-- `b"".join(...)` over a list, or one text. -/
def rawReceipts (raw : Json) : Option (Except Exc Representation) :=
  match raw with
  | .null => none
  | .arr items =>
      some do
        let parts ← items.mapM hexToBytes
        pure (.rlp parts.flatten)
  | v => some (rlpResponse v)

/-- `get_transaction` -/
def getTransaction : RawResource where
  read req :=
    match validateTxHash (req.matched "hash") with
    | none => .ok (.inl (badHash req.path))
    | some hash =>
        .ok (.inr (⟨"eth_getTransactionByHash", [.str hash]⟩, ⟨"debug_getRawTransaction", [.str hash]⟩))
  missing := ofHashMissing "transaction "
  shape := transactionFromRpc
  raw := rawUnlessEmpty

/-- The calls about a block. -/
def ofRawBlock (call : BlockId → RpcCall) (rawMethod : String) (req : Request) :
    Except Exc (Response ⊕ (RpcCall × RpcCall)) :=
  unlessRefused (parseId (req.matched "id") req.path) fun bid =>
    .ok (.inr (call bid, ⟨rawMethod, [.str bid.toRpcParam]⟩))

/-- `get_block` -/
def getBlock : RawResource where
  read := ofRawBlock fetchBlock "debug_getRawBlock"
  missing := blockMissing
  shape := blockFromRpc
  raw := rawUnlessEmpty

/-- `get_block_header` -/
def getBlockHeader : RawResource where
  read := ofRawBlock fetchBlock "debug_getRawHeader"
  missing := blockMissing
  shape := blockHeaderFromRpc
  raw := rawUnlessEmpty

/-- `get_block_receipts` -/
def getBlockReceipts : RawResource where
  read := ofRawBlock (fun bid => ⟨"eth_getBlockReceipts", [.str bid.toRpcParam]⟩)
    "debug_getRawReceipts"
  missing := blockMissing
  shape := shapeItems receiptFromRpc
  raw := rawReceipts

/-! ### Sending a transaction -/

/-- `_unsupported_media_type` -/
def unsupportedMediaType (path : String) : Response :=
  problemResponse ⟨415, "unsupported-media-type", "Unsupported media type",
    some ⟨"POST /transactions accepts application/json or application/vnd.ethereum.rlp", none⟩,
    some path, none, .null⟩

/-- `(ct or "").split(";", 1)[0].strip().lower()` -/
def mediaType (contentType : Option String) : String :=
  lower (String.ofList (strip ((contentType.getD "").toList.takeWhile (· != ';'))))

/-- `_HEX_BYTES_RE.fullmatch`: at least one byte. -/
def rawTxRe (s : String) : Bool := hexBytesRe s && decide (s ≠ "0x")

/-- The transaction in a JSON body. -/
def rawTxOfJson (req : Request) : Except Exc (Response ⊕ String) :=
  unlessRefused (readJson req) fun body =>
    let missing : Except Exc (Response ⊕ String) :=
      .ok (.inl (badRequest req.path ⟨"field `raw` is required", none⟩))
    match body with
    | .obj fields =>
        match Json.field? fields "raw" with
        | none => missing
        | some (.str raw) =>
            if rawTxRe raw then .ok (.inr (lower raw))
            else .ok (.inl (badRequest req.path ⟨"field `raw` must be 0x-prefixed hex bytes", none⟩))
        | some _ =>
            .ok (.inl (badRequest req.path ⟨"field `raw` must be 0x-prefixed hex bytes", none⟩))
    | _ => missing

/-- `_read_raw_tx` -/
def readRawTx (req : RawRequest) : Except Exc (Response ⊕ String) :=
  let ct := mediaType req.contentType
  if ct = contentTypeRlp then
    if req.bytes = [] then .ok (.inl (badRequest req.req.path ⟨"RLP body is empty", none⟩))
    else .ok (.inr (String.ofList ('0' :: 'x' :: hexBytes req.bytes)))
  else if ct = "application/json" ∨ ct = "" then rawTxOfJson req.req
  else .ok (.inl (unsupportedMediaType req.req.path))

/-- The response to the hash of a transaction that was sent. -/
def sentResponse (path : String) (result : Json) : Except Exc Response :=
  match result with
  | .str hash => do
      let resp ← jsonResponse (.obj [("hash", .str (lower hash))])
        [("Location", "/transactions/" ++ lower hash)]
      pure { resp with status := 202 }
  | _ => .ok (upstreamMalformed path "eth_sendRawTransaction returned non-string")

/-- `post_transaction` -/
def postTransaction (req : RawRequest) : Handler Response := do
  match ← (readRawTx req : Except Exc (Response ⊕ String)) with
  | .inl resp => pure resp
  | .inr raw => do
      let result ← call "eth_sendRawTransaction" [.str raw]
      sentResponse req.req.path result

end ExecRestApi
