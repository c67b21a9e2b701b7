/-
The `/logs` handlers (`handlers/logs.py`).

`get_logs` and `post_logs_search` differ in how a first page is read from the request
and in the path their links point to.  What they share, the page limit, the cursor
page, the fetch and the link, is `logsPage`, with the rest as arguments.
-/
import ExecRestApi.Model.BlockId
import ExecRestApi.Model.Config
import ExecRestApi.Model.Cursor
import ExecRestApi.Model.Pagination
import ExecRestApi.Model.Transactions

namespace ExecRestApi

open Py Interaction

/-- What a handler finds in `request.app`, and how deeply the interpreter lets JSON nest that is
read or printed. -/
structure App where
  config : Config
  recursionLimit : Nat

/-- `_bad_request` -/
def badRequest (path : String) (detail : Msg) : Response :=
  problemResponse ⟨400, "invalid-request", "Invalid request", some detail, some path, none, .null⟩

/-- `_chain_reorged` -/
def chainReorged (path : String) (detail : Msg) : Response :=
  problemResponse ⟨409, "chain-reorged", "Chain reorganized", some detail, some path, none, .null⟩

/-- `_TOPIC_RE.fullmatch` -/
def topicRe (s : String) : Bool := fixedHexRe 64 s.toList

/-! ### Reading a first page from the query -/

/-- One turn of the loop in `_parse_topics`: the topics so far and how many of them are kept. -/
def topicStep (req : Request) (out : List Json × Nat) (name : String) :
    Except Msg (List Json × Nat) :=
  match req.queryGet name with
  | none => .ok (out.1 ++ [.null], out.2)
  | some val =>
      if topicRe val then .ok (out.1 ++ [.str (lower val)], out.1.length + 1)
      else .error ⟨name ++ " must be 0x-prefixed 32-byte hex, got ", some (.str val)⟩

/-- `_parse_topics`: trailing nulls are stripped. -/
def parseTopics (req : Request) : Except Msg (List Json) := do
  let (out, kept) ← ["topic0", "topic1", "topic2", "topic3"].foldlM (topicStep req) ([], 0)
  pure (out.take kept)

/-- The message of an `EncodingError`. -/
def encodingMsg {α : Type} : Except Exc α → Except Msg α
  | .ok a => .ok a
  | .error (.encodingError msg) => .error msg
  | .error _ => .error ⟨"", none⟩

/-- `_parse_addresses_csv` -/
def parseAddressesCsv : Option String → Except Msg (Option (List String))
  | none => .ok none
  | some raw =>
      if raw = "" then .ok none
      else do
        let out ← (splitOn ',' raw.toList).mapM fun piece =>
          encodingMsg (mapAddressLowercase (.str (String.ofList (strip piece))))
        pure (some out)

/-- `_build_filter` -/
def buildFilter (addresses : Option (List String)) (topics : List Json) : List (String × Json) :=
  (match addresses with
    | some l => [("address", .arr (l.map .str))]
    | none => []) ++
  (if topics.isEmpty then [] else [("topics", .arr topics)])

/-! ### Reading a first page from the body -/

/-- `_validate_logfilter_address` -/
def validateLogfilterAddress : Json → Except Msg (List String)
  | .null => .ok []
  | .str s => do
      let a ← encodingMsg (mapAddressLowercase (.str s))
      pure [a]
  | .arr entries => entries.mapM fun entry =>
      match entry with
      | .str s => encodingMsg (mapAddressLowercase (.str s))
      | _ => .error ⟨"address entries must be strings", none⟩
  | _ => .error ⟨"address must be string or array of strings", none⟩

/-- One entry of the `topics` of a body. -/
def validateTopicEntry (entry : Json) : Except Msg Json :=
  match entry with
  | .null => .ok .null
  | .str s => if topicRe s then .ok (.str (lower s)) else .error ⟨"invalid topic: ", some entry⟩
  | .arr inner => do
      let ts ← inner.mapM fun t =>
        match t with
        | .str s => if topicRe s then .ok (Json.str (lower s)) else .error ⟨"invalid topic: ", some t⟩
        | _ => .error ⟨"invalid topic: ", some t⟩
      pure (.arr ts)
  | _ => .error ⟨"invalid topic entry: ", some entry⟩

/-- `_validate_logfilter_topics` -/
def validateLogfilterTopics : Json → Except Msg (List Json)
  | .null => .ok []
  | .arr entries => entries.mapM validateTopicEntry
  | _ => .error ⟨"topics must be an array", none⟩

/-! ### What both handlers do -/

/-- What one page of logs is fetched for. -/
structure Scan where
  filter : List (String × Json)
  fromBlock : Int
  toBlock : Int
  skipUntil : Int
  deriving DecidableEq

/-- Go on with what a step of a handler found, unless it already answered. -/
def unlessAnswered {α β : Type} (s : Handler (Response ⊕ α)) (f : α → Handler (Response ⊕ β)) :
    Handler (Response ⊕ β) :=
  s >>= fun
    | .inl resp => pure (.inl resp)
    | .inr a => f a

/-- `requested_limit` -/
def requestedLimit (config : Config) (req : Request) : Response ⊕ Int :=
  match req.queryGet "limit" with
  | none => .inr config.defaultPageSize
  | some raw =>
      let refuse := badRequest req.path ⟨"limit must be a positive integer, got ", some (.str raw)⟩
      match int? raw with
      | some n => if n < 1 then .inl refuse else .inr n
      | none => .inl refuse

/-- The two block identifiers, with `BlockIdError` answered. -/
def parseRange (path : String) (fromRaw toRaw : Json) :
    Except Exc (Response ⊕ (BlockId × BlockId)) :=
  match (do
      let fromBid ← parseBlockId fromRaw
      let toBid ← parseBlockId toRaw
      pure (fromBid, toBid) : Except Exc (BlockId × BlockId)) with
  | .ok bids => .ok (.inr bids)
  | .error (.blockIdError msg) => .ok (.inl (badRequest path msg))
  | .error e => .error e

/-- Resolve both ends of the range and check their order. -/
def resolveRange (path : String) (fromBid toBid : BlockId) :
    Handler (Response ⊕ (Int × Int)) := do
  let fromResolved ← resolveBlockId fromBid
  let toResolved ← resolveBlockId toBid
  match fromResolved, toResolved with
  | some fromBlock, some toBlock =>
      if toBlock < fromBlock then do
        let a ← strInt fromBlock
        let b ← strInt toBlock
        pure (.inl (badRequest path
          ⟨"fromBlock (" ++ a ++ ") must be <= toBlock (" ++ b ++ ")", none⟩))
      else pure (.inr (fromBlock, toBlock))
  | _, _ => pure (.inl (badRequest path ⟨"fromBlock/toBlock could not be resolved", none⟩))

/-- The range of blocks a first page asks for. -/
def requestRange (path : String) (fromRaw toRaw : Json) : Handler (Response ⊕ (Int × Int)) := do
  match ← parseRange path fromRaw toRaw with
  | .inl resp => pure (.inl resp)
  | .inr (fromBid, toBid) => resolveRange path fromBid toBid

/-- `_verify_cursor_boundary` -/
def verifyCursorBoundary (cursor : Cursor) (path : String) :
    Handler (Response ⊕ Unit) := do
  let rpc ← call "eth_getBlockByNumber" [.str (formatHex cursor.nextFromBlock), .bool false]
  if rpc = .null then do
    let n ← strInt cursor.nextFromBlock
    pure (.inl (chainReorged path
      ⟨"block " ++ n ++ " no longer exists; restart the query", none⟩))
  else do
    let hash ← getItem rpc "hash"
    let hash ← lowerOf hash
    if hash ≠ lower cursor.boundaryBlockHash then do
      let n ← strInt cursor.nextFromBlock
      pure (.inl (chainReorged path
        ⟨"block " ++ n ++ " hash changed since cursor was issued; restart the query", none⟩))
    else pure (.inr ())

/-- The page a cursor asks for. -/
def cursorScan (app : App) (req : Request) (raw : String) :
    Handler (Response ⊕ Scan) :=
  match decodeCursor app.recursionLimit raw with
  | .error (.cursorError msg) =>
      pure (.inl (badRequest req.path ⟨"invalid cursor: " ++ msg.text, msg.got⟩))
  | .error e => .throw e
  | .ok cursor => unlessAnswered (verifyCursorBoundary cursor req.path) fun () =>
      pure (.inr ⟨cursor.filter, cursor.nextFromBlock, cursor.toBlock, cursor.lastLogIndex⟩)

/-- The value of a `Link` header to the next page. -/
def nextLink (route cursor : String) : String := "<" ++ route ++ "?cursor=" ++ cursor ++ ">; rel=\"next\""

/-- The `Link` header of a page, if there is one to send. -/
def linkHeader (app : App) (route : String) (scan : Scan) (result : PaginationResult) :
    Handler (List (String × String)) :=
  match result.nextFromBlock with
  | none => pure []
  | some b => do
      let boundaryRpc ← call "eth_getBlockByNumber" [.str (formatHex b), .bool false]
      if boundaryRpc = .null then pure []
      else do
        let hash ← getItem boundaryRpc "hash"
        let hash ← lowerOf hash
        let cursor ← encodeCursor app.recursionLimit
          ⟨b, result.lastLogIndex, scan.toBlock, hash, scan.filter⟩
        pure [("Link", nextLink route cursor)]

/-- Fetch one page and answer with it. -/
def answerPage (app : App) (route : String) (limit : Int) (scan : Scan) : Handler Response := do
  let result ← fetchLogsPaginated scan.filter scan.fromBlock scan.toBlock limit scan.skipUntil
  let restItems ← (result.items.mapM logFromRpc : Except Exc (List Json))
  let size ← strInt limit
  let link ← linkHeader app route scan result
  jsonResponse (.arr restItems) (("X-Page-Size", size) :: link)

/-- The scan a request stands for: `firstScan` reads a request that has no cursor. -/
def openScan (firstScan : Request → Handler (Response ⊕ Scan)) (app : App) (req : Request) :
    Handler (Response ⊕ Scan) :=
  match req.queryGet "cursor" with
  | some raw => cursorScan app req raw
  | none => firstScan req

/-- Either handler. -/
def logsPage (route : String) (firstScan : Request → Handler (Response ⊕ Scan)) (app : App)
    (req : Request) : Handler Response :=
  match requestedLimit app.config req with
  | .inl resp => pure resp
  | .inr requested =>
      openScan firstScan app req >>= fun
        | .inl resp => pure resp
        | .inr scan => answerPage app route (min requested app.config.maxPageSize) scan

/-! ### The two handlers -/

/-- The first page of `GET /logs`. -/
def getLogsScan (req : Request) : Handler (Response ⊕ Scan) :=
  unlessAnswered (requestRange req.path (.str ((req.queryGet "fromBlock").getD "earliest"))
      (.str ((req.queryGet "toBlock").getD "latest"))) fun (fromBlock, toBlock) =>
    match parseAddressesCsv (req.queryGet "address"), parseTopics req with
    | .error msg, _ => pure (.inl (badRequest req.path msg))
    | .ok _, .error msg => pure (.inl (badRequest req.path msg))
    | .ok addresses, .ok topics =>
        pure (.inr ⟨buildFilter addresses topics, fromBlock, toBlock, -1⟩)

/-- The first page of `POST /logs/search`. -/
def postLogsScan (req : Request) : Handler (Response ⊕ Scan) :=
  match req.body with
  | .error e =>
      if e.isValueError || e == .typeError then
        pure (.inl (badRequest req.path ⟨"request body must be valid JSON", none⟩))
      else .throw e
  | .ok (.obj body) =>
      match validateLogfilterAddress ((Json.field? body "address").getD .null),
        validateLogfilterTopics ((Json.field? body "topics").getD .null) with
      | .error msg, _ => pure (.inl (badRequest req.path msg))
      | .ok _, .error msg => pure (.inl (badRequest req.path msg))
      | .ok addresses, .ok topics =>
          unlessAnswered (requestRange req.path
              ((Json.field? body "fromBlock").getD (.str "earliest"))
              ((Json.field? body "toBlock").getD (.str "latest"))) fun (fromBlock, toBlock) =>
            pure (.inr ⟨buildFilter (if addresses.isEmpty then none else some addresses) topics,
              fromBlock, toBlock, -1⟩)
  | .ok _ => pure (.inl (badRequest req.path ⟨"request body must be a JSON object", none⟩))

/-- `get_logs` -/
def getLogs (app : App) (req : Request) : Handler Response :=
  logsPage "/logs" getLogsScan app req

/-- `post_logs_search` -/
def postLogsSearch (app : App) (req : Request) : Handler Response :=
  logsPage "/logs/search" postLogsScan app req

end ExecRestApi
