/-
The paginated `/traces` handlers (`handlers/traces.py`).

`get_traces` and `post_traces_search` differ in how a first page is read and in the path
their links point to, as the log handlers do.  The page limit, the resolution of the range
and the check of its order are the same code there, and are shared here.

The upstream cuts its list of traces itself: a page is the entries from `after` on, at
most `limit` of them, and the cursor carries the next `after`.
-/
import ExecRestApi.Model.Logs

namespace ExecRestApi

open Py Interaction

/-- `_validate_address_list` -/
def validateAddressList : Json → Except Msg (List String)
  | .null => .ok []
  | .arr entries => entries.mapM fun a =>
      match a with
      | .str s => encodingMsg (mapAddressLowercase (.str s))
      | _ => .error ⟨"address entries must be strings", none⟩
  | _ => .error ⟨"address list must be an array", none⟩

/-- `parse_block_id(str(v))`.  The text of a float, an array or an object is no block id; its
message keeps the value. -/
def parseBlockIdOfStr (v : Json) : Except Exc BlockId :=
  match v with
  | .str _ => parseBlockId v
  | .int n => do
      let s ← strInt n
      parseBlockId (.str s)
  | .null => parseBlockId (.str "None")
  | .bool b => parseBlockId (.str (if b then "True" else "False"))
  | _ =>
      if v.intsFit then .error (.blockIdError ⟨"unrecognised block identifier: ", v⟩)
      else .error .valueError

/-- What one page of traces is fetched for. -/
structure TraceScan where
  filter : List (String × Json)
  fromBlock : Int
  toBlock : Int
  after : Int
  deriving DecidableEq

/-- The page a trace cursor asks for. -/
def cursorTraceScan (app : App) (req : Request) (raw : String) : Handler (Response ⊕ TraceScan) :=
  match decodeTraceCursor app.recursionLimit raw with
  | .error (.cursorError msg) =>
      pure (.inl (badRequest req.path ⟨"invalid cursor: " ++ msg.text, msg.got⟩))
  | .error e => .throw e
  | .ok cursor => pure (.inr ⟨cursor.filter, cursor.fromBlock, cursor.toBlock, cursor.after⟩)

/-- The filter of a first page. -/
def traceFilter (fromAddresses toAddresses : Option (List String)) : List (String × Json) :=
  (match fromAddresses with
    | some l => [("fromAddress", .arr (l.map .str))]
    | none => []) ++
  (match toAddresses with
    | some l => [("toAddress", .arr (l.map .str))]
    | none => [])

/-- The first page of `GET /traces`. -/
def getTracesScan (req : Request) : Handler (Response ⊕ TraceScan) :=
  unlessAnswered (requestRange req.path (.str ((req.queryGet "fromBlock").getD "earliest"))
      (.str ((req.queryGet "toBlock").getD "latest"))) fun (fromBlock, toBlock) =>
    match parseAddressesCsv (req.queryGet "fromAddress"),
      parseAddressesCsv (req.queryGet "toAddress") with
    | .error msg, _ => pure (.inl (badRequest req.path msg))
    | .ok _, .error msg => pure (.inl (badRequest req.path msg))
    | .ok fromAddresses, .ok toAddresses =>
        pure (.inr ⟨traceFilter fromAddresses toAddresses, fromBlock, toBlock, 0⟩)

/-- An empty list of addresses is no filter. -/
def nonEmptyList (l : List String) : Option (List String) := if l.isEmpty then none else some l

/-- The two block identifiers of a body, with `BlockIdError` answered. -/
def parseRangeOfStr (path : String) (fromRaw toRaw : Json) :
    Except Exc (Response ⊕ (BlockId × BlockId)) :=
  match (do
      let fromBid ← parseBlockIdOfStr fromRaw
      let toBid ← parseBlockIdOfStr toRaw
      pure (fromBid, toBid) : Except Exc (BlockId × BlockId)) with
  | .ok bids => .ok (.inr bids)
  | .error (.blockIdError msg) => .ok (.inl (badRequest path msg))
  | .error e => .error e

/-- The range of blocks the body of a first page asks for. -/
def bodyRange (path : String) (fromRaw toRaw : Json) : Handler (Response ⊕ (Int × Int)) := do
  match ← parseRangeOfStr path fromRaw toRaw with
  | .inl resp => pure (.inl resp)
  | .inr (fromBid, toBid) => resolveRange path fromBid toBid

/-- The first page of `POST /traces/search`. -/
def postTracesScan (req : Request) : Handler (Response ⊕ TraceScan) :=
  match req.body with
  | .error e =>
      if e.isValueError || e == .typeError then
        pure (.inl (badRequest req.path ⟨"request body must be valid JSON", none⟩))
      else .throw e
  | .ok (.obj body) =>
      unlessAnswered (bodyRange req.path ((Json.field? body "fromBlock").getD (.str "earliest"))
          ((Json.field? body "toBlock").getD (.str "latest"))) fun (fromBlock, toBlock) =>
        match validateAddressList ((Json.field? body "fromAddress").getD .null),
          validateAddressList ((Json.field? body "toAddress").getD .null) with
        | .error msg, _ => pure (.inl (badRequest req.path msg))
        | .ok _, .error msg => pure (.inl (badRequest req.path msg))
        | .ok fromAddresses, .ok toAddresses =>
            pure (.inr ⟨traceFilter (nonEmptyList fromAddresses) (nonEmptyList toAddresses),
              fromBlock, toBlock, 0⟩)
  | .ok _ => pure (.inl (badRequest req.path ⟨"request body must be a JSON object", none⟩))

/-- `rpc_filter`: the fields of the filter, and the range and the page over them. -/
def rpcTraceFilter (scan : TraceScan) (limit : Int) : List (String × Json) :=
  Dict.setIn "count" (.int limit) (Dict.setIn "after" (.int scan.after)
    (Dict.setIn "toBlock" (.str (formatHex scan.toBlock))
      (Dict.setIn "fromBlock" (.str (formatHex scan.fromBlock)) scan.filter)))

/-- `for t in rpc or []` -/
def tracesOf (rpc : Json) : Except Exc (List Json) := if rpc.isFalsy then .ok [] else iterate rpc

/-- The `Link` header of a page of `n` traces. -/
def traceLink (app : App) (route : String) (scan : TraceScan) (limit : Int) (n : Nat) :
    Except Exc (List (String × String)) :=
  if limit ≤ n then do
    let cursor ← encodeTraceCursor app.recursionLimit
      ⟨scan.after + limit, scan.fromBlock, scan.toBlock, scan.filter⟩
    pure [("Link", nextLink route cursor)]
  else pure []

/-- Fetch a page of traces and answer with it. -/
def answerTraces (app : App) (route : String) (limit : Int) (scan : TraceScan) :
    Handler Response := do
  let rpc ← call "trace_filter" [.obj (rpcTraceFilter scan limit)]
  let traces ← tracesOf rpc
  let items ← (traces.mapM traceFromRpc : Except Exc (List Json))
  let size ← strInt limit
  let link ← traceLink app route scan limit items.length
  jsonResponse (.arr items) (("X-Page-Size", size) :: link)

/-- The scan a request stands for. -/
def openTraceScan (firstScan : Request → Handler (Response ⊕ TraceScan)) (app : App)
    (req : Request) : Handler (Response ⊕ TraceScan) :=
  match req.queryGet "cursor" with
  | some raw => cursorTraceScan app req raw
  | none => firstScan req

/-- Either handler. -/
def tracesPage (route : String) (firstScan : Request → Handler (Response ⊕ TraceScan)) (app : App)
    (req : Request) : Handler Response :=
  match requestedLimit app.config req with
  | .inl resp => pure resp
  | .inr requested =>
      openTraceScan firstScan app req >>= fun
        | .inl resp => pure resp
        | .inr scan => answerTraces app route (min requested app.config.maxPageSize) scan

/-- `get_traces` -/
def getTraces (app : App) (req : Request) : Handler Response :=
  tracesPage "/traces" getTracesScan app req

/-- `post_traces_search` -/
def postTracesSearch (app : App) (req : Request) : Handler Response :=
  tracesPage "/traces/search" postTracesScan app req

end ExecRestApi
