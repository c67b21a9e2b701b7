/-
One page request: how a 200 response of either log handler comes about.

The request is first turned into a scan, by its cursor or by its own parameters; any
response given on the way is a 400 or a 409.  The scan is then fetched, its logs are
rendered, and if the fetch stopped at the limit one more call looks up the block it
stopped in.

What the later modules use of a handler is `PageParts`: the scan, the trace of the fetch, the
items, and what became of the link.  They never look into the handlers again.
-/
import ExecRestApi.Model.Logs
import ExecRestApi.Proofs.Cursor
import ExecRestApi.Proofs.Pagination

namespace ExecRestApi

open Py Interaction
open Prog (Runs runs_bind_ok runs_lift_bind_ok runs_ofExcept)

/-- The two endpoints that serve pages of logs. -/
inductive LogsRoute where
  /-- `GET /logs` -/
  | list
  /-- `POST /logs/search` -/
  | search
  deriving DecidableEq

namespace LogsRoute

/-- The path its links point to. -/
def path : LogsRoute → String
  | list => "/logs"
  | search => "/logs/search"

/-- How it reads a request that has no cursor. -/
def firstScan : LogsRoute → Request → Handler (Response ⊕ Scan)
  | list => getLogsScan
  | search => postLogsScan

/-- Its handler. -/
def handler : LogsRoute → App → Request → Handler Response
  | list => getLogs
  | search => postLogsSearch

end LogsRoute

/-- The number of logs a page may hold: the limit asked for, capped by the configuration. -/
def pageLimit (app : App) (req : Request) : Option Int :=
  match requestedLimit app.config req with
  | .inl _ => none
  | .inr requested => some (min requested app.config.maxPageSize)

/-! ### Responses given on the way are refusals

A response that ends a request before its scan is one of the handlers' own refusals, and none
of those has status 200.  So a 200 has gone through all the checks.
-/

/-- A response that is not a page. -/
structure Refused (resp : Response) : Prop where
  status : resp.status = 400 ∨ resp.status = 409
  headers : resp.headers = []

theorem badRequest_refused (path : String) (detail : Msg) : Refused (badRequest path detail) :=
  ⟨Or.inl rfl, rfl⟩

theorem chainReorged_refused (path : String) (detail : Msg) :
    Refused (chainReorged path detail) :=
  ⟨Or.inr rfl, rfl⟩

/-- A step that answers only to refuse. -/
def OnlyRefuses {α : Type} (p : Handler (Response ⊕ α)) : Prop :=
  ∀ tr resp, Runs p tr (.ok (.inl resp)) → Refused resp

section

variable {α β : Type}

theorem onlyRefuses_refuse {resp : Response} (h : Refused resp) :
    OnlyRefuses (pure (.inl resp) : Handler (Response ⊕ α)) := by
  rintro tr resp' ⟨-, heq⟩
  cases heq
  exact h

theorem onlyRefuses_found (a : α) : OnlyRefuses (pure (.inr a) : Handler (Response ⊕ α)) := by
  rintro tr resp ⟨-, heq⟩
  cases heq

theorem onlyRefuses_throw (e : Exc) : OnlyRefuses (.throw e : Handler (Response ⊕ α)) := by
  rintro tr resp ⟨-, heq⟩
  cases heq

theorem onlyRefuses_bind {γ : Type} {p : Handler γ} {f : γ → Handler (Response ⊕ α)}
    (h : ∀ c, OnlyRefuses (f c)) : OnlyRefuses (p >>= f) := by
  intro tr resp hrun
  obtain ⟨tr₁, tr₂, c, -, -, hrun⟩ := runs_bind_ok.mp hrun
  exact h c tr₂ resp hrun

theorem onlyRefuses_unlessAnswered {p : Handler (Response ⊕ α)} {f : α → Handler (Response ⊕ β)}
    (hp : OnlyRefuses p) (hf : ∀ a, OnlyRefuses (f a)) : OnlyRefuses (unlessAnswered p f) := by
  intro tr resp hrun
  obtain ⟨tr₁, tr₂, c, -, hrun₁, hrun₂⟩ := runs_bind_ok.mp hrun
  rcases c with resp' | a
  · cases hrun₂.2
    exact hp tr₁ _ hrun₁
  · exact hf a tr₂ resp hrun₂

end

theorem resolveRange_refuses (path : String) (fromBid toBid : BlockId) :
    OnlyRefuses (resolveRange path fromBid toBid) := by
  refine onlyRefuses_bind fun fromResolved => onlyRefuses_bind fun toResolved => ?_
  rcases fromResolved with _ | fromBlock
  · exact onlyRefuses_refuse (badRequest_refused _ _)
  rcases toResolved with _ | toBlock
  · exact onlyRefuses_refuse (badRequest_refused _ _)
  dsimp only
  split_ifs with hlt
  · exact onlyRefuses_bind fun a => onlyRefuses_bind fun b =>
      onlyRefuses_refuse (badRequest_refused _ _)
  · exact onlyRefuses_found _

/-- A range that is resolved is in order. -/
theorem ordered_of_resolveRange {path : String} {fromBid toBid : BlockId} {tr : Trace}
    {ends : Int × Int} (h : Runs (resolveRange path fromBid toBid) tr (.ok (.inr ends))) :
    ends.1 ≤ ends.2 := by
  obtain ⟨_, _, fromResolved, -, -, h⟩ := runs_bind_ok.mp h
  obtain ⟨_, _, toResolved, -, -, h⟩ := runs_bind_ok.mp h
  rcases fromResolved with _ | fromBlock
  · cases h.2
  rcases toResolved with _ | toBlock
  · cases h.2
  dsimp only at h
  split_ifs at h with hlt
  · obtain ⟨_, -, h⟩ := runs_lift_bind_ok.mp h
    obtain ⟨_, -, h⟩ := runs_lift_bind_ok.mp h
    cases h.2
  · cases h.2
    show fromBlock ≤ toBlock
    omega

theorem ordered_of_requestRange {path : String} {a b : Json} {tr : Trace} {ends : Int × Int}
    (h : Runs (requestRange path a b) tr (.ok (.inr ends))) : ends.1 ≤ ends.2 := by
  obtain ⟨found, -, h⟩ := runs_lift_bind_ok.mp h
  rcases found with resp | ⟨fromBid, toBid⟩
  · cases h.2
  · exact ordered_of_resolveRange h

theorem parseRange_refuses {path : String} {a b : Json} {resp : Response}
    (h : parseRange path a b = .ok (.inl resp)) : Refused resp := by
  unfold parseRange at h
  split at h <;> cases h
  exact badRequest_refused _ _

theorem verifyCursorBoundary_refuses (cursor : Cursor) (path : String) :
    OnlyRefuses (verifyCursorBoundary cursor path) := by
  refine onlyRefuses_bind fun rpc => ?_
  split_ifs with hnull
  · exact onlyRefuses_bind fun n => onlyRefuses_refuse (chainReorged_refused _ _)
  · refine onlyRefuses_bind fun hash => onlyRefuses_bind fun hash => ?_
    split_ifs with hne
    · exact onlyRefuses_bind fun n => onlyRefuses_refuse (chainReorged_refused _ _)
    · exact onlyRefuses_found _

theorem cursorScan_refuses (app : App) (req : Request) (raw : String) :
    OnlyRefuses (cursorScan app req raw) := by
  unfold cursorScan
  split
  · exact onlyRefuses_refuse (badRequest_refused _ _)
  · exact onlyRefuses_throw _
  · exact onlyRefuses_unlessAnswered (verifyCursorBoundary_refuses _ _) fun _ =>
      onlyRefuses_found _

theorem requestRange_refuses (path : String) (a b : Json) :
    OnlyRefuses (requestRange path a b) := by
  intro tr resp hrun
  obtain ⟨found, hparse, hrun⟩ := runs_lift_bind_ok.mp hrun
  rcases found with resp' | ⟨fromBid, toBid⟩
  · cases hrun.2
    exact parseRange_refuses hparse
  · exact resolveRange_refuses _ _ _ tr resp hrun

theorem getLogsScan_refuses (req : Request) : OnlyRefuses (getLogsScan req) := by
  refine onlyRefuses_unlessAnswered (requestRange_refuses _ _ _) ?_
  rintro ⟨fromBlock, toBlock⟩
  dsimp only
  split
  · exact onlyRefuses_refuse (badRequest_refused _ _)
  · exact onlyRefuses_refuse (badRequest_refused _ _)
  · exact onlyRefuses_found _

theorem postLogsScan_refuses (req : Request) : OnlyRefuses (postLogsScan req) := by
  unfold postLogsScan
  split
  · split_ifs
    · exact onlyRefuses_refuse (badRequest_refused _ _)
    · exact onlyRefuses_throw _
  · split
    · exact onlyRefuses_refuse (badRequest_refused _ _)
    · exact onlyRefuses_refuse (badRequest_refused _ _)
    · exact onlyRefuses_unlessAnswered (requestRange_refuses _ _ _) fun _ => onlyRefuses_found _
  · exact onlyRefuses_refuse (badRequest_refused _ _)

theorem openScan_refuses (route : LogsRoute) (app : App) (req : Request) :
    OnlyRefuses (openScan route.firstScan app req) := by
  unfold openScan
  split
  · exact cursorScan_refuses app req _
  · cases route with
    | list => exact getLogsScan_refuses req
    | search => exact postLogsScan_refuses req

/-! ### The parts of a page

A run of a handler that comes to a page is a run of the fetch, followed by the look-up of the
block if the fetch has stopped at the limit.
-/

/-- A limit that cannot be read is answered with a 400. -/
theorem requestedLimit_eq_inl {config : Config} {req : Request} {resp : Response}
    (h : requestedLimit config req = .inl resp) : ∃ detail, resp = badRequest req.path detail := by
  unfold requestedLimit at h
  split at h
  · cases h
  · dsimp only at h
    split at h
    · split_ifs at h
      cases h
      exact ⟨_, rfl⟩
    · cases h
      exact ⟨_, rfl⟩

theorem requestedLimit_refuses {config : Config} {req : Request} {resp : Response}
    (h : requestedLimit config req = .inl resp) : Refused resp := by
  obtain ⟨detail, rfl⟩ := requestedLimit_eq_inl h
  exact badRequest_refused req.path detail

theorem status_of_requestedLimit {config : Config} {req : Request} {resp : Response}
    (h : requestedLimit config req = .inl resp) : resp.status = 400 := by
  obtain ⟨detail, rfl⟩ := requestedLimit_eq_inl h
  rfl

/-- A response is a refusal, or a page of the scan the request stands for. -/
theorem refused_or_page_of_runs {route : LogsRoute} {app : App} {req : Request} {tr : Trace}
    {resp : Response} (h : Runs (route.handler app req) tr (.ok resp)) :
    Refused resp ∨
    ∃ limit scan trOpen trPage, pageLimit app req = some limit ∧ tr = trOpen ++ trPage ∧
      Runs (openScan route.firstScan app req) trOpen (.ok (.inr scan)) ∧
      Runs (answerPage app route.path limit scan) trPage (.ok resp) := by
  have hpage : Runs (logsPage route.path route.firstScan app req) tr (.ok resp) := by
    cases route <;> exact h
  unfold logsPage at hpage
  cases hlim : requestedLimit app.config req with
  | inl refusal =>
      rw [hlim] at hpage
      cases hpage.2
      exact Or.inl (requestedLimit_refuses hlim)
  | inr requested =>
      rw [hlim] at hpage
      obtain ⟨trOpen, trPage, found, htr, hopen, hrest⟩ := runs_bind_ok.mp hpage
      rcases found with refusal | scan
      · cases hrest.2
        exact Or.inl (openScan_refuses route app req _ _ hopen)
      · exact Or.inr ⟨_, scan, trOpen, trPage, by rw [pageLimit, hlim], htr, hopen, hrest⟩

/-- A 200 response is a page. -/
theorem page_of_runs {route : LogsRoute} {app : App} {req : Request} {tr : Trace}
    {resp : Response} (h : Runs (route.handler app req) tr (.ok resp)) (h200 : resp.status = 200) :
    ∃ limit scan trOpen trPage, pageLimit app req = some limit ∧ tr = trOpen ++ trPage ∧
      Runs (openScan route.firstScan app req) trOpen (.ok (.inr scan)) ∧
      Runs (answerPage app route.path limit scan) trPage (.ok resp) := by
  rcases refused_or_page_of_runs h with hrefused | hpage
  · rcases hrefused.status with hbad | hbad <;> rw [h200] at hbad <;> cases hbad
  · exact hpage

/-- A response with a link is a page. -/
theorem page_of_runs_link {route : LogsRoute} {app : App} {req : Request} {tr : Trace}
    {resp : Response} {link : String} (h : Runs (route.handler app req) tr (.ok resp))
    (hlink : resp.header? "Link" = some link) :
    ∃ limit scan trOpen trPage, pageLimit app req = some limit ∧ tr = trOpen ++ trPage ∧
      Runs (openScan route.firstScan app req) trOpen (.ok (.inr scan)) ∧
      Runs (answerPage app route.path limit scan) trPage (.ok resp) := by
  rcases refused_or_page_of_runs h with hrefused | hpage
  · rw [Response.header?, hrefused.headers] at hlink
    cases hlink
  · exact hpage

/-- The fetch a page starts with. -/
def Scan.fetch (scan : Scan) (limit : Int) : Fetch :=
  ⟨scan.filter, scan.toBlock, limit, scan.skipUntil⟩

/-- The block whose first logs may have been emitted already. -/
def Scan.skipBlock (scan : Scan) : Int := if 0 ≤ scan.skipUntil then scan.fromBlock else -1

/-- The look-up of the block a cut page stopped in. -/
def boundaryCall (b : Nat) : RpcCall := ⟨"eth_getBlockByNumber", [.str (toHex b), .bool false]⟩

/-- How the header that links to the next page comes about. -/
inductive Links (app : App) (path : String) (scan : Scan) (result : PaginationResult) :
    Trace → List (String × String) → Prop
  /-- The scan is finished. -/
  | finished (h : result.nextFromBlock = none) : Links app path scan result [] []
  /-- The scan was cut, but its last block is gone. -/
  | dropped {b : Nat} (h : result.nextFromBlock = some b) :
      Links app path scan result [(boundaryCall b, .ok .null)] []
  /-- The scan was cut, and a cursor is issued. -/
  | issued {b : Nat} {rpc : Json} {hash text : String} (h : result.nextFromBlock = some b)
      (hrpc : rpc ≠ .null) (hhash : getItem rpc "hash" = .ok (.str hash))
      (henc : encodeCursor app.recursionLimit
        ⟨b, result.lastLogIndex, scan.toBlock, lower hash, scan.filter⟩ = .ok text) :
      Links app path scan result [(boundaryCall b, .ok rpc)] [("Link", nextLink path text)]

theorem nextLink_injective {route text text' : String} (h : nextLink route text = nextLink route text') :
    text = text' := by
  have h' := congrArg String.toList h
  simp only [nextLink, String.toList_append, List.append_assoc, List.append_cancel_left_eq,
    List.append_cancel_right_eq] at h'
  exact String.toList_inj.mp h'

theorem lowerOf_eq_ok {v : Json} {s : String} :
    lowerOf v = .ok s ↔ ∃ t, v = .str t ∧ s = lower t := by
  cases v <;> simp [lowerOf, eq_comm]

theorem links_of_runs {app : App} {path : String} {scan : Scan} {result : PaginationResult} {tr : Trace}
    {headers : List (String × String)}
    (h : Runs (linkHeader app path scan result) tr (.ok headers)) :
    Links app path scan result tr headers := by
  unfold linkHeader at h
  cases hnext : result.nextFromBlock with
  | none =>
      rw [hnext] at h
      obtain ⟨rfl, hout⟩ := h
      cases hout
      exact .finished hnext
  | some b =>
      rw [hnext] at h
      obtain ⟨tr₁, tr₂, rpc, rfl, hcall, hrest⟩ := runs_bind_ok.mp h
      rw [runs_call.mp hcall, formatHex_natCast]
      by_cases hnull : rpc = .null
      · rw [if_pos hnull] at hrest
        obtain ⟨rfl, hout⟩ := hrest
        cases hout
        subst hnull
        exact .dropped hnext
      · rw [if_neg hnull] at hrest
        obtain ⟨v, hv, hrest⟩ := runs_lift_bind_ok.mp hrest
        obtain ⟨hash, hhash, hrest⟩ := runs_lift_bind_ok.mp hrest
        obtain ⟨text, henc, hrest⟩ := runs_lift_bind_ok.mp hrest
        obtain ⟨rfl, hout⟩ := hrest
        cases hout
        obtain ⟨t, rfl, rfl⟩ := lowerOf_eq_ok.mp hhash
        exact .issued hnext hnull hv henc

/-- The parts of an answered page. -/
structure PageParts (app : App) (route : LogsRoute) (limit : Int) (scan : Scan) (tr : Trace)
    (resp : Response) where
  trFetch : Trace
  trLink : Trace
  result : PaginationResult
  body : List Json
  link : List (String × String)
  size : String
  split : tr = trFetch ++ trLink
  fetched : Fetches (scan.fetch limit) scan.fromBlock .default scan.skipBlock [] trFetch result
  rendered : result.items.mapM logFromRpc = .ok body
  linked : Links app route.path scan result trLink link
  resp_eq : resp = ⟨200, ("X-Page-Size", size) :: link, .json (.arr body)⟩

theorem pageParts_of_runs {app : App} {route : LogsRoute} {limit : Int} {scan : Scan} {tr : Trace}
    {resp : Response} (h : Runs (answerPage app route.path limit scan) tr (.ok resp)) :
    Nonempty (PageParts app route limit scan tr resp) := by
  obtain ⟨trFetch, trLink, result, rfl, hfetch, h⟩ := runs_bind_ok.mp h
  obtain ⟨body, hbody, h⟩ := runs_lift_bind_ok.mp h
  obtain ⟨size, hsize, h⟩ := runs_lift_bind_ok.mp h
  obtain ⟨trLink', trEnd, link, rfl, hlink, h⟩ := runs_bind_ok.mp h
  obtain ⟨rfl, hresp⟩ := runs_ofExcept.mp h
  rw [List.append_nil] at *
  refine ⟨trFetch, trLink', result, body, link, size, rfl, fetches_of_runs hfetch, hbody,
    links_of_runs hlink, ?_⟩
  unfold jsonResponse at hresp
  split_ifs at hresp
  cases hresp
  rfl

/-! ### The filter of a scan

The filter goes into the cursor as it is and comes back from it, which takes plain values.  A
query string gives no others; a body can.
-/

theorem plainObj_buildFilter {addresses : Option (List String)} {topics : List Json}
    (h : ∀ t ∈ topics, Json.Plain t) : Json.PlainObj (buildFilter addresses topics) := by
  have haddr : ∀ l : List String, Json.Plain (.arr (l.map .str)) := by
    intro l
    refine Json.plain_arr.mpr fun v hv => ?_
    obtain ⟨a, -, rfl⟩ := List.mem_map.mp hv
    trivial
  have htopics : Json.Plain (.arr topics) := Json.plain_arr.mpr h
  unfold buildFilter
  refine ⟨?_, ?_⟩
  · cases addresses <;> split_ifs <;> simp
  · intro p hp
    rcases List.mem_append.mp hp with hp | hp
    · cases addresses with
      | none => cases hp
      | some l =>
          rw [List.mem_singleton.mp hp]
          exact haddr l
    · split_ifs at hp
      · cases hp
      · rw [List.mem_singleton.mp hp]
        exact htopics

/-- What a `mapM` that succeeds says about each result. -/
theorem forall_mem_of_mapM {ε α β : Type} {f : α → Except ε β} {P : β → Prop}
    (hf : ∀ a b, f a = .ok b → P b) : ∀ {xs : List α} {ys : List β},
      xs.mapM f = .ok ys → ∀ y ∈ ys, P y := by
  intro xs
  induction xs with
  | nil =>
      intro ys h
      rw [mapM_nil_eq_ok.mp h]
      simp
  | cons x xs ih =>
      intro ys h
      obtain ⟨z, zs, hz, hzs, rfl⟩ := mapM_cons_eq_ok.mp h
      exact List.forall_mem_cons.mpr ⟨hf x z hz, ih hzs⟩

theorem plain_parseTopics {req : Request} {topics : List Json}
    (h : parseTopics req = .ok topics) : ∀ t ∈ topics, Json.Plain t := by
  have hstep : ∀ (names : List String) (out out' : List Json × Nat),
      (∀ t ∈ out.1, Json.Plain t) → names.foldlM (topicStep req) out = .ok out' →
        ∀ t ∈ out'.1, Json.Plain t := by
    intro names
    induction names with
    | nil =>
        intro out out' hout h
        cases h
        exact hout
    | cons name names ih =>
        intro out out' hout h
        obtain ⟨next, hnext, h⟩ := bind_eq_ok.mp h
        refine ih next out' ?_ h
        unfold topicStep at hnext
        split at hnext
        · cases hnext
          exact List.forall_mem_append.mpr ⟨hout, by simp [Json.Plain]⟩
        · split_ifs at hnext
          cases hnext
          exact List.forall_mem_append.mpr ⟨hout, by simp [Json.Plain]⟩
  obtain ⟨⟨out, kept⟩, hfold, h⟩ := bind_eq_ok.mp h
  cases h
  exact fun t ht => hstep _ _ _ (by simp) hfold t (List.mem_of_mem_take ht)

theorem plain_validateLogfilterTopics {value : Json} {topics : List Json}
    (h : validateLogfilterTopics value = .ok topics) : ∀ t ∈ topics, Json.Plain t := by
  unfold validateLogfilterTopics at h
  split at h
  · cases h
    simp
  · refine forall_mem_of_mapM (fun entry t ht => ?_) h
    unfold validateTopicEntry at ht
    split at ht
    · cases ht
      trivial
    · split_ifs at ht
      cases ht
      trivial
    · obtain ⟨ts, hts, ht⟩ := bind_eq_ok.mp ht
      cases ht
      refine Json.plain_arr.mpr (forall_mem_of_mapM (fun inner t ht => ?_) hts)
      split at ht
      · split_ifs at ht
        cases ht
        trivial
      · cases ht
    · cases ht
  · cases h

theorem found_of_runs_unlessAnswered {α β : Type} {p : Handler (Response ⊕ α)}
    {f : α → Handler (Response ⊕ β)} {tr : Trace} {b : β}
    (h : Runs (unlessAnswered p f) tr (.ok (.inr b))) :
    ∃ tr₁ tr₂ a, tr = tr₁ ++ tr₂ ∧ Runs p tr₁ (.ok (.inr a)) ∧ Runs (f a) tr₂ (.ok (.inr b)) := by
  obtain ⟨tr₁, tr₂, out, htr, hp, hf⟩ := runs_bind_ok.mp h
  rcases out with resp | a
  · cases hf.2
  · exact ⟨tr₁, tr₂, a, htr, hp, hf⟩

/-- **The filter of a scan is plain**, whether it comes from parameters or from a cursor. -/
theorem plainObj_of_openScan {route : LogsRoute} {app : App} {req : Request} {tr : Trace}
    {scan : Scan} (h : Runs (openScan route.firstScan app req) tr (.ok (.inr scan))) :
    Json.PlainObj scan.filter := by
  unfold openScan at h
  split at h
  · unfold cursorScan at h
    split at h
    · cases h.2
    · cases h.2
    · rename_i cursor hdec
      obtain ⟨_, _, _, -, -, h⟩ := found_of_runs_unlessAnswered h
      cases h.2
      exact plainObj_of_decodeCursor hdec
  · cases route with
    | list =>
        obtain ⟨_, _, ⟨fromBlock, toBlock⟩, -, -, h⟩ := found_of_runs_unlessAnswered h
        dsimp only at h
        split at h
        · cases h.2
        · cases h.2
        · rename_i topics htopics
          cases h.2
          exact plainObj_buildFilter (plain_parseTopics htopics)
    | search =>
        have h' : Runs (postLogsScan req) tr (.ok (.inr scan)) := h
        unfold postLogsScan at h'
        split at h'
        · split_ifs at h'
          · cases h'.2
          · cases h'.2
        · split at h'
          · cases h'.2
          · cases h'.2
          · rename_i topics htopics
            obtain ⟨_, _, ends, -, -, h'⟩ := found_of_runs_unlessAnswered h'
            cases h'.2
            exact plainObj_buildFilter (plain_validateLogfilterTopics htopics)
        · cases h'.2

/-! ### Requests to run

A log, an app and a request that the runs of this and the following modules are made of.
-/

/-- A log as the upstream reports it. -/
def sampleLog (block index : Nat) (blockHash : String) : Json :=
  .obj [("address", .str "0x00000000000000000000000000000000000000aa"), ("topics", .arr []),
    ("data", .str "0x"), ("blockHash", .str blockHash), ("blockNumber", .str (toHex block)),
    ("transactionHash", .str "0xbb"), ("transactionIndex", .str "0x0"),
    ("logIndex", .str (toHex index))]

/-- The log as a page shows it. -/
def sampleItem (block index : Nat) (blockHash : String) : Json :=
  .obj [("address", .str "0x00000000000000000000000000000000000000aa"), ("topics", .arr []),
    ("data", .str "0x"), ("blockHash", .str blockHash), ("blockNumber", .int block),
    ("transactionHash", .str "0xbb"), ("transactionIndex", .int 0), ("logIndex", .int index),
    ("removed", .bool false)]

/-- The configuration of a proxy that is told the sizes of its pages and nothing else. -/
def sampleConfig (defaultPageSize maxPageSize : Int) : Config where
  upstreamHttp := "http://node"
  upstreamWs := "ws://node"
  listen := "127.0.0.1:8080"
  upstreamTimeoutSeconds := "30.0"
  defaultPageSize := defaultPageSize
  maxPageSize := maxPageSize
  sseBufferBytes := 65536
  sseReplayWindow := 1024
  sseHeartbeatSeconds := 30
  readySyncLag := 10
  logLevel := "info"
  logFormat := none
  metricsEnabled := true

/-- The application of such a proxy. -/
def sampleApp (defaultPageSize maxPageSize : Int) : App :=
  ⟨sampleConfig defaultPageSize maxPageSize, 1000⟩

/-- `GET /logs` without parameters. -/
def plainRequest : Request := { path := "/logs", query := [] }

/-- A call for the logs of a range, without a filter. -/
def sampleCall (first last : Nat) : RpcCall :=
  ⟨"eth_getLogs", [.obj [("fromBlock", .str (toHex first)), ("toBlock", .str (toHex last))]]⟩

end ExecRestApi
