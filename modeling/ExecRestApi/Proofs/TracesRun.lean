/-
Following the cursors of the trace endpoints to the end.

The upstream holds one list of traces for each query and cuts pages out of it.  A client
asks for a first page and follows the links, with whatever limit it likes on each page.
Every page is then the next piece of the list for the query of the first page, and there
is no link exactly when a piece came out shorter than the limit.

One page that starts at position `a` of the list answers with the traces from there on
(`page_of_serves`), and the request its link leads to starts where it stopped
(`opened_of_link`).  A run is an induction over the links.
-/
import ExecRestApi.Model.Traces
import ExecRestApi.Proofs.LogsPage

namespace ExecRestApi

open Py Interaction
open Prog (Runs runs_bind runs_bind_ok runs_lift_bind_ok runs_lift_bind_of_ok runs_ofExcept)

/-- The two endpoints that serve pages of traces. -/
inductive TracesRoute where
  /-- `GET /traces` -/
  | list
  /-- `POST /traces/search` -/
  | search
  deriving DecidableEq

namespace TracesRoute

/-- The path its links point to. -/
def path : TracesRoute → String
  | list => "/traces"
  | search => "/traces/search"

/-- How it reads a request that has no cursor. -/
def firstScan : TracesRoute → Request → Handler (Response ⊕ TraceScan)
  | list => getTracesScan
  | search => postTracesScan

/-- Its handler. -/
def handler : TracesRoute → App → Request → Handler Response
  | list => getTraces
  | search => postTracesSearch

end TracesRoute

/-! ### The upstream

An upstream that has a list answers a query with the slice that starts at `after` and is
`count` long.  What else the query says it answers alike on every page.
-/

/-- The fields of a `trace_filter` call that say which traces are meant. -/
def withoutPage (fields : List (String × Json)) : List (String × Json) :=
  fields.filter fun p => p.1 != "after" && p.1 != "count"

/-- `T[after : after + count]` -/
def slice (T : List Json) (after count : Int) : List Json :=
  (T.drop after.toNat).take count.toNat

/-- A call for a page of traces is answered with that piece of the list for its query. -/
def ServesTraces (T : List (String × Json) → List Json) (x : RpcCall × Reply) : Prop :=
  ∀ fields after count, x.1 = ⟨"trace_filter", [.obj fields]⟩ →
    Json.field? fields "after" = some (.int after) → 0 ≤ after →
    Json.field? fields "count" = some (.int count) → 0 ≤ count →
      x.2 = .ok (.arr (slice (T (withoutPage fields)) after count))

/-- A trace that can be shown. -/
def WellFormedTrace (t : Json) : Prop :=
  ∃ item, traceFromRpc t = .ok item ∧ item.intsFit = true

/-- A list of traces that can be shown, with a length that Python prints. -/
structure WellFormedTraces (T : List Json) : Prop where
  trace : ∀ t ∈ T, WellFormedTrace t
  length : strFits T.length = true

/-- The query of a scan: its filter and its range. -/
def TraceScan.query (scan : TraceScan) : List (String × Json) :=
  withoutPage (Dict.setIn "toBlock" (.str (formatHex scan.toBlock))
    (Dict.setIn "fromBlock" (.str (formatHex scan.fromBlock)) scan.filter))

/-- The query of a page does not depend on the page. -/
theorem withoutPage_rpcTraceFilter (scan : TraceScan) (limit : Int) :
    withoutPage (rpcTraceFilter scan limit) = scan.query := by
  rw [rpcTraceFilter, withoutPage, Dict.filter_setIn (by simp), Dict.filter_setIn (by simp),
    TraceScan.query, withoutPage]

/-- The call for a page. -/
def pageCall (scan : TraceScan) (limit : Int) : RpcCall :=
  ⟨"trace_filter", [.obj (rpcTraceFilter scan limit)]⟩

theorem reply_of_serves {T : List (String × Json) → List Json} {scan : TraceScan} {limit : Int}
    {r : Reply} (h : ServesTraces T (pageCall scan limit, r)) (hafter : 0 ≤ scan.after)
    (hlimit : 0 ≤ limit) : r = .ok (.arr (slice (T scan.query) scan.after limit)) := by
  rw [← withoutPage_rpcTraceFilter scan limit]
  refine h _ _ _ rfl ?_ hafter ?_ hlimit
  · rw [rpcTraceFilter, Json.field?, Dict.lookupIn_setIn, if_neg (by decide),
      Dict.lookupIn_setIn, if_pos rfl]
  · rw [rpcTraceFilter, Json.field?, Dict.lookupIn_setIn, if_pos rfl]

/-! ### What a request stands for

A first page and a page under a cursor both stand for a scan: the filter of the first page, and
a position in the list.  The filter goes through the cursor and comes back as it was.
-/

/-- A scan whose cursors survive the wire. -/
structure TraceScan.Plain (scan : TraceScan) : Prop where
  filter : ∃ fromAddresses toAddresses, scan.filter = traceFilter fromAddresses toAddresses
  fromBlock : strFits scan.fromBlock = true
  toBlock : strFits scan.toBlock = true

/-- The cursor to a position of the list. -/
def TraceScan.cursorAt (scan : TraceScan) (after : Int) : TraceCursor :=
  ⟨after, scan.fromBlock, scan.toBlock, scan.filter⟩

theorem plain_cursorAt {scan : TraceScan} (h : scan.Plain) {after : Int}
    (hafter : strFits after = true) : Json.Plain (scan.cursorAt after).payload := by
  obtain ⟨fromAddresses, toAddresses, hfilter⟩ := h.filter
  have hlist : ∀ l : List String, Json.Plain (.arr (l.map .str)) := by
    intro l
    refine Json.plain_arr.mpr fun v hv => ?_
    obtain ⟨a, -, rfl⟩ := List.mem_map.mp hv
    trivial
  refine TraceCursor.plain ?_ hafter h.fromBlock h.toBlock
  show Json.PlainObj scan.filter
  rw [hfilter]
  refine ⟨?_, ?_⟩
  · cases fromAddresses <;> cases toAddresses <;> simp [traceFilter]
  · intro p hp
    rcases List.mem_append.mp hp with hp | hp
    · cases fromAddresses with
      | none => cases hp
      | some l =>
          rw [List.mem_singleton.mp hp]
          exact hlist l
    · cases toAddresses with
      | none => cases hp
      | some l =>
          rw [List.mem_singleton.mp hp]
          exact hlist l

theorem itemsDepth_strings (l : List String) : Json.itemsDepth (l.map .str) = 0 := by
  induction l with
  | nil => rfl
  | cons a l ih => rw [List.map_cons, Json.itemsDepth, ih]; rfl

theorem depth_cursorAt {scan : TraceScan} (h : scan.Plain) (after : Int) :
    Json.depth (scan.cursorAt after).payload ≤ 3 := by
  obtain ⟨fromAddresses, toAddresses, hfilter⟩ := h.filter
  rw [TraceScan.cursorAt, hfilter]
  cases fromAddresses <;> cases toAddresses <;>
    simp [TraceCursor.payload, traceFilter, Json.depth, Json.fieldsDepth, itemsDepth_strings]

/-- What a request without a cursor asks for. -/
theorem first_of_openTraceScan {route : TracesRoute} {app : App} {req : Request} {tr : Trace}
    {scan : TraceScan} (h : Runs (openTraceScan route.firstScan app req) tr (.ok (.inr scan)))
    (hcursor : req.queryGet "cursor" = none) :
    scan.after = 0 ∧ scan.fromBlock ≤ scan.toBlock ∧
      ∃ fromAddresses toAddresses, scan.filter = traceFilter fromAddresses toAddresses := by
  rw [openTraceScan, hcursor] at h
  cases route with
  | list =>
      obtain ⟨_, _, ⟨fromBlock, toBlock⟩, -, hends, h⟩ := found_of_runs_unlessAnswered h
      have hle := ordered_of_requestRange hends
      dsimp only at h
      split at h
      · cases h.2
      · cases h.2
      · cases h.2
        exact ⟨rfl, hle, _, _, rfl⟩
  | search =>
      have h' : Runs (postTracesScan req) tr (.ok (.inr scan)) := h
      unfold postTracesScan at h'
      split at h'
      · split_ifs at h'
        · cases h'.2
        · cases h'.2
      · obtain ⟨_, _, ⟨fromBlock, toBlock⟩, -, hends, h'⟩ := found_of_runs_unlessAnswered h'
        have hle : fromBlock ≤ toBlock := by
          obtain ⟨found, -, hends⟩ := runs_lift_bind_ok.mp hends
          rcases found with resp | ⟨fromBid, toBid⟩
          · cases hends.2
          · exact ordered_of_resolveRange hends
        dsimp only at h'
        split at h'
        · cases h'.2
        · cases h'.2
        · cases h'.2
          exact ⟨rfl, hle, _, _, rfl⟩
      · cases h'.2

/-- A request with an issued cursor goes on where the cursor says, without asking the upstream. -/
theorem opened_of_link {route : TracesRoute} {app : App} {req : Request} {text : String}
    {scan : TraceScan} {after : Int} (hdepth : 3 ≤ app.recursionLimit) (h : scan.Plain)
    (hafter : strFits after = true) 
    (henc : encodeTraceCursor app.recursionLimit (scan.cursorAt after) = .ok text)
    (hcursor : req.queryGet "cursor" = some text) :
    openTraceScan route.firstScan app req = .pure (.inr { scan with after := after }) := by
  have hdec := decodeTraceCursor_encodeTraceCursor (plain_cursorAt h hafter) henc
    (Nat.le_trans (depth_cursorAt h after) hdepth)
  rw [openTraceScan, hcursor]
  show cursorTraceScan app req text = _
  rw [cursorTraceScan, hdec]
  rfl

/-! ### One page

A page asks for as many traces as its limit, and a piece of that length has a link behind it,
also where the list ends with it.
-/

/-- A page request and how it ended. -/
structure TracePage where
  req : Request
  tr : Trace
  out : Except Exc Response

namespace TracePage

/-- The page came back with status 200. -/
def Ok (p : TracePage) : Prop := ∃ resp, p.out = .ok resp ∧ resp.status = 200

/-- The traces on a page. -/
def items (p : TracePage) : List Json :=
  match p.out with
  | .ok ⟨_, _, .json (.arr items)⟩ => items
  | _ => []

/-- The link of a page. -/
def link? (p : TracePage) : Option String :=
  match p.out with
  | .ok resp => resp.header? "Link"
  | .error _ => none

end TracePage

/-- What a page of `scan` with a limit is: `raw` is the piece of the list it shows. -/
structure PageOf (app : App) (route : TracesRoute) (T : List Json) (scan : TraceScan) (limit : Int)
    (tr : Trace) (p : TracePage) : Prop where
  calls : tr.map Prod.fst = [pageCall scan limit]
  ok : p.Ok
  shown : (slice T scan.after limit).mapM traceFromRpc = .ok p.items
  /-- A page that is not full has no link. -/
  last : ((slice T scan.after limit).length : Int) < limit → p.link? = none
  /-- A full page links to the position after it. -/
  next : limit ≤ ((slice T scan.after limit).length : Int) →
    ∃ text, encodeTraceCursor app.recursionLimit (scan.cursorAt (scan.after + limit)) = .ok text ∧
      p.link? = some (nextLink route.path text)

theorem tracesOf_arr (l : List Json) : tracesOf (.arr l) = .ok l := by
  rw [tracesOf, Json.isFalsy]
  cases l <;> rfl

theorem shown_of_wellFormed {T : List Json} (h : ∀ t ∈ T, WellFormedTrace t) :
    ∃ items, T.mapM traceFromRpc = .ok items ∧ Json.itemsFit items = true ∧
      items.length = T.length := by
  induction T with
  | nil => exact ⟨[], rfl, rfl, rfl⟩
  | cons t T ih =>
      obtain ⟨item, hitem, hfit⟩ := h t (by simp)
      obtain ⟨items, hitems, hfits, hlen⟩ := ih fun u hu => h u (List.mem_cons_of_mem _ hu)
      refine ⟨item :: items, mapM_cons_eq_ok.mpr ⟨item, items, hitem, hitems, rfl⟩, ?_, ?_⟩
      · rw [Json.itemsFit, hfit, hfits]
        rfl
      · rw [List.length_cons, List.length_cons, hlen]

/-- **One page.**  A page that starts inside the list is the piece of the list from there on. -/
theorem page_of_serves {app : App} {route : TracesRoute} {T : List (String × Json) → List Json}
    {scan : TraceScan} {limit : Int} {tr : Trace} {p : TracePage}
    (hdepth : 3 ≤ app.recursionLimit) (hrun : Runs (answerTraces app route.path limit scan) tr p.out)
    (hserved : ∀ x ∈ tr, ServesTraces T x) (hT : WellFormedTraces (T scan.query))
    (hscan : scan.Plain) (hafter : 0 ≤ scan.after) (hlimit : 1 ≤ limit)
    (hfits : strFits limit = true) :
    PageOf app route (T scan.query) scan limit tr p := by
  obtain ⟨r, rest, rfl, hcont⟩ := Prog.runs_ask.mp hrun
  obtain rfl := reply_of_serves (hserved (pageCall scan limit, r) (by simp [pageCall])) hafter
    (by omega)
  obtain ⟨items, hitems, hfit, hlen⟩ := shown_of_wellFormed
    (T := slice (T scan.query) scan.after limit) fun t ht =>
      hT.trace t (List.mem_of_mem_drop (List.mem_of_mem_take ht))
  have hsize : strInt limit = .ok (String.ofList (intText limit)) := by rw [strInt, if_pos hfits]
  have hjson : ∀ headers, jsonResponse (.arr items) headers = .ok ⟨200, headers, .json (.arr items)⟩ :=
    fun headers => by rw [jsonResponse, if_pos (by exact hfit)]
  have hlength : (slice (T scan.query) scan.after limit).length
      = min limit.toNat ((T scan.query).length - scan.after.toNat) := by
    rw [slice, List.length_take, List.length_drop]
  have hrun := (runs_lift_bind_of_ok (tracesOf_arr _)).mp hcont
  have hrun := (runs_lift_bind_of_ok hitems).mp hrun
  have hrun := (runs_lift_bind_of_ok hsize).mp hrun
  by_cases hfull : limit ≤ ((slice (T scan.query) scan.after limit).length : Int)
  · have hnext : strFits (scan.after + limit) = true :=
      strFits_of_le hT.length (by omega) (by omega)
    obtain ⟨text, henc, -, -⟩ := b64urlEncode_plain (plain_cursorAt hscan hnext)
      (Nat.le_trans (depth_cursorAt hscan _) hdepth)
    have hlink : traceLink app route.path scan limit items.length
        = .ok [("Link", nextLink route.path text)] := by
      rw [traceLink, hlen, if_pos hfull]
      show (encodeTraceCursor app.recursionLimit (scan.cursorAt (scan.after + limit)) >>= _) = _
      rw [encodeTraceCursor, henc]
      rfl
    have hrun := (runs_lift_bind_of_ok hlink).mp hrun
    obtain ⟨rfl, hout⟩ := runs_ofExcept.mp hrun
    replace hout := hout.trans (hjson _)
    refine ⟨rfl, ⟨_, hout, rfl⟩, ?_, fun hshort => absurd hfull (by omega),
      fun _ => ⟨text, henc, ?_⟩⟩
    · rw [hitems, TracePage.items, hout]
    · rw [TracePage.link?, hout]
      rfl
  · have hlink : traceLink app route.path scan limit items.length = .ok [] := by
      rw [traceLink, hlen, if_neg hfull]
      rfl
    have hrun := (runs_lift_bind_of_ok hlink).mp hrun
    obtain ⟨rfl, hout⟩ := runs_ofExcept.mp hrun
    replace hout := hout.trans (hjson _)
    refine ⟨rfl, ⟨_, hout, rfl⟩, ?_, fun _ => ?_, fun h => absurd h hfull⟩
    · rw [hitems, TracePage.items, hout]
    · rw [TracePage.link?, hout]
      rfl

/-! ### A run

By induction over the links the pieces are those of the list from the first position on, none
left out and none twice, until one comes out short.
-/

section

variable (route : TracesRoute) (app : App) (T : List (String × Json) → List Json)

/-- A page request with an effective limit, served by an upstream that lists traces by `T`. -/
structure TracePage.Served (p : TracePage) : Prop where
  runs : Runs (route.handler app p.req) p.tr p.out
  served : ∀ x ∈ p.tr, ServesTraces T x
  limit : ∃ limit, pageLimit app p.req = some limit ∧ 1 ≤ limit

/-- The pages after `p` that following the links gives, up to `last`. -/
inductive FollowsTraceLinks : TracePage → List TracePage → TracePage → Prop
  | done {p : TracePage} : FollowsTraceLinks p [] p
  | next {p q last : TracePage} {rest : List TracePage} {text : String}
      (hlink : p.link? = some (nextLink route.path text))
      (hcursor : q.req.queryGet "cursor" = some text) (hrest : FollowsTraceLinks q rest last) :
      FollowsTraceLinks p (q :: rest) last

end

/-- What is left of a page request once its limit is read. -/
theorem TracePage.Served.page {route : TracesRoute} {app : App}
    {T : List (String × Json) → List Json} {p : TracePage} (h : p.Served route app T)
    (hmax : strFits app.config.maxPageSize = true) :
    ∃ limit, 1 ≤ limit ∧ strFits limit = true ∧
      Runs (openTraceScan route.firstScan app p.req >>= fun
        | .inl resp => pure resp
        | .inr scan => answerTraces app route.path limit scan) p.tr p.out := by
  obtain ⟨limit, hlim, hpos⟩ := h.limit
  have hrun : Runs (tracesPage route.path route.firstScan app p.req) p.tr p.out := by
    have := h.runs
    cases route <;> exact this
  unfold tracesPage at hrun
  unfold pageLimit at hlim
  split at hlim
  · cases hlim
  · rename_i requested heq
    cases hlim
    rw [heq] at hrun
    exact ⟨_, hpos, strFits_of_le hmax (by omega) (by omega), hrun⟩

/-- The run from one page on: `p` shows the list from position `scan.after` on. -/
theorem run_from {route : TracesRoute} {app : App} {T : List (String × Json) → List Json}
    {scan : TraceScan} (hdepth : 3 ≤ app.recursionLimit)
    (hmax : strFits app.config.maxPageSize = true) (hscan : scan.Plain)
    (hT : WellFormedTraces (T scan.query)) {p last : TracePage} {rest : List TracePage}
    (hfollow : FollowsTraceLinks route p rest last) :
    ∀ {after limit : Int} {tr : Trace}, 0 ≤ after → after ≤ (T scan.query).length → 1 ≤ limit →
      PageOf app route (T scan.query) { scan with after := after } limit tr p →
      (∀ q ∈ rest, q.Served route app T) →
        (∀ q ∈ p :: rest, q.Ok) ∧
        after + rest.length ≤ (T scan.query).length ∧
        (∀ q ∈ rest, ∃ after limit,
          q.tr.map Prod.fst = [pageCall { scan with after := after } limit]) ∧
        (last.link? = none →
          ((T scan.query).drop after.toNat).mapM traceFromRpc
            = .ok ((p :: rest).flatMap TracePage.items)) := by
  induction hfollow with
  | @done p =>
      intro after limit tr h0 hin hlimit hp hserved
      refine ⟨by simpa using hp.ok, by simpa using hin, by simp, fun hend => ?_⟩
      have hshort : ((slice (T scan.query) after limit).length : Int) < limit := by
        by_contra hfull
        obtain ⟨text, -, hlink⟩ := hp.next (Int.not_lt.mp hfull)
        rw [hend] at hlink
        cases hlink
      have hall : slice (T scan.query) after limit = (T scan.query).drop after.toNat := by
        rw [slice, List.length_take] at hshort
        rw [slice, List.take_of_length_le (by omega)]
      rw [← hall]
      simpa using hp.shown
  | @next p q last rest text hlink hcursor hrest ih =>
      intro after limit tr h0 hin hlimit hp hserved
      have hfull : limit ≤ ((slice (T scan.query) after limit).length : Int) := by
        by_contra hshort
        rw [hp.last (Int.not_le.mp hshort)] at hlink
        cases hlink
      obtain ⟨text', henc, hlink'⟩ := hp.next hfull
      rw [hlink] at hlink'
      obtain rfl := nextLink_injective (Option.some.inj hlink')
      have hlength : (slice (T scan.query) after limit).length
          = min limit.toNat ((T scan.query).length - after.toNat) := by
        rw [slice, List.length_take, List.length_drop]
      have hfits : strFits (after + limit) = true := strFits_of_le hT.length (by omega) (by omega)
      have hq := hserved q (by simp)
      obtain ⟨limit', hpos', hfits', hrun⟩ := hq.page hmax
      rw [opened_of_link hdepth hscan hfits henc hcursor] at hrun
      have hscan' : TraceScan.Plain { scan with after := after + limit } :=
        ⟨hscan.filter, hscan.fromBlock, hscan.toBlock⟩
      have hpage := page_of_serves hdepth hrun hq.served hT hscan' (by show 0 ≤ after + limit; omega)
        hpos' hfits'
      obtain ⟨hok, hlen, hcalls, hshown⟩ := ih (by omega) (by omega) hpos' hpage
        fun x hx => hserved x (List.mem_cons_of_mem _ hx)
      refine ⟨List.forall_mem_cons.mpr ⟨hp.ok, hok⟩, by rw [List.length_cons]; omega, ?_,
        fun hend => ?_⟩
      · exact List.forall_mem_cons.mpr ⟨⟨_, _, hpage.calls⟩, hcalls⟩
      · have hsplit : (T scan.query).drop after.toNat
            = slice (T scan.query) after limit ++ (T scan.query).drop (after + limit).toNat := by
          rw [slice, show (after + limit).toNat = after.toNat + limit.toNat by omega,
            ← List.drop_drop, List.take_append_drop]
        rw [hsplit, List.flatMap_cons]
        exact mapM_append_eq_ok hp.shown (hshown hend)

/-- **Paging through traces is exact.**  A first request opened the scan, from its first trace on.
Whatever the limits and whatever else the later requests carry, every page is a 200; links can be
followed at most as often as there are traces; every page is asked for by the filter and the range
of the scan; and a run that ends without a link has shown the list, each trace once, in order. -/
theorem paged_traces_exact (route : TracesRoute) (app : App)
    (T : List (String × Json) → List Json) (hdepth : 3 ≤ app.recursionLimit)
    (hmax : strFits app.config.maxPageSize = true) {p last : TracePage} {rest : List TracePage}
    (hserved : ∀ q ∈ p :: rest, q.Served route app T) {trOpen trPage : Trace} {scan : TraceScan}
    (htr : p.tr = trOpen ++ trPage)
    (hopen : Runs (openTraceScan route.firstScan app p.req) trOpen (.ok (.inr scan)))
    (hfirst : p.req.queryGet "cursor" = none) (hfrom : strFits scan.fromBlock = true)
    (hto : strFits scan.toBlock = true) (hT : WellFormedTraces (T scan.query))
    (hfollow : FollowsTraceLinks route p rest last) :
    scan.after = 0 ∧ scan.fromBlock ≤ scan.toBlock ∧
    (∀ q ∈ p :: rest, q.Ok) ∧
    rest.length ≤ (T scan.query).length ∧
    (∃ limit, trPage.map Prod.fst = [pageCall scan limit]) ∧
    (∀ q ∈ rest, ∃ after limit,
      q.tr.map Prod.fst = [pageCall { scan with after := after } limit]) ∧
    (last.link? = none →
      (T scan.query).mapM traceFromRpc = .ok ((p :: rest).flatMap TracePage.items)) := by
  obtain ⟨hafter, hle, hfilter⟩ := first_of_openTraceScan hopen hfirst
  have hscan : scan.Plain := ⟨hfilter, hfrom, hto⟩
  have hp := hserved p (by simp)
  obtain ⟨limit, hpos, hfits, hrun⟩ := hp.page hmax
  -- the exchanges of the first request split where its scan is open
  have hpage : Runs (answerTraces app route.path limit scan) trPage p.out := by
    rcases runs_bind.mp hrun with ⟨e, herr, -⟩ | ⟨tr₁, tr₂, found, htr', hopen', hrest⟩
    · have hends : trOpen ++ trPage = p.tr ++ [] := by rw [htr, List.append_nil]
      have hsame : trOpen = p.tr := Prog.Runs.prefix_free hopen herr hends
      rw [hsame] at hopen
      cases Prog.Runs.deterministic hopen herr
    · have hsame : trOpen = tr₁ := Prog.Runs.prefix_free hopen hopen' (htr.symm.trans htr')
      subst hsame
      cases Prog.Runs.deterministic hopen hopen'
      rw [List.append_cancel_left (htr.symm.trans htr')]
      exact hrest
  have hfirstPage := page_of_serves hdepth hpage
    (fun x hx => hp.served x (by rw [htr]; exact List.mem_append_right _ hx)) hT hscan
    (by omega) hpos hfits
  have hrest := @run_from route app T scan hdepth hmax hscan hT p last rest hfollow scan.after
  obtain ⟨hok, hlen, hcalls, hshown⟩ := hrest (by omega) (by omega) hpos hfirstPage
    fun q hq => hserved q (List.mem_cons_of_mem _ hq)
  refine ⟨hafter, hle, hok, by omega, ⟨limit, hfirstPage.calls⟩, hcalls, fun hend => ?_⟩
  simpa [hafter] using hshown hend

/-- A trace as the upstream reports it. -/
def sampleTrace (block : Nat) : Json :=
  .obj [("action", .obj []), ("type", .str "call"), ("subtraces", .int 0), ("traceAddress", .arr []),
    ("transactionHash", .str "0xbb"), ("blockHash", .str "0xa0"), ("blockNumber", .int block)]

/-- Two traces, whatever is asked for. -/
def sampleTraces (_ : List (String × Json)) : List Json := [sampleTrace 3, sampleTrace 4]

/-- The scan of `GET /traces?fromBlock=3&toBlock=9`. -/
def sampleTraceScan : TraceScan := ⟨[], 3, 9, 0⟩

/-- The cursor to the second trace. -/
def sampleTraceCursor : String :=
  (encodeTraceCursor 3 (sampleTraceScan.cursorAt 1)).toOption.getD ""

theorem served_slice (T : List (String × Json) → List Json) (scan : TraceScan) (limit : Int) :
    ServesTraces T (pageCall scan limit, .ok (.arr (slice (T scan.query) scan.after limit))) := by
  intro fields after count hcall hafter _ hcount _
  injection hcall with _ hparams
  injection hparams with hfields _
  injection hfields with hfields
  subst hfields
  rw [rpcTraceFilter, Json.field?, Dict.lookupIn_setIn, if_neg (by decide), Dict.lookupIn_setIn,
    if_pos rfl] at hafter
  rw [rpcTraceFilter, Json.field?, Dict.lookupIn_setIn, if_pos rfl] at hcount
  cases hafter
  cases hcount
  show _ = Except.ok (Json.arr (slice (T (withoutPage (rpcTraceFilter scan limit))) _ _))
  rw [withoutPage_rpcTraceFilter]

/-- A first page of one trace. -/
def oneTracePage : TracePage where
  req := { path := "/traces", query := [("fromBlock", "3"), ("toBlock", "9"), ("limit", "1")] }
  tr := [(pageCall sampleTraceScan 1, .ok (.arr [sampleTrace 3]))]
  out := .ok ⟨200, [("X-Page-Size", "1"), ("Link", nextLink "/traces" sampleTraceCursor)],
    .json (.arr [sampleTrace 3])⟩

/-- The page its link leads to, with another limit and a range that no longer counts. -/
def restTracePage : TracePage where
  req := { path := "/traces", query := [("cursor", sampleTraceCursor), ("fromBlock", "7"),
    ("limit", "5")] }
  tr := [(pageCall { sampleTraceScan with after := 1 } 5, .ok (.arr [sampleTrace 4]))]
  out := .ok ⟨200, [("X-Page-Size", "5")], .json (.arr [sampleTrace 4])⟩

theorem oneTracePage_served : oneTracePage.Served .list (sampleApp 1 1000) sampleTraces where
  runs := Prog.runs_of_feed (oneTracePage.tr.map Prod.snd) (by decide +kernel)
  served := by
    simp only [oneTracePage, List.forall_mem_cons, List.not_mem_nil, false_imp_iff, implies_true,
      and_true]
    exact served_slice sampleTraces sampleTraceScan 1
  limit := ⟨1, by decide +kernel, by decide⟩

theorem restTracePage_served : restTracePage.Served .list (sampleApp 1 1000) sampleTraces where
  runs := Prog.runs_of_feed (restTracePage.tr.map Prod.snd) (by decide +kernel)
  served := by
    simp only [restTracePage, List.forall_mem_cons, List.not_mem_nil, false_imp_iff, implies_true,
      and_true]
    exact served_slice sampleTraces { sampleTraceScan with after := 1 } 5
  limit := ⟨5, by decide +kernel, by decide⟩

theorem sampleTraces_wellFormed : WellFormedTraces (sampleTraces sampleTraceScan.query) where
  trace := by
    have hshow : ∀ n, n = 3 ∨ n = 4 → WellFormedTrace (sampleTrace n) := by
      rintro n (rfl | rfl)
      · exact ⟨sampleTrace 3, by decide +kernel, by decide +kernel⟩
      · exact ⟨sampleTrace 4, by decide +kernel, by decide +kernel⟩
    simp [sampleTraces, hshow]
  length := by decide +kernel

/-- A run of two pages: both traces, once each. -/
theorem paged_traces_exact_twice :
    sampleTraceScan.after = 0 ∧ sampleTraceScan.fromBlock ≤ sampleTraceScan.toBlock ∧
    (∀ q ∈ [oneTracePage, restTracePage], q.Ok) ∧
    [restTracePage].length ≤ (sampleTraces sampleTraceScan.query).length ∧
    (∃ limit, oneTracePage.tr.map Prod.fst = [pageCall sampleTraceScan limit]) ∧
    (∀ q ∈ [restTracePage], ∃ after limit,
      q.tr.map Prod.fst = [pageCall { sampleTraceScan with after := after } limit]) ∧
    (restTracePage.link? = none →
      (sampleTraces sampleTraceScan.query).mapM traceFromRpc
        = .ok ([oneTracePage, restTracePage].flatMap TracePage.items)) :=
  paged_traces_exact .list (sampleApp 1 1000) sampleTraces (by decide) (by decide +kernel)
    (List.forall_mem_cons.mpr ⟨oneTracePage_served, List.forall_mem_cons.mpr
      ⟨restTracePage_served, by simp⟩⟩)
    (show oneTracePage.tr = [] ++ oneTracePage.tr from rfl) (Prog.runs_of_feed [] (by decide +kernel)) rfl
    (by decide +kernel) (by decide +kernel) sampleTraces_wellFormed (.next rfl rfl .done)

end ExecRestApi
