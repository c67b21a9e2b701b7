/-
Following the cursors of the log endpoints to the end, while the chain changes.

A client asks for a first page and follows the links until there is none.  Each page is
served from one chain, any two pages possibly from different ones.  If every page comes
back with status 200, the pages put together are the matching logs of the range on the
chain the last page was served from, each once and in order.

One page starts after the resume point of its scan and either finishes the view it is
served from or stops at one of its logs (`page_reads`).  The next page goes on only if
the block at the boundary still has its hash, and then the view is the same up to the
resume point (`resumed_of_openScan`).  This is a read in the sense of `Scan.Reads`, and
what such a read amounts to is its `flatten` theorem.
-/
import ExecRestApi.Proofs.Chain

namespace ExecRestApi

open Py Interaction
open Prog (Runs runs_bind_ok runs_lift_bind_ok)

/-! ### What a client does

`FollowsLinks` is the client: each request but the first takes the cursor from the link of the
response before it, and it stops when there is no link.  The limits of the pages are its own.
-/

/-- One page request, and the chain it was served from. -/
structure PageRequest where
  req : Request
  chain : Chain
  tr : Trace
  resp : Response

/-- The logs on a page. -/
def PageRequest.items (p : PageRequest) : List Json :=
  match p.resp.body with
  | .json (.arr items) => items
  | _ => []

section

variable (route : LogsRoute) (app : App) (sel : List (String × Json) → Json → Bool)

/-- A page request that is answered with a page of at least one log, by an upstream that follows
its chain. -/
structure PageRequest.Answered (p : PageRequest) : Prop where
  runs : Runs (route.handler app p.req) p.tr (.ok p.resp)
  ok : p.resp.status = 200
  wellFormed : p.chain.WellFormed
  served : ∀ x ∈ p.tr, Serves sel p.chain x
  limit : ∃ limit, pageLimit app p.req = some limit ∧ 1 ≤ limit

/-- The pages after `p` that following the links gives, up to a last one without a link. -/
inductive FollowsLinks : PageRequest → List PageRequest → PageRequest → Prop
  | done {p : PageRequest} (hend : p.resp.header? "Link" = none) : FollowsLinks p [] p
  | next {p q last : PageRequest} {rest : List PageRequest} {text : String}
      (hlink : p.resp.header? "Link" = some (nextLink route.path text))
      (hcursor : q.req.queryGet "cursor" = some text) (hrest : FollowsLinks q rest last) :
      FollowsLinks p (q :: rest) last

end

/-- The point a scan resumes after. -/
def Scan.start (scan : Scan) : ℤ ×ₗ ℤ := toLex (scan.fromBlock, scan.skipUntil)

/-! ### One page on one chain

The upstream of a page follows one chain, so the logs of the scan are a list in order, and the
page has a part of it: from the resume point on, and up to the limit.
-/

section

variable {C : Chain} {s : Json → Bool} {scan : Scan}

/-- Not skipping the logs already emitted is taking those past the resume point. -/
theorem keptFrom_eq_past (hC : C.WellFormed) (limit : Int) : ∀ (ps : List LogsPage) {cur next skipBlock : Int},
    (skipBlock = scan.skipBlock ∧ cur = scan.fromBlock) ∨
      (skipBlock = -1 ∧ scan.fromBlock < cur) →
    Tiles cur ps next → (∀ p ∈ ps, p.logs = C.logsIn s p.first p.last) →
      keptFrom (scan.fetch limit) skipBlock ps
        = Scan.past place scan.start (C.logsIn s cur (next - 1)) := by
  intro ps
  induction ps with
  | nil =>
      intro cur next skipBlock _ htiles _
      cases htiles
      symm
      refine List.filter_eq_nil_iff.mpr fun log hlog => ?_
      have hrange := (Chain.mem_logsIn.mp hlog).2.2
      obtain ⟨n, -, i, -, -, hpos, -⟩ := hC.of_mem (Chain.mem_logsIn.mp hlog).1
      simp only [inRange, hpos, decide_eq_true_eq] at hrange
      omega
  | cons p ps ih =>
      intro cur next skipBlock hblock htiles hpages
      obtain ⟨hfirst, hle, hrest⟩ := htiles
      have hp := hpages p (by simp)
      have hnext := hrest.le
      have hlt : scan.fromBlock < p.last + 1 := by
        rcases hblock with ⟨-, h⟩ | ⟨-, h⟩ <;> omega
      have htail := ih (Or.inr ⟨rfl, hlt⟩) hrest fun q hq => hpages q (by simp [hq])
      have hhead : kept (scan.fetch limit) skipBlock p.logs
          = Scan.past place scan.start (C.logsIn s cur p.last) := by
        rw [kept, Scan.past, hp, hfirst]
        refine List.filter_congr fun log hlog => ?_
        have hrange := (Chain.mem_logsIn.mp hlog).2.2
        obtain ⟨n, -, i, -, -, hpos, -⟩ := hC.of_mem (Chain.mem_logsIn.mp hlog).1
        simp only [inRange, hpos, decide_eq_true_eq] at hrange
        rw [Bool.eq_iff_iff, Bool.not_eq_true', ← Bool.not_eq_true, skipped_iff hpos]
        simp only [place, hpos, Scan.start, Prod.Lex.toLex_lt_toLex, decide_eq_true_eq]
        show ¬ ((n : Int) = skipBlock ∧ (i : Int) ≤ scan.skipUntil) ↔ _
        unfold Scan.skipBlock at hblock
        split_ifs at hblock <;> omega
      rw [keptFrom, hhead, htail, Scan.past, Scan.past, ← List.filter_append,
        hC.logsIn_append s cur p.last (next - 1) (by omega) (by omega)]
      rfl

/-- What comes before the resume point of a scan does not matter past it. -/
theorem past_logsIn_start (hC : C.WellFormed) {first : Int} (hfirst : first ≤ scan.fromBlock)
    (last : Int) (hle : scan.fromBlock ≤ last) :
    Scan.past place scan.start (C.logsIn s first last)
      = Scan.past place scan.start (C.logsIn s scan.fromBlock last) := by
  have hsplit := hC.logsIn_append s first (scan.fromBlock - 1) last (by omega) (by omega)
  have hnone : Scan.past place scan.start (C.logsIn s first (scan.fromBlock - 1)) = [] := by
    refine List.filter_eq_nil_iff.mpr fun log hlog => ?_
    have hrange := (Chain.mem_logsIn.mp hlog).2.2
    obtain ⟨n, -, i, -, -, hpos, -⟩ := hC.of_mem (Chain.mem_logsIn.mp hlog).1
    simp only [inRange, hpos, decide_eq_true_eq] at hrange
    simp only [place, hpos, Scan.start, Prod.Lex.toLex_lt_toLex, decide_eq_true_eq]
    omega
  rw [← hsplit, Scan.past, List.filter_append, show scan.fromBlock - 1 + 1 = scan.fromBlock by omega]
  rw [show List.filter _ (C.logsIn s first (scan.fromBlock - 1)) = [] from hnone]
  rfl

end

/-- What a page gives of the view it is served from: the rest of it, or a part that ends with
the log the cursor names. -/
inductive PageReads (app : App) (route : LogsRoute) (scan : Scan) (C : Chain) (view : List Json)
    (resp : Response) (raw : List Json) : Prop
  /-- The page finishes the view. -/
  | last (hlink : resp.header? "Link" = none) (hraw : raw = Scan.past place scan.start view)
  /-- The page stops at `log`, and a cursor is issued. -/
  | cut {init rest : List Json} {log : Json} {b i : Nat} {blk : Block} {text : String}
      (hraw : raw = init ++ [log])
      (hcut : Scan.past place scan.start view = init ++ log :: rest)
      (hpos : logPosition log = .ok (b, i)) (hblk : C[b]? = some blk)
      (henc : encodeCursor app.recursionLimit
        ⟨b, i, scan.toBlock, lower blk.hash, scan.filter⟩ = .ok text)
      (hlink : resp.header? "Link" = some (nextLink route.path text))

/-- **One page on one chain.** -/
theorem page_reads {route : LogsRoute} {app : App} {sel : List (String × Json) → Json → Bool}
    {p : PageRequest} (h : p.Answered route app sel) :
    ∃ scan trOpen trPage, p.tr = trOpen ++ trPage ∧
      Runs (openScan route.firstScan app p.req) trOpen (.ok (.inr scan)) ∧
      ∀ first, first ≤ scan.fromBlock → scan.fromBlock ≤ scan.toBlock →
        ∃ raw, raw.mapM logFromRpc = .ok p.items ∧
          PageReads app route scan p.chain
            (p.chain.logsIn (sel (withoutRange scan.filter)) first scan.toBlock) p.resp raw := by
  obtain ⟨limit, scan, trOpen, trPage, hlim, htr, hopen, hpage⟩ := page_of_runs h.runs h.ok
  refine ⟨scan, trOpen, trPage, htr, hopen, fun first hfirst hle => ?_⟩
  obtain ⟨trFetch, trLink, result, body, link, size, rfl, hfetch, hbody, hlinks, hresp⟩ :=
    (pageParts_of_runs hpage).some
  have hlimit : 1 ≤ limit := by
    obtain ⟨l, hl, hpos⟩ := h.limit
    rw [hlim] at hl
    cases hl
    exact hpos
  have hC := h.wellFormed
  have hitems : p.items = body := by rw [PageRequest.items, hresp]
  have hserved : ∀ x ∈ trFetch, Serves sel p.chain x :=
    fun x hx => h.served x (by rw [htr]; simp [hx])
  have hpages : ∀ q ∈ pagesOf trFetch,
      q.logs = p.chain.logsIn (sel (withoutRange scan.filter)) q.first q.last := by
    intro q hq
    obtain ⟨x, hx, hxq⟩ := List.mem_filterMap.mp hq
    obtain ⟨m, n, hcall⟩ := hfetch.calls x hx
    exact logs_of_serves (hserved x hx) hxq hcall
  obtain ⟨next, htiles, hfull, hend⟩ := hfetch.tiles
  have hnext : next ≤ scan.toBlock + 1 := hend (by
    show scan.fromBlock ≤ scan.toBlock + 1
    omega)
  have hkept := keptFrom_eq_past hC limit (pagesOf trFetch) (Or.inl ⟨rfl, rfl⟩) htiles hpages
  have hview := past_logsIn_start (s := sel (withoutRange scan.filter)) hC hfirst scan.toBlock hle
  -- the view is what the pages cover, and what lies beyond them
  have hsplit : Scan.past place scan.start
        (p.chain.logsIn (sel (withoutRange scan.filter)) first scan.toBlock)
      = keptFrom (scan.fetch limit) scan.skipBlock (pagesOf trFetch)
        ++ Scan.past place scan.start
          (p.chain.logsIn (sel (withoutRange scan.filter)) next scan.toBlock) := by
    have hle' := htiles.le
    rw [hview, hkept, Scan.past, Scan.past, Scan.past, ← List.filter_append,
      ← hC.logsIn_append (sel (withoutRange scan.filter)) scan.fromBlock (next - 1) scan.toBlock
        (by omega) (by omega)]
    simp
  refine ⟨result.items, by rw [hitems]; exact hbody, ?_⟩
  rw [hresp]
  cases hlinks with
  | finished hnone =>
      refine .last rfl ?_
      have hlt : scan.toBlock < next := hfull hnone (by
        show (0 : Int) < limit
        omega)
      rw [hsplit, hkept, hfetch.items_of_none hnone, hkept, List.nil_append,
        show next = scan.toBlock + 1 by omega]
      have hempty : p.chain.logsIn (sel (withoutRange scan.filter)) (scan.toBlock + 1)
          scan.toBlock = [] := by
        refine List.filter_eq_nil_iff.mpr fun log hlog => ?_
        obtain ⟨n, -, i, -, -, hpos, -⟩ := hC.of_mem hlog
        simp only [inRange, hpos, Bool.and_eq_true, decide_eq_true_eq]
        omega
      rw [hempty]
      simp [Scan.past]
  | @dropped b hsome =>
      obtain ⟨-, -, init, log, i, -, hpos, -, before, x, q, hbefore, hx, hmem⟩ :=
        hfetch.cutAt hsome
      obtain ⟨b', blk, i', hblk, -, hpos', -⟩ := hC.of_mem (Chain.mem_logsIn.mp (by
        rw [hpages q (by rw [hbefore, pagesOf_append]; simp [pagesOf, hx])] at hmem
        exact hmem)).1
      rw [hpos] at hpos'
      cases hpos'
      have hnull := (h.served (boundaryCall b, .ok .null) (by rw [htr]; simp)).block b .null rfl rfl
      rw [Chain.blockRpc, hblk] at hnull
      cases hnull
  | @issued b rpc hash text hsome hrpc hhash henc =>
      obtain ⟨-, ⟨post, hpost⟩, init, log, i, hinit, hpos, hi, -⟩ := hfetch.cutAt hsome
      have hblock := (h.served (boundaryCall b, .ok rpc) (by rw [htr]; simp)).block b rpc rfl rfl
      rw [hblock] at hrpc hhash
      obtain ⟨blk, hblk, rfl⟩ := Chain.getElem?_of_blockRpc hrpc hhash
      rw [hi] at henc
      have hcut : Scan.past place scan.start
          (p.chain.logsIn (sel (withoutRange scan.filter)) first scan.toBlock)
          = init ++ log :: (post ++ Scan.past place scan.start
            (p.chain.logsIn (sel (withoutRange scan.filter)) next scan.toBlock)) := by
        rw [List.nil_append, hinit] at hpost
        rw [hsplit, hpost]
        simp
      exact .cut hinit hcut hpos hblk henc rfl

/-! ### From one page to the next

The cursor is decoded, its hash is looked up, and the scan is the rest of the range.  A page
that is served from another chain is answered only if the two agree up to the boundary, and
then what was read so far is what would have been read from it.
-/

/-- What a request without a cursor asks for. -/
theorem first_of_openScan {route : LogsRoute} {app : App} {req : Request} {tr : Trace} {scan : Scan}
    (h : Runs (openScan route.firstScan app req) tr (.ok (.inr scan)))
    (hcursor : req.queryGet "cursor" = none) :
    scan.skipUntil = -1 ∧ scan.fromBlock ≤ scan.toBlock := by
  rw [openScan, hcursor] at h
  cases route with
  | list =>
      obtain ⟨_, _, ⟨fromBlock, toBlock⟩, -, hends, h⟩ := found_of_runs_unlessAnswered h
      have hle := ordered_of_requestRange hends
      dsimp only at h
      split at h <;> cases h.2
      exact ⟨rfl, hle⟩
  | search =>
      have h' : Runs (postLogsScan req) tr (.ok (.inr scan)) := h
      unfold postLogsScan at h'
      split at h'
      · split_ifs at h' <;> cases h'.2
      · split at h'
        · cases h'.2
        · cases h'.2
        · obtain ⟨_, _, ⟨fromBlock, toBlock⟩, -, hends, h'⟩ := found_of_runs_unlessAnswered h'
          have hle := ordered_of_requestRange hends
          cases h'.2
          exact ⟨rfl, hle⟩
      · cases h'.2

/-- A request with an issued cursor resumes where the cursor says, if the upstream still has the
block of the cursor. -/
theorem resumed_of_openScan {route : LogsRoute} {app : App} {req : Request} {tr : Trace}
    {scan : Scan} {cursor : Cursor} {text : String} {b : Nat}
    {sel : List (String × Json) → Json → Bool} {C : Chain}
    (h : Runs (openScan route.firstScan app req) tr (.ok (.inr scan)))
    (hcursor : req.queryGet "cursor" = some text) 
    (henc : encodeCursor app.recursionLimit cursor = .ok text)
    (hplain : Json.PlainObj cursor.filter) (hb : cursor.nextFromBlock = b)
    (hserved : ∀ x ∈ tr, Serves sel C x) :
    scan = ⟨cursor.filter, cursor.nextFromBlock, cursor.toBlock, cursor.lastLogIndex⟩ ∧
      ∃ blk, C[b]? = some blk ∧ lower blk.hash = lower cursor.boundaryBlockHash := by
  rw [openScan, hcursor] at h
  dsimp only at h
  unfold cursorScan at h
  split at h
  · cases h.2
  · cases h.2
  · rename_i decoded hdec
    obtain rfl := eq_of_decodeCursor_encodeCursor hplain henc hdec
    obtain ⟨tr₁, tr₂, _, rfl, hverify, h⟩ := found_of_runs_unlessAnswered h
    cases h.2
    refine ⟨rfl, ?_⟩
    obtain ⟨tr₃, tr₄, rpc, rfl, hcall, hrest⟩ := runs_bind_ok.mp hverify
    have hcall' := runs_call.mp hcall
    rw [hb, formatHex_natCast] at hcall'
    have hblock := (hserved (boundaryCall b, .ok rpc) (by rw [hcall']; simp [boundaryCall])).block
      b rpc rfl rfl
    by_cases hnull : rpc = .null
    · rw [if_pos hnull] at hrest
      obtain ⟨_, -, hrest⟩ := runs_lift_bind_ok.mp hrest
      cases hrest.2
    · rw [if_neg hnull] at hrest
      obtain ⟨v, hv, hrest⟩ := runs_lift_bind_ok.mp hrest
      obtain ⟨hash, hhash, hrest⟩ := runs_lift_bind_ok.mp hrest
      obtain ⟨t, rfl, rfl⟩ := lowerOf_eq_ok.mp hhash
      split_ifs at hrest with hne
      · obtain ⟨_, -, hrest⟩ := runs_lift_bind_ok.mp hrest
        cases hrest.2
      · rw [hblock] at hnull hv
        obtain ⟨blk, hblk, rfl⟩ := Chain.getElem?_of_blockRpc hnull hv
        exact ⟨blk, hblk, not_not.mp hne⟩

/-- **A run of pages reads the view of the last chain**, from the resume point of its first page. -/
theorem reads_of_followsLinks {route : LogsRoute} {app : App}
    {sel : List (String × Json) → Json → Bool} {family : Chain → Prop}
    (hdet : HashDetermines family) {p last : PageRequest} {rest : List PageRequest}
    (hfollow : FollowsLinks route p rest last)
    (hans : ∀ q ∈ p :: rest, q.Answered route app sel) (hfam : ∀ q ∈ p :: rest, family q.chain) :
    ∃ scan trOpen trPage, p.tr = trOpen ++ trPage ∧
      Runs (openScan route.firstScan app p.req) trOpen (.ok (.inr scan)) ∧
      ∀ first, first ≤ scan.fromBlock → scan.fromBlock ≤ scan.toBlock →
        ∃ raws : List (List Json),
          raws.flatten.mapM logFromRpc = .ok ((p :: rest).flatMap PageRequest.items) ∧
          Scan.Reads place scan.start
            (p.chain.logsIn (sel (withoutRange scan.filter)) first scan.toBlock) raws
            (last.chain.logsIn (sel (withoutRange scan.filter)) first scan.toBlock) := by
  induction hfollow with
  | @done p hend =>
      have hp := hans p (by simp)
      obtain ⟨scan, trOpen, trPage, htr, hopen, hpage⟩ := page_reads hp
      refine ⟨scan, trOpen, trPage, htr, hopen, fun first hfirst hle => ?_⟩
      obtain ⟨raw, hraw, hreads⟩ := hpage first hfirst hle
      refine ⟨[raw], by simpa using hraw, ?_⟩
      cases hreads with
      | last _ hpast =>
          rw [hpast]
          exact .last (hp.wellFormed.ordered_logsIn _ _ _)
      | cut _ _ _ _ _ hlink =>
          rw [hend] at hlink
          cases hlink
  | @next p q last rest text hlink hcursor hrest ih =>
      have hp := hans p (by simp)
      have hq := hans q (by simp)
      obtain ⟨scan, trOpen, trPage, htr, hopen, hpage⟩ := page_reads hp
      obtain ⟨scan', trOpen', trPage', htr', hopen', hrun⟩ :=
        ih (fun x hx => hans x (List.mem_cons_of_mem _ hx))
          fun x hx => hfam x (List.mem_cons_of_mem _ hx)
      refine ⟨scan, trOpen, trPage, htr, hopen, fun first hfirst hle => ?_⟩
      obtain ⟨raw, hraw, hreads⟩ := hpage first hfirst hle
      cases hreads with
      | last hnone =>
          rw [hlink] at hnone
          cases hnone
      | @cut init post log b i blk text' hinit hcut hpos hblk henc hlink' =>
          rw [hlink] at hlink'
          have htext : text = text' := nextLink_injective (Option.some.inj hlink')
          subst htext
          obtain ⟨rfl, blk', hblk', hhash⟩ := resumed_of_openScan hopen' hcursor henc
            (plainObj_of_openScan hopen) rfl
            fun x hx => hq.served x (by rw [htr']; exact List.mem_append_left _ hx)
          -- the two chains agree up to the boundary block
          have htake := hdet q.chain p.chain (hfam q (by simp)) (hfam p (by simp)) b blk' blk hblk'
            hblk (by rw [hhash]; exact lower_lower _)
          have hmem : log ∈ p.chain.logsIn (sel (withoutRange scan.filter)) first scan.toBlock := by
            have : log ∈ init ++ log :: post := by simp
            rw [← hcut] at this
            exact (List.mem_filter.mp this).1
          have hin := (Chain.mem_logsIn.mp hmem).2.2
          simp only [inRange, hpos, decide_eq_true_eq] at hin
          obtain ⟨raws, hraws, hreads⟩ := hrun first hin.1 hin.2
          refine ⟨raw :: raws, ?_, ?_⟩
          · rw [List.flatten_cons, List.flatMap_cons]
            exact mapM_append_eq_ok hraw hraws
          · have hplace : place log = toLex ((b : Int), (i : Int)) := by simp [place, hpos]
            rw [hinit]
            refine .next (hp.wellFormed.ordered_logsIn _ _ _) hcut ?_ (by rw [hplace]; exact hreads)
            rw [hplace]
            exact hq.wellFormed.upTo_eq hp.wellFormed htake _ _ _ _

/-- **Paging is exact under reorgs between pages**: the pages of a run put together are the
matching logs of the range on the last chain, each once, in order. -/
theorem paged_logs_exact (route : LogsRoute) (app : App)
    (sel : List (String × Json) → Json → Bool) {p last : PageRequest} {rest : List PageRequest}
    (hdet : HashDetermines fun C => ∃ q ∈ p :: rest, q.chain = C)
    (hans : ∀ q ∈ p :: rest, q.Answered route app sel)
    (hfirst : p.req.queryGet "cursor" = none) (hfollow : FollowsLinks route p rest last) :
    ∃ scan trOpen trPage, p.tr = trOpen ++ trPage ∧
      Runs (openScan route.firstScan app p.req) trOpen (.ok (.inr scan)) ∧
      scan.fromBlock ≤ scan.toBlock ∧
      (last.chain.logsIn (sel (withoutRange scan.filter)) scan.fromBlock scan.toBlock).mapM logFromRpc
        = .ok ((p :: rest).flatMap PageRequest.items) := by
  obtain ⟨scan, trOpen, trPage, htr, hopen, hrun⟩ :=
    reads_of_followsLinks hdet hfollow hans fun q hq => ⟨q, hq, rfl⟩
  obtain ⟨hskip, hle⟩ := first_of_openScan hopen hfirst
  obtain ⟨raws, hraws, hreads⟩ := hrun scan.fromBlock (Int.le_refl _) hle
  refine ⟨scan, trOpen, trPage, htr, hopen, hle, ?_⟩
  -- nothing of the range lies before its first log
  have hnone : Scan.upTo place scan.start
      (p.chain.logsIn (sel (withoutRange scan.filter)) scan.fromBlock scan.toBlock) = [] := by
    refine List.filter_eq_nil_iff.mpr fun log hlog => ?_
    have hin := (Chain.mem_logsIn.mp hlog).2.2
    obtain ⟨n, -, i, -, -, hpos, -⟩ :=
      (hans p (by simp)).wellFormed.of_mem (Chain.mem_logsIn.mp hlog).1
    simp only [inRange, hpos, decide_eq_true_eq] at hin
    simp only [place, hpos, Scan.start, hskip, Prod.Lex.toLex_le_toLex, decide_eq_true_eq]
    omega
  rw [← hreads.flatten, hnone, List.nil_append]
  exact hraws

/-- A first page of one log. -/
def onePage : PageRequest where
  req := plainRequest
  chain := sampleChain "0xa0" "0xa1"
  tr := cutTrace (sampleChain "0xa0" "0xa1") (sampleChain "0xa0" "0xa1")
  resp := cutResponse "0xa0" "0xa0"

/-- The page its link leads to, after a reorg of block 1 and with another limit. -/
def restPage : PageRequest where
  req := { path := "/logs", query := [("limit", "5"), ("cursor", cursorText (cutCursor "0xa0"))] }
  chain := sampleChain "0xa0" "0xb1"
  tr := [(boundaryCall 0, .ok ((sampleChain "0xa0" "0xb1").blockRpc 0)),
    (sampleCall 0 1, .ok (.arr ((sampleChain "0xa0" "0xb1").logsIn (fun _ => true) 0 1)))]
  resp := ⟨200, [("X-Page-Size", "5")],
    .json (.arr [sampleItem 1 0 "0xb1", sampleItem 1 1 "0xb1"])⟩

theorem onePage_link : onePage.resp.header? "Link"
    = some (nextLink "/logs" (cursorText (cutCursor "0xa0"))) := rfl

theorem onePage_answered : onePage.Answered .list (sampleApp 1 1000) fun _ _ => true where
  runs := Prog.runs_of_feed (onePage.tr.map Prod.snd) (by decide +kernel)
  ok := rfl
  wellFormed := sampleChain_wellFormed _ _
  served := by
    simp only [onePage, cutTrace, List.forall_mem_cons, List.not_mem_nil, false_imp_iff,
      implies_true, and_true]
    exact ⟨serves_blockNumber _ _ _, serves_getLogs _ _ 0 1, serves_block _ _ 0⟩
  limit := ⟨1, by decide +kernel, by decide⟩

theorem restPage_answered : restPage.Answered .list (sampleApp 1 1000) fun _ _ => true where
  runs := Prog.runs_of_feed (restPage.tr.map Prod.snd) (by decide +kernel)
  ok := rfl
  wellFormed := sampleChain_wellFormed _ _
  served := by
    simp only [restPage, List.forall_mem_cons, List.not_mem_nil, false_imp_iff, implies_true,
      and_true]
    exact ⟨serves_block _ _ 0, serves_getLogs _ _ 0 1⟩
  limit := ⟨5, by decide +kernel, by decide⟩

/-- The two chains differ from block 1 on, and so do their hashes. -/
theorem hashDetermines_pages :
    HashDetermines fun C => ∃ q ∈ [onePage, restPage], q.chain = C := by
  have hne : lower "0xa1" ≠ lower "0xb1" := by decide
  rintro C C' ⟨q, hq, rfl⟩ ⟨q', hq', rfl⟩ n b b' hb hb' hhash
  simp only [List.mem_cons, List.not_mem_nil, or_false] at hq hq'
  rcases n with _ | _ | n
  · rcases hq with rfl | rfl <;> rcases hq' with rfl | rfl <;> rfl
  · rcases hq with rfl | rfl <;> rcases hq' with rfl | rfl
    · rfl
    · cases hb
      cases hb'
      exact absurd hhash hne
    · cases hb
      cases hb'
      exact absurd hhash.symm hne
    · rfl
  · rcases hq with rfl | rfl <;> cases hb

/-- A run of two pages with a reorg of the second block between them. -/
theorem paged_logs_exact_reorged :
    ∃ scan trOpen trPage, onePage.tr = trOpen ++ trPage ∧
      Runs (openScan LogsRoute.list.firstScan (sampleApp 1 1000) onePage.req) trOpen
        (.ok (.inr scan)) ∧
      scan.fromBlock ≤ scan.toBlock ∧
      (restPage.chain.logsIn (fun _ => true) scan.fromBlock scan.toBlock).mapM logFromRpc
        = .ok ([onePage, restPage].flatMap PageRequest.items) :=
  paged_logs_exact .list (sampleApp 1 1000) (fun _ _ => true) hashDetermines_pages
    (List.forall_mem_cons.mpr ⟨onePage_answered, List.forall_mem_cons.mpr
      ⟨restPage_answered, by simp⟩⟩)
    rfl (.next onePage_link rfl (.done rfl))

end ExecRestApi
