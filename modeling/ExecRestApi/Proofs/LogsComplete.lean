/-
No silent truncation: what a page without a link to a next one leaves out.

The missing link is the only sign that a scan is over.  It is missing for three
reasons: the scan is over, the page limit was never positive and nothing was asked, or
the page was cut and the block it stopped in was not there when it was looked up.  A
response of the second kind is incomplete whenever there is a range to scan, one of
the third kind whenever the cut left something out.
-/
import ExecRestApi.Proofs.LogsPage

namespace ExecRestApi

open Py Interaction
open Prog (Runs)

/-! ### What a scan is after

A scan wants the logs of its range past its resume point.  A page covers its scan if every
block was asked for and every log reported that the scan wants is in the body.
-/

/-- A log within the range of the scan and past its resume point. -/
def Scan.wants (scan : Scan) (log : Json) : Bool :=
  match logPosition log with
  | .ok (b, i) => decide (scan.fromBlock ≤ b ∧ (b : Int) ≤ scan.toBlock ∧
      (scan.fromBlock < b ∨ scan.skipUntil < i))
  | .error _ => false

/-- The logs `eth_getLogs` reported. -/
def reported (tr : Trace) : List Json := (pagesOf tr).flatMap LogsPage.logs

/-- The page covers its scan: every block was asked for, and every log reported that the scan
is after is in the body. -/
structure Complete (scan : Scan) (tr : Trace) (body : List Json) : Prop where
  covered : ∀ n : Int, scan.fromBlock ≤ n → n ≤ scan.toBlock →
    ∃ p ∈ pagesOf tr, (p.first : Int) ≤ n ∧ n ≤ p.last
  logs : ∃ emitted, emitted.mapM logFromRpc = .ok body ∧
    ((reported tr).filter scan.wants).Sublist emitted

/-- Something lies beyond the limit: blocks after the last page, or logs of the scan after the
first `limit` that are not skipped. -/
def Leftover (scan : Scan) (limit : Int) (tr : Trace) : Prop :=
  (∃ p, (pagesOf tr).getLast? = some p ∧ (p.last : Int) < scan.toBlock) ∨
  ∃ log ∈ (keptFrom (scan.fetch limit) scan.skipBlock (pagesOf tr)).drop limit.toNat,
    scan.wants log = true

/-- The page ends the scan too early: with nothing asked because of its limit, or with
something left over and the look-up of the block it stopped in answered `null`. -/
def EndsEarly (scan : Scan) (limit : Int) (tr : Trace) : Prop :=
  (limit < 1 ∧ scan.fromBlock ≤ scan.toBlock) ∨
  ((∃ before b, tr = before ++ [(boundaryCall b, .ok .null)]) ∧ Leftover scan limit tr)

/-! ### The items and the wanted logs

A log is shown with its place, so the items of a page can be counted against the logs that were
reported and are wanted.
-/

theorem skipped_eq_false_of_wants {scan : Scan} {limit skipBlock : Int} {log : Json}
    (hblock : skipBlock = scan.skipBlock ∨ skipBlock = -1) (h : scan.wants log = true) :
    skipped (scan.fetch limit) skipBlock log = false := by
  unfold Scan.wants at h
  split at h
  · rename_i b i hpos
    simp only [decide_eq_true_eq] at h
    rw [← Bool.not_eq_true, skipped_iff hpos]
    show ¬ ((b : Int) = skipBlock ∧ (i : Int) ≤ scan.skipUntil)
    unfold Scan.skipBlock at hblock
    split_ifs at hblock <;> omega
  · cases h

/-- Passing over the skipped logs loses none that the scan is after. -/
theorem filter_wants_keptFrom {scan : Scan} (limit : Int) (ps : List LogsPage) :
    ∀ skipBlock : Int, (skipBlock = scan.skipBlock ∨ skipBlock = -1) →
      (keptFrom (scan.fetch limit) skipBlock ps).filter scan.wants
        = (ps.flatMap LogsPage.logs).filter scan.wants := by
  induction ps with
  | nil => intro skipBlock _; rfl
  | cons p ps ih =>
      intro skipBlock hblock
      have hpage : (kept (scan.fetch limit) skipBlock p.logs).filter scan.wants
          = p.logs.filter scan.wants := by
        rw [kept, List.filter_filter]
        refine List.filter_congr fun log _ => ?_
        cases hw : scan.wants log with
        | false => rfl
        | true => simp [skipped_eq_false_of_wants hblock hw]
      rw [keptFrom, List.flatMap_cons, List.filter_append, List.filter_append, hpage,
        ih (-1) (Or.inr rfl)]

/-- Where a log is can be read off its REST shape. -/
theorem logPosition_eq_of_logFromRpc {a b r : Json} (ha : logFromRpc a = .ok r)
    (hb : logFromRpc b = .ok r) : logPosition a = logPosition b := by
  have hpos : ∀ c, logFromRpc c = .ok r → ∃ m n : Nat, logPosition c = .ok (m, n) ∧
      getItem r "blockNumber" = .ok (.int m) ∧ getItem r "logIndex" = .ok (.int n) := by
    intro c hc
    simp only [logFromRpc, bind_eq_ok] at hc
    obtain ⟨_, _, _, _, _, _, _, _, _, _, _, _, _, _, _, _, _, _, bn, hbn, m, hm, _, _, _, _, _, _,
      _, _, li, hli, n, hn, _, _, hr⟩ := hc
    cases hr
    refine ⟨m, n, ?_, rfl, rfl⟩
    simp only [logPosition, bind_eq_ok]
    exact ⟨bn, hbn, m, hm, li, hli, n, hn, rfl⟩
  obtain ⟨m, n, hposa, hm, hn⟩ := hpos a ha
  obtain ⟨m', n', hposb, hm', hn'⟩ := hpos b hb
  rw [hm] at hm'
  rw [hn] at hn'
  cases hm'
  cases hn'
  rw [hposa, hposb]

/-- Two lists of logs with one REST shape hold equally many logs the scan is after. -/
theorem countP_wants_eq (scan : Scan) : ∀ {xs ys body : List Json},
    xs.mapM logFromRpc = .ok body → ys.mapM logFromRpc = .ok body →
      xs.countP scan.wants = ys.countP scan.wants := by
  intro xs
  induction xs with
  | nil =>
      intro ys body hx hy
      rw [mapM_nil_eq_ok] at hx
      subst hx
      rcases ys with _ | ⟨y, ys⟩
      · rfl
      · obtain ⟨_, _, -, -, h⟩ := mapM_cons_eq_ok.mp hy
        cases h
  | cons x xs ih =>
      intro ys body hx hy
      obtain ⟨r, rs, hr, hrs, rfl⟩ := mapM_cons_eq_ok.mp hx
      rcases ys with _ | ⟨y, ys⟩
      · rw [mapM_nil_eq_ok] at hy
        cases hy
      · obtain ⟨r', rs', hr', hrs', heq⟩ := mapM_cons_eq_ok.mp hy
        cases heq
        have hw : scan.wants x = scan.wants y := by
          rw [Scan.wants, Scan.wants, logPosition_eq_of_logFromRpc hr hr']
        rw [List.countP_cons, List.countP_cons, ih hrs hrs', hw]

/-! ### The page

The cases are the three in which the link is missing, and the one in which it is there.
-/

theorem logsPage?_boundaryCall (b : Nat) (reply : Reply) :
    logsPage? (boundaryCall b, reply) = none := rfl

/-- A limit that is not positive: nothing is asked. -/
theorem complete_of_limit {scan : Scan} {limit : Int} (hlim : limit < 1) :
    Complete scan [] [] ↔ ¬ EndsEarly scan limit [] := by
  constructor
  · rintro ⟨hcov, -⟩ (⟨-, hle⟩ | ⟨⟨before, b, hnil⟩, -⟩)
    · obtain ⟨p, hp, -⟩ := hcov scan.fromBlock (Int.le_refl _) hle
      cases hp
    · simp at hnil
  · intro hends
    refine ⟨?_, [], by simp [List.mapM_nil, pure, Except.pure], by simp [reported]⟩
    intro n hfrom hto
    exact absurd (Or.inl ⟨hlim, by omega⟩) hends

/-- A cut page whose last block is gone. -/
theorem complete_of_dropped {scan : Scan} {limit : Int} {tr : Trace} {result : PaginationResult}
    {body : List Json} {b : Nat} (hlim : 1 ≤ limit) (hbody : result.items.mapM logFromRpc = .ok body)
    (h : Fetches (scan.fetch limit) scan.fromBlock .default scan.skipBlock [] tr result)
    (hsome : result.nextFromBlock = some b) :
    Complete scan tr body ↔ ¬ Leftover scan limit tr := by
  obtain ⟨next, htiles, -, -⟩ := h.tiles
  obtain ⟨hlen, ⟨post, hpost⟩, init, log, i, -, -, -, before, x, p, htr, hx, -⟩ := h.cutAt hsome
  have hlast : (pagesOf tr).getLast? = some p := by
    rw [htr, pagesOf_append, pagesOf, pagesOf, List.filterMap_cons, hx]
    simp
  have hnext : next = p.last + 1 := htiles.next_eq p hlast
  have hle : scan.fromBlock ≤ scan.toBlock := by
    by_contra hgt
    have hstop : tr = [] := by
      cases h with
      | stop => rfl
      | rejected hgo => exact absurd hgo.1 hgt
      | cut hgo => exact absurd hgo.1 hgt
      | page hgo => exact absurd hgo.1 hgt
    rw [hstop] at hlast
    cases hlast
  -- what the limit leaves out of the logs that are not skipped
  have hdrop : (keptFrom (scan.fetch limit) scan.skipBlock (pagesOf tr)).drop limit.toNat = post := by
    rw [List.nil_append] at hpost
    rw [hpost, show limit.toNat = result.items.length by
      have : (result.items.length : Int) = limit := hlen
      omega]
    simp
  have hwants : (reported tr).filter scan.wants
      = result.items.filter scan.wants ++ post.filter scan.wants := by
    rw [reported, ← filter_wants_keptFrom limit _ _ (Or.inl rfl), ← List.filter_append,
      ← hpost, List.nil_append]
  rw [Leftover, hdrop, not_or]
  constructor
  · rintro ⟨hcov, emitted, hemitted, hsub⟩
    constructor
    · rintro ⟨q, hq, hlt⟩
      rw [hlast] at hq
      cases hq
      obtain ⟨q, hq, -, hto⟩ := hcov scan.toBlock hle (Int.le_refl _)
      have := htiles.last_lt q hq
      omega
    · rintro ⟨lost, hlost, hw⟩
      have hcount := countP_wants_eq scan hemitted hbody
      have hsub' := (hsub.filter scan.wants).length_le
      rw [List.filter_filter] at hsub'
      simp only [Bool.and_self] at hsub'
      rw [hwants, List.length_append, ← List.countP_eq_length_filter,
        ← List.countP_eq_length_filter, ← List.countP_eq_length_filter, hcount] at hsub'
      have : 0 < post.countP scan.wants := List.countP_pos_iff.mpr ⟨lost, hlost, hw⟩
      omega
  · rintro ⟨hblocks, hlogs⟩
    refine ⟨fun n hfrom hto => htiles.covers n hfrom ?_, result.items, hbody, ?_⟩
    · by_contra hgt
      exact hblocks ⟨p, hlast, by omega⟩
    · have hnone : post.filter scan.wants = [] :=
        List.filter_eq_nil_iff.mpr fun lost hlost hw => hlogs ⟨lost, hlost, hw⟩
      rw [hwants, hnone, List.append_nil]
      exact List.filter_sublist

/-- A page whose scan is finished. -/
theorem complete_of_finished {scan : Scan} {limit : Int} {tr : Trace} {result : PaginationResult}
    {body : List Json} (hlim : 1 ≤ limit) (hbody : result.items.mapM logFromRpc = .ok body)
    (h : Fetches (scan.fetch limit) scan.fromBlock .default scan.skipBlock [] tr result)
    (hnone : result.nextFromBlock = none) : Complete scan tr body := by
  obtain ⟨next, htiles, hfull, -⟩ := h.tiles
  have hpos : (([] : List Json).length : Int) < (scan.fetch limit).limit := by
    show (0 : Int) < limit
    omega
  have hnext : scan.toBlock < next := hfull hnone hpos
  refine ⟨fun n hfrom hto => htiles.covers n hfrom (by omega), result.items, hbody, ?_⟩
  rw [h.items_of_none hnone, List.nil_append, reported,
    ← filter_wants_keptFrom limit _ _ (Or.inl rfl)]
  exact List.filter_sublist

/-- **A page without a link is complete exactly when it does not end early.** -/
theorem complete_iff_of_parts {app : App} {route : LogsRoute} {limit : Int} {scan : Scan} {tr : Trace}
    {resp : Response} (parts : PageParts app route limit scan tr resp)
    (hlink : resp.header? "Link" = none) :
    Complete scan tr parts.body ↔ ¬ EndsEarly scan limit tr := by
  obtain ⟨trFetch, trLink, result, body, link, size, rfl, hfetch, hbody, hlinks, rfl⟩ := parts
  have hnever : ¬ ∃ before b, trFetch = before ++ [(boundaryCall b, .ok .null)] := by
    rintro ⟨before, b, rfl⟩
    obtain ⟨m, n, hcall⟩ := hfetch.calls (boundaryCall b, .ok .null) (by simp)
    simp [boundaryCall] at hcall
  by_cases hlim : limit < 1
  · have hstop : trFetch = [] ∧ result = ⟨[], none, -1⟩ := by
      have hno : ¬ ((([] : List Json).length : Int) < (scan.fetch limit).limit) := by
        show ¬ (0 : Int) < limit
        omega
      cases hfetch with
      | stop => exact ⟨rfl, rfl⟩
      | rejected hgo => exact absurd hgo.2 hno
      | cut hgo => exact absurd hgo.2 hno
      | page hgo => exact absurd hgo.2 hno
    obtain ⟨rfl, rfl⟩ := hstop
    cases hlinks with
    | finished =>
        obtain rfl := mapM_nil_eq_ok.mp hbody
        exact complete_of_limit hlim
    | dropped h => cases h
    | issued h => cases h
  · have hlim' : 1 ≤ limit := by omega
    cases hlinks with
    | finished hnone =>
        show Complete scan (trFetch ++ []) body ↔ _
        rw [List.append_nil]
        refine ⟨fun _ => ?_, fun _ => complete_of_finished hlim' hbody hfetch hnone⟩
        rintro (⟨hlt, -⟩ | ⟨hends, -⟩)
        · exact hlim hlt
        · exact hnever hends
    | dropped hsome =>
        rename_i b
        have hpages : pagesOf (trFetch ++ [(boundaryCall b, .ok .null)]) = pagesOf trFetch := by
          rw [pagesOf_append, pagesOf, pagesOf, List.filterMap_cons, logsPage?_boundaryCall]
          simp
        have hsame : Complete scan (trFetch ++ [(boundaryCall b, .ok .null)]) body
            ↔ Complete scan trFetch body := by
          constructor
          · rintro ⟨hcov, hlogs⟩
            rw [hpages] at hcov
            rw [reported, hpages] at hlogs
            exact ⟨hcov, hlogs⟩
          · rintro ⟨hcov, hlogs⟩
            refine ⟨?_, ?_⟩
            · rwa [hpages]
            · rwa [reported, hpages]
        have hleft : Leftover scan limit (trFetch ++ [(boundaryCall b, .ok .null)])
            ↔ Leftover scan limit trFetch := by
          rw [Leftover, hpages, Leftover]
        rw [hsame, complete_of_dropped hlim' hbody hfetch hsome, EndsEarly, hleft]
        constructor
        · rintro hno (⟨hlt, -⟩ | ⟨-, hyes⟩)
          · exact hlim hlt
          · exact hno hyes
        · exact fun hno hyes => hno (Or.inr ⟨⟨trFetch, b, rfl⟩, hyes⟩)
    | issued =>
        simp [Response.header?, Dict.lookupIn] at hlink

/-! ### The two handlers

Both are covered, with the scan of a first page and the scan of a cursor.  The runs are over
two blocks with a log each: one page has them both, and one is cut at the first.
-/

/-- **A 200 response without a link covers its scan exactly when it does not end early.** -/
theorem page_complete_iff (route : LogsRoute) (app : App) (req : Request) (tr : Trace)
    (resp : Response) (h : Runs (route.handler app req) tr (.ok resp)) (h200 : resp.status = 200)
    (hlink : resp.header? "Link" = none) :
    ∃ limit scan trOpen trPage body, pageLimit app req = some limit ∧ tr = trOpen ++ trPage ∧
      Runs (openScan route.firstScan app req) trOpen (.ok (.inr scan)) ∧
      resp.body = .json (.arr body) ∧
      (Complete scan trPage body ↔ ¬ EndsEarly scan limit trPage) := by
  obtain ⟨limit, scan, trOpen, trPage, hlim, htr, hopen, hpage⟩ := page_of_runs h h200
  obtain ⟨parts⟩ := pageParts_of_runs hpage
  exact ⟨limit, scan, trOpen, trPage, parts.body, hlim, htr, hopen,
    congrArg Response.body parts.resp_eq, complete_iff_of_parts parts hlink⟩

/-- The exchange of a whole scan of blocks 0 and 1. -/
def wholeTrace : Trace :=
  [(⟨"eth_blockNumber", []⟩, .ok (.str "0x1")),
   (sampleCall 0 1, .ok (.arr [sampleLog 0 0 "0xa0", sampleLog 1 0 "0xa1"]))]

/-- The same scan cut at its first log, whose block is then looked up in vain. -/
def droppedTrace : Trace := wholeTrace ++ [(boundaryCall 0, .ok .null)]

/-- A page that holds the whole scan. -/
theorem page_complete_iff_whole :
    ∃ limit scan trOpen trPage body, pageLimit (sampleApp 1000 10000) plainRequest = some limit ∧
      wholeTrace = trOpen ++ trPage ∧
      Runs (openScan LogsRoute.list.firstScan (sampleApp 1000 10000) plainRequest) trOpen
        (.ok (.inr scan)) ∧
      Body.json (.arr [sampleItem 0 0 "0xa0", sampleItem 1 0 "0xa1"]) = .json (.arr body) ∧
      Complete scan trPage body := by
  obtain ⟨limit, scan, trOpen, trPage, body, hlimit, htrace, hopen, hbody, hiff⟩ :=
    page_complete_iff .list (sampleApp 1000 10000) plainRequest wholeTrace
      ⟨200, [("X-Page-Size", "1000")],
        .json (.arr [sampleItem 0 0 "0xa0", sampleItem 1 0 "0xa1"])⟩
      (Prog.runs_of_feed (wholeTrace.map Prod.snd) (by decide +kernel)) rfl rfl
  refine ⟨limit, scan, trOpen, trPage, body, hlimit, htrace, hopen, hbody, hiff.mpr ?_⟩
  rintro (⟨hsmall, -⟩ | ⟨⟨before, b, hlast⟩, -⟩)
  · have hthousand : pageLimit (sampleApp 1000 10000) plainRequest = some 1000 := by
      decide +kernel
    rw [hthousand] at hlimit
    cases hlimit
    cases hsmall
  · -- the last call of the trace asks for logs
    rw [hlast, ← List.append_assoc] at htrace
    have hend := congrArg (fun tr => tr.getLast?.map Prod.snd) htrace
    rw [List.getLast?_concat] at hend
    cases hend

/-- The flags of a proxy that is told the sizes of its pages and nothing else. -/
def pageFlags (defaultPageSize maxPageSize : Option Int) : Namespace where
  upstreamHttp := some "http://node"
  defaultPageSize := defaultPageSize
  maxPageSize := maxPageSize

/-- **Two pages that end early without saying so**: one of a proxy started with
`--max-page-size 0`, one whose last block is gone when it is looked up. -/
theorem page_incomplete :
    (parseConfig (some (pageFlags none (some 0))) [] = .ok (sampleApp 1000 0).config ∧
      ∃ resp scan,
      Runs (getLogs (sampleApp 1000 0) plainRequest) (wholeTrace.take 1) (.ok resp) ∧
      resp.status = 200 ∧ resp.header? "Link" = none ∧
      Runs (openScan getLogsScan (sampleApp 1000 0) plainRequest) (wholeTrace.take 1)
        (.ok (.inr scan)) ∧
      ∀ body, resp.body = .json (.arr body) → ¬ Complete scan [] body) ∧
    (parseConfig (some (pageFlags (some 1) none)) [] = .ok (sampleApp 1 10000).config ∧
      ∃ resp scan,
      Runs (getLogs (sampleApp 1 10000) plainRequest) droppedTrace (.ok resp) ∧
      resp.status = 200 ∧ resp.header? "Link" = none ∧
      Runs (openScan getLogsScan (sampleApp 1 10000) plainRequest) (droppedTrace.take 1)
        (.ok (.inr scan)) ∧
      ∀ body, resp.body = .json (.arr body) → ¬ Complete scan (droppedTrace.drop 1) body) := by
  refine ⟨⟨rfl, ⟨200, [("X-Page-Size", "0")], .json (.arr [])⟩, ⟨[], 0, 1, -1⟩, ?_, rfl, rfl, ?_, ?_⟩,
    ⟨rfl, ⟨200, [("X-Page-Size", "1")], .json (.arr [sampleItem 0 0 "0xa0"])⟩, ⟨[], 0, 1, -1⟩, ?_,
      rfl, rfl, ?_, ?_⟩⟩
  · exact Prog.runs_of_feed [.ok (.str "0x1")] (by decide +kernel)
  · exact Prog.runs_of_feed [.ok (.str "0x1")] (by decide +kernel)
  · rintro body - ⟨hcov, -⟩
    obtain ⟨p, hp, -⟩ := hcov 0 (by decide) (by decide)
    cases hp
  · exact Prog.runs_of_feed (droppedTrace.map Prod.snd) (by decide +kernel)
  · exact Prog.runs_of_feed [.ok (.str "0x1")] (by decide +kernel)
  · rintro body hbody ⟨-, emitted, hemitted, hsub⟩
    cases hbody
    have hfirst : [sampleLog 0 0 "0xa0"].mapM logFromRpc = .ok [sampleItem 0 0 "0xa0"] := by
      decide +kernel
    have hcount := countP_wants_eq ⟨[], 0, 1, -1⟩ hemitted hfirst
    have hlen := (hsub.filter (Scan.wants ⟨[], 0, 1, -1⟩)).length_le
    rw [← List.countP_eq_length_filter (l := emitted), hcount] at hlen
    revert hlen
    decide +kernel

end ExecRestApi
