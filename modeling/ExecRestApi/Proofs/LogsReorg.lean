/-
A reorg inside one page request.

The logs of a page and the hash that goes into its cursor come from different calls,
and the chain may change between any two of them.  The last log of a cut page was
reported by the last `eth_getLogs`, and the look-up of its block follows directly, so
the only moment that matters is the one between these two: the hash in the cursor is
that of the block the last log came from exactly when both calls saw the same block at
that height.

`ServedBy` gives each call of a request its own chain, so a reorg between two calls is two
chains that differ.  Nothing relates them: the height may be missing on the second, or have
another block with the same logs, and the hash is right in the one case in which it should be.

The failing run is a page of one log.  Its block is replaced after the fetch, and the cursor
has the hash of the block that came in its place.
-/
import ExecRestApi.Proofs.Chain

namespace ExecRestApi

open Py Interaction
open Prog (Runs)

/-- The chain changes between calls: exchange number `k` is with an upstream that follows
`chains k`. -/
def ServedBy (sel : List (String × Json) → Json → Bool) (chains : Nat → Chain) (tr : Trace) : Prop :=
  ∀ (k : Nat) (x : RpcCall × Reply), tr[k]? = some x → Serves sel (chains k) x

/-- The log a page stops at: the one that fills it. -/
def stopLog (scan : Scan) (limit : Int) (tr : Trace) : Option Json :=
  (keptFrom (scan.fetch limit) scan.skipBlock (pagesOf tr))[limit.toNat - 1]?

/-- Two chains have the same block hash at a height, upper and lower case not told apart. -/
def SameBlock (C C' : Chain) (n : Nat) : Prop :=
  ∃ b b' : Block, C[n]? = some b ∧ C'[n]? = some b' ∧ lower b.hash = lower b'.hash

/-- The last item of a rendered list is the rendered last item. -/
theorem getLast?_of_mapM {ε α β : Type} {f : α → Except ε β} {xs : List α} {x : α} {ys : List β}
    (h : (xs ++ [x]).mapM f = .ok ys) : ∃ y, f x = .ok y ∧ ys.getLast? = some y := by
  induction xs generalizing ys with
  | nil =>
      obtain ⟨y, zs, hy, hzs, rfl⟩ := mapM_cons_eq_ok.mp h
      rw [mapM_nil_eq_ok.mp hzs]
      exact ⟨y, hy, rfl⟩
  | cons a xs ih =>
      obtain ⟨z, zs, -, hzs, rfl⟩ := mapM_cons_eq_ok.mp h
      obtain ⟨y, hy, hlast⟩ := ih hzs
      refine ⟨y, hy, ?_⟩
      rcases zs with _ | ⟨w, ws⟩
      · cases hlast
      · rw [List.getLast?_cons_cons]
        exact hlast

/-- The block hash of an item is that of its log, in lower case. -/
theorem blockHash_of_logFromRpc {log item : Json} {hash : String}
    (h : logFromRpc log = .ok item) (hhash : getItem log "blockHash" = .ok (.str hash)) :
    getItem item "blockHash" = .ok (.str (lower hash)) := by
  simp only [logFromRpc, bind_eq_ok] at h
  obtain ⟨_, _, _, _, _, _, _, _, _, _, _, _, _, _, bh, hbh, lh, hlh, _, _, _, _, _, _, _, _, _, _,
    _, _, _, _, _, _, _, _, h⟩ := h
  cases h
  rw [hhash] at hbh
  cases hbh
  obtain ⟨t, ht, rfl⟩ := lowerOf_eq_ok.mp hlh
  cases ht
  rfl

/-- **The hash in a cursor is that of the block its last log came from exactly when the chain
did not change at that height between the last `eth_getLogs` and the look-up that follows it.** -/
theorem boundary_hash_iff (route : LogsRoute) (app : App) (req : Request) {tr : Trace}
    {resp : Response} {sel : List (String × Json) → Json → Bool} {chains : Nat → Chain}
    {text : String} {cursor : Cursor}
    (h : Runs (route.handler app req) tr (.ok resp)) (hwf : ∀ k, (chains k).WellFormed)
    (hserved : ServedBy sel chains tr)
    (hlink : resp.header? "Link" = some (nextLink route.path text))
    (hcursor : decodeCursor app.recursionLimit text = .ok cursor) :
    ∃ limit scan trOpen trPage body item hash log b i, pageLimit app req = some limit ∧
      tr = trOpen ++ trPage ∧
      Runs (openScan route.firstScan app req) trOpen (.ok (.inr scan)) ∧
      resp.body = .json (.arr body) ∧ body.getLast? = some item ∧
      getItem item "blockHash" = .ok (.str hash) ∧
      stopLog scan limit trPage = some log ∧ logPosition log = .ok (b, i) ∧
      (lower cursor.boundaryBlockHash = lower hash ↔
        SameBlock (chains (tr.length - 2)) (chains (tr.length - 1)) b) := by
  obtain ⟨limit, scan, trOpen, trPage, hlim, rfl, hopen, hpage⟩ := page_of_runs_link h hlink
  obtain ⟨trFetch, trLink, result, body, link, size, rfl, hfetch, hbody, hlinks, rfl⟩ :=
    (pageParts_of_runs hpage).some
  cases hlinks with
  | finished => simp [Response.header?, Dict.lookupIn] at hlink
  | dropped => simp [Response.header?, Dict.lookupIn] at hlink
  | @issued b rpc hash text' hsome hrpc hhash henc =>
      have htext : text' = text := by
        simp only [Response.header?, Dict.lookupIn, String.reduceEq, if_false, if_true,
          Option.some.injEq] at hlink
        exact nextLink_injective hlink
      rw [htext] at henc
      have hcur := eq_of_decodeCursor_encodeCursor (plainObj_of_openScan hopen) henc hcursor
      obtain ⟨hlen, ⟨post, hpost⟩, init, log, i, hitems, hpos, -, before, x, p, hbefore, hx, hmem⟩ :=
        hfetch.cutAt hsome
      -- the last `eth_getLogs` is exchange `tr.length - 2`, the look-up is the one after it
      have hlength : (trOpen ++ (trFetch ++ [(boundaryCall b, Except.ok rpc)])).length
          = trOpen.length + before.length + 2 := by
        rw [hbefore]
        simp only [List.length_append, List.length_cons, List.length_nil]
        omega
      have hget : ∀ (k : Nat) (y : RpcCall × Reply),
          (trOpen ++ (trFetch ++ [(boundaryCall b, Except.ok rpc)]))[k]? = some y ↔
          ((trOpen ++ before) ++ [x, (boundaryCall b, Except.ok rpc)])[k]? = some y := by
        intro k y
        rw [hbefore]
        simp only [List.append_assoc, List.cons_append, List.nil_append]
      have hserve₁ : Serves sel (chains (trOpen.length + before.length)) x :=
        hserved _ _ ((hget _ _).mpr (by
          rw [List.getElem?_append_right (by simp)]
          simp))
      have hserve₂ : Serves sel (chains (trOpen.length + before.length + 1))
          (boundaryCall b, Except.ok rpc) :=
        hserved _ _ ((hget _ _).mpr (by
          rw [List.getElem?_append_right (by simp [Nat.add_assoc])]
          simp))
      obtain ⟨m, n, hcall⟩ := hfetch.calls x (by rw [hbefore]; simp)
      have hlogs := logs_of_serves hserve₁ hx hcall
      rw [hlogs, Chain.mem_logsIn] at hmem
      obtain ⟨b', blk, i', hblk, -, hpos', hloghash⟩ :=
        (hwf (trOpen.length + before.length)).of_mem hmem.1
      rw [hpos] at hpos'
      cases hpos'
      have hrpc' := hserve₂.block b rpc rfl rfl
      rw [hrpc'] at hrpc hhash
      obtain ⟨blk', hblk', rfl⟩ := Chain.getElem?_of_blockRpc hrpc hhash
      rw [hitems] at hbody
      obtain ⟨item, hitem, hlast⟩ := getLast?_of_mapM hbody
      have hstop : stopLog scan limit (trFetch ++ [(boundaryCall b, Except.ok rpc)]) = some log := by
        have hpages : pagesOf (trFetch ++ [(boundaryCall b, Except.ok rpc)]) = pagesOf trFetch := by
          rw [pagesOf_append]
          exact List.append_nil _
        have hlimit : limit.toNat = init.length + 1 := by
          have : ((init ++ [log]).length : Int) = limit := by rw [← hitems]; exact hlen
          rw [List.length_append, List.length_singleton] at this
          omega
        rw [List.nil_append, hitems] at hpost
        rw [stopLog, hpages, hpost, hlimit]
        simp
      refine ⟨limit, scan, trOpen, _, body, item, lower blk.hash, log, b, i, hlim, rfl, hopen, rfl,
        hlast, blockHash_of_logFromRpc hitem hloghash, hstop, hpos, ?_⟩
      rw [hlength, hcur, lower_lower, lower_lower, show trOpen.length + before.length + 2 - 2
        = trOpen.length + before.length by omega, show trOpen.length + before.length + 2 - 1
        = trOpen.length + before.length + 1 by omega]
      constructor
      · exact fun heq => ⟨blk, blk', hblk, hblk', heq.symm⟩
      · rintro ⟨c, c', hc, hc', heq⟩
        rw [hblk] at hc
        rw [hblk'] at hc'
        cases hc
        cases hc'
        exact heq.symm

theorem servedBy_cutTrace (C C' : Chain) :
    ServedBy (fun _ _ => true) (fun k => if k < 2 then C else C') (cutTrace C C') := by
  intro k x hx
  rcases k with _ | _ | _ | k
  · cases hx
    exact serves_blockNumber _ _ _
  · cases hx
    exact serves_getLogs _ _ 0 1
  · cases hx
    exact serves_block _ _ 0
  · cases hx

/-- A page whose chain stays the same. -/
theorem boundary_hash_iff_same :
    let C := sampleChain "0xa0" "0xa1"
    ∃ limit scan trOpen trPage body item hash log b i,
      pageLimit (sampleApp 1 1000) plainRequest = some limit ∧ cutTrace C C = trOpen ++ trPage ∧
      Runs (openScan LogsRoute.list.firstScan (sampleApp 1 1000) plainRequest) trOpen
        (.ok (.inr scan)) ∧
      (cutResponse "0xa0" "0xa0").body = .json (.arr body) ∧ body.getLast? = some item ∧
      getItem item "blockHash" = .ok (.str hash) ∧
      stopLog scan limit trPage = some log ∧ logPosition log = .ok (b, i) ∧
      lower (cutCursor "0xa0").boundaryBlockHash = lower hash ∧ SameBlock C C b := by
  intro C
  have hrun : Prog.feed (getLogs (sampleApp 1 1000) plainRequest)
      ((cutTrace C C).map Prod.snd) = some (cutTrace C C, .ok (cutResponse "0xa0" "0xa0")) := by
    decide +kernel
  obtain ⟨limit, scan, trOpen, trPage, body, item, hash, log, b, i, hlimit, htrace, hopen, hbody,
    hlast, hhash, hstop, hpos, hiff⟩ :=
    boundary_hash_iff .list (sampleApp 1 1000) plainRequest (Prog.runs_of_feed _ hrun)
      (fun k => by split_ifs <;> exact sampleChain_wellFormed _ _) (servedBy_cutTrace C C) rfl
      (decodeCursor_cutCursor "0xa0")
  have hsame : lower (cutCursor "0xa0").boundaryBlockHash = lower hash := by
    injection hbody with hbody
    injection hbody with hbody
    rw [← hbody] at hlast
    cases hlast
    cases hhash
    decide
  have hblock : SameBlock C C b := hiff.mp hsame
  exact ⟨limit, scan, trOpen, trPage, body, item, hash, log, b, i, hlimit, htrace, hopen, hbody,
    hlast, hhash, hstop, hpos, hsame, hblock⟩

/-- **A reorg between the two calls**: the page shows a log of block `0xa0`, and its cursor
holds the hash of the block that has taken its place. -/
theorem boundary_hash_of_other_block :
    let C := sampleChain "0xa0" "0xa1"
    let C' := sampleChain "0xb0" "0xb1"
    C.WellFormed ∧ C'.WellFormed ∧
    ServedBy (fun _ _ => true) (fun k => if k < 2 then C else C') (cutTrace C C') ∧
    ∃ resp text cursor item hash, Runs (getLogs (sampleApp 1 1000) plainRequest) (cutTrace C C') (.ok resp) ∧
      resp.header? "Link" = some (nextLink "/logs" text) ∧
      decodeCursor (sampleApp 1 1000).recursionLimit text = .ok cursor ∧
      resp.body = .json (.arr [item]) ∧ getItem item "blockHash" = .ok (.str hash) ∧
      lower cursor.boundaryBlockHash ≠ lower hash := by
  intro C C'
  have hrun : Prog.feed (getLogs (sampleApp 1 1000) plainRequest)
      ((cutTrace C C').map Prod.snd) = some (cutTrace C C', .ok (cutResponse "0xa0" "0xb0")) := by
    decide +kernel
  exact ⟨sampleChain_wellFormed _ _, sampleChain_wellFormed _ _, servedBy_cutTrace C C',
    cutResponse "0xa0" "0xb0", _, cutCursor "0xb0", sampleItem 0 0 "0xa0", "0xa0",
    Prog.runs_of_feed _ hrun, rfl, decodeCursor_cutCursor "0xb0", rfl, rfl, by decide⟩

end ExecRestApi
