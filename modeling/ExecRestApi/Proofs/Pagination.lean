/-
What a run of `fetch_logs_paginated` exchanges and returns.

A run is read off its trace.  `Looped` lists what one turn of the loop can do, once and
for all, and `Fetches` what is left of it in a run that returns: stop, be rejected, reach
the limit inside a page, or finish a page and go on.  Everything else here is an induction
on it.  The facts wanted are about the pages
that did come back: they follow one another without a hole from the block the loop
started at, and the items are the logs of these pages that are not skipped, cut off at
the limit.

Nothing is assumed about the upstream.
-/
import ExecRestApi.Model.Pagination

namespace ExecRestApi

open Py Interaction

/-! ### Pages of a trace

A page is an exchange whose reply is a list.  `Tiles` says of pages that they follow one
another from a block on, each beginning where the one before it has ended.
-/

/-- A page of logs: the blocks asked for, and what came back. -/
structure LogsPage where
  first : Nat
  last : Nat
  logs : List Json

/-- The range of blocks an `eth_getLogs` call asks for. -/
def askedRange (call : RpcCall) : Option (Nat × Nat) :=
  match call.params with
  | [.obj fields] =>
      if call.method = "eth_getLogs" then
        match Json.field? fields "fromBlock", Json.field? fields "toBlock" with
        | some a, some b =>
            match hexToInt a, hexToInt b with
            | .ok first, .ok last => some (first, last)
            | _, _ => none
        | _, _ => none
      else none
  | _ => none

/-- The page an exchange brought, if it is a successful `eth_getLogs`. -/
def logsPage? (x : RpcCall × Reply) : Option LogsPage :=
  match askedRange x.1, x.2 with
  | some (first, last), .ok page => page.iter?.map fun logs => ⟨first, last, logs⟩
  | _, _ => none

/-- The pages of a trace, in order. -/
def pagesOf (tr : Trace) : List LogsPage := tr.filterMap logsPage?

@[simp] theorem pagesOf_nil : pagesOf [] = [] := rfl

theorem pagesOf_append (tr tr' : Trace) : pagesOf (tr ++ tr') = pagesOf tr ++ pagesOf tr' := by
  simp [pagesOf]

theorem pagesOf_cons_error {c : RpcCall} {e : Exc} (tr : Trace) :
    pagesOf ((c, .error e) :: tr) = pagesOf tr := by
  have : logsPage? (c, .error e) = none := by
    unfold logsPage?
    split <;> simp_all
  simp [pagesOf, this]

/-- The pages tile the blocks from `cur` up to `next`, which is left out. -/
def Tiles (cur : Int) : List LogsPage → Int → Prop
  | [], next => next = cur
  | p :: ps, next => (p.first : Int) = cur ∧ p.first ≤ p.last ∧ Tiles (p.last + 1) ps next

/-- Every block of a tiled stretch is in one of its pages. -/
theorem Tiles.covers {ps : List LogsPage} : ∀ {cur next : Int}, Tiles cur ps next →
    ∀ n : Int, cur ≤ n → n < next → ∃ p ∈ ps, (p.first : Int) ≤ n ∧ n ≤ p.last := by
  induction ps with
  | nil =>
      intro cur next h n hcur hnext
      cases h
      omega
  | cons p ps ih =>
      intro cur next ⟨hfirst, hle, hrest⟩ n hcur hnext
      by_cases hn : n ≤ p.last
      · exact ⟨p, by simp, by omega, hn⟩
      · obtain ⟨q, hq, hq'⟩ := ih hrest n (by omega) hnext
        exact ⟨q, by simp [hq], hq'⟩

theorem Tiles.le {ps : List LogsPage} : ∀ {cur next : Int}, Tiles cur ps next → cur ≤ next := by
  induction ps with
  | nil =>
      intro cur next h
      cases h
      exact Int.le_refl _
  | cons p ps ih =>
      intro cur next ⟨hfirst, hle, hrest⟩
      have := ih hrest
      omega

theorem Tiles.last_lt {ps : List LogsPage} : ∀ {cur next : Int}, Tiles cur ps next →
    ∀ p ∈ ps, (p.last : Int) < next := by
  induction ps with
  | nil => intro cur next _ p hp; cases hp
  | cons q ps ih =>
      intro cur next ⟨_, _, hrest⟩ p hp
      rcases List.mem_cons.mp hp with rfl | hp
      · have := hrest.le
        omega
      · exact ih hrest p hp

/-- Where a tiled stretch ends. -/
theorem Tiles.next_eq {ps : List LogsPage} : ∀ {cur next : Int}, Tiles cur ps next →
    ∀ p, ps.getLast? = some p → next = p.last + 1 := by
  induction ps with
  | nil => intro cur next _ p hp; cases hp
  | cons q ps ih =>
      intro cur next ⟨_, _, hrest⟩ p hp
      rcases ps with _ | ⟨q', ps'⟩
      · cases hp
        exact hrest
      · rw [List.getLast?_cons_cons] at hp
        exact ih hrest p hp

/-! ### Parameters of a call

The loop puts its range into the filter it was given, and the range and the rest of the filter
are read back from the parameters of the call.
-/

theorem decimalToHex_eq_ok {n : Int} {s : String} :
    decimalToHex n = .ok s ↔ 0 ≤ n ∧ s = toHex n.toNat := by
  unfold decimalToHex
  by_cases hn : n < 0
  · rw [if_pos hn]
    constructor
    · intro h
      cases h
    · omega
  · rw [if_neg hn]
    constructor
    · intro h
      cases h
      exact ⟨by omega, rfl⟩
    · rintro ⟨-, rfl⟩
      rfl

/-- The fields of a filter other than its range. -/
def withoutRange (filter : List (String × Json)) : List (String × Json) :=
  filter.filter fun kv => kv.1 != "fromBlock" && kv.1 != "toBlock"

/-- A lookup past entries that do not have the key. -/
theorem lookupIn_append_of_forall_ne {κ υ : Type} [DecidableEq κ] {k : κ} {l l' : List (κ × υ)}
    (h : ∀ p ∈ l, p.1 ≠ k) : Dict.lookupIn k (l ++ l') = Dict.lookupIn k l' := by
  induction l with
  | nil => rfl
  | cons p rest ih =>
      have hp : ¬ p.1 = k := h p (by simp)
      simp only [List.cons_append, Dict.lookupIn, if_neg hp]
      exact ih fun q hq => h q (by simp [hq])

/-- The parameters of one call, and what range they ask for. -/
theorem getLogsParams_eq_ok {filter : List (String × Json)} {cur last : Int} {params : Json}
    (h : getLogsParams filter cur last = .ok params) :
    ∃ m n : Nat, cur = m ∧ last = n ∧
      params = .obj (withoutRange filter
        ++ [("fromBlock", .str (toHex m)), ("toBlock", .str (toHex n))]) := by
  simp only [getLogsParams, bind_eq_ok, decimalToHex_eq_ok] at h
  obtain ⟨_, ⟨hm, rfl⟩, _, ⟨hn, rfl⟩, hp⟩ := h
  cases hp
  exact ⟨cur.toNat, last.toNat, by omega, by omega, rfl⟩

theorem field?_withoutRange {filter : List (String × Json)} {m n : Nat} :
    Json.field? (withoutRange filter
        ++ [("fromBlock", .str (toHex m)), ("toBlock", .str (toHex n))]) "fromBlock"
      = some (.str (toHex m)) ∧
    Json.field? (withoutRange filter
        ++ [("fromBlock", .str (toHex m)), ("toBlock", .str (toHex n))]) "toBlock"
      = some (.str (toHex n)) := by
  have hne : ∀ p ∈ withoutRange filter, p.1 ≠ "fromBlock" ∧ p.1 ≠ "toBlock" := by
    intro p hp
    simpa using (List.mem_filter.mp hp).2
  unfold Json.field?
  rw [lookupIn_append_of_forall_ne fun p hp => (hne p hp).1,
    lookupIn_append_of_forall_ne fun p hp => (hne p hp).2]
  exact ⟨rfl, rfl⟩

/-- A call that came back is a page of the range it asked for. -/
theorem logsPage?_getLogs {filter : List (String × Json)} {cur last : Int} {params page : Json}
    {logs : List Json} (hparams : getLogsParams filter cur last = .ok params)
    (hpage : iterate page = .ok logs) :
    ∃ m n : Nat, cur = m ∧ last = n ∧
      logsPage? (⟨"eth_getLogs", [params]⟩, .ok page) = some ⟨m, n, logs⟩ := by
  obtain ⟨m, n, hm, hn, rfl⟩ := getLogsParams_eq_ok hparams
  refine ⟨m, n, hm, hn, ?_⟩
  have hiter : page.iter? = some logs := by
    unfold iterate at hpage
    split at hpage <;> simp_all
  have hasked : askedRange ⟨"eth_getLogs", [.obj (withoutRange filter
      ++ [("fromBlock", .str (toHex m)), ("toBlock", .str (toHex n))])]⟩ = some (m, n) := by
    simp only [askedRange, field?_withoutRange, hexToInt_toHex, if_true]
  simp only [logsPage?, hasked, hiter, Option.map_some]

/-! ### One page

A page is scanned log by log.  Those at or before the resume point are left out, and the scan
ends in the middle of the page if the limit is reached there.
-/

/-- The logs the loop passes over: those of the resume block that were already emitted. -/
def skipped (f : Fetch) (skipBlock : Int) (log : Json) : Bool :=
  match logPosition log with
  | .ok (b, i) => decide ((b : Int) = skipBlock ∧ (i : Int) ≤ f.skipUntil)
  | .error _ => false

theorem skipped_iff {f : Fetch} {skipBlock : Int} {log : Json} {b i : Nat}
    (hpos : logPosition log = .ok (b, i)) :
    skipped f skipBlock log = true ↔ (b : Int) = skipBlock ∧ (i : Int) ≤ f.skipUntil := by
  simp [skipped, hpos]

/-- The logs of a page that are not skipped. -/
def kept (f : Fetch) (skipBlock : Int) (logs : List Json) : List Json :=
  logs.filter fun log => !skipped f skipBlock log

/-- The logs of successive pages that are not skipped; only the first page has a resume block. -/
def keptFrom (f : Fetch) : Int → List LogsPage → List Json
  | _, [] => []
  | skipBlock, p :: ps => kept f skipBlock p.logs ++ keptFrom f (-1) ps

section

variable {f : Fetch} {skipBlock : Int}

/-- One turn over a page, by what becomes of the log. -/
theorem scanPage_cons {items rest : List Json} {log : Json} {out : List Json ⊕ PaginationResult}
    (h : scanPage f skipBlock items (log :: rest) = .ok out) :
    ∃ b i : Nat, logPosition log = .ok (b, i) ∧
      ((skipped f skipBlock log = true ∧ scanPage f skipBlock items rest = .ok out) ∨
       (skipped f skipBlock log = false ∧ f.limit ≤ ((items ++ [log]).length : Int) ∧
          out = .inr ⟨items ++ [log], some b, i⟩) ∨
       (skipped f skipBlock log = false ∧ ((items ++ [log]).length : Int) < f.limit ∧
          scanPage f skipBlock (items ++ [log]) rest = .ok out)) := by
  rw [scanPage] at h
  obtain ⟨⟨b, i⟩, hpos, h⟩ := bind_eq_ok.mp h
  refine ⟨b, i, hpos, ?_⟩
  by_cases hskip : (b : Int) = skipBlock ∧ (i : Int) ≤ f.skipUntil
  · simp only [if_pos hskip] at h
    exact Or.inl ⟨by simp [skipped, hpos, hskip], h⟩
  · simp only [if_neg hskip] at h
    have hno : skipped f skipBlock log = false := by simp [skipped, hpos, hskip]
    by_cases hlim : f.limit ≤ ((items ++ [log]).length : Int)
    · rw [if_pos hlim] at h
      cases h
      exact Or.inr (Or.inl ⟨hno, hlim, rfl⟩)
    · rw [if_neg hlim] at h
      exact Or.inr (Or.inr ⟨hno, by omega, h⟩)

/-- A page that is read to its end adds all its logs that are not skipped. -/
theorem scanPage_inl {logs : List Json} : ∀ {items items' : List Json},
    scanPage f skipBlock items logs = .ok (.inl items') →
      items' = items ++ kept f skipBlock logs ∧
      ((items.length : Int) < f.limit → (items'.length : Int) < f.limit) := by
  induction logs with
  | nil =>
      intro items items' h
      cases h
      simp [kept]
  | cons log rest ih =>
      intro items items' h
      obtain ⟨b, i, -, hcase⟩ := scanPage_cons h
      rcases hcase with ⟨hskip, hrest⟩ | ⟨-, -, hout⟩ | ⟨hskip, hlt, hrest⟩
      · obtain ⟨hitems, hlen⟩ := ih hrest
        exact ⟨by simp [hitems, kept, hskip], hlen⟩
      · cases hout
      · obtain ⟨hitems, hlen⟩ := ih hrest
        exact ⟨by simp [hitems, kept, hskip], fun _ => hlen hlt⟩

/-- A page that reaches the limit does so at one of its logs, which is the last item. -/
theorem scanPage_inr {logs : List Json} {r : PaginationResult} : ∀ {items : List Json},
    scanPage f skipBlock items logs = .ok (.inr r) → (items.length : Int) < f.limit →
      ∃ (pre : List Json) (log : Json) (post : List Json) (b i : Nat),
        logs = pre ++ log :: post ∧ logPosition log = .ok (b, i) ∧
        skipped f skipBlock log = false ∧
        r = ⟨items ++ kept f skipBlock pre ++ [log], some b, i⟩ ∧
        (r.items.length : Int) = f.limit := by
  induction logs with
  | nil =>
      intro items h
      cases h
  | cons log rest ih =>
      intro items h hlt
      obtain ⟨b, i, hpos, hcase⟩ := scanPage_cons h
      rcases hcase with ⟨hskip, hrest⟩ | ⟨hskip, hlim, hout⟩ | ⟨hskip, hlt', hrest⟩
      · obtain ⟨pre, x, post, b', i', hlogs, hx, hxs, hr, hlen⟩ := ih hrest hlt
        exact ⟨log :: pre, x, post, b', i', by simp [hlogs], hx, hxs,
          by simp [hr, kept, hskip], hlen⟩
      · cases hout
        refine ⟨[], log, rest, b, i, rfl, hpos, hskip, by simp [kept], ?_⟩
        simp only [List.length_append, List.length_cons, List.length_nil] at hlim ⊢
        omega
      · obtain ⟨pre, x, post, b', i', hlogs, hx, hxs, hr, hlen⟩ := ih hrest hlt'
        exact ⟨log :: pre, x, post, b', i', by simp [hlogs], hx, hxs,
          by simp [hr, kept, hskip], hlen⟩

end

/-! ### The loop

The conditions of the loop are those of its source, in its order.  What is proved about pages
uses `Fetches`, and what is proved about chunks uses `Looped`, which also has the calls that
failed.
-/

/-- What the loop, entered with these values, exchanges and returns. -/
inductive Fetches (f : Fetch) :
    Int → ChunkSize → Int → List Json → Trace → PaginationResult → Prop
  /-- The range is exhausted, or the limit was never positive. -/
  | stop {cur : Int} {chunk : ChunkSize} {skipBlock : Int} {items : List Json}
      (hstop : ¬ (cur ≤ f.toBlock ∧ (items.length : Int) < f.limit)) :
      Fetches f cur chunk skipBlock items [] ⟨items, none, -1⟩
  /-- The upstream finds the range too large. -/
  | rejected {cur : Int} {chunk : ChunkSize} {skipBlock : Int} {items : List Json} {params : Json}
      {e : JsonRpcError} {tr : Trace} {r : PaginationResult}
      (hgo : cur ≤ f.toBlock ∧ (items.length : Int) < f.limit)
      (hparams : getLogsParams f.filter cur (chunkEnd cur chunk f.toBlock) = .ok params)
      (hbig : isTooLarge e = true ∧ minChunkSize < chunk.1)
      (hrest : Fetches f cur chunk.halve skipBlock items tr r) :
      Fetches f cur chunk skipBlock items
        ((⟨"eth_getLogs", [params]⟩, .error (.jsonRpcError e)) :: tr) r
  /-- The limit is reached inside a page. -/
  | cut {cur : Int} {chunk : ChunkSize} {skipBlock : Int} {items : List Json} {params page : Json}
      {logs : List Json} {r : PaginationResult}
      (hgo : cur ≤ f.toBlock ∧ (items.length : Int) < f.limit)
      (hparams : getLogsParams f.filter cur (chunkEnd cur chunk f.toBlock) = .ok params)
      (hpage : iterate page = .ok logs)
      (hscan : scanPage f skipBlock items logs = .ok (.inr r)) :
      Fetches f cur chunk skipBlock items [(⟨"eth_getLogs", [params]⟩, .ok page)] r
  /-- A page is finished. -/
  | page {cur : Int} {chunk : ChunkSize} {skipBlock : Int} {items items' : List Json}
      {params page : Json} {logs : List Json} {tr : Trace} {r : PaginationResult}
      (hgo : cur ≤ f.toBlock ∧ (items.length : Int) < f.limit)
      (hparams : getLogsParams f.filter cur (chunkEnd cur chunk f.toBlock) = .ok params)
      (hpage : iterate page = .ok logs)
      (hscan : scanPage f skipBlock items logs = .ok (.inl items'))
      (hrest : Fetches f (chunkEnd cur chunk f.toBlock + 1) chunk.grow (-1) items' tr r) :
      Fetches f cur chunk skipBlock items ((⟨"eth_getLogs", [params]⟩, .ok page) :: tr) r

/-- The call for one chunk. -/
def chunkCall (f : Fetch) (m n : Nat) : RpcCall :=
  ⟨"eth_getLogs", [.obj (withoutRange f.filter
    ++ [("fromBlock", .str (toHex m)), ("toBlock", .str (toHex n))])]⟩

/-- How the loop, entered with these values, may go on, whatever comes of it. -/
inductive Looped (f : Fetch) :
    Int → ChunkSize → Int → List Json → Trace → Except Exc PaginationResult → Prop
  /-- The range is exhausted, or the limit was never positive. -/
  | stop {cur : Int} {chunk : ChunkSize} {skipBlock : Int} {items : List Json}
      (hstop : ¬ (cur ≤ f.toBlock ∧ (items.length : Int) < f.limit)) :
      Looped f cur chunk skipBlock items [] (.ok ⟨items, none, -1⟩)
  /-- A block number below zero cannot be asked for. -/
  | unasked {cur : Int} {chunk : ChunkSize} {skipBlock : Int} {items : List Json} {e : Exc}
      (hgo : cur ≤ f.toBlock ∧ (items.length : Int) < f.limit)
      (hparams : getLogsParams f.filter cur (chunkEnd cur chunk f.toBlock) = .error e) :
      Looped f cur chunk skipBlock items [] (.error e)
  /-- The upstream finds the range too large. -/
  | rejected {cur : Int} {chunk : ChunkSize} {skipBlock : Int} {items : List Json} {params : Json}
      {e : JsonRpcError} {tr : Trace} {out : Except Exc PaginationResult}
      (hgo : cur ≤ f.toBlock ∧ (items.length : Int) < f.limit)
      (hparams : getLogsParams f.filter cur (chunkEnd cur chunk f.toBlock) = .ok params)
      (hbig : isTooLarge e = true ∧ minChunkSize < chunk.1)
      (hrest : Looped f cur chunk.halve skipBlock items tr out) :
      Looped f cur chunk skipBlock items
        ((⟨"eth_getLogs", [params]⟩, .error (.jsonRpcError e)) :: tr) out
  /-- The upstream refuses for another reason, or the chunk cannot be halved. -/
  | refused {cur : Int} {chunk : ChunkSize} {skipBlock : Int} {items : List Json} {params : Json}
      {e : Exc}
      (hgo : cur ≤ f.toBlock ∧ (items.length : Int) < f.limit)
      (hparams : getLogsParams f.filter cur (chunkEnd cur chunk f.toBlock) = .ok params)
      (hlast : ∀ err, e = .jsonRpcError err → isTooLarge err = true → chunk.1 ≤ minChunkSize) :
      Looped f cur chunk skipBlock items [(⟨"eth_getLogs", [params]⟩, .error e)] (.error e)
  /-- The page cannot be read. -/
  | unread {cur : Int} {chunk : ChunkSize} {skipBlock : Int} {items : List Json}
      {params page : Json} {e : Exc}
      (hgo : cur ≤ f.toBlock ∧ (items.length : Int) < f.limit)
      (hparams : getLogsParams f.filter cur (chunkEnd cur chunk f.toBlock) = .ok params)
      (hread : readPage f skipBlock items page = .error e) :
      Looped f cur chunk skipBlock items [(⟨"eth_getLogs", [params]⟩, .ok page)] (.error e)
  /-- The limit is reached inside a page. -/
  | cut {cur : Int} {chunk : ChunkSize} {skipBlock : Int} {items : List Json} {params page : Json}
      {r : PaginationResult}
      (hgo : cur ≤ f.toBlock ∧ (items.length : Int) < f.limit)
      (hparams : getLogsParams f.filter cur (chunkEnd cur chunk f.toBlock) = .ok params)
      (hread : readPage f skipBlock items page = .ok (.inr r)) :
      Looped f cur chunk skipBlock items [(⟨"eth_getLogs", [params]⟩, .ok page)] (.ok r)
  /-- A page is finished. -/
  | page {cur : Int} {chunk : ChunkSize} {skipBlock : Int} {items items' : List Json}
      {params page : Json} {tr : Trace} {out : Except Exc PaginationResult}
      (hgo : cur ≤ f.toBlock ∧ (items.length : Int) < f.limit)
      (hparams : getLogsParams f.filter cur (chunkEnd cur chunk f.toBlock) = .ok params)
      (hread : readPage f skipBlock items page = .ok (.inl items'))
      (hrest : Looped f (chunkEnd cur chunk f.toBlock + 1) chunk.grow (-1) items' tr out) :
      Looped f cur chunk skipBlock items ((⟨"eth_getLogs", [params]⟩, .ok page) :: tr) out

/-- **A run of the loop is one of the above.** -/
theorem looped_of_runs {f : Fetch} {out : Except Exc PaginationResult} : ∀ {tr : Trace} {cur : Int}
    {chunk : ChunkSize} {skipBlock : Int} {items : List Json},
    Prog.Runs (fetchLoop f cur chunk skipBlock items) tr out →
      Looped f cur chunk skipBlock items tr out := by
  intro tr
  -- every turn that goes on has exchanged something
  induction tr with
  | nil =>
      intro cur chunk skipBlock items h
      rw [fetchLoop] at h
      split_ifs at h with hgo
      · split at h
        · rename_i hparams
          rw [h.2]
          exact .unasked hgo hparams
        · obtain ⟨_, _, hcons, -⟩ := h
          cases hcons
      · rw [h.2]
        exact .stop hgo
  | cons x tr ih =>
      intro cur chunk skipBlock items h
      rw [fetchLoop] at h
      split_ifs at h with hgo
      · split at h
        · cases h.1
        · rename_i params hparams
          obtain ⟨reply, rest, hcons, h⟩ := h
          cases hcons
          dsimp only at h
          split at h
          · rename_i e
            split_ifs at h with hbig
            · exact .rejected hgo hparams hbig (ih h)
            · obtain ⟨rfl, rfl⟩ := h
              refine .refused hgo hparams fun err herr htoo => ?_
              cases herr
              exact Nat.le_of_not_lt fun hlt => hbig ⟨htoo, hlt⟩
          · rename_i e hother
            obtain ⟨rfl, rfl⟩ := h
            exact .refused hgo hparams fun err herr => absurd herr (hother err)
          · rename_i page
            cases hread : readPage f skipBlock items page with
            | error e =>
                rw [hread] at h
                obtain ⟨rfl, rfl⟩ := h
                exact .unread hgo hparams hread
            | ok res =>
                rw [hread] at h
                rcases res with items' | result
                · exact .page hgo hparams hread (ih h)
                · obtain ⟨rfl, rfl⟩ := h
                  exact .cut hgo hparams hread
      · cases h.1

/-- A run of the loop that returns. -/
theorem Looped.fetches {f : Fetch} {tr : Trace} {cur : Int} {chunk : ChunkSize} {skipBlock : Int}
    {items : List Json} {out : Except Exc PaginationResult}
    (h : Looped f cur chunk skipBlock items tr out) :
    ∀ r, out = .ok r → Fetches f cur chunk skipBlock items tr r := by
  induction h with
  | stop hstop =>
      intro r hr
      cases hr
      exact .stop hstop
  | rejected hgo hparams hbig _ ih => exact fun r hr => .rejected hgo hparams hbig (ih r hr)
  | cut hgo hparams hread =>
      intro r hr
      cases hr
      obtain ⟨logs, hpage, hscan⟩ := bind_eq_ok.mp hread
      exact .cut hgo hparams hpage hscan
  | page hgo hparams hread _ ih =>
      intro r hr
      obtain ⟨logs, hpage, hscan⟩ := bind_eq_ok.mp hread
      exact .page hgo hparams hpage hscan (ih r hr)
  | _ => nofun

/-- **A run of the loop that returns fetches.** -/
theorem fetches_of_runs {f : Fetch} {r : PaginationResult} {tr : Trace} {cur : Int}
    {chunk : ChunkSize} {skipBlock : Int} {items : List Json}
    (h : Prog.Runs (fetchLoop f cur chunk skipBlock items) tr (.ok r)) :
    Fetches f cur chunk skipBlock items tr r :=
  (looped_of_runs h).fetches r rfl

section

variable {f : Fetch} {cur skipBlock : Int} {chunk : ChunkSize} {items : List Json} {tr : Trace}
  {r : PaginationResult}

theorem chunkEnd_spec (chunk : ChunkSize) {toBlock : Int} (h : cur ≤ toBlock) :
    cur ≤ chunkEnd cur chunk toBlock ∧ chunkEnd cur chunk toBlock ≤ toBlock := by
  have := chunk.2.1
  simp only [chunkEnd]
  omega

/-- Every call of the loop asks for the logs of its filter in some range. -/
theorem Fetches.calls (h : Fetches f cur chunk skipBlock items tr r) :
    ∀ x ∈ tr, ∃ m n : Nat, x.1 = ⟨"eth_getLogs", [.obj (withoutRange f.filter
      ++ [("fromBlock", .str (toHex m)), ("toBlock", .str (toHex n))])]⟩ := by
  have hcall : ∀ {cur last : Int} {params : Json}, getLogsParams f.filter cur last = .ok params →
      ∃ m n : Nat, (⟨"eth_getLogs", [params]⟩ : RpcCall) = ⟨"eth_getLogs",
        [.obj (withoutRange f.filter
          ++ [("fromBlock", .str (toHex m)), ("toBlock", .str (toHex n))])]⟩ := by
    intro cur last params hparams
    obtain ⟨m, n, -, -, rfl⟩ := getLogsParams_eq_ok hparams
    exact ⟨m, n, rfl⟩
  induction h with
  | stop => simp
  | rejected _ hparams _ _ ih => exact List.forall_mem_cons.mpr ⟨hcall hparams, ih⟩
  | cut _ hparams => exact List.forall_mem_cons.mpr ⟨hcall hparams, by simp⟩
  | page _ hparams _ _ _ ih => exact List.forall_mem_cons.mpr ⟨hcall hparams, ih⟩

/-- The pages tile the range from where the loop was entered; if it never stopped early they
reach its end. -/
theorem Fetches.tiles (h : Fetches f cur chunk skipBlock items tr r) :
    ∃ next, Tiles cur (pagesOf tr) next ∧
      (r.nextFromBlock = none → (items.length : Int) < f.limit → f.toBlock < next) ∧
      (cur ≤ f.toBlock + 1 → next ≤ f.toBlock + 1) := by
  induction h with
  | @stop cur chunk skipBlock items hstop =>
      exact ⟨cur, rfl, fun _ hlim => by omega, id⟩
  | rejected hgo hparams hbig hrest ih =>
      rw [pagesOf_cons_error]
      exact ih
  | @cut cur chunk skipBlock items params page logs r hgo hparams hpage hscan =>
      obtain ⟨m, n, hm, hn, hp⟩ := logsPage?_getLogs hparams hpage
      obtain ⟨pre, log, post, b, i, -, -, -, hr, -⟩ := scanPage_inr hscan hgo.2
      have hend := chunkEnd_spec chunk hgo.1
      refine ⟨n + 1, ?_, ?_, fun _ => by omega⟩
      · simp only [pagesOf, List.filterMap_cons, hp, List.filterMap_nil]
        exact ⟨hm.symm, show m ≤ n by omega, rfl⟩
      · intro hnone
        rw [hr] at hnone
        cases hnone
  | @page cur chunk skipBlock items items' params page logs tr r hgo hparams hpage hscan hrest ih =>
      obtain ⟨m, n, hm, hn, hp⟩ := logsPage?_getLogs hparams hpage
      obtain ⟨next, htiles, hfull, hle⟩ := ih
      have hend := chunkEnd_spec chunk hgo.1
      refine ⟨next, ?_, fun hnone hlim => hfull hnone ((scanPage_inl hscan).2 hlim), ?_⟩
      · simp only [pagesOf, List.filterMap_cons, hp]
        rw [hn] at htiles
        exact ⟨hm.symm, show m ≤ n by omega, htiles⟩
      · exact fun _ => hle (by omega)

/-- A run that is not cut returns every log of its pages that is not skipped. -/
theorem Fetches.items_of_none (h : Fetches f cur chunk skipBlock items tr r)
    (hnone : r.nextFromBlock = none) :
    r.items = items ++ keptFrom f skipBlock (pagesOf tr) := by
  induction h with
  | stop hstop => simp [keptFrom]
  | rejected hgo hparams hbig hrest ih =>
      rw [pagesOf_cons_error]
      exact ih hnone
  | cut hgo hparams hpage hscan =>
      obtain ⟨_, _, _, _, _, -, -, -, rfl, -⟩ := scanPage_inr hscan hgo.2
      cases hnone
  | page hgo hparams hpage hscan hrest ih =>
      obtain ⟨m, n, -, -, hp⟩ := logsPage?_getLogs hparams hpage
      simp only [pagesOf, List.filterMap_cons, hp, keptFrom]
      rw [ih hnone, (scanPage_inl hscan).1, List.append_assoc]
      rfl

/-- A cut run: its items are the first `limit` logs that are not skipped, the last of them at
the place the result names. -/
structure CutAt (f : Fetch) (items : List Json) (skipBlock : Int) (tr : Trace)
    (r : PaginationResult) (b : Nat) : Prop where
  length : (r.items.length : Int) = f.limit
  prefixed : ∃ post, items ++ keptFrom f skipBlock (pagesOf tr) = r.items ++ post
  last : ∃ init log i, r.items = init ++ [log] ∧ logPosition log = .ok (b, i) ∧
    r.lastLogIndex = i ∧
    ∃ before x p, tr = before ++ [x] ∧ logsPage? x = some p ∧ log ∈ p.logs

theorem Fetches.cutAt {b : Nat} (h : Fetches f cur chunk skipBlock items tr r)
    (hsome : r.nextFromBlock = some b) : CutAt f items skipBlock tr r b := by
  induction h with
  | stop hstop => cases hsome
  | rejected hgo hparams hbig hrest ih =>
      obtain ⟨hlen, hpre, init, log, i, hr, hpos, hi, before, x, p, hbefore, hx, hmem⟩ := ih hsome
      exact ⟨hlen, by rwa [pagesOf_cons_error], init, log, i, hr, hpos, hi, _ :: before, x, p,
        by rw [hbefore]; rfl, hx, hmem⟩
  | @cut cur chunk skipBlock items params page logs r hgo hparams hpage hscan =>
      obtain ⟨m, n, -, -, hp⟩ := logsPage?_getLogs hparams hpage
      obtain ⟨pre, log, post, b', i, hlogs, hpos, hskip, hr, hlen⟩ := scanPage_inr hscan hgo.2
      rw [hr] at hsome
      cases hsome
      refine ⟨hlen, ⟨kept f skipBlock post, ?_⟩, items ++ kept f skipBlock pre, log, i,
        by rw [hr], hpos, by rw [hr], [], _, _, rfl, hp, by simp [hlogs]⟩
      simp [pagesOf, hp, hr, keptFrom, hlogs, kept, hskip]
  | @page cur chunk skipBlock items items' params page logs tr r hgo hparams hpage hscan hrest ih =>
      obtain ⟨m, n, -, -, hp⟩ := logsPage?_getLogs hparams hpage
      obtain ⟨hlen, ⟨post, hpost⟩, init, log, i, hr, hpos, hi, before, x, p, hbefore, hx, hmem⟩ :=
        ih hsome
      refine ⟨hlen, ⟨post, ?_⟩, init, log, i, hr, hpos, hi, _ :: before, x, p,
        by rw [hbefore]; rfl, hx, hmem⟩
      simp only [pagesOf, List.filterMap_cons, hp, keptFrom]
      rw [← List.append_assoc, ← (scanPage_inl hscan).1]
      exact hpost

end

end ExecRestApi
