/-
What the chunks of `fetch_logs_paginated` amount to.

Three things are read off `Looped`, each by an induction over the turns of the loop.

* How much is asked.  A rejection halves the chunk and a page doubles it, so the logarithm of
  the chunk goes down by one at every rejection that does not end the loop and up by at most
  one at every page: it is the potential that bounds the rejections by the pages.
* What a rejection leads to.  The chunk is what is halved, but the range that was rejected may
  be cut off by the end of the scan, and then half a chunk can be as long as that range.
* What is returned.  Against an upstream that gives every log of each range it accepts, the
  result does not depend on which ranges those are.
-/
import ExecRestApi.Proofs.Pagination
import Mathlib.Data.List.Pairwise

namespace ExecRestApi

open Py Interaction

/-! ### One call

The range that a call asks for is in its parameters, so the lists of calls can be spoken of as
lists of ranges.
-/

theorem askedRange_chunkCall (f : Fetch) (m n : Nat) : askedRange (chunkCall f m n) = some (m, n) := by
  simp only [askedRange, chunkCall, field?_withoutRange, hexToInt_toHex, if_true]

/-- The call of a turn, and the range it asks for. -/
theorem call_of_params {f : Fetch} {cur last : Int} {params : Json}
    (h : getLogsParams f.filter cur last = .ok params) :
    0 ≤ cur ∧ 0 ≤ last ∧
      (⟨"eth_getLogs", [params]⟩ : RpcCall) = chunkCall f cur.toNat last.toNat := by
  obtain ⟨m, n, rfl, rfl, rfl⟩ := getLogsParams_eq_ok h
  exact ⟨by omega, by omega, rfl⟩

theorem getLogsParams_ok (filter : List (String × Json)) {cur last : Int} (hcur : 0 ≤ cur)
    (hlast : 0 ≤ last) : ∃ params, getLogsParams filter cur last = .ok params := by
  unfold getLogsParams
  rw [decimalToHex_eq_ok.mpr ⟨hcur, rfl⟩, decimalToHex_eq_ok.mpr ⟨hlast, rfl⟩]
  exact ⟨_, rfl⟩

section

variable {f : Fetch} {cur skipBlock : Int} {chunk : ChunkSize} {items : List Json} {tr : Trace}
  {out : Except Exc PaginationResult}

/-- A loop that goes on asks for its chunk. -/
theorem Looped.next (h : Looped f cur chunk skipBlock items tr out)
    (hgo : cur ≤ f.toBlock ∧ (items.length : Int) < f.limit) (hcur : 0 ≤ cur) :
    ∃ reply rest,
      tr = (chunkCall f cur.toNat (chunkEnd cur chunk f.toBlock).toNat, reply) :: rest := by
  cases h with
  | stop hstop => exact absurd hgo hstop
  | unasked _ hparams =>
      have hend := chunkEnd_spec chunk hgo.1
      obtain ⟨params, hok⟩ := getLogsParams_ok f.filter hcur (hcur.trans hend.1)
      rw [hok] at hparams
      cases hparams
  | rejected _ hparams => exact ⟨_, _, by rw [(call_of_params hparams).2.2]⟩
  | refused _ hparams => exact ⟨_, _, by rw [(call_of_params hparams).2.2]⟩
  | unread _ hparams => exact ⟨_, _, by rw [(call_of_params hparams).2.2]⟩
  | cut _ hparams => exact ⟨_, _, by rw [(call_of_params hparams).2.2]⟩
  | page _ hparams => exact ⟨_, _, by rw [(call_of_params hparams).2.2]⟩

/-! ### How much is asked

The ranges that were answered follow one another from the start of the scan, without a gap and
without an overlap.  Each is at least one block long, which bounds their number; the potential
bounds the calls that were rejected in between.
-/

/-- An exchange the upstream did not answer with a result. -/
def failed (x : RpcCall × Reply) : Bool :=
  match x.2 with
  | .ok _ => false
  | .error _ => true

/-- The ranges a result came back for. -/
def succeeded (tr : Trace) : List (Nat × Nat) :=
  tr.filterMap fun x => if failed x then none else askedRange x.1

/-- The ranges follow one another from `cur`, none of them goes past `stop` and none is longer
than the largest chunk. -/
def Consecutive (cur stop : Int) : List (Nat × Nat) → Prop
  | [] => True
  | (a, b) :: rest =>
      (a : Int) = cur ∧ a ≤ b ∧ (b : Int) ≤ stop ∧ b < a + defaultChunkSize ∧ Consecutive (b + 1) stop rest

theorem Consecutive.cur_le {stop : Int} {rs : List (Nat × Nat)} : ∀ {cur : Int},
    Consecutive cur stop rs → ∀ p ∈ rs, cur ≤ p.1 := by
  induction rs with
  | nil => intro cur _ p hp; cases hp
  | cons q rs ih =>
      intro cur ⟨hfirst, hle, _, _, hrest⟩ p hp
      rcases List.mem_cons.mp hp with rfl | hp
      · omega
      · have := ih hrest p hp
        omega

/-- No block is asked for twice. -/
theorem Consecutive.disjoint {stop : Int} {rs : List (Nat × Nat)} : ∀ {cur : Int},
    Consecutive cur stop rs → rs.Pairwise fun p q => p.2 < q.1 := by
  induction rs with
  | nil => exact fun _ => .nil
  | cons p rs ih =>
      intro cur ⟨_, _, _, _, hrest⟩
      refine .cons (fun q hq => ?_) (ih hrest)
      have := hrest.cur_le q hq
      omega

/-- There are no more ranges than blocks. -/
theorem Consecutive.length_le {stop : Int} {rs : List (Nat × Nat)} : ∀ {cur : Int},
    Consecutive cur stop rs → cur ≤ stop + 1 → (rs.length : Int) ≤ stop + 1 - cur := by
  induction rs with
  | nil =>
      intro cur _ hcur
      simpa using hcur
  | cons p rs ih =>
      intro cur ⟨hfirst, hle, hstop, _, hrest⟩ hcur
      have := ih hrest (by omega)
      rw [List.length_cons]
      omega

theorem failed_ok {c : RpcCall} {page : Json} : failed (c, .ok page) = false := rfl

theorem failed_error {c : RpcCall} {e : Exc} : failed (c, .error e) = true := rfl

theorem succeeded_cons_error {c : RpcCall} {e : Exc} (tr : Trace) :
    succeeded ((c, .error e) :: tr) = succeeded tr := rfl

theorem succeeded_cons_ok {m n : Nat} {page : Json} (f : Fetch) (tr : Trace) :
    succeeded ((chunkCall f m n, .ok page) :: tr) = (m, n) :: succeeded tr := by
  rw [succeeded, List.filterMap_cons, failed_ok, if_neg Bool.false_ne_true, askedRange_chunkCall]
  rfl

/-- The ranges results came back for. -/
theorem Looped.consecutive (h : Looped f cur chunk skipBlock items tr out) :
    Consecutive cur f.toBlock (succeeded tr) := by
  have hone : ∀ {cur : Int} {chunk : ChunkSize} {params page : Json} {tr : Trace},
      cur ≤ f.toBlock → getLogsParams f.filter cur (chunkEnd cur chunk f.toBlock) = .ok params →
      Consecutive (chunkEnd cur chunk f.toBlock + 1) f.toBlock (succeeded tr) →
        Consecutive cur f.toBlock (succeeded ((⟨"eth_getLogs", [params]⟩, .ok page) :: tr)) := by
    intro cur chunk params page tr hcur hparams hrest
    obtain ⟨hpos, hpos', hcall⟩ := call_of_params hparams
    have hend := chunkEnd_spec chunk hcur
    have hlength : chunkEnd cur chunk f.toBlock < cur + defaultChunkSize := by
      have := chunk.2.2
      simp only [chunkEnd, defaultChunkSize]
      omega
    rw [hcall, succeeded_cons_ok]
    refine ⟨by omega, by omega, by omega, by omega, ?_⟩
    rw [Int.toNat_of_nonneg hpos']
    exact hrest
  induction h with
  | stop => exact trivial
  | unasked => exact trivial
  | rejected _ _ _ _ ih => exact ih
  | refused => exact trivial
  | unread hgo hparams => exact hone hgo.1 hparams trivial
  | cut hgo hparams => exact hone hgo.1 hparams trivial
  | page hgo hparams _ _ ih => exact hone hgo.1 hparams ih

theorem log2_halve {c : ChunkSize} (h : minChunkSize < c.1) :
    Nat.log2 c.halve.1 + 1 = Nat.log2 c.1 := by
  have hhalve : c.halve.1 = c.1 / 2 := by
    simp only [ChunkSize.halve, minChunkSize] at h ⊢
    omega
  have hc : 2 ≤ c.1 := h
  rw [hhalve, Nat.log2_def c.1, if_pos hc]

theorem log2_grow (c : ChunkSize) : Nat.log2 c.grow.1 ≤ Nat.log2 c.1 + 1 := by
  have hc := c.2.1
  have hgrow : c.grow.1 ≤ 2 * c.1 := by
    simp only [ChunkSize.grow, minChunkSize, defaultChunkSize]
    omega
  have hpos : c.grow.1 ≠ 0 := by
    have := c.grow.2.1
    omega
  rw [← Nat.lt_succ_iff, Nat.log2_lt hpos]
  have hlt : c.1 < 2 ^ (Nat.log2 c.1 + 1) := Nat.lt_log2_self
  rw [pow_succ]
  omega

/-- The requests that fail, up to the logarithm of the chunk. -/
theorem Looped.failed_le (h : Looped f cur chunk skipBlock items tr out) :
    tr.countP failed ≤ (succeeded tr).length + Nat.log2 chunk.1 + 1 := by
  induction h with
  | stop => exact Nat.zero_le _
  | unasked => exact Nat.zero_le _
  | rejected _ _ hbig _ ih =>
      have := log2_halve hbig.2
      rw [List.countP_cons_of_pos failed_error, succeeded_cons_error]
      omega
  | refused =>
      rw [List.countP_cons_of_pos failed_error]
      exact Nat.succ_le_succ (Nat.zero_le _)
  | unread => exact Nat.zero_le _
  | cut => exact Nat.zero_le _
  | @page cur chunk _ _ _ _ _ _ _ _ hparams _ _ ih =>
      have := log2_grow chunk
      rw [(call_of_params hparams).2.2, succeeded_cons_ok,
        List.countP_cons_of_neg (by rw [failed_ok]; nofun), List.length_cons]
      omega

/-- Every request fails or brings a range. -/
theorem Looped.length_eq (h : Looped f cur chunk skipBlock items tr out) :
    tr.length = (succeeded tr).length + tr.countP failed := by
  induction h with
  | stop => rfl
  | unasked => rfl
  | rejected _ _ _ _ ih =>
      rw [List.countP_cons_of_pos failed_error, succeeded_cons_error, List.length_cons, ih]
      omega
  | refused => rfl
  | unread _ hparams => rw [(call_of_params hparams).2.2, succeeded_cons_ok]; rfl
  | cut _ hparams => rw [(call_of_params hparams).2.2, succeeded_cons_ok]; rfl
  | page _ hparams _ _ ih =>
      rw [(call_of_params hparams).2.2, succeeded_cons_ok,
        List.countP_cons_of_neg (by rw [failed_ok]; nofun), List.length_cons, List.length_cons, ih]
      omega

end

/-- A rejection as some upstreams word it. -/
def tooMany : JsonRpcError := ⟨-32000, "query returned more than 10000 results", .null⟩

/-- The call for the logs of a range, without a filter. -/
def anyLogs (first last : Nat) : RpcCall := chunkCall ⟨[], 0, 0, 0⟩ first last

/-- A range as long as the first chunk is rejected once. -/
def wholeChunk : Trace :=
  [(anyLogs 0 4999, .error (.jsonRpcError tooMany)), (anyLogs 0 2499, .ok (.arr [])),
    (anyLogs 2500 4999, .ok (.arr []))]

theorem runs_wholeChunk : Prog.Runs (fetchLogsPaginated [] 0 4999 1 (-1)) wholeChunk
    (.ok ⟨[], none, -1⟩) :=
  Prog.runs_of_feed (wholeChunk.map Prod.snd) (by decide +kernel)

/-- **`fetch_logs_paginated` ends, and how much it asks.**  Every behaviour of the upstream has
its run.  In each the ranges that results came back for follow one another from the first block,
inside the range asked for and no longer than the largest chunk; at most thirteen requests more
fail than succeed. -/
theorem chunked_fetch (filter : List (String × Json)) (fromBlock toBlock limit skipUntil : Int) :
    (∀ answer : Trace → RpcCall → Reply, ∃ tr out,
      Prog.Runs (fetchLogsPaginated filter fromBlock toBlock limit skipUntil) tr out ∧
        Prog.Answered answer [] tr) ∧
    ∀ tr out, Prog.Runs (fetchLogsPaginated filter fromBlock toBlock limit skipUntil) tr out →
      Consecutive fromBlock toBlock (succeeded tr) ∧
      (succeeded tr).Pairwise (fun p q => p.2 < q.1) ∧
      tr.length = (succeeded tr).length + tr.countP failed ∧
      tr.countP failed ≤ (succeeded tr).length + 13 ∧
      (fromBlock ≤ toBlock → (tr.length : Int) ≤ 2 * (toBlock - fromBlock + 1) + 13) ∧
      (toBlock < fromBlock → tr = []) := by
  refine ⟨fun answer => Prog.exists_run answer _ [], ?_⟩
  intro tr out hruns
  have h := looped_of_runs hruns
  have hconsecutive := h.consecutive
  have hlength := h.length_eq
  have hfailed : tr.countP failed ≤ (succeeded tr).length + 13 := h.failed_le
  refine ⟨hconsecutive, hconsecutive.disjoint, hlength, hfailed, ?_, ?_⟩
  · intro hle
    have := hconsecutive.length_le (show fromBlock ≤ toBlock + 1 by omega)
    simp only at this
    omega
  · intro hlt
    cases h with
    | stop => rfl
    | unasked => rfl
    | rejected hgo => exact absurd hgo.1 (show ¬ fromBlock ≤ toBlock by omega)
    | refused hgo => exact absurd hgo.1 (show ¬ fromBlock ≤ toBlock by omega)
    | unread hgo => exact absurd hgo.1 (show ¬ fromBlock ≤ toBlock by omega)
    | cut hgo => exact absurd hgo.1 (show ¬ fromBlock ≤ toBlock by omega)
    | page hgo => exact absurd hgo.1 (show ¬ fromBlock ≤ toBlock by omega)

theorem chunked_fetch_wholeChunk :
    Consecutive 0 4999 (succeeded wholeChunk) ∧
      wholeChunk.countP failed ≤ (succeeded wholeChunk).length + 13 := by
  have h := (chunked_fetch [] 0 4999 1 (-1)).2 wholeChunk _ runs_wholeChunk
  exact ⟨h.1, h.2.2.2.1⟩

/-! ### What a rejection leads to

The chunk before a call is a fold over the exchanges before it, so the condition speaks of what
the loop has seen and not of a variable it holds.
-/

/-- The chunk size after the exchanges of a trace. -/
def chunkAfter : ChunkSize → Trace → ChunkSize
  | c, [] => c
  | c, x :: tr => chunkAfter (if failed x then c.halve else c.grow) tr

/-- After the rejection `e` of the range from `a` to `b`, a range of one block ends the loop with
that error, and otherwise the next request is for a shorter range. -/
def Shrinks (e : JsonRpcError) (a b : Nat) (post : Trace) (out : Except Exc PaginationResult) :
    Prop :=
  (a = b → post = [] ∧ out = .error (.jsonRpcError e)) ∧
  (a < b → ∃ x rest b', post = x :: rest ∧ askedRange x.1 = some (a, b') ∧ b' < b)

section

variable {f : Fetch} {cur skipBlock : Int} {chunk : ChunkSize} {items : List Json} {tr : Trace}
  {out : Except Exc PaginationResult}

/-- A rejection that the loop survives shrinks the range exactly if that is longer than half the
chunk. -/
theorem Looped.shrinks_rejected {e : JsonRpcError}
    (hgo : cur ≤ f.toBlock ∧ (items.length : Int) < f.limit) (hcur : 0 ≤ cur)
    (hbig : minChunkSize < chunk.1)
    (hrest : Looped f cur chunk.halve skipBlock items tr out) :
    Shrinks e cur.toNat (chunkEnd cur chunk f.toBlock).toNat tr out ↔
      chunk.1 / 2 ≤ (chunkEnd cur chunk f.toBlock).toNat - cur.toNat := by
  have hend := chunkEnd_spec chunk hgo.1
  have hend' := chunkEnd_spec chunk.halve hgo.1
  have hhalve : chunk.halve.1 = chunk.1 / 2 := by
    simp only [ChunkSize.halve, minChunkSize] at hbig ⊢
    omega
  obtain ⟨reply, rest, hnext⟩ := hrest.next hgo hcur
  have hchunk : 2 ≤ chunk.1 := hbig
  constructor
  · intro ⟨hone, hmore⟩
    rcases Nat.eq_or_lt_of_le (show cur.toNat ≤ (chunkEnd cur chunk f.toBlock).toNat by omega)
      with heq | hlt
    · have hnil := (hone heq).1
      rw [hnext] at hnil
      cases hnil
    · obtain ⟨x, rest', b', hcons, hasked, hb'⟩ := hmore hlt
      rw [hnext] at hcons
      cases hcons
      rw [askedRange_chunkCall] at hasked
      cases hasked
      simp only [chunkEnd, hhalve] at hb' hend' ⊢
      omega
  · intro hhalf
    refine ⟨fun heq => by omega, fun hlt => ?_⟩
    refine ⟨_, rest, _, hnext, askedRange_chunkCall _ _ _, ?_⟩
    simp only [chunkEnd, hhalve] at hhalf ⊢
    omega

/-- The same for every rejection of a run. -/
theorem Looped.shrinks_iff (h : Looped f cur chunk skipBlock items tr out) :
    ∀ {pre post : Trace} {c : RpcCall} {e : JsonRpcError},
      tr = pre ++ (c, .error (.jsonRpcError e)) :: post → isTooLarge e = true →
        ∃ a b, askedRange c = some (a, b) ∧ a ≤ b ∧
          (Shrinks e a b post out ↔ (chunkAfter chunk pre).1 / 2 ≤ b - a) := by
  induction h with
  | stop =>
      intro pre post c e htr
      cases pre <;> cases htr
  | unasked =>
      intro pre post c e htr
      cases pre <;> cases htr
  | @rejected cur chunk _ _ _ _ _ _ hgo hparams hbig hrest ih =>
      intro pre post c e htr htoo
      rcases pre with _ | ⟨x, pre⟩
      · cases htr
        obtain ⟨hcur, -, hcall⟩ := call_of_params hparams
        have hend := chunkEnd_spec chunk hgo.1
        refine ⟨cur.toNat, (chunkEnd cur chunk f.toBlock).toNat, ?_, by omega, ?_⟩
        · rw [hcall, askedRange_chunkCall]
        · exact Looped.shrinks_rejected hgo hcur hbig.2 hrest
      · cases htr
        exact ih rfl htoo
  | @refused cur chunk _ _ _ _ hgo hparams hlast =>
      intro pre post c err htr htoo
      rcases pre with _ | ⟨x, pre⟩
      · cases htr
        obtain ⟨hcur, -, hcall⟩ := call_of_params hparams
        have hend := chunkEnd_spec chunk hgo.1
        have hone : chunk.1 = 1 := Nat.le_antisymm (hlast err rfl htoo) chunk.2.1
        have hsame : chunkEnd cur chunk f.toBlock = cur := by
          simp only [chunkEnd, hone] at hend ⊢
          omega
        refine ⟨cur.toNat, cur.toNat, ?_, Nat.le_refl _, ?_⟩
        · rw [hcall, hsame, askedRange_chunkCall]
        · show Shrinks _ _ _ _ _ ↔ chunk.1 / 2 ≤ _
          refine ⟨fun _ => by omega, fun _ => ⟨fun _ => ⟨rfl, rfl⟩, fun hlt => ?_⟩⟩
          exact absurd hlt (Nat.lt_irrefl _)
      · simp at htr
  | unread =>
      intro pre post c e htr
      rcases pre with _ | ⟨x, pre⟩
      · cases htr
      · simp at htr
  | cut =>
      intro pre post c e htr
      rcases pre with _ | ⟨x, pre⟩
      · cases htr
      · simp at htr
  | page _ _ _ _ ih =>
      intro pre post c e htr htoo
      rcases pre with _ | ⟨x, pre⟩
      · cases htr
      · cases htr
        exact ih rfl htoo

end

/-- **When a rejection shrinks the request.**  It does exactly if the rejected range is longer
than half the chunk the loop has arrived at. -/
theorem rejection_shrinks_iff (filter : List (String × Json))
    (fromBlock toBlock limit skipUntil : Int) (tr pre post : Trace)
    (out : Except Exc PaginationResult) (c : RpcCall) (e : JsonRpcError)
    (hruns : Prog.Runs (fetchLogsPaginated filter fromBlock toBlock limit skipUntil) tr out)
    (htr : tr = pre ++ (c, .error (.jsonRpcError e)) :: post) (hbig : isTooLarge e = true) :
    ∃ a b, askedRange c = some (a, b) ∧ a ≤ b ∧
      (Shrinks e a b post out ↔ (chunkAfter .default pre).1 / 2 ≤ b - a) :=
  (looped_of_runs hruns).shrinks_iff htr hbig

theorem rejection_shrinks_wholeChunk :
    ∃ a b, askedRange (anyLogs 0 4999) = some (a, b) ∧ a ≤ b ∧
      Shrinks tooMany a b wholeChunk.tail (.ok ⟨[], none, -1⟩) := by
  obtain ⟨a, b, hasked, hab, hiff⟩ :=
    rejection_shrinks_iff [] 0 4999 1 (-1) wholeChunk [] wholeChunk.tail _ (anyLogs 0 4999) tooMany
      runs_wholeChunk rfl (by decide +kernel)
  refine ⟨a, b, hasked, hab, hiff.mpr ?_⟩
  rw [show askedRange (anyLogs 0 4999) = some (0, 4999) from askedRange_chunkCall _ 0 4999] at hasked
  cases hasked
  decide

/-- A range of ten blocks is rejected once, and asked for again. -/
def tenTwice : Trace :=
  [(anyLogs 0 9, .error (.jsonRpcError tooMany)), (anyLogs 0 9, .ok (.arr []))]

/-- **The same range again.** -/
theorem asked_again :
    Prog.Runs (fetchLogsPaginated [] 0 9 1 (-1)) tenTwice (.ok ⟨[], none, -1⟩) ∧
      isTooLarge tooMany = true ∧ askedRange (anyLogs 0 9) = some (0, 9) ∧
      ¬ Shrinks tooMany 0 9 [(anyLogs 0 9, .ok (.arr []))] (.ok ⟨[], none, -1⟩) := by
  refine ⟨Prog.runs_of_feed (tenTwice.map Prod.snd) (by decide +kernel), by decide +kernel,
    askedRange_chunkCall _ 0 9, ?_⟩
  intro hshrinks
  obtain ⟨x, rest, b', hcons, hasked, hb'⟩ := hshrinks.2 (by omega)
  cases hcons
  rw [show askedRange (anyLogs 0 9) = some (0, 9) from askedRange_chunkCall _ 0 9] at hasked
  cases hasked
  omega

/-! ### What is returned

Logs are placed by block and index, and one that stands at or before the cursor is skipped.  A
limit cuts what is left; as the ranges are in order, the first logs of the whole are the first
logs of the ranges, wherever those begin and end.
-/

/-- A log whose place can be read. -/
structure PlacedLog where
  log : Json
  block : Nat
  index : Nat
  placed : logPosition log = .ok (block, index)

/-- By block number and then by log index. -/
def Ascending (logs : List PlacedLog) : Prop :=
  logs.Pairwise fun x y => x.block < y.block ∨ (x.block = y.block ∧ x.index < y.index)

/-- The logs of the blocks from `a` to `b`. -/
def between (logs : List PlacedLog) (a b : Int) : List PlacedLog :=
  logs.filter fun l => decide (a ≤ l.block ∧ (l.block : Int) ≤ b)

/-- The logs that are not passed over: those of `block` up to the index `upTo` are. -/
def unskipped (block upTo : Int) (logs : List PlacedLog) : List PlacedLog :=
  logs.filter fun l => !decide ((l.block : Int) = block ∧ (l.index : Int) ≤ upTo)

/-- The first `limit` logs, and where the last of them is if there are as many. -/
def firstOf (limit : Int) (logs : List PlacedLog) : PaginationResult :=
  match logs[limit.toNat - 1]? with
  | some l => ⟨(logs.take limit.toNat).map PlacedLog.log, some l.block, l.index⟩
  | none => ⟨logs.map PlacedLog.log, none, -1⟩

/-- The upstream gives every log of each range it accepts. -/
def Honest (logs : List PlacedLog) (tr : Trace) : Prop :=
  ∀ x ∈ tr, ∀ a b, askedRange x.1 = some (a, b) → ∀ page, x.2 = .ok page →
    page = .arr ((between logs a b).map PlacedLog.log)

/-- The last request was rejected as `e`, and no smaller one could have been tried. -/
def NoSmaller (e : Exc) (tr : Trace) : Prop :=
  ∃ before c, tr = before ++ [(c, .error e)] ∧
    ∀ err, e = .jsonRpcError err → isTooLarge err = true → ∃ a, askedRange c = some (a, a)

/-- A range is its part up to a block and the rest. -/
theorem between_append {logs : List PlacedLog} (h : Ascending logs) {a b c : Int} (hab : a ≤ b + 1)
    (hbc : b ≤ c) : between logs a b ++ between logs (b + 1) c = between logs a c := by
  induction logs with
  | nil => rfl
  | cons l logs ih =>
      have hrest := ih (List.pairwise_cons.mp h).2
      rw [between, between, between, List.filter_cons, List.filter_cons, List.filter_cons]
      by_cases hb : (l.block : Int) ≤ b
      · have hnot : ¬ (b + 1 ≤ (l.block : Int) ∧ (l.block : Int) ≤ c) := by omega
        have hiff : (a ≤ (l.block : Int) ∧ (l.block : Int) ≤ c)
            ↔ (a ≤ (l.block : Int) ∧ (l.block : Int) ≤ b) := by omega
        simp only [decide_eq_true_eq, if_neg hnot, hiff]
        split_ifs
        · rw [List.cons_append]
          exact congrArg (l :: ·) hrest
        · exact hrest
      · -- all that follows is past the split as well
        have hnone : between logs a b = [] := by
          refine List.filter_eq_nil_iff.mpr fun x hx => ?_
          have := (List.pairwise_cons.mp h).1 x hx
          rw [decide_eq_true_eq]
          omega
        have hnot : ¬ (a ≤ (l.block : Int) ∧ (l.block : Int) ≤ b) := by omega
        have hiff : (a ≤ (l.block : Int) ∧ (l.block : Int) ≤ c)
            ↔ (b + 1 ≤ (l.block : Int) ∧ (l.block : Int) ≤ c) := by omega
        rw [hnone, List.nil_append] at hrest
        simp only [decide_eq_true_eq, if_neg hnot, hiff]
        rw [show List.filter _ logs = between logs a b from rfl, hnone, List.nil_append]
        split_ifs
        · exact congrArg (l :: ·) hrest
        · exact hrest

/-- Past the block with a skip window nothing is passed over. -/
theorem unskipped_between {logs : List PlacedLog} {a b block upTo : Int} (h : block < a) :
    unskipped block upTo (between logs a b) = between logs a b := by
  refine List.filter_eq_self.mpr fun l hl => ?_
  have hrange := (List.mem_filter.mp hl).2
  rw [decide_eq_true_eq] at hrange
  rw [Bool.not_eq_true', decide_eq_false_iff_not]
  omega

/-- What is appended to a list that reaches the limit does not matter. -/
theorem firstOf_append {limit : Int} (hlimit : 1 ≤ limit) {logs : List PlacedLog}
    (h : limit ≤ logs.length) (more : List PlacedLog) :
    firstOf limit (logs ++ more) = firstOf limit logs := by
  unfold firstOf
  rw [List.getElem?_append_left (by omega), List.take_append_of_le_length (by omega)]
  have hlast : limit.toNat - 1 < logs.length := by omega
  rw [List.getElem?_eq_getElem hlast]

theorem firstOf_of_lt {limit : Int} {logs : List PlacedLog} (h : (logs.length : Int) < limit) :
    firstOf limit logs = ⟨logs.map PlacedLog.log, none, -1⟩ := by
  unfold firstOf
  rw [List.getElem?_eq_none (by omega)]

/-- One page of placed logs. -/
theorem scanPage_placed {f : Fetch} {skipBlock : Int} {page : List PlacedLog} :
    ∀ {logs : List PlacedLog}, (logs.length : Int) < f.limit →
      scanPage f skipBlock (logs.map PlacedLog.log) (page.map PlacedLog.log) =
        if f.limit ≤ ((logs ++ unskipped skipBlock f.skipUntil page).length : Int) then
          .ok (.inr (firstOf f.limit (logs ++ unskipped skipBlock f.skipUntil page)))
        else .ok (.inl ((logs ++ unskipped skipBlock f.skipUntil page).map PlacedLog.log)) := by
  induction page with
  | nil =>
      intro logs hlt
      rw [unskipped, List.filter_nil, List.append_nil, if_neg (by omega)]
      rfl
  | cons l page ih =>
      intro logs hlt
      rw [List.map_cons, scanPage, l.placed]
      show (if (l.block : Int) = skipBlock ∧ (l.index : Int) ≤ f.skipUntil then _ else _) = _
      by_cases hskip : (l.block : Int) = skipBlock ∧ (l.index : Int) ≤ f.skipUntil
      · rw [if_pos hskip, ih hlt, unskipped, unskipped, List.filter_cons_of_neg]
        rw [decide_eq_true hskip]
        exact Bool.false_ne_true
      · have hkept : unskipped skipBlock f.skipUntil (l :: page)
            = l :: unskipped skipBlock f.skipUntil page := by
          rw [unskipped, List.filter_cons_of_pos]
          · rfl
          · rw [decide_eq_false hskip]
            rfl
        have hone : logs.map PlacedLog.log ++ [l.log] = (logs ++ [l]).map PlacedLog.log := by
          rw [List.map_append]
          rfl
        have hlength : ((logs ++ [l]).length : Int) = logs.length + 1 := by simp
        rw [if_neg hskip, hone, hkept]
        have hsplit : logs ++ l :: unskipped skipBlock f.skipUntil page
            = (logs ++ [l]) ++ unskipped skipBlock f.skipUntil page := by simp
        rw [hsplit, List.length_map]
        by_cases hlim : f.limit ≤ ((logs ++ [l]).length : Int)
        · have heq : f.limit.toNat = (logs ++ [l]).length := by omega
          rw [if_pos hlim, if_pos (by rw [List.length_append]; omega), firstOf_append (by omega) hlim]
          unfold firstOf
          rw [heq, List.length_append, List.length_singleton, Nat.add_sub_cancel,
            List.getElem?_concat_length, List.take_of_length_le (by simp)]
          rfl
        · rw [if_neg hlim]
          exact ih (by omega)

theorem Honest.tail {logs : List PlacedLog} {x : RpcCall × Reply} {tr : Trace}
    (h : Honest logs (x :: tr)) : Honest logs tr := fun y hy => h y (List.mem_cons_of_mem _ hy)

/-- What is read of an honest page. -/
theorem readPage_honest {f : Fetch} {cur last skipBlock : Int} {params page : Json}
    {logs found : List PlacedLog} {tr : Trace}
    (h : Honest logs ((⟨"eth_getLogs", [params]⟩, .ok page) :: tr))
    (hparams : getLogsParams f.filter cur last = .ok params)
    (hlt : (found.length : Int) < f.limit) :
    readPage f skipBlock (found.map PlacedLog.log) page =
      if f.limit ≤ ((found ++ unskipped skipBlock f.skipUntil (between logs cur last)).length : Int)
      then .ok (.inr (firstOf f.limit (found ++ unskipped skipBlock f.skipUntil
        (between logs cur last))))
      else .ok (.inl ((found ++ unskipped skipBlock f.skipUntil
        (between logs cur last)).map PlacedLog.log)) := by
  obtain ⟨hcur, hlast, hcall⟩ := call_of_params hparams
  have hpage := h _ List.mem_cons_self cur.toNat last.toNat
    (by rw [hcall, askedRange_chunkCall]) page rfl
  rw [Int.toNat_of_nonneg hcur, Int.toNat_of_nonneg hlast] at hpage
  rw [hpage, ← scanPage_placed hlt]
  rfl

theorem NoSmaller.cons {e : Exc} {tr : Trace} (x : RpcCall × Reply) (h : NoSmaller e tr) :
    NoSmaller e (x :: tr) := by
  obtain ⟨before, c, rfl, hsmall⟩ := h
  exact ⟨x :: before, c, rfl, hsmall⟩

/-- The run of a loop against an honest upstream.  `found` are the logs it was entered with. -/
theorem Looped.returns {f : Fetch} {cur skipBlock : Int} {chunk : ChunkSize} {items : List Json}
    {tr : Trace} {out : Except Exc PaginationResult} {logs : List PlacedLog}
    (hsorted : Ascending logs) (h : Looped f cur chunk skipBlock items tr out) :
    ∀ {found : List PlacedLog}, items = found.map PlacedLog.log →
      (found.length : Int) < f.limit → 0 ≤ cur → skipBlock ≤ cur → Honest logs tr →
        (∀ r, out = .ok r → r = firstOf f.limit
          (found ++ unskipped skipBlock f.skipUntil (between logs cur f.toBlock))) ∧
        (∀ e, out = .error e → NoSmaller e tr) := by
  -- the rest of the range, past a page that ends inside it
  have hrest : ∀ {cur skipBlock : Int} {chunk : ChunkSize}, cur ≤ f.toBlock → skipBlock ≤ cur →
      unskipped skipBlock f.skipUntil (between logs cur f.toBlock) =
        unskipped skipBlock f.skipUntil (between logs cur (chunkEnd cur chunk f.toBlock)) ++
          between logs (chunkEnd cur chunk f.toBlock + 1) f.toBlock := by
    intro cur skipBlock chunk hcur hskip
    have hend := chunkEnd_spec chunk hcur
    rw [← between_append hsorted (show cur ≤ chunkEnd cur chunk f.toBlock + 1 by omega) hend.2,
      unskipped, List.filter_append]
    have hall : (between logs (chunkEnd cur chunk f.toBlock + 1) f.toBlock).filter _ = _ :=
      @unskipped_between logs _ f.toBlock skipBlock f.skipUntil
        (show skipBlock < chunkEnd cur chunk f.toBlock + 1 by omega)
    rw [hall]
    rfl
  induction h with
  | @stop cur chunk skipBlock items hstop =>
      intro found hitems hlt hcur hskip _
      refine ⟨?_, nofun⟩
      intro r hr
      cases hr
      have hlen : items.length = found.length := by rw [hitems, List.length_map]
      have hnone : between logs cur f.toBlock = [] := by
        refine List.filter_eq_nil_iff.mpr fun l _ => ?_
        rw [decide_eq_true_eq]
        omega
      rw [hnone, unskipped, List.filter_nil, List.append_nil, firstOf_of_lt hlt, hitems]
  | @unasked cur chunk _ _ _ hgo hparams =>
      intro found _ _ hcur _ _
      have hend := chunkEnd_spec chunk hgo.1
      obtain ⟨params, hok⟩ := getLogsParams_ok f.filter hcur (hcur.trans hend.1)
      rw [hok] at hparams
      cases hparams
  | rejected _ _ _ _ ih =>
      intro found hitems hlt hcur hskip hhonest
      obtain ⟨hreturned, hraised⟩ := ih hitems hlt hcur hskip hhonest.tail
      exact ⟨hreturned, fun e he => (hraised e he).cons _⟩
  | @refused cur chunk skipBlock items params e hgo hparams hlast =>
      intro found _ _ _ _ _
      refine ⟨nofun, ?_⟩
      intro e' he'
      cases he'
      refine ⟨[], _, rfl, ?_⟩
      intro err herr htoo
      have hone : chunk.1 = 1 := Nat.le_antisymm (hlast err herr htoo) chunk.2.1
      have hsame : chunkEnd cur chunk f.toBlock = cur := by
        have hend := chunkEnd_spec chunk hgo.1
        simp only [chunkEnd, hone] at hend ⊢
        omega
      refine ⟨cur.toNat, ?_⟩
      rw [(call_of_params hparams).2.2, hsame, askedRange_chunkCall]
  | unread hgo hparams hread =>
      intro found hitems hlt _ _ hhonest
      rw [hitems, readPage_honest hhonest hparams hlt] at hread
      split_ifs at hread
  | @cut cur chunk skipBlock items params page r hgo hparams hread =>
      intro found hitems hlt _ hskip hhonest
      rw [hitems, readPage_honest hhonest hparams hlt] at hread
      split_ifs at hread with hlim
      · refine ⟨?_, fun _ he => by cases he⟩
        intro r' hr'
        cases hr'
        cases hread
        rw [hrest hgo.1 hskip, ← List.append_assoc, firstOf_append (by omega) hlim]
      · cases hread
  | @page cur chunk skipBlock items items' params page tr out hgo hparams hread _ ih =>
      intro found hitems hlt hcur hskip hhonest
      rw [hitems, readPage_honest hhonest hparams hlt] at hread
      split_ifs at hread with hlim
      · cases hread
      · injection hread with hread
        injection hread with hread
        have hend := chunkEnd_spec chunk hgo.1
        obtain ⟨hreturned, hraised⟩ :=
          ih hread.symm (Int.not_le.mp hlim) (by omega) (by omega) hhonest.tail
        refine ⟨?_, fun e he => (hraised e he).cons _⟩
        intro r hr
        rw [hreturned r hr, hrest hgo.1 hskip, List.append_assoc,
          unskipped_between (show (-1 : Int) < chunkEnd cur chunk f.toBlock + 1 by omega)]

/-- Without a skip window nothing is passed over. -/
theorem unskipped_of_neg {block upTo : Int} (h : upTo < 0) (logs : List PlacedLog) :
    unskipped block upTo logs = logs := by
  refine List.filter_eq_self.mpr fun l _ => ?_
  rw [Bool.not_eq_true', decide_eq_false_iff_not]
  omega

/-- **Chunking is invisible.**  Whatever ranges an honest upstream rejects, what is returned are
the first `limit` logs of the whole range that are not passed over, and where the last of them is
if there are as many; and an error comes from a request that could not have been made smaller. -/
theorem chunking_invisible (filter : List (String × Json)) (fromBlock toBlock : Nat)
    (limit skipUntil : Int) (logs : List PlacedLog) (tr : Trace)
    (out : Except Exc PaginationResult) (hlimit : 1 ≤ limit) (hsorted : Ascending logs)
    (hhonest : Honest logs tr)
    (hruns : Prog.Runs (fetchLogsPaginated filter fromBlock toBlock limit skipUntil) tr out) :
    (∀ r, out = .ok r →
      r = firstOf limit (unskipped fromBlock skipUntil (between logs fromBlock toBlock))) ∧
    (∀ e, out = .error e → NoSmaller e tr) := by
  have hskip : (if 0 ≤ skipUntil then (fromBlock : Int) else -1) ≤ fromBlock := by
    split_ifs <;> omega
  have h := @Looped.returns _ _ _ _ _ _ _ _ hsorted (looped_of_runs hruns) [] rfl
    (show (0 : Int) < limit by omega) (Int.natCast_nonneg _) hskip hhonest
  rw [List.nil_append] at h
  by_cases hwindow : 0 ≤ skipUntil
  · rw [if_pos hwindow] at h
    exact h
  · rw [if_neg hwindow] at h
    have hneg : skipUntil < 0 := by omega
    rw [unskipped_of_neg hneg] at h ⊢
    exact h

/-- Two logs, in blocks that the chunks of `splitOnce` part. -/
def twoLogs : List PlacedLog :=
  [⟨.obj [("blockNumber", .str "0x3"), ("logIndex", .str "0x0")], 3, 0, by decide +kernel⟩,
    ⟨.obj [("blockNumber", .str "0xa28"), ("logIndex", .str "0x5")], 2600, 5, by decide +kernel⟩]

/-- The whole range is rejected, its two parts are not. -/
def splitOnce : Trace :=
  [(anyLogs 0 4000, .error (.jsonRpcError tooMany)),
    (anyLogs 0 2499, .ok (.arr ((between twoLogs 0 2499).map PlacedLog.log))),
    (anyLogs 2500 4000, .ok (.arr ((between twoLogs 2500 4000).map PlacedLog.log)))]

theorem honest_splitOnce : Honest twoLogs splitOnce := by
  intro x hx a b hasked page hpage
  rcases List.mem_cons.mp hx with rfl | hx
  · cases hpage
  · rcases List.mem_cons.mp hx with rfl | hx
    · rw [show askedRange (anyLogs 0 2499) = _ from askedRange_chunkCall _ _ _] at hasked
      cases hasked
      cases hpage
      rfl
    · rw [List.mem_singleton.mp hx] at hasked hpage
      rw [show askedRange (anyLogs 2500 4000) = _ from askedRange_chunkCall _ _ _] at hasked
      cases hasked
      cases hpage
      rfl

theorem chunking_invisible_splitOnce :
    (⟨twoLogs.map PlacedLog.log, some 2600, 5⟩ : PaginationResult) =
      firstOf 2 (unskipped 0 (-1) (between twoLogs 0 4000)) :=
  (chunking_invisible [] 0 4000 2 (-1) twoLogs splitOnce _ (by omega)
    (by simp [Ascending, twoLogs]) honest_splitOnce
    (Prog.runs_of_feed (splitOnce.map Prod.snd) (by decide +kernel))).1 _ rfl

end ExecRestApi
