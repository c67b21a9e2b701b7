/-
The upstream's side of `eth_getLogs` and `eth_getBlockByNumber`.

A chain is a list of blocks, each with its hash and its logs.  A filter is any
predicate on logs that depends on the filter fields of the request.  An upstream that
follows a chain may reject any request; what it does return are all matching logs of
the range, in order, and the block there is at a height.

What a block's hash stands for enters as `HashDetermines`: two chains that have the
same hash at a height, upper and lower case not told apart, are the same up to there.
-/
import ExecRestApi.Lib.Scan
import ExecRestApi.Proofs.LogsPage
import Mathlib.Data.Prod.Lex
import Mathlib.Order.Lattice

namespace ExecRestApi

open Py Interaction

/-- A block: its hash, the other fields of its header, its logs. -/
structure Block where
  hash : String
  header : List (String × Json)
  logs : List Json

/-- The canonical blocks by height. -/
abbrev Chain := List Block

/-- Where a log is: its block, and its index within the block. -/
def place (log : Json) : ℤ ×ₗ ℤ :=
  match logPosition log with
  | .ok (b, i) => toLex ((b : Int), (i : Int))
  | .error _ => toLex (0, 0)

/-- Whether a log lies in a range of blocks. -/
def inRange (first last : Int) (log : Json) : Bool :=
  match logPosition log with
  | .ok (b, _) => decide (first ≤ b ∧ (b : Int) ≤ last)
  | .error _ => false

namespace Chain

/-- All logs of the chain. -/
def logs (C : Chain) : List Json := C.flatMap Block.logs

/-- The logs of a range that a filter selects. -/
def logsIn (C : Chain) (sel : Json → Bool) (first last : Int) : List Json :=
  C.logs.filter fun log => sel log && inRange first last log

/-- What `eth_getBlockByNumber` returns for a height. -/
def blockRpc (C : Chain) (n : Nat) : Json :=
  match C[n]? with
  | some b => .obj (("hash", .str b.hash) :: b.header)
  | none => .null

/-- Every log says which block it is in, and the logs of a block come in the order of their
indices. -/
structure WellFormed (C : Chain) : Prop where
  located : ∀ (n : Nat) (b : Block), C[n]? = some b → ∀ log ∈ b.logs,
    (∃ i, logPosition log = .ok (n, i)) ∧ getItem log "blockHash" = .ok (.str b.hash)
  ordered : ∀ b ∈ C, Scan.Ordered place b.logs

end Chain

/-- A hash determines the block and all its ancestors, across the chains of a family. -/
def HashDetermines (family : Chain → Prop) : Prop :=
  ∀ C C', family C → family C' → ∀ (n : Nat) (b b' : Block), C[n]? = some b → C'[n]? = some b' →
    lower b.hash = lower b'.hash → C.take (n + 1) = C'.take (n + 1)

/-- An exchange with an upstream that follows the chain `C`; `sel` says which logs a filter
selects. -/
structure Serves (sel : List (String × Json) → Json → Bool) (C : Chain) (x : RpcCall × Reply) :
    Prop where
  logs : ∀ fields first last page, x.1 = ⟨"eth_getLogs", [.obj fields]⟩ →
    askedRange x.1 = some (first, last) → x.2 = .ok page →
      page = .arr (C.logsIn (sel (withoutRange fields)) first last)
  block : ∀ n v, x.1 = boundaryCall n → x.2 = .ok v → v = C.blockRpc n

namespace Chain

variable {C : Chain}

/-- Where a log of a well-formed chain comes from. -/
theorem WellFormed.of_mem (h : C.WellFormed) {log : Json} (hlog : log ∈ C.logs) :
    ∃ (n : Nat) (b : Block) (i : Nat), C[n]? = some b ∧ log ∈ b.logs ∧
      logPosition log = .ok (n, i) ∧ getItem log "blockHash" = .ok (.str b.hash) := by
  obtain ⟨b, hb, hlog⟩ := List.mem_flatMap.mp hlog
  obtain ⟨n, hn⟩ := List.mem_iff_getElem?.mp hb
  obtain ⟨⟨i, hpos⟩, hhash⟩ := h.located n b hn log hlog
  exact ⟨n, b, i, hn, hlog, hpos, hhash⟩

/-- The logs of a well-formed chain are ordered. -/
theorem WellFormed.ordered_logs (h : C.WellFormed) : Scan.Ordered place C.logs := by
  refine List.pairwise_flatMap.mpr ⟨h.ordered, ?_⟩
  rw [List.pairwise_iff_getElem]
  intro m n hm hn hlt x hx y hy
  obtain ⟨⟨i, hi⟩, -⟩ := h.located m _ (List.getElem?_eq_getElem hm) x hx
  obtain ⟨⟨j, hj⟩, -⟩ := h.located n _ (List.getElem?_eq_getElem hn) y hy
  simp only [place, hi, hj, Prod.Lex.toLex_lt_toLex]
  omega

theorem WellFormed.ordered_logsIn (h : C.WellFormed) (sel : Json → Bool) (first last : Int) :
    Scan.Ordered place (C.logsIn sel first last) :=
  h.ordered_logs.filter _

theorem mem_logsIn {sel : Json → Bool} {first last : Int} {log : Json} :
    log ∈ C.logsIn sel first last ↔
      log ∈ C.logs ∧ sel log = true ∧ inRange first last log = true := by
  simp [logsIn]

/-- Consecutive ranges. -/
theorem WellFormed.logsIn_append (h : C.WellFormed) (sel : Json → Bool) (first mid last : Int)
    (hfirst : first ≤ mid + 1) (hlast : mid ≤ last) :
    C.logsIn sel first mid ++ C.logsIn sel (mid + 1) last = C.logsIn sel first last := by
  have hsplit := h.ordered_logs.filter_append (toLex (mid + 1, -1))
    fun log => sel log && inRange first last log
  rw [logsIn, logsIn, logsIn, ← hsplit]
  congr 1
  all_goals
    refine List.filter_congr fun log hlog => ?_
    obtain ⟨n, -, i, -, -, hpos, -⟩ := h.of_mem hlog
    cases sel log with
    | false => simp
    | true =>
        simp only [Bool.true_and, inRange, place, hpos, Prod.Lex.toLex_le_toLex,
          Prod.Lex.toLex_lt_toLex]
        rw [← Bool.decide_and, decide_eq_decide]
        omega

/-- Blocks that are the same hold the same logs. -/
theorem WellFormed.upTo_eq {C' : Chain} (h : C.WellFormed) (h' : C'.WellFormed) {n : Nat}
    (htake : C.take (n + 1) = C'.take (n + 1)) (sel : Json → Bool) (first last i : Int) :
    Scan.upTo place (toLex ((n : Int), i)) (C.logsIn sel first last)
      = Scan.upTo place (toLex ((n : Int), i)) (C'.logsIn sel first last) := by
  -- only the logs of the first `n + 1` blocks can be up to this point
  have hhead : ∀ D : Chain, D.WellFormed →
      Scan.upTo place (toLex ((n : Int), i)) (D.logsIn sel first last)
        = Scan.upTo place (toLex ((n : Int), i)) (logsIn (D.take (n + 1)) sel first last) := by
    intro D hD
    have hlogs : D.logs = logs (D.take (n + 1)) ++ logs (D.drop (n + 1)) := by
      rw [logs, logs, logs, ← List.flatMap_append, List.take_append_drop]
    have htail : ∀ log ∈ logs (D.drop (n + 1)), ¬ place log ≤ toLex ((n : Int), i) := by
      intro log hlog
      obtain ⟨b, hb, hlog⟩ := List.mem_flatMap.mp hlog
      obtain ⟨k, hk⟩ := List.mem_iff_getElem?.mp hb
      rw [List.getElem?_drop] at hk
      obtain ⟨⟨j, hpos⟩, -⟩ := hD.located _ b hk log hlog
      simp only [place, hpos, Prod.Lex.toLex_le_toLex]
      omega
    have hnone : ((logs (D.drop (n + 1))).filter fun log => sel log && inRange first last log).filter
        (fun log => place log ≤ toLex ((n : Int), i)) = [] := by
      refine List.filter_eq_nil_iff.mpr fun log hlog => ?_
      simpa using htail log (List.mem_filter.mp hlog).1
    rw [Scan.upTo, Scan.upTo, logsIn, logsIn, hlogs, List.filter_append, List.filter_append, hnone,
      List.append_nil]
  rw [hhead C h, hhead C' h', htake]

/-- The block there is at a height. -/
theorem getElem?_of_blockRpc {n : Nat} {hash : String} (h : C.blockRpc n ≠ .null)
    (hhash : getItem (C.blockRpc n) "hash" = .ok (.str hash)) :
    ∃ b, C[n]? = some b ∧ b.hash = hash := by
  unfold blockRpc at h hhash
  cases hb : C[n]? with
  | none =>
      rw [hb] at h
      exact absurd rfl h
  | some b =>
      rw [hb] at hhash
      simp only [getItem, Json.field?, Dict.lookupIn, if_true, Except.ok.injEq,
        Json.str.injEq] at hhash
      exact ⟨b, rfl, hhash⟩

end Chain

/-! ### Pages served from a chain

The handlers take the range of a filter apart from the rest of it.  An upstream that follows a
chain answers each of their calls with the logs of that range which the rest of the filter lets
through.
-/

theorem withoutRange_append {filter : List (String × Json)} {a b : Json} :
    withoutRange (withoutRange filter ++ [("fromBlock", a), ("toBlock", b)])
      = withoutRange filter := by
  simp [withoutRange, List.filter_filter]

/-- The page of an exchange with an upstream that follows `C`. -/
theorem logs_of_serves {sel : List (String × Json) → Json → Bool} {C : Chain}
    {x : RpcCall × Reply} {p : LogsPage} {filter : List (String × Json)} {m n : Nat}
    (hserves : Serves sel C x) (hp : logsPage? x = some p)
    (hcall : x.1 = ⟨"eth_getLogs", [.obj (withoutRange filter
      ++ [("fromBlock", .str (toHex m)), ("toBlock", .str (toHex n))])]⟩) :
    p.logs = C.logsIn (sel (withoutRange filter)) p.first p.last := by
  unfold logsPage? at hp
  split at hp
  · rename_i first last page hasked hreply
    have hpage := hserves.logs _ first last page hcall hasked hreply
    rw [withoutRange_append] at hpage
    subst hpage
    simp only [Json.iter?, Option.map_some, Option.some.injEq] at hp
    subst hp
    rfl
  · cases hp

/-! ### Chains to run against

Two blocks and a cursor into the first of them are enough for the failing runs of the pages, so
they are made here once.
-/

/-- Two blocks, with one log in the first and two in the second. -/
def sampleChain (hash₀ hash₁ : String) : Chain :=
  [⟨hash₀, [("number", .str "0x0")], [sampleLog 0 0 hash₀]⟩,
   ⟨hash₁, [("number", .str "0x1")], [sampleLog 1 0 hash₁, sampleLog 1 1 hash₁]⟩]

theorem logPosition_sampleLog (block index : Nat) (hash : String) :
    logPosition (sampleLog block index hash) = .ok (block, index) := by
  simp only [logPosition, bind_eq_ok]
  exact ⟨_, rfl, _, hexToInt_toHex block, _, rfl, _, hexToInt_toHex index, rfl⟩

theorem sampleChain_wellFormed (hash₀ hash₁ : String) : (sampleChain hash₀ hash₁).WellFormed := by
  constructor
  · intro n b hb log hlog
    rcases n with _ | _ | n
    · cases hb
      rw [List.mem_singleton.mp hlog]
      exact ⟨⟨0, logPosition_sampleLog _ _ _⟩, rfl⟩
    · cases hb
      simp only [List.mem_cons, List.not_mem_nil, or_false] at hlog
      rcases hlog with rfl | rfl
      · exact ⟨⟨0, logPosition_sampleLog _ _ _⟩, rfl⟩
      · exact ⟨⟨1, logPosition_sampleLog _ _ _⟩, rfl⟩
    · cases hb
  · intro b hb
    simp only [sampleChain, List.mem_cons, List.not_mem_nil, or_false] at hb
    rcases hb with rfl | rfl
    · exact List.pairwise_singleton _ _
    · refine List.pairwise_pair.mpr ?_
      simp [place, logPosition_sampleLog, Prod.Lex.toLex_lt_toLex]

section

variable (sel : List (String × Json) → Json → Bool) (C : Chain)

theorem serves_blockNumber (reply : Reply) : Serves sel C (⟨"eth_blockNumber", []⟩, reply) :=
  ⟨fun _ _ _ _ h => by simp at h, fun _ _ h => by simp [boundaryCall] at h⟩

theorem serves_getLogs (first last : Nat) :
    Serves sel C (sampleCall first last, .ok (.arr (C.logsIn (sel []) first last))) := by
  constructor
  · intro fields m n page hcall hasked hpage
    cases hcall
    cases hpage
    have hrange : askedRange (sampleCall first last) = some (first, last) := by
      simp [askedRange, sampleCall, Json.field?, Dict.lookupIn, hexToInt_toHex]
    rw [hrange] at hasked
    cases hasked
    rfl
  · intro n v h
    simp [sampleCall, boundaryCall] at h

theorem serves_block (n : Nat) : Serves sel C (boundaryCall n, .ok (C.blockRpc n)) := by
  constructor
  · intro fields m k page h
    simp [boundaryCall] at h
  · intro m v h hv
    simp only [boundaryCall, RpcCall.mk.injEq, List.cons.injEq, Json.str.injEq, true_and,
      and_true] at h
    cases toHex_injective h
    cases hv
    rfl

end

/-- A page of one log, with the block it stopped in looked up on another chain. -/
def cutTrace (C C' : Chain) : Trace :=
  [(⟨"eth_blockNumber", []⟩, .ok (.str "0x1")),
   (sampleCall 0 1, .ok (.arr (C.logsIn (fun _ => true) 0 1))),
   (boundaryCall 0, .ok (C'.blockRpc 0))]

/-- The cursor of a page cut at the first log of block 0. -/
def cutCursor (hash : String) : Cursor := ⟨0, 0, 1, hash, []⟩

/-- The text of a cursor that can be encoded. -/
def cursorText (c : Cursor) : String := (encodeCursor 1000 c).toOption.getD ""

theorem decodeCursor_cutCursor (hash : String) :
    decodeCursor 1000 (cursorText (cutCursor hash)) = .ok (cutCursor hash) := by
  have henc : encodeCursor 1000 (cutCursor hash) = .ok (cursorText (cutCursor hash)) := by
    have hfit : (cutCursor hash).payload.intsFit = true := by
      have hsmall : strFits 0 = true ∧ strFits 1 = true := by decide +kernel
      simp [Cursor.payload, cutCursor, Json.intsFit, Json.fieldsFit, hsmall]
    simp only [cursorText, encodeCursor, b64urlEncode, Json.dumps, hfit, if_true]
    rfl
  exact decodeCursor_encodeCursor ⟨List.nodup_nil, by simp [cutCursor]⟩ henc
    (by simp [Cursor.payload, cutCursor, Json.depth, Json.fieldsDepth])

/-- The response such a page is answered with. -/
def cutResponse (logHash cursorHash : String) : Response :=
  ⟨200, [("X-Page-Size", "1"), ("Link", nextLink "/logs" (cursorText (cutCursor cursorHash)))],
    .json (.arr [sampleItem 0 0 logHash])⟩

end ExecRestApi
