/-
Resuming `/streams/logs`.

A client was cut off after the log with index `i` of block `b`.  What it has missed are
the matching logs past that place.  The replay fetches from block `b + 1`, so of the
missed logs it writes those of later blocks (`framesOf_replay`), and the others, the
rest of block `b`, are lost unless a gap is announced.

The theorem is about every replay that returns, for every id that a stream can have given out.
One that raises has written what it had fetched until then, and is not looked at here.
-/
import ExecRestApi.Lib.DecimalText
import ExecRestApi.Proofs.Chain
import ExecRestApi.Proofs.Replay

namespace ExecRestApi

open Py Interaction
open Prog (Runs runs_bind_ok runs_lift_bind_ok)

/-! ### The position in an id

An id is a block and an index with a dash between.  The replay takes what stands before the
dash.
-/

/-- The text of a natural number has no dash. -/
theorem takeWhile_dash {n : Nat} {rest : List Char} :
    (Nat.toDigits 10 n ++ '-' :: rest).takeWhile (fun c => c != '-') = Nat.toDigits 10 n := by
  have hdigits : ∀ c ∈ Nat.toDigits 10 n, (c != '-') = true := by
    intro c hc
    have hne : c ≠ '-' := ne_of_isDecimal (isDecimal_of_mem_toDigits hc) (by decide)
    simpa using hne
  rw [List.takeWhile_append_of_pos hdigits]
  simp

/-- **The block of an id is the block it was made from.** -/
theorem idBlock_logFrameId {b i : Nat} {id : String} (h : logFrameId b i = .ok id) :
    idBlock id = some (b : Int) := by
  unfold logFrameId at h
  simp only [bind_eq_ok] at h
  obtain ⟨bText, hb, iText, hi, heq⟩ := h
  cases heq
  have hbfit : strFits (b : Int) = true := by
    by_cases hfit : strFits (b : Int) = true
    · exact hfit
    · rw [strInt, if_neg hfit] at hb
      cases hb
  rw [strInt, if_pos hbfit] at hb
  cases hb
  have htext : (String.ofList (intText (b : Int)) ++ "-" ++ iText).toList
      = Nat.toDigits 10 b ++ '-' :: iText.toList := by
    simp [String.toList_append, intText_natCast]
  rw [idBlock, htext, if_pos (by simp), takeWhile_dash, ← intText_natCast, int?_intText hbfit]

/-! ### The missed range

The range that is asked for begins one block after the one in the id.
-/

theorem withoutRange_fetchFilter (filter : List (String × Json)) (first last : Int) :
    withoutRange (fetchFilter filter first last) = withoutRange filter := by
  rw [fetchFilter, withoutRange, Dict.filter_setIn (by simp), Dict.filter_setIn (by simp), withoutRange]

/-- The request of a replay asks for the range from past the id to the head. -/
theorem askedRange_fetchFilter (filter : List (String × Json)) (first last : Nat) :
    askedRange ⟨"eth_getLogs", [.obj (fetchFilter filter first last)]⟩ = some (first, last) := by
  have hfrom : Json.field? (fetchFilter filter first last) "fromBlock" = some (.str (toHex first)) := by
    rw [fetchFilter, Json.field?, Dict.lookupIn_setIn, if_neg (by decide), Dict.lookupIn_setIn,
      if_pos rfl, hex_natCast]
  have hto : Json.field? (fetchFilter filter first last) "toBlock" = some (.str (toHex last)) := by
    rw [fetchFilter, Json.field?, Dict.lookupIn_setIn, if_pos rfl, hex_natCast]
  simp only [askedRange, if_true, hfrom, hto, hexToInt_toHex]

/-! ### What the client has missed

The logs past a place are those past it in its own block and those of later blocks.  The first
part is `Chain.remainder`, and it is empty if the block was done.
-/

/-- An exchange of a replay with an upstream that follows the chain `C`. -/
structure ServesReplay (sel : List (String × Json) → Json → Bool) (C : Chain)
    (x : StreamIo × Reply) : Prop where
  head : x.1 = .call ⟨"eth_blockNumber", []⟩ → ∀ v, x.2 = .ok v →
    ∃ head, hexToInt v = .ok head ∧ C.length = head + 1
  logs : ∀ c, x.1 = .call c → Serves sel C (c, x.2)

/-- The matching logs past the place of an id, up to the head. -/
def Chain.missed (C : Chain) (s : Json → Bool) (b i : Nat) : List Json :=
  Scan.past place (toLex ((b : Int), (i : Int))) (C.logs.filter s)

/-- Block `b` has no matching log past the index `i`. -/
def Chain.BlockDone (C : Chain) (s : Json → Bool) (b i : Nat) : Prop :=
  ∀ log ∈ C.logs, s log = true → ∀ j, logPosition log = .ok (b, j) → j ≤ i

/-- The missed logs of block `b` itself. -/
def Chain.remainder (C : Chain) (s : Json → Bool) (b i : Nat) : List Json :=
  (C.missed s b i).filter fun log => place log ≤ toLex ((b : Int) + 1, (-1 : Int))

namespace Chain

variable {C : Chain} {s : Json → Bool} {b i H : Nat}

theorem WellFormed.le_of_position (h : C.WellFormed) {log : Json} (hlog : log ∈ C.logs) {n j : Nat}
    (hpos : logPosition log = .ok (n, j)) : n < C.length := by
  obtain ⟨n', block, i', hblock, -, hpos', -⟩ := h.of_mem hlog
  rw [hpos] at hpos'
  cases hpos'
  exact (List.getElem?_eq_some_iff.mp hblock).1

/-- **What is missed is the rest of block `b`, and the later blocks.** -/
theorem WellFormed.missed_eq (h : C.WellFormed) (hlen : C.length = H + 1) :
    C.missed s b i = C.remainder s b i ++ C.logsIn s (b + 1) H := by
  have hsplit := h.ordered_logs.filter_append (toLex ((b : Int) + 1, (-1 : Int))) fun log =>
    s log && decide (toLex ((b : Int), (i : Int)) < place log)
  have hmissed : C.missed s b i = C.logs.filter fun log =>
      s log && decide (toLex ((b : Int), (i : Int)) < place log) := by
    rw [missed, Scan.past, List.filter_filter]
    apply List.filter_congr
    intro log _
    exact Bool.and_comm _ _
  rw [remainder, hmissed, List.filter_filter, ← hsplit]
  congr 1
  · apply List.filter_congr
    intro log _
    exact Bool.and_comm _ _
  · apply List.filter_congr
    intro log hlog
    obtain ⟨n, -, j, -, -, hpos, -⟩ := h.of_mem hlog
    have hle := h.le_of_position hlog hpos
    simp only [place, hpos, inRange, Prod.Lex.toLex_lt_toLex, Bool.and_assoc]
    congr 1
    rw [← Bool.decide_and, decide_eq_decide]
    omega

theorem WellFormed.remainder_eq_nil (h : C.WellFormed) :
    C.remainder s b i = [] ↔ C.BlockDone s b i := by
  rw [remainder, missed, Scan.past, List.filter_filter, List.filter_filter,
    List.filter_eq_nil_iff]
  constructor
  · intro hnil log hlog hs j hpos
    by_contra hlt
    apply hnil log hlog
    simp only [place, hpos, hs, Prod.Lex.toLex_lt_toLex, Prod.Lex.toLex_le_toLex,
      Bool.and_eq_true, decide_eq_true_eq, and_true]
    exact ⟨.inl (by omega), .inr ⟨trivial, by omega⟩⟩
  · intro hdone log hlog hs
    obtain ⟨n, -, j, -, -, hpos, -⟩ := h.of_mem hlog
    simp only [place, hpos, Prod.Lex.toLex_lt_toLex, Prod.Lex.toLex_le_toLex,
      Bool.and_eq_true, decide_eq_true_eq] at hs
    have hn : n = b := by omega
    subst hn
    have := hdone log hlog hs.2 j hpos
    omega

end Chain

/-! ### What a replay writes

It writes what it has fetched, in order, or a gap when there is too much of it.  So the
remainder of the block is what can be lost, and it is lost unless a gap was written.
-/

/-- Whether a frame is a log. -/
def SseFrame.isLog : SseFrame → Bool
  | .event name _ _ => name == "log"
  | _ => false

/-- A gap has been announced. -/
def GapWritten (frames : List SseFrame) : Prop := ∃ id data, SseFrame.event "gap" id data ∈ frames

/-- The frames of `logs`, each once and in order, are the log frames among `frames`. -/
def LogsWritten (logs : List Json) (frames : List SseFrame) : Prop :=
  (logs.mapM fun log => frameOf (logEvent log)) = .ok (frames.filter SseFrame.isLog)

theorem length_of_mapM {ε α β : Type} {f : α → Except ε β} {xs : List α} {ys : List β}
    (h : xs.mapM f = .ok ys) : xs.length = ys.length :=
  (forall₂_of_mapM (R := fun _ _ => True) (fun _ _ _ => trivial) h).length_eq

/-- Every frame of a list of logs is a log. -/
theorem isLog_of_mapM {logs : List Json} {frames : List SseFrame}
    (h : (logs.mapM fun log => frameOf (logEvent log)) = .ok frames) :
    frames.filter SseFrame.isLog = frames ∧ ¬ GapWritten frames := by
  have hall : ∀ frame ∈ frames, ∃ id data, frame = .event "log" id data := by
    induction logs generalizing frames with
    | nil =>
        rw [mapM_nil_eq_ok.mp h]
        intro frame hframe
        cases hframe
    | cons log rest ih =>
        obtain ⟨z, zs, hz, hzs, rfl⟩ := mapM_cons_eq_ok.mp h
        intro frame hframe
        rcases List.mem_cons.mp hframe with rfl | hframe
        · exact frameOf_logEvent hz
        · exact ih hzs frame hframe
  constructor
  · apply List.filter_eq_self.mpr
    intro frame hframe
    obtain ⟨id, data, rfl⟩ := hall frame hframe
    rfl
  · intro ⟨id, data, hgap⟩
    obtain ⟨id', data', heq⟩ := hall _ hgap
    injection heq with hname
    exact absurd hname (by decide)

section

variable {sel : List (String × Json) → Json → Bool} {C : Chain} {window : Int}
  {filter : List (String × Json)} {b i H : Nat} {id : String} {tr : ReplayTrace}

/-- **What a finished replay has written**: nothing at the head, a gap past the window, and else
the matching logs of the blocks after `b`. -/
theorem framesOf_replay (hlen : C.length = H + 1) (hid : logFrameId b i = .ok id)
    (hrun : Runs (replayLogs window filter id) tr (.ok ()))
    (hserves : ∀ x ∈ tr, ServesReplay sel C x) :
    (H ≤ b ∧ framesOf tr = [])
      ∨ (b < H ∧ window < H - b ∧ GapWritten (framesOf tr))
      ∨ (b < H ∧ ¬ window < H - b ∧
          ((C.logsIn (sel (withoutRange filter)) (b + 1) H).mapM fun log =>
            frameOf (logEvent log)) = .ok (framesOf tr)) := by
  rw [replayLogs, idBlock_logFrameId hid] at hrun
  obtain ⟨tr₁, tr₂, head, rfl, hhead, hrest⟩ := runs_bind_ok.mp hrun
  obtain ⟨v, hv, rfl⟩ := runs_replayHead.mp hhead
  have hheadH : head = H := by
    have hfirst := hserves (.call ⟨"eth_blockNumber", []⟩, .ok v) (by simp)
    obtain ⟨head', hv', hlen'⟩ := hfirst.head rfl v rfl
    rw [hv] at hv'
    cases hv'
    omega
  subst hheadH
  by_cases hle : (head : Int) ≤ b
  · rw [if_pos hle] at hrest
    refine .inl ⟨by omega, ?_⟩
    rw [hrest.1]
    rfl
  · rw [if_neg hle] at hrest
    refine .inr ?_
    by_cases hgap : window < (head : Int) - b
    · rw [if_pos hgap] at hrest
      obtain ⟨frame, w, hframe, rfl⟩ := runs_replayFrame.mp hrest
      refine .inl ⟨by omega, hgap, ?_⟩
      rw [frameOf_gapParts hframe]
      exact ⟨_, _, List.mem_cons_self⟩
    · rw [if_neg hgap] at hrest
      refine .inr ⟨by omega, hgap, ?_⟩
      obtain ⟨tr₃, tr₄, result, rfl, hcall, hfetched⟩ := runs_bind_ok.mp hrest
      rw [runs_replayCall] at hcall
      subst hcall
      obtain ⟨logs, hlogs, heach⟩ := runs_lift_bind_ok.mp hfetched
      have hasked := askedRange_fetchFilter filter (b + 1) head
      rw [Nat.cast_add_one] at hasked
      have hsecond := hserves (.call ⟨"eth_getLogs",
        [.obj (fetchFilter filter (b + 1) head)]⟩, .ok result) (by simp)
      have hpage := (hsecond.logs _ rfl).logs _ _ _ result rfl hasked rfl
      rw [withoutRange_fetchFilter] at hpage
      have heq : logs = C.logsIn (sel (withoutRange filter)) (b + 1) head := by
        rw [hpage, replayedLogs] at hlogs
        by_cases hfalsy : (Json.arr (C.logsIn (sel (withoutRange filter)) ((b + 1 : Nat) : Int)
            (head : Int))).isFalsy = true
        · rw [if_pos hfalsy] at hlogs
          cases hlogs
          symm
          rw [Json.isFalsy, List.isEmpty_iff] at hfalsy
          rw [← hfalsy, Nat.cast_add_one]
        · rw [if_neg hfalsy] at hlogs
          cases hlogs
          rw [Nat.cast_add_one]
      show (_ : Except Exc (List SseFrame)) = .ok (framesOf tr₄)
      rw [← heq]
      exact runs_replayEach heach

/-- **A finished replay of logs has lost nothing exactly if it announced a gap, or the block the
client was cut off in has no further matching log.** -/
theorem resume_loses_nothing (hC : C.WellFormed) (hlen : C.length = H + 1)
    (hid : logFrameId b i = .ok id) (hrun : Runs (replayLogs window filter id) tr (.ok ()))
    (hserves : ∀ x ∈ tr, ServesReplay sel C x) :
    (LogsWritten (C.missed (sel (withoutRange filter)) b i) (framesOf tr)
        ∨ GapWritten (framesOf tr))
      ↔ (b < H ∧ window < H - b) ∨ C.BlockDone (sel (withoutRange filter)) b i := by
  have hmissed := hC.missed_eq (s := sel (withoutRange filter)) (b := b) (i := i) hlen
  rw [← hC.remainder_eq_nil]
  rcases framesOf_replay hlen hid hrun hserves with ⟨hle, hframes⟩ | ⟨hlt, hgap, hwritten⟩
      | ⟨hlt, hgap, hwritten⟩
  · -- nothing was fetched, and there are no later blocks
    have hlater : C.logsIn (sel (withoutRange filter)) (b + 1) H = [] := by
      apply List.filter_eq_nil_iff.mpr
      intro log hlog hkept
      obtain ⟨n, -, j, -, -, hpos, -⟩ := hC.of_mem hlog
      simp only [inRange, hpos, Bool.and_eq_true, decide_eq_true_eq] at hkept
      omega
    rw [hlater, List.append_nil] at hmissed
    rw [hframes, hmissed]
    constructor
    · intro h
      rcases h with h | ⟨_, _, h⟩
      · exact .inr (List.length_eq_zero_iff.mp (length_of_mapM h))
      · cases h
    · intro h
      rcases h with h | h
      · omega
      · left
        rw [h]
        rfl
  · exact ⟨fun _ => .inl ⟨hlt, hgap⟩, fun _ => .inr hwritten⟩
  · obtain ⟨hlogs, hnogap⟩ := isLog_of_mapM hwritten
    constructor
    · intro h
      rcases h with h | h
      · -- as many frames as missed logs leaves none in block `b`
        have hlength := length_of_mapM h
        rw [hlogs, ← length_of_mapM hwritten, hmissed, List.length_append] at hlength
        exact .inr (List.length_eq_zero_iff.mp (by omega))
      · exact absurd h hnogap
    · intro h
      rcases h with h | h
      · exact absurd h.2 hgap
      · left
        rw [LogsWritten, hlogs, hmissed, h, List.nil_append]
        exact hwritten

end

/-! ### Two runs

In both the client has seen the first log of block 1.  The block has a second one in the run
that loses it.
-/

/-- The head of the sample chain is block 1. -/
def headReply : StreamIo × Reply := (.call ⟨"eth_blockNumber", []⟩, .ok (.str "0x1"))

/-- A frame of the sample chain. -/
def sampleFrame (block index : Nat) (id hash : String) : SseFrame :=
  .event "log" (some id) (sampleItem block index hash)

/-- The client was cut off after the last log of block 0. -/
def resumeTrace : ReplayTrace :=
  [headReply, (.call (sampleCall 1 1), .ok (.arr [sampleLog 1 0 "0xb1", sampleLog 1 1 "0xb1"])),
    (.write (sampleFrame 1 0 "1-0" "0xb1"), .ok .null),
    (.write (sampleFrame 1 1 "1-1" "0xb1"), .ok .null)]

section

variable (C : Chain)

theorem serves_headReply (sel : List (String × Json) → Json → Bool) (hlen : C.length = 2) :
    ServesReplay sel C headReply := by
  constructor
  · intro _ v hv
    cases hv
    exact ⟨1, rfl, hlen⟩
  · intro c hc
    cases hc
    exact serves_blockNumber _ _ _

theorem serves_write (sel : List (String × Json) → Json → Bool) (frame : SseFrame) (r : Reply) :
    ServesReplay sel C (.write frame, r) := ⟨nofun, nofun⟩

end

/-- Resuming after the last log of a block. -/
theorem resume_loses_nothing_once :
    LogsWritten ((sampleChain "0xb0" "0xb1").missed (fun _ => true) 0 0) (framesOf resumeTrace)
      ∨ GapWritten (framesOf resumeTrace) := by
  have hrun : Runs (replayLogs 10 [] "0-0") resumeTrace (.ok ()) :=
    Prog.runs_of_feed (resumeTrace.map Prod.snd) (by decide +kernel)
  have hserves : ∀ x ∈ resumeTrace,
      ServesReplay (fun _ _ => true) (sampleChain "0xb0" "0xb1") x := by
    intro x hx
    simp only [resumeTrace, List.mem_cons, List.not_mem_nil, or_false] at hx
    rcases hx with rfl | rfl | rfl | rfl
    · exact serves_headReply _ _ rfl
    · refine ⟨nofun, fun c hc => ?_⟩
      cases hc
      exact serves_getLogs (fun _ _ => true) (sampleChain "0xb0" "0xb1") 1 1
    · exact serves_write _ _ _ _
    · exact serves_write _ _ _ _
  refine (resume_loses_nothing (sampleChain_wellFormed _ _) rfl (by decide +kernel) hrun
    hserves).mpr (.inr ?_)
  intro log hlog _ j hpos
  simp only [Chain.logs, sampleChain, List.flatMap_cons, List.flatMap_nil, List.append_nil,
    List.cons_append, List.nil_append, List.mem_cons, List.not_mem_nil, or_false] at hlog
  rcases hlog with rfl | rfl | rfl
  · rw [logPosition_sampleLog] at hpos
    cases hpos
    exact Nat.le_refl 0
  · rw [logPosition_sampleLog] at hpos
    cases hpos
  · rw [logPosition_sampleLog] at hpos
    cases hpos

/-- Resuming at the head after the first of two logs of a block loses the second. -/
theorem resume_loses_log :
    ¬ ∀ (sel : List (String × Json) → Json → Bool) (C : Chain) (window : Int)
        (filter : List (String × Json)) (b i H : Nat) (id : String) (tr : ReplayTrace),
      C.WellFormed → C.length = H + 1 → logFrameId b i = .ok id →
      Runs (replayLogs window filter id) tr (.ok ()) → (∀ x ∈ tr, ServesReplay sel C x) →
      LogsWritten (C.missed (sel (withoutRange filter)) b i) (framesOf tr)
        ∨ GapWritten (framesOf tr) := by
  intro h
  have hrun : Runs (replayLogs 10 [] "1-0") [headReply] (.ok ()) :=
    Prog.runs_of_feed [.ok (.str "0x1")] (by decide +kernel)
  rcases h (fun _ _ => true) (sampleChain "0xb0" "0xb1") 10 [] 1 0 1 "1-0" [headReply]
      (sampleChain_wellFormed _ _) rfl (by decide +kernel) hrun (by
        intro x hx
        rw [List.mem_singleton.mp hx]
        exact serves_headReply _ _ rfl) with h | ⟨_, _, h⟩
  · have hlength := length_of_mapM h
    revert hlength
    decide +kernel
  · cases h

end ExecRestApi
