/-
The frames of the `/streams/*` handlers.

Whatever the upstream sends, a formatter that does not raise takes numbers and text out of
it and puts them under its own keys; the id is made of numbers.  So every frame, of a replay
or of the live loop, is one that the client's parser reads as it was meant.

The pending transactions are left out: their ids are what the upstream sends.

`Framed` says it of one formatter: the event has a name and an id without line breaks and data
of plain values, or the formatter has raised.  Replays and the live loop only write what a
formatter has made, a retry, a heartbeat or the frame of an error, so the property of the
frames carries over to whole runs.
-/
import ExecRestApi.Proofs.LiveFrames
import ExecRestApi.Proofs.Replay

namespace ExecRestApi

open Py Transition Interaction
open Json (FieldsOf)

/-! ### Headers and logs

The converters build an object of text and integers under a fixed list of keys.  Floats cannot
come in: where the upstream sends one, a converter raises.
-/

theorem fieldsOf_mapM {f : String → Except Exc (String × Json)}
    (hf : ∀ key p, f key = .ok p → p.1 = key ∧ p.2.WithoutFloats) {keys : List String}
    {l : List (String × Json)} (h : keys.mapM f = .ok l) : FieldsOf keys l := by
  induction keys generalizing l with
  | nil =>
      rw [mapM_nil_eq_ok.mp h]
      exact .nil []
  | cons key keys ih =>
      obtain ⟨⟨key', v⟩, rest, hp, hrest, rfl⟩ := mapM_cons_eq_ok.mp h
      obtain ⟨rfl, hv⟩ := hf key _ hp
      exact .cons _ hv (ih hrest)

theorem headerHex_eq_ok {rpc : Json} {key : String} {p : String × Json}
    (h : headerHex rpc key = .ok p) : p.1 = key ∧ p.2.WithoutFloats := by
  obtain ⟨v, -, h⟩ := bind_eq_ok.mp h
  cases v <;> cases h <;> exact ⟨rfl, trivial⟩

theorem headerInt_eq_ok {rpc : Json} {key : String} {p : String × Json}
    (h : headerInt rpc key = .ok p) : p.1 = key ∧ p.2.WithoutFloats := by
  obtain ⟨v, -, h⟩ := bind_eq_ok.mp h
  cases v with
  | str s =>
      obtain ⟨n, -, h⟩ := bind_eq_ok.mp h
      cases h
      exact ⟨rfl, trivial⟩
  | _ =>
      cases h
      exact ⟨rfl, trivial⟩

theorem headerWei_eq_ok {rpc : Json} {key : String} {p : String × Json}
    (h : headerWei rpc key = .ok p) : p.1 = key ∧ p.2.WithoutFloats := by
  obtain ⟨v, -, h⟩ := bind_eq_ok.mp h
  cases v with
  | str s =>
      obtain ⟨w, -, h⟩ := bind_eq_ok.mp h
      cases h
      exact ⟨rfl, trivial⟩
  | _ =>
      cases h
      exact ⟨rfl, trivial⟩

theorem headerMiner_eq_ok {rpc : Json} {p : String × Json} (h : headerMiner rpc = .ok p) :
    p.1 = "miner" ∧ p.2.WithoutFloats := by
  obtain ⟨present, -, h⟩ := bind_eq_ok.mp h
  cases present with
  | true =>
      simp only [if_true, bind_eq_ok] at h
      obtain ⟨v, -, a, -, h⟩ := h
      cases h
      exact ⟨rfl, trivial⟩
  | false =>
      cases h
      exact ⟨rfl, trivial⟩

theorem fieldsOf_headerExtra {convert : Json → Except Exc Json}
    (hconvert : ∀ v x, convert v = .ok x → x.WithoutFloats) {rpc : Json} {key : String}
    {l : List (String × Json)} (h : headerExtra convert rpc key = .ok l) : FieldsOf [key] l := by
  obtain ⟨v, -, h⟩ := bind_eq_ok.mp h
  split at h
  · cases h
    exact .nil _
  · obtain ⟨x, hx, h⟩ := bind_eq_ok.mp h
    cases h
    exact .cons key (hconvert v x hx) (.nil [])

theorem withoutFloats_lowerJson (v x : Json) (h : lowerJson v = .ok x) : x.WithoutFloats := by
  obtain ⟨s, -, h⟩ := bind_eq_ok.mp h
  cases h
  trivial

theorem withoutFloats_hexJson (v x : Json) (h : hexJson v = .ok x) : x.WithoutFloats := by
  obtain ⟨n, -, h⟩ := bind_eq_ok.mp h
  cases h
  trivial

theorem withoutFloats_weiJson (v x : Json) (h : weiJson v = .ok x) : x.WithoutFloats := by
  obtain ⟨w, -, h⟩ := bind_eq_ok.mp h
  cases h
  trivial

/-- The keys of a header past its number and hash. -/
def headerKeys : List String :=
  ["parentHash", "stateRoot", "transactionsRoot", "receiptsRoot", "logsBloom"]
    ++ ["gasUsed", "gasLimit", "timestamp"] ++ ["miner"] ++ ["difficulty", "totalDifficulty"]
    ++ ["extraData", "mixHash", "nonce"] ++ ["size"] ++ ["baseFeePerGas"] ++ ["withdrawalsRoot"]
    ++ ["blobGasUsed"] ++ ["excessBlobGas"] ++ ["parentBeaconBlockRoot"]

theorem fieldsOf_headerRest {rpc : Json} {l : List (String × Json)} (h : headerRest rpc = .ok l) :
    FieldsOf headerKeys l := by
  unfold headerRest at h
  simp only [bind_eq_ok] at h
  obtain ⟨roots, hroots, sizes, hsizes, miner, hminer, difficulties, hdifficulties, blobs, hblobs,
    size, hsize, baseFee, hbaseFee, withdrawals, hwithdrawals, blobGas, hblobGas, excess, hexcess,
    beacon, hbeacon, h⟩ := h
  cases h
  have hone : ∀ {key : String} {p : String × Json}, p.1 = key ∧ p.2.WithoutFloats →
      FieldsOf [key] [p] := by
    rintro key ⟨key', v⟩ ⟨rfl, hv⟩
    exact .cons _ hv (.nil [])
  exact ((((((((((fieldsOf_mapM (fun _ _ => headerHex_eq_ok) hroots).append
    (fieldsOf_mapM (fun _ _ => headerInt_eq_ok) hsizes)).append
    (hone (headerMiner_eq_ok hminer))).append
    (fieldsOf_mapM (fun _ _ => headerWei_eq_ok) hdifficulties)).append
    (fieldsOf_mapM (fun _ _ => headerHex_eq_ok) hblobs)).append
    (hone (headerInt_eq_ok hsize))).append
    (fieldsOf_headerExtra withoutFloats_weiJson hbaseFee)).append
    (fieldsOf_headerExtra withoutFloats_lowerJson hwithdrawals)).append
    (fieldsOf_headerExtra withoutFloats_hexJson hblobGas)).append
    (fieldsOf_headerExtra withoutFloats_hexJson hexcess)).append
    (fieldsOf_headerExtra withoutFloats_lowerJson hbeacon)

theorem withoutFloats_blockHeaderFromRpc {rpc header : Json} (h : blockHeaderFromRpc rpc = .ok header) :
    header.WithoutFloats := by
  unfold blockHeaderFromRpc at h
  obtain ⟨complete, -, h⟩ := bind_eq_ok.mp h
  cases complete with
  | false => cases h
  | true =>
      simp only [if_true, bind_eq_ok] at h
      obtain ⟨raw, -, number, -, hash, -, hash', -, rest, hrest, heq⟩ := h
      cases heq
      have hkeys : ("number" :: "hash" :: headerKeys).Nodup := by decide +kernel
      exact FieldsOf.withoutFloats
        (.cons "number" trivial (.cons "hash" trivial (fieldsOf_headerRest hrest))) hkeys

theorem withoutFloats_logFromRpc {rpc log : Json} (h : logFromRpc rpc = .ok log) :
    log.WithoutFloats := by
  unfold logFromRpc at h
  simp only [bind_eq_ok] at h
  obtain ⟨-, -, address, -, -, -, -, -, topics, -, -, -, data, -, -, -, blockHash, -, -, -, number, -,
    -, -, transactionHash, -, -, -, index, -, -, -, logIndex, -, removed, -, h⟩ := h
  cases h
  refine ⟨by simp, trivial, Json.withoutFloats_strings topics, ?_⟩
  exact ⟨trivial, trivial, trivial, trivial, trivial, trivial, trivial, trivial⟩

/-! ### Names and ids

An id is decimal digits, with a sign and a dash, and a name is one of the handlers' own.  None
of them holds a line break.
-/

theorem unbroken_name {name : String}
    (h : name ∈ ["block", "log", "sync-status", "gap", "resumed", "error"]) :
    name ≠ "" ∧ Unbroken name := by
  have hall : ∀ n ∈ ["block", "log", "sync-status", "gap", "resumed", "error"],
      n ≠ "" ∧ ('\n' ∉ n.toList ∧ '\r' ∉ n.toList) ∧ Char.ofNat 0 ∉ n.toList := by decide +kernel
  obtain ⟨hne, hline, hnull⟩ := hall name h
  exact ⟨hne, EventStream.oneLine_iff.mpr hline, hnull⟩

theorem unbroken_of_visible {s : String} (h : Json.Visible s.toList) : Unbroken s := by
  refine ⟨oneLine_of_visible h, fun hmem => ?_⟩
  exact absurd (h _ hmem) (by decide)

theorem strInt_eq_ok {n : Int} {s : String} (h : strInt n = .ok s) : s = String.ofList (intText n) := by
  rw [strInt] at h
  split at h
  · injection h with h
    exact h.symm
  · cases h

theorem visible_strInt {n : Int} {s : String} (h : strInt n = .ok s) : Json.Visible s.toList := by
  rw [strInt_eq_ok h, String.toList_ofList]
  exact Json.visible_intText n

theorem visible_logFrameId {b i : Int} {id : String} (h : logFrameId b i = .ok id) :
    Json.Visible id.toList := by
  unfold logFrameId at h
  simp only [bind_eq_ok] at h
  obtain ⟨bText, hb, iText, hi, h⟩ := h
  cases h
  rw [String.toList_append, String.toList_append]
  have hdash : Json.Visible "-".toList := by
    rw [show "-".toList = ['-'] from rfl]
    exact Json.visible_cons.mpr ⟨by decide, Json.visible_nil⟩
  exact Json.visible_append.mpr ⟨Json.visible_append.mpr ⟨visible_strInt hb, hdash⟩, visible_strInt hi⟩

/-! ### Formatters

One lemma for each formatter.  The numbers it prints are the only thing it needs to succeed.
-/

/-- What a formatter gives is safe to frame. -/
structure Framed (parts : FrameParts) : Prop where
  name : parts.1 ∈ ["block", "log", "sync-status", "gap", "resumed", "error"]
  id : ∀ i, parts.2.1 = some i → Json.Visible i.toList
  data : parts.2.2.WithoutFloats

theorem Framed.produced {parts : FrameParts} {frame : SseFrame} (h : Framed parts)
    (hrender : renderParts parts = .ok frame) : Produced frame := by
  obtain ⟨hne, hunbroken⟩ := unbroken_name h.name
  exact .event hne hunbroken (fun i hi => unbroken_of_visible (h.id i hi)) h.data hrender

theorem framed_blockEvent {payload : Json} {parts : FrameParts} (h : blockEvent payload = .ok parts) :
    Framed parts := by
  unfold blockEvent at h
  simp only [bind_eq_ok] at h
  obtain ⟨header, hheader, number, -, id, hid, h⟩ := h
  cases h
  refine ⟨by simp, ?_, withoutFloats_blockHeaderFromRpc hheader⟩
  intro i hi
  cases hi
  exact visible_strInt hid

theorem framed_logEvent {payload : Json} {parts : FrameParts} (h : logEvent payload = .ok parts) :
    Framed parts := by
  unfold logEvent at h
  simp only [bind_eq_ok] at h
  obtain ⟨log, hlog, b, -, i, -, id, hid, h⟩ := h
  cases h
  refine ⟨by simp, ?_, withoutFloats_logFromRpc hlog⟩
  intro i hi
  cases hi
  exact visible_logFrameId hid

theorem framed_syncStatusEvent {payload : Json} {parts : FrameParts}
    (h : syncStatusEvent payload = .ok parts) : Framed parts := by
  rw [syncStatusEvent] at h
  split at h
  · cases h
    exact ⟨by simp, fun _ hi => (by cases hi), by simp, trivial, trivial⟩
  · simp only [bind_eq_ok] at h
    obtain ⟨_, -, starting, hstarting, _, -, current, hcurrent, _, -, highest, hhighest, h⟩ := h
    cases h
    refine ⟨by simp, fun _ hi => (by cases hi), by simp, trivial, ?_⟩
    exact ⟨withoutFloats_hexJson _ _ hstarting, withoutFloats_hexJson _ _ hcurrent,
      withoutFloats_hexJson _ _ hhighest, trivial⟩

theorem framed_gapParts (first last : Int) : Framed (gapParts first last) :=
  ⟨by simp [gapParts], fun _ hi => (by cases hi), by simp, trivial, trivial, trivial⟩

/-! ### Replays

A replay is a program, so what it writes is said of all its operations: each frame it asks to
be written is one that a formatter has made.
-/

/-- What a replay may ask: its frames are produced. -/
def WritesProduced (op : StreamIo) : Prop := ∀ frame, op = .write frame → Produced frame

theorem produces_replayCall (method : String) (params : List Json) :
    Prog.Asks WritesProduced (replayCall method params) :=
  Prog.asks_ask (fun _ h => by cases h) fun r => Prog.asks_ofExcept r

theorem produces_replayWrite {frame : SseFrame} (h : Produced frame) :
    Prog.Asks WritesProduced (replayWrite frame) := by
  refine Prog.asks_ask ?_ fun r => ?_
  · intro frame' heq
    cases heq
    exact h
  · cases r with
    | ok v => exact Prog.asks_pure ()
    | error e => exact Prog.asks_throw e

theorem produces_replayFrame {parts : Except Exc FrameParts}
    (h : ∀ p, parts = .ok p → Framed p) : Prog.Asks WritesProduced (replayFrame parts) := by
  rw [replayFrame]
  cases parts with
  | error e => exact Prog.asks_throw e
  | ok p =>
      show Prog.Asks WritesProduced (liftM (renderParts p) >>= replayWrite)
      cases hrender : renderParts p with
      | error e => exact Prog.asks_throw e
      | ok frame => exact produces_replayWrite ((h p rfl).produced hrender)

theorem produces_replayHead : Prog.Asks WritesProduced replayHead :=
  Prog.asks_bind (produces_replayCall _ _) fun _ => Prog.asks_ofExcept _

theorem produces_replayRange (n : Int) (left : Nat) : Prog.Asks WritesProduced (replayRange n left) := by
  induction left generalizing n with
  | zero => exact Prog.asks_pure ()
  | succ left ih =>
      rw [replayRange]
      refine Prog.asks_bind (produces_replayCall _ _) fun rpc => ?_
      split
      · exact ih (n + 1)
      · exact Prog.asks_bind (produces_replayFrame fun p hp => framed_blockEvent hp) fun _ => ih (n + 1)

theorem produces_replayEach (logs : List Json) : Prog.Asks WritesProduced (replayEach logs) := by
  induction logs with
  | nil => exact Prog.asks_pure ()
  | cons log rest ih =>
      rw [replayEach]
      exact Prog.asks_bind (produces_replayFrame fun p hp => framed_logEvent hp) fun _ => ih

theorem produces_replayGap (first last : Int) :
    Prog.Asks WritesProduced (replayFrame (.ok (gapParts first last))) := by
  refine produces_replayFrame fun p hp => ?_
  cases hp
  exact framed_gapParts first last

theorem produces_replayBlocks (window : Int) (lastEventId : String) :
    Prog.Asks WritesProduced (replayBlocks window lastEventId) := by
  rw [replayBlocks]
  split
  · exact Prog.asks_pure ()
  · refine Prog.asks_bind produces_replayHead fun head => ?_
    split
    · exact Prog.asks_pure ()
    · split
      · exact produces_replayGap _ _
      · exact produces_replayRange _ _

theorem produces_replayLogs (window : Int) (filter : List (String × Json)) (lastEventId : String) :
    Prog.Asks WritesProduced (replayLogs window filter lastEventId) := by
  rw [replayLogs]
  split
  · exact Prog.asks_pure ()
  · refine Prog.asks_bind produces_replayHead fun head => ?_
    split
    · exact Prog.asks_pure ()
    · split
      · exact produces_replayGap _ _
      · refine Prog.asks_bind (produces_replayCall _ _) fun result => ?_
        exact Prog.asks_lift_bind _ fun logs => produces_replayEach logs

/-! ### Streams

A stream writes what its replay writes, then what its formatter makes of the events.  The place
it stands at holds the frame that is being written; `Safe` is what is known of such a place.
-/

namespace Stream

/-- The streams of the handlers, but for the pending transactions. -/
inductive OfHandler : Stream → Prop where
  | blocks (window : Int) (lastEventId : Option String) : OfHandler (blocks window lastEventId)
  | logs (window : Int) (filter : List (String × Json)) (lastEventId : Option String) :
      OfHandler (logs window filter lastEventId)
  | syncStatus (lastEventId : Option String) : OfHandler (syncStatus lastEventId)

variable {s : Stream}

theorem OfHandler.framed (h : s.OfHandler) {payload : Json} {parts : FrameParts}
    (hparts : s.formatter payload = .ok parts) : Framed parts := by
  cases h with
  | blocks window id => exact framed_blockEvent hparts
  | logs window filter id => exact framed_logEvent hparts
  | syncStatus id => exact framed_syncStatusEvent hparts

theorem framed_empty {name : String} (h : name = "gap" ∨ name = "resumed") :
    Framed (name, none, .obj []) := by
  refine ⟨?_, fun _ hi => (by cases hi), by simp, trivial⟩
  rcases h with rfl | rfl <;> simp

theorem OfHandler.produced_gap (h : s.OfHandler) : Produced s.gapFrame := by
  have hgap : ∀ {name : String}, name = "gap" ∨ name = "resumed" →
      Produced (.event name none (.obj [])) := fun h => (framed_empty h).produced rfl
  cases h with
  | blocks window id => exact hgap (.inl rfl)
  | logs window filter id => exact hgap (.inl rfl)
  | syncStatus id => exact hgap (.inr rfl)

/-- The problem a failed formatter is shown as. -/
def internalErrorParts : FrameParts :=
  ("error", none, .obj [("type", .str "https://errors.ethereum-rest/internal-error"),
    ("title", .str "Internal error")])

theorem produced_errorFrame : Produced errorFrame := by
  have hframed : Framed internalErrorParts :=
    ⟨by simp [internalErrorParts], fun _ hi => (by cases hi), by simp, trivial, trivial, trivial⟩
  exact hframed.produced rfl

theorem OfHandler.asks (h : s.OfHandler) {replay : String → Replay Unit} (hs : s.replay = some replay)
    (lastEventId : String) : Prog.Asks WritesProduced (replay lastEventId) := by
  cases h with
  | blocks window id =>
      cases hs
      exact produces_replayBlocks window lastEventId
  | logs window filter id =>
      cases hs
      exact produces_replayLogs window filter lastEventId
  | syncStatus id => cases hs

/-- **What an event is shown as is produced.** -/
theorem OfHandler.produced_shown (h : s.OfHandler) {ev : StreamEvent} {frame : SseFrame}
    (hframe : s.shown ev = some frame) : Produced frame := by
  rcases ev with payload | _
  · rw [shown] at hframe
    split at hframe
    · cases hframe
      exact produced_errorFrame
    · rename_i parts hparts
      cases hrender : renderParts parts with
      | error e =>
          rw [hrender] at hframe
          cases hframe
      | ok rendered =>
          rw [hrender] at hframe
          cases hframe
          exact (h.framed hparts).produced hrender
  · cases hframe
    exact h.produced_gap

/-- The frame that is being written, and those of a replay that is still to come, are produced. -/
def Safe : At → Prop
  | .replaying op k => Prog.Asks WritesProduced (.ask op k)
  | .writing _ frame => Produced frame
  | _ => True

theorem safe_enter {p : Replay Unit} (h : Prog.Asks WritesProduced p) : Safe (enter p) := by
  cases p with
  | pure a => trivial
  | throw e => trivial
  | ask op k => exact h

theorem OfHandler.safe_opened (h : s.OfHandler) : Safe s.opened := by
  rw [opened]
  split
  · trivial
  · rename_i id _
    cases hreplay : s.replay with
    | none => trivial
    | some replay => exact safe_enter (h.asks hreplay id)

theorem safe_deliver {finished full : Bool} {frame : SseFrame} (h : Produced frame) :
    Safe (deliver finished full frame) := by
  cases full with
  | true => trivial
  | false => exact h

theorem safe_failed (r : Raised) : Safe (failed r) := by
  rw [LiveLoop.failed_eq]
  trivial

theorem OfHandler.safe_turn (h : s.OfHandler) (full : Bool) (ev : StreamEvent) :
    Safe (s.turn full ev) := by
  rcases ev with payload | _
  · rw [turn]
    split
    · exact safe_deliver produced_errorFrame
    · rename_i parts hparts
      split
      · rename_i frame hframe
        exact safe_deliver ((h.framed hparts).produced hframe)
      · exact safe_failed _
  · exact safe_deliver h.produced_gap

theorem OfHandler.safe_wake (h : s.OfHandler) (finished full : Bool) (w : Wake) :
    Safe (s.wake finished full w) := by
  cases w with
  | timeout now => exact safe_deliver (.comment _)
  | item ev =>
      cases finished with
      | true => trivial
      | false => exact h.safe_turn full ev
  | ended => trivial
  | raised r => exact safe_failed r

theorem produced_retry : Produced (.retry 5000) := .retry (if_pos (by decide +kernel))

/-- **Each step writes a frame that is produced, if any.** -/
theorem OfHandler.safe_step (h : s.OfHandler) {a b : At} {m : Moment} (ha : Safe a)
    (hs : s.step a m = some b) :
    (∀ frame, LiveLoop.frameWritten m = some frame → Produced frame) ∧ Safe b := by
  cases m with
  | woke w full =>
      obtain ⟨finished, rfl, rfl⟩ := step_woke hs
      exact ⟨fun _ hf => (by cases hf), h.safe_wake finished full w⟩
  | returned op r =>
      obtain ⟨hop, rfl⟩ := step_returned hs
      have hwritten : (∀ frame, op = .io (.write frame) → Produced frame) →
          ∀ frame, LiveLoop.frameWritten (.returned op r) = some frame → Produced frame := by
        intro hproduced frame hframe
        rw [LiveLoop.frameWritten.eq_def] at hframe
        split at hframe
        · rename_i heq
          cases heq
          cases hframe
          exact hproduced frame rfl
        · cases hframe
      refine ⟨hwritten ?_, ?_⟩
      · rintro frame rfl
        cases a with
        | retrying =>
            cases hop
            exact produced_retry
        | replaying op k =>
            cases hop
            exact Prog.Asks.op ha (.ok .null) frame rfl
        | resuming =>
            cases hop
            exact h.produced_gap
        | writing finished frame' =>
            cases hop
            exact ha
        | _ => cases hop
      · cases a with
        | retrying =>
            cases r with
            | ok v => exact h.safe_opened
            | error r => trivial
        | replaying op k =>
            rcases r with (e | _) | v
            · exact safe_enter (Prog.Asks.reply ha _)
            · trivial
            · exact safe_enter (Prog.Asks.reply ha _)
        | writing finished frame =>
            cases r with
            | ok v => trivial
            | error r => exact safe_failed r
        | _ => cases r <;> trivial

/-- **Every frame `_run_stream` writes is produced.** -/
theorem OfHandler.produced_of_run (h : s.OfHandler) {ok : At → Moment → Prop} {ms : List Moment}
    {a : At} (hrun : Run s.step ok .subscribing ms a) :
    ∀ frame ∈ ms.filterMap LiveLoop.frameWritten, Produced frame := by
  have hstep : ∀ ms a m b, ((∀ frame ∈ ms.filterMap LiveLoop.frameWritten, Produced frame) ∧ Safe a) →
      ok a m → s.step a m = some b →
      (∀ frame ∈ (ms ++ [m]).filterMap LiveLoop.frameWritten, Produced frame) ∧ Safe b := by
    intro ms a m b hold _ hs
    obtain ⟨hframe, hb⟩ := h.safe_step hold.2 hs
    refine ⟨fun frame hmem => ?_, hb⟩
    rw [List.filterMap_append, LiveLoop.filterMap_one] at hmem
    rcases List.mem_append.mp hmem with hmem | hmem
    · exact hold.1 frame hmem
    · exact hframe frame (Option.mem_toList.mp hmem)
  exact (hrun.recorded hstep ⟨fun _ hf => (by cases hf), trivial⟩).1

end Stream

end ExecRestApi
