/-
What a replay exchanges, step by step.

One lemma for each piece a replay is put together from: a call, a frame, the head.  A
frame counts as written once its write has returned.

The handlers of the streams put these together into loops, and the lemmas here are what the
inductions over those loops use.  Each says the same of its piece: what has been exchanged,
what has been written by then, and whether the replay goes on.
-/
import ExecRestApi.Model.Streams

namespace ExecRestApi

open Py Interaction
open Prog (Runs runs_bind_ok runs_lift_bind_ok)

/-- The frame an exchange has written. -/
def written : StreamIo × Reply → Option SseFrame
  | (.write frame, .ok _) => some frame
  | _ => none

/-- The frames a replay has written, in order. -/
def framesOf (tr : ReplayTrace) : List SseFrame := tr.filterMap written

@[simp] theorem framesOf_nil : framesOf [] = [] := rfl

@[simp] theorem framesOf_call (c : RpcCall) (r : Reply) (tr : ReplayTrace) :
    framesOf ((.call c, r) :: tr) = framesOf tr := rfl

@[simp] theorem framesOf_write_ok (frame : SseFrame) (v : Json) (tr : ReplayTrace) :
    framesOf ((.write frame, .ok v) :: tr) = frame :: framesOf tr := rfl

/-! ### The pieces

A piece that raises ends the replay, wherever it stands.  A block or a log that cannot be shown
is an exception of its formatter, raised before the write.
-/

theorem runs_replayCall {method : String} {params : List Json} {tr : ReplayTrace} {v : Json} :
    Runs (replayCall method params) tr (.ok v) ↔ tr = [(.call ⟨method, params⟩, .ok v)] := by
  simp only [replayCall, Prog.runs_ask, Prog.runs_ofExcept]
  constructor
  · rintro ⟨r, rest, rfl, rfl, rfl⟩
    rfl
  · intro h
    exact ⟨_, _, h, rfl, rfl⟩

theorem runs_replayWrite {frame : SseFrame} {tr : ReplayTrace} :
    Runs (replayWrite frame) tr (.ok ()) ↔ ∃ v, tr = [(.write frame, .ok v)] := by
  simp only [replayWrite, Prog.runs_ask]
  constructor
  · intro ⟨r, rest, htr, hrest⟩
    cases r with
    | error e => cases hrest.2
    | ok v => exact ⟨v, by rw [htr, hrest.1]⟩
  · intro ⟨v, htr⟩
    exact ⟨.ok v, [], htr, rfl, rfl⟩

/-- The frame made from formatted parts. -/
def frameOf (parts : Except Exc FrameParts) : Except Exc SseFrame := do
  let parts ← parts
  renderParts parts

/-- Writing a frame is one exchange, of the frame. -/
theorem runs_replayFrame {parts : Except Exc FrameParts} {tr : ReplayTrace} :
    Runs (replayFrame parts) tr (.ok ()) ↔
      ∃ frame v, frameOf parts = .ok frame ∧ tr = [(.write frame, .ok v)] := by
  rw [replayFrame, runs_lift_bind_ok]
  simp only [runs_lift_bind_ok, runs_replayWrite, frameOf, bind_eq_ok]
  constructor
  · intro ⟨p, hp, frame, hframe, v, htr⟩
    exact ⟨frame, v, ⟨p, hp, hframe⟩, htr⟩
  · intro ⟨frame, v, ⟨p, hp, hframe⟩, htr⟩
    exact ⟨p, hp, frame, hframe, v, htr⟩

/-- The head is what one call returned. -/
theorem runs_replayHead {tr : ReplayTrace} {head : Nat} :
    Runs replayHead tr (.ok head) ↔
      ∃ v, hexToInt v = .ok head ∧ tr = [(.call ⟨"eth_blockNumber", []⟩, .ok v)] := by
  simp only [replayHead, runs_bind_ok, runs_replayCall]
  constructor
  · rintro ⟨tr₁, tr₂, v, htr, rfl, hrest⟩
    obtain ⟨rfl, hn⟩ := Prog.runs_ofExcept.mp hrest
    exact ⟨v, hn.symm, by rw [htr, List.append_nil]⟩
  · intro ⟨v, hv, htr⟩
    exact ⟨_, [], v, by rw [htr, List.append_nil], rfl, Prog.runs_ofExcept.mpr ⟨rfl, hv.symm⟩⟩

theorem frameOf_gapParts {first last : Int} {frame : SseFrame}
    (h : frameOf (.ok (gapParts first last)) = .ok frame) :
    frame = .event "gap" none (.obj [("from", .int first), ("to", .int last)]) := by
  obtain ⟨p, hp, hframe⟩ := bind_eq_ok.mp h
  cases hp
  exact (formatEvent_eq_ok.mp hframe).2

/-- A log frame is an event of that name. -/
theorem frameOf_logEvent {log : Json} {frame : SseFrame} (h : frameOf (logEvent log) = .ok frame) :
    ∃ id data, frame = .event "log" id data := by
  obtain ⟨p, hp, hframe⟩ := bind_eq_ok.mp h
  unfold logEvent at hp
  simp only [bind_eq_ok] at hp
  obtain ⟨restLog, -, b, -, i, -, id, -, heq⟩ := hp
  cases heq
  exact ⟨_, _, (formatEvent_eq_ok.mp hframe).2⟩

/-- A block frame is an event of that name, with the number of the block as its id and in its
data. -/
theorem frameOf_blockEvent {rpc : Json} {frame : SseFrame} (h : frameOf (blockEvent rpc) = .ok frame) :
    ∃ raw number id fields, getItem rpc "number" = .ok raw ∧ hexToInt raw = .ok number ∧
      strInt number = .ok id ∧
      frame = .event "block" (some id) (.obj (("number", .int number) :: fields)) := by
  obtain ⟨p, hp, hframe⟩ := bind_eq_ok.mp h
  unfold blockEvent at hp
  simp only [bind_eq_ok] at hp
  obtain ⟨header, hheader, n, hn, id, hid, heq⟩ := hp
  cases heq
  obtain ⟨raw, number, fields, hraw, hnumber, rfl⟩ := number_of_blockHeaderFromRpc hheader
  have hnumberAt : numberAt (.obj (("number", .int number) :: fields)) "number"
      = .ok (number : Int) := rfl
  rw [hnumberAt] at hn
  cases hn
  exact ⟨raw, number, id, fields, hraw, hnumber, hid, (formatEvent_eq_ok.mp hframe).2⟩

/-- Replaying logs writes the frame of each, in order. -/
theorem runs_replayEach {logs : List Json} {tr : ReplayTrace} :
    Runs (replayEach logs) tr (.ok ()) →
      (logs.mapM fun log => frameOf (logEvent log)) = .ok (framesOf tr) := by
  induction logs generalizing tr with
  | nil =>
      intro ⟨htr, _⟩
      rw [htr]
      rfl
  | cons log rest ih =>
      intro h
      rw [replayEach, runs_bind_ok] at h
      obtain ⟨tr₁, tr₂, _, rfl, hfirst, hrest⟩ := h
      obtain ⟨frame, v, hframe, rfl⟩ := runs_replayFrame.mp hfirst
      exact mapM_cons_eq_ok.mpr ⟨frame, framesOf tr₂, hframe, ih hrest, rfl⟩

end ExecRestApi
