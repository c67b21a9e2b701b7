/-
Resuming `/streams/blocks`.

Between its last id `n` and the head `H` a client has missed the blocks `n + 1` to `H`.
By the time the live loop writes its first frame the replay is over, however it ended:
it stops at the first `await` that raises and at the first block it cannot convert, steps
over a block the upstream does not know, and tells the client about none of these.  So
what has been missed has been written, or announced as a gap, exactly if nothing of the
kind happened, which is `Smooth`.

The replay is a program inside a machine.  `exchanged_of_quiet` takes the moments of a run
apart into the opening, the exchanges of the replay, and the heartbeats after it.
-/
import ExecRestApi.Proofs.LogsResume
import ExecRestApi.Proofs.Streams

namespace ExecRestApi

open Py Interaction Transition
open Prog (Runs)

/-! ### Frames and moments

A stream takes moments, a replay makes exchanges.  `toMoment` is how an exchange looks from the
stream, and with it the frames of a run of the stream are those of a run of its replay.
-/

/-- The frame a moment has written. -/
def Moment.frame? : Moment → Option SseFrame
  | .returned (.io (.write frame)) (.ok _) => some frame
  | _ => none

/-- The frames a stream has written, in order. -/
def streamFrames (ms : List Moment) : List SseFrame := ms.filterMap Moment.frame?

/-- An exchange of a replay, as a moment of its stream. -/
def toMoment (x : StreamIo × Reply) : Moment := .returned (.io x.1) (x.2.mapError .exception)

theorem streamFrames_append (ms ms' : List Moment) :
    streamFrames (ms ++ ms') = streamFrames ms ++ streamFrames ms' :=
  List.filterMap_append

theorem streamFrames_map_toMoment (tr : ReplayTrace) :
    streamFrames (tr.map toMoment) = framesOf tr := by
  rw [streamFrames, framesOf, List.filterMap_map]
  apply List.filterMap_congr
  intro x _
  obtain ⟨op, r⟩ := x
  cases op with
  | call c => cases r <;> rfl
  | write frame => cases r <;> rfl

/-- The number of the block a frame shows. -/
def SseFrame.blockNumber? : SseFrame → Option Int
  | .event name _ (.obj fields) =>
      if name = "block" then
        match Json.field? fields "number" with
        | some (.int n) => some n
        | _ => none
      else none
  | _ => none

/-- The numbers of the blocks among some frames. -/
def blockNumbers (frames : List SseFrame) : List Int := frames.filterMap SseFrame.blockNumber?

theorem blockNumbers_cons_some {frame : SseFrame} {n : Int} {frames : List SseFrame}
    (h : frame.blockNumber? = some n) : blockNumbers (frame :: frames) = n :: blockNumbers frames :=
  List.filterMap_cons_some h

/-- The blocks after `n` up to `H`. -/
def blocksAfter (n H : Nat) : List Int := (List.range' (n + 1) (H - n)).map Int.ofNat

/-! ### What can go wrong in a replay

`Smooth` is about one moment and says only what came back, so it can be asked of every moment
of a run.  `Numbered` and `HeadIs` are what the upstream has to get right for there to be a
question at all: a block is the block that was asked for, and the head is one number.
-/

/-- The request for block `k`. -/
def blockCall (k : Nat) : StreamIo :=
  .call ⟨"eth_getBlockByNumber", [.str (hex k), .bool true]⟩

/-- Nothing was raised, and a block that was asked for was returned and can be shown. -/
def Smooth (m : Moment) : Prop :=
  (∀ op e, m ≠ .returned op (.error e)) ∧
    ∀ k v, m = .returned (.io (blockCall k)) (.ok v) → ∃ frame, frameOf (blockEvent v) = .ok frame

/-- A block that was asked for is the block of that number, or unknown. -/
def Numbered (m : Moment) : Prop :=
  ∀ k v, m = .returned (.io (blockCall k)) (.ok v) →
    v = .null ∨ ∃ raw, getItem v "number" = .ok raw ∧ hexToInt raw = .ok k

/-- The head is `H`. -/
def HeadIs (H : Nat) (m : Moment) : Prop :=
  ∀ v, m = .returned (.io (.call ⟨"eth_blockNumber", []⟩)) (.ok v) → hexToInt v = .ok H

theorem toMoment_ok_eq {op op' : StreamIo} {v v' : Json}
    (h : toMoment (op, .ok v) = .returned (.io op') (.ok v')) : op = op' ∧ v = v' := by
  injection h with hop hv
  injection hop with hop
  injection hv with hv
  exact ⟨hop, hv⟩

theorem toMoment_ok_ne {op : StreamIo} {op' : StreamOp} {v : Json} {e : Raised} :
    toMoment (op, .ok v) ≠ .returned op' (.error e) := by
  intro h
  injection h with _ hv
  cases hv

theorem not_smooth_error (op : StreamIo) (e : Exc) : ¬ Smooth (toMoment (op, .error e)) := by
  intro h
  exact h.1 _ _ rfl

/-- A reply that is neither an error nor a block is smooth. -/
theorem smooth_of_ne {op : StreamIo} {v : Json} (hop : ∀ k, op ≠ blockCall k) :
    Smooth (toMoment (op, .ok v)) := by
  refine ⟨fun _ _ => toMoment_ok_ne, fun k w h => ?_⟩
  exact absurd (toMoment_ok_eq h).1 (hop k)

theorem smooth_block {k : Nat} {v : Json} :
    Smooth (toMoment (blockCall k, .ok v)) ↔ ∃ frame, frameOf (blockEvent v) = .ok frame := by
  constructor
  · intro h
    exact h.2 k v rfl
  · intro h
    refine ⟨fun _ _ => toMoment_ok_ne, fun k' w heq => ?_⟩
    rw [← (toMoment_ok_eq heq).2]
    exact h

theorem blockNumber?_frameOf {v : Json} {frame : SseFrame} {k : Nat}
    (h : frameOf (blockEvent v) = .ok frame)
    (hk : ∃ raw, getItem v "number" = .ok raw ∧ hexToInt raw = .ok k) :
    frame.blockNumber? = some (k : Int) := by
  obtain ⟨raw, number, id, fields, hraw, hnumber, -, rfl⟩ := frameOf_blockEvent h
  obtain ⟨raw', hraw', hk⟩ := hk
  rw [hraw] at hraw'
  cases hraw'
  rw [hnumber] at hk
  cases hk
  rfl

/-! ### The replay

The induction is on the number of blocks still to be asked for.  Each turn writes its block,
steps over it, or ends the loop, and only the first of these is smooth; what has been written
by the end is all of the range exactly if every turn was.
-/

/-- Writing a frame that was made, or raising what making it raised. -/
theorem replayFrame_eq (parts : Except Exc FrameParts) :
    replayFrame parts = match frameOf parts with
      | .ok frame => replayWrite frame
      | .error e => .throw e := by
  cases parts with
  | error e => rfl
  | ok p =>
      show (Prog.ofExcept (renderParts p) >>= fun frame => replayWrite frame) = _
      have hframe : frameOf (.ok p) = renderParts p := rfl
      rw [hframe]
      cases renderParts p with
      | error e => rfl
      | ok frame => rfl

/-- What a loop over blocks goes through: nothing, a block and the rest, or a step that ends it or
is stepped over. -/
theorem runs_replayRange_succ {n left : Nat} {tr : ReplayTrace} {out : Except Exc Unit}
    (h : Runs (replayRange n (left + 1)) tr out) :
    (∃ e, tr = [(blockCall n, .error e)])
      ∨ (∃ rest, tr = (blockCall n, .ok .null) :: rest ∧ Runs (replayRange (n + 1 : Nat) left) rest out)
      ∨ ∃ v, v ≠ .null ∧
          ((∃ e, frameOf (blockEvent v) = .error e ∧ tr = [(blockCall n, .ok v)])
            ∨ ∃ frame, frameOf (blockEvent v) = .ok frame ∧
                ((∃ e, tr = [(blockCall n, .ok v), (.write frame, .error e)])
                  ∨ ∃ w rest, tr = (blockCall n, .ok v) :: (.write frame, .ok w) :: rest
                      ∧ Runs (replayRange (n + 1 : Nat) left) rest out)) := by
  rw [replayRange, replayCall, Prog.bind_ask] at h
  obtain ⟨r, rest, rfl, h⟩ := h
  cases r with
  | error e => exact .inl ⟨e, by rw [h.1]; rfl⟩
  | ok v =>
      change Runs (if v = .null then replayRange (n + 1 : Nat) left
        else replayFrame (blockEvent v) >>= fun _ => replayRange (n + 1 : Nat) left) rest out at h
      by_cases hv : v = .null
      · rw [if_pos hv] at h
        subst hv
        exact .inr (.inl ⟨rest, rfl, h⟩)
      · rw [if_neg hv, replayFrame_eq] at h
        refine .inr (.inr ⟨v, hv, ?_⟩)
        cases hframe : frameOf (blockEvent v) with
        | error e =>
            rw [hframe] at h
            exact .inl ⟨e, rfl, by rw [h.1]; rfl⟩
        | ok frame =>
            rw [hframe] at h
            obtain ⟨r', rest', rfl, h⟩ := h
            cases r' with
            | error e => exact .inr ⟨frame, rfl, .inl ⟨e, by rw [h.1]; rfl⟩⟩
            | ok w => exact .inr ⟨frame, rfl, .inr ⟨w, rest', rfl, h⟩⟩

/-- A loop over blocks writes no more frames than it has blocks to ask for, and none of them
announces a gap. -/
theorem frames_of_range {left n : Nat} {tr : ReplayTrace} {out : Except Exc Unit}
    (h : Runs (replayRange n left) tr out) :
    (framesOf tr).length ≤ left ∧ ¬ GapWritten (framesOf tr) := by
  induction left generalizing n tr with
  | zero =>
      rw [h.1]
      exact ⟨Nat.le_refl 0, nofun⟩
  | succ left ih =>
      rcases runs_replayRange_succ h with ⟨e, rfl⟩ | ⟨rest, rfl, hrest⟩
          | ⟨v, -, ⟨e, -, rfl⟩ | ⟨frame, hframe, ⟨e, rfl⟩ | ⟨w, rest, rfl, hrest⟩⟩⟩
      · exact ⟨Nat.zero_le _, nofun⟩
      · have hih := ih hrest
        exact ⟨Nat.le_succ_of_le hih.1, hih.2⟩
      · exact ⟨Nat.zero_le _, nofun⟩
      · exact ⟨Nat.zero_le _, nofun⟩
      · obtain ⟨hlength, hgap⟩ := ih hrest
        refine ⟨Nat.succ_le_succ hlength, ?_⟩
        intro ⟨id, data, hmem⟩
        rcases List.mem_cons.mp hmem with heq | hmem
        · obtain ⟨_, _, _, _, _, _, _, hblock⟩ := frameOf_blockEvent hframe
          rw [hblock] at heq
          injection heq with hname
          exact absurd hname (by decide)
        · exact hgap ⟨id, data, hmem⟩

/-- **A loop over blocks has written all of them exactly if it was smooth.** -/
theorem range_written_iff {left n : Nat} {tr : ReplayTrace} {out : Except Exc Unit}
    (h : Runs (replayRange n left) tr out) (hnum : ∀ x ∈ tr, Numbered (toMoment x)) :
    blockNumbers (framesOf tr) = (List.range' n left).map Int.ofNat ↔
      ∀ x ∈ tr, Smooth (toMoment x) := by
  induction left generalizing n tr with
  | zero =>
      rw [h.1]
      exact ⟨fun _ => nofun, fun _ => rfl⟩
  | succ left ih =>
      have hcons : (List.range' n (left + 1)).map Int.ofNat
          = (n : Int) :: (List.range' (n + 1) left).map Int.ofNat := rfl
      rw [hcons]
      rcases runs_replayRange_succ h with ⟨e, rfl⟩ | ⟨rest, rfl, hrest⟩
          | ⟨v, hv, ⟨e, hframe, rfl⟩ | ⟨frame, hframe, ⟨e, rfl⟩ | ⟨w, rest, rfl, hrest⟩⟩⟩
      · constructor
        · intro heq
          cases heq
        · intro hsmooth
          exact absurd (hsmooth _ List.mem_cons_self) (not_smooth_error _ _)
      · -- a block was stepped over, and the rest cannot make up for it
        constructor
        · intro heq
          have hlength := congrArg List.length heq
          rw [List.length_cons, List.length_map, List.length_range'] at hlength
          have hnumbers : (blockNumbers (framesOf rest)).length ≤ (framesOf rest).length :=
            List.length_filterMap_le _ _
          have hframes := (frames_of_range hrest).1
          replace hlength : (blockNumbers (framesOf rest)).length = left + 1 := hlength
          omega
        · intro hsmooth
          obtain ⟨frame, hframe⟩ := smooth_block.mp (hsmooth _ List.mem_cons_self)
          cases hframe
      · constructor
        · intro heq
          cases heq
        · intro hsmooth
          obtain ⟨frame, hok⟩ := smooth_block.mp (hsmooth _ List.mem_cons_self)
          rw [hframe] at hok
          cases hok
      · constructor
        · intro heq
          cases heq
        · intro hsmooth
          have hwrite := hsmooth (.write frame, .error e) (by simp)
          exact absurd hwrite (not_smooth_error _ _)
      · have hnumber : frame.blockNumber? = some (n : Int) := by
          refine blockNumber?_frameOf hframe ?_
          rcases hnum _ List.mem_cons_self n v rfl with hnull | hraw
          · exact absurd hnull hv
          · exact hraw
        have hframes : framesOf ((blockCall n, .ok v) :: (.write frame, .ok w) :: rest)
            = frame :: framesOf rest := rfl
        rw [hframes, blockNumbers_cons_some hnumber, List.cons_inj_right,
          ih hrest fun x hx => hnum x (by simp [hx])]
        constructor
        · intro hsmooth x hx
          rcases List.mem_cons.mp hx with rfl | hx
          · exact smooth_block.mpr ⟨frame, hframe⟩
          · rcases List.mem_cons.mp hx with rfl | hx
            · exact smooth_of_ne nofun
            · exact hsmooth x hx
        · intro hsmooth x hx
          exact hsmooth x (by simp [hx])

/-- What asking for the head came to, if not to a head. -/
theorem runs_replayHead_error {tr : ReplayTrace} {e : Exc} (h : Runs replayHead tr (.error e)) :
    ∃ r, tr = [(.call ⟨"eth_blockNumber", []⟩, r)] ∧
      (r = .error e ∨ ∃ v, r = .ok v ∧ hexToInt v = .error e) := by
  obtain ⟨r, rest, rfl, h⟩ := h
  cases r with
  | error e' =>
      cases h.2
      exact ⟨_, by rw [h.1], .inl rfl⟩
  | ok v =>
      obtain ⟨rfl, hv⟩ := Prog.runs_ofExcept.mp h
      exact ⟨_, rfl, .inr ⟨v, rfl, hv.symm⟩⟩

/-- A gap can be announced if the head can be printed. -/
theorem frameOf_gapParts_isOk {n H : Nat} (h : n < H) :
    (∃ frame, frameOf (.ok (gapParts (n + 1) H)) = .ok frame) ↔ strFits H = true := by
  have hfit : (gapParts (n + 1) H).2.2.intsFit = (strFits (n + 1 : Nat) && (strFits H && true)) := rfl
  constructor
  · intro ⟨frame, hframe⟩
    obtain ⟨p, hp, hrender⟩ := bind_eq_ok.mp hframe
    cases hp
    have := (formatEvent_eq_ok.mp hrender).1
    rw [hfit, Bool.and_true, Bool.and_eq_true] at this
    exact this.2
  · intro hH
    refine ⟨_, formatEvent_eq_ok.mpr ⟨?_, rfl⟩⟩
    rw [hfit, hH, strFits_of_le hH (Int.natCast_nonneg _) (Int.ofNat_le.mpr h)]
    rfl

theorem blocksAfter_ne_nil {n H : Nat} (h : n < H) : blocksAfter n H ≠ [] := by
  intro heq
  have hlength := congrArg List.length heq
  rw [blocksAfter, List.length_map, List.length_range', List.length_nil] at hlength
  omega

section

variable {window : Int} {id : String} {n H : Nat} {tr : ReplayTrace} {out : Except Exc Unit}

/-- **What a replay of blocks has told when it is over**, however it ended. -/
theorem replay_told_iff (hid : int? id = some (n : Int))
    (hrun : Runs (replayBlocks window id) tr out) (hhead : ∀ x ∈ tr, HeadIs H (toMoment x))
    (hnum : ∀ x ∈ tr, Numbered (toMoment x)) :
    (blockNumbers (framesOf tr) = blocksAfter n H ∨ H ≤ n ∨ GapWritten (framesOf tr)) ↔
      H ≤ n ∨ (∀ x ∈ tr, Smooth (toMoment x)) ∧ (window < H - n → strFits H = true) := by
  by_cases hle : H ≤ n
  · exact ⟨fun _ => .inl hle, fun _ => .inr (.inl hle)⟩
  have hlt : n < H := Nat.lt_of_not_le hle
  have hempty : ¬ (blockNumbers [] = blocksAfter n H ∨ H ≤ n ∨ GapWritten []) := by
    rintro (h | h | ⟨_, _, h⟩)
    · exact blocksAfter_ne_nil hlt h.symm
    · exact hle h
    · cases h
  rw [replayBlocks, hid] at hrun
  rcases Prog.runs_bind.mp hrun with ⟨e, hfailed, -⟩ | ⟨tr₁, tr₂, head, rfl, hasked, hrest⟩
  · -- the head was not to be had
    obtain ⟨r, rfl, hr⟩ := runs_replayHead_error hfailed
    refine iff_of_false hempty ?_
    rintro (h | ⟨hsmooth, -⟩)
    · exact hle h
    · rcases hr with rfl | ⟨v, rfl, hv⟩
      · exact not_smooth_error _ _ (hsmooth _ List.mem_cons_self)
      · rw [hhead _ List.mem_cons_self v rfl] at hv
        cases hv
  obtain ⟨v, hv, rfl⟩ := runs_replayHead.mp hasked
  have heq : head = H := by
    have hH := hhead _ (List.mem_append_left _ List.mem_cons_self) v rfl
    rw [hv] at hH
    cases hH
    rfl
  subst heq
  have hfirst : Smooth (toMoment (.call ⟨"eth_blockNumber", []⟩, .ok v)) := by
    apply smooth_of_ne
    intro k hk
    injection hk with hk
    injection hk with hk
    exact absurd hk (by decide)
  have hsmooth : (∀ x ∈ [(StreamIo.call ⟨"eth_blockNumber", []⟩, Except.ok v)] ++ tr₂,
      Smooth (toMoment x)) ↔ ∀ x ∈ tr₂, Smooth (toMoment x) := by
    constructor
    · exact fun h x hx => h x (List.mem_cons_of_mem _ hx)
    · intro h x hx
      rcases List.mem_cons.mp hx with rfl | hx
      · exact hfirst
      · exact h x hx
  have hframes : framesOf ([(StreamIo.call ⟨"eth_blockNumber", []⟩, Except.ok v)] ++ tr₂)
      = framesOf tr₂ := rfl
  rw [hsmooth, hframes]
  rw [if_neg (by omega)] at hrest
  by_cases hgap : window < (head : Int) - n
  · rw [if_pos hgap, replayFrame_eq] at hrest
    have hok := frameOf_gapParts_isOk hlt
    cases hframe : frameOf (.ok (gapParts (n + 1) head)) with
    | error e =>
        -- the head is too large to print
        rw [hframe] at hrest hok
        rw [hrest.1]
        refine iff_of_false hempty ?_
        rintro (h | ⟨-, hfits⟩)
        · exact hle h
        · obtain ⟨frame, hf⟩ := hok.mpr (hfits hgap)
          cases hf
    | ok frame =>
        rw [hframe] at hrest hok
        obtain ⟨r, rest, rfl, hrest⟩ := hrest
        cases r with
        | error e =>
            rw [hrest.1]
            refine iff_of_false hempty ?_
            rintro (h | ⟨h, -⟩)
            · exact hle h
            · exact not_smooth_error _ _ (h _ List.mem_cons_self)
        | ok w =>
            rw [hrest.1]
            refine iff_of_true (.inr (.inr ?_)) (.inr ⟨?_, fun _ => hok.mp ⟨frame, rfl⟩⟩)
            · rw [frameOf_gapParts hframe]
              exact ⟨_, _, List.mem_cons_self⟩
            · intro x hx
              rw [List.mem_singleton.mp hx]
              exact smooth_of_ne nofun
  · rw [if_neg hgap] at hrest
    have hcount : ((head : Int) - n).toNat = head - n := by omega
    rw [hcount] at hrest
    have hrange := range_written_iff (n := n + 1) hrest
      fun x hx => hnum x (List.mem_append_right _ hx)
    have hnogap := (frames_of_range (n := n + 1) hrest).2
    rw [← hrange, ← blocksAfter]
    constructor
    · rintro (h | h | h)
      · exact .inr ⟨h, fun h' => absurd h' hgap⟩
      · exact absurd h hle
      · exact absurd h hnogap
    · rintro (h | ⟨h, -⟩)
      · exact absurd h hle
      · exact .inl h

end

/-! ### The stream around it

The opening is three writes that must return, and a replay that is over hands on to the live
loop.  Until the first live frame that loop writes heartbeats only, so the run is cut in three.
-/

namespace Stream

variable {s : Stream}

/-- No event has come to the live loop so far. -/
def Quiet (m : Moment) : Prop := ∀ w full, m = .woke w full → ∃ now, w = .timeout now

/-- A moment that calls nothing and writes no event. -/
def Idle : Moment → Prop
  | .woke _ _ => True
  | .returned (.io (.call _)) _ => False
  | .returned (.io (.write (.event _ _ _))) _ => False
  | .returned _ r => r.isOk = true

/-- Out of the closing of a stream there is no way back to its loop. -/
theorem not_run_closing {out : Left} {ms : List Moment} {finished : Bool} :
    ¬ Run s.step unguarded (.closing out) ms (.listening finished) := by
  intro h
  cases h with
  | @cons _ b _ m rest hs _ hrest =>
      rcases live_step (a := .closing out) trivial hs with hb | ⟨r, rfl, out', rfl⟩
      · obtain ⟨op, r, rfl⟩ : ∃ op r, m = .returned op r := by
          cases m with
          | returned op r => exact ⟨op, r, rfl⟩
          | woke w full => cases hs
        obtain ⟨-, rfl⟩ := step_returned hs
        cases r <;> exact absurd hb id
      · cases run_left hrest
        cases hrest

/-- A quiet live loop writes heartbeats. -/
theorem idle_of_quiet {a : At} {ms : List Moment} {finished : Bool}
    (h : Run s.step unguarded a ms (.listening finished)) (hquiet : ∀ m ∈ ms, Quiet m) :
    ((∃ f, a = .listening f) ∨ ∃ f text, a = .writing f (.comment text)) → ∀ m ∈ ms, Idle m := by
  generalize hend : At.listening finished = t at h
  induction h with
  | nil a =>
      intro _ m hm
      cases hm
  | @cons a b t m ms hs _ hrest ih =>
      intro ha
      subst hend
      have hgo := ih (fun m hm => hquiet m (List.mem_cons_of_mem _ hm)) rfl
      have hboth : Idle m ∧ ((∃ f, b = .listening f) ∨ ∃ f text, b = .writing f (.comment text)) := by
        cases m with
        | woke w full =>
            obtain ⟨f, -, rfl⟩ := step_woke hs
            obtain ⟨now, rfl⟩ := hquiet _ List.mem_cons_self w full rfl
            refine ⟨trivial, ?_⟩
            cases full with
            | false => exact .inr ⟨_, _, rfl⟩
            | true => exact absurd hrest not_run_closing
        | returned op r =>
            obtain ⟨haw, rfl⟩ := step_returned hs
            rcases ha with ⟨f, rfl⟩ | ⟨f, text, rfl⟩
            · cases haw
            · cases haw
              cases r with
              | ok v => exact ⟨rfl, .inl ⟨f, rfl⟩⟩
              | error e =>
                  -- a failed write closes the stream
                  have hclosing : ∃ out, s.resume (.writing f (.comment text)) (.error e)
                      = .closing out := by
                    show ∃ out, failed e = .closing out
                    unfold failed
                    split
                    · exact ⟨_, rfl⟩
                    · exact ⟨_, rfl⟩
                  obtain ⟨out, hout⟩ := hclosing
                  rw [hout] at hrest
                  exact absurd hrest not_run_closing
      intro x hx
      rcases List.mem_cons.mp hx with rfl | hx
      · exact hboth.1
      · exact hgo hboth.2 x hx

/-- The moments of a replay that reaches the live loop are the exchanges of a run of it. -/
theorem run_of_enter (p : Replay Unit) {ms : List Moment} {finished : Bool}
    (h : Run s.step unguarded (enter p) ms (.listening finished)) :
    ∃ tr out rest, ms = tr.map toMoment ++ rest ∧ Prog.Runs p tr out ∧
      Run s.step unguarded (.listening false) rest (.listening finished) := by
  induction p generalizing ms with
  | pure a => exact ⟨[], .ok a, ms, rfl, ⟨rfl, rfl⟩, h⟩
  | throw e => exact ⟨[], .error e, ms, rfl, ⟨rfl, rfl⟩, h⟩
  | ask op k ih =>
      cases h with
      | @cons _ b _ m rest hs _ hrest =>
          cases m with
          | woke w full => cases hs
          | returned op' r =>
              obtain ⟨haw, rfl⟩ := step_returned hs
              cases haw
              have hgo : ∀ r' : Reply, s.resume (.replaying op k) (r'.mapError .exception)
                  = enter (k r') → r = r'.mapError .exception →
                  ∃ tr out rest', Moment.returned (.io op) r :: rest = tr.map toMoment ++ rest' ∧
                    Prog.Runs (.ask op k) tr out ∧
                    Run s.step unguarded (.listening false) rest' (.listening finished) := by
                intro r' hnext hr
                subst hr
                have hrest' : Run s.step unguarded (enter (k r')) rest (.listening finished) := by
                  rw [← hnext]
                  exact hrest
                obtain ⟨tr, out, rest', rfl, hruns, hlive⟩ := ih r' hrest'
                exact ⟨(op, r') :: tr, out, rest', rfl, ⟨r', tr, rfl, hruns⟩, hlive⟩
              cases r with
              | ok v => exact hgo (.ok v) rfl rfl
              | error e =>
                  cases e with
                  | exception e => exact hgo (.error e) rfl rfl
                  | cancelled =>
                      -- a cancelled replay leaves the stream
                      have hnil := run_left hrest
                      subst hnil
                      cases hrest

/-- Every run of a replay takes its stream to the live loop. -/
theorem run_enter_of_runs (p : Replay Unit) {tr : ReplayTrace} {out : Except Exc Unit}
    (h : Prog.Runs p tr out) :
    Run s.step unguarded (enter p) (tr.map toMoment) (.listening false) := by
  induction p generalizing tr with
  | pure a =>
      rw [h.1]
      exact .nil _
  | throw e =>
      rw [h.1]
      exact .nil _
  | ask op k ih =>
      obtain ⟨r, rest, rfl, h⟩ := h
      have hstep : s.step (enter (.ask op k)) (toMoment (op, r)) = some (enter (k r)) := by
        cases r with
        | ok v => exact step_of_awaiting rfl
        | error e => exact step_of_awaiting rfl
      exact .cons hstep trivial (ih r h)

/-- The end of an `await` of the opening, on the way to the live loop. -/
theorem opening_moment {a b : At} {op : StreamOp} {ms : List Moment} {finished : Bool}
    (h : Run s.step unguarded a ms (.listening finished)) (ha : s.awaiting a = some op)
    (hok : ∀ v, s.resume a (.ok v) = b) (herror : ∀ r, ∃ out, s.resume a (.error r) = .left out) :
    ∃ v rest, ms = .returned op (.ok v) :: rest ∧
      Run s.step unguarded b rest (.listening finished) := by
  cases h with
  | nil => cases ha
  | @cons _ c _ m rest hs _ hrest =>
      cases m with
      | woke w full =>
          obtain ⟨f, rfl, -⟩ := step_woke hs
          cases ha
      | returned op' r =>
          obtain ⟨haw, rfl⟩ := step_returned hs
          rw [ha] at haw
          cases haw
          cases r with
          | ok v =>
              rw [hok v] at hrest
              exact ⟨v, rest, rfl, hrest⟩
          | error e =>
              obtain ⟨out, hout⟩ := herror e
              rw [hout] at hrest
              have hnil := run_left hrest
              subst hnil
              cases hrest

/-- **A quiet run that replays is its opening, the exchanges of the replay, and heartbeats.** -/
theorem exchanged_of_quiet {ms : List Moment} {finished : Bool} {replay : String → Replay Unit}
    {id : String} (h : Run s.step unguarded .subscribing ms (.listening finished))
    (hquiet : ∀ m ∈ ms, Quiet m) (hreplay : s.replay = some replay)
    (hid : s.lastEventId = some id) :
    ∃ before tr out after, ms = before ++ (tr.map toMoment ++ after) ∧
      Prog.Runs (replay id) tr out ∧ (∀ m ∈ before, Idle m) ∧ ∀ m ∈ after, Idle m := by
  obtain ⟨v₁, ms₁, rfl, h₁⟩ := opening_moment h rfl (fun _ => rfl) fun _ => ⟨_, rfl⟩
  obtain ⟨v₂, ms₂, rfl, h₂⟩ := opening_moment h₁ rfl (fun _ => rfl) fun _ => ⟨_, rfl⟩
  obtain ⟨v₃, ms₃, rfl, h₃⟩ := opening_moment h₂ rfl (fun _ => rfl) fun _ => ⟨_, rfl⟩
  have hopened : s.opened = enter (replay id) := by
    rw [opened, hid]
    dsimp only
    rw [hreplay]
  replace h₃ : Run s.step unguarded s.opened ms₃ (.listening finished) := h₃
  rw [hopened] at h₃
  obtain ⟨tr, out, after, rfl, hruns, hlive⟩ := run_of_enter _ h₃
  refine ⟨[_, _, _], tr, out, after, rfl, hruns, ?_, ?_⟩
  · intro m hm
    simp only [List.mem_cons, List.not_mem_nil, or_false] at hm
    rcases hm with rfl | rfl | rfl
    · exact rfl
    · exact rfl
    · exact rfl
  · exact idle_of_quiet hlive (fun m hm => hquiet m (by simp [hm])) (.inl ⟨false, rfl⟩)

/-! ### What idle moments do not do

Neither the opening nor a heartbeat calls the upstream or writes an event.  What the theorem
asks of all moments is therefore asked of the exchanges of the replay.
-/

theorem smooth_of_idle {m : Moment} (h : Idle m) : Smooth m := by
  constructor
  · intro op e heq
    subst heq
    cases op with
    | subscribe kind params => exact absurd h nofun
    | prepare => exact absurd h nofun
    | aclose => exact absurd h nofun
    | io op =>
        cases op with
        | call c => exact absurd h id
        | write frame =>
            cases frame with
            | event name id data => exact absurd h not_false
            | retry milliseconds => exact absurd h nofun
            | comment text => exact absurd h nofun
  · intro k v heq
    subst heq
    exact absurd h id

/-- Idle moments write no event. -/
theorem frame?_of_idle {m : Moment} {frame : SseFrame} (h : Idle m) (hf : m.frame? = some frame) :
    frame.blockNumber? = none ∧ ∀ name id data, frame ≠ .event name id data := by
  cases m with
  | woke w full => cases hf
  | returned op r =>
      cases op with
      | subscribe kind params => cases hf
      | prepare => cases hf
      | aclose => cases hf
      | io op =>
          cases op with
          | call c => cases hf
          | write frame' =>
              cases r with
              | error e => cases hf
              | ok v =>
                  injection hf with hf
                  subst hf
                  cases frame' with
                  | event name id data => exact absurd h not_false
                  | retry milliseconds => exact ⟨rfl, nofun⟩
                  | comment text => exact ⟨rfl, nofun⟩

theorem frames_of_idle {ms : List Moment} (h : ∀ m ∈ ms, Idle m) :
    blockNumbers (streamFrames ms) = [] ∧ ¬ GapWritten (streamFrames ms) := by
  constructor
  · apply List.filterMap_eq_nil_iff.mpr
    intro frame hframe
    obtain ⟨m, hm, hf⟩ := List.mem_filterMap.mp hframe
    exact (frame?_of_idle (h m hm) hf).1
  · intro ⟨id, data, hframe⟩
    obtain ⟨m, hm, hf⟩ := List.mem_filterMap.mp hframe
    exact (frame?_of_idle (h m hm) hf).2 _ _ _ rfl

theorem gapWritten_append {frames frames' : List SseFrame} :
    GapWritten (frames ++ frames') ↔ GapWritten frames ∨ GapWritten frames' := by
  constructor
  · intro ⟨id, data, h⟩
    rcases List.mem_append.mp h with h | h
    · exact .inl ⟨id, data, h⟩
    · exact .inr ⟨id, data, h⟩
  · rintro (⟨id, data, h⟩ | ⟨id, data, h⟩)
    · exact ⟨id, data, List.mem_append_left _ h⟩
    · exact ⟨id, data, List.mem_append_right _ h⟩

/-- The live loop is about to write its first event, having exchanged `ms` so far. -/
def FirstLive (s : Stream) (ms : List Moment) : Prop :=
  ∃ finished w full finished' name id data,
    Run s.step unguarded .subscribing ms (.listening finished) ∧ (∀ m ∈ ms, Quiet m) ∧
      s.step (.listening finished) (.woke w full) = some (.writing finished' (.event name id data))

/-- **Before the first live frame, a resumed stream of blocks has written what was missed or
announced a gap exactly if every `await` so far returned, every block asked for was returned and
could be shown, and a head past the window can be printed.** -/
theorem resume_told {window : Int} {id : String} {n H : Nat} {ms : List Moment}
    (hid : int? id = some (n : Int)) (hlive : FirstLive (blocks window (some id)) ms)
    (hhead : ∀ m ∈ ms, HeadIs H m) (hnum : ∀ m ∈ ms, Numbered m) :
    (blockNumbers (streamFrames ms) = blocksAfter n H ∨ H ≤ n ∨ GapWritten (streamFrames ms)) ↔
      H ≤ n ∨ (∀ m ∈ ms, Smooth m) ∧ (window < H - n → strFits H = true) := by
  obtain ⟨finished, -, -, -, -, -, -, hrun, hquiet, -⟩ := hlive
  obtain ⟨before, tr, out, after, rfl, hruns, hbefore, hafter⟩ :=
    exchanged_of_quiet hrun hquiet rfl rfl
  have hmem : ∀ x ∈ tr, toMoment x ∈ before ++ (tr.map toMoment ++ after) := by
    intro x hx
    exact List.mem_append_right _ (List.mem_append_left _ (List.mem_map_of_mem hx))
  have htold := @replay_told_iff window _ _ _ _ _ hid hruns (fun x hx => hhead _ (hmem x hx))
    fun x hx => hnum _ (hmem x hx)
  obtain ⟨hnone, hnogap⟩ := frames_of_idle hbefore
  obtain ⟨hnone', hnogap'⟩ := frames_of_idle hafter
  have hnumbers : blockNumbers (streamFrames (before ++ (tr.map toMoment ++ after)))
      = blockNumbers (framesOf tr) := by
    rw [streamFrames_append, streamFrames_append, streamFrames_map_toMoment, blockNumbers,
      List.filterMap_append, List.filterMap_append]
    show blockNumbers _ ++ (blockNumbers _ ++ blockNumbers _) = _
    rw [hnone, hnone', List.nil_append, List.append_nil]
  have hgap : GapWritten (streamFrames (before ++ (tr.map toMoment ++ after)))
      ↔ GapWritten (framesOf tr) := by
    rw [streamFrames_append, streamFrames_append, streamFrames_map_toMoment, gapWritten_append,
      gapWritten_append]
    constructor
    · rintro (h | h | h)
      · exact absurd h hnogap
      · exact h
      · exact absurd h hnogap'
    · exact fun h => .inr (.inl h)
  have hsmooth : (∀ m ∈ before ++ (tr.map toMoment ++ after), Smooth m)
      ↔ ∀ x ∈ tr, Smooth (toMoment x) := by
    constructor
    · exact fun h x hx => h _ (hmem x hx)
    · intro h m hm
      rcases List.mem_append.mp hm with hm | hm
      · exact smooth_of_idle (hbefore m hm)
      · rcases List.mem_append.mp hm with hm | hm
        · obtain ⟨x, hx, rfl⟩ := List.mem_map.mp hm
          exact h x hx
        · exact smooth_of_idle (hafter m hm)
  rw [hnumbers, hgap, hsmooth]
  exact htold

/-! ### Two runs -/

/-- The response is open. -/
def opening : List Moment :=
  [.returned (.subscribe .newHeads .null) (.ok .null), .returned .prepare (.ok .null),
    .returned (.io (.write (.retry 5000))) (.ok .null)]

/-- A block with no more than its number and its hash. -/
def bareBlock (number hash : String) : Json := .obj [("number", .str number), ("hash", .str hash)]

/-- The header the proxy makes of it. -/
def bareHeader (number : Int) (hash : String) : Json :=
  .obj [("number", .int number), ("hash", .str hash), ("parentHash", .str "0x"),
    ("stateRoot", .str "0x"), ("transactionsRoot", .str "0x"), ("receiptsRoot", .str "0x"),
    ("logsBloom", .str "0x"), ("gasUsed", .int 0), ("gasLimit", .int 0), ("timestamp", .int 0),
    ("miner", .str "0x0000000000000000000000000000000000000000"), ("difficulty", .str "0"),
    ("totalDifficulty", .str "0"), ("extraData", .str "0x"), ("mixHash", .str "0x"),
    ("nonce", .str "0x"), ("size", .int 0)]

/-- Its frame. -/
def bareFrame (number : Int) (id hash : String) : SseFrame :=
  .event "block" (some id) (bareHeader number hash)

/-- Block 6 is asked for, and its reply is `reply`. -/
def asksSix (reply : Json) : ReplayTrace :=
  [(.call ⟨"eth_blockNumber", []⟩, .ok (.str "0x6")), (blockCall 6, .ok reply)]

/-- A stream resumed after block 5 whose first live frame is block 7. -/
theorem firstLive_of_runs {tr : ReplayTrace} {out : Except Exc Unit}
    (h : Prog.Runs (replayBlocks 10 "5") tr out) :
    FirstLive (blocks 10 (some "5")) (opening ++ tr.map toMoment) := by
  have hrun : Run (blocks 10 (some "5")).step unguarded .subscribing (opening ++ tr.map toMoment)
      (.listening false) := by
    refine .cons (t := .preparing) (step_of_awaiting rfl) trivial ?_
    refine .cons (t := .retrying) (step_of_awaiting rfl) trivial ?_
    refine .cons (t := enter (replayBlocks 10 "5")) (step_of_awaiting rfl) trivial ?_
    exact run_enter_of_runs _ h
  have hevent : blockEvent (bareBlock "0x7" "0xb7") = .ok ("block", some "7", bareHeader 7 "0xb7") := by
    decide +kernel
  have hrender : renderParts ("block", some "7", bareHeader 7 "0xb7")
      = .ok (bareFrame 7 "7" "0xb7") := by
    decide +kernel
  have hstep : (blocks 10 (some "5")).step (.listening false)
      (.woke (.item (.event (bareBlock "0x7" "0xb7"))) false)
        = some (.writing false (bareFrame 7 "7" "0xb7")) := by
    show some ((blocks 10 (some "5")).turn false (.event (bareBlock "0x7" "0xb7"))) = _
    unfold turn
    simp only [blocks, hevent, hrender]
    rfl
  refine ⟨false, _, _, _, _, _, _, hrun, ?_, hstep⟩
  intro m hm w full heq
  subst heq
  rcases List.mem_append.mp hm with hm | hm
  · simp [opening] at hm
  · obtain ⟨x, -, hx⟩ := List.mem_map.mp hm
    cases hx

/-- What the upstream says about the head and about blocks in such a run. -/
theorem honest_asksSix (reply : Json) (more : ReplayTrace)
    (hmore : ∀ x ∈ more, ∃ frame v, x = (.write frame, .ok v))
    (hreply : reply = .null ∨ ∃ raw, getItem reply "number" = .ok raw ∧ hexToInt raw = .ok 6) :
    (∀ m ∈ opening ++ (asksSix reply ++ more).map toMoment, HeadIs 6 m)
      ∧ ∀ m ∈ opening ++ (asksSix reply ++ more).map toMoment, Numbered m := by
  have hcases : ∀ m ∈ opening ++ (asksSix reply ++ more).map toMoment, Idle m
      ∨ m = toMoment (.call ⟨"eth_blockNumber", []⟩, .ok (.str "0x6"))
      ∨ m = toMoment (blockCall 6, .ok reply) ∨ ∃ frame v, m = toMoment (.write frame, .ok v) := by
    intro m hm
    simp only [opening, asksSix, List.map_cons, List.cons_append, List.nil_append,
      List.mem_cons] at hm
    rcases hm with rfl | rfl | rfl | rfl | rfl | hm
    · exact .inl rfl
    · exact .inl rfl
    · exact .inl rfl
    · exact .inr (.inl rfl)
    · exact .inr (.inr (.inl rfl))
    · obtain ⟨x, hx, rfl⟩ := List.mem_map.mp hm
      obtain ⟨frame, v, rfl⟩ := hmore x hx
      exact .inr (.inr (.inr ⟨frame, v, rfl⟩))
  constructor
  · intro m hm v heq
    rcases hcases m hm with h | h | h | ⟨frame, w, h⟩
    · subst heq
      exact absurd h id
    · rw [h] at heq
      rw [← (toMoment_ok_eq heq).2]
      rfl
    · rw [h] at heq
      have hcall := (toMoment_ok_eq heq).1
      injection hcall with hcall
      injection hcall with hcall
      exact absurd hcall (by decide)
    · rw [h] at heq
      cases (toMoment_ok_eq heq).1
  · intro m hm k v heq
    rcases hcases m hm with h | h | h | ⟨frame, w, h⟩
    · subst heq
      exact absurd h id
    · rw [h] at heq
      have hcall := (toMoment_ok_eq heq).1
      injection hcall with hcall
      injection hcall with hcall
      exact absurd hcall (by decide)
    · rw [h] at heq
      obtain ⟨hcall, rfl⟩ := toMoment_ok_eq heq
      simp only [blockCall, StreamIo.call.injEq, RpcCall.mk.injEq, List.cons.injEq,
        Json.str.injEq, true_and, and_true, hex_natCast] at hcall
      rw [← toHex_injective hcall]
      exact hreply
    · rw [h] at heq
      cases (toMoment_ok_eq heq).1

/-- The write of block 6. -/
def writesSix : ReplayTrace := [(.write (bareFrame 6 "6" "0xb6"), .ok .null)]

/-- All there is before the live frame. -/
def toldMoments : List Moment :=
  opening ++ (asksSix (bareBlock "0x6" "0xb6") ++ writesSix).map toMoment

/-- Block 6 was written before the live frame of block 7. -/
theorem resume_told_once :
    blockNumbers (streamFrames toldMoments) = blocksAfter 5 6
      ∨ 6 ≤ 5 ∨ GapWritten (streamFrames toldMoments) := by
  have hruns : Prog.Runs (replayBlocks 10 "5") (asksSix (bareBlock "0x6" "0xb6") ++ writesSix)
      (.ok ()) :=
    Prog.runs_of_feed [.ok (.str "0x6"), .ok (bareBlock "0x6" "0xb6"), .ok .null] (by decide +kernel)
  have hhonest := honest_asksSix (bareBlock "0x6" "0xb6") writesSix
    (fun x hx => ⟨_, _, List.mem_singleton.mp hx⟩) (.inr ⟨_, rfl, by decide +kernel⟩)
  have hid : int? "5" = some ((5 : Nat) : Int) := by decide +kernel
  refine (resume_told hid (firstLive_of_runs hruns) hhonest.1 hhonest.2).mpr
    (.inr ⟨?_, fun h => absurd h (by decide)⟩)
  intro m hm
  simp only [opening, asksSix, writesSix, List.map_cons, List.map_nil,
    List.cons_append, List.nil_append, List.mem_cons, List.not_mem_nil, or_false] at hm
  rcases hm with rfl | rfl | rfl | rfl | rfl | rfl
  · exact smooth_of_idle rfl
  · exact smooth_of_idle rfl
  · exact smooth_of_idle rfl
  · apply smooth_of_ne
    intro k hk
    injection hk with hk
    injection hk with hk
    exact absurd hk (by decide)
  · exact smooth_block.mpr ⟨bareFrame 6 "6" "0xb6", by decide +kernel⟩
  · exact smooth_of_ne nofun

/-- Block 6 was not known to the upstream, and nobody was told. -/
theorem resume_untold :
    ¬ ∀ (window : Int) (id : String) (n H : Nat) (ms : List Moment), int? id = some (n : Int) →
      FirstLive (blocks window (some id)) ms → (∀ m ∈ ms, HeadIs H m) → (∀ m ∈ ms, Numbered m) →
      blockNumbers (streamFrames ms) = blocksAfter n H ∨ H ≤ n ∨ GapWritten (streamFrames ms) := by
  intro h
  have hruns : Prog.Runs (replayBlocks 10 "5") (asksSix .null) (.ok ()) :=
    Prog.runs_of_feed [.ok (.str "0x6"), .ok .null] (by decide +kernel)
  have hhonest := honest_asksSix .null [] nofun (.inl rfl)
  have hid : int? "5" = some ((5 : Nat) : Int) := by decide +kernel
  rcases h 10 "5" 5 6 (opening ++ (asksSix .null).map toMoment) hid (firstLive_of_runs hruns)
    hhonest.1 hhonest.2 with h | h | ⟨_, _, h⟩
  · cases h
  · exact absurd h (by decide)
  · simp [streamFrames, opening, asksSix, toMoment, Moment.frame?, blockCall] at h

end Stream

end ExecRestApi
