/-
What a tracker that polls keeps up to date, and for how long.

A round does nothing but take over a number.  The loop goes on exactly if the call ends the way its
callers expect, so what kills it is what escapes `UpstreamClient.call`: a total time that is over
is the nearest of these.

`Survives` is what a reader of `/chain` wants of the tracker: one call in each round, the last
number there was, in the field as in the gauge, and a task that still runs.  `survives_iff`
says when it holds, over every run; the rest of `Keeps` holds in any case.
-/
import ExecRestApi.Lib.Transition
import ExecRestApi.Model.ChainHead
import ExecRestApi.Proofs.UpstreamCall

namespace ExecRestApi.ChainHead

open Py Transition

/-! ### What is expected -/

/-- The number an outcome carries, if it is a well-formed one. -/
def headOf (out : Except Exc Json) : Option Nat :=
  match out with
  | .ok (.str t) => if hexRe t.toList then some (foldDigits 16 0 (t.toList.drop 2)) else none
  | _ => none

section

variable (py : Printing) (depth : Nat) (onCall : Option OnCall)

/-- The outcomes of a run. -/
def outcomes (ls : List Op) : List (Except Exc Json) :=
  ls.filterMap fun
    | .answer id x => some (outcome py depth onCall id x)
    | _ => none

/-- The rounds that have begun. -/
def rounds (ls : List Op) : Nat := 1 + ls.count .elapse

/-- What the loop has kept. -/
structure Keeps (ls : List Op) (s : ChainHead) : Prop where
  calls : s.calls = List.replicate (rounds ls) "eth_blockNumber"
  current : s.current = ((outcomes py depth onCall ls).filterMap headOf).getLast?
  gauge : s.gauge = ((outcomes py depth onCall ls).filterMap headOf).getLast?

/-- The loop survives: one call in each round, and the last number there was. -/
structure Survives (ls : List Op) (s : ChainHead) : Prop extends Keeps py depth onCall ls s where
  running : .stop ∉ ls → s.Running

/-- Every answer is one that a call copes with. -/
def AllTame (ls : List Op) : Prop :=
  ∀ id x, .answer id x ∈ ls → Tame depth (requestBody id "eth_blockNumber" []) x

end

section

variable {py : Printing} {depth : Nat} {onCall : Option OnCall} {ls : List Op} {s : ChainHead}

/-! ### One round

What the loop catches is what the callers of `call` expect of it, and a number that cannot be
decoded raises `EncodingError`, which is caught as well.  That the one is never taken for the
other is `outcome_ne_encodingError`.
-/

/-- What is decoded is what the outcome carries. -/
theorem bind_hexToInt (out : Except Exc Json) :
    (∃ n, headOf out = some n ∧ (out >>= hexToInt) = .ok n) ∨
      headOf out = none ∧ ∃ e, (out >>= hexToInt) = .error e ∧
        (out = .error e ∨ (∃ v, out = .ok v) ∧ ∃ msg, e = .encodingError msg) := by
  cases out with
  | error e => exact .inr ⟨rfl, e, rfl, .inl rfl⟩
  | ok v =>
      show (∃ n, headOf (.ok v) = some n ∧ hexToInt v = .ok n) ∨ headOf (.ok v) = none ∧
        ∃ e, hexToInt v = .error e ∧ _
      unfold headOf hexToInt
      cases v with
      | str t =>
          by_cases hhex : hexRe t.toList = true
          · exact .inl ⟨_, if_pos hhex, if_pos hhex⟩
          · exact .inr ⟨if_neg hhex, _, if_neg hhex, .inr ⟨⟨_, rfl⟩, _, rfl⟩⟩
      | _ => exact .inr ⟨rfl, _, rfl, .inr ⟨⟨_, rfl⟩, _, rfl⟩⟩

/-- A call does not end with an `EncodingError`. -/
theorem outcome_ne_encodingError (py : Printing) (depth : Nat) (onCall : Option OnCall) (id : Nat)
    (x : Exchange) (msg : Msg) :
    outcome py depth onCall id x ≠ .error (.encodingError msg) := by
  unfold outcome upstreamCall
  exact tryCall_ne_encodingError msg

/-- What the loop catches of a call is what callers expect of it. -/
theorem caught_iff {out : Except Exc Json} {e : Exc} (hout : out = .error e)
    (hne : ∀ msg, out ≠ .error (.encodingError msg)) : caught e = true ↔ Ends out := by
  subst hout
  unfold caught Ends
  cases e with
  | encodingError msg => exact absurd rfl (hne msg)
  | _ => simp

/-- A round takes over the number, if there is one, and goes on if the call ends as expected. -/
theorem poll_spec {out : Except Exc Json} (hne : ∀ msg, out ≠ .error (.encodingError msg)) :
    (s.poll out).calls = s.calls ∧ (s.poll out).stopEvent = s.stopEvent ∧
      (s.poll out).current = (headOf out).or s.current ∧
      (s.poll out).gauge = (headOf out).or s.gauge ∧
      ((s.poll out).Running ↔ Ends out) := by
  unfold poll
  rcases bind_hexToInt out with ⟨n, hhead, hdecoded⟩ | ⟨hhead, e, hdecoded, hcases⟩
  · rw [hhead, hdecoded]
    refine ⟨rfl, rfl, rfl, rfl, iff_of_true (.inr rfl) ?_⟩
    cases out with
    | ok v => exact .inl ⟨v, rfl⟩
    | error e => cases hdecoded
  · rw [hhead, hdecoded]
    have hcaught : caught e = true ↔ Ends out := by
      rcases hcases with hout | ⟨⟨v, hv⟩, msg, rfl⟩
      · exact caught_iff hout hne
      · exact iff_of_true rfl (.inl ⟨v, hv⟩)
    dsimp only
    rw [← hcaught]
    by_cases hc : caught e = true
    · rw [if_pos hc]
      exact ⟨rfl, rfl, rfl, rfl, iff_of_true (.inr rfl) hc⟩
    · rw [if_neg hc]
      refine ⟨rfl, rfl, rfl, rfl, iff_of_false ?_ hc⟩
      rintro (h | h) <;> cases h

/-! ### Runs

The state of the tracker is a function of the outcomes there have been.  `Tracks` says which,
step by step, and keeps apart whether the task was stopped, is dead, or goes on.
-/

theorem outcomes_append_answer (id : Nat) (x : Exchange) :
    outcomes py depth onCall (ls ++ [.answer id x]) =
      outcomes py depth onCall ls ++ [outcome py depth onCall id x] := by
  simp [outcomes]

theorem outcomes_append_other (py : Printing) (depth : Nat) (onCall : Option OnCall)
    (ls : List Op) (l : Op) (h : ∀ id x, l ≠ .answer id x) :
    outcomes py depth onCall (ls ++ [l]) = outcomes py depth onCall ls := by
  cases l with
  | answer id x => exact absurd rfl (h id x)
  | _ => simp [outcomes]

theorem rounds_append (l : Op) : rounds (ls ++ [l]) = rounds ls + [l].count .elapse := by
  simp [rounds, List.count_append, Nat.add_assoc]

/-- The last number there is after one more outcome. -/
theorem getLast?_heads (outs : List (Except Exc Json)) (out : Except Exc Json) :
    ((outs ++ [out]).filterMap headOf).getLast? =
      (headOf out).or (outs.filterMap headOf).getLast? := by
  cases hhead : headOf out with
  | none => simp [hhead]
  | some n => simp [hhead]

/-- Everything a run has kept, and when it is still running. -/
structure Tracks (py : Printing) (depth : Nat) (onCall : Option OnCall) (ls : List Op)
    (s : ChainHead) : Prop extends Keeps py depth onCall ls s where
  stopped : .stop ∈ ls → ¬ s.Running
  notStopped : .stop ∉ ls → s.stopEvent = false
  running : .stop ∉ ls → (s.Running ↔ ∀ out ∈ outcomes py depth onCall ls, Ends out)

theorem tracks_start : Tracks py depth onCall [] start where
  calls := rfl
  current := rfl
  gauge := rfl
  stopped := nofun
  notStopped _ := rfl
  running _ := iff_of_true (.inl rfl) nofun

/-- A task that runs has not been stopped. -/
theorem Tracks.not_stop_mem (h : Tracks py depth onCall ls s) (hrunning : s.Running) : .stop ∉ ls :=
  fun hmem => h.stopped hmem hrunning

theorem Tracks.answer (h : Tracks py depth onCall ls s) (hcalling : s.task = .calling) (id : Nat)
    (x : Exchange) :
    Tracks py depth onCall (ls ++ [.answer id x]) (s.poll (outcome py depth onCall id x)) := by
  have hns := h.not_stop_mem (.inl hcalling)
  obtain ⟨hcalls, hstop, hcurrent, hgauge, hrunning⟩ :=
    poll_spec (s := s) (outcome_ne_encodingError py depth onCall id x)
  refine ⟨⟨?_, ?_, ?_⟩, fun hmem => ?_, fun _ => ?_, fun _ => ?_⟩
  · rw [hcalls, h.calls, rounds_append]
    rfl
  · rw [hcurrent, h.current, outcomes_append_answer, getLast?_heads]
  · rw [hgauge, h.gauge, outcomes_append_answer, getLast?_heads]
  · exact absurd (by simpa using hmem) hns
  · rw [hstop]
    exact h.notStopped hns
  · have hbefore := (h.running hns).mp (.inl hcalling)
    rw [hrunning, outcomes_append_answer]
    simp only [List.mem_append, List.mem_singleton, or_imp, forall_and, forall_eq]
    exact ⟨fun hends => ⟨hbefore, hends⟩, And.right⟩

theorem Tracks.elapse (h : Tracks py depth onCall ls s) (hpausing : s.task = .pausing) :
    Tracks py depth onCall (ls ++ [.elapse]) s.enter := by
  have hns := h.not_stop_mem (.inr hpausing)
  have henter : s.enter = { s with calls := s.calls ++ ["eth_blockNumber"], task := .calling } := by
    unfold enter
    rw [h.notStopped hns]
    rfl
  have houts := outcomes_append_other py depth onCall ls .elapse nofun
  rw [henter]
  refine ⟨⟨?_, ?_, ?_⟩, fun hmem => ?_, fun _ => h.notStopped hns, fun _ => ?_⟩
  · dsimp only
    rw [h.calls, rounds_append, List.count_singleton_self, List.replicate_add]
    rfl
  · rw [houts]
    exact h.current
  · rw [houts]
    exact h.gauge
  · exact absurd (by simpa using hmem) hns
  · rw [houts]
    exact iff_of_true (.inl rfl) ((h.running hns).mp (.inr hpausing))

/-- A task that is stopped does not run, and keeps what it has. -/
theorem Tracks.stop (h : Tracks py depth onCall ls s) : Tracks py depth onCall (ls ++ [.stop])
    { s with stopEvent := true, task := if s.Running then .cancelled else s.task } := by
  have houts := outcomes_append_other py depth onCall ls .stop nofun
  refine ⟨⟨?_, ?_, ?_⟩, fun _ => ?_, fun hns => ?_, fun hns => ?_⟩
  · dsimp only
    rw [h.calls, rounds_append]
    rfl
  · rw [houts]
    exact h.current
  · rw [houts]
    exact h.gauge
  · by_cases hrunning : s.Running
    · rw [if_pos hrunning]
      rintro (hcalling | hpausing)
      · cases hcalling
      · cases hpausing
    · rw [if_neg hrunning]
      exact hrunning
  · exact absurd (by simp) hns
  · exact absurd (by simp) hns

theorem tracks_step (ls : List Op) (s : ChainHead) (l : Op) (t : ChainHead)
    (h : Tracks py depth onCall ls s) (hstep : step py depth onCall s l = some t) :
    Tracks py depth onCall (ls ++ [l]) t := by
  unfold step at hstep
  cases l with
  | answer id x =>
      dsimp only at hstep
      split_ifs at hstep with hcalling
      injection hstep with hstep
      rw [← hstep]
      exact h.answer hcalling id x
  | elapse =>
      dsimp only at hstep
      split_ifs at hstep with hpausing
      injection hstep with hstep
      rw [← hstep]
      exact h.elapse hpausing
  | stop =>
      injection hstep with hstep
      rw [← hstep]
      exact h.stop

/-- **A round takes over what it has been told**, in every run. -/
theorem tracks_run (h : Run (step py depth onCall) unguarded start ls s) :
    Tracks py depth onCall ls s :=
  h.records (I := Tracks py depth onCall)
    (fun ls s l t hI _ hl => tracks_step ls s l t hI hl) tracks_start

/-- The calls of a run end as expected exactly if every answer is one they cope with. -/
theorem forall_ends_iff : (∀ out ∈ outcomes py depth onCall ls, Ends out) ↔ AllTame depth ls := by
  have hends : ∀ id x, Ends (outcome py depth onCall id x) ↔
      Tame depth (requestBody id "eth_blockNumber" []) x := fun id x => ends_iff py depth _ x
  constructor
  · intro h id x hmem
    exact (hends id x).mp (h _ (List.mem_filterMap.mpr ⟨_, hmem, rfl⟩))
  · intro h out hmem
    obtain ⟨l, hl, hout⟩ := List.mem_filterMap.mp hmem
    cases l with
    | answer id x =>
        cases hout
        exact (hends id x).mpr (h id x hl)
    | _ => cases hout

end

/-- **The loop survives** exactly if it has been stopped, or a call copes with every answer. -/
theorem survives_iff (py : Printing) (depth : Nat) (onCall : Option OnCall) (ls : List Op)
    (s : ChainHead) (h : Run (step py depth onCall) unguarded start ls s) :
    Survives py depth onCall ls s ↔ .stop ∈ ls ∨ AllTame depth ls := by
  have htracks := tracks_run h
  by_cases hstop : .stop ∈ ls
  · exact iff_of_true ⟨htracks.toKeeps, fun hns => absurd hstop hns⟩ (.inl hstop)
  · have hrunning := (htracks.running hstop).trans forall_ends_iff
    constructor
    · exact fun hsurvives => .inr (hrunning.mp (hsurvives.running hstop))
    · rintro (hmem | htame)
      · exact absurd hmem hstop
      · exact ⟨htracks.toKeeps, fun _ => hrunning.mpr htame⟩

/-- An upstream that is down for one round. -/
def shortOutage : List Op :=
  [.answer 1 (.response 200 (.text "\x7b\"result\": \"0x9\"\x7d")), .elapse, .answer 2 (.response 503 (.text "")),
    .elapse]

/-- The state it is left in. -/
def afterOutage : ChainHead :=
  ⟨some 9, some 9, false, ["eth_blockNumber", "eth_blockNumber", "eth_blockNumber"], .calling⟩

theorem run_shortOutage :
    Run (step plainPrinting 9 none) unguarded start shortOutage afterOutage :=
  run_of_exec (by decide +kernel)

theorem survives_iff_outage : Survives plainPrinting 9 none shortOutage afterOutage := by
  have hends : ∀ out ∈ outcomes plainPrinting 9 none shortOutage, Ends out := by
    intro out hout
    have houtcomes : outcomes plainPrinting 9 none shortOutage
        = [.ok (.str "0x9"), .error (.upstreamError "upstream HTTP 503")] := by
      decide +kernel
    rw [houtcomes] at hout
    rcases List.mem_cons.mp hout with rfl | hout
    · exact .inl ⟨_, rfl⟩
    · rw [List.mem_singleton.mp hout]
      exact .inr (.inr ⟨_, rfl⟩)
  exact (survives_iff plainPrinting 9 none shortOutage afterOutage run_shortOutage).mpr
    (.inr (forall_ends_iff.mp hends))

/-- An upstream that once takes longer than the total time of a call. -/
def slowOnce : List Op := [.answer 1 (.raised .timeoutError)]

/-- **The task is dead** after one call that is not in time, and no block number was ever there. -/
theorem not_survives_slowOnce :
    Run (step plainPrinting 9 none) unguarded start slowOnce
        ⟨none, none, false, ["eth_blockNumber"], .raised .timeoutError⟩ ∧
      ¬ Survives plainPrinting 9 none slowOnce
        ⟨none, none, false, ["eth_blockNumber"], .raised .timeoutError⟩ :=
  ⟨run_of_exec (by decide +kernel), fun h => absurd (h.running (by decide)) (by decide)⟩

end ExecRestApi.ChainHead
