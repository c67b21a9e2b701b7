/-
What `start` reports.

The event is set by the first connection, or by the first failure if there is to be no other
attempt.  The error that is left is the last one before that, and nothing clears it: once an
attempt has failed, the connection that releases `start` does not keep it from raising.

So the condition is about the attempts alone.  `Follows` has beside the two tasks the outcomes
there have been, and says of the event, the error and the place of `start` what they come to;
it is kept by every step of either task, in whatever order they come.
-/
import ExecRestApi.Lib.Transition
import ExecRestApi.Model.UpstreamStart

namespace ExecRestApi.WsStart

open Transition

/-- The attempts of a run. -/
def attempts (ls : List Op) : List Attempt :=
  ls.filterMap fun
    | .connect attempt => some attempt
    | _ => none

/-- What `start` should report: nothing before a connection is established, unless there is to be
no other attempt and the first has failed; no error once there is a connection; and no error but
for the only attempt. -/
structure Truthful (opts : WsOptions) (tried : List Attempt) (starter : Starter) : Prop where
  notBefore : starter ≠ .waiting →
    .established ∈ tried ∨ opts.reconnect = false ∧ ∃ e, .failed e ∈ tried
  connected : .established ∈ tried → ∀ e, starter ≠ .raised e
  onlyThen : ∀ e, starter = .raised e →
    opts.reconnect = false ∧ ∃ e', tried.head? = some (.failed e')

/-- The first attempt has failed. -/
def FirstFailed (tried : List Attempt) : Prop := ∃ e, tried.head? = some (.failed e)

/-- What the attempts have made of the event and the error, and `start` of these. -/
structure Follows (opts : WsOptions) (tried : List Attempt) (woken : Prop) (s : WsStart) : Prop where
  event : s.connectedEvent = true ↔
    .established ∈ tried ∨ opts.reconnect = false ∧ ∃ e, .failed e ∈ tried
  error : (∃ e, s.firstConnectError = some e) ↔ FirstFailed tried
  /-- a cancelled attempt is the last one -/
  again : s.forever ≠ .ended → .cancelled ∉ tried
  single : opts.reconnect = false → tried.length ≤ 1 ∧ (s.forever = .connecting → tried = [])
  sleeps : ∀ delay, s.forever = .sleeping delay → opts.reconnect = true
  connected : s.forever = .connected → s.connectedEvent = true
  waiting : s.starter = .waiting ↔ ¬ woken
  released : s.starter ≠ .waiting → s.connectedEvent = true
  raised : s.starter ≠ .waiting →
    ((∃ e, s.starter = .raised e) ↔ ∃ e, s.firstConnectError = some e)

section

variable {opts : WsOptions} {tried : List Attempt} {woken : Prop} {s : WsStart}

theorem follows_init (opts : WsOptions) : Follows opts [] False init where
  event := by simp [init]
  error := by simp [init, FirstFailed]
  again := by simp
  single := by simp
  sleeps := by simp [init]
  connected := by simp [init]
  waiting := by simp [init]
  released := by simp [init]
  raised := by simp [init]

/-! ### What the operations do

The loop goes from an attempt to a sleep, to the next attempt, or to its end.  The event is set
once and stays set, and an error is only ever overwritten by a later one.
-/

theorem goOn_of_off (h : opts.reconnect = false) :
    s.goOn opts = { s with connectedEvent := true, forever := .ended } := by
  unfold goOn
  rw [h]
  rfl

/-- With reconnecting only the place of the loop changes. -/
theorem goOn_of_on (h : opts.reconnect = true) : ∃ attempt forever,
    s.goOn opts = { s with attempt := attempt, forever := forever } ∧
      (forever = .ended ∨ ∃ delay, forever = .sleeping delay) := by
  unfold goOn
  rw [h]
  cases opts.backoffSchedule[min s.attempt (opts.backoffSchedule.length - 1)]? with
  | none => exact ⟨s.attempt, .ended, rfl, .inl rfl⟩
  | some delay => exact ⟨s.attempt + 1, .sleeping delay, rfl, .inr ⟨delay, rfl⟩⟩

@[simp] theorem goOn_event : (s.goOn opts).connectedEvent = (s.connectedEvent || !opts.reconnect) := by
  cases hreconnect : opts.reconnect with
  | true =>
      obtain ⟨attempt, forever, heq, -⟩ := goOn_of_on (s := s) hreconnect
      rw [heq]
      simp
  | false => simp [goOn_of_off hreconnect]

@[simp] theorem goOn_error : (s.goOn opts).firstConnectError = s.firstConnectError := by
  cases hreconnect : opts.reconnect with
  | true =>
      obtain ⟨attempt, forever, heq, -⟩ := goOn_of_on (s := s) hreconnect
      rw [heq]
  | false => rw [goOn_of_off hreconnect]

@[simp] theorem goOn_starter : (s.goOn opts).starter = s.starter := by
  cases hreconnect : opts.reconnect with
  | true =>
      obtain ⟨attempt, forever, heq, -⟩ := goOn_of_on (s := s) hreconnect
      rw [heq]
  | false => rw [goOn_of_off hreconnect]

theorem goOn_forever (opts : WsOptions) (s : WsStart) : (s.goOn opts).forever = .ended ∨
    opts.reconnect = true ∧ ∃ delay, (s.goOn opts).forever = .sleeping delay := by
  cases hreconnect : opts.reconnect with
  | true =>
      obtain ⟨attempt, forever, heq, hforever⟩ := goOn_of_on (s := s) hreconnect
      rw [heq]
      exact hforever.imp id fun h => ⟨rfl, h⟩
  | false => exact .inl (by rw [goOn_of_off hreconnect])

/-- After the event an error is not kept. -/
theorem caught_of_event (h : s.connectedEvent = true) (e : Exc) : s.caught e = s := by
  unfold caught
  rw [if_pos h]

/-- One more attempt leaves the first one. -/
theorem firstFailed_append (a : Attempt) :
    FirstFailed (tried ++ [a]) ↔ FirstFailed tried ∨ tried = [] ∧ ∃ e, a = .failed e := by
  cases tried with
  | nil => simp [FirstFailed]
  | cons b rest => simp [FirstFailed]

/-- Before the event there were only failures. -/
theorem Follows.firstFailed (h : Follows opts tried woken s) (hevent : s.connectedEvent = false)
    (hforever : s.forever ≠ .ended) (hne : tried ≠ []) : FirstFailed tried := by
  have hnot : .established ∉ tried := fun hmem => by
    have := h.event.mpr (.inl hmem)
    rw [hevent] at this
    cases this
  cases tried with
  | nil => exact absurd rfl hne
  | cons a rest =>
      cases a with
      | established => exact absurd List.mem_cons_self hnot
      | failed e => exact ⟨e, rfl⟩
      | cancelled => exact absurd List.mem_cons_self (h.again hforever)

theorem Follows.ne_nil_of_event (h : Follows opts tried woken s) (hevent : s.connectedEvent = true) :
    tried ≠ [] := by
  rintro rfl
  rcases h.event.mp hevent with hmem | ⟨-, e, hmem⟩ <;> cases hmem

theorem Follows.established (h : Follows opts tried woken s) (hforever : s.forever = .connecting) :
    Follows opts (tried ++ [.established]) woken
      { s with attempt := 0, connectedEvent := true, forever := .connected } where
  event := iff_of_true rfl (.inl (by simp))
  error := by
    rw [firstFailed_append]
    simpa using h.error
  again _ := by simpa using h.again (by rw [hforever]; nofun)
  single hoff := ⟨by simp [(h.single hoff).2 hforever], nofun⟩
  sleeps := nofun
  connected _ := rfl
  waiting := h.waiting
  released _ := rfl
  raised := h.raised

theorem Follows.failed (h : Follows opts tried woken s) (hforever : s.forever = .connecting) (e : Exc) :
    Follows opts (tried ++ [.failed e]) woken ((s.caught e).goOn opts) where
  event := by
    have hevent := h.event
    cases hreconnect : opts.reconnect with
    | true => simpa [hreconnect, caught] using hevent
    | false => simp [hreconnect]
  error := by
    rw [firstFailed_append, goOn_error]
    cases hevent : s.connectedEvent with
    | true =>
        have hne := h.ne_nil_of_event hevent
        rw [caught_of_event hevent]
        simpa [hne] using h.error
    | false =>
        refine iff_of_true ⟨e, by simp [caught, hevent]⟩ ?_
        by_cases hne : tried = []
        · exact .inr ⟨hne, e, rfl⟩
        · exact .inl (h.firstFailed hevent (by rw [hforever]; nofun) hne)
  again _ := by simpa using h.again (by rw [hforever]; nofun)
  single hoff := by
    refine ⟨by simp [(h.single hoff).2 hforever], fun hconnecting => ?_⟩
    rcases goOn_forever opts (s.caught e) with hended | ⟨-, delay, hsleeping⟩
    · rw [hended] at hconnecting
      cases hconnecting
    · rw [hsleeping] at hconnecting
      cases hconnecting
  sleeps delay hsleeping := by
    rcases goOn_forever opts (s.caught e) with hended | ⟨hon, -⟩
    · rw [hended] at hsleeping
      cases hsleeping
    · exact hon
  connected hconnected := by
    rcases goOn_forever opts (s.caught e) with hended | ⟨-, delay, hsleeping⟩
    · rw [hended] at hconnected
      cases hconnected
    · rw [hsleeping] at hconnected
      cases hconnected
  waiting := by simpa [caught] using h.waiting
  released hstarter := by
    have hevent := h.released (by simpa [caught] using hstarter)
    simp [caught, hevent]
  raised hstarter := by
    have hwaiting : s.starter ≠ .waiting := by simpa [caught] using hstarter
    rw [caught_of_event (h.released hwaiting), goOn_starter, goOn_error]
    exact h.raised hwaiting

theorem Follows.cancelled (h : Follows opts tried woken s) (hforever : s.forever = .connecting) :
    Follows opts (tried ++ [.cancelled]) woken { s with forever := .ended } where
  event := by simpa using h.event
  error := by
    rw [firstFailed_append]
    simpa using h.error
  again hne := absurd rfl hne
  single hoff := ⟨by simp [(h.single hoff).2 hforever], nofun⟩
  sleeps := nofun
  connected := nofun
  waiting := h.waiting
  released := h.released
  raised := h.raised

/-- A connection ends: the event has been set, and nothing else changes for `start`. -/
theorem Follows.disconnected (h : Follows opts tried woken s) (hforever : s.forever = .connected) :
    Follows opts tried woken (s.goOn opts) where
  event := by
    rw [goOn_event, h.connected hforever]
    exact iff_of_true rfl (h.event.mp (h.connected hforever))
  error := by simpa using h.error
  again _ := h.again (by rw [hforever]; nofun)
  single hoff := by
    refine ⟨(h.single hoff).1, fun hconnecting => ?_⟩
    rcases goOn_forever opts s with hended | ⟨-, delay, hsleeping⟩
    · rw [hended] at hconnecting
      cases hconnecting
    · rw [hsleeping] at hconnecting
      cases hconnecting
  sleeps delay hsleeping := by
    rcases goOn_forever opts s with hended | ⟨hon, -⟩
    · rw [hended] at hsleeping
      cases hsleeping
    · exact hon
  connected _ := by simp [h.connected hforever]
  waiting := by simpa using h.waiting
  released _ := by simp [h.connected hforever]
  raised := by simpa using h.raised

theorem Follows.slept (h : Follows opts tried woken s) {delay : Nat}
    (hforever : s.forever = .sleeping delay) :
    Follows opts tried woken { s with forever := .connecting } where
  event := h.event
  error := h.error
  again _ := h.again (by rw [hforever]; nofun)
  single hoff := by
    rw [h.sleeps delay hforever] at hoff
    cases hoff
  sleeps := nofun
  connected := nofun
  waiting := h.waiting
  released := h.released
  raised := h.raised

theorem Follows.ended (h : Follows opts tried woken s) :
    Follows opts tried woken { s with forever := .ended } where
  event := h.event
  error := h.error
  again hne := absurd rfl hne
  single hoff := ⟨(h.single hoff).1, nofun⟩
  sleeps := nofun
  connected := nofun
  waiting := h.waiting
  released := h.released
  raised := h.raised

/-- `start` runs on: it raises the error that was kept. -/
theorem Follows.wakes (h : Follows opts tried woken s) (hevent : s.connectedEvent = true) :
    Follows opts tried True { s with
      starter := match s.firstConnectError with
        | none => .returned
        | some e => .raised e } where
  event := h.event
  error := h.error
  again := h.again
  single := h.single
  sleeps := h.sleeps
  connected := h.connected
  waiting := by cases s.firstConnectError <;> simp
  released _ := hevent
  raised _ := by cases s.firstConnectError <;> simp

end

/-! ### Runs

`start` wakes once the event is set, but it may wake any number of steps later.  In the run
that fails the first attempt fails and the second does not, and `start` raises the error of the
first.
-/

theorem attempts_append_connect (ls : List Op) (a : Attempt) :
    attempts (ls ++ [.connect a]) = attempts ls ++ [a] := by
  simp [attempts]

theorem attempts_append_other (ls : List Op) (l : Op) (h : ∀ a, l ≠ .connect a) :
    attempts (ls ++ [l]) = attempts ls := by
  cases l with
  | connect a => exact absurd rfl (h a)
  | _ => simp [attempts]

/-- **What the tasks share is what the attempts have made of it.** -/
theorem follows_step {opts : WsOptions} (ls : List Op) (s : WsStart) (l : Op) (t : WsStart)
    (h : Follows opts (attempts ls) (.wake ∈ ls) s) (hstep : step opts s l = some t) :
    Follows opts (attempts (ls ++ [l])) (.wake ∈ ls ++ [l]) t := by
  have hwoken : l ≠ .wake → ((Op.wake ∈ ls ++ [l]) = (.wake ∈ ls)) := by
    intro hl
    simp [Ne.symm hl]
  cases l with
  | connect a =>
      rw [attempts_append_connect, hwoken nofun]
      unfold step at hstep
      dsimp only at hstep
      split_ifs at hstep with hforever
      cases a with
      | established =>
          injection hstep with hstep
          rw [← hstep]
          exact h.established hforever
      | failed e =>
          injection hstep with hstep
          rw [← hstep]
          exact h.failed hforever e
      | cancelled =>
          injection hstep with hstep
          rw [← hstep]
          exact h.cancelled hforever
  | disconnect raised =>
      rw [attempts_append_other ls (.disconnect raised) nofun, hwoken nofun]
      unfold step at hstep
      dsimp only at hstep
      split_ifs at hstep with hforever
      cases raised with
      | none =>
          injection hstep with hstep
          rw [← hstep]
          exact h.disconnected hforever
      | some e =>
          injection hstep with hstep
          rw [← hstep, caught_of_event (h.connected hforever)]
          exact h.disconnected hforever
  | cancel =>
      rw [attempts_append_other ls .cancel nofun, hwoken nofun]
      unfold step at hstep
      dsimp only at hstep
      split_ifs at hstep
      injection hstep with hstep
      rw [← hstep]
      exact h.ended
  | slept =>
      rw [attempts_append_other ls .slept nofun, hwoken nofun]
      unfold step at hstep
      dsimp only at hstep
      cases hforever : s.forever with
      | sleeping delay =>
          rw [hforever] at hstep
          injection hstep with hstep
          rw [← hstep]
          exact h.slept hforever
      | _ =>
          rw [hforever] at hstep
          cases hstep
  | wake =>
      rw [attempts_append_other ls .wake nofun, show (Op.wake ∈ ls ++ [.wake]) = True by simp]
      unfold step at hstep
      dsimp only at hstep
      split_ifs at hstep with hready
      have hwakes := h.wakes hready.2
      cases herror : s.firstConnectError with
      | none =>
          rw [herror] at hstep hwakes
          injection hstep with hstep
          rw [← hstep]
          exact hwakes
      | some e =>
          rw [herror] at hstep hwakes
          injection hstep with hstep
          rw [← hstep]
          exact hwakes

theorem follows_run {opts : WsOptions} {ls : List Op} {s : WsStart}
    (h : Run (step opts) unguarded init ls s) : Follows opts (attempts ls) (.wake ∈ ls) s := by
  have hinit : Follows opts (attempts []) (Op.wake ∈ ([] : List Op)) init := by
    have := follows_init opts
    simpa [attempts] using this
  exact h.records (I := fun ls s => Follows opts (attempts ls) (.wake ∈ ls) s)
    (fun ls s l t hI _ hl => follows_step ls s l t hI hl) hinit

/-- **`start` reports the truth** exactly if it has not been woken, or there is no reconnecting, or
the first attempt has not failed. -/
theorem truthful_iff (opts : WsOptions) (ls : List Op) (s : WsStart)
    (h : Run (step opts) unguarded init ls s) : Truthful opts (attempts ls) s.starter ↔
      ¬ (.wake ∈ ls ∧ opts.reconnect = true ∧ FirstFailed (attempts ls)) := by
  have hfollows := follows_run h
  by_cases hwoken : .wake ∈ ls
  · have hwaiting : s.starter ≠ .waiting := fun hw => hfollows.waiting.mp hw hwoken
    have hraised : (∃ e, s.starter = .raised e) ↔ FirstFailed (attempts ls) :=
      (hfollows.raised hwaiting).trans hfollows.error
    have hevent := hfollows.event.mp (hfollows.released hwaiting)
    constructor
    · rintro htruth ⟨-, hon, hfirst⟩
      obtain ⟨e, he⟩ := hraised.mpr hfirst
      rw [(htruth.onlyThen e he).1] at hon
      cases hon
    · intro hnot
      refine ⟨fun _ => hevent, fun hconnected e he => ?_, fun e he => ?_⟩
      · have hfirst := hraised.mp ⟨e, he⟩
        have hoff : opts.reconnect = false := by
          cases hreconnect : opts.reconnect with
          | true => exact absurd ⟨hwoken, hreconnect, hfirst⟩ hnot
          | false => rfl
        obtain ⟨e', hhead⟩ := hfirst
        have hone := (hfollows.single hoff).1
        cases htried : attempts ls with
        | nil =>
            rw [htried] at hhead
            cases hhead
        | cons a rest =>
            rw [htried] at hhead hone hconnected
            have hrest : rest = [] := List.eq_nil_of_length_eq_zero (by simpa using hone)
            injection hhead with hhead
            rw [hrest, hhead] at hconnected
            simp at hconnected
      · have hfirst := hraised.mp ⟨e, he⟩
        refine ⟨?_, hfirst⟩
        cases hreconnect : opts.reconnect with
        | true => exact absurd ⟨hwoken, hreconnect, hfirst⟩ hnot
        | false => rfl
  · refine iff_of_true ⟨fun hne => ?_, fun _ e he => ?_, fun e he => ?_⟩ fun h => hwoken h.1
    · exact absurd (hfollows.waiting.mpr hwoken) hne
    · rw [hfollows.waiting.mpr hwoken] at he
      cases he
    · rw [hfollows.waiting.mpr hwoken] at he
      cases he

/-- The delays of the service. -/
def defaultOptions : WsOptions := ⟨true, [1000, 2000, 5000, 30000]⟩

/-- The upstream is up when the service starts. -/
theorem truthful_iff_early : Truthful defaultOptions [.established] .returned :=
  (truthful_iff defaultOptions [.connect .established, .wake] ⟨true, none, 0, .connected, .returned⟩
    (run_of_exec (by decide))).mpr fun ⟨_, _, e, he⟩ => by cases he

/-- The upstream is not up yet when the service starts. -/
def lateUpstream : List Op :=
  [.connect (.failed .other), .slept, .connect .established, .wake]

/-- The state `start` is left in then. -/
def lateState : WsStart := ⟨true, some .other, 0, .connected, .raised .other⟩

theorem run_lateUpstream : Run (step defaultOptions) unguarded init lateUpstream lateState :=
  run_of_exec (by decide)

/-- **`start` raises although the connection is established.** -/
theorem not_truthful_late : Run (step defaultOptions) unguarded init lateUpstream lateState ∧
    ¬ Truthful defaultOptions (attempts lateUpstream) lateState.starter :=
  ⟨run_lateUpstream, fun h => absurd rfl (h.connected (by decide) .other)⟩

end ExecRestApi.WsStart
