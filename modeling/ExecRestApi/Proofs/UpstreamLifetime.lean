/-
Stopping the upstream WebSocket, and retrying it.

Three things hold one after the other, and each step keeps them, whoever takes it.

  * From the call of `stop` on the loop is where it can only end, so that no connection is made.
    The socket may still be open, and calls go on as before.
  * From the moment the socket is marked closed, or the loop has left it, no call of `request`
    gets an id.  `Quiet` says so of two states of a socket: the later one is what the steps of
    the callers, the loop and the upstream make of one that is not connected.
  * When `stop` has returned, no future is left that a call could wait for.

The way from one to the next is short: `stops` counts the steps that `stop` waits for.

Until `stop` is called the loop goes round by the schedule.  `Retrying` keeps the number of losses
since there was a connection beside the loop's own counter; the last section puts it on the runs
of the whole, where only `stop` ends a loop that is to reconnect.
-/
import ExecRestApi.Model.UpstreamLifetime
import ExecRestApi.Proofs.Correlation
import ExecRestApi.Proofs.UpstreamStart

namespace ExecRestApi

open Py Transition

/-! ### A socket that is not connected

Calls go on being made on such a socket, and none of them gets further than the first line of
`request`.  Those that were under way end one by one.
-/

namespace UpstreamWs

variable {w w' w'' : UpstreamWs} {c : Nat} {depth : Nat} {op : Op}

/-- A call that has not begun, or was turned away. -/
def Unserved : Call → Prop
  | .fresh => True
  | .raised none e => e = .upstreamWsClosed "ws not connected"
  | _ => False

/-- What is done to a socket that is not connected leaves it so, and serves no call. -/
structure Quiet (w w' : UpstreamWs) : Prop where
  shut : w'.connected = false
  sockets : w'.nextSocket = w.nextSocket
  ids : w'.nextId = w.nextId
  pending : w.pending.entries = [] → w'.pending.entries = []
  unserved : ∀ c, Unserved (w.call c) → Unserved (w'.call c)

theorem Quiet.refl (h : w.connected = false) : Quiet w w :=
  ⟨h, rfl, rfl, id, fun _ => id⟩

theorem Quiet.trans (h : Quiet w w') (h' : Quiet w' w'') : Quiet w w'' where
  shut := h'.shut
  sockets := h'.sockets.trans h.sockets
  ids := h'.ids.trans h.ids
  pending := h'.pending ∘ h.pending
  unserved c := h'.unserved c ∘ h.unserved c

theorem not_unserved_of_inFlight {x : Call} {p : Nat × Int × Nat} (h : x.inFlight = some p) :
    ¬ Unserved x := by
  cases x <;> cases h <;> exact not_false

/-- A step of a call that is under way. -/
theorem unserved_setCall {x : Call} {p : Nat × Int × Nat} (hc : (w.call c).inFlight = some p)
    (j : Nat) (h : Unserved (w.call j)) : Unserved (Function.update w.call c x j) := by
  have hj : j ≠ c := by
    rintro rfl
    exact not_unserved_of_inFlight hc h
  rwa [Function.update_of_ne hj]

theorem Quiet.setCall {x : Call} {p : Nat × Int × Nat} (h : w.connected = false)
    (hc : (w.call c).inFlight = some p) : Quiet w (w.setCall c x) :=
  ⟨h, rfl, rfl, id, unserved_setCall hc⟩

theorem entries_erase_nil {d : Dict Int Nat} (rid : Int) (h : d.entries = []) :
    (d.erase rid).entries = [] := by
  rw [Dict.entries_eq_nil] at h ⊢
  intro k
  rw [Dict.get?_erase, h k]
  exact ite_self none

theorem Quiet.finish {p : Nat × Int × Nat} (h : w.connected = false)
    (hc : (w.call c).inFlight = some p) (rid : Int) (outcome : Except Exc Json) :
    Quiet w (w.finish c rid outcome) :=
  ⟨h, rfl, rfl, entries_erase_nil rid, unserved_setCall hc⟩

theorem Quiet.failPending (h : w.connected = false) (e : Exc) : Quiet w (w.failPending e) :=
  ⟨h, rfl, rfl, fun _ => rfl, fun _ => id⟩

theorem Quiet.disconnected : Quiet w w.disconnected :=
  ⟨rfl, rfl, rfl, fun _ => rfl, fun _ => id⟩

/-- A call finds no open socket. -/
theorem Quiet.request (h : w.connected = false) : Quiet w (w.request c) := by
  have hrequest : w.request c = w.setCall c (.raised none (.upstreamWsClosed "ws not connected")) := by
    unfold UpstreamWs.request
    split
    · rename_i g hsocket hclosed
      rw [UpstreamWs.connected, hsocket, hclosed] at h
      cases h
    · rfl
  rw [hrequest]
  refine ⟨h, rfl, rfl, id, fun j hj => ?_⟩
  show Unserved (Function.update w.call c _ j)
  by_cases hjc : j = c
  · rw [hjc, Function.update_self]
    rfl
  · rwa [Function.update_of_ne hjc]

theorem connected_closed (w : UpstreamWs) : UpstreamWs.connected { w with closed := true } = false := by
  simp [UpstreamWs.connected]

theorem Quiet.close : Quiet w { w with closed := true } :=
  ⟨w.connected_closed, rfl, rfl, id, fun _ => id⟩

theorem Quiet.dispatch (h : w.connected = false) (frame : Frame) : Quiet w (w.dispatch frame) := by
  cases frame with
  | ignored => exact .refl h
  | notification payload => exact .refl h
  | breaks e => exact .close
  | reply rid answer =>
      rw [UpstreamWs.dispatch]
      split
      · exact .refl h
      · split
        · split
          · exact ⟨h, rfl, rfl, id, fun _ => id⟩
          · exact ⟨h, rfl, rfl, id, fun _ => id⟩
          · exact .close
        · exact .refl h

/-- **What happens to a socket that is not connected changes nothing**, but for a new connection. -/
theorem quiet_of_step (hop : op ≠ .connect) (h : w.connected = false)
    (hs : w.step depth op = some w') : Quiet w w' := by
  cases effect_of_step hs with
  | requested hc => exact .request h
  | sent hc => exact .setCall h (by rw [hc]; rfl)
  | sendFailed hc he => exact .finish h (by rw [hc]; rfl) _ _
  | expired hc => exact ⟨h, rfl, rfl, id, fun _ => id⟩
  | resumed hc hf => exact .finish h (by rw [hc]; rfl) _ _
  | connected haway => exact absurd rfl hop
  | @reconnected returned hr =>
      refine ⟨?_, rfl, rfl, id, fun _ => id⟩
      rw [UpstreamWs.connected, Bool.and_eq_false_iff] at h ⊢
      refine h.imp id fun hclosed => ?_
      rw [Bool.not_eq_false'] at hclosed ⊢
      show (w.closed || !returned) = true
      rw [hclosed, Bool.true_or]
  | @delivered raw lost hr hraw =>
      have hquiet := Quiet.dispatch h (readFrame depth raw)
      exact ⟨hquiet.shut, hquiet.sockets, hquiet.ids, hquiet.pending, hquiet.unserved⟩
  | dropped _ _ => exact ⟨h, rfl, rfl, id, fun _ => id⟩
  | noticed _ => exact .close
  | left hr hclosed => exact .disconnected

/-- Only the loop makes a connection. -/
theorem sockets_of_step (hop : op ≠ .connect) (hs : w.step depth op = some w') :
    w'.nextSocket = w.nextSocket := by
  cases effect_of_step hs with
  | requested hc =>
      rw [UpstreamWs.request]
      split <;> rfl
  | connected haway => exact absurd rfl hop
  | delivered hr hraw => exact (dispatch_frame ..).2.2.2.1
  | _ => rfl

/-! ### The end of the calls

Leaving a socket fails what is pending, so that no future waits after it.
-/

/-- No call waits for its future once `_fail_pending` has run. -/
theorem Correlated.done_of_failPending (h : w.Correlated) (e : Exc) {g : Nat} {rid : Int} {f : Nat}
    (hc : (w.call c).inFlight = some (g, rid, f)) : (w.failPending e).future f ≠ .pending := by
  show (if f ∈ w.pending.values ∧ w.future f = .pending then Future.exception e else w.future f) ≠ _
  split
  · rintro ⟨⟩
  · rename_i hnot
    exact fun hf => hnot ⟨Dict.mem_values.mpr ⟨rid, (h.own c g rid f hc hf).1⟩, hf⟩

theorem Correlated.failPending (h : w.Correlated) (e : Exc) : (w.failPending e).Correlated where
  ridBound := h.ridBound
  ridInj := h.ridInj
  futureBound := h.futureBound
  futureInj := h.futureInj
  own c g rid f hc hf := absurd hf (h.done_of_failPending e hc)
  entry rid f hf := by cases hf
  callBound := h.callBound
  socketBound := h.socketBound
  away := h.away

/-! ### The runner

`Effect` lists what a step does to the task of the loop and to `stop`, case by case.  From the
call of `stop` on each case is a step towards the end: `AfterStop` says in which ways the later
state may differ from the earlier one.
-/

@[simp] theorem request_runner (w : UpstreamWs) (c : Nat) : (w.request c).runner = w.runner := by
  unfold UpstreamWs.request
  split <;> rfl

theorem connect_runner (w : UpstreamWs) : w.connect.runner ≠ .away := by
  rw [UpstreamWs.connect]
  dsimp only
  split <;> rintro ⟨⟩

/-- Only the loop takes a step from one connection to the next. -/
theorem away_of_step (hconnect : op ≠ .connect) (hleave : op ≠ .leave)
    (hs : w.step depth op = some w') : w'.runner = .away ↔ w.runner = .away := by
  cases effect_of_step hs with
  | requested hc => rw [request_runner]
  | connected haway => exact absurd rfl hconnect
  | reconnected hr =>
      rw [hr]
      exact ⟨by rintro ⟨⟩, by rintro ⟨⟩⟩
  | @delivered raw lost hr hraw =>
      show (w.dispatch (readFrame depth raw)).runner = .away ↔ _
      rw [(dispatch_frame w _).2.1]
  | left hr hclosed => exact absurd rfl hleave
  | _ => exact Iff.rfl

end UpstreamWs

namespace Lifetime

open UpstreamWs (Quiet Unserved)

variable {depth : Nat} {opts : WsOptions} {s s' : Lifetime}

/-- How the socket, the loop and `stop` fit together. -/
structure Sound (s : Lifetime) : Prop where
  corr : s.ws.Correlated
  away : s.ws.runner = .away ↔ s.loop.forever ≠ .connected
  shut : s.stopper = .joining ∨ s.stopper = .stopped → s.ws.connected = false
  closing : s.stopper = .closing → s.loop.forever = .connected ∨ s.loop.forever = .ended
  stopped : s.stopper = .stopped → s.loop.forever = .ended ∧ s.ws.pending.entries = []

theorem sound_init : init.Sound where
  corr := UpstreamWs.correlated_init
  away := ⟨fun _ => by rintro ⟨⟩, fun _ => rfl⟩
  shut := by rintro (⟨⟨⟩⟩ | ⟨⟨⟩⟩)
  closing := by rintro ⟨⟩
  stopped := by rintro ⟨⟩

/-- What a step can do. -/
inductive Effect (depth : Nat) (opts : WsOptions) (s : Lifetime) : Op → Lifetime → Prop where
  | called {op : UpstreamWs.Op} {ws : UpstreamWs} (hop : ofLoop op = false)
      (hs : s.ws.step depth op = some ws) : Effect depth opts s (.call op) { s with ws := ws }
  | abandoned {c g : Nat} {rid : Int} {f : Nat} (hc : (s.ws.call c).inFlight = some (g, rid, f)) :
      Effect depth opts s (.abandon c) { s with ws := s.ws.finish c rid (.error .other) }
  | abandonedWaiting {c g : Nat} {rid : Int} {f : Nat}
      (hc : (s.ws.call c).inFlight = some (g, rid, f)) :
      Effect depth opts s (.abandon c) { s with
        ws := (s.ws.setFuture f (cancelFuture (s.ws.future f))).finish c rid (.error .other) }
  | established {ws : UpstreamWs} {loop : WsStart} (hlive : s.stopper ≠ .joining)
      (hs : s.ws.step depth .connect = some ws)
      (hloop : s.loop.step (s.options opts) (.connect .established) = some loop) :
      Effect depth opts s (.connect .established) { s with ws := ws, loop := loop }
  | failed {e : Exc} {loop : WsStart} (hlive : s.stopper ≠ .joining)
      (hloop : s.loop.step (s.options opts) (.connect (.failed e)) = some loop) :
      Effect depth opts s (.connect (.failed e)) { s with ws := s.ws.disconnected, loop := loop }
  | reconnected {returned : Bool} {ws : UpstreamWs}
      (hs : s.ws.step depth (.reconnected returned) = some ws) :
      Effect depth opts s (.reconnected returned) { s with ws := ws }
  | delivered {raw : String} {ws : UpstreamWs} (hs : s.ws.step depth (.deliver raw) = some ws) :
      Effect depth opts s (.deliver raw) { s with ws := ws }
  | left {raised : Option Exc} {ws : UpstreamWs} {loop : WsStart}
      (hs : s.ws.step depth .leave = some ws)
      (hloop : s.loop.step (s.options opts) (.disconnect raised) = some loop) :
      Effect depth opts s (.leave raised) { s with ws := ws, loop := loop }
  | slept {loop : WsStart} (hlive : s.stopper ≠ .joining)
      (hloop : s.loop.step opts .slept = some loop) :
      Effect depth opts s .slept (if s.stopping then s.ended else { s with loop := loop })
  | woken {loop : WsStart} (hloop : s.loop.step opts .wake = some loop) :
      Effect depth opts s .wake { s with loop := loop }
  | stopping (hidle : s.stopper = .idle) (hopen : s.ws.connected = true) :
      Effect depth opts s .stop { s with stopper := .closing }
  | stoppingShut (hidle : s.stopper = .idle) (hshut : s.ws.connected = false) :
      Effect depth opts s .stop { s with stopper := .joining }
  | shut (hclosing : s.stopper = .closing) :
      Effect depth opts s .shut { s with ws := { s.ws with closed := true } }
  | closed (hclosing : s.stopper = .closing) (hshut : s.ws.connected = false) :
      Effect depth opts s .closed { s with stopper := .joining }
  | cancelled (hjoining : s.stopper = .joining) :
      Effect depth opts s .cancelled { s.ended with ws := s.ws.disconnected }
  | cancelledAsleep (hjoining : s.stopper = .joining) (hfrom : s.loop.forever ≠ .connected) :
      Effect depth opts s .cancelled s.ended
  | joined (hjoining : s.stopper = .joining) (hended : s.loop.forever = .ended) :
      Effect depth opts s .joined { s with
        ws := s.ws.failPending (.upstreamWsClosed "ws stopped"), stopper := .stopped }

theorem unlessCancelled_eq_some {x : Option Lifetime} (h : s.unlessCancelled x = some s') :
    s.stopper ≠ .joining ∧ x = some s' := by
  rw [unlessCancelled] at h
  split at h
  · cases h
  · rename_i hlive
    exact ⟨hlive, h⟩

/-- After `stop` the loop does not go on. -/
theorem options_reconnect : (s.options opts).reconnect = false ↔ opts.reconnect = false ∨ s.stopper ≠ .idle := by
  show (opts.reconnect && !s.stopping) = false ↔ _
  rw [Bool.and_eq_false_iff, Bool.not_eq_false', stopping, decide_eq_true_iff]

theorem forever_of_connect {o : WsOptions} {l l' : WsStart} {attempt : Attempt}
    (h : l.step o (.connect attempt) = some l') : l.forever = .connecting := by
  by_contra hforever
  cases attempt <;> rw [WsStart.step, if_neg hforever] at h <;> cases h

theorem established_eq {o : WsOptions} {l l' : WsStart}
    (h : l.step o (.connect .established) = some l') :
    l' = { l with attempt := 0, connectedEvent := true, forever := .connected } := by
  have hforever := forever_of_connect h
  rw [WsStart.step, if_pos hforever] at h
  exact (Option.some.inj h).symm

theorem failed_eq {o : WsOptions} {l l' : WsStart} {e : Exc}
    (h : l.step o (.connect (.failed e)) = some l') : l' = (l.caught e).goOn o := by
  have hforever := forever_of_connect h
  rw [WsStart.step, if_pos hforever] at h
  exact (Option.some.inj h).symm

/-- A connection has ended, with an error that is kept or without. -/
theorem disconnect_eq {o : WsOptions} {l l' : WsStart} {raised : Option Exc}
    (h : l.step o (.disconnect raised) = some l') : l.forever = .connected
      ∧ ∃ l₀ : WsStart, l' = l₀.goOn o ∧ l₀.attempt = l.attempt := by
  have hforever : l.forever = .connected := by
    by_contra hforever
    cases raised <;> rw [WsStart.step, if_neg hforever] at h <;> cases h
  refine ⟨hforever, ?_⟩
  cases raised with
  | none =>
      rw [WsStart.step, if_pos hforever] at h
      exact ⟨l, (Option.some.inj h).symm, rfl⟩
  | some e =>
      rw [WsStart.step, if_pos hforever] at h
      exact ⟨l.caught e, (Option.some.inj h).symm, rfl⟩

theorem slept_eq {o : WsOptions} {l l' : WsStart} (h : l.step o .slept = some l') :
    (∃ delay, l.forever = .sleeping delay) ∧ l' = { l with forever := .connecting } := by
  rw [WsStart.step] at h
  split at h
  · rename_i delay hsleeping
    exact ⟨⟨delay, hsleeping⟩, (Option.some.inj h).symm⟩
  · cases h

theorem wake_eq {o : WsOptions} {l l' : WsStart} (h : l.step o .wake = some l') :
    l'.forever = l.forever ∧ l'.attempt = l.attempt := by
  rw [WsStart.step] at h
  split at h
  · split at h <;> cases h <;> exact ⟨rfl, rfl⟩
  · cases h

theorem goOn_not_connected (o : WsOptions) (l : WsStart) : (l.goOn o).forever ≠ .connected := by
  rcases WsStart.goOn_forever o l with h | ⟨-, delay, h⟩
  · rw [h]
    rintro ⟨⟩
  · rw [h]
    rintro ⟨⟩

theorem effect_of_step {op : Op} (hs : s.step depth opts op = some s') : Effect depth opts s op s' := by
  cases op with
  | call op =>
      rw [step] at hs
      split at hs
      · cases hs
      · rename_i hop
        obtain ⟨ws, hws, rfl⟩ := Option.map_eq_some_iff.mp hs
        exact .called (Bool.eq_false_iff.mpr hop) hws
  | abandon c =>
      rw [step] at hs
      split at hs
      · rename_i g rid f hc
        cases hs
        exact .abandoned (by rw [hc]; rfl)
      · rename_i g rid f hc
        cases hs
        exact .abandonedWaiting (by rw [hc]; rfl)
      · cases hs
  | connect attempt =>
      rw [step] at hs
      obtain ⟨hlive, hs⟩ := unlessCancelled_eq_some hs
      cases attempt with
      | established =>
          obtain ⟨ws, hws, hs⟩ := Option.bind_eq_some_iff.mp hs
          obtain ⟨loop, hloop, hs⟩ := Option.bind_eq_some_iff.mp hs
          cases hs
          exact .established hlive hws hloop
      | failed e =>
          obtain ⟨loop, hloop, hs⟩ := Option.bind_eq_some_iff.mp hs
          cases hs
          exact .failed hlive hloop
      | cancelled => cases hs
  | reconnected returned =>
      rw [step] at hs
      obtain ⟨-, hs⟩ := unlessCancelled_eq_some hs
      obtain ⟨ws, hws, rfl⟩ := Option.map_eq_some_iff.mp hs
      exact .reconnected hws
  | deliver raw =>
      rw [step] at hs
      obtain ⟨-, hs⟩ := unlessCancelled_eq_some hs
      obtain ⟨ws, hws, rfl⟩ := Option.map_eq_some_iff.mp hs
      exact .delivered hws
  | leave raised =>
      rw [step] at hs
      obtain ⟨-, hs⟩ := unlessCancelled_eq_some hs
      obtain ⟨ws, hws, hs⟩ := Option.bind_eq_some_iff.mp hs
      obtain ⟨loop, hloop, hs⟩ := Option.bind_eq_some_iff.mp hs
      cases hs
      exact .left hws hloop
  | slept =>
      rw [step] at hs
      obtain ⟨hlive, hs⟩ := unlessCancelled_eq_some hs
      obtain ⟨loop, hloop, rfl⟩ := Option.map_eq_some_iff.mp hs
      exact .slept hlive hloop
  | wake =>
      rw [step] at hs
      obtain ⟨loop, hloop, rfl⟩ := Option.map_eq_some_iff.mp hs
      exact .woken hloop
  | stop =>
      rw [step] at hs
      split at hs
      · rename_i hidle
        cases hs
        split
        · rename_i hopen
          exact .stopping hidle hopen
        · rename_i hshut
          exact .stoppingShut hidle (Bool.eq_false_iff.mpr hshut)
      · cases hs
  | shut =>
      rw [step] at hs
      split at hs
      · rename_i hboth
        cases hs
        exact .shut hboth.1
      · cases hs
  | closed =>
      rw [step] at hs
      split at hs
      · rename_i hboth
        cases hs
        exact .closed hboth.1 hboth.2
      · cases hs
  | cancelled =>
      rw [step] at hs
      split at hs
      · rename_i hjoining
        split at hs
        · cases hs
          exact .cancelled hjoining
        · cases hs
          exact .cancelled hjoining
        · rename_i delay hsleeping
          cases hs
          exact .cancelledAsleep hjoining (by rw [hsleeping]; rintro ⟨⟩)
        · cases hs
      · cases hs
  | joined =>
      rw [step] at hs
      split at hs
      · rename_i hboth
        cases hs
        exact .joined hboth.1 hboth.2
      · cases hs

theorem cancelFuture_ne_pending (x : Future) : cancelFuture x ≠ .pending := by
  cases x <;> rintro ⟨⟩

theorem ofLoop_eq_false {op : UpstreamWs.Op} (h : ofLoop op = false) : op ≠ .connect ∧ op ≠ .leave := by
  constructor
  · rintro rfl
    cases h
  · rintro rfl
    cases h

/-- A socket that nobody reads from is not connected. -/
theorem Sound.disconnected_of_away (h : s.Sound) (haway : s.loop.forever ≠ .connected) :
    s.ws.connected = false := by
  rw [UpstreamWs.connected, h.corr.away (h.away.mpr haway)]
  rfl

/-- A loop that is not cancelled comes out of a connection, or its end, once `stop` is called. -/
theorem Sound.idle_of_loop (h : s.Sound) (hlive : s.stopper ≠ .joining)
    (hconnected : s.loop.forever ≠ .connected) (hended : s.loop.forever ≠ .ended) :
    s.stopper = .idle := by
  cases hstopper : s.stopper with
  | idle => rfl
  | closing => exact absurd (h.closing hstopper) (not_or.mpr ⟨hconnected, hended⟩)
  | joining => exact absurd hstopper hlive
  | stopped => exact absurd (h.stopped hstopper).1 hended

/-- An attempt that nobody has cancelled ends before `stop` is called. -/
theorem Sound.idle_of_connect (h : s.Sound) (hlive : s.stopper ≠ .joining) {o : WsOptions}
    {attempt : Attempt} {loop : WsStart} (hloop : s.loop.step o (.connect attempt) = some loop) :
    s.stopper = .idle := by
  refine h.idle_of_loop hlive ?_ ?_ <;> rw [forever_of_connect hloop] <;> rintro ⟨⟩

/-- What may come of a state in which `stop` has been called. -/
structure AfterStop (s s' : Lifetime) : Prop where
  called : s'.stopper ≠ .idle
  sockets : s'.ws.nextSocket = s.ws.nextSocket
  quiet : s.ws.connected = false → Quiet s.ws s'.ws

theorem AfterStop.refl (hstop : s.stopper ≠ .idle) : AfterStop s s := ⟨hstop, rfl, .refl⟩

theorem AfterStop.trans {t : Lifetime} (h : AfterStop s s') (h' : AfterStop s' t) : AfterStop s t where
  called := h'.called
  sockets := h'.sockets.trans h.sockets
  quiet hshut := (h.quiet hshut).trans (h'.quiet (h.quiet hshut).shut)

/-- **From the call of `stop` on, no step makes a connection**, and none serves a call once the
socket is not connected. -/
theorem Sound.afterStop {op : Op} (h : s.Sound) (hstop : s.stopper ≠ .idle)
    (hs : s.step depth opts op = some s') : AfterStop s s' := by
  have hsocket : ∀ {op : UpstreamWs.Op} {ws : UpstreamWs}, op ≠ .connect →
      s.ws.step depth op = some ws → AfterStop s { s with ws := ws } := by
    intro op ws hop hws
    exact ⟨hstop, UpstreamWs.sockets_of_step hop hws, fun hshut => UpstreamWs.quiet_of_step hop hshut hws⟩
  cases effect_of_step hs with
  | called hop hws => exact hsocket (ofLoop_eq_false hop).1 hws
  | @abandoned c g rid f hc => exact ⟨hstop, rfl, fun hshut => .finish hshut hc rid (.error .other)⟩
  | @abandonedWaiting c g rid f hc =>
      refine ⟨hstop, rfl, fun hshut => ?_⟩
      have hcancel : Quiet s.ws (s.ws.setFuture f (cancelFuture (s.ws.future f))) :=
        ⟨hshut, rfl, rfl, id, fun _ => id⟩
      exact hcancel.trans (.finish hcancel.shut hc rid (.error .other))
  | established hlive hws hloop =>
      exact absurd (h.idle_of_connect hlive hloop) hstop
  | failed hlive hloop => exact ⟨hstop, rfl, fun _ => .disconnected⟩
  | reconnected hws => exact hsocket (by rintro ⟨⟩) hws
  | delivered hws => exact hsocket (by rintro ⟨⟩) hws
  | left hws hloop =>
      have hleft := hsocket (by rintro ⟨⟩) hws
      exact ⟨hstop, hleft.sockets, hleft.quiet⟩
  | slept hlive hloop =>
      split
      · exact ⟨hstop, rfl, .refl⟩
      · exact ⟨hstop, rfl, .refl⟩
  | woken hloop => exact ⟨hstop, rfl, .refl⟩
  | stopping hidle hopen => exact absurd hidle hstop
  | stoppingShut hidle _ => exact absurd hidle hstop
  | shut hclosing => exact ⟨hstop, rfl, fun _ => .close⟩
  | closed hclosing hshut => exact ⟨by rintro ⟨⟩, rfl, .refl⟩
  | cancelled hjoining => exact ⟨hstop, rfl, fun _ => .disconnected⟩
  | cancelledAsleep hjoining hfrom => exact ⟨hstop, rfl, .refl⟩
  | joined hjoining hended => exact ⟨by rintro ⟨⟩, rfl, fun hshut => .failPending hshut _⟩

/-- Only the socket changes. -/
theorem Sound.frame {ws : UpstreamWs} (h : s.Sound)
    (hquiet : s.stopper ≠ .idle → s.ws.connected = false → Quiet s.ws ws)
    (hcorr : ws.Correlated) (haway : ws.runner = .away ↔ s.ws.runner = .away) :
    Sound { s with ws := ws } where
  corr := hcorr
  away := haway.trans h.away
  shut hover := by
    refine (hquiet ?_ (h.shut hover)).shut
    rcases hover with hover | hover <;> rw [show s.stopper = _ from hover] <;> rintro ⟨⟩
  closing := h.closing
  stopped hstopped := by
    refine ⟨(h.stopped hstopped).1, (hquiet ?_ (h.shut (.inr hstopped))).pending (h.stopped hstopped).2⟩
    rw [show s.stopper = _ from hstopped]
    rintro ⟨⟩

/-- The loop comes to another place before `stop` is called. -/
theorem Sound.before {ws : UpstreamWs} {loop : WsStart} (hidle : s.stopper = .idle)
    (hcorr : ws.Correlated) (haway : ws.runner = .away ↔ loop.forever ≠ .connected) :
    Sound { s with ws := ws, loop := loop } where
  corr := hcorr
  away := haway
  shut hover := by
    rw [show s.stopper = _ from hidle] at hover
    rcases hover with hover | hover <;> cases hover
  closing hclosing := by
    rw [hidle] at hclosing
    cases hclosing
  stopped hstopped := by
    rw [hidle] at hstopped
    cases hstopped

/-- **Every step keeps the socket, the loop and `stop` together.** -/
theorem Sound.step {op : Op} (h : s.Sound) (hs : s.step depth opts op = some s') : s'.Sound := by
  have hquiet : s.stopper ≠ .idle → s.ws.connected = false → Quiet s.ws s'.ws :=
    fun hstop => (h.afterStop hstop hs).quiet
  cases effect_of_step hs with
  | called hop hws =>
      obtain ⟨hconnect, hleave⟩ := ofLoop_eq_false hop
      exact h.frame hquiet (h.corr.step hws) (UpstreamWs.away_of_step hconnect hleave hws)
  | @abandoned c g rid f hc => exact h.frame hquiet (h.corr.finish hc (.error .other)) Iff.rfl
  | @abandonedWaiting c g rid f hc =>
      have hcorr := h.corr.setFuture f (cancelFuture_ne_pending (s.ws.future f))
      exact h.frame hquiet (hcorr.finish hc (.error .other)) Iff.rfl
  | established hlive hws hloop =>
      have hidle := h.idle_of_connect hlive hloop
      refine Sound.before hidle (h.corr.step hws) ⟨fun haway => ?_, fun hnot => ?_⟩
      · cases UpstreamWs.effect_of_step hws with
        | connected _ => exact absurd haway (UpstreamWs.connect_runner s.ws)
      · rw [established_eq hloop] at hnot
        exact absurd rfl hnot
  | failed hlive hloop =>
      have hidle := h.idle_of_connect hlive hloop
      refine Sound.before hidle h.corr.disconnected ⟨fun _ => ?_, fun _ => rfl⟩
      rw [failed_eq hloop]
      exact goOn_not_connected _ _
  | reconnected hws =>
      exact h.frame hquiet (h.corr.step hws)
        (UpstreamWs.away_of_step (by rintro ⟨⟩) (by rintro ⟨⟩) hws)
  | delivered hws =>
      exact h.frame hquiet (h.corr.step hws)
        (UpstreamWs.away_of_step (by rintro ⟨⟩) (by rintro ⟨⟩) hws)
  | left hws hloop =>
      obtain ⟨hfrom, l₀, rfl, -⟩ := disconnect_eq hloop
      have hshut : ∀ ws : UpstreamWs, s.ws.step depth .leave = some ws →
          ws.connected = false ∧ ws.runner = .away := by
        intro ws hws
        cases UpstreamWs.effect_of_step hws with
        | left _ _ => exact ⟨rfl, rfl⟩
      refine ⟨h.corr.step hws, ⟨fun _ => goOn_not_connected _ _, fun _ => (hshut _ hws).2⟩,
        fun _ => (hshut _ hws).1, fun hclosing => .inr ?_, fun hstopped => ?_⟩
      · have hoff : (s.options opts).reconnect = false :=
          options_reconnect.mpr (.inr (by rw [show s.stopper = _ from hclosing]; rintro ⟨⟩))
        show (l₀.goOn (s.options opts)).forever = .ended
        rw [WsStart.goOn_of_off hoff]
      · have hended := (h.stopped hstopped).1
        rw [hfrom] at hended
        cases hended
  | slept hlive hloop =>
      obtain ⟨⟨delay, hfrom⟩, rfl⟩ := slept_eq hloop
      have hidle : s.stopper = .idle := by
        refine h.idle_of_loop hlive ?_ ?_ <;> rw [hfrom] <;> rintro ⟨⟩
      rw [if_neg (by simp [Lifetime.stopping, hidle])]
      refine Sound.before hidle h.corr (h.away.trans ⟨fun _ => by rintro ⟨⟩, fun _ => ?_⟩)
      rw [hfrom]
      rintro ⟨⟩
  | woken hloop =>
      obtain ⟨hforever, -⟩ := wake_eq hloop
      exact ⟨h.corr, by rw [h.away, hforever], h.shut, by rw [hforever]; exact h.closing,
        by rw [hforever]; exact h.stopped⟩
  | stopping hidle hopen =>
      refine ⟨h.corr, h.away, by rintro (⟨⟨⟩⟩ | ⟨⟨⟩⟩), fun _ => .inl ?_, by rintro ⟨⟩⟩
      by_contra hnot
      rw [h.disconnected_of_away hnot] at hopen
      cases hopen
  | stoppingShut hidle hshut =>
      exact ⟨h.corr, h.away, fun _ => hshut, by rintro ⟨⟩, by rintro ⟨⟩⟩
  | shut hclosing =>
      exact ⟨h.corr.setRunner id, h.away, fun _ => s.ws.connected_closed, h.closing, h.stopped⟩
  | closed hclosing hshut =>
      exact ⟨h.corr, h.away, fun _ => hshut, by rintro ⟨⟩, by rintro ⟨⟩⟩
  | cancelled hjoining =>
      exact ⟨h.corr.disconnected, ⟨fun _ => by rintro ⟨⟩, fun _ => rfl⟩, fun _ => rfl,
        fun _ => .inr rfl, fun hstopped => by cases hjoining.symm.trans hstopped⟩
  | cancelledAsleep hjoining hfrom =>
      exact ⟨h.corr, h.away.trans ⟨fun _ => by rintro ⟨⟩, fun _ => hfrom⟩, h.shut,
        fun _ => .inr rfl, fun hstopped => by cases hjoining.symm.trans hstopped⟩
  | joined hjoining hended =>
      exact ⟨h.corr.failPending _, h.away, fun _ => h.shut (.inl hjoining), by rintro ⟨⟩,
        fun _ => ⟨hended, rfl⟩⟩

theorem sound_of_run {ls : List Op} (h : Run (step depth opts) unguarded init ls s) : s.Sound :=
  h.preserves (fun _ _ _ hs _ hstep => hs.step hstep) sound_init

theorem afterStop_of_run {ls : List Op} (h : s.Sound) (hstop : s.stopper ≠ .idle)
    (hrun : Run (step depth opts) unguarded s ls s') : AfterStop s s' := by
  have hlater : s'.Sound ∧ AfterStop s s' := by
    refine hrun.preserves (I := fun t => t.Sound ∧ AfterStop s t) ?_ ⟨h, .refl hstop⟩
    rintro t l t' ⟨ht, hstopping⟩ - hstep
    exact ⟨ht.step hstep, hstopping.trans (ht.afterStop hstopping.called hstep)⟩
  exact hlater.2

/-! ### `stop` comes to its end

Nothing but `stop` itself is needed: the socket is marked closed, `close` returns, the cancelled
loop ends, and the task is joined.  Each of these is enabled where `stop` waits for it. -/

/-- What `stop` waits for. -/
def ofStop : Op → Bool
  | .shut => true
  | .closed => true
  | .cancelled => true
  | .joined => true
  | _ => false

/-- With the loop at its end, so is `stop`. -/
theorem stops_ended (hjoining : s.stopper = .joining) (hended : s.loop.forever = .ended) :
    ∃ t, Run (step depth opts) unguarded s [.joined] t ∧ t.stopper = .stopped := by
  have hjoined : s.step depth opts .joined = some { s with
      ws := s.ws.failPending (.upstreamWsClosed "ws stopped"), stopper := .stopped } := by
    rw [step, if_pos ⟨hjoining, hended⟩]
  exact ⟨_, .cons hjoined trivial (.nil _), rfl⟩

theorem stops_joining (hjoining : s.stopper = .joining) :
    ∃ ls t, Run (step depth opts) unguarded s ls t ∧ t.stopper = .stopped
      ∧ ls.length ≤ 2 ∧ ls.all ofStop = true := by
  by_cases hended : s.loop.forever = .ended
  · obtain ⟨t, hrun, ht⟩ := stops_ended hjoining hended
    exact ⟨_, t, hrun, ht, by decide, rfl⟩
  · obtain ⟨t, hcancel, hjoin, hover⟩ : ∃ t, s.step depth opts .cancelled = some t
        ∧ t.stopper = .joining ∧ t.loop.forever = .ended := by
      rw [step, if_pos hjoining]
      cases hforever : s.loop.forever with
      | connecting => exact ⟨_, rfl, hjoining, rfl⟩
      | connected => exact ⟨_, rfl, hjoining, rfl⟩
      | sleeping delay => exact ⟨_, rfl, hjoining, rfl⟩
      | ended => exact absurd hforever hended
    obtain ⟨u, hrun, hu⟩ := stops_ended hjoin hover
    exact ⟨_, u, .cons hcancel trivial hrun, hu, by decide, rfl⟩

theorem stops_closing (hclosing : s.stopper = .closing) (hshut : s.ws.connected = false) :
    ∃ ls t, Run (step depth opts) unguarded s ls t ∧ t.stopper = .stopped
      ∧ ls.length ≤ 3 ∧ ls.all ofStop = true := by
  have hclosed : s.step depth opts .closed = some { s with stopper := .joining } := by
    rw [step, if_pos ⟨hclosing, hshut⟩]
  obtain ⟨ls, t, hrun, ht, hlen, hall⟩ := stops_joining (s := { s with stopper := .joining }) rfl
  exact ⟨_, t, .cons hclosed trivial hrun, ht, Nat.succ_le_succ hlen, hall⟩

/-- **A `stop` that is under way can end**, whatever else has happened, and waits for nothing but
the socket to close and the loop to end. -/
theorem stops (hstop : s.stopper ≠ .idle) :
    ∃ ls t, Run (step depth opts) unguarded s ls t ∧ t.stopper = .stopped
      ∧ ls.length ≤ 4 ∧ ls.all ofStop = true := by
  cases hstopper : s.stopper with
  | idle => exact absurd hstopper hstop
  | closing =>
      cases hopen : s.ws.connected with
      | false =>
          obtain ⟨ls, t, hrun, ht, hlen, hall⟩ := stops_closing hstopper hopen
          exact ⟨ls, t, hrun, ht, Nat.le_succ_of_le hlen, hall⟩
      | true =>
          have hshut : s.step depth opts .shut
              = some { s with ws := { s.ws with closed := true } } := by
            rw [step, if_pos ⟨hstopper, hopen⟩]
          obtain ⟨ls, t, hrun, ht, hlen, hall⟩ :=
            stops_closing (s := { s with ws := { s.ws with closed := true } }) hstopper
              s.ws.connected_closed
          exact ⟨_, t, .cons hshut trivial hrun, ht, Nat.succ_le_succ hlen, hall⟩
  | joining =>
      obtain ⟨ls, t, hrun, ht, hlen, hall⟩ := stops_joining hstopper
      exact ⟨ls, t, hrun, ht, by omega, hall⟩
  | stopped => exact ⟨[], s, .nil s, hstopper, Nat.zero_le 4, rfl⟩

/-- **`stop` is final.**  From the moment it is called, whatever the callers, the loop, the upstream
and `start` do, no connection is made, and at most four steps that nobody can refuse end it.  From
the moment the socket is not connected, which it is not once `stop` awaits the task, no call gets
an id and a call that begins is turned away.  When it has returned the loop has ended, no socket and
nothing pending is left, and every call that is still under way has a future that is done, so that
it waits for nothing. -/
theorem stop_is_final {ls : List Op} (h : Run (step depth opts) unguarded init ls s)
    (hstop : s.stopper ≠ .idle) :
    (∀ ls' s', Run (step depth opts) unguarded s ls' s' → s'.stopper ≠ .idle
        ∧ s'.ws.nextSocket = s.ws.nextSocket
        ∧ (s.ws.connected = false → s'.ws.connected = false ∧ s'.ws.nextId = s.ws.nextId
          ∧ ∀ c, s.ws.call c = .fresh → s'.ws.call c = .fresh
            ∨ s'.ws.call c = .raised none (.upstreamWsClosed "ws not connected")))
      ∧ (s.stopper ≠ .closing → s.ws.connected = false)
      ∧ (∃ ls' t, Run (step depth opts) unguarded s ls' t ∧ t.stopper = .stopped
        ∧ ls'.length ≤ 4 ∧ ls'.all ofStop = true)
      ∧ (s.stopper = .stopped → s.loop.forever = .ended ∧ s.ws.socket = none
        ∧ s.ws.pending.entries = []
        ∧ ∀ c g rid f, (s.ws.call c).inFlight = some (g, rid, f) → s.ws.future f ≠ .pending) := by
  have hsound := sound_of_run h
  refine ⟨fun ls' s' hrun => ?_, fun hclosing => ?_, stops hstop, fun hstopped => ?_⟩
  · have hlater := afterStop_of_run hsound hstop hrun
    refine ⟨hlater.called, hlater.sockets, fun hshut => ?_⟩
    have hquiet := hlater.quiet hshut
    refine ⟨hquiet.shut, hquiet.ids, fun c hc => ?_⟩
    have hunserved : Unserved (s'.ws.call c) := hquiet.unserved c (by rw [hc]; trivial)
    cases hcall : s'.ws.call c with
    | fresh => exact .inl rfl
    | raised rid e =>
        rw [hcall] at hunserved
        cases rid with
        | none => exact .inr (by rw [hunserved])
        | some rid => exact hunserved.elim
    | _ =>
        rw [hcall] at hunserved
        exact hunserved.elim
  · apply hsound.shut
    cases hstopper : s.stopper with
    | idle => exact absurd hstopper hstop
    | closing => exact absurd hstopper hclosing
    | joining => exact .inl rfl
    | stopped => exact .inr rfl
  · obtain ⟨hended, hpending⟩ := hsound.stopped hstopped
    have haway : s.ws.runner = .away := hsound.away.mpr (by rw [hended]; rintro ⟨⟩)
    refine ⟨hended, hsound.corr.away haway, hpending, fun c g rid f hc hf => ?_⟩
    have hget := (hsound.corr.own c g rid f hc hf).1
    rw [Dict.entries_eq_nil.mp hpending rid] at hget
    cases hget

/-- A call waits for its answer when the socket is stopped. -/
private def interrupted : List Op :=
  [.connect .established, .call (.request 0), .call (.sent 0), .stop, .shut, .call (.request 1),
    .closed, .cancelled, .joined]

private def stoppedState : Lifetime :=
  (exec (step 0 WsStart.defaultOptions) init interrupted).getD init

theorem stop_is_final_interrupted : stoppedState.ws.call 0 = .waiting 0 1 0
    ∧ stoppedState.ws.future 0 ≠ .pending := by
  have hrun : Run (step 0 WsStart.defaultOptions) unguarded init interrupted stoppedState :=
    run_of_exec rfl
  exact ⟨rfl, ((stop_is_final hrun (by decide)).2.2.2 rfl).2.2.2 0 0 1 0 rfl⟩

/-- As long as the socket is not marked closed, a call that begins after `stop` still gets an id. -/
example : ((exec (step 0 WsStart.defaultOptions) init
    [.connect .established, .stop, .call (.request 0)]).getD init).ws.call 0 = .sending 0 1 0 := rfl

end Lifetime

/-! ### Retrying

What is said of the loop here is said with the number `n` of the connections and attempts lost since
there was a connection.  `stopped` is what may end a loop that is to reconnect. -/

namespace WsStart

variable {opts o : WsOptions} {stopped stopped' : Prop} {n : Nat} {l l' : WsStart}

/-- How the loop stands with its delays. -/
structure Retrying (opts : WsOptions) (stopped : Prop) (n : Nat) (l : WsStart) : Prop where
  attempt : l.forever ≠ .ended → l.attempt = n
  delay : ∀ d, l.forever = .sleeping d → ∃ m, n = m + 1
    ∧ opts.backoffSchedule[min m (opts.backoffSchedule.length - 1)]? = some d
  ended : l.forever = .ended → opts.reconnect = false ∨ opts.backoffSchedule = [] ∨ stopped

theorem retrying_init (opts : WsOptions) (stopped : Prop) : Retrying opts stopped 0 init where
  attempt _ := rfl
  delay d h := by cases h
  ended h := by cases h

theorem Retrying.mono (h : Retrying opts stopped n l) (hstopped : stopped → stopped') :
    Retrying opts stopped' n l :=
  ⟨h.attempt, h.delay, fun hended => (h.ended hended).imp id (Or.imp id hstopped)⟩

/-- A loop that is stopped. -/
theorem Retrying.over (hended : l.forever = .ended) (hstopped : stopped) :
    Retrying opts stopped n l where
  attempt hne := absurd hended hne
  delay d hd := by
    rw [hended] at hd
    cases hd
  ended _ := .inr (.inr hstopped)

/-- A step that leaves the loop where it is. -/
theorem Retrying.stay (h : Retrying opts stopped n l) (hforever : l'.forever = l.forever)
    (hattempt : l'.attempt = l.attempt) : Retrying opts stopped n l' where
  attempt := by
    rw [hforever, hattempt]
    exact h.attempt
  delay := by
    rw [hforever]
    exact h.delay
  ended := by
    rw [hforever]
    exact h.ended

/-- A connection or an attempt is lost. -/
theorem Retrying.goOn (h : Retrying opts stopped n l) (hforever : l.forever ≠ .ended)
    (hattempt : l'.attempt = l.attempt) (hschedule : o.backoffSchedule = opts.backoffSchedule)
    (hoff : o.reconnect = false → opts.reconnect = false ∨ stopped) :
    Retrying opts stopped (n + 1) (l'.goOn o) := by
  have hlosses : l'.attempt = n := hattempt.trans (h.attempt hforever)
  rw [WsStart.goOn, hschedule, hlosses]
  cases hreconnect : o.reconnect with
  | false =>
      exact ⟨fun hne => absurd rfl hne, fun d hd => (by cases hd),
        fun _ => (hoff hreconnect).imp id .inr⟩
  | true =>
      cases hd : opts.backoffSchedule[min n (opts.backoffSchedule.length - 1)]? with
      | some d =>
          refine ⟨fun _ => rfl, fun d' hd' => ?_, fun hended => (by cases hended)⟩
          cases hd'
          exact ⟨n, rfl, hd⟩
      | none =>
          have hempty : opts.backoffSchedule = [] := by
            rw [List.getElem?_eq_none_iff] at hd
            rw [← List.length_eq_zero_iff]
            omega
          exact ⟨fun hne => absurd rfl hne, fun d hd => (by cases hd), fun _ => .inr (.inl hempty)⟩

end WsStart

namespace Lifetime

variable {depth : Nat} {opts : WsOptions} {s s' : Lifetime}

/-- What a step adds to the connections and attempts lost since there was a connection. -/
def lossesAfter (n : Nat) : Op → Nat
  | .connect .established => 0
  | .connect (.failed _) => n + 1
  | .leave _ => n + 1
  | _ => n

/-- The connections and attempts lost since there was a connection. -/
def losses (ls : List Op) : Nat := ls.foldl lossesAfter 0

theorem losses_snoc (ls : List Op) (l : Op) : losses (ls ++ [l]) = lossesAfter (losses ls) l := by
  rw [losses, List.foldl_append]
  rfl

/-- **Every step keeps the loop at its place in the schedule.** -/
theorem retrying_step {n : Nat} {op : Op} (h : s.loop.Retrying opts (s.stopper ≠ .idle) n)
    (hs : s.step depth opts op = some s') :
    s'.loop.Retrying opts (s'.stopper ≠ .idle) (lossesAfter n op) := by
  cases effect_of_step hs with
  | established hlive hws hloop =>
      rw [established_eq hloop]
      exact ⟨fun _ => rfl, fun d hd => (by cases hd), fun hended => by cases hended⟩
  | failed hlive hloop =>
      rw [failed_eq hloop]
      refine h.goOn ?_ rfl rfl options_reconnect.mp
      rw [forever_of_connect hloop]
      rintro ⟨⟩
  | left hws hloop =>
      obtain ⟨hfrom, l₀, rfl, hattempt⟩ := disconnect_eq hloop
      refine h.goOn ?_ hattempt rfl options_reconnect.mp
      rw [hfrom]
      rintro ⟨⟩
  | slept hlive hloop =>
      obtain ⟨⟨delay, hfrom⟩, rfl⟩ := slept_eq hloop
      split
      · rename_i hstopping
        exact .over rfl (of_decide_eq_true hstopping)
      · refine ⟨fun _ => h.attempt ?_, fun d hd => (by cases hd), fun hended => by cases hended⟩
        rw [hfrom]
        rintro ⟨⟩
  | woken hloop =>
      obtain ⟨hforever, hattempt⟩ := wake_eq hloop
      exact h.stay hforever hattempt
  | stopping hidle hopen => exact h.mono fun _ => by rintro ⟨⟩
  | stoppingShut hidle hshut => exact h.mono fun _ => by rintro ⟨⟩
  | closed hclosing hshut => exact h.mono fun _ => by rintro ⟨⟩
  | cancelled hjoining => exact .over rfl (fun hidle => by cases hjoining.symm.trans hidle)
  | cancelledAsleep hjoining hfrom => exact .over rfl (fun hidle => by cases hjoining.symm.trans hidle)
  | joined hjoining hended => exact h.mono fun _ => by rintro ⟨⟩
  | _ => exact h

/-- **The loop retries for ever, by the schedule.**  After the first loss since there was a
connection it sleeps the first delay, after the next one the second, and so on, the last delay
again and again; with the next connection it begins anew.  It ends only if it is not to reconnect,
has no schedule, or `stop` was called, be it that `stop` cancels it or that it finds `_stopping`
set. -/
theorem retries_by_schedule {ls : List Op} (h : Run (step depth opts) unguarded init ls s) :
    (∀ d, s.loop.forever = .sleeping d → ∃ n, losses ls = n + 1
        ∧ opts.backoffSchedule[min n (opts.backoffSchedule.length - 1)]? = some d)
      ∧ (s.loop.forever = .ended →
        opts.reconnect = false ∨ opts.backoffSchedule = [] ∨ s.stopper ≠ .idle) := by
  have hretrying : s.loop.Retrying opts (s.stopper ≠ .idle) (losses ls) := by
    refine h.recorded (I := fun ls s => s.loop.Retrying opts (s.stopper ≠ .idle) (losses ls)) ?_
      (WsStart.retrying_init opts _)
    intro ls t l t' ht _ hstep
    rw [losses_snoc]
    exact retrying_step ht hstep
  exact ⟨hretrying.delay, hretrying.ended⟩

/-- Two attempts fail after a connection is lost. -/
private def lossy : List Op :=
  [.connect .established, .call (.drop []), .call .notice, .leave none, .slept,
    .connect (.failed .other), .slept, .connect (.failed .other)]

theorem retries_by_schedule_lossy : losses lossy = 3
    ∧ ∃ n, 3 = n + 1 ∧ WsStart.defaultOptions.backoffSchedule[min n 3]? = some 5000 := by
  have hrun : Run (step 0 WsStart.defaultOptions) unguarded init lossy
      ((exec (step 0 WsStart.defaultOptions) init lossy).getD init) := run_of_exec rfl
  exact ⟨rfl, (retries_by_schedule hrun).1 5000 rfl⟩

end Lifetime

end ExecRestApi
