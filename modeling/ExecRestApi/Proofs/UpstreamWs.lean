/-
What one step of the upstream socket can do, and what holds in every state.

The future of a call sits in `_pending` under an id no other call has, until the future is
done or the call is over; and a future that is not done belongs to the socket that is open
now.  Each operation keeps this, and `Correlated.step` puts them together.

`Effect` lists what a step can do, with what was true when it was taken, and `effect_of_step`
is the only place that looks into the operations.  A connection is lost in two stages: the
frames that have come stay to be taken, and the socket is closed when somebody notices.
Neither touches a call, so neither touches the invariant.

The later modules add to this: which response a future holds (`Proofs/Correlation.lean`), what
becomes of the calls when the client is stopped (`Proofs/UpstreamLifetime.lean`), and what the
manager does with the answers (`Proofs/Service.lean`).
-/
import ExecRestApi.Model.UpstreamWs

namespace ExecRestApi

open Py

/-- The socket, the id and the future of a call that is under way. -/
def Call.inFlight : Call → Option (Nat × Int × Nat)
  | .sending g rid f => some (g, rid, f)
  | .waiting g rid f => some (g, rid, f)
  | _ => none

/-- The id of a call. -/
def Call.rid : Call → Option Int
  | .sending _ rid _ => some rid
  | .waiting _ rid _ => some rid
  | .returned rid _ => some rid
  | .raised rid _ => rid
  | .fresh => none

theorem Call.rid_of_inFlight {x : Call} {g : Nat} {rid : Int} {f : Nat}
    (h : x.inFlight = some (g, rid, f)) : x.rid = some rid := by
  cases x <;> cases h <;> rfl

namespace UpstreamWs

/-- Calls, ids, futures and `_pending` fit together. -/
structure Correlated (s : UpstreamWs) : Prop where
  ridBound : ∀ c rid, (s.call c).rid = some rid → rid < s.nextId
  ridInj : ∀ c c' rid, (s.call c).rid = some rid → (s.call c').rid = some rid → c = c'
  futureBound : ∀ c g rid f, (s.call c).inFlight = some (g, rid, f) → f < s.nextFuture
  futureInj : ∀ c c' g g' rid rid' f, (s.call c).inFlight = some (g, rid, f) →
    (s.call c').inFlight = some (g', rid', f) → c = c'
  own : ∀ c g rid f, (s.call c).inFlight = some (g, rid, f) → s.future f = .pending →
    s.pending.get? rid = some f ∧ s.socket = some g
  entry : ∀ rid f, s.pending.get? rid = some f → ∃ c g, (s.call c).inFlight = some (g, rid, f)
  callBound : ∀ c g rid f, (s.call c).inFlight = some (g, rid, f) → g < s.nextSocket
  socketBound : ∀ g, s.socket = some g → g < s.nextSocket
  away : s.runner = .away → s.socket = none

theorem correlated_init : init.Correlated := by
  refine ⟨?_, ?_, ?_, ?_, ?_, ?_, ?_, ?_, ?_⟩
  · intro c rid h
    cases h
  · intro c c' rid h
    cases h
  · intro c g rid f h
    cases h
  · intro c c' g g' rid rid' f h
    cases h
  · intro c g rid f h
    cases h
  · intro rid f h
    cases h
  · intro c g rid f h
    cases h
  · intro g h
    cases h
  · intro _
    rfl

section

variable {s s' : UpstreamWs} {c : Nat}

/-- A call that keeps its socket, its id and its future: so do all. -/
theorem inFlight_setCall {x : Call}
    (hfly : x.inFlight = (s.call c).inFlight) (j : Nat) :
    ((s.setCall c x).call j).inFlight = (s.call j).inFlight := by
  show (Function.update s.call c x j).inFlight = _
  by_cases hj : j = c
  · rw [hj, Function.update_self, hfly]
  · rw [Function.update_of_ne hj]

/-- A step of one call that keeps its id, socket and future. -/
theorem Correlated.setCall (h : s.Correlated) {x : Call} (hrid : x.rid = (s.call c).rid)
    (hfly : x.inFlight = (s.call c).inFlight) : (s.setCall c x).Correlated := by
  have hcall : ∀ j, ((s.setCall c x).call j).rid = (s.call j).rid
      ∧ ((s.setCall c x).call j).inFlight = (s.call j).inFlight := by
    intro j
    show (Function.update s.call c x j).rid = _ ∧ (Function.update s.call c x j).inFlight = _
    by_cases hj : j = c
    · rw [hj, Function.update_self]
      exact ⟨hrid, hfly⟩
    · rw [Function.update_of_ne hj]
      exact ⟨rfl, rfl⟩
  refine ⟨?_, ?_, ?_, ?_, ?_, ?_, ?_, h.socketBound, h.away⟩
  · intro j rid hj
    rw [(hcall j).1] at hj
    exact h.ridBound j rid hj
  · intro j j' rid hj hj'
    rw [(hcall j).1] at hj
    rw [(hcall j').1] at hj'
    exact h.ridInj j j' rid hj hj'
  · intro j g rid f hj
    rw [(hcall j).2] at hj
    exact h.futureBound j g rid f hj
  · intro j j' g g' rid rid' f hj hj'
    rw [(hcall j).2] at hj
    rw [(hcall j').2] at hj'
    exact h.futureInj j j' g g' rid rid' f hj hj'
  · intro j g rid f hj hf
    rw [(hcall j).2] at hj
    exact h.own j g rid f hj hf
  · intro rid f hf
    obtain ⟨j, g, hj⟩ := h.entry rid f hf
    exact ⟨j, g, by rw [(hcall j).2]; exact hj⟩
  · intro j g rid f hj
    rw [(hcall j).2] at hj
    exact h.callBound j g rid f hj

/-- How a call ends. -/
def ending (rid : Int) : Except Exc Json → Call
  | .ok v => .returned rid v
  | .error e => .raised (some rid) e

theorem finish_call (s : UpstreamWs) (c : Nat) (rid : Int) (outcome : Except Exc Json) :
    (s.finish c rid outcome).call c = ending rid outcome := by
  show Function.update s.call c _ c = _
  rw [Function.update_self]
  cases outcome <;> rfl

/-- A call ends. -/
theorem Correlated.finish (h : s.Correlated) {g : Nat} {rid : Int} {f : Nat}
    (hc : (s.call c).inFlight = some (g, rid, f)) (outcome : Except Exc Json) :
    (s.finish c rid outcome).Correlated := by
  have hridc := Call.rid_of_inFlight hc
  have hself : ((s.finish c rid outcome).call c).rid = some rid
      ∧ ((s.finish c rid outcome).call c).inFlight = none := by
    rw [finish_call]
    cases outcome <;> exact ⟨rfl, rfl⟩
  have hother : ∀ j, j ≠ c → (s.finish c rid outcome).call j = s.call j := by
    intro j hj
    exact Function.update_of_ne hj ..
  have hrid : ∀ j, ((s.finish c rid outcome).call j).rid = (s.call j).rid := by
    intro j
    by_cases hj : j = c
    · rw [hj, hself.1, hridc]
    · rw [hother j hj]
  have hfly : ∀ j x, ((s.finish c rid outcome).call j).inFlight = some x →
      j ≠ c ∧ (s.call j).inFlight = some x := by
    intro j x hx
    by_cases hj : j = c
    · rw [hj, hself.2] at hx
      cases hx
    · rw [hother j hj] at hx
      exact ⟨hj, hx⟩
  refine ⟨?_, ?_, ?_, ?_, ?_, ?_, ?_, h.socketBound, h.away⟩
  · intro j r hj
    rw [hrid] at hj
    exact h.ridBound j r hj
  · intro j j' r hj hj'
    rw [hrid] at hj hj'
    exact h.ridInj j j' r hj hj'
  · intro j g' r f' hj
    exact h.futureBound j g' r f' (hfly j _ hj).2
  · intro j j' g' g'' r r' f' hj hj'
    exact h.futureInj j j' g' g'' r r' f' (hfly j _ hj).2 (hfly j' _ hj').2
  · intro j g' r f' hj hf
    obtain ⟨hjc, hj⟩ := hfly j _ hj
    obtain ⟨hown, hg⟩ := h.own j g' r f' hj hf
    refine ⟨?_, hg⟩
    show (s.pending.erase rid).get? r = some f'
    refine Dict.get?_erase_eq_some.mpr ⟨?_, hown⟩
    intro heq
    rw [← heq] at hj
    exact hjc (h.ridInj j c rid (Call.rid_of_inFlight hj) hridc)
  · intro r f' hf
    replace hf : (s.pending.erase rid).get? r = some f' := hf
    obtain ⟨hne, hf⟩ := Dict.get?_erase_eq_some.mp hf
    obtain ⟨j, g', hj⟩ := h.entry r f' hf
    have hjc : j ≠ c := by
      intro heq
      rw [heq, hc] at hj
      cases hj
      exact hne rfl
    exact ⟨j, g', by rw [hother j hjc]; exact hj⟩
  · intro j g' r f' hj
    exact h.callBound j g' r f' (hfly j _ hj).2

/-- A future is done. -/
theorem Correlated.setFuture (h : s.Correlated) (f : Nat) {x : Future} (hx : x ≠ .pending) :
    (s.setFuture f x).Correlated := by
  refine ⟨h.ridBound, h.ridInj, h.futureBound, h.futureInj, ?_, h.entry, h.callBound,
    h.socketBound, h.away⟩
  intro j g rid f' hj hf
  replace hf : Function.update s.future f x f' = .pending := hf
  by_cases hff : f' = f
  · rw [hff, Function.update_self] at hf
    exact absurd hf hx
  · rw [Function.update_of_ne hff] at hf
    exact h.own j g rid f' hj hf

/-- The connection is lost, the socket closes, or the runner goes on reading from it. -/
theorem Correlated.setRunner (h : s.Correlated) {runner : Runner} {lost : Option (List String)}
    {closed : Bool} (haway : runner = .away → s.runner = .away) :
    { s with runner := runner, lost := lost, closed := closed }.Correlated :=
  ⟨h.ridBound, h.ridInj, h.futureBound, h.futureInj, h.own, h.entry, h.callBound, h.socketBound,
    fun hr => h.away (haway hr)⟩

/-- What `_fail_pending` leaves of a future. -/
theorem disconnected_future (s : UpstreamWs) (f : Nat) :
    s.disconnected.future f = if f ∈ s.pending.values ∧ s.future f = .pending then
      .exception (.upstreamWsClosed "ws disconnected") else s.future f := rfl

/-- No call still waits for its future once the socket is gone. -/
theorem Correlated.done_of_disconnected (h : s.Correlated) {g : Nat} {rid : Int} {f : Nat}
    (hc : (s.call c).inFlight = some (g, rid, f)) : s.disconnected.future f ≠ .pending := by
  rw [disconnected_future]
  split
  · nofun
  · rename_i hnot
    intro hf
    refine hnot ⟨?_, hf⟩
    exact Dict.mem_values.mpr ⟨rid, (h.own c g rid f hc hf).1⟩

theorem Correlated.disconnected (h : s.Correlated) : s.disconnected.Correlated := by
  refine ⟨h.ridBound, h.ridInj, h.futureBound, h.futureInj, ?_, ?_, h.callBound, ?_, ?_⟩
  · intro j g rid f hj hf
    exact absurd hf (h.done_of_disconnected hj)
  · intro rid f hf
    cases hf
  · intro g hg
    cases hg
  · intro _
    rfl

theorem Correlated.connect (h : s.Correlated) (haway : s.runner = .away) :
    s.connect.Correlated := by
  have hnone := h.away haway
  refine ⟨h.ridBound, h.ridInj, h.futureBound, h.futureInj, ?_, h.entry, ?_, ?_, ?_⟩
  · intro j g rid f hj hf
    have := (h.own j g rid f hj hf).2
    rw [hnone] at this
    cases this
  · intro j g rid f hj
    exact Nat.lt_succ_of_lt (h.callBound j g rid f hj)
  · intro g hg
    injection hg with hg
    rw [← hg]
    exact Nat.lt_succ_self _
  · intro hr
    replace hr : (if s.connectedEvent then Runner.reconnecting else .reading) = .away := hr
    split at hr <;> cases hr

/-- A call starts on an open socket. -/
theorem Correlated.start (h : s.Correlated) {g : Nat} (hg : s.socket = some g)
    (hfresh : s.call c = .fresh) :
    ({ s with
      nextId := s.nextId + 1
      pending := s.pending.set s.nextId s.nextFuture
      future := Function.update s.future s.nextFuture .pending
      nextFuture := s.nextFuture + 1 }.setCall c (.sending g s.nextId s.nextFuture)).Correlated := by
  have hold : ∀ j rid, j ≠ c → (Function.update s.call c (.sending g s.nextId s.nextFuture) j).rid
      = some rid → (s.call j).rid = some rid ∧ rid < s.nextId := by
    intro j rid hjc hj
    rw [Function.update_of_ne hjc] at hj
    exact ⟨hj, h.ridBound j rid hj⟩
  have hfly : ∀ j g' rid f, (Function.update s.call c (.sending g s.nextId s.nextFuture) j).inFlight
      = some (g', rid, f) → j = c ∧ g' = g ∧ rid = s.nextId ∧ f = s.nextFuture
        ∨ j ≠ c ∧ (s.call j).inFlight = some (g', rid, f) ∧ f < s.nextFuture ∧ rid < s.nextId := by
    intro j g' rid f hj
    by_cases hjc : j = c
    · rw [hjc, Function.update_self] at hj
      cases hj
      exact .inl ⟨hjc, rfl, rfl, rfl⟩
    · rw [Function.update_of_ne hjc] at hj
      exact .inr ⟨hjc, hj, h.futureBound j g' rid f hj,
        h.ridBound j rid (Call.rid_of_inFlight hj)⟩
  refine ⟨?_, ?_, ?_, ?_, ?_, ?_, ?_, h.socketBound, h.away⟩
  · intro j rid hj
    show rid < s.nextId + 1
    by_cases hjc : j = c
    · replace hj : (Function.update s.call c (.sending g s.nextId s.nextFuture) j).rid = some rid := hj
      rw [hjc, Function.update_self] at hj
      cases hj
      omega
    · have := (hold j rid hjc hj).2
      omega
  · intro j j' rid hj hj'
    replace hj : (Function.update s.call c (.sending g s.nextId s.nextFuture) j).rid = some rid := hj
    replace hj' : (Function.update s.call c (.sending g s.nextId s.nextFuture) j').rid = some rid := hj'
    by_cases hjc : j = c <;> by_cases hjc' : j' = c
    · rw [hjc, hjc']
    · have hlt := (hold j' rid hjc' hj').2
      rw [hjc, Function.update_self] at hj
      cases hj
      omega
    · have hlt := (hold j rid hjc hj).2
      rw [hjc', Function.update_self] at hj'
      cases hj'
      omega
    · exact h.ridInj j j' rid (hold j rid hjc hj).1 (hold j' rid hjc' hj').1
  · intro j g' rid f hj
    show f < s.nextFuture + 1
    rcases hfly j g' rid f hj with ⟨-, -, -, hf⟩ | ⟨-, -, hf, -⟩ <;> omega
  · intro j j' g' g'' rid rid' f hj hj'
    rcases hfly j g' rid f hj with ⟨hjc, -, -, hf⟩ | ⟨-, hj, hf, -⟩ <;>
      rcases hfly j' g'' rid' f hj' with ⟨hjc', -, -, hf'⟩ | ⟨-, hj', hf', -⟩
    · rw [hjc, hjc']
    · omega
    · omega
    · exact h.futureInj j j' g' g'' rid rid' f hj hj'
  · intro j g' rid f hj hf
    show (s.pending.set s.nextId s.nextFuture).get? rid = some f ∧ s.socket = some g'
    replace hf : Function.update s.future s.nextFuture .pending f = .pending := hf
    rcases hfly j g' rid f hj with ⟨-, hg', hrid, hff⟩ | ⟨-, hj, hlt, hrid⟩
    · rw [hrid, hff, hg']
      exact ⟨Dict.get?_set_self .., hg⟩
    · rw [Function.update_of_ne (Nat.ne_of_lt hlt)] at hf
      obtain ⟨hown, hsock⟩ := h.own j g' rid f hj hf
      rw [Dict.get?_set_ne _ _ (by omega)]
      exact ⟨hown, hsock⟩
  · intro rid f hf
    replace hf : (s.pending.set s.nextId s.nextFuture).get? rid = some f := hf
    rw [Dict.get?_set] at hf
    split at hf
    · rename_i hrid
      injection hf with hf
      refine ⟨c, g, ?_⟩
      show (Function.update s.call c (.sending g s.nextId s.nextFuture) c).inFlight = _
      rw [Function.update_self, ← hrid, ← hf]
      rfl
    · obtain ⟨j, g', hj⟩ := h.entry rid f hf
      have hjc : j ≠ c := by
        intro heq
        rw [heq, hfresh] at hj
        cases hj
      refine ⟨j, g', ?_⟩
      show (Function.update s.call c _ j).inFlight = _
      rw [Function.update_of_ne hjc]
      exact hj
  · intro j g' rid f hj
    rcases hfly j g' rid f hj with ⟨-, hg', -, -⟩ | ⟨-, hj, -, -⟩
    · rw [hg']
      exact h.socketBound g hg
    · exact h.callBound j g' rid f hj

/-- A call finds no open socket. -/
theorem Correlated.refuse (h : s.Correlated) (hfresh : s.call c = .fresh) (e : Exc) :
    (s.setCall c (.raised none e)).Correlated :=
  h.setCall (by rw [hfresh]; rfl) (by rw [hfresh]; rfl)

theorem Correlated.request (h : s.Correlated) (hfresh : s.call c = .fresh) :
    (s.request c).Correlated := by
  rw [UpstreamWs.request]
  split
  · rename_i g hg hclosed
    exact h.start hg hfresh
  · exact h.refuse hfresh _

/-- `dispatch` sets a future or closes the socket. -/
theorem dispatch_frame (ws : UpstreamWs) (frame : Frame) : (ws.dispatch frame).call = ws.call
    ∧ (ws.dispatch frame).runner = ws.runner ∧ (ws.dispatch frame).socket = ws.socket
    ∧ (ws.dispatch frame).nextSocket = ws.nextSocket ∧ (ws.dispatch frame).nextId = ws.nextId
    ∧ (ws.dispatch frame).connectedEvent = ws.connectedEvent := by
  rw [UpstreamWs.dispatch.eq_def]
  split
  · exact ⟨rfl, rfl, rfl, rfl, rfl, rfl⟩
  · exact ⟨rfl, rfl, rfl, rfl, rfl, rfl⟩
  · exact ⟨rfl, rfl, rfl, rfl, rfl, rfl⟩
  · split
    · exact ⟨rfl, rfl, rfl, rfl, rfl, rfl⟩
    · split
      · split <;> exact ⟨rfl, rfl, rfl, rfl, rfl, rfl⟩
      · exact ⟨rfl, rfl, rfl, rfl, rfl, rfl⟩

theorem Correlated.dispatch (h : s.Correlated) (frame : Frame) : (s.dispatch frame).Correlated := by
  rw [UpstreamWs.dispatch.eq_def]
  split
  · exact h
  · exact h
  · exact h.setRunner id
  · split
    · exact h
    · split
      · split
        · exact h.setFuture _ nofun
        · exact h.setFuture _ nofun
        · exact h.setRunner id
      · exact h

end

/-- What a step can do. -/
inductive Effect (depth : Nat) (s : UpstreamWs) : Op → UpstreamWs → Prop where
  | requested {c : Nat} (hc : s.call c = .fresh) : Effect depth s (.request c) (s.request c)
  | sent {c g : Nat} {rid : Int} {f : Nat} (hc : s.call c = .sending g rid f) :
      Effect depth s (.sent c) (s.setCall c (.waiting g rid f))
  | sendFailed {c g : Nat} {rid : Int} {f : Nat} {e : Exc} (hc : s.call c = .sending g rid f)
      (he : raisedBySend e = true) : Effect depth s (.sendFailed c e) (s.finish c rid (.error e))
  | expired {c g : Nat} {rid : Int} {f : Nat} (hc : s.call c = .waiting g rid f) :
      Effect depth s (.expire c) (s.setFuture f .cancelled)
  | resumed {c g : Nat} {rid : Int} {f : Nat} {outcome : Except Exc Json}
      (hc : s.call c = .waiting g rid f) (hf : Future.outcome (s.future f) = some outcome) :
      Effect depth s (.resume c) (s.finish c rid outcome)
  | connected (h : s.runner = .away) : Effect depth s .connect s.connect
  | reconnected {returned : Bool} (h : s.runner = .reconnecting) :
      Effect depth s (.reconnected returned) (s.reconnected returned)
  | delivered {raw : String} {lost : Option (List String)} (h : s.isReading = true)
      (hraw : s.unreadAfter raw = some lost) :
      Effect depth s (.deliver raw) { s.dispatch (readFrame depth raw) with lost := lost }
  | dropped {unread : List String} (h : s.socket.isSome = true) (hnone : s.lost = none) :
      Effect depth s (.drop unread) { s with lost := some unread }
  | noticed (h : s.lost.isSome = true) : Effect depth s .notice { s with closed := true }
  | left (h : s.runner = .reading) (hclosed : s.closed = true) :
      Effect depth s .leave s.disconnected

theorem effect_of_step {depth : Nat} {s s' : UpstreamWs} {op : Op}
    (hs : s.step depth op = some s') : Effect depth s op s' := by
  cases op with
  | request c =>
      rw [UpstreamWs.step] at hs
      split at hs
      · rename_i hfresh
        cases hs
        exact .requested hfresh
      · cases hs
  | sent c =>
      rw [UpstreamWs.step] at hs
      split at hs
      · rename_i g rid f hc
        cases hs
        exact .sent hc
      · cases hs
  | sendFailed c e =>
      rw [UpstreamWs.step] at hs
      split at hs
      · rename_i g rid f hc
        split at hs
        · rename_i he
          cases hs
          exact .sendFailed hc he
        · cases hs
      · cases hs
  | expire c =>
      rw [UpstreamWs.step] at hs
      split at hs
      · rename_i g rid f hc
        cases hs
        exact .expired hc
      · cases hs
  | resume c =>
      rw [UpstreamWs.step] at hs
      split at hs
      · rename_i g rid f hc
        obtain ⟨outcome, hf, heq⟩ := Option.map_eq_some_iff.mp hs
        rw [← heq]
        exact .resumed hc hf
      · cases hs
  | connect =>
      rw [UpstreamWs.step] at hs
      split at hs
      · rename_i haway
        cases hs
        exact .connected haway
      · cases hs
  | reconnected returned =>
      rw [UpstreamWs.step] at hs
      split at hs
      · rename_i hr
        cases hs
        exact .reconnected hr
      · cases hs
  | deliver raw =>
      rw [UpstreamWs.step] at hs
      split at hs
      · rename_i hr
        obtain ⟨lost, hraw, rfl⟩ := Option.map_eq_some_iff.mp hs
        exact .delivered hr hraw
      · cases hs
  | drop unread =>
      rw [UpstreamWs.step] at hs
      split at hs
      · rename_i hsock
        cases hs
        exact .dropped hsock.1 hsock.2
      · cases hs
  | notice =>
      rw [UpstreamWs.step] at hs
      split at hs
      · rename_i hlost
        cases hs
        exact .noticed hlost
      · cases hs
  | leave =>
      rw [UpstreamWs.step] at hs
      split at hs
      · rename_i hr
        cases hs
        exact .left hr.1 hr.2
      · cases hs

/-- **Every step keeps the correlation.** -/
theorem Correlated.step {depth : Nat} {s s' : UpstreamWs} {op : Op} (h : s.Correlated)
    (hs : s.step depth op = some s') : s'.Correlated := by
  cases effect_of_step hs with
  | requested hc => exact h.request hc
  | sent hc => exact h.setCall (by rw [hc]; rfl) (by rw [hc]; rfl)
  | sendFailed hc _ => exact h.finish (by rw [hc]; rfl) _
  | expired _ => exact h.setFuture _ nofun
  | resumed hc _ => exact h.finish (by rw [hc]; rfl) _
  | connected haway => exact h.connect haway
  | reconnected _ => exact h.setRunner nofun
  | delivered _ _ => exact (h.dispatch _).setRunner id
  | dropped _ _ => exact h.setRunner id
  | noticed _ => exact h.setRunner id
  | left _ _ => exact h.disconnected

end UpstreamWs

end ExecRestApi
