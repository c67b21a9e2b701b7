/-
What holds of the manager and the socket together, in every state.

`Sound` ties the three parts: a task of the manager awaits a call exactly if it has come to
an `await`, the call is under way and was made for what the task asks, and `_run_forever`
awaits `on_reconnect` exactly while that is in progress.  Since nothing reads from the
socket in that time, no call on it has a result (`quiet`).

An `await` of the manager is a call of the socket, so a step of the one may be several of the
other.  `Managed` says what such a segment does to each of the three parts, and the invariants
of the later modules are proved from it without a look into the machines.
-/
import ExecRestApi.Lib.Transition
import ExecRestApi.Model.Service
import ExecRestApi.Proofs.ManagerInvariant
import ExecRestApi.Proofs.UpstreamWs

namespace ExecRestApi

open Py Transition

namespace Manager

/-! ### What a step of the manager does to the requests awaited

A step gives at most one task its turn, and that task alone changes what it awaits.  The
exception is `on_reconnect`, which goes on by itself from slot to slot.
-/

section

variable {connected : Bool} {m m' : Manager} {op : Op}

theorem Approach.runs {k : Nat} {p : Phase} (h : Approach m op k p) :
    Service.runs m op = some (.consumer k) := by
  cases h <;> rfl

theorem AtLock.runs {k : Nat} {rest : List Task} {p : Phase} (h : AtLock m op k rest p) :
    Service.runs m op = some (.consumer k) := by
  rcases h.2 with ⟨hop, hw, -⟩ | ⟨-, -, happ⟩
  · rw [hop, Service.runs, hw]
    rfl
  · exact happ.runs

theorem ReconnectAtLock.runs {rest : List Task} (h : ReconnectAtLock m op rest) :
    Service.runs m op = some .reconnect := by
  rcases h.2 with ⟨hop, hw, -⟩ | ⟨hop, -⟩
  · rw [hop, Service.runs, hw]
    rfl
  · rw [hop]
    rfl

theorem awaits_consumer_congr {k : Nat} (h : m'.phase k = m.phase k) :
    m'.awaits (.consumer k) = m.awaits (.consumer k) := by
  rw [awaits, awaits, h]

theorem awaits_reconnect_eq_none (h : ∀ r rest, m.reconnecting ≠ .resubscribing r rest) :
    m.awaits .reconnect = none := by
  refine Option.eq_none_iff_forall_ne_some.mpr fun call hcall => ?_
  obtain ⟨r, rest, hrc, -⟩ := reconnecting_of_awaits hcall
  exact h r rest hrc

/-- Only the task that runs changes what it awaits. -/
theorem awaits_other (hm : m.WellFormed) (h : Effect connected m op m') {t : Task}
    (ht : Service.runs m op ≠ some t) : m'.awaits t = m.awaits t := by
  -- a step of one call: the phases of the others stay
  have hphase : ∀ {k : Nat} {p : Phase}, Service.runs m op = some (.consumer k) →
      m'.phase = Function.update m.phase k p →
      (m'.awaits .reconnect = m.awaits .reconnect) → m'.awaits t = m.awaits t := by
    intro k p hruns hp hrec
    cases t with
    | reconnect => exact hrec
    | consumer j =>
        apply awaits_consumer_congr
        rw [hp]
        apply Function.update_of_ne
        intro hj
        rw [hruns, hj] at ht
        exact ht rfl
  -- `on_reconnect` awaits nothing while another task has the lock, before and after
  have hoff : ∀ {lock : Option Task}, m.lock = lock → lock ≠ some .reconnect →
      m'.reconnecting = m.reconnecting → m'.awaits .reconnect = m.awaits .reconnect := by
    intro lock hlock hne hrc
    have hnot : ∀ r rest, m.reconnecting ≠ .resubscribing r rest := by
      intro r rest hr
      have hheld := hm.locks.resubscribing hr
      rw [hlock] at hheld
      exact hne hheld
    rw [awaits_reconnect_eq_none hnot, awaits_reconnect_eq_none (by rw [hrc]; exact hnot)]
  have hholds : ∀ {k : Nat} {key : SlotKey} {params : Json}, m.phase k = .subscribing key params →
      m.lock = some (.consumer k) := by
    intro k key params hk
    exact hm.locks.subscribing hk
  -- a step of `on_reconnect`: the phases stay
  have hrec : Service.runs m op = some .reconnect → m'.phase = m.phase →
      m'.awaits t = m.awaits t := by
    intro hruns hp
    cases t with
    | reconnect => exact absurd hruns ht
    | consumer j => exact awaits_consumer_congr (by rw [hp])
  cases h with
  | closedAgain => rfl
  | ignored => rfl
  | refused _ => exact hphase rfl rfl rfl
  | unsubscribed _ => exact hphase rfl rfl rfl
  | waiting hk => exact hphase hk.runs rfl rfl
  | joined hk _ => exact hphase hk.runs rfl (hoff hk.1 nofun rfl)
  | asked hk _ _ => exact hphase hk.runs rfl (hoff hk.1 nofun rfl)
  | turnedAway hk => exact hphase hk.runs rfl (hoff hk.1 nofun rfl)
  | gone hk _ => exact hphase hk.runs rfl (hoff hk.1 nofun rfl)
  | left hk _ _ => exact hphase hk.runs rfl (hoff hk.1 nofun rfl)
  | ended hk _ _ _ => exact hphase hk.runs rfl (hoff hk.1 nofun rfl)
  | created hk _ => exact hphase rfl rfl (hoff (hholds hk) nofun rfl)
  | createdUnhashable hk _ => exact hphase rfl rfl (hoff (hholds hk) nofun rfl)
  | unanswered hk => exact hphase rfl rfl (hoff (hholds hk) nofun rfl)
  | reconnectWaiting _ => exact hrec rfl rfl
  | reconnectStarted hturn => exact hrec hturn.runs rfl
  | notRenewed _ => exact hrec rfl rfl
  | renewed _ _ => exact hrec rfl rfl
  | renewedUnhashable _ _ => exact hrec rfl rfl
  | dispatched _ _ => rfl
  | read _ _ => rfl

/-- Only `on_reconnect` itself moves on. -/
theorem reconnecting_other (h : Effect connected m op m')
    (ht : Service.runs m op ≠ some .reconnect) : m'.reconnecting = m.reconnecting := by
  cases h with
  | reconnectWaiting _ => exact absurd rfl ht
  | reconnectStarted hturn => exact absurd hturn.runs ht
  | notRenewed _ => exact absurd rfl ht
  | renewed _ _ => exact absurd rfl ht
  | renewedUnhashable _ _ => exact absurd rfl ht
  | _ => rfl

theorem stopsAt_resubscribing {rs : List SlotRef} {r : SlotRef} {rest : List SlotRef}
    (h : stopsAt connected rs = .resubscribing r rest) : connected = true := by
  cases connected with
  | true => rfl
  | false => cases h

/-- A task that comes to an `await` finds the socket connected; one that is already there stays
there unless it is answered. -/
theorem awaits_runs (h : Effect connected m op m') {t : Task} {call : RpcCall}
    (ht : Service.runs m op = some t) (hcall : m'.awaits t = some call) :
    connected = true ∨ m'.awaits t = m.awaits t ∧ ∀ outcome, op ≠ .answer t outcome := by
  have hoff : ∀ {k : Nat} {p : Phase}, Service.runs m op = some (.consumer k) →
      m'.phase = Function.update m.phase k p →
      (∀ key params, p ≠ .subscribing key params) → (∀ subId, p ≠ .unsubscribing subId) →
      connected = true ∨ m'.awaits t = m.awaits t ∧ ∀ outcome, op ≠ .answer t outcome := by
    intro k p hruns hp hsub hun
    rw [hruns] at ht
    injection ht with ht
    rw [← ht] at hcall
    have hnow : m'.phase k = p := by rw [hp, Function.update_self]
    rcases phase_of_awaits hcall with ⟨key, params, hk, -⟩ | ⟨subId, hk, -⟩
    · exact absurd (hnow.symm.trans hk) (hsub _ _)
    · exact absurd (hnow.symm.trans hk) (hun _)
  have hrec : ∀ {c : Bool} {rs : List SlotRef}, Service.runs m op = some .reconnect →
      m'.reconnecting = stopsAt c rs → c = true := by
    intro c rs hruns hrc
    rw [hruns] at ht
    injection ht with ht
    rw [← ht] at hcall
    obtain ⟨r, rest, hstop, -⟩ := reconnecting_of_awaits hcall
    exact stopsAt_resubscribing (hrc.symm.trans hstop)
  cases h with
  | closedAgain => exact .inr ⟨rfl, nofun⟩
  | ignored => cases ht
  | refused _ => exact hoff rfl rfl nofun nofun
  | unsubscribed _ => exact hoff rfl rfl nofun nofun
  | @waiting _ k p hk =>
      have hp : (∀ key params, p ≠ .subscribing key params) ∧ ∀ subId, p ≠ .unsubscribing subId := by
        cases hk <;> exact ⟨nofun, nofun⟩
      exact hoff hk.runs rfl hp.1 hp.2
  | joined hk _ => exact hoff hk.runs rfl nofun nofun
  | asked _ _ hc => exact .inl hc
  | turnedAway hk => exact hoff hk.runs rfl nofun nofun
  | gone hk _ => exact hoff hk.runs rfl nofun nofun
  | left hk _ _ => exact hoff hk.runs rfl nofun nofun
  | ended hk _ _ hp =>
      rcases connected_or_closed hp with hc | hclosed
      · exact .inl hc
      · exact hoff hk.runs rfl (by rw [hclosed]; nofun) (by rw [hclosed]; nofun)
  | created hk _ => exact hoff rfl rfl nofun nofun
  | createdUnhashable hk _ => exact hoff rfl rfl nofun nofun
  | unanswered hk => exact hoff rfl rfl nofun nofun
  | reconnectWaiting _ =>
      cases ht
      cases hcall
  | reconnectStarted hturn => exact .inl (hrec hturn.runs rfl)
  | notRenewed _ => exact .inl (hrec rfl rfl)
  | renewed _ _ => exact .inl (hrec rfl rfl)
  | renewedUnhashable _ _ =>
      cases ht
      cases hcall
  | dispatched _ _ => cases ht
  | read _ _ => cases ht

/-- A task that awaits a call goes on awaiting it until it is answered. -/
theorem awaits_keep (hm : m.WellFormed) (h : Effect connected m op m') {t : Task}
    {call : RpcCall} (hcall : m.awaits t = some call)
    (hnot : ∀ outcome, op ≠ .answer t outcome) : m'.awaits t = some call := by
  by_cases ht : Service.runs m op = some t
  · -- no call that is elsewhere awaits anything
    have hbusy : ∀ {k : Nat}, Service.runs m op = some (.consumer k) →
        (∀ key params, m.phase k ≠ .subscribing key params) →
        (∀ subId, m.phase k ≠ .unsubscribing subId) → m'.awaits t = some call := by
      intro k hruns hsub hun
      rw [hruns] at ht
      injection ht with ht
      rw [← ht] at hcall
      rcases phase_of_awaits hcall with ⟨key, params, hk, -⟩ | ⟨subId, hk, -⟩
      · exact absurd hk (hsub _ _)
      · exact absurd hk (hun _)
    have happroach : ∀ {k : Nat} {p : Phase}, Approach m op k p →
        (∀ key params, m.phase k ≠ .subscribing key params)
          ∧ ∀ subId, m.phase k ≠ .unsubscribing subId := by
      intro k p happ
      cases happ with
      | subscribe hk _ => exact ⟨by rw [hk]; nofun, by rw [hk]; nofun⟩
      | aclose hk => exact ⟨by rw [hk]; nofun, by rw [hk]; nofun⟩
    have hturn : ∀ {k : Nat} {rest : List Task} {p : Phase}, AtLock m op k rest p →
        (∀ key params, p ≠ .subscribing key params) → (∀ subId, p ≠ .unsubscribing subId) →
        m'.awaits t = some call := by
      intro k rest p hk hsub hun
      refine hbusy hk.runs ?_ ?_
      · rcases hk.2 with ⟨-, -, hp⟩ | ⟨-, -, happ⟩
        · rw [hp]
          exact hsub
        · exact (happroach happ).1
      · rcases hk.2 with ⟨-, -, hp⟩ | ⟨-, -, happ⟩
        · rw [hp]
          exact hun
        · exact (happroach happ).2
    have hrec : Service.runs m op = some .reconnect →
        (∀ r rest, m.reconnecting ≠ .resubscribing r rest) → m'.awaits t = some call := by
      intro hruns hoff
      rw [hruns] at ht
      injection ht with ht
      rw [← ht, awaits_reconnect_eq_none hoff] at hcall
      cases hcall
    have hanswered : ∀ {t' : Task} {outcome : Except Exc Json}, op = .answer t' outcome →
        m'.awaits t = some call := by
      intro t' outcome hop
      rw [hop] at ht
      injection ht with ht
      rw [ht] at hop
      exact absurd hop (hnot outcome)
    cases h with
    | closedAgain => exact hcall
    | ignored => exact hcall
    | refused hk => exact hbusy rfl (by rw [hk]; nofun) (by rw [hk]; nofun)
    | unsubscribed _ => exact hanswered rfl
    | waiting hk => exact hbusy hk.runs (happroach hk).1 (happroach hk).2
    | joined hk _ => exact hturn hk nofun nofun
    | asked hk _ _ => exact hturn hk nofun nofun
    | turnedAway hk => exact hturn hk nofun nofun
    | gone hk _ => exact hturn hk nofun nofun
    | left hk _ _ => exact hturn hk nofun nofun
    | ended hk _ _ _ => exact hturn hk nofun nofun
    | created _ _ => exact hanswered rfl
    | createdUnhashable _ _ => exact hanswered rfl
    | unanswered _ => exact hanswered rfl
    | reconnectWaiting hrc => exact hrec rfl (by intro r rest hr; rw [hr] at hrc; cases hrc)
    | reconnectStarted hstart =>
        refine hrec hstart.runs ?_
        intro r rest hr
        rcases hstart.2 with ⟨-, -, hacq⟩ | ⟨-, -, -, hout⟩
        · rw [hr] at hacq
          cases hacq
        · rw [hr] at hout
          cases hout
    | notRenewed _ => exact hanswered rfl
    | renewed _ _ => exact hanswered rfl
    | renewedUnhashable _ _ => exact hanswered rfl
    | dispatched _ _ => exact hcall
    | read _ _ => exact hcall
  · rw [awaits_other hm h ht, hcall]

/-- `on_reconnect` does not start by itself. -/
theorem reconnecting_outside (h : Effect connected m op m')
    (hout : reconnectStatus m.reconnecting = .outside) (hop : op ≠ .onReconnect) :
    m'.reconnecting = m.reconnecting := by
  have hbusy : ∀ {r : SlotRef} {rest : List SlotRef}, m.reconnecting ≠ .resubscribing r rest := by
    intro r rest hr
    rw [hr] at hout
    cases hout
  cases h with
  | reconnectWaiting _ => exact absurd rfl hop
  | reconnectStarted hturn =>
      rcases hturn.2 with ⟨-, -, hacq⟩ | ⟨h', -⟩
      · rw [hacq] at hout
        cases hout
      · exact absurd h' hop
  | notRenewed hrc => exact absurd hrc hbusy
  | renewed hrc _ => exact absurd hrc hbusy
  | renewedUnhashable hrc _ => exact absurd hrc hbusy
  | _ => rfl

end

end Manager

namespace Service

/-! ### A segment of the manager

The manager runs until every task waits again.  If the one that had its turn now awaits a call,
that call has been issued in the same segment, on the socket that was open.
-/

/-- The part of the socket that the calls of `request` do not touch. -/
structure SameSocket (s s' : UpstreamWs) : Prop where
  socket : s'.socket = s.socket
  nextSocket : s'.nextSocket = s.nextSocket
  connectedEvent : s'.connectedEvent = s.connectedEvent

/-- The task `t` has issued a call. -/
structure Issued (s s' : Service) (t : Task) (call : RpcCall) (g : Nat) : Prop where
  free : s.awaiting t = none
  awaits : s'.mgr.awaits t = some call
  socket : s.ws.socket = some g
  isOpen : s.ws.closed = false
  awaiting : s'.awaiting = Function.update s.awaiting t (some s.nextCall)
  nextCall : s'.nextCall = s.nextCall + 1
  calls : s'.ws.call = Function.update s.ws.call s.nextCall (.sending g s.ws.nextId s.ws.nextFuture)
  future : s'.ws.future = Function.update s.ws.future s.ws.nextFuture .pending
  asked : s'.asked = Function.update s.asked s.ws.nextId (some call)
  wire : s'.wire = s.wire ++ [(s.ws.nextId, call)]
  nextId : s'.ws.nextId = s.ws.nextId + 1

/-- No call has been issued. -/
structure Quiet (s s' : Service) : Prop where
  awaiting : s'.awaiting = s.awaiting
  nextCall : s'.nextCall = s.nextCall
  calls : s'.ws.call = s.ws.call
  future : s'.ws.future = s.ws.future
  asked : s'.asked = s.asked
  wire : s'.wire = s.wire
  nextId : s'.ws.nextId = s.ws.nextId

/-- What a segment of the manager does. -/
structure Managed (s : Service) (op : Manager.Op) (s' : Service) : Prop where
  step : s.mgr.step (s.ws.connected, op) = some s'.mgr
  effect : Manager.Effect s.ws.connected s.mgr op s'.mgr
  inbox : s'.inbox = s.inbox
  node : s'.node = s.node
  granted : s'.granted = s.granted
  same : SameSocket s.ws s'.ws
  /-- The runner goes on if `on_reconnect` is over, and only then. -/
  runner : s'.ws.runner = if s.ws.runner = .reconnecting
      ∧ Manager.reconnectStatus s'.mgr.reconnecting = .outside ∧ runs s.mgr op ≠ none then .reading
    else s.ws.runner
  closed : s.ws.closed = true → s'.ws.closed = true
  closes : s'.ws.closed = s.ws.closed
    ∨ s.ws.runner = .reconnecting ∧ ∃ e, s'.mgr.reconnecting = .raised e
  calls : Quiet s s' ∧ (∀ t, runs s.mgr op = some t → s.awaiting t = none → s'.mgr.awaits t = none)
    ∨ ∃ t call g, runs s.mgr op = some t ∧ Issued s s' t call g
  correlated : s.ws.Correlated → (∀ c, s.nextCall ≤ c → s.ws.call c = .fresh) → s'.ws.Correlated

theorem connected_iff {s : UpstreamWs} :
    s.connected = true ↔ ∃ g, s.socket = some g ∧ s.closed = false := by
  rw [UpstreamWs.connected, Bool.and_eq_true, Bool.not_eq_true', Option.isSome_iff_exists]
  constructor
  · intro ⟨⟨g, hg⟩, hc⟩
    exact ⟨g, hg, hc⟩
  · intro ⟨g, hg, hc⟩
    exact ⟨⟨g, hg⟩, hc⟩

theorem request_of_connected {s : UpstreamWs} {g : Nat} (hg : s.socket = some g)
    (hc : s.closed = false) (c : Nat) : s.request c = { s with
      nextId := s.nextId + 1
      pending := s.pending.set s.nextId s.nextFuture
      future := Function.update s.future s.nextFuture .pending
      nextFuture := s.nextFuture + 1 }.setCall c (.sending g s.nextId s.nextFuture) := by
  rw [UpstreamWs.request, hg, hc]

/-- What `settle` changes. -/
theorem settle_spec (s : Service) : ∃ ws, s.settle = { s with ws := ws }
    ∧ ws.call = s.ws.call ∧ ws.future = s.ws.future ∧ ws.nextId = s.ws.nextId
    ∧ SameSocket s.ws ws
    ∧ ws.runner = (if s.ws.runner = .reconnecting
        ∧ Manager.reconnectStatus s.mgr.reconnecting = .outside then .reading else s.ws.runner)
    ∧ (s.ws.closed = true → ws.closed = true)
    ∧ (ws.closed = s.ws.closed
        ∨ s.ws.runner = .reconnecting ∧ ∃ e, s.mgr.reconnecting = .raised e)
    ∧ (s.ws.Correlated → ws.Correlated) := by
  rw [settle]
  split
  · rename_i hr hm
    refine ⟨_, rfl, rfl, rfl, rfl, ⟨rfl, rfl, rfl⟩, ?_, ?_, .inl ?_, ?_⟩
    · rw [hr, hm]
      rfl
    · intro hc
      show (s.ws.closed || !true) = true
      rw [hc]
      rfl
    · show (s.ws.closed || !true) = s.ws.closed
      rw [Bool.not_true, Bool.or_false]
    · intro h
      exact h.setRunner nofun
  · rename_i e hr hm
    refine ⟨_, rfl, rfl, rfl, rfl, ⟨rfl, rfl, rfl⟩, ?_, ?_, .inr ⟨hr, e, hm⟩, ?_⟩
    · rw [hr, hm]
      rfl
    · intro _
      show (s.ws.closed || !false) = true
      rw [Bool.not_false, Bool.or_true]
    · intro h
      exact h.setRunner nofun
  · rename_i hidle hraised
    refine ⟨s.ws, rfl, rfl, rfl, rfl, ⟨rfl, rfl, rfl⟩, ?_, id, .inl rfl, id⟩
    rw [if_neg]
    intro ⟨hr, hout⟩
    rcases hm : s.mgr.reconnecting with _ | _ | _ | e
    · exact hidle hr hm
    · rw [hm] at hout
      cases hout
    · rw [hm] at hout
      cases hout
    · exact hraised e hr hm

/-- What `issue` changes. -/
theorem issue_cases (s : Service) (t : Task) :
    s.issue t = s ∧ (s.awaiting t = none → s.mgr.awaits t = none)
      ∨ ∃ call, s.awaiting t = none ∧ s.mgr.awaits t = some call ∧ s.issue t = { s with
          ws := s.ws.request s.nextCall
          awaiting := Function.update s.awaiting t (some s.nextCall)
          nextCall := s.nextCall + 1
          asked := Function.update s.asked s.ws.nextId (some call)
          wire := s.wire ++ [(s.ws.nextId, call)] } := by
  rw [issue]
  rcases hfree : s.awaiting t with _ | c
  · rcases hcall : s.mgr.awaits t with _ | call
    · exact .inl ⟨rfl, fun _ => rfl⟩
    · exact .inr ⟨call, rfl, rfl, rfl⟩
  · exact .inl ⟨rfl, nofun⟩

/-- **What a segment of the manager does.** -/
theorem managed_of_manage {s s' : Service} {op : Manager.Op} (hm : s.mgr.WellFormed)
    (hidle : ∀ t, (∀ outcome, op ≠ .answer t outcome) → s.awaiting t = none →
      s.mgr.awaits t = none)
    (h : s.manage op = some s') : Managed s op s' := by
  rw [manage] at h
  split at h
  · cases h
  · rename_i mgr hstep
    have heff := Manager.effect_of_step hm.locks hstep
    split at h
    · rename_i hruns
      injection h with h
      rw [← h]
      refine ⟨hstep, heff, rfl, rfl, rfl, ⟨rfl, rfl, rfl⟩, ?_, id, .inl rfl,
        .inl ⟨⟨rfl, rfl, rfl, rfl, rfl, rfl, rfl⟩, ?_⟩, fun hc _ => hc⟩
      · rw [if_neg (by simp [hruns])]
      · intro t ht
        rw [hruns] at ht
        cases ht
    · rename_i t hruns
      injection h with h
      obtain ⟨ws, hsettle, hcall, hfuture, hnext, hsame, hrunner, hclosed, hcloses, hcorr⟩ :=
        settle_spec ({ s with mgr := mgr }.issue t)
      rw [hsettle] at h
      rcases issue_cases { s with mgr := mgr } t with ⟨heq, hnone⟩ | ⟨call, hfree, hcalls, heq⟩
      · rw [heq] at h hcall hfuture hnext hsame hrunner hclosed hcloses hcorr
        rw [← h]
        refine ⟨hstep, heff, rfl, rfl, rfl, ⟨hsame.socket, hsame.nextSocket, hsame.connectedEvent⟩, ?_,
          hclosed, hcloses, .inl ⟨⟨rfl, rfl, hcall, hfuture, rfl, rfl, hnext⟩, ?_⟩, fun hc _ => hcorr hc⟩
        · rw [hruns]
          simpa using hrunner
        · intro t' ht'
          rw [hruns] at ht'
          injection ht' with ht'
          rw [← ht']
          exact hnone
      · have hconn : s.ws.connected = true := by
          rcases Manager.awaits_runs heff hruns hcalls with hc | ⟨hsame, hnot⟩
          · exact hc
          · have hbefore := hidle t hnot hfree
            rw [← hsame, hcalls] at hbefore
            cases hbefore
        obtain ⟨g, hg, hopen⟩ := connected_iff.mp hconn
        rw [heq] at h hcall hfuture hnext hsame hrunner hclosed hcloses hcorr
        dsimp only at h hcall hfuture hnext hsame hrunner hclosed hcloses hcorr
        rw [request_of_connected hg hopen s.nextCall] at hcall hfuture hnext hsame hrunner hclosed hcloses
        rw [← h]
        refine ⟨hstep, heff, rfl, rfl, rfl, ⟨hsame.socket, hsame.nextSocket, hsame.connectedEvent⟩, ?_,
          hclosed, hcloses, .inr ⟨t, call, g, hruns, ⟨hfree, hcalls, hg, hopen, rfl, rfl, hcall,
            hfuture, rfl, rfl, hnext⟩⟩, ?_⟩
        · replace hrunner : ws.runner = if s.ws.runner = .reconnecting
              ∧ Manager.reconnectStatus mgr.reconnecting = .outside then .reading
            else s.ws.runner := hrunner
          rw [hruns]
          simpa using hrunner
        · intro hc hfresh
          exact hcorr (hc.request (hfresh _ (Nat.le_refl _)))

/-! ### What holds in every state

`Ready` is `Sound` in the middle of a step: the task that is answered no longer awaits its
call, and has not gone on yet.
-/

/-- Tasks, calls and the socket fit together. -/
structure Sound (s : Service) : Prop where
  wf : s.mgr.WellFormed
  corr : s.ws.Correlated
  flying : ∀ t c, s.awaiting t = some c → ∃ call g rid f, s.mgr.awaits t = some call
    ∧ (s.ws.call c).inFlight = some (g, rid, f) ∧ s.asked rid = some call
  idle : ∀ t, s.awaiting t = none → s.mgr.awaits t = none
  inj : ∀ t t' c, s.awaiting t = some c → s.awaiting t' = some c → t = t'
  bound : ∀ c, s.nextCall ≤ c → s.ws.call c = .fresh
  runner : s.ws.runner = .reconnecting
    ↔ Manager.reconnectStatus s.mgr.reconnecting ≠ .outside
  ownSocket : s.ws.runner = .reconnecting → ∀ c g rid f, s.awaiting .reconnect = some c →
    (s.ws.call c).inFlight = some (g, rid, f) → s.ws.socket = some g
  quiet : s.ws.runner = .reconnecting → ∀ t c g rid f, s.awaiting t = some c →
    (s.ws.call c).inFlight = some (g, rid, f) → s.ws.socket = some g →
    ∀ v, s.ws.future f ≠ .result v

/-- `Sound` just before a segment of the manager: the task that is answered no longer awaits
its call, and `on_reconnect` is about to be called. -/
structure Ready (s : Service) (op : Manager.Op) : Prop where
  wf : s.mgr.WellFormed
  corr : s.ws.Correlated
  flying : ∀ t c, s.awaiting t = some c → ∃ call g rid f, s.mgr.awaits t = some call
    ∧ (s.ws.call c).inFlight = some (g, rid, f) ∧ s.asked rid = some call
  idle : ∀ t, (∀ outcome, op ≠ .answer t outcome) → s.awaiting t = none →
    s.mgr.awaits t = none
  answered : ∀ t outcome, op = .answer t outcome → s.awaiting t = none
  inj : ∀ t t' c, s.awaiting t = some c → s.awaiting t' = some c → t = t'
  bound : ∀ c, s.nextCall ≤ c → s.ws.call c = .fresh
  runner : op ≠ .onReconnect → (s.ws.runner = .reconnecting
    ↔ Manager.reconnectStatus s.mgr.reconnecting ≠ .outside)
  calledBack : op = .onReconnect → s.ws.runner = .reconnecting
  ownSocket : s.ws.runner = .reconnecting → ∀ c g rid f, s.awaiting .reconnect = some c →
    (s.ws.call c).inFlight = some (g, rid, f) → s.ws.socket = some g
  quiet : s.ws.runner = .reconnecting → ∀ t c g rid f, s.awaiting t = some c →
    (s.ws.call c).inFlight = some (g, rid, f) → s.ws.socket = some g →
    ∀ v, s.ws.future f ≠ .result v

theorem Sound.ready {s : Service} (h : Sound s) {op : Manager.Op}
    (hanswer : ∀ t outcome, op ≠ .answer t outcome) (hrec : op ≠ .onReconnect) : Ready s op where
  wf := h.wf
  corr := h.corr
  flying := h.flying
  idle := fun t _ => h.idle t
  answered := fun t outcome hop => absurd hop (hanswer t outcome)
  inj := h.inj
  bound := h.bound
  runner := fun _ => h.runner
  calledBack := fun hop => absurd hop hrec
  ownSocket := h.ownSocket
  quiet := h.quiet

theorem Ready.managed {s s' : Service} {op : Manager.Op} (h : Ready s op)
    (hs : s.manage op = some s') : Managed s op s' :=
  managed_of_manage h.wf h.idle hs

/-- The calls of other tasks, before and after a segment. -/
theorem Managed.awaiting_cases {s s' : Service} {op : Manager.Op} (hm : Managed s op s')
    {t : Task} {c : Nat} (hc : s'.awaiting t = some c) :
    s.awaiting t = some c ∨ ∃ call g, runs s.mgr op = some t ∧ c = s.nextCall
      ∧ Issued s s' t call g := by
  rcases hm.calls with ⟨hq, -⟩ | ⟨t', call, g, hruns, hi⟩
  · rw [hq.awaiting] at hc
    exact .inl hc
  · rw [hi.awaiting] at hc
    by_cases ht : t = t'
    · rw [ht, Function.update_self] at hc
      injection hc with hc
      rw [← ht] at hruns hi
      exact .inr ⟨call, g, hruns, hc.symm, hi⟩
    · rw [Function.update_of_ne ht] at hc
      exact .inl hc

/-- A call under way stays as it is. -/
theorem Managed.call_eq {s s' : Service} {op : Manager.Op} (h : Ready s op)
    (hm : Managed s op s') {c g f : Nat} {rid : Int}
    (hc : (s.ws.call c).inFlight = some (g, rid, f)) :
    s'.ws.call c = s.ws.call c ∧ s'.ws.future f = s.ws.future f ∧ s'.asked rid = s.asked rid := by
  rcases hm.calls with ⟨hq, -⟩ | ⟨t', call, g', hruns, hi⟩
  · rw [hq.calls, hq.future, hq.asked]
    exact ⟨rfl, rfl, rfl⟩
  · have hne : c ≠ s.nextCall := by
      intro heq
      rw [heq, h.bound _ (Nat.le_refl _)] at hc
      cases hc
    have hf := h.corr.futureBound c g rid f hc
    have hrid := h.corr.ridBound c rid (Call.rid_of_inFlight hc)
    rw [hi.calls, hi.future, hi.asked, Function.update_of_ne hne,
      Function.update_of_ne (Nat.ne_of_lt hf), Function.update_of_ne (by omega)]
    exact ⟨rfl, rfl, rfl⟩

/-- What the call just issued looks like. -/
theorem Issued.call {s s' : Service} {t : Task} {call : RpcCall} {g : Nat}
    (hi : Issued s s' t call g) :
    (s'.ws.call s.nextCall).inFlight = some (g, s.ws.nextId, s.ws.nextFuture)
      ∧ s'.ws.future s.ws.nextFuture = .pending ∧ s'.asked s.ws.nextId = some call := by
  rw [hi.calls, hi.future, hi.asked, Function.update_self, Function.update_self,
    Function.update_self]
  exact ⟨rfl, rfl, rfl⟩

/-- No segment puts the runner back into `on_reconnect`. -/
theorem Managed.reconnecting {s s' : Service} {op : Manager.Op} (h : Managed s op s') :
    s'.ws.runner = .reconnecting → s.ws.runner = .reconnecting := by
  intro hr
  rw [h.runner] at hr
  split at hr
  · cases hr
  · exact hr

/-- **A segment of the manager keeps `Sound`.** -/
theorem Ready.sound {s s' : Service} {op : Manager.Op} (h : Ready s op)
    (hs : s.manage op = some s') : Sound s' := by
  have hm := h.managed hs
  have hrunner := hm.reconnecting
  have hsocket : s'.ws.socket = s.ws.socket := hm.same.socket
  refine ⟨h.wf.step hm.step, ?_, ?_, ?_, ?_, ?_, ?_, ?_, ?_⟩
  · exact hm.correlated h.corr h.bound
  · intro t c hc
    rcases hm.awaiting_cases hc with hold | ⟨call, g, -, hcn, hi⟩
    · obtain ⟨call, g, rid, f, hcall, hfly, hasked⟩ := h.flying t c hold
      obtain ⟨hsame, -, hask⟩ := hm.call_eq h hfly
      refine ⟨call, g, rid, f, ?_, by rw [hsame]; exact hfly, by rw [hask]; exact hasked⟩
      apply Manager.awaits_keep h.wf hm.effect hcall
      intro outcome hop
      rw [h.answered t outcome hop] at hold
      cases hold
    · rw [hcn]
      exact ⟨call, g, _, _, hi.awaits, hi.call.1, hi.call.2.2⟩
  · intro t ht
    have hother : runs s.mgr op ≠ some t → s.awaiting t = none → s'.mgr.awaits t = none := by
      intro hruns hfree
      rw [Manager.awaits_other h.wf hm.effect hruns]
      apply h.idle t _ hfree
      intro outcome hop
      rw [hop] at hruns
      exact hruns rfl
    rcases hm.calls with ⟨hq, hnone⟩ | ⟨t', call, g, hruns, hi⟩
    · rw [hq.awaiting] at ht
      by_cases hruns : runs s.mgr op = some t
      · exact hnone t hruns ht
      · exact hother hruns ht
    · rw [hi.awaiting] at ht
      by_cases htt : t = t'
      · rw [htt, Function.update_self] at ht
        cases ht
      · rw [Function.update_of_ne htt] at ht
        refine hother ?_ ht
        rw [hruns]
        intro heq
        injection heq with heq
        exact htt heq.symm
  · intro t t' c hc hc'
    have hfresh : ∀ t, s.awaiting t ≠ some s.nextCall := by
      intro t hold
      obtain ⟨-, g, rid, f, -, hfly, -⟩ := h.flying t _ hold
      rw [h.bound _ (Nat.le_refl _)] at hfly
      cases hfly
    rcases hm.awaiting_cases hc with hold | ⟨call, g, hruns, hcn, hi⟩ <;>
      rcases hm.awaiting_cases hc' with hold' | ⟨call', g', hruns', hcn', hi'⟩
    · exact h.inj t t' c hold hold'
    · rw [hcn'] at hold
      exact absurd hold (hfresh t)
    · rw [hcn] at hold'
      exact absurd hold' (hfresh t')
    · rw [hruns] at hruns'
      injection hruns'
  · intro c hc
    rcases hm.calls with ⟨hq, -⟩ | ⟨t', call, g, hruns, hi⟩
    · rw [hq.nextCall] at hc
      rw [hq.calls]
      exact h.bound c hc
    · rw [hi.nextCall] at hc
      rw [hi.calls, Function.update_of_ne (by omega)]
      exact h.bound c (by omega)
  · rw [hm.runner]
    by_cases hop : op = .onReconnect
    · have hrc := h.calledBack hop
      rw [hrc, hop]
      by_cases hout : Manager.reconnectStatus s'.mgr.reconnecting = .outside
      · rw [if_pos ⟨rfl, hout, nofun⟩]
        exact ⟨nofun, fun hne => absurd hout hne⟩
      · rw [if_neg (by intro hand; exact hout hand.2.1)]
        exact ⟨fun _ => hout, fun _ => rfl⟩
    · have hiff := h.runner hop
      by_cases hrc : s.ws.runner = .reconnecting
      · by_cases hout : Manager.reconnectStatus s'.mgr.reconnecting = .outside
        · have hruns : runs s.mgr op ≠ none := by
            intro hnone
            have hsame := Manager.reconnecting_other hm.effect (by rw [hnone]; nofun)
            rw [hsame] at hout
            exact hiff.mp hrc hout
          rw [if_pos ⟨hrc, hout, hruns⟩]
          exact ⟨nofun, fun hne => absurd hout hne⟩
        · rw [if_neg (by intro hand; exact hout hand.2.1)]
          exact ⟨fun _ => hout, fun _ => hrc⟩
      · have hout : Manager.reconnectStatus s.mgr.reconnecting = .outside := by
          by_contra hne
          exact hrc (hiff.mpr hne)
        rw [if_neg (by intro hand; exact hrc hand.1),
          Manager.reconnecting_outside hm.effect hout hop]
        exact hiff
  · intro hr c g rid f hc hfly
    rw [hsocket]
    rcases hm.awaiting_cases hc with hold | ⟨call, g', -, hcn, hi⟩
    · obtain ⟨-, g', rid', f', -, hfly', -⟩ := h.flying _ c hold
      obtain ⟨hsame, -, -⟩ := hm.call_eq h hfly'
      rw [hsame] at hfly
      exact h.ownSocket (hrunner hr) c g rid f hold hfly
    · rw [hcn, hi.call.1] at hfly
      cases hfly
      exact hi.socket
  · intro hr t c g rid f hc hfly hg v
    rcases hm.awaiting_cases hc with hold | ⟨call, g', -, hcn, hi⟩
    · obtain ⟨-, g', rid', f', -, hfly', -⟩ := h.flying _ c hold
      obtain ⟨hsame, -, -⟩ := hm.call_eq h hfly'
      rw [hsame] at hfly
      rw [(hm.call_eq h hfly).2.1]
      rw [hsocket] at hg
      exact h.quiet (hrunner hr) t c g rid f hold hfly hg v
    · rw [hcn, hi.call.1] at hfly
      cases hfly
      rw [hi.call.2.1]
      nofun

/-! ### The other steps

These are the steps of the socket: a frame is written, received, dispatched or lost, a call
times out, a connection ends or begins.  Each of them leaves the manager as it is, or hands one
thing to it.
-/

section

variable {s s' : Service}

/-- The state just before the task `t` goes on with what its call has ended in. -/
theorem Sound.ready_answer (h : Sound s) {t : Task} {c g f : Nat} {rid : Int}
    (hc : s.awaiting t = some c) (hfly : (s.ws.call c).inFlight = some (g, rid, f))
    (outcome : Except Exc Json) (wire : List (Int × RpcCall))
    (granted : Nat → Option (Nat × Json)) :
    Ready { s with
        wire := wire
        ws := s.ws.finish c rid outcome
        awaiting := Function.update s.awaiting t none
        granted := granted } (.answer t outcome) := by
  -- the calls the other tasks await are other calls
  have hold : ∀ {t' : Task} {c' : Nat}, Function.update s.awaiting t none t' = some c' →
      s.awaiting t' = some c' ∧ (s.ws.finish c rid outcome).call c' = s.ws.call c' := by
    intro t' c' hc'
    by_cases htt : t' = t
    · rw [htt, Function.update_self] at hc'
      cases hc'
    · rw [Function.update_of_ne htt] at hc'
      refine ⟨hc', Function.update_of_ne ?_ ..⟩
      intro hcc
      rw [hcc] at hc'
      exact htt (h.inj t' t c hc' hc)
  refine ⟨h.wf, h.corr.finish hfly outcome, ?_, ?_, ?_, ?_, ?_, fun _ => h.runner, nofun, ?_,
    ?_⟩
  · intro t' c' hc'
    obtain ⟨haw, hcall⟩ := hold hc'
    obtain ⟨call, g', rid', f', hcall', hfly', hasked⟩ := h.flying t' c' haw
    exact ⟨call, g', rid', f', hcall', by rw [hcall]; exact hfly', hasked⟩
  · intro t' hnot ht'
    have htt : t' ≠ t := by
      intro htt
      rw [htt] at hnot
      exact hnot outcome rfl
    replace ht' : Function.update s.awaiting t none t' = none := ht'
    rw [Function.update_of_ne htt] at ht'
    exact h.idle t' ht'
  · intro t' outcome' hop
    injection hop with htt
    show Function.update s.awaiting t none t' = none
    rw [← htt, Function.update_self]
  · intro t' t'' c' hc' hc''
    exact h.inj t' t'' c' (hold hc').1 (hold hc'').1
  · intro c' hc'
    have hne : c' ≠ c := by
      intro hcc
      rw [← hcc, h.bound c' hc'] at hfly
      cases hfly
    show (s.ws.finish c rid outcome).call c' = .fresh
    rw [show (s.ws.finish c rid outcome).call c' = s.ws.call c' from Function.update_of_ne hne ..]
    exact h.bound c' hc'
  · intro hr c' g' rid' f' hc' hfly'
    obtain ⟨haw, hcall⟩ := hold hc'
    replace hfly' : ((s.ws.finish c rid outcome).call c').inFlight = some (g', rid', f') := hfly'
    rw [hcall] at hfly'
    exact h.ownSocket hr c' g' rid' f' haw hfly'
  · intro hr t' c' g' rid' f' hc' hfly' hg
    obtain ⟨haw, hcall⟩ := hold hc'
    replace hfly' : ((s.ws.finish c rid outcome).call c').inFlight = some (g', rid', f') := hfly'
    rw [hcall] at hfly'
    exact h.quiet hr t' c' g' rid' f' haw hfly' hg

theorem Sound.answer (h : Sound s) (wire : List (Int × RpcCall)) {t : Task} {c g socket f : Nat} {rid : Int}
    (hc : s.awaiting t = some c) (hfly : (s.ws.call c).inFlight = some (g, rid, f))
    {outcome : Except Exc Json}
    (hs : { s with wire := wire }.answer t c socket rid outcome = some s') : Sound s' :=
  (h.ready_answer hc hfly outcome wire _).sound hs

/-- A step of the socket that leaves the calls under way and the results of the futures. -/
theorem Sound.setWs (h : Sound s) {ws : UpstreamWs} {inbox : List Frame}
    {wire : List (Int × RpcCall)} {node : Node} (hcorr : ws.Correlated)
    (hfly : ∀ c, (ws.call c).inFlight = (s.ws.call c).inFlight)
    (hfresh : ∀ c, s.ws.call c = .fresh → ws.call c = .fresh)
    (hfuture : s.ws.runner = .reconnecting → ∀ f v, ws.future f = .result v →
      s.ws.future f = .result v)
    (hrunner : ws.runner = .reconnecting ↔ s.ws.runner = .reconnecting)
    (hsocket : s.ws.runner = .reconnecting → ws.socket = s.ws.socket) :
    Sound { s with ws := ws, inbox := inbox, wire := wire, node := node } where
  wf := h.wf
  corr := hcorr
  flying := by
    intro t c hc
    obtain ⟨call, g, rid, f, hcall, hf, hasked⟩ := h.flying t c hc
    exact ⟨call, g, rid, f, hcall, by rw [hfly]; exact hf, hasked⟩
  idle := h.idle
  inj := h.inj
  bound := fun c hc => hfresh c (h.bound c hc)
  runner := hrunner.trans h.runner
  ownSocket := by
    intro hr c g rid f hc hf
    have hr' := hrunner.mp hr
    rw [hfly] at hf
    rw [hsocket hr']
    exact h.ownSocket hr' c g rid f hc hf
  quiet := by
    intro hr t c g rid f hc hf hg v hv
    have hr' := hrunner.mp hr
    rw [hfly] at hf
    rw [hsocket hr'] at hg
    exact h.quiet hr' t c g rid f hc hf hg v (hfuture hr' f v hv)

/-- A new connection starts with no call on it. -/
theorem Sound.newConnection (h : Sound s) (haway : s.ws.runner = .away) :
    (s.ws.connectedEvent = false → Sound s.newConnection)
      ∧ (s.ws.connectedEvent = true → Ready s.newConnection .onReconnect) := by
  have hcorr := h.corr.connect haway
  have hout : Manager.reconnectStatus s.mgr.reconnecting = .outside := by
    by_contra hne
    have := h.runner.mpr hne
    rw [haway] at this
    cases this
  have hrunner : s.newConnection.ws.runner
      = if s.ws.connectedEvent then .reconnecting else .reading := rfl
  refine ⟨?_, ?_⟩
  · intro hev
    rw [hev, if_neg Bool.false_ne_true] at hrunner
    refine ⟨h.wf, hcorr, h.flying, h.idle, h.inj, h.bound, ?_, ?_, ?_⟩
    · rw [hrunner]
      exact ⟨nofun, fun hne => absurd hout hne⟩
    · rw [hrunner]
      nofun
    · rw [hrunner]
      nofun
  · intro hev
    have hold : ∀ {c g f : Nat} {rid : Int}, (s.ws.call c).inFlight = some (g, rid, f) →
        s.newConnection.ws.socket ≠ some g := by
      intro c g f rid hfly hg
      have hlt := h.corr.callBound c g rid f hfly
      injection hg with hg
      omega
    refine ⟨h.wf, hcorr, h.flying, fun t _ => h.idle t, nofun, h.inj, h.bound,
      fun hne => absurd rfl hne, ?_, ?_, ?_⟩
    · intro _
      rw [hrunner, hev]
      rfl
    · intro _ c g rid f hc _
      obtain ⟨call, g', rid', f', hcall, -⟩ := h.flying .reconnect c hc
      rw [Manager.awaits_reconnect_eq_none] at hcall
      · cases hcall
      · intro r rest hr
        rw [hr] at hout
        cases hout
    · intro _ t c g rid f _ hfly hg
      exact absurd hg (hold hfly)

/-- The operations of the service that are operations of the manager. -/
inductive Asks : Op → Manager.Op → Prop where
  | subscribe {k : Nat} {kind : StreamKind} {params : Json} :
      Asks (.subscribe k kind params) (.subscribe k kind params)
  | aclose {k : Nat} : Asks (.aclose k) (.aclose k)
  | read {k : Nat} {ev : StreamEvent} : Asks (.read k ev) (.read k ev)
  | grant : Asks .grant .grant

theorem Asks.plain {op : Op} {mop : Manager.Op} (h : Asks op mop) :
    (∀ t outcome, mop ≠ .answer t outcome) ∧ mop ≠ .onReconnect := by
  cases h <;> exact ⟨nofun, nofun⟩

/-- What a step can do. -/
inductive Effect (s : Service) : Op → Service → Prop where
  | managed {op : Op} {mop : Manager.Op} {s' : Service} (hop : Asks op mop)
      (hs : s.manage mop = some s') : Effect s op s'
  | sent {t : Task} {c g f : Nat} {rid : Int} (hc : s.awaiting t = some c)
      (hcall : s.ws.call c = .sending g rid f) :
      Effect s (.sent t) { s with ws := s.ws.setCall c (.waiting g rid f) }
  | sendFailed {t : Task} {e : Exc} {c g f : Nat} {rid : Int} {s' : Service}
      (hc : s.awaiting t = some c) (hcall : s.ws.call c = .sending g rid f)
      (hs : { s with wire := s.wire.filter fun p => p.1 ≠ rid }.answer t c g rid (.error e)
        = some s') : Effect s (.sendFailed t e) s'
  | received {rid : Int} {call : RpcCall} {rest : List (Int × RpcCall)}
      (hw : s.wire = (rid, call) :: rest) (hconn : s.ws.connected = true) :
      Effect s .receive { s with wire := rest, node := s.node.receive rid call }
  | expired {t : Task} {c g f : Nat} {rid : Int} (hc : s.awaiting t = some c)
      (hcall : s.ws.call c = .waiting g rid f) :
      Effect s (.expire t) { s with ws := s.ws.setFuture f .cancelled }
  | resumed {t : Task} {c g f : Nat} {rid : Int} {outcome : Except Exc Json} {s' : Service}
      (hc : s.awaiting t = some c) (hcall : s.ws.call c = .waiting g rid f)
      (hf : UpstreamWs.Future.outcome (s.ws.future f) = some outcome)
      (hs : s.answer t c g rid outcome = some s') : Effect s (.resume t) s'
  | connected (haway : s.ws.runner = .away) (hev : s.ws.connectedEvent = false) :
      Effect s .connect s.newConnection
  | reconnected {s' : Service} (haway : s.ws.runner = .away) (hev : s.ws.connectedEvent = true)
      (hs : s.newConnection.manage .onReconnect = some s') : Effect s .connect s'
  | dropped : Effect s .drop { s with ws := { s.ws with lost := some [] }, node := s.node.lose }
  | noticed : Effect s .notice { s with ws := { s.ws with closed := true } }
  | left (hr : s.ws.runner = .reading) (hclosed : s.ws.closed = true) :
      Effect s .leave { s with ws := s.ws.disconnected }
  | arrived {frame : Frame} (hconn : s.ws.connected = true) :
      Effect s (.arrive frame)
        { s with inbox := s.inbox ++ [frame], node := s.node.send frame }
  | notified {payload : Json} {rest : List Frame} {s' : Service}
      (hi : s.inbox = .notification payload :: rest) (hr : s.ws.isReading = true)
      (hs : { s with inbox := rest }.manage (.onNotification payload) = some s') :
      Effect s .deliver s'
  | delivered {frame : Frame} {rest : List Frame} (hi : s.inbox = frame :: rest)
      (hr : s.ws.isReading = true) (hframe : ∀ payload, frame ≠ .notification payload) :
      Effect s .deliver { s with ws := s.ws.dispatch frame, inbox := rest }

theorem effect_of_step {op : Op} (hs : s.step op = some s') : Effect s op s' := by
  cases op with
  | subscribe k kind params => exact .managed .subscribe hs
  | aclose k => exact .managed .aclose hs
  | read k ev => exact .managed .read hs
  | grant => exact .managed .grant hs
  | sent t =>
      rw [step] at hs
      split at hs
      · cases hs
      · rename_i c hc
        split at hs
        · rename_i hcall
          cases hs
          exact .sent hc hcall
        · cases hs
  | sendFailed t e =>
      rw [step] at hs
      split at hs
      · cases hs
      · rename_i c hc
        split at hs
        · rename_i hcall
          split at hs
          · exact .sendFailed hc hcall hs
          · cases hs
        · cases hs
  | receive =>
      rw [step] at hs
      split at hs
      · cases hs
      · rename_i rid call rest hw
        split at hs
        · rename_i hconn
          cases hs
          exact .received hw hconn.1
        · cases hs
  | expire t =>
      rw [step] at hs
      split at hs
      · cases hs
      · rename_i c hc
        split at hs
        · rename_i hcall
          cases hs
          exact .expired hc hcall
        · cases hs
  | resume t =>
      rw [step] at hs
      split at hs
      · cases hs
      · rename_i c hc
        split at hs
        · rename_i hcall
          split at hs
          · rename_i hf
            exact .resumed hc hcall hf hs
          · cases hs
        · cases hs
  | connect =>
      rw [step] at hs
      split at hs
      · rename_i haway
        split at hs
        · rename_i hev
          exact .reconnected haway hev hs
        · rename_i hev
          cases hs
          exact .connected haway (by simpa using hev)
      · cases hs
  | drop =>
      rw [step] at hs
      split at hs
      · cases hs
        exact .dropped
      · cases hs
  | notice =>
      rw [step] at hs
      split at hs
      · cases hs
        exact .noticed
      · cases hs
  | leave =>
      rw [step] at hs
      split at hs
      · rename_i hr
        cases hs
        exact .left hr.1 hr.2
      · cases hs
  | arrive frame =>
      rw [step] at hs
      split at hs
      · rename_i hconn
        cases hs
        exact .arrived hconn.1
      · cases hs
  | deliver =>
      rw [step.eq_def] at hs
      dsimp only at hs
      split at hs
      · cases hs
      · rename_i frame rest hi
        split at hs
        · rename_i hr
          split at hs
          · exact .notified hi hr hs
          · rename_i hframe
            cases hs
            exact .delivered hi hr hframe
        · cases hs

/-- A call returns what its future holds. -/
theorem result_of_outcome {x : Future} {v : Json}
    (h : UpstreamWs.Future.outcome x = some (.ok v)) : x = .result v := by
  cases x with
  | result v' =>
      injection h with h
      injection h with h
      rw [h]
  | pending => cases h
  | exception e => cases h
  | cancelled => cases h

theorem reading_of_isReading {ws : UpstreamWs} (h : ws.isReading = true) :
    ws.runner = .reading ∧ ws.closed = false := by
  simpa [UpstreamWs.isReading] using h

/-- `_read_loop` reads from an open connection. -/
theorem connected_of_dispatch {frame : Frame} (hr : s.ws.isReading = true)
    (hconn : (s.ws.dispatch frame).connected = true) : s.ws.connected = true := by
  obtain ⟨g, hg, -⟩ := connected_iff.mp hconn
  rw [(UpstreamWs.dispatch_frame s.ws frame).2.2.1] at hg
  exact connected_iff.mpr ⟨g, hg, (reading_of_isReading hr).2⟩

/-- The state in which a notification is handed to the manager. -/
theorem Sound.ready_notification (h : Sound s) (rest : List Frame) (payload : Json) :
    Ready { s with inbox := rest } (.onNotification payload) := by
  have hinbox := @Sound.setWs s h s.ws rest s.wire s.node h.corr (fun _ => rfl)
    (fun _ => id) (fun _ _ _ => id) .rfl fun _ => rfl
  exact hinbox.ready nofun nofun

/-- **Every step keeps `Sound`.** -/
theorem Sound.step (h : Sound s) {op : Op} (hs : s.step op = some s') : Sound s' := by
  cases effect_of_step hs with
  | managed hop hs => exact (h.ready hop.plain.1 hop.plain.2).sound hs
  | @sent t c g f rid hc hcall =>
      have hfly : (Call.waiting g rid f).inFlight = (s.ws.call c).inFlight := by
        rw [hcall]
        rfl
      refine h.setWs (h.corr.setCall (by rw [hcall]; rfl) hfly) ?_ ?_ (fun _ _ _ => id) .rfl
        fun _ => rfl
      · exact UpstreamWs.inFlight_setCall hfly
      · intro c' hfresh
        show Function.update s.ws.call c _ c' = .fresh
        rw [Function.update_of_ne, hfresh]
        intro hcc
        rw [hcc, hcall] at hfresh
        cases hfresh
  | sendFailed hc hcall hs => exact h.answer _ hc (by rw [hcall]; rfl) hs
  | received _ _ =>
      exact h.setWs h.corr (fun _ => rfl) (fun _ => id) (fun _ _ _ => id) .rfl fun _ => rfl
  | @expired t c g f rid hc hcall =>
      refine h.setWs (h.corr.setFuture f nofun) (fun _ => rfl) (fun _ => id) ?_ .rfl fun _ => rfl
      intro _ f' v hv
      replace hv : Function.update s.ws.future f .cancelled f' = .result v := hv
      by_cases hff : f' = f
      · rw [hff, Function.update_self] at hv
        cases hv
      · rwa [Function.update_of_ne hff] at hv
  | resumed hc hcall _ hs => exact h.answer s.wire hc (by rw [hcall]; rfl) hs
  | connected haway hev => exact (h.newConnection haway).1 hev
  | reconnected haway hev hs => exact ((h.newConnection haway).2 hev).sound hs
  | dropped =>
      exact h.setWs (h.corr.setRunner id) (fun _ => rfl) (fun _ => id) (fun _ _ _ => id) .rfl
        fun _ => rfl
  | noticed =>
      exact h.setWs (h.corr.setRunner id) (fun _ => rfl) (fun _ => id) (fun _ _ _ => id) .rfl
        fun _ => rfl
  | left hr hclosed =>
      have hnot : s.ws.runner ≠ .reconnecting := by
        rw [hr]
        nofun
      exact h.setWs h.corr.disconnected (fun _ => rfl) (fun _ => id)
        (fun hrc => absurd hrc hnot) ⟨nofun, fun hrc => absurd hrc hnot⟩ fun hrc => absurd hrc hnot
  | arrived _ =>
      exact h.setWs h.corr (fun _ => rfl) (fun _ => id) (fun _ _ _ => id) .rfl fun _ => rfl
  | @notified payload rest _ hi hr hs =>
      exact (h.ready_notification rest payload).sound hs
  | @delivered frame rest hi hr hframe =>
      obtain ⟨hcalls, hrunner, hsocket, -⟩ := UpstreamWs.dispatch_frame s.ws frame
      have hnot : s.ws.runner ≠ .reconnecting := by
        rw [(reading_of_isReading hr).1]
        nofun
      exact h.setWs (h.corr.dispatch frame) (fun c => by rw [hcalls]) (fun c hc => by rw [hcalls, hc])
        (fun hrc => absurd hrc hnot) (by rw [hrunner]) fun _ => hsocket

/-- The manager takes at most one step at a time. -/
theorem Sound.mgr_step (h : Sound s) {op : Op} (hs : s.step op = some s') :
    s'.mgr = s.mgr ∨ ∃ connected mop, Manager.Effect connected s.mgr mop s'.mgr := by
  have hmanaged : ∀ (base : Service) {mop : Manager.Op}, base.mgr = s.mgr → Ready base mop →
      base.manage mop = some s' → ∃ connected mop, Manager.Effect connected s.mgr mop s'.mgr := by
    intro base mop hbase hready hs
    have heff := (hready.managed hs).effect
    rw [hbase] at heff
    exact ⟨_, mop, heff⟩
  cases effect_of_step hs with
  | managed hop hs => exact .inr (hmanaged s rfl (h.ready hop.plain.1 hop.plain.2) hs)
  | sent _ _ => exact .inl rfl
  | sendFailed hc hcall hs =>
      refine .inr (hmanaged _ ?_ (h.ready_answer hc (by rw [hcall]; rfl) _ _ _) hs)
      rfl
  | received _ _ => exact .inl rfl
  | expired _ _ => exact .inl rfl
  | resumed hc hcall _ hs =>
      refine .inr (hmanaged _ ?_ (h.ready_answer hc (by rw [hcall]; rfl) _ s.wire _) hs)
      rfl
  | connected _ _ => exact .inl rfl
  | reconnected haway hev hs => exact .inr (hmanaged s.newConnection rfl ((h.newConnection haway).2 hev) hs)
  | dropped => exact .inl rfl
  | noticed => exact .inl rfl
  | left _ _ => exact .inl rfl
  | arrived _ => exact .inl rfl
  | @notified payload rest _ hi hr hs =>
      exact .inr (hmanaged { s with inbox := rest } rfl (h.ready_notification rest payload) hs)
  | delivered _ _ _ => exact .inl rfl

theorem sound_init : Sound init := by
  refine ⟨Manager.wellFormed_init, UpstreamWs.correlated_init, ?_, ?_, ?_, ?_, ?_, ?_, ?_⟩
  · intro t c hc
    cases hc
  · intro t _
    cases t <;> rfl
  · intro t t' c hc
    cases hc
  · intro c _
    rfl
  · exact ⟨nofun, fun hne => absurd rfl hne⟩
  · nofun
  · nofun

end

end Service

end ExecRestApi
