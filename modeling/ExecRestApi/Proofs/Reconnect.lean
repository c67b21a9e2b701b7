/-
What a reconnect leaves behind.

`_run_forever` awaits `on_reconnect` before it reads, so a re-subscribe request is never
answered (`Sound.no_renewal`): every slot open at that moment keeps its old id, which leads
nowhere (`not_live_again`).  The slots are right on the new connection only if there were
none when `on_reconnect` got the lock, and then the calls of `subscribe` make them anew.

`Revived` follows a connection from the moment it is open.  As long as `on_reconnect` finds no
slot when it gets the lock, every slot there is was made on the open connection, with the id it
was given there, and the id leads to it.
-/
import ExecRestApi.Proofs.Ownership

namespace ExecRestApi

open Py Transition

namespace Manager

/-- Every slot has an id that meets `P` with what it was opened for, and the id leads to it. -/
def Tied (m : Manager) (P : Json → RpcCall → Prop) : Prop :=
  ∀ key r, m.slots.get? key = some r →
    P (m.slot r).subscriptionId (subscribeCall (m.slot r).kind (m.slot r).params)
      ∧ (∃ x, (m.slot r).subscriptionId = .str x)
      ∧ m.bySubId.get? (m.slot r).subscriptionId = some r

section

variable {connected : Bool} {m m' : Manager} {op : Op} {P : Json → RpcCall → Prop}

theorem Tied.mono {P' : Json → RpcCall → Prop} (h : m.Tied P) (hP : ∀ id call, P id call → P' id call) :
    m.Tied P' := by
  intro key r hr
  obtain ⟨hp, hrest⟩ := h key r hr
  exact ⟨hP _ _ hp, hrest⟩

theorem tied_of_empty (h : m.slots.entries = []) : m.Tied P := by
  intro key r hr
  rw [Dict.entries_eq_nil.mp h key] at hr
  cases hr

/-- The slots stay, and so do what they were opened for and where their ids lead. -/
theorem Tied.frame (h : m.Tied P) (hslots : m'.slots = m.slots) (hby : m'.bySubId = m.bySubId)
    (hslot : ∀ r, (m'.slot r).kind = (m.slot r).kind ∧ (m'.slot r).params = (m.slot r).params
      ∧ (m'.slot r).subscriptionId = (m.slot r).subscriptionId) : m'.Tied P := by
  intro key r hr
  rw [hslots] at hr
  obtain ⟨hkind, hparams, hid⟩ := hslot r
  rw [hkind, hparams, hid, hby]
  exact h key r hr

/-- **A step of another task than `on_reconnect` keeps the slots tied**, if a new id is right and
not the id of a slot. -/
theorem Tied.step (h : m.Tied P) (hm : m.WellFormed) (heff : Effect connected m op m')
    (hruns : Service.runs m op ≠ some .reconnect)
    (hnew : ∀ k v key params, op = .answer (.consumer k) (.ok v) →
      m.phase k = .subscribing key params → P v (subscribeCall key.1 params) ∧ (∃ x, v = .str x)
        ∧ ∀ key' r, m.slots.get? key' = some r → (m.slot r).subscriptionId ≠ v) : m'.Tied P := by
  cases heff with
  | closedAgain => exact h
  | ignored => exact h
  | refused _ => exact h.frame rfl rfl fun _ => ⟨rfl, rfl, rfl⟩
  | unsubscribed _ => exact h.frame rfl rfl fun _ => ⟨rfl, rfl, rfl⟩
  | waiting _ => exact h.frame rfl rfl fun _ => ⟨rfl, rfl, rfl⟩
  | joined _ _ => exact h.frame rfl rfl (slot_consumers m.slot _ _)
  | asked _ _ _ => exact h.frame rfl rfl fun _ => ⟨rfl, rfl, rfl⟩
  | turnedAway _ => exact h.frame rfl rfl fun _ => ⟨rfl, rfl, rfl⟩
  | gone _ _ => exact h.frame rfl rfl fun _ => ⟨rfl, rfl, rfl⟩
  | left _ _ _ => exact h.frame rfl rfl (slot_consumers m.slot _ _)
  | @ended _ k key' r' rest p hk _ _ _ =>
      intro key r hr
      replace hr : (m.slots.erase key').get? key = some r := hr
      obtain ⟨hne, hr⟩ := Dict.get?_erase_eq_some.mp hr
      obtain ⟨hkind, hparams, hid⟩ := slot_consumers m.slot r' [] r
      obtain ⟨hp, ⟨x, hx⟩, hby⟩ := h key r hr
      show P (Function.update m.slot r' _ r).subscriptionId
          (subscribeCall (Function.update m.slot r' _ r).kind (Function.update m.slot r' _ r).params)
        ∧ (∃ x, (Function.update m.slot r' _ r).subscriptionId = .str x)
        ∧ (forget m.bySubId (m.slot r').subscriptionId).get?
          (Function.update m.slot r' _ r).subscriptionId = some r
      rw [hkind, hparams, hid]
      refine ⟨hp, ⟨x, hx⟩, ?_⟩
      have hr' := (hm.members.home k key' r' hk.called_of_removing.2).1
      rw [forget]
      split
      · exact hby
      · refine Dict.get?_erase_eq_some.mpr ⟨?_, hby⟩
        intro heq
        rw [hx] at heq
        have hby' := (h key' r' hr').2.2
        rw [dictKey_eq_str heq, ← hx, hby] at hby'
        injection hby' with hrr
        rw [← hrr] at hr'
        exact hne (hm.members.inj key' key r hr' hr)
  | @created k key' params subId hk _ =>
      obtain ⟨hp, ⟨x, hx⟩, hother⟩ := hnew k subId key' params rfl hk
      intro key r hr
      replace hr : (m.slots.set key' m.nextSlot).get? key = some r := hr
      show P (Function.update m.slot m.nextSlot _ r).subscriptionId
          (subscribeCall (Function.update m.slot m.nextSlot _ r).kind
            (Function.update m.slot m.nextSlot _ r).params)
        ∧ (∃ x, (Function.update m.slot m.nextSlot _ r).subscriptionId = .str x)
        ∧ (m.bySubId.set (dictKey subId) m.nextSlot).get?
          (Function.update m.slot m.nextSlot _ r).subscriptionId = some r
      rw [hx, show dictKey (.str x) = .str x from rfl, ← hx]
      rw [Dict.get?_set] at hr
      split at hr
      · injection hr with hr
        rw [← hr, Function.update_self]
        refine ⟨hp, ⟨x, hx⟩, ?_⟩
        rw [Dict.get?_set_self]
      · rw [Function.update_of_ne (Nat.ne_of_lt (hm.members.exist key r hr))]
        obtain ⟨hp', hx', hby⟩ := h key r hr
        refine ⟨hp', hx', ?_⟩
        rw [Dict.get?_set_ne _ _ (fun heq => hother key r hr heq.symm)]
        exact hby
  | @createdUnhashable k key' params subId hk hsub =>
      obtain ⟨-, ⟨x, hx⟩, -⟩ := hnew k subId key' params rfl hk
      rw [hx] at hsub
      cases hsub
  | unanswered _ => exact h.frame rfl rfl fun _ => ⟨rfl, rfl, rfl⟩
  | reconnectWaiting _ => exact absurd rfl hruns
  | reconnectStarted hturn => exact absurd hturn.runs hruns
  | notRenewed _ => exact absurd rfl hruns
  | renewed _ _ => exact absurd rfl hruns
  | renewedUnhashable _ _ => exact absurd rfl hruns
  | dispatched _ _ => exact h.frame rfl rfl fun _ => ⟨rfl, rfl, rfl⟩
  | read _ _ => exact h.frame rfl rfl fun _ => ⟨rfl, rfl, rfl⟩

/-- What `on_reconnect` leaves when it takes the lock and finds no slot, or no connection. -/
theorem reconnect_ends (heff : Effect connected m op m') (hruns : Service.runs m op = some .reconnect)
    (hop : ∀ outcome, op ≠ .answer .reconnect outcome)
    (hnone : connected = true → m.lock = none → (op = .onReconnect ∧ m.waiters = []
      ∨ op = .grant) → m.slots.entries = []) :
    m'.reconnecting = .acquiring ∨ m'.reconnecting = .idle ∧ m.lock = none ∧ m'.phase = m.phase
      ∧ (connected = true → m'.slots.entries = []) := by
  have hconsumer : ∀ {k : Nat} {Q : Prop}, Service.runs m op = some (.consumer k) → Q := by
    intro k Q hk
    rw [hruns] at hk
    cases hk
  cases heff with
  | closedAgain => cases hruns
  | ignored => cases hruns
  | refused _ => cases hruns
  | unsubscribed _ => cases hruns
  | waiting happ => exact hconsumer happ.runs
  | joined hk _ => exact hconsumer hk.runs
  | asked hk _ _ => exact hconsumer hk.runs
  | turnedAway hk => exact hconsumer hk.runs
  | gone hk _ => exact hconsumer hk.runs
  | left hk _ _ => exact hconsumer hk.runs
  | ended hk _ _ _ => exact hconsumer hk.runs
  | created _ _ => cases hruns
  | createdUnhashable _ _ => cases hruns
  | unanswered _ => cases hruns
  | reconnectWaiting _ => exact .inl rfl
  | reconnectStarted hturn =>
      refine .inr ⟨?_, hturn.1, rfl, ?_⟩
      · show stopsAt connected m.slots.values = .idle
        cases connected with
        | false => rfl
        | true =>
            have hempty := hnone rfl hturn.1 (hturn.2.symm.imp (fun h => ⟨h.1, h.2.1⟩) And.left)
            rw [Dict.values, hempty]
            rfl
      · intro hc
        exact hnone hc hturn.1 (hturn.2.symm.imp (fun h => ⟨h.1, h.2.1⟩) And.left)
  | notRenewed _ => exact absurd rfl (hop _)
  | renewed _ _ => exact absurd rfl (hop _)
  | renewedUnhashable _ _ => exact absurd rfl (hop _)
  | dispatched _ _ => cases hruns
  | read _ _ => cases hruns

end

end Manager

namespace Service

/-! ### The slots of the open connection

A slot is `Live` if the upstream opened its subscription on this connection and has not ended
it.  `Current` says so of all slots, and of the calls that have still to become one.
-/

/-- The upstream opened a subscription with the id `id` for `call` on the open connection, and
the call of `request` that asked for it is over. -/
def Live (s : Service) (id : Json) (call : RpcCall) : Prop :=
  ∃ o ∈ s.node.opened, o.subId = id ∧ o.call = call
    ∧ ∀ c g f, (s.ws.call c).inFlight ≠ some (g, o.rid, f)

/-- The slots and the calls of `subscribe` belong to the open connection. -/
structure Current (s : Service) : Prop where
  asking : ∀ t call c g rid f, s.mgr.awaits t = some call → call.method = "eth_subscribe" →
    s.awaiting t = some c → (s.ws.call c).inFlight = some (g, rid, f) → s.ws.socket = some g
  tied : s.mgr.Tied s.Live

/-- No call to `on_reconnect` is due or in progress: either there was no connection yet, or
`_read_loop` reads from an open one. -/
def Settled (s : Service) : Prop :=
  s.ws.connectedEvent = false ∨ s.ws.runner = .reading ∧ s.ws.connected = true

/-- When `on_reconnect` gets the lock on an open connection, there are no slots. -/
def Restful (s : Service) : Op → Prop
  | .connect => s.ws.connectedEvent = true → s.mgr.lock = none → s.mgr.waiters = [] →
      s.mgr.slots.entries = []
  | .grant => s.ws.connected = true → s.mgr.lock = none →
      s.mgr.waiters.head? = some .reconnect → s.mgr.slots.entries = []
  | _ => True

/-- What holds of the service, step by step. -/
structure Revived (s : Service) : Prop where
  sound : Sound s
  ledger : Ledger s
  calm : ∀ r rest, s.mgr.reconnecting ≠ .resubscribing r rest
  first : s.ws.connectedEvent = false →
    s.ws.socket = none ∧ s.ws.runner = .away ∧ s.node.opened = []
  current : Settled s → Current s

section

variable {s s' : Service}

/-- A segment of another task than `on_reconnect` keeps the slots current. -/
theorem Current.managed (h : Current s) (hledger : Ledger s) {op : Manager.Op} (hready : Ready s op)
    (hm : Managed s op s') (hruns : runs s.mgr op ≠ some .reconnect)
    (hnew : ∀ k v key params, op = .answer (.consumer k) (.ok v) →
      s.mgr.phase k = .subscribing key params → s.Live v (subscribeCall key.1 params)
        ∧ (∃ x, v = .str x)
        ∧ ∀ key' r, s.mgr.slots.get? key' = some r → (s.mgr.slot r).subscriptionId ≠ v) :
    Current s' := by
  refine ⟨?_, ?_⟩
  · intro t call c g rid f hcall hmethod hc hfly
    rw [hm.same.socket]
    rcases hm.awaiting_cases hc with hold | ⟨call', g', -, hcn, hi⟩
    · obtain ⟨call', g', rid', f', hcall', hfly', -⟩ := hready.flying t c hold
      rw [(hm.call_eq hready hfly').1] at hfly
      -- the task awaits the same call as before
      have hsame := Manager.awaits_keep hready.wf hm.effect hcall' (by
        intro outcome hop
        rw [hready.answered t outcome hop] at hold
        cases hold)
      rw [hcall] at hsame
      injection hsame with hsame
      rw [← hsame] at hcall'
      exact h.asking t call c g rid f hcall' hmethod hold hfly
    · rw [hcn, hi.call.1] at hfly
      cases hfly
      exact hi.socket
  · have hlive : ∀ id call, s.Live id call → s'.Live id call := by
      intro id call ⟨o, ho, hid, hcall, hnot⟩
      rw [Live, hm.node]
      refine ⟨o, ho, hid, hcall, ?_⟩
      intro c g f hfly
      rcases hm.calls with ⟨hq, -⟩ | ⟨t, call', g', -, hi⟩
      · rw [hq.calls] at hfly
        exact hnot c g f hfly
      · by_cases hcn : c = s.nextCall
        · rw [hcn, hi.call.1] at hfly
          injection hfly with hfly
          have hlt := (hledger.opened o ho).1
          have hrid : s.ws.nextId = o.rid := congrArg (fun x => x.2.1) hfly
          omega
        · rw [hi.calls, Function.update_of_ne hcn] at hfly
          exact hnot c g f hfly
    exact (h.tied.step hready.wf hm.effect hruns hnew).mono hlive

/-- Nothing is asked for, and there are no slots. -/
theorem current_of_empty (hslots : s.mgr.slots.entries = [])
    (hphase : ∀ t call, s.mgr.awaits t = some call → call.method ≠ "eth_subscribe") : Current s := by
  refine ⟨?_, Manager.tied_of_empty hslots⟩
  intro t call c g rid f hcall hmethod
  exact absurd hmethod (hphase t call hcall)

/-- While the lock is free, nobody asks for a subscription. -/
theorem asking_locked {m : Manager} (hl : m.LockConsistent) {t : Task} {call : RpcCall}
    (hcall : m.awaits t = some call) (hmethod : call.method = "eth_subscribe") :
    m.lock = some t := by
  cases t with
  | reconnect =>
      obtain ⟨r, rest, hrc, -⟩ := Manager.reconnecting_of_awaits hcall
      exact hl.resubscribing hrc
  | consumer k =>
      rcases Manager.phase_of_awaits hcall with ⟨key, params, hk, -⟩ | ⟨subId, -, heq⟩
      · exact hl.subscribing hk
      · rw [heq] at hmethod
        exact absurd (show "eth_unsubscribe" = "eth_subscribe" from hmethod) (by decide)

/-- A segment of the manager, from a state that is as `Revived` wants it. -/
theorem revived_of_manage {op : Manager.Op} (hready : Ready s op) (hledger : Ledger s)
    (hcalm : ∀ r rest, s.mgr.reconnecting ≠ .resubscribing r rest)
    (hfirst : s.ws.connectedEvent = false →
      s.ws.socket = none ∧ s.ws.runner = .away ∧ s.node.opened = [])
    (hcurrent : Settled s → Current s)
    (hrest : s.ws.connected = true → s.mgr.lock = none →
      (op = .onReconnect ∧ s.mgr.waiters = [] ∨ op = .grant ∧ runs s.mgr op = some .reconnect) →
        s.mgr.slots.entries = [])
    (hnew : Settled s → ∀ k v key params, op = .answer (.consumer k) (.ok v) →
      s.mgr.phase k = .subscribing key params → s.Live v (subscribeCall key.1 params)
        ∧ (∃ x, v = .str x)
        ∧ ∀ key' r, s.mgr.slots.get? key' = some r → (s.mgr.slot r).subscriptionId ≠ v)
    (hs : s.manage op = some s') : Revived s' := by
  have hm := hready.managed hs
  have hop : ∀ outcome, op ≠ .answer .reconnect outcome := by
    intro outcome heq
    have hstep := hm.step
    rw [heq, Manager.step, Manager.answered] at hstep
    split at hstep
    · rename_i r rest hrc
      exact absurd hrc (hcalm r rest)
    · cases hstep
  have hends : runs s.mgr op = some .reconnect → s'.mgr.reconnecting = .acquiring
      ∨ s'.mgr.reconnecting = .idle ∧ s.mgr.lock = none ∧ s'.mgr.phase = s.mgr.phase
        ∧ (s.ws.connected = true → s'.mgr.slots.entries = []) := by
    intro hruns
    refine Manager.reconnect_ends hm.effect hruns hop ?_
    intro hc hlock hcase
    exact hrest hc hlock (hcase.imp id fun h => ⟨h, hruns⟩)
  refine ⟨hready.sound hs, hledger.managed hready hm, ?_, ?_, ?_⟩
  · intro r rest hrc
    by_cases hruns : runs s.mgr op = some .reconnect
    · rcases hends hruns with h | ⟨h, -⟩ <;> rw [hrc] at h <;> cases h
    · rw [Manager.reconnecting_other hm.effect hruns] at hrc
      exact hcalm r rest hrc
  · intro hev
    rw [hm.same.connectedEvent] at hev
    obtain ⟨hsocket, haway, hopened⟩ := hfirst hev
    rw [hm.same.socket, hm.node, hm.runner, haway, if_neg (by simp)]
    exact ⟨hsocket, rfl, hopened⟩
  · intro hsettled
    by_cases hruns : runs s.mgr op = some .reconnect
    · have hrc : s.ws.runner = .reconnecting := by
        by_cases hcall : op = .onReconnect
        · exact hready.calledBack hcall
        · exact (hready.runner hcall).mpr (Manager.started_of_runs hm.effect hruns hcall)
      rcases hsettled with hev | ⟨hreading, hconn⟩
      · rw [hm.same.connectedEvent] at hev
        rw [(hfirst hev).2.1] at hrc
        cases hrc
      · rcases hends hruns with hacq | ⟨hidle, hlock, hphase, hempty⟩
        · have hr := (hready.sound hs).runner.mpr (by rw [hacq]; decide)
          rw [hreading] at hr
          cases hr
        · refine current_of_empty (hempty (hm.connected hconn)) ?_
          intro t call hcall hmethod
          cases t with
          | reconnect =>
              rw [Manager.awaits, hidle] at hcall
              cases hcall
          | consumer k =>
              have hsame : s'.mgr.awaits (.consumer k) = s.mgr.awaits (.consumer k) :=
                Manager.awaits_consumer_congr (by rw [hphase])
              rw [hsame] at hcall
              have hheld := asking_locked hready.wf.locks hcall hmethod
              rw [hlock] at hheld
              cases hheld
    · have hbefore : Settled s := by
        rcases hsettled with hev | ⟨hreading, hconn⟩
        · left
          rw [← hm.same.connectedEvent]
          exact hev
        · refine .inr ⟨?_, hm.connected hconn⟩
          rw [hm.runner] at hreading
          split at hreading
          · rename_i hand
            have hcall : op ≠ .onReconnect := by
              intro hcall
              rw [hcall] at hruns
              exact hruns rfl
            have hne := (hready.runner hcall).mp hand.1
            rw [← Manager.reconnecting_other hm.effect hruns] at hne
            exact absurd hand.2.1 hne
          · exact hreading
      exact (hcurrent hbefore).managed hledger hready hm hruns (hnew hbefore)

/-- A step of the socket keeps the slots as they are. -/
theorem Revived.setWs (h : Revived s) {ws : UpstreamWs} {inbox : List Frame}
    {wire : List (Int × RpcCall)} {node : Node}
    (hsound : Sound { s with ws := ws, inbox := inbox, wire := wire, node := node })
    (hledger : Ledger { s with ws := ws, inbox := inbox, wire := wire, node := node })
    (hevent : ws.connectedEvent = s.ws.connectedEvent)
    (hfirst : s.ws.connectedEvent = false → ws.socket = none ∧ ws.runner = .away ∧ node.opened = [])
    (hsettled : ws.runner = .reading → ws.connected = true →
      s.ws.runner = .reading ∧ s.ws.connected = true)
    (hfly : ∀ c, (ws.call c).inFlight = (s.ws.call c).inFlight)
    (hsocket : Settled s → ws.socket = s.ws.socket)
    (hopened : ∀ o ∈ s.node.opened, o ∈ node.opened) :
    Revived { s with ws := ws, inbox := inbox, wire := wire, node := node } := by
  refine ⟨hsound, hledger, h.calm, fun hev => hfirst (hevent ▸ hev), ?_⟩
  intro hnow
  have hbefore : Settled s := by
    rcases hnow with hev | ⟨hr, hc⟩
    · exact .inl (hevent ▸ hev)
    · exact .inr (hsettled hr hc)
  have hcur := h.current hbefore
  refine ⟨?_, ?_⟩
  · intro t call c g rid f hcall hmethod hc hf
    rw [hfly] at hf
    show ws.socket = some g
    rw [hsocket hbefore]
    exact hcur.asking t call c g rid f hcall hmethod hc hf
  · refine hcur.tied.mono ?_
    intro id call ⟨o, ho, hid, hcall, hnot⟩
    refine ⟨o, hopened o ho, hid, hcall, ?_⟩
    intro c g f hf
    rw [hfly] at hf
    exact hnot c g f hf

/-- A call ends and its task goes on. -/
theorem Revived.answer (h : Revived s) (wire : List (Int × RpcCall)) {t : Task} {c g f : Nat} {rid : Int}
    (hc : s.awaiting t = some c) (hfly : (s.ws.call c).inFlight = some (g, rid, f))
    {outcome : Except Exc Json} (hres : ∀ v, outcome = .ok v → s.ws.future f = .result v)
    (hwire : wire.Sublist s.wire)
    (hs : { s with wire := wire }.answer t c g rid outcome = some s') : Revived s' := by
  have hready := h.sound.ready_answer hc hfly outcome wire
    ({ s with wire := wire }.grantedAfter t g outcome)
  have hledger := h.ledger.finish t c rid outcome hwire ({ s with wire := wire }.grantedAfter t g outcome)
  have hcalls : ∀ {c' : Nat} {x : Nat × Int × Nat},
      ((s.ws.finish c rid outcome).call c').inFlight = some x →
      c' ≠ c ∧ (s.ws.call c').inFlight = some x := by
    intro c' x hx
    by_cases hcc : c' = c
    · rw [hcc, UpstreamWs.finish_call] at hx
      cases outcome <;> cases hx
    · rw [show (s.ws.finish c rid outcome).call c' = s.ws.call c' from Function.update_of_ne hcc ..]
        at hx
      exact ⟨hcc, hx⟩
  refine revived_of_manage hready hledger h.calm h.first ?_ ?_ ?_ hs
  · intro hnow
    have hcur := h.current hnow
    refine ⟨?_, hcur.tied.mono ?_⟩
    · intro t' call c' g' rid' f' hcall hmethod hc' hf
      refine hcur.asking t' call c' g' rid' f' hcall hmethod ?_ (hcalls hf).2
      replace hc' : Function.update s.awaiting t none t' = some c' := hc'
      by_cases htt : t' = t
      · rw [htt, Function.update_self] at hc'
        cases hc'
      · rwa [Function.update_of_ne htt] at hc'
    · intro id call ⟨o, ho, hid, hcall, hnot⟩
      exact ⟨o, ho, hid, hcall, fun c' g' f' hf => hnot c' g' f' (hcalls hf).2⟩
  · intro _ _ hcase
    rcases hcase with ⟨hop, -⟩ | ⟨hop, -⟩ <;> cases hop
  · intro hnow k v key params hop hk
    injection hop with ht hout
    have hcur := h.current hnow
    obtain ⟨call, g', rid', f', hcall, hfly', hasked⟩ := h.sound.flying t c hc
    rw [hfly] at hfly'
    cases hfly'
    have hcall' : call = subscribeCall key.1 params := by
      rw [ht, Manager.awaits, show s.mgr.phase k = .subscribing key params from hk] at hcall
      injection hcall with hcall
      exact hcall.symm
    have hmethod : call.method = "eth_subscribe" := by
      rw [hcall']
      rfl
    have hmem := h.ledger.answered c g rid f v call hfly (hres v hout)
      (hcur.asking t call c g rid f hcall hmethod hc hfly) hasked hmethod
    refine ⟨⟨_, hmem, rfl, hcall', ?_⟩, (h.ledger.opened _ hmem).2.2.2.2.1, ?_⟩
    · intro c' g' f' hf
      obtain ⟨hcc, hf⟩ := hcalls hf
      exact hcc (h.sound.corr.ridInj c' c rid (Call.rid_of_inFlight hf) (Call.rid_of_inFlight hfly))
    · -- the id of a slot was given to a call that is over
      intro key' r hr hid
      obtain ⟨⟨o, ho, hoid, -, hnot⟩, -⟩ := hcur.tied key' r hr
      have heq := h.ledger.distinct o ho _ hmem (.inl (hoid.trans hid))
      rw [heq] at hnot
      exact hnot c g f hfly

/-- **Every step keeps the slots of an open connection current**, if `on_reconnect` never finds
one. -/
theorem Revived.step (h : Revived s) {op : Op} (hok : Honest s op ∧ Restful s op)
    (hs : s.step op = some s') : Revived s' := by
  have hsound := h.sound.step hs
  have hledger := h.ledger.step h.sound hok.1 hs
  cases effect_of_step hs with
  | managed hop hs =>
      refine revived_of_manage (h.sound.ready hop.plain.1 hop.plain.2) h.ledger h.calm h.first
        h.current ?_ ?_ hs
      · intro hc hlock hcase
        cases hop with
        | grant =>
            rcases hcase with ⟨hcall, -⟩ | ⟨-, hruns⟩
            · cases hcall
            · exact hok.2 hc hlock hruns
        | subscribe => rcases hcase with ⟨hcall, -⟩ | ⟨hcall, -⟩ <;> cases hcall
        | aclose => rcases hcase with ⟨hcall, -⟩ | ⟨hcall, -⟩ <;> cases hcall
        | read => rcases hcase with ⟨hcall, -⟩ | ⟨hcall, -⟩ <;> cases hcall
      · intro _ k v key params hcall
        exact absurd hcall (hop.plain.1 _ _)
  | @sent t c g f rid hc hcall =>
      exact h.setWs hsound hledger rfl h.first (fun hr hc => ⟨hr, hc⟩)
        (UpstreamWs.inFlight_setCall (by rw [hcall]; rfl)) (fun _ => rfl) fun _ => id
  | sendFailed hc hcall hs =>
      exact h.answer _ hc (by rw [hcall]; rfl) (fun v hv => by cases hv) List.filter_sublist hs
  | received _ _ =>
      exact h.setWs hsound hledger rfl h.first (fun hr hc => ⟨hr, hc⟩) (fun _ => rfl) (fun _ => rfl)
        fun _ => id
  | expired _ _ =>
      exact h.setWs hsound hledger rfl h.first (fun hr hc => ⟨hr, hc⟩) (fun _ => rfl) (fun _ => rfl)
        fun _ => id
  | resumed hc hcall hf hs =>
      refine h.answer s.wire hc (by rw [hcall]; rfl) ?_ (.refl _) hs
      intro v hv
      exact result_of_outcome (by rw [← hv]; exact hf)
  | connected haway hev =>
      refine ⟨hsound, hledger, h.calm, nofun, ?_⟩
      intro _
      obtain ⟨hsocket, -, hopened⟩ := h.first hev
      have hcur := h.current (.inl hev)
      refine current_of_empty ?_ ?_
      · apply Dict.entries_eq_nil.mpr
        intro key
        rcases hr : s.mgr.slots.get? key with _ | r
        · exact hr
        · obtain ⟨⟨o, ho, -⟩, -⟩ := hcur.tied key r hr
          rw [hopened] at ho
          cases ho
      · intro t call hcall hmethod
        rcases hc : s.awaiting t with _ | c
        · have hnone := h.sound.idle t hc
          rw [show s.mgr.awaits t = some call from hcall] at hnone
          cases hnone
        · obtain ⟨call', g, rid, f, hcall', hfly, -⟩ := h.sound.flying t c hc
          rw [show s.mgr.awaits t = some call from hcall] at hcall'
          injection hcall' with hcall'
          have hg := hcur.asking t call c g rid f hcall hmethod hc hfly
          rw [hsocket] at hg
          cases hg
  | reconnected haway hev hs =>
      refine revived_of_manage ((h.sound.newConnection haway).2 hev) (Ledger.newConnection h.sound)
        h.calm (fun hev => by cases hev) ?_ ?_ ?_ hs
      · intro hnow
        rcases hnow with hfalse | ⟨hr, -⟩
        · cases hfalse
        · replace hr : (if s.ws.connectedEvent then Runner.reconnecting else .reading) = .reading := hr
          rw [hev] at hr
          cases hr
      · intro _ hlock hcase
        rcases hcase with ⟨-, hw⟩ | ⟨hcall, -⟩
        · exact hok.2 hev hlock hw
        · cases hcall
      · intro _ k v key params hcall
        cases hcall
  | dropped =>
      exact h.setWs hsound hledger rfl h.first (fun hr hc => ⟨hr, hc⟩) (fun _ => rfl) (fun _ => rfl)
        fun _ => id
  | noticed =>
      refine h.setWs hsound hledger rfl h.first ?_ (fun _ => rfl) (fun _ => rfl) fun _ => id
      intro _ hc
      obtain ⟨-, -, hopen⟩ := connected_iff.mp hc
      cases hopen
  | left hr hclosed =>
      refine h.setWs hsound hledger rfl ?_ nofun (fun _ => rfl) ?_ fun _ => id
      · intro hev
        rw [(h.first hev).2.1] at hr
        cases hr
      · intro hnow
        exfalso
        rcases hnow with hev | ⟨-, hc⟩
        · rw [(h.first hev).2.1] at hr
          cases hr
        · obtain ⟨-, -, hopen⟩ := connected_iff.mp hc
          rw [hclosed] at hopen
          cases hopen
  | @arrived frame hconn =>
      refine h.setWs hsound hledger rfl ?_ (fun hr hc => ⟨hr, hc⟩) (fun _ => rfl) (fun _ => rfl) ?_
      · intro hev
        obtain ⟨g, hg, -⟩ := connected_iff.mp hconn
        rw [(h.first hev).1] at hg
        cases hg
      · intro o ho
        exact Node.opened_send s.node frame ho
  | @notified payload rest _ hi hr hs =>
      refine revived_of_manage (h.sound.ready_notification rest payload) (h.ledger.take hi) h.calm
        h.first ?_ ?_ ?_ hs
      · intro hnow
        exact ⟨(h.current hnow).asking, (h.current hnow).tied⟩
      · intro _ _ hcase
        rcases hcase with ⟨hcall, -⟩ | ⟨hcall, -⟩ <;> cases hcall
      · intro _ k v key params hcall
        cases hcall
  | @delivered frame rest hi hr hframe =>
      obtain ⟨hcalls, hrunner, hsocket, -, -, hevent⟩ := UpstreamWs.dispatch_frame s.ws frame
      refine h.setWs hsound hledger hevent ?_ ?_ (fun c => by rw [hcalls]) (fun _ => hsocket) fun _ => id
      · intro hev
        rw [hsocket, hrunner]
        exact h.first hev
      · intro _ hc
        exact ⟨(reading_of_isReading hr).1, connected_of_dispatch hr hc⟩

theorem revived_init : Revived init := by
  refine ⟨sound_init, ledger_init, nofun, fun _ => ⟨rfl, rfl, rfl⟩, ?_⟩
  intro _
  refine current_of_empty rfl ?_
  intro t call hcall
  cases t <;> cases hcall

/-! ### The theorem

The failing run is the shortest one there is: a stream, a connection that drops, and the next
one.
-/

/-- **After a reconnect the slots are live again**, if there were none when `on_reconnect` got
the lock: each has the id the upstream gave it on this connection, and the id leads to it.  And
no re-subscribe request runs into its timeout. -/
theorem live_again {ls : List Op} (h : Run step (fun s op => Honest s op ∧ Restful s op) init ls s) :
    (s.ws.runner = .reading → s.ws.connected = true → ∀ key r, s.mgr.slots.get? key = some r →
        (∃ o ∈ s.node.opened, (s.mgr.slot r).subscriptionId = o.subId
          ∧ o.call = subscribeCall (s.mgr.slot r).kind (s.mgr.slot r).params)
        ∧ s.mgr.bySubId.get? (s.mgr.slot r).subscriptionId = some r)
      ∧ s.step (.expire .reconnect) = none := by
  have hr : Revived s := h.preserves (fun _ _ _ hI hok hs => hI.step hok hs) revived_init
  refine ⟨?_, ?_⟩
  · intro hreading hconn key r hslot
    obtain ⟨⟨o, ho, hid, hcall, -⟩, -, hby⟩ := (hr.current (.inr ⟨hreading, hconn⟩)).tied key r hslot
    exact ⟨⟨o, ho, hid.symm, hcall⟩, hby⟩
  · rcases hc : s.awaiting .reconnect with _ | c
    · rw [step, hc]
    · obtain ⟨call, -, -, -, hcall, -⟩ := hr.sound.flying _ c hc
      rw [Manager.awaits_reconnect_eq_none hr.calm] at hcall
      cases hcall

/-- An `eth_subscribe` does not time out as long as the upstream has it and has not answered. -/
def Prompt (s : Service) : Op → Prop
  | .expire t => ∀ c g rid f call, s.awaiting t = some c → s.ws.call c = .waiting g rid f →
      s.asked rid = some call → call.method = "eth_subscribe" → (rid, call) ∉ s.node.received
  | _ => True

/-- A stream is opened on the second connection. -/
private def openAfter : List Op :=
  [.connect, .drop, .notice, .leave, .connect, .subscribe 0 .newHeads .null, .sent (.consumer 0),
    .receive, .arrive (.reply 1 (.result (.str "0xa"))), .deliver, .resume (.consumer 0)]

/-- A stream is open when the connection is lost; the upstream answers the re-subscribe request
at once, and the request runs into its timeout. -/
private def openBefore : List Op :=
  [.connect, .subscribe 0 .newHeads .null, .sent (.consumer 0), .receive,
    .arrive (.reply 1 (.result (.str "0xa"))), .deliver, .resume (.consumer 0), .drop, .notice,
    .leave, .connect, .sent .reconnect, .receive, .arrive (.reply 2 (.result (.str "0xb"))),
    .expire .reconnect, .resume .reconnect]

private def reached (ls : List Op) : Service := (exec step init ls).getD init

/-- The answer to a request for new heads, with an id not given before. -/
private theorem honest_answer {rid : Int} {x : String} {given : List Json}
    (hreceived : s.node.received = [(rid, subscribeCall .newHeads .null)])
    (hgiven : s.node.given = given) (hx : .str x ∉ given) :
    Honest s (.arrive (.reply rid (.result (.str x)))) := by
  refine ⟨_, by rw [hreceived]; exact List.mem_cons_self, rfl, ?_⟩
  intro o ho
  obtain ⟨-, -, -, ha⟩ := Node.mem_opens ho
  injection ha with hid
  refine ⟨x, hid.symm, ?_⟩
  rw [hgiven, ← hid]
  exact hx

theorem live_again_once : (reached openAfter).mgr.slots.values = [0]
    ∧ (∃ o ∈ (reached openAfter).node.opened,
      ((reached openAfter).mgr.slot 0).subscriptionId = o.subId)
    ∧ (reached openAfter).mgr.bySubId.get? (.str "0xa") = some 0 := by
  have hrun : Run step (fun s op => Honest s op ∧ Restful s op) init openAfter (reached openAfter) :=
    .cons rfl ⟨trivial, nofun⟩ (.cons rfl ⟨trivial, trivial⟩ (.cons rfl ⟨trivial, trivial⟩
      (.cons rfl ⟨trivial, trivial⟩ (.cons rfl ⟨trivial, fun _ _ _ => rfl⟩ (.cons rfl
        ⟨trivial, trivial⟩ (.cons rfl ⟨trivial, trivial⟩ (.cons rfl ⟨trivial, trivial⟩ (.cons rfl
          ⟨honest_answer rfl rfl List.not_mem_nil, trivial⟩ (.cons rfl ⟨trivial, trivial⟩ (.cons rfl
            ⟨trivial, trivial⟩ (.nil _)))))))))))
  obtain ⟨⟨o, ho, hid, -⟩, hby⟩ := (live_again hrun).1 (by rfl) (by rfl) (.newHeads, "null") 0 (by rfl)
  exact ⟨by rfl, ⟨o, ho, hid⟩, hby⟩

/-- The slot keeps the id of the connection before, on which the upstream opened nothing. -/
theorem not_live_again : ¬ ∀ (s : Service) (ls : List Op),
    Run step (fun s op => Honest s op ∧ Prompt s op) init ls s → s.ws.runner = .reading →
    s.ws.connected = true → ∀ key r, s.mgr.slots.get? key = some r →
      ∃ o ∈ s.node.opened, (s.mgr.slot r).subscriptionId = o.subId := by
  intro h
  have hrun : Run step (fun s op => Honest s op ∧ Prompt s op) init openBefore
      (reached openBefore) := by
    refine .cons rfl ⟨trivial, trivial⟩ (.cons rfl ⟨trivial, trivial⟩ (.cons rfl ⟨trivial, trivial⟩
      (.cons rfl ⟨trivial, trivial⟩ (.cons rfl ⟨honest_answer rfl rfl List.not_mem_nil, trivial⟩
        (.cons rfl ⟨trivial, trivial⟩ (.cons rfl ⟨trivial, trivial⟩ (.cons rfl ⟨trivial, trivial⟩
          (.cons rfl ⟨trivial, trivial⟩ (.cons rfl ⟨trivial, trivial⟩ (.cons rfl ⟨trivial, trivial⟩
            (.cons rfl ⟨trivial, trivial⟩ (.cons rfl ⟨trivial, trivial⟩ (.cons rfl
              ⟨honest_answer rfl rfl (by decide), trivial⟩ (.cons rfl ⟨trivial, ?_⟩
                (.cons rfl ⟨trivial, trivial⟩ (.nil _))))))))))))))))
    intro c g rid f call _ _ _ _
    exact List.not_mem_nil
  obtain ⟨o, ho, hid⟩ := h _ _ hrun (by rfl) (by rfl) (.newHeads, "null") 0 (by rfl)
  replace ho : o ∈ [(⟨2, .str "0xb", subscribeCall .newHeads .null⟩ : Opened)] := ho
  rw [List.mem_singleton.mp ho] at hid
  replace hid : Json.str "0xa" = Json.str "0xb" := hid
  revert hid
  decide

end

end Service

end ExecRestApi
