/-
Who owns the subscriptions that are alive at the upstream.

A subscription is opened for a call that still waits, becomes the id of a slot when that
call runs on, and is named by an `eth_unsubscribe` when the slot ends.  `Owned` lists these
three places.  A subscription falls out of them when the call it is opened for no longer
waits: the upstream then keeps it alive for nobody (`orphaned`).

`Accounted` is the invariant, and it is kept by every step in which an answer that opens a
subscription finds its caller waiting (`Timely`).  Where no request is under way, two of the
three places are empty, so that what is alive at the upstream is the id of a slot.
-/
import ExecRestApi.Proofs.Bookkeeping
import ExecRestApi.Proofs.Delivery
import ExecRestApi.Proofs.Ledger

namespace ExecRestApi

open Py Transition

theorem subscribeCall_inj {kind kind' : StreamKind} {params params' : Json}
    (h : subscribeCall kind params = subscribeCall kind' params') :
    kind = kind' ∧ params = params' := by
  rw [subscribeCall, subscribeCall] at h
  injection h with _ hargs
  have hkind : ∀ {k k' : StreamKind}, k.literal = k'.literal → k = k' := by
    intro k k' hk
    cases k <;> cases k' <;> first | rfl | exact absurd hk (by decide)
  rw [paramsToSubscribeArgs, paramsToSubscribeArgs] at hargs
  split at hargs <;> split at hargs
  · rename_i hnull hnull'
    injection hargs with hhead _
    injection hhead with hlit
    exact ⟨hkind hlit, by rw [hnull, hnull']⟩
  · injection hargs with _ htail
    cases htail
  · injection hargs with _ htail
    cases htail
  · injection hargs with hhead htail
    injection hhead with hlit
    injection htail with hparams _
    exact ⟨hkind hlit, hparams⟩

namespace Manager

/-! ### Slots and their keys

A slot stands under the key of what it was opened for, and no two keys make the same request.
This is what turns "no two slots" into "no two subscriptions for one filter".
-/

/-- A slot stands under the key of what it was opened for. -/
structure Keyed (m : Manager) : Prop where
  asking : ∀ k key params, m.phase k = .acquiring key params ∨ m.phase k = .subscribing key params →
    canonicalize params = .ok key.2
  slot : ∀ key r, m.slots.get? key = some r →
    (m.slot r).kind = key.1 ∧ canonicalize (m.slot r).params = .ok key.2

/-- A slot that is open for a subscription. -/
def Holds (m : Manager) (id : Json) (call : RpcCall) : Prop :=
  ∃ key r, m.slots.get? key = some r ∧ (m.slot r).subscriptionId = id
    ∧ subscribeCall (m.slot r).kind (m.slot r).params = call

section

variable {connected : Bool} {m m' : Manager} {op : Op}

/-- The slots of `m'` are slots of `m`, or the one that `k` has just been given. -/
theorem Keyed.frame (h : m.Keyed) {k : Nat} {p : Phase}
    (hphase : m'.phase = Function.update m.phase k p)
    (hp : ∀ key params, p = .acquiring key params ∨ p = .subscribing key params →
      canonicalize params = .ok key.2)
    (hslot : ∀ key r, m'.slots.get? key = some r → m.slots.get? key = some r
      ∧ (m'.slot r).kind = (m.slot r).kind ∧ (m'.slot r).params = (m.slot r).params) :
    m'.Keyed := by
  refine ⟨?_, ?_⟩
  · intro j key params hj
    rw [hphase] at hj
    by_cases hjk : j = k
    · rw [hjk, Function.update_self] at hj
      exact hp key params hj
    · rw [Function.update_of_ne hjk] at hj
      exact h.asking j key params hj
  · intro key r hr
    obtain ⟨hold, hkind, hparams⟩ := hslot key r hr
    rw [hkind, hparams]
    exact h.slot key r hold

theorem slot_newId (slot : SlotRef → Slot) (r : SlotRef) (id : Json) (q : SlotRef) :
    (Function.update slot r { slot r with subscriptionId := id } q).kind = (slot q).kind
      ∧ (Function.update slot r { slot r with subscriptionId := id } q).params = (slot q).params := by
  by_cases hq : q = r
  · rw [hq, Function.update_self]
    exact ⟨rfl, rfl⟩
  · rw [Function.update_of_ne hq]
    exact ⟨rfl, rfl⟩

theorem AtLock.asking {k : Nat} {rest : List Task} {key : SlotKey} {params : Json} (hm : m.Keyed)
    (h : AtLock m op k rest (.acquiring key params)) : canonicalize params = .ok key.2 := by
  rcases h.2 with ⟨-, -, hp⟩ | ⟨-, -, happ⟩
  · exact hm.asking k key params (.inl hp)
  · cases happ with
    | subscribe _ htext => exact htext

/-- A new slot under the key of its call. -/
theorem Keyed.create (h : m.Keyed) (hm : m.WellFormed) {k : Nat} {key : SlotKey} {params : Json}
    (hk : m.phase k = .subscribing key params) {s : Slot} (hs : s.kind = key.1)
    (hparams : s.params = params) {p : Phase}
    (hp : (∀ key params, p ≠ .acquiring key params) ∧ ∀ key params, p ≠ .subscribing key params)
    (hphase : m'.phase = Function.update m.phase k p)
    (hslots : m'.slots = m.slots.set key m.nextSlot)
    (hslot : m'.slot = Function.update m.slot m.nextSlot s) : m'.Keyed := by
  refine ⟨?_, ?_⟩
  · intro j key' params' hj
    rw [hphase] at hj
    by_cases hjk : j = k
    · rw [hjk, Function.update_self] at hj
      rcases hj with hj | hj
      · exact absurd hj (hp.1 _ _)
      · exact absurd hj (hp.2 _ _)
    · rw [Function.update_of_ne hjk] at hj
      exact h.asking j key' params' hj
  · intro key' r hr
    rw [hslots, Dict.get?_set] at hr
    rw [hslot]
    split at hr
    · rename_i hkey
      injection hr with hr
      rw [← hr, Function.update_self, hs, hparams, ← hkey]
      exact ⟨rfl, h.asking k key params (.inr hk)⟩
    · rw [Function.update_of_ne (Nat.ne_of_lt (hm.members.exist key' r hr))]
      exact h.slot key' r hr

/-- **Every step keeps the keys.** -/
theorem Keyed.step (h : m.Keyed) (hm : m.WellFormed) (heff : Effect connected m op m') :
    m'.Keyed := by
  have hquiet : ∀ {k : Nat} {p : Phase}, m'.phase = Function.update m.phase k p →
      (∀ key params, p ≠ .acquiring key params) → (∀ key params, p ≠ .subscribing key params) →
      (∀ key r, m'.slots.get? key = some r → m.slots.get? key = some r
        ∧ (m'.slot r).kind = (m.slot r).kind ∧ (m'.slot r).params = (m.slot r).params) →
      m'.Keyed := by
    intro k p hphase hacq hsub hslot
    refine h.frame hphase ?_ hslot
    intro key params hp
    rcases hp with hp | hp
    · exact absurd hp (hacq _ _)
    · exact absurd hp (hsub _ _)
  have hrenewed : ∀ (q : SlotRef) (newId : Json) (key : SlotKey) (r : SlotRef),
      m.slots.get? key = some r →
      (Function.update m.slot q { m.slot q with subscriptionId := newId } r).kind = key.1
        ∧ canonicalize
            (Function.update m.slot q { m.slot q with subscriptionId := newId } r).params
          = .ok key.2 := by
    intro q newId key r hr
    obtain ⟨hkind, hparams⟩ := slot_newId m.slot q newId r
    rw [hkind, hparams]
    exact h.slot key r hr
  cases heff with
  | closedAgain => exact h
  | ignored => exact h
  | refused _ => exact hquiet rfl nofun nofun fun _ _ hr => ⟨hr, rfl, rfl⟩
  | unsubscribed _ => exact hquiet rfl nofun nofun fun _ _ hr => ⟨hr, rfl, rfl⟩
  | @waiting _ k p happ =>
      refine h.frame rfl ?_ fun _ _ hr => ⟨hr, rfl, rfl⟩
      intro key params hp
      cases happ with
      | subscribe _ htext =>
          rcases hp with hp | hp
          · cases hp
            exact htext
          · cases hp
      | aclose _ => rcases hp with hp | hp <;> cases hp
  | joined _ _ =>
      exact hquiet rfl nofun nofun fun _ r hr =>
        ⟨hr, (slot_consumers m.slot _ _ r).1, (slot_consumers m.slot _ _ r).2.1⟩
  | asked hk _ _ =>
      refine h.frame rfl ?_ fun _ _ hr => ⟨hr, rfl, rfl⟩
      intro key params hp
      rcases hp with hp | hp
      · cases hp
      · cases hp
        exact hk.asking h
  | turnedAway _ => exact hquiet rfl nofun nofun fun _ _ hr => ⟨hr, rfl, rfl⟩
  | gone _ _ => exact hquiet rfl nofun nofun fun _ _ hr => ⟨hr, rfl, rfl⟩
  | left _ _ _ =>
      exact hquiet rfl nofun nofun fun _ r hr =>
        ⟨hr, (slot_consumers m.slot _ _ r).1, (slot_consumers m.slot _ _ r).2.1⟩
  | @ended _ k key r rest p _ _ _ hp =>
      have hcases := afterEnd_cases hp
      refine hquiet rfl ?_ ?_ ?_
      · rcases hcases with h | h <;> rw [h] <;> nofun
      · rcases hcases with h | h <;> rw [h] <;> nofun
      · intro key' r' hr'
        have hsame := slot_consumers m.slot r [] r'
        exact ⟨(Dict.get?_erase_eq_some.mp hr').2, hsame.1, hsame.2.1⟩
  | @created k key params subId hk _ =>
      exact h.create hm hk (s := ⟨key.1, params, subId, [k]⟩) (p := .streaming key m.nextSlot) rfl rfl
        ⟨nofun, nofun⟩ rfl rfl rfl
  | @createdUnhashable k key params subId hk _ =>
      exact h.create hm hk (s := ⟨key.1, params, subId, [k]⟩) (p := .failed .typeError) rfl rfl
        ⟨nofun, nofun⟩ rfl rfl rfl
  | unanswered _ => exact hquiet rfl nofun nofun fun _ _ hr => ⟨hr, rfl, rfl⟩
  | reconnectWaiting _ => exact ⟨h.asking, h.slot⟩
  | reconnectStarted _ => exact ⟨h.asking, h.slot⟩
  | notRenewed _ => exact ⟨h.asking, h.slot⟩
  | renewed _ _ => exact ⟨h.asking, hrenewed _ _⟩
  | renewedUnhashable _ _ => exact ⟨h.asking, hrenewed _ _⟩
  | dispatched _ _ => exact ⟨h.asking, h.slot⟩
  | read _ _ => exact ⟨h.asking, h.slot⟩

/-- A slot keeps its id until it ends, and then the id is named in an `eth_unsubscribe`. -/
theorem Holds.step (hm : m.WellFormed) (heff : Effect connected m op m') (hc : connected = true)
    (hop : ∀ v, op ≠ .answer .reconnect (.ok v)) {x : String} {call : RpcCall}
    (h : m.Holds (.str x) call) : m'.Holds (.str x) call
      ∨ ∃ k, Service.runs m op = some (.consumer k) ∧ m.awaits (.consumer k) = none
        ∧ m'.awaits (.consumer k) = some (unsubscribeCall (.str x)) := by
  obtain ⟨key, r, hr, hid, hcall⟩ := h
  have hkeep : m'.slots = m.slots →
      ((m'.slot r).kind = (m.slot r).kind ∧ (m'.slot r).params = (m.slot r).params
        ∧ (m'.slot r).subscriptionId = (m.slot r).subscriptionId) → m'.Holds (.str x) call := by
    intro hslots ⟨hkind, hparams, hsub⟩
    exact ⟨key, r, by rw [hslots]; exact hr, by rw [hsub]; exact hid,
      by rw [hkind, hparams]; exact hcall⟩
  have hcreate : ∀ {k : Nat} {key' : SlotKey} {params' : Json} {s : Slot},
      m.phase k = .subscribing key' params' → m'.slots = m.slots.set key' m.nextSlot →
      m'.slot = Function.update m.slot m.nextSlot s → m'.Holds (.str x) call := by
    intro k key' params' s hk hslots hslot
    have hne : key' ≠ key := by
      intro hkey
      have hfree := hm.progress.subscribing k key' params' hk
      rw [hkey, hr] at hfree
      cases hfree
    have hlt : r ≠ m.nextSlot := Nat.ne_of_lt (hm.members.exist key r hr)
    refine ⟨key, r, ?_, ?_, ?_⟩
    · rw [hslots, Dict.get?_set_ne _ _ hne]
      exact hr
    · rw [hslot, Function.update_of_ne hlt]
      exact hid
    · rw [hslot, Function.update_of_ne hlt]
      exact hcall
  cases heff with
  | closedAgain => exact .inl ⟨key, r, hr, hid, hcall⟩
  | ignored => exact .inl ⟨key, r, hr, hid, hcall⟩
  | refused _ => exact .inl (hkeep rfl ⟨rfl, rfl, rfl⟩)
  | unsubscribed _ => exact .inl (hkeep rfl ⟨rfl, rfl, rfl⟩)
  | waiting _ => exact .inl (hkeep rfl ⟨rfl, rfl, rfl⟩)
  | joined _ _ => exact .inl (hkeep rfl (slot_consumers m.slot _ _ r))
  | asked _ _ _ => exact .inl (hkeep rfl ⟨rfl, rfl, rfl⟩)
  | turnedAway _ => exact .inl (hkeep rfl ⟨rfl, rfl, rfl⟩)
  | gone _ _ => exact .inl (hkeep rfl ⟨rfl, rfl, rfl⟩)
  | left _ _ _ => exact .inl (hkeep rfl (slot_consumers m.slot _ _ r))
  | @ended _ k key' r' rest p hk hmem hnil hp =>
      by_cases hkey : key' = key
      · have hhome : homeOf (m.phase k) = some (key', r') := by
          rcases hk.2 with ⟨-, -, hph⟩ | ⟨-, -, happ⟩
          · rw [hph]
            rfl
          · cases happ with
            | aclose hk' =>
                rw [hk']
                rfl
        have hslot := (hm.members.home k key' r' hhome).1
        rw [hkey, hr] at hslot
        injection hslot with hrr
        rw [← hrr, hid, afterEnd, if_pos ⟨Json.noConfusion, rfl, hc⟩] at hp
        refine .inr ⟨k, hk.runs, ?_, ?_⟩
        · rw [awaits]
          cases hph : m.phase k <;> rw [hph] at hhome <;> first | rfl | cases hhome
        · exact awaits_unsubscribing ((Function.update_self ..).trans hp)
      · refine .inl ⟨key, r, ?_, ?_, ?_⟩
        · exact Dict.get?_erase_eq_some.mpr ⟨hkey, hr⟩
        · exact (slot_consumers m.slot r' [] r).2.2.trans hid
        · show subscribeCall (Function.update m.slot r' _ r).kind
            (Function.update m.slot r' _ r).params = call
          rw [(slot_consumers m.slot r' [] r).1, (slot_consumers m.slot r' [] r).2.1, hcall]
  | created hk _ => exact .inl (hcreate hk rfl rfl)
  | createdUnhashable hk _ => exact .inl (hcreate hk rfl rfl)
  | unanswered _ => exact .inl (hkeep rfl ⟨rfl, rfl, rfl⟩)
  | reconnectWaiting _ => exact .inl (hkeep rfl ⟨rfl, rfl, rfl⟩)
  | reconnectStarted _ => exact .inl (hkeep rfl ⟨rfl, rfl, rfl⟩)
  | notRenewed _ => exact .inl (hkeep rfl ⟨rfl, rfl, rfl⟩)
  | renewed _ _ => exact absurd rfl (hop _)
  | renewedUnhashable _ _ => exact absurd rfl (hop _)
  | dispatched _ _ => exact .inl (hkeep rfl ⟨rfl, rfl, rfl⟩)
  | read _ _ => exact .inl (hkeep rfl ⟨rfl, rfl, rfl⟩)

/-- The slot of a call that has just been answered. -/
theorem holds_subscribed (m : Manager) (k : Nat) (key : SlotKey) (params : Json) (x : String) :
    (m.subscribed k key params (.ok (.str x))).Holds (.str x) (subscribeCall key.1 params) := by
  refine ⟨key, m.nextSlot, ?_, ?_, ?_⟩
  · show (m.slots.set key m.nextSlot).get? key = some m.nextSlot
    rw [Dict.get?_set_self]
  · show (Function.update m.slot m.nextSlot _ m.nextSlot).subscriptionId = .str x
    rw [Function.update_self]
  · show subscribeCall (Function.update m.slot m.nextSlot _ m.nextSlot).kind
      (Function.update m.slot m.nextSlot _ m.nextSlot).params = _
    rw [Function.update_self]

end

end Manager

namespace Service

/-! ### Where a subscription is

The steps pass a subscription on: from the answer to the call, from the call to the slot, from
the slot to the request that ends it.  A segment of the manager may do several of these at
once.
-/

/-- The call that the subscription answers is under way on the open socket, and its answer is in
the future or the next thing the future gets. -/
def Asked (s : Service) (o : Opened) : Prop :=
  ∃ t c g f, s.awaiting t = some c ∧ (s.ws.call c).inFlight = some (g, o.rid, f)
    ∧ s.ws.socket = some g
    ∧ (s.ws.future f = .result o.subId
      ∨ s.ws.future f = .pending ∧ .reply o.rid (.result o.subId) ∈ s.inbox
        ∧ ∀ answer, .reply o.rid answer ∈ s.inbox → answer = .result o.subId)

/-- Somebody has the subscription. -/
def Owned (s : Service) (o : Opened) : Prop :=
  s.Asked o ∨ s.mgr.Holds o.subId o.call ∨ ∃ rid, (rid, unsubscribeCall o.subId) ∈ s.wire

/-- The call that made the request still waits for its answer on the open socket. -/
def Waits (s : Service) (rid : Int) : Prop :=
  ∃ t c g f, s.awaiting t = some c ∧ (s.ws.call c).inFlight = some (g, rid, f)
    ∧ s.ws.socket = some g ∧ s.ws.future f = .pending

/-- The answer that opens a subscription finds its caller waiting; and while the socket is open,
no call ends by itself once a subscription has been opened for it, and every `eth_unsubscribe`
is written. -/
def Timely (s : Service) : Op → Prop
  | .arrive (.reply rid answer) =>
      ∀ p ∈ s.node.received, p.1 = rid → Node.opens rid p.2 answer ≠ [] → s.Waits rid
  | .expire t =>
      s.ws.connected = true → ∀ c g rid f, s.awaiting t = some c → s.ws.call c = .waiting g rid f →
        ∀ o ∈ s.node.alive, o.rid ≠ rid
  | .sendFailed t _ =>
      s.ws.connected = true → ∀ c g rid f, s.awaiting t = some c → s.ws.call c = .sending g rid f →
        ∀ o ∈ s.node.alive, o.rid ≠ rid ∧ (rid, unsubscribeCall o.subId) ∉ s.wire
  | _ => True

/-- What holds of the service, step by step. -/
structure Accounted (s : Service) : Prop where
  sound : Sound s
  ledger : Ledger s
  keyed : s.mgr.Keyed
  owned : s.ws.connected = true → ∀ o ∈ s.node.alive, s.Owned o

section

variable {s s' : Service}

/-- **No re-subscribe request ever gets its answer**: nobody reads from the socket while
`on_reconnect` awaits one. -/
theorem Sound.no_renewal (h : Sound s) {c g f : Nat} {rid : Int}
    (hc : s.awaiting .reconnect = some c) (hfly : (s.ws.call c).inFlight = some (g, rid, f))
    (v : Json) : s.ws.future f ≠ .result v := by
  obtain ⟨call, -, -, -, hcall, -⟩ := h.flying .reconnect c hc
  have hr : s.ws.runner = .reconnecting := by
    apply h.runner.mpr
    intro hout
    rw [Manager.awaits_reconnect_eq_none] at hcall
    · cases hcall
    · intro r rest hrc
      rw [hrc] at hout
      cases hout
  exact h.quiet hr _ c g rid f hc hfly (h.ownSocket hr c g rid f hc hfly) v

theorem Managed.connected {op : Manager.Op} (hm : Managed s op s')
    (h : s'.ws.connected = true) : s.ws.connected = true := by
  obtain ⟨g, hg, hopen⟩ := connected_iff.mp h
  rw [hm.same.socket] at hg
  refine connected_iff.mpr ⟨g, hg, ?_⟩
  cases hclosed : s.ws.closed with
  | true =>
      rw [hm.closed hclosed] at hopen
      cases hopen
  | false => rfl

/-- A segment of the manager passes subscriptions on, but loses none. -/
theorem Managed.owned {op : Manager.Op} (hready : Ready s op) (hm : Managed s op s')
    (hop : ∀ v, op ≠ .answer .reconnect (.ok v)) (hc : s.ws.connected = true) {o : Opened}
    (hstr : ∃ x, o.subId = .str x) (ho : s.Owned o) : s'.Owned o := by
  have hwire : ∀ p ∈ s.wire, p ∈ s'.wire := by
    intro p hp
    rcases hm.calls with ⟨hq, -⟩ | ⟨t, call, g, -, hi⟩
    · rw [hq.wire]
      exact hp
    · rw [hi.wire]
      exact List.mem_append_left _ hp
  rcases ho with ⟨t, c, g, f, hcall, hfly, hg, hans⟩ | hholds | ⟨rid, hrid⟩
  · obtain ⟨hcalleq, hfut, -⟩ := hm.call_eq hready hfly
    have hstill : s'.awaiting t = some c := by
      rcases hm.calls with ⟨hq, -⟩ | ⟨t', call, g', -, hi⟩
      · rw [hq.awaiting]
        exact hcall
      · have hne : t ≠ t' := by
          intro htt
          rw [htt, hi.free] at hcall
          cases hcall
        rw [hi.awaiting, Function.update_of_ne hne]
        exact hcall
    refine .inl ⟨t, c, g, f, hstill, by rw [hcalleq]; exact hfly, by rw [hm.same.socket]; exact hg, ?_⟩
    rw [hfut, hm.inbox]
    exact hans
  · obtain ⟨x, hx⟩ := hstr
    rw [hx] at hholds
    rcases hholds.step hready.wf hm.effect hc hop with hholds | ⟨k, hruns, hbefore, hafter⟩
    · exact .inr (.inl (by rw [hx]; exact hholds))
    · have hfree : s.awaiting (.consumer k) = none := by
        rcases hk : s.awaiting (.consumer k) with _ | c
        · rfl
        · obtain ⟨call, -, -, -, hcall, -⟩ := hready.flying _ c hk
          rw [hbefore] at hcall
          cases hcall
      rcases hm.calls with ⟨-, hnone⟩ | ⟨t, call, g, hruns', hi⟩
      · rw [hnone _ hruns hfree] at hafter
        cases hafter
      · rw [hruns] at hruns'
        injection hruns' with ht
        have hcall := hi.awaits
        rw [← ht, hafter] at hcall
        injection hcall with hcall
        refine .inr (.inr ⟨s.ws.nextId, ?_⟩)
        rw [hi.wire, ← hcall, hx]
        exact List.mem_append_right _ List.mem_cons_self
  · exact .inr (.inr ⟨rid, hwire _ hrid⟩)

/-- A call ends and its task goes on; what was opened for it becomes a slot. -/
theorem Accounted.owned_answer (h : Accounted s) (wire : List (Int × RpcCall))
    {t : Task} {c g f : Nat} {rid : Int}
    (hc : s.awaiting t = some c) (hfly : (s.ws.call c).inFlight = some (g, rid, f))
    {outcome : Except Exc Json} (hres : ∀ v, outcome = .ok v → s.ws.future f = .result v)
    (hconn : s.ws.connected = true) {o : Opened}
    (ho : o ∈ s.node.alive) (hans : o.rid = rid →
      s.ws.future f = .result o.subId ∨ s.ws.future f = .pending → outcome = .ok o.subId)
    (hwire : ∀ r, (r, unsubscribeCall o.subId) ∈ s.wire → (r, unsubscribeCall o.subId) ∈ wire)
    (hs : { s with wire := wire }.answer t c g rid outcome = some s') : s'.Owned o := by
  have hready := h.sound.ready_answer hc hfly outcome wire
    ({ s with wire := wire }.grantedAfter t g outcome)
  have hm := hready.managed hs
  obtain ⟨-, -, hasked, hmethod, hstr, -⟩ := h.ledger.opened o (h.ledger.alive o ho)
  have hop : ∀ v, Manager.Op.answer t outcome ≠ .answer .reconnect (.ok v) := by
    intro v hv
    injection hv with ht hout
    rw [ht] at hc
    exact h.sound.no_renewal hc hfly v (hres v hout)
  have hpass := fun howned => hm.owned hready hop hconn hstr (o := o) howned
  rcases h.owned hconn o ho with ⟨t', c', g', f', hc', hfly', hg', hans'⟩ | hholds | ⟨r, hr⟩
  · by_cases htt : t' = t
    · -- the subscription answers this very call
      rw [htt, hc] at hc'
      injection hc' with hcc
      rw [← hcc, hfly] at hfly'
      injection hfly' with hfly'
      obtain ⟨-, hrid, hff⟩ : g = g' ∧ rid = o.rid ∧ f = f' := by
        simpa using hfly'
      have hout : outcome = .ok o.subId := by
        refine hans hrid.symm ?_
        rw [hff]
        exact hans'.imp id And.left
      obtain ⟨x, hx⟩ := hstr
      obtain ⟨call, g₀, rid₀, f₀, hcall, hfly₀, hask₀⟩ := h.sound.flying t c hc
      rw [hfly] at hfly₀
      cases hfly₀
      rw [hrid, hasked] at hask₀
      injection hask₀ with hcalls
      cases t with
      | reconnect => exact absurd (hres _ hout) (h.sound.no_renewal hc hfly _)
      | consumer k =>
          rw [Manager.awaits] at hcall
          split at hcall
          · rename_i key params hk
            injection hcall with hcall
            have hstep := hm.step
            rw [hout, hx] at hstep
            have hmgr := Manager.step_answer hk hstep
            refine .inr (.inl ?_)
            rw [hmgr, hx, hcalls, ← hcall]
            exact Manager.holds_subscribed s.mgr k key params x
          · injection hcall with hcall
            rw [hcalls, ← hcall] at hmethod
            exact absurd (show "eth_unsubscribe" = "eth_subscribe" from hmethod) (by decide)
          · cases hcall
    · refine hpass (.inl ⟨t', c', g', f', ?_, ?_, hg', hans'⟩)
      · show Function.update s.awaiting t none t' = some c'
        rw [Function.update_of_ne htt]
        exact hc'
      · have hcc : c' ≠ c := by
          intro hcc
          rw [hcc] at hc'
          exact htt (h.sound.inj t' t c hc' hc)
        show (Function.update s.ws.call c _ c').inFlight = _
        rw [Function.update_of_ne hcc]
        exact hfly'
  · exact hpass (.inr (.inl hholds))
  · exact hpass (.inr (.inr ⟨r, hwire r hr⟩))

/-- What keeps a subscription with the call that it answers. -/
theorem Asked.keep {o : Opened} (h : s.Asked o) (hawaiting : s'.awaiting = s.awaiting)
    (hcalls : ∀ c, (s'.ws.call c).inFlight = (s.ws.call c).inFlight)
    (hsocket : s'.ws.socket = s.ws.socket)
    (hans : ∀ t c g f, s.awaiting t = some c → (s.ws.call c).inFlight = some (g, o.rid, f) →
      s.ws.future f = .result o.subId
      ∨ s.ws.future f = .pending ∧ .reply o.rid (.result o.subId) ∈ s.inbox
        ∧ (∀ answer, .reply o.rid answer ∈ s.inbox → answer = .result o.subId) →
      s'.ws.future f = .result o.subId
      ∨ s'.ws.future f = .pending ∧ .reply o.rid (.result o.subId) ∈ s'.inbox
        ∧ ∀ answer, .reply o.rid answer ∈ s'.inbox → answer = .result o.subId) : s'.Asked o := by
  obtain ⟨t, c, g, f, hc, hfly, hg, hf⟩ := h
  exact ⟨t, c, g, f, by rw [hawaiting]; exact hc, by rw [hcalls]; exact hfly,
    by rw [hsocket]; exact hg, hans t c g f hc hfly hf⟩

/-- The answer to a call that waits is the next thing its future gets. -/
theorem Owned.dispatch (hsound : Sound s) {frame : Frame} {rest : List Frame}
    (hi : s.inbox = frame :: rest) {o : Opened} (h : s.Owned o) :
    Owned { s with ws := s.ws.dispatch frame, inbox := rest } o := by
  obtain ⟨hcalls, -, hsocket, -⟩ := UpstreamWs.dispatch_frame s.ws frame
  rcases h with hasked | hrest
  · refine .inl (hasked.keep rfl (fun c => by rw [← hcalls]) hsocket ?_)
    intro t c g f hc hfly hf
    show (s.ws.dispatch frame).future f = _ ∨ (s.ws.dispatch frame).future f = _
      ∧ _ ∈ rest ∧ ∀ answer, _ ∈ rest → _
    have hown : ∀ rid, s.ws.pending.get? rid = some f → rid = o.rid := by
      intro rid hget
      obtain ⟨c', g', hfly'⟩ := hsound.corr.entry rid f hget
      rw [hsound.corr.futureInj c' c g' g rid o.rid f hfly' hfly, hfly] at hfly'
      cases hfly'
      rfl
    rcases dispatch_cases s.ws frame f with heq | ⟨rid, answer, hframe, hget, hpending, hset, -⟩
    · rw [heq]
      rcases hf with hf | ⟨hf, hin, honly⟩
      · exact .inl hf
      · rw [hi] at hin honly
        refine .inr ⟨hf, ?_, fun answer ha => honly answer (List.mem_cons_of_mem _ ha)⟩
        rcases List.mem_cons.mp hin with hhead | hin
        · -- the answer itself would have set the future
          exfalso
          have hget := (hsound.corr.own c g o.rid f hfly hf).1
          rw [← hhead, UpstreamWs.dispatch, hget] at heq
          dsimp only at heq
          rw [hf] at heq
          replace heq : Function.update s.ws.future f (.result o.subId) f = .pending := heq
          rw [Function.update_self] at heq
          cases heq
        · exact hin
    · have hrid := hown rid hget
      rcases hf with hf | ⟨-, -, honly⟩
      · rw [hpending] at hf
        cases hf
      · left
        apply hset
        apply honly
        rw [hi, hframe, hrid]
        exact List.mem_cons_self
  · exact .inr hrest

/-- A frame that answers nothing changes no owner. -/
theorem Owned.arrive {o : Opened} (h : s.Owned o) {frame : Frame}
    (hframe : ∀ rid answer, frame ≠ .reply rid answer) :
    Owned { s with inbox := s.inbox ++ [frame] } o := by
  rcases h with hasked | hrest
  · refine .inl (hasked.keep rfl (fun _ => rfl) rfl ?_)
    intro t c g f _ _ hf
    rcases hf with hf | ⟨hf, hin, honly⟩
    · exact .inl hf
    · refine .inr ⟨hf, List.mem_append_left _ hin, ?_⟩
      intro answer ha
      rcases List.mem_append.mp ha with ha | ha
      · exact honly answer ha
      · exact absurd (List.mem_singleton.mp ha).symm (hframe _ _)
  · exact .inr hrest

/-- What an answer opens belongs to the call that waits for it. -/
theorem Accounted.owned_reply (h : Accounted s) {rid : Int} {answer : Answer}
    (hok : Honest s (.arrive (.reply rid answer)) ∧ Timely s (.arrive (.reply rid answer)))
    (hconn : s.ws.connected = true) {o : Opened}
    (ho : o ∈ (s.node.send (.reply rid answer)).alive) :
    Owned { s with
      inbox := s.inbox ++ [.reply rid answer]
      node := s.node.send (.reply rid answer) } o := by
  obtain ⟨⟨⟨rid', call⟩, hp, hrid, -⟩, htimely⟩ := hok
  dsimp only at hrid
  rw [hrid] at hp
  have hin : rid ∈ s.requests.map Prod.fst :=
    List.mem_map.mpr ⟨_, List.mem_append_right _ hp, rfl⟩
  rw [Node.send_reply answer (h.ledger.find_received hp)] at ho
  replace ho : o ∈ s.node.alive ++ Node.opens rid call answer := ho
  rcases List.mem_append.mp ho with ho | ho
  · -- the new answer is for another request
    have hne : o.rid ≠ rid := by
      intro heq
      have hnot := (h.ledger.opened o (h.ledger.alive o ho)).2.1
      rw [heq] at hnot
      exact hnot hin
    rcases h.owned hconn o ho with hasked | hrest
    · refine .inl (hasked.keep rfl (fun _ => rfl) rfl ?_)
      intro t c g f _ _ hf
      rcases hf with hf | ⟨hf, hmem, honly⟩
      · exact .inl hf
      · refine .inr ⟨hf, List.mem_append_left _ hmem, ?_⟩
        intro a ha
        rcases List.mem_append.mp ha with ha | ha
        · exact honly a ha
        · cases List.mem_singleton.mp ha
          exact absurd rfl hne
    · exact .inr hrest
  · obtain ⟨hr, -, -, ha⟩ := Node.mem_opens ho
    obtain ⟨t, c, g, f, hc, hfly, hg, hf⟩ := htimely _ hp rfl (List.ne_nil_of_mem ho)
    rw [← hr] at hfly
    refine .inl ⟨t, c, g, f, hc, hfly, hg, .inr ⟨hf, ?_, ?_⟩⟩
    · rw [ha, hr]
      exact List.mem_append_right _ List.mem_cons_self
    · intro a ha'
      rcases List.mem_append.mp ha' with ha' | ha'
      · rw [hr] at ha'
        exact absurd hin (h.ledger.replied rid a ha').2.1
      · cases List.mem_singleton.mp ha'
        exact ha

/-- **Every timely step keeps every subscription owned.** -/
theorem Accounted.step (h : Accounted s) {op : Op} (hok : Honest s op ∧ Timely s op)
    (hs : s.step op = some s') : Accounted s' := by
  have hstr : ∀ o ∈ s.node.alive, ∃ x, o.subId = .str x := fun o ho =>
    (h.ledger.opened o (h.ledger.alive o ho)).2.2.2.2.1
  have hsound := h.sound.step hs
  have hledger := h.ledger.step h.sound hok.1 hs
  have hkeyed : s'.mgr.Keyed := by
    rcases h.sound.mgr_step hs with hsame | ⟨_, _, heff⟩
    · rw [hsame]
      exact h.keyed
    · exact h.keyed.step h.sound.wf heff
  refine ⟨hsound, hledger, hkeyed, ?_⟩
  intro hconn o ho
  have hmanaged : ∀ {base : Service} {mop : Manager.Op}, Ready base mop →
      base.manage mop = some s' → (∀ v, mop ≠ .answer .reconnect (.ok v)) →
      (base.ws.connected = true → o ∈ base.node.alive → base.Owned o ∧ ∃ x, o.subId = .str x) →
      s'.Owned o := by
    intro base mop hready hs hop howned
    have hm := hready.managed hs
    have hbase := hm.connected hconn
    rw [hm.node] at ho
    obtain ⟨hown, hx⟩ := howned hbase ho
    exact hm.owned hready hop hbase hx hown
  cases effect_of_step hs with
  | managed hop hs =>
      refine hmanaged (h.sound.ready hop.plain.1 hop.plain.2) hs (fun _ => hop.plain.1 _ _) ?_
      intro hc ho
      exact ⟨h.owned hc o ho, hstr o ho⟩
  | @sent t c g f rid hc hcall =>
      rcases h.owned hconn o ho with hasked | hrest
      · exact .inl (hasked.keep rfl (UpstreamWs.inFlight_setCall (by rw [hcall]; rfl)) rfl
          fun _ _ _ _ _ _ => id)
      · exact .inr hrest
  | @sendFailed t e c g f rid _ hc hcall hs =>
      have hnode : s'.node = s.node ∧ s.ws.connected = true := by
        have hm := (h.sound.ready_answer hc (by rw [hcall]; rfl) _ _ _).managed hs
        exact ⟨hm.node, hm.connected hconn⟩
      rw [hnode.1] at ho
      have htimely := hok.2 hnode.2 c g rid f hc hcall
      refine h.owned_answer _ hc (by rw [hcall]; rfl) (fun v hv => by cases hv) hnode.2 ho ?_ ?_ hs
      · intro hrid
        exact absurd hrid (htimely o ho).1
      · intro r hr
        apply List.mem_filter.mpr
        refine ⟨hr, ?_⟩
        have hne : r ≠ rid := by
          intro hrr
          rw [hrr] at hr
          exact (htimely o ho).2 hr
        simpa using hne
  | @received rid call rest hw _ =>
      replace ho : o ∈ if call.method = "eth_unsubscribe" then
          s.node.alive.filter fun o => ¬ o.subId ∈ call.params else s.node.alive := ho
      have halive : o ∈ s.node.alive ∧ call ≠ unsubscribeCall o.subId := by
        split at ho
        · obtain ⟨hmem, hnot⟩ := List.mem_filter.mp ho
          refine ⟨hmem, ?_⟩
          intro heq
          rw [heq] at hnot
          simp [unsubscribeCall] at hnot
        · rename_i hmethod
          refine ⟨ho, ?_⟩
          intro heq
          rw [heq] at hmethod
          exact hmethod rfl
      rcases h.owned hconn o halive.1 with hasked | hholds | ⟨r, hr⟩
      · exact .inl hasked
      · exact .inr (.inl hholds)
      · rw [hw] at hr
        rcases List.mem_cons.mp hr with hhead | hr
        · cases hhead
          exact absurd rfl halive.2
        · exact .inr (.inr ⟨r, hr⟩)
  | @expired t c g f rid hc hcall =>
      rcases h.owned hconn o ho with hasked | hrest
      · refine .inl (hasked.keep rfl (fun _ => rfl) rfl ?_)
        intro t' c' g' f' hc' hfly' hf'
        have hne : f' ≠ f := by
          intro hff
          have hfly : (s.ws.call c).inFlight = some (g, rid, f) := by
            rw [hcall]
            rfl
          rw [hff] at hfly'
          rw [h.sound.corr.futureInj c' c g' g o.rid rid f hfly' hfly, hfly] at hfly'
          cases hfly'
          exact hok.2 hconn c g o.rid f hc hcall o ho rfl
        show Function.update s.ws.future f .cancelled f' = _
          ∨ Function.update s.ws.future f .cancelled f' = _ ∧ _
        rw [Function.update_of_ne hne]
        exact hf'
      · exact .inr hrest
  | @resumed t c g f rid outcome _ hc hcall hf hs =>
      have hnode : s'.node = s.node ∧ s.ws.connected = true := by
        have hm := (h.sound.ready_answer hc (by rw [hcall]; rfl) _ s.wire _).managed hs
        exact ⟨hm.node, hm.connected hconn⟩
      rw [hnode.1] at ho
      refine h.owned_answer s.wire hc (by rw [hcall]; rfl) ?_ hnode.2 ho ?_ (fun _ => id) hs
      · intro v hv
        exact result_of_outcome (by rw [← hv]; exact hf)
      · intro _ hfut
        rcases hfut with hfut | hfut
        · rw [hfut] at hf
          injection hf with hf
          exact hf.symm
        · rw [hfut] at hf
          cases hf
  | connected haway hev => cases ho
  | reconnected haway hev hs =>
      refine hmanaged ((h.sound.newConnection haway).2 hev) hs nofun ?_
      intro _ ho
      cases ho
  | dropped => cases ho
  | noticed =>
      obtain ⟨-, -, hopen⟩ := connected_iff.mp hconn
      cases hopen
  | left _ _ => cases hconn
  | @arrived frame _ =>
      cases frame with
      | reply rid answer => exact h.owned_reply hok hconn ho
      | ignored => exact (h.owned hconn o ho).arrive nofun
      | notification payload => exact (h.owned hconn o ho).arrive nofun
      | breaks e => exact (h.owned hconn o ho).arrive nofun
  | @notified payload rest _ hi hr hs =>
      have hready := h.sound.ready_notification rest payload
      refine hmanaged hready hs nofun ?_
      intro hc ho
      exact ⟨(h.owned hc o ho).dispatch h.sound hi, hstr o ho⟩
  | @delivered frame rest hi hr hframe =>
      have hc := connected_of_dispatch hr hconn
      exact (h.owned hc o ho).dispatch h.sound hi

theorem accounted_init : Accounted init := by
  refine ⟨sound_init, ledger_init, ⟨?_, ?_⟩, ?_⟩
  · intro k key params hk
    rcases hk with hk | hk <;> cases hk
  · intro key r hr
    cases hr
  · intro _ o ho
    cases ho

/-! ### The theorem

The condition is about the answers on their way and not about the manager.  In the failing run
a call times out first and is answered afterwards.
-/

/-- **One subscription for each filter**: in a state in which no request is under way, every
subscription alive at the upstream is the id of a slot, and no two are for the same filter. -/
theorem one_subscription {ls : List Op}
    (h : Run step (fun s op => Honest s op ∧ Timely s op) init ls s)
    (hconn : s.ws.connected = true) (hidle : ∀ t, s.awaiting t = none) (hwire : s.wire = []) :
    (∀ o ∈ s.node.alive, ∃ key r, s.mgr.slots.get? key = some r
        ∧ (s.mgr.slot r).subscriptionId = o.subId)
      ∧ ∀ o ∈ s.node.alive, ∀ o' ∈ s.node.alive, ∀ kind params params',
        o.call = subscribeCall kind params → o'.call = subscribeCall kind params' →
        params.WellShaped → params'.WellShaped → params.Same params' → o = o' := by
  have ha : Accounted s := h.preserves (fun _ _ _ hI hok hs => hI.step hok hs) accounted_init
  have hholds : ∀ o ∈ s.node.alive, s.mgr.Holds o.subId o.call := by
    intro o ho
    rcases ha.owned hconn o ho with ⟨t, c, -, -, hc, -⟩ | hholds | ⟨rid, hrid⟩
    · rw [hidle t] at hc
      cases hc
    · exact hholds
    · rw [hwire] at hrid
      cases hrid
  refine ⟨?_, ?_⟩
  · intro o ho
    obtain ⟨key, r, hr, hid, -⟩ := hholds o ho
    exact ⟨key, r, hr, hid⟩
  · intro o ho o' ho' kind params params' hcall hcall' hshaped hshaped' hsame
    obtain ⟨key, r, hr, hid, hmade⟩ := hholds o ho
    obtain ⟨key', r', hr', hid', hmade'⟩ := hholds o' ho'
    obtain ⟨hkind, hparams⟩ := subscribeCall_inj (hmade.trans hcall)
    obtain ⟨hkind', hparams'⟩ := subscribeCall_inj (hmade'.trans hcall')
    obtain ⟨hkey, htext⟩ := ha.keyed.slot key r hr
    obtain ⟨hkey', htext'⟩ := ha.keyed.slot key' r' hr'
    rw [hparams] at htext
    rw [hparams'] at htext'
    have htext₂ := (canonicalize_eq_iff hshaped hshaped' htext).mpr hsame
    rw [htext'] at htext₂
    injection htext₂ with htext₂
    have hkeys : key = key' :=
      Prod.ext (by rw [← hkey, ← hkey', hkind, hkind']) htext₂.symm
    rw [hkeys, hr'] at hr
    injection hr with hr
    rw [← hr] at hid
    exact ha.ledger.distinct o (ha.ledger.alive o ho) o' (ha.ledger.alive o' ho')
      (.inl (hid.symm.trans hid'))

/-- One stream is opened and its answer taken. -/
private def openOne : List Op :=
  [.connect, .subscribe 0 .newHeads .null, .sent (.consumer 0), .receive,
    .arrive (.reply 1 (.result (.str "0xa"))), .deliver, .resume (.consumer 0)]

/-- The 30 s of the request are over before its answer comes. -/
private def answerLate : List Op :=
  [.connect, .subscribe 0 .newHeads .null, .sent (.consumer 0), .receive, .expire (.consumer 0),
    .resume (.consumer 0), .arrive (.reply 1 (.result (.str "0xa"))), .deliver]

private def ended (ls : List Op) : Service := (exec step init ls).getD init

/-- The answer to the request for new heads, the first one made. -/
private theorem honest_first {s : Service}
    (hreceived : s.node.received = [(1, subscribeCall .newHeads .null)]) (hgiven : s.node.given = []) :
    Honest s (.arrive (.reply 1 (.result (.str "0xa")))) := by
  refine ⟨_, by rw [hreceived]; exact List.mem_cons_self, rfl, ?_⟩
  intro o ho
  obtain ⟨-, -, -, ha⟩ := Node.mem_opens ho
  injection ha with hid
  refine ⟨"0xa", hid.symm, ?_⟩
  rw [hgiven]
  exact List.not_mem_nil

private theorem idle_once {s : Service} (h : s.awaiting
    = Function.update (Function.update (fun _ => none) (.consumer 0) (some 0)) (.consumer 0) none)
    (t : Task) : s.awaiting t = none := by
  rw [h, Function.update_idem]
  by_cases ht : t = .consumer 0
  · rw [ht, Function.update_self]
  · rw [Function.update_of_ne ht]

theorem one_subscription_once : (ended openOne).node.alive.map Opened.subId = [.str "0xa"]
    ∧ ∀ o ∈ (ended openOne).node.alive, ∃ key r, (ended openOne).mgr.slots.get? key = some r
        ∧ ((ended openOne).mgr.slot r).subscriptionId = o.subId := by
  have hrun : Run step (fun s op => Honest s op ∧ Timely s op) init openOne (ended openOne) := by
    refine .cons rfl ⟨trivial, trivial⟩ (.cons rfl ⟨trivial, trivial⟩ (.cons rfl ⟨trivial, trivial⟩
      (.cons rfl ⟨trivial, trivial⟩ (.cons rfl ⟨honest_first rfl rfl, ?_⟩ (.cons rfl
        ⟨trivial, trivial⟩ (.cons rfl ⟨trivial, trivial⟩ (.nil _)))))))
    intro p _ _ _
    exact ⟨.consumer 0, 0, 0, 0, rfl, rfl, rfl, rfl⟩
  exact ⟨by rfl, (one_subscription hrun (by rfl) (idle_once (by rfl)) (by rfl)).1⟩

/-- The subscription of an answer that nobody waits for any more stays alive without a slot. -/
theorem orphaned : ¬ ∀ (s : Service) (ls : List Op), Run step Honest init ls s →
    s.ws.connected = true → (∀ t, s.awaiting t = none) → s.wire = [] →
    ∀ o ∈ s.node.alive, ∃ key r, s.mgr.slots.get? key = some r
      ∧ (s.mgr.slot r).subscriptionId = o.subId := by
  intro h
  have hrun : Run step Honest init answerLate (ended answerLate) :=
    .cons rfl trivial (.cons rfl trivial (.cons rfl trivial (.cons rfl trivial (.cons rfl trivial
      (.cons rfl trivial (.cons rfl (honest_first rfl rfl) (.cons rfl trivial (.nil _))))))))
  have halive : (⟨1, .str "0xa", subscribeCall .newHeads .null⟩ : Opened)
      ∈ (ended answerLate).node.alive := by
    rw [show (ended answerLate).node.alive = [⟨1, .str "0xa", subscribeCall .newHeads .null⟩] from
      by rfl]
    exact List.mem_cons_self
  obtain ⟨key, r, hr, -⟩ := h _ _ hrun (by rfl) (idle_once (by rfl)) (by rfl) _ halive
  replace hr : (Dict.empty : Dict SlotKey SlotRef).get? key = some r := hr
  cases hr

end

end Service

end ExecRestApi
