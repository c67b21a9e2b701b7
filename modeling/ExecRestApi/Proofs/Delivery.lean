/-
Whether a notification reaches the stream its subscription was opened for.

The answer to `eth_subscribe` only sets a future: until the subscriber runs on, nothing
leads from the id to its queue, and `_read_loop` may take the next frame before that
(`notification_lost`).  From then on the id stays known, as long as no slot carries an id that
leads to another slot.

`Tuned` is the invariant: an id that was given on the open socket leads to the slot of the
stream it was given for.  It is kept by every step, whatever the other tasks do, and a
notification that is dispatched in such a state reaches its stream.
-/
import ExecRestApi.Proofs.GapVisible
import ExecRestApi.Proofs.Routing
import ExecRestApi.Proofs.Service

namespace ExecRestApi

open Py Transition

namespace Manager

/-- A queue with room that is addressed once gets the event once. -/
theorem enqueueAll_of_nodup {queue : Nat → List StreamEvent} {ev : StreamEvent} {k : Nat}
    {ks : List Nat} (hnd : ks.Nodup) (hk : k ∈ ks) (hroom : (queue k).length < queueSize) :
    enqueueAll queue ev ks k = queue k ++ [ev] := by
  induction ks generalizing queue with
  | nil => cases hk
  | cons j ks ih =>
      rw [enqueueAll]
      obtain ⟨hj, hnd⟩ := List.nodup_cons.mp hnd
      by_cases hkj : k = j
      · rw [← hkj] at hj
        rw [enqueueAll_of_not_mem hj, enqueue, ← hkj, if_pos hroom, Function.update_self]
      · have hks : k ∈ ks := by
          rcases List.mem_cons.mp hk with h | h
          · exact absurd h hkj
          · exact h
        have hsame : enqueue queue ev j k = queue k := by
          rw [enqueue]
          split
          · rw [Function.update_of_ne hkj]
          · rfl
        rw [ih hnd hks (by rw [hsame]; exact hroom), hsame]

/-! ### Ids that lead somewhere

`_by_sub_id` may have an id that no slot carries any more, and that does no harm.  What does
harm is the opposite, a slot whose id leads to another slot: when the one slot is renewed or
removed, the entry of the other goes.
-/

/-- The id `x` leads somewhere and is the id of the slot that the stream `k` belongs to. -/
def Leads (m : Manager) (k : Nat) (x : String) : Prop :=
  ∀ key r, m.phase k = .streaming key r →
    (m.slot r).subscriptionId = .str x ∧ (m.bySubId.get? (.str x)).isSome = true

/-- No slot carries an id that leads to another slot. -/
def OwnIds (m : Manager) : Prop :=
  ∀ p ∈ m.slots.entries, ∀ q ∈ m.bySubId.entries, (m.slot p.2).subscriptionId = q.1 → q.2 = p.2

instance (m : Manager) : Decidable m.OwnIds := by
  unfold OwnIds
  infer_instance

theorem OwnIds.eq {m : Manager} (h : m.OwnIds) {key : SlotKey} {r r' : SlotRef} {id : Json}
    (hr : m.slots.get? key = some r) (hid : (m.slot r).subscriptionId = id)
    (hr' : m.bySubId.get? id = some r') : r' = r :=
  h _ (Dict.mem_entries.mpr hr) _ (Dict.mem_entries.mpr hr') hid

/-- Whether `subscribe` has returned or raised. -/
def called : Phase → Bool
  | .fresh => false
  | .acquiring _ _ => false
  | .subscribing _ _ => false
  | _ => true

section

variable {connected : Bool} {m m' : Manager} {op : Op} {k : Nat} {x : String}

theorem AtLock.called_of_removing {key : SlotKey} {r : SlotRef} {rest : List Task}
    (h : AtLock m op k rest (.removing key r)) :
    called (m.phase k) = true ∧ homeOf (m.phase k) = some (key, r) := by
  rcases h.2 with ⟨-, -, hp⟩ | ⟨-, -, happ⟩
  · rw [hp]
    exact ⟨rfl, rfl⟩
  · cases happ with
    | aclose hk =>
        rw [hk]
        exact ⟨rfl, rfl⟩

theorem AtLock.called_of_acquiring {key : SlotKey} {params : Json} {rest : List Task}
    (h : AtLock m op k rest (.acquiring key params)) : called (m.phase k) = false := by
  rcases h.2 with ⟨-, -, hp⟩ | ⟨-, -, happ⟩
  · rw [hp]
    rfl
  · cases happ with
    | subscribe hk _ =>
        rw [hk]
        rfl

theorem called_iff_stage {p : Phase} : called p = true ↔ 3 ≤ stage p := by
  cases p <;> simp [called, stage]

/-- `subscribe` is called once. -/
theorem called_keep (h : Effect connected m op m') (hk : called (m.phase k) = true) :
    called (m'.phase k) = true :=
  called_iff_stage.mpr ((called_iff_stage.mp hk).trans (stage_le_of_effect h k))

/-- A step of another task than `on_reconnect` keeps the id of a stream. -/
theorem Leads.step (hlead : m.Leads k x) (hm : m.WellFormed) (hown : m.OwnIds)
    (h : Effect connected m op m') (hk : called (m.phase k) = true)
    (hruns : Service.runs m op ≠ some .reconnect) : m'.Leads k x := by
  -- a step of the call `j`: the slot of `k` keeps its id, and the id still leads somewhere
  have hkeep : ∀ {j : Nat} {p : Phase}, m'.phase = Function.update m.phase j p →
      (k = j → ∀ key r, p ≠ .streaming key r) →
      (∀ key r, k ≠ j → m.phase k = .streaming key r →
        (m'.slot r).subscriptionId = (m.slot r).subscriptionId
          ∧ ((m.bySubId.get? (.str x)).isSome = true → (m'.bySubId.get? (.str x)).isSome = true)) →
      m'.Leads k x := by
    intro j p hphase hp hrest key r hk'
    rw [hphase] at hk'
    by_cases hkj : k = j
    · rw [hkj, Function.update_self] at hk'
      exact absurd hk' (hp hkj key r)
    · rw [Function.update_of_ne hkj] at hk'
      obtain ⟨hid, hmap⟩ := hlead key r hk'
      obtain ⟨hid', hmap'⟩ := hrest key r hkj hk'
      exact ⟨by rw [hid', hid], hmap' hmap⟩
  have hconsumers : ∀ (r : SlotRef) (ks : List Nat) (q : SlotRef),
      (Function.update m.slot r { m.slot r with consumers := ks } q).subscriptionId
        = (m.slot q).subscriptionId := fun r ks q => subscriptionId_consumers m.slot r ks q
  have hnew : ∀ (s : Slot) {key : SlotKey} {r : SlotRef}, m.phase k = .streaming key r →
      (Function.update m.slot m.nextSlot s r).subscriptionId = (m.slot r).subscriptionId := by
    intro s key r hk'
    have hhome := (hm.members.home k key r (by rw [hk']; rfl)).1
    rw [Function.update_of_ne (Nat.ne_of_lt (hm.members.exist key r hhome))]
  have hearly : ∀ {j : Nat} {P : Prop}, called (m.phase j) = false → k = j → P := by
    intro j P hj hkj
    rw [hkj, hj] at hk
    cases hk
  cases h with
  | closedAgain => exact hlead
  | ignored => exact hlead
  | refused _ => exact hkeep rfl (fun _ => nofun) fun _ _ _ _ => ⟨rfl, id⟩
  | unsubscribed _ => exact hkeep rfl (fun _ => nofun) fun _ _ _ _ => ⟨rfl, id⟩
  | waiting happ =>
      refine hkeep rfl (fun _ => ?_) fun _ _ _ _ => ⟨rfl, id⟩
      cases happ <;> nofun
  | joined hj _ =>
      exact hkeep rfl (hearly hj.called_of_acquiring) fun _ r' _ _ => ⟨hconsumers _ _ r', id⟩
  | asked hj _ _ => exact hkeep rfl (fun _ => nofun) fun _ _ _ _ => ⟨rfl, id⟩
  | turnedAway hj => exact hkeep rfl (fun _ => nofun) fun _ _ _ _ => ⟨rfl, id⟩
  | gone hj _ => exact hkeep rfl (fun _ => nofun) fun _ _ _ _ => ⟨rfl, id⟩
  | left hj _ _ => exact hkeep rfl (fun _ => nofun) fun _ r' _ _ => ⟨hconsumers _ _ r', id⟩
  | @ended _ j key' r' _ p hj hmem hnil hp =>
      refine hkeep rfl ?_ ?_
      · intro _ key r
        rcases afterEnd_cases hp with h | h <;> rw [h] <;> nofun
      · intro key r hkj hk'
        refine ⟨hconsumers _ _ r, ?_⟩
        intro hsome
        show ((forget m.bySubId (m.slot r').subscriptionId).get? (.str x)).isSome = true
        rw [forget]
        split
        · exact hsome
        · rw [Dict.get?_erase]
          split
          · -- the slot that ends carries the id of the stream, which leads to the stream's slot
            rename_i heq
            obtain ⟨hslot, hmem'⟩ := hm.members.home k key r (by rw [hk']; rfl)
            obtain ⟨q, hq⟩ := Option.isSome_iff_exists.mp hsome
            have hr : q = r := hown.eq hslot (hlead key r hk').1 hq
            have hr' : q = r' := hown.eq
              (hm.members.home j key' r' hj.called_of_removing.2).1 (dictKey_eq_str heq) hq
            rw [← hr, hr'] at hmem'
            have hleft := (List.mem_erase_of_ne hkj).mpr hmem'
            rw [hnil] at hleft
            cases hleft
          · exact hsome
  | created hj _ =>
      refine hkeep rfl (hearly (by rw [hj]; rfl)) fun key r _ hk' => ⟨hnew _ hk', ?_⟩
      intro hsome
      show ((m.bySubId.set _ _).get? (.str x)).isSome = true
      rw [Dict.get?_set]
      split
      · rfl
      · exact hsome
  | createdUnhashable hj _ =>
      exact hkeep rfl (fun _ _ _ h => by cases h) fun key r _ hk' => ⟨hnew _ hk', id⟩
  | unanswered hj => exact hkeep rfl (fun _ _ _ h => by cases h) fun _ _ _ _ => ⟨rfl, id⟩
  | reconnectWaiting _ => exact absurd rfl hruns
  | reconnectStarted hturn => exact absurd hturn.runs hruns
  | notRenewed _ => exact absurd rfl hruns
  | renewed _ _ => exact absurd rfl hruns
  | renewedUnhashable _ _ => exact absurd rfl hruns
  | dispatched _ _ => exact hlead
  | read _ _ => exact hlead

/-- `subscribe` ends with the answer it gets. -/
theorem step_answer {key : SlotKey} {params : Json} {outcome : Except Exc Json}
    (hk : m.phase k = .subscribing key params)
    (h : m.step (connected, .answer (.consumer k) outcome) = some m') :
    m' = m.subscribed k key params outcome := by
  rw [step, answered, hk] at h
  injection h with h
  exact h.symm

theorem called_subscribed (m : Manager) (k : Nat) (key : SlotKey) (params : Json)
    (outcome : Except Exc Json) : called ((m.subscribed k key params outcome).phase k) = true := by
  have hset : ∀ (m' : Manager) (p : Phase), (m'.setPhase k p).release.phase k = p := by
    intro m' p
    show Function.update m'.phase k p k = p
    rw [Function.update_self]
  rw [subscribed.eq_def]
  split
  · dsimp only
    split
    · rw [hset]
      rfl
    · rw [hset]
      rfl
  · rw [hset]
    rfl
  · rw [hset]
    rfl

/-- The id a call of `subscribe` has just been given leads to its slot. -/
theorem leads_subscribed (m : Manager) (k : Nat) (key : SlotKey) (params : Json) (x : String) :
    (m.subscribed k key params (.ok (.str x))).Leads k x := by
  intro key' r hk
  replace hk : Function.update m.phase k (.streaming key m.nextSlot) k = .streaming key' r := hk
  rw [Function.update_self] at hk
  cases hk
  refine ⟨?_, ?_⟩
  · show (Function.update m.slot m.nextSlot _ m.nextSlot).subscriptionId = .str x
    rw [Function.update_self]
  · show ((m.bySubId.set (.str x) m.nextSlot).get? (.str x)).isSome = true
    rw [Dict.get?_set_self]
    rfl

/-- `on_reconnect` runs only when it has been called. -/
theorem started_of_runs (h : Effect connected m op m') (hruns : Service.runs m op = some .reconnect)
    (hop : op ≠ .onReconnect) : reconnectStatus m.reconnecting ≠ .outside := by
  have hconsumer : ∀ {j : Nat} {P : Prop}, Service.runs m op = some (.consumer j) → P := by
    intro j P hj
    rw [hruns] at hj
    cases hj
  cases h with
  | closedAgain => cases hruns
  | ignored => cases hruns
  | refused _ => cases hruns
  | unsubscribed _ => cases hruns
  | waiting happ => exact hconsumer happ.runs
  | joined hj _ => exact hconsumer hj.runs
  | asked hj _ _ => exact hconsumer hj.runs
  | turnedAway hj => exact hconsumer hj.runs
  | gone hj _ => exact hconsumer hj.runs
  | left hj _ _ => exact hconsumer hj.runs
  | ended hj _ _ _ => exact hconsumer hj.runs
  | created _ _ => cases hruns
  | createdUnhashable _ _ => cases hruns
  | unanswered _ => cases hruns
  | reconnectWaiting _ => exact absurd rfl hop
  | reconnectStarted hturn =>
      rcases hturn.2 with ⟨-, -, hacq⟩ | ⟨h', -⟩
      · rw [hacq]
        decide
      · exact absurd h' hop
  | notRenewed hrc =>
      rw [hrc]
      nofun
  | renewed hrc _ =>
      rw [hrc]
      nofun
  | renewedUnhashable hrc _ =>
      rw [hrc]
      nofun
  | dispatched _ _ => cases hruns
  | read _ _ => cases hruns

end

end Manager

namespace Service

/-! ### Answered subscriptions

Between the answer and the step in which the subscriber runs on, the stream is not yet open and
its id not yet known.  `unread` is that interval, and `tooEarly` a notification that is taken
in it.
-/

/-- The socket and the answer of an `eth_subscribe` whose future is set and whose caller has
not run on. -/
def unread (s : Service) (k : Nat) : Option (Nat × Json) :=
  match s.mgr.phase k, s.awaiting (.consumer k) with
  | .subscribing _ _, some c =>
      match (s.ws.call c).inFlight with
      | some (g, _, f) =>
          match s.ws.future f with
          | .result v => some (g, v)
          | _ => none
      | none => none
  | _, _ => none

/-- The `eth_subscribe` of the call `k` has been answered with the id `x` on the socket `g`, and
the stream is not closed. -/
def Answered (s : Service) (k g : Nat) (x : String) : Prop :=
  s.granted k = some (g, .str x) ∧ (∃ key r, s.mgr.phase k = .streaming key r)
    ∨ s.unread k = some (g, .str x)

/-- `_read_loop` takes a notification for an id whose subscriber has not run on since the
answer. -/
def tooEarly (s : Service) : Op → Bool
  | .deliver =>
      match s.inbox, s.mgr.lock, s.ws.socket with
      | .notification payload :: _, some (.consumer k), some g =>
          match Manager.notified payload with
          | some (x, _) => decide (s.unread k = some (g, .str x))
          | none => false
      | _, _, _ => false
  | _ => false

/-- No notification is dispatched too early, and no slot carries an id that leads to another. -/
def InTime (s : Service) (op : Op) : Prop := s.mgr.OwnIds ∧ s.tooEarly op = false

instance (s : Service) (op : Op) : Decidable (InTime s op) := by
  unfold InTime
  infer_instance

/-- The streams whose id was given on the open socket can be reached. -/
structure Tuned (s : Service) : Prop where
  sound : Sound s
  leads : ∀ k g x, s.granted k = some (g, .str x) → s.ws.socket = some g → s.mgr.Leads k x
  called : ∀ k a, s.granted k = some a → Manager.called (s.mgr.phase k) = true
  bound : ∀ k g v, s.granted k = some (g, v) → g < s.ws.nextSocket
  elsewhere : s.ws.runner = .reconnecting → ∀ k g v, s.granted k = some (g, v) →
    s.ws.socket ≠ some g

section

variable {s s' : Service}

theorem tuned_of_manage {op : Manager.Op} (h : Ready s op) (hown : s.mgr.OwnIds)
    (hleads : ∀ k g x, s.granted k = some (g, .str x) → s.ws.socket = some g → s.mgr.Leads k x)
    (hcalled : ∀ k a, s.granted k = some a → Manager.called (s.mgr.phase k) = true
      ∨ op = .answer (.consumer k) (.ok a.2) ∧ ∃ key params, s.mgr.phase k = .subscribing key params)
    (hbound : ∀ k g v, s.granted k = some (g, v) → g < s.ws.nextSocket)
    (helse : s.ws.runner = .reconnecting → ∀ k g v, s.granted k = some (g, v) →
      s.ws.socket ≠ some g)
    (hs : s.manage op = some s') : Tuned s' := by
  have hm := h.managed hs
  have hrunner := hm.reconnecting
  refine ⟨h.sound hs, ?_, ?_, ?_, ?_⟩
  · intro k g x hk hg
    rw [hm.granted] at hk
    rw [hm.same.socket] at hg
    rcases hcalled k _ hk with hc | ⟨hop, key, params, hphase⟩
    · refine (hleads k g x hk hg).step h.wf hown hm.effect hc ?_
      intro hruns
      have hrc : s.ws.runner = .reconnecting := by
        by_cases hop : op = .onReconnect
        · exact h.calledBack hop
        · exact (h.runner hop).mpr (Manager.started_of_runs hm.effect hruns hop)
      exact helse hrc k g _ hk hg
    · have hstep := hm.step
      rw [hop] at hstep
      rw [Manager.step_answer hphase hstep]
      exact Manager.leads_subscribed s.mgr k key params x
  · intro k a hk
    rw [hm.granted] at hk
    rcases hcalled k a hk with hc | ⟨hop, key, params, hphase⟩
    · exact Manager.called_keep hm.effect hc
    · have hstep := hm.step
      rw [hop] at hstep
      rw [Manager.step_answer hphase hstep]
      exact Manager.called_subscribed ..
  · intro k g v hk
    rw [hm.granted] at hk
    rw [hm.same.nextSocket]
    exact hbound k g v hk
  · intro hr k g v hk
    rw [hm.granted] at hk
    rw [hm.same.socket]
    exact helse (hrunner hr) k g v hk

/-- Only an answer to `eth_subscribe` grants something. -/
theorem grantedAfter_cases (s : Service) (t : Task) (g : Nat) (outcome : Except Exc Json) :
    s.grantedAfter t g outcome = s.granted
      ∨ ∃ k v key params, t = .consumer k ∧ outcome = .ok v
        ∧ s.mgr.phase k = .subscribing key params
        ∧ s.grantedAfter t g outcome = Function.update s.granted k (some (g, v)) := by
  rw [grantedAfter.eq_def]
  split
  · rename_i k call v hcall
    split
    · rename_i hmethod
      rcases Manager.phase_of_awaits hcall with ⟨key, params, hk, -⟩ | ⟨subId, -, heq⟩
      · exact .inr ⟨k, v, key, params, rfl, rfl, hk, rfl⟩
      · rw [heq] at hmethod
        exact absurd (show "eth_unsubscribe" = "eth_subscribe" from hmethod) (by decide)
    · exact .inl rfl
  · exact .inl rfl

/-- A step of the socket. -/
theorem Tuned.setWs (h : Tuned s) {ws : UpstreamWs} {inbox : List Frame}
    {wire : List (Int × RpcCall)} {node : Node}
    (hsound : Sound { s with ws := ws, inbox := inbox, wire := wire, node := node })
    (hsocket : ws.socket = none ∨ ws.socket = s.ws.socket)
    (hnext : ws.nextSocket = s.ws.nextSocket)
    (hrunner : ws.runner = .reconnecting → s.ws.runner = .reconnecting) :
    Tuned { s with ws := ws, inbox := inbox, wire := wire, node := node } := by
  have hold : ∀ {g : Nat}, ws.socket = some g → s.ws.socket = some g := by
    intro g hg
    rcases hsocket with h | h
    · rw [h] at hg
      cases hg
    · rwa [h] at hg
  refine ⟨hsound, ?_, h.called, ?_, ?_⟩
  · intro k g x hk hg
    exact h.leads k g x hk (hold hg)
  · intro k g v hk
    show g < ws.nextSocket
    rw [hnext]
    exact h.bound k g v hk
  · intro hr k g v hk hg
    exact h.elsewhere (hrunner hr) k g v hk (hold hg)

/-- A call ends and its task goes on. -/
theorem Tuned.answer (h : Tuned s) (hown : s.mgr.OwnIds) (wire : List (Int × RpcCall))
    {t : Task} {c g f : Nat} {rid : Int}
    (hc : s.awaiting t = some c) (hfly : (s.ws.call c).inFlight = some (g, rid, f))
    {outcome : Except Exc Json} (hout : ∀ v, outcome = .ok v → s.ws.future f = .result v)
    (hs : { s with wire := wire }.answer t c g rid outcome = some s') : Tuned s' := by
  have hready := h.sound.ready_answer hc hfly outcome wire
    ({ s with wire := wire }.grantedAfter t g outcome)
  have hcases := grantedAfter_cases { s with wire := wire } t g outcome
  generalize hgranted : { s with wire := wire }.grantedAfter t g outcome = granted at hready hcases
  rw [Service.answer, hgranted] at hs
  rcases hcases with heq | ⟨k, v, key, params, ht, hv, hphase, heq⟩
  · rw [heq] at hready hs
    exact tuned_of_manage hready hown h.leads (fun j a hj => .inl (h.called j a hj)) h.bound
      h.elsewhere hs
  · have hmem : ∀ {j : Nat} {a : Nat × Json}, granted j = some a →
        j = k ∧ a = (g, v) ∨ s.granted j = some a := by
      intro j a hj
      rw [heq] at hj
      by_cases hjk : j = k
      · rw [hjk, Function.update_self] at hj
        injection hj with hj
        exact .inl ⟨hjk, hj.symm⟩
      · rw [Function.update_of_ne hjk] at hj
        exact .inr hj
    refine tuned_of_manage hready hown ?_ ?_ ?_ ?_ hs
    · intro j g' x hj hg
      rcases hmem hj with ⟨hjk, -⟩ | hj
      · intro key' r hk
        rw [hjk] at hk
        replace hk : s.mgr.phase k = .streaming key' r := hk
        rw [show s.mgr.phase k = .subscribing key params from hphase] at hk
        cases hk
      · exact h.leads j g' x hj hg
    · intro j a hj
      rcases hmem hj with ⟨hjk, ha⟩ | hj
      · rw [hjk, ha, ht, hv]
        exact .inr ⟨rfl, key, params, hphase⟩
      · exact .inl (h.called j a hj)
    · intro j g' v' hj
      rcases hmem hj with ⟨-, ha⟩ | hj
      · cases ha
        exact h.sound.corr.callBound c g rid f hfly
      · exact h.bound j g' v' hj
    · intro hr j g' v' hj hg
      rcases hmem hj with ⟨-, ha⟩ | hj
      · cases ha
        exact h.sound.quiet hr _ c g rid f hc hfly hg v (hout v hv)
      · exact h.elsewhere hr j g' v' hj hg

/-- **Every step keeps the ids known**, if no slot carries one that leads to another. -/
theorem Tuned.step (h : Tuned s) (hown : s.mgr.OwnIds) {op : Op} (hs : s.step op = some s') :
    Tuned s' := by
  have hsound := h.sound.step hs
  have hmanage : ∀ {mop : Manager.Op} {inbox : List Frame}, Ready { s with inbox := inbox } mop →
      { s with inbox := inbox }.manage mop = some s' → Tuned s' := by
    intro mop inbox hready hs
    exact tuned_of_manage hready hown h.leads (fun j a hj => .inl (h.called j a hj)) h.bound
      h.elsewhere hs
  -- on a new connection no stream has an id yet
  have hnew : ∀ {k g : Nat} {v : Json}, s.granted k = some (g, v) →
      s.newConnection.ws.socket ≠ some g := by
    intro k g v hk hg
    have hlt := h.bound k g v hk
    injection hg with hg
    omega
  have hbound : ∀ k g v, s.granted k = some (g, v) → g < s.newConnection.ws.nextSocket := by
    intro k g v hk
    exact Nat.lt_succ_of_lt (h.bound k g v hk)
  cases effect_of_step hs with
  | managed hop hs => exact hmanage (h.sound.ready hop.plain.1 hop.plain.2) hs
  | sent _ _ => exact h.setWs hsound (.inr rfl) rfl id
  | sendFailed hc hcall hs => exact h.answer hown _ hc (by rw [hcall]; rfl) (fun _ hv => by cases hv) hs
  | received _ _ => exact h.setWs hsound (.inr rfl) rfl id
  | expired _ _ => exact h.setWs hsound (.inr rfl) rfl id
  | @resumed t c g f rid outcome _ hc hcall hf hs =>
      refine h.answer hown s.wire hc (by rw [hcall]; rfl) ?_ hs
      intro v hv
      exact result_of_outcome (by rw [← hv]; exact hf)
  | connected haway hev =>
      refine ⟨hsound, ?_, h.called, hbound, ?_⟩
      · intro k g x hk hg
        exact absurd hg (hnew hk)
      · intro _ k g v hk
        exact hnew hk
  | reconnected haway hev hs =>
      refine tuned_of_manage ((h.sound.newConnection haway).2 hev) hown ?_
        (fun j a hj => .inl (h.called j a hj)) hbound ?_ hs
      · intro k g x hk hg
        exact absurd hg (hnew hk)
      · intro _ k g v hk
        exact hnew hk
  | dropped => exact h.setWs hsound (.inr rfl) rfl id
  | noticed => exact h.setWs hsound (.inr rfl) rfl id
  | left _ _ => exact h.setWs hsound (.inl rfl) rfl nofun
  | arrived _ => exact h.setWs hsound (.inr rfl) rfl id
  | @notified payload rest _ hi hr hs =>
      have hready := h.sound.ready_notification rest payload
      exact hmanage hready hs
  | @delivered frame rest _ _ _ =>
      obtain ⟨-, hrunner, hsocket, hnext, -⟩ := UpstreamWs.dispatch_frame s.ws frame
      exact h.setWs hsound (.inr hsocket) hnext (by rw [hrunner]; exact id)

theorem tuned_init : Tuned init := by
  refine ⟨sound_init, ?_, ?_, ?_, nofun⟩
  · intro k g x hk
    cases hk
  · intro k a hk
    cases hk
  · intro k g v hk
    cases hk

theorem unread_subscribing {k : Nat} {a : Nat × Json} (h : s.unread k = some a) :
    ∃ key params, s.mgr.phase k = .subscribing key params := by
  rw [unread.eq_def] at h
  split at h
  · rename_i key params c hk hc
    exact ⟨key, params, hk⟩
  · cases h

/-! ### The theorem

A run with the two frames in one batch and a run with a turn in between are next to each other:
only the second delivers.
-/

/-- **A notification reaches the stream its subscription was opened for**: if none has been
dispatched too early so far, and no slot carries an id that leads to another slot. -/
theorem notification_kept {ls : List Op} (h : Run step InTime init ls s)
    (hok : InTime s .deliver) {payload result : Json} {rest : List Frame} {x : String}
    (hi : s.inbox = .notification payload :: rest)
    (hn : Manager.notified payload = some (x, result)) {k g : Nat} (hg : s.ws.socket = some g)
    (hk : s.Answered k g x) (hroom : (s.mgr.queue k).length < queueSize)
    (hs : s.step .deliver = some s') : s'.mgr.queue k = s.mgr.queue k ++ [.event result] := by
  have ht : Tuned s := h.preserves (fun _ _ _ hI hok hs => hI.step hok.1 hs) tuned_init
  have hm := ht.sound.wf
  rcases hk with ⟨hgranted, key, r, hphase⟩ | hunread
  · obtain ⟨hid, hsome⟩ := ht.leads k g x hgranted hg key r hphase
    obtain ⟨r', hr'⟩ := Option.isSome_iff_exists.mp hsome
    obtain ⟨hslot, hmem⟩ := hm.members.home k key r (by rw [hphase]; rfl)
    have hrr : r' = r := hok.1.eq hslot hid hr'
    rw [hrr] at hr'
    have hmgr : s'.mgr = s.mgr.afterNotification payload := by
      rw [step.eq_def] at hs
      dsimp only at hs
      rw [hi] at hs
      dsimp only at hs
      split at hs
      · rw [manage, Manager.step_onNotification] at hs
        injection hs with hs
        rw [← hs]
      · cases hs
    rw [hmgr, Manager.afterNotification_of_notified hn hr']
    exact Manager.enqueueAll_of_nodup (hm.members.nodup r) hmem hroom
  · -- the subscriber has not run on: the step is too early
    obtain ⟨key, params, hphase⟩ := unread_subscribing hunread
    have hlock := hm.locks.subscribing hphase
    have hearly := hok.2
    rw [tooEarly.eq_def] at hearly
    dsimp only at hearly
    rw [hi, hlock, hg] at hearly
    dsimp only at hearly
    rw [hn] at hearly
    simp [hunread] at hearly

/-- A notification with a payload of 7 for the subscription `0xa`. -/
private def seven : Json :=
  .obj [("method", .str "eth_subscription"),
    ("params", .obj [("subscription", .str "0xa"), ("result", .int 7)])]

/-- A subscription is opened; its answer and a notification are sent in a row, and the answer is
taken. -/
private def opening : List Op :=
  [.connect, .subscribe 0 .newHeads .null, .sent (.consumer 0), .receive,
    .arrive (.reply 1 (.result (.str "0xa"))), .arrive (.notification seven), .deliver]

private def afterOpening (more : List Op) : Service :=
  (exec step init (opening ++ more)).getD init

/-- The subscriber runs on before the notification is taken. -/
theorem notification_kept_once : ∃ s s' : Service, s.step .deliver = some s'
    ∧ s.Answered 0 0 "0xa" ∧ s'.mgr.queue 0 = s.mgr.queue 0 ++ [.event (.int 7)] := by
  have hrun : exec (guarded step InTime) init (opening ++ [.resume (.consumer 0)])
      = some (afterOpening [.resume (.consumer 0)]) := by
    rfl
  have hk : (afterOpening [.resume (.consumer 0)]).Answered 0 0 "0xa" :=
    .inl ⟨by rfl, _, _, by rfl⟩
  have hi : (afterOpening [.resume (.consumer 0)]).inbox = [.notification seven] := by rfl
  have hn : Manager.notified seven = some ("0xa", .int 7) := by rfl
  have hg : (afterOpening [.resume (.consumer 0)]).ws.socket = some 0 := by rfl
  have hs : (afterOpening [.resume (.consumer 0)]).step .deliver
      = some (afterOpening [.resume (.consumer 0), .deliver]) := by rfl
  exact ⟨_, _, hs, hk, notification_kept (run_of_exec_guarded hrun) (by decide +kernel) hi hn hg hk
    (by decide) hs⟩

/-- `_read_loop` takes both frames in a row, and the notification is dropped. -/
theorem notification_lost : ¬ ∀ (s s' : Service) (ls : List Op) (payload result : Json)
    (rest : List Frame) (x : String) (k g : Nat), Run step unguarded init ls s →
      s.inbox = .notification payload :: rest → Manager.notified payload = some (x, result) →
      s.ws.socket = some g → s.Answered k g x → (s.mgr.queue k).length < queueSize →
      s.step .deliver = some s' → s'.mgr.queue k = s.mgr.queue k ++ [.event result] := by
  intro h
  have hrun : exec step init opening = some (afterOpening []) := by
    rfl
  have hs : (afterOpening []).step .deliver = some (afterOpening [.deliver]) := by rfl
  have hkept := h (afterOpening []) _ opening seven (.int 7) [] "0xa" 0 0 (run_of_exec hrun)
    (by rfl) (by rfl) (by rfl) (.inr (by rfl)) (by decide) hs
  revert hkept
  decide

end

end Service

end ExecRestApi
