/-
Routing: which notifications reach which slot.

`_slot_by_subscription_id` is meant to be the map from the subscription id of every slot
in `_slots` to that slot.  A `Session` is the manager with the ids the upstream has
handed out on the current connection, so that "an id unused on that connection" is a
condition on the answers.  The map is exact as long as no re-subscribe request fails: a
slot whose request failed stays in `_slots` with its old id and is never registered again.

`Routed` is the invariant.  It says which slots are registered at each moment of a reconnect,
so that it holds between its steps too: those the loop has been past, and none of the others.
-/
import ExecRestApi.Proofs.ManagerInvariant

namespace ExecRestApi

open Py Transition

/-- The manager, and the subscription ids used on the current connection. -/
structure Session where
  mgr : Manager
  used : List String

namespace Session

open Manager

def init : Session := ⟨Manager.init, []⟩

/-- The ids used after a step; `none` if an `eth_subscribe` is answered with anything but an
unused string. -/
def usedAfter (s : Session) : Op → Option (List String)
  | .onReconnect => some []
  | .answer t (.ok v) =>
      match s.mgr.awaits t with
      | none => none
      | some c =>
          if c.method = "eth_subscribe" then
            match v with
            | .str id => if id ∈ s.used then none else some (id :: s.used)
            | _ => none
          else some s.used
  | _ => some s.used

/-- One step of the manager, with the upstream keeping to unused ids. -/
def step (s : Session) (e : Bool × Op) : Option Session := do
  let used ← s.usedAfter e.2
  let mgr ← s.mgr.step e
  pure ⟨mgr, used⟩

theorem step_eq_some {s s' : Session} {e : Bool × Op} (h : s.step e = some s') :
    s.usedAfter e.2 = some s'.used ∧ s.mgr.step e = some s'.mgr := by
  obtain ⟨used, hused, h⟩ := Option.bind_eq_some_iff.mp h
  obtain ⟨mgr, hmgr, h⟩ := Option.bind_eq_some_iff.mp h
  cases h
  exact ⟨hused, hmgr⟩

/-- Only a new connection forgets the ids. -/
theorem mem_usedAfter {s : Session} {op : Op} {used : List String} (hop : op ≠ .onReconnect)
    (h : s.usedAfter op = some used) : ∀ id ∈ s.used, id ∈ used := by
  intro id hid
  rw [usedAfter.eq_def] at h
  split at h
  · exact absurd rfl hop
  · split at h
    · cases h
    · split at h
      · split at h
        · split at h
          · cases h
          · cases h
            exact List.mem_cons_of_mem _ hid
        · cases h
      · cases h
        exact hid
  · cases h
    exact hid

/-- An `eth_subscribe` was answered with an unused string. -/
theorem usedAfter_answer {s : Session} {t : Task} {v : Json} {used : List String} {kind : StreamKind}
    {params : Json} (hawaits : s.mgr.awaits t = some (subscribeCall kind params))
    (h : s.usedAfter (.answer t (.ok v)) = some used) :
    ∃ id, v = .str id ∧ id ∉ s.used ∧ used = id :: s.used := by
  simp only [usedAfter, hawaits, subscribeCall, if_true] at h
  split at h
  · rename_i id
    split at h
    · cases h
    · rename_i hid
      cases h
      exact ⟨id, rfl, hid, rfl⟩
  · cases h

end Session

namespace Manager

/-- `_slot_by_subscription_id` is exactly the map from the ids of the slots `rs` to them. -/
def RoutesTo (m : Manager) (rs : List SlotRef) : Prop :=
  ∀ id r, m.bySubId.get? id = some r ↔ r ∈ rs ∧ (m.slot r).subscriptionId = id

/-- The slots whose re-subscribe request fails in a step. -/
def failing (m : Manager) : Bool × Op → List SlotRef
  | (connected, .answer .reconnect outcome) =>
      match m.reconnecting, outcome with
      | .resubscribing r rest, .error _ => r :: refusedAtOnce connected rest
      | .resubscribing _ rest, .ok _ => refusedAtOnce connected rest
      | _, _ => []
  | e => m.refusedAtStart e

theorem failing_start {connected : Bool} {m : Manager} {op : Op} {rest : List Task}
    (hturn : ReconnectAtLock m op rest) :
    m.failing (connected, op) = refusedAtOnce connected m.slots.values := by
  rw [← refusedAtStart_eq hturn]
  rcases hturn.2 with ⟨hop, -⟩ | ⟨hop, -⟩ <;> rw [hop, failing]
  · nofun
  · nofun

/-- While `on_reconnect` awaits the lock, a new subscription gets an id that a slot still
carries from the connection before. -/
def reusesStaleId (m : Manager) : Bool × Op → Bool
  | (_, .answer (.consumer k) (.ok v)) =>
      match m.phase k, m.reconnecting with
      | .subscribing _ _, .acquiring =>
          m.slots.values.any fun r => decide ((m.slot r).subscriptionId = v)
      | _, _ => false
  | _ => false

/-- Every re-subscribe request that ends in the step has succeeded, and no stale id comes back
before `on_reconnect` has the lock. -/
def Served (s : Session) (e : Bool × Op) : Prop :=
  failing s.mgr e = [] ∧ reusesStaleId s.mgr e = false

instance (s : Session) (e : Bool × Op) : Decidable (Served s e) := by
  unfold Served
  infer_instance

/-! ### The invariant

A slot is created, ends, or is renewed, each under the lock and each in one step.  The ids that
have been used since the connection was opened keep a new one from being the id of another
slot.
-/

/-- The slots that have a subscription on the current connection. -/
def registered (m : Manager) : List SlotRef :=
  match m.reconnecting with
  | .resubscribing _ rest => m.slots.values.take (m.slots.values.length - (rest.length + 1))
  | _ => m.slots.values

theorem registered_of_split {m : Manager} {before : List SlotRef} {r : SlotRef}
    {rest : List SlotRef} (hrc : m.reconnecting = .resubscribing r rest)
    (hvalues : m.slots.values = before ++ r :: rest) : registered m = before := by
  rw [registered, hrc, hvalues]
  simp

theorem registered_of_outside {m : Manager}
    (hrc : ∀ r rest, m.reconnecting ≠ .resubscribing r rest) : registered m = m.slots.values := by
  rw [registered]
  split
  · rename_i r rest h
    exact absurd h (hrc r rest)
  · rfl

/-- What every state of a served session satisfies. -/
structure Routed (s : Session) : Prop where
  wellFormed : s.mgr.WellFormed
  strings : ∀ r ∈ s.mgr.slots.values, ∃ id, (s.mgr.slot r).subscriptionId = .str id
  routes : s.mgr.RoutesTo (registered s.mgr)
  used : s.mgr.reconnecting ≠ .acquiring →
    ∀ r ∈ registered s.mgr, ∃ id ∈ s.used, (s.mgr.slot r).subscriptionId = .str id

/-- A step that leaves the slots, their ids and the progress of `on_reconnect` alone. -/
theorem Routed.frame {s s' : Session} (h : Routed s) (hwf : s'.mgr.WellFormed)
    (hslots : s'.mgr.slots = s.mgr.slots) (hby : s'.mgr.bySubId = s.mgr.bySubId)
    (hid : ∀ r, (s'.mgr.slot r).subscriptionId = (s.mgr.slot r).subscriptionId)
    (hrc : s'.mgr.reconnecting = s.mgr.reconnecting) (hused : ∀ id ∈ s.used, id ∈ s'.used) :
    Routed s' := by
  have hreg : registered s'.mgr = registered s.mgr := by
    rw [registered, registered, hrc, hslots]
  refine ⟨hwf, ?_, ?_, ?_⟩
  · intro r hr
    rw [hslots] at hr
    rw [hid]
    exact h.strings r hr
  · intro id r
    rw [hby, hid, hreg]
    exact h.routes id r
  · intro hacq r hr
    rw [hrc] at hacq
    rw [hreg] at hr
    obtain ⟨id, hmem, hsub⟩ := h.used hacq r hr
    exact ⟨id, hused id hmem, by rw [hid]; exact hsub⟩

/-- Nobody but `on_reconnect` itself sees it in the middle of its loop. -/
theorem not_resubscribing_of_lock {m : Manager} (hl : m.LockConsistent)
    (hlock : m.lock ≠ some .reconnect) (r : SlotRef) (rest : List SlotRef) :
    m.reconnecting ≠ .resubscribing r rest := by
  intro hrc
  exact hlock (hl.resubscribing hrc)

/-- A new slot under a new id. -/
theorem routesTo_created {m : Manager} {rs : List SlotRef} {r : SlotRef} {id : String} {s : Slot}
    {m' : Manager} (h : m.RoutesTo rs) (hr : r ∉ rs) (hs : s.subscriptionId = .str id)
    (hnew : ∀ q ∈ rs, (m.slot q).subscriptionId ≠ .str id)
    (hslot : m'.slot = Function.update m.slot r s)
    (hby : m'.bySubId = m.bySubId.set (.str id) r) {rs' : List SlotRef}
    (hrs : ∀ q, q ∈ rs' ↔ q = r ∨ q ∈ rs) : m'.RoutesTo rs' := by
  intro id' q
  rw [hby, Dict.get?_set, hslot, hrs]
  by_cases hq : q = r
  · rw [hq, Function.update_self, hs]
    by_cases hid : Json.str id = id'
    · simp [hid]
    · rw [if_neg hid, h id' r]
      simp [hr, hid]
  · rw [Function.update_of_ne hq]
    by_cases hid : Json.str id = id'
    · rw [if_pos hid, ← hid]
      constructor
      · intro hqr
        cases hqr
        exact absurd rfl hq
      · intro hmem
        rcases hmem.1 with hqr | hmem'
        · exact absurd hqr hq
        · exact absurd hmem.2 (hnew q hmem')
    · rw [if_neg hid, h id' q]
      simp [hq]

/-- A slot ends and takes its id with it. -/
theorem routesTo_ended {m : Manager} {rs : List SlotRef} {r : SlotRef} {id : String}
    {m' : Manager} (h : m.RoutesTo rs) (hr : r ∈ rs) (hid : (m.slot r).subscriptionId = .str id)
    (hslot : ∀ q, (m'.slot q).subscriptionId = (m.slot q).subscriptionId)
    (hby : m'.bySubId = m.bySubId.erase (.str id)) {rs' : List SlotRef}
    (hrs : ∀ q, q ∈ rs' ↔ q ≠ r ∧ q ∈ rs) : m'.RoutesTo rs' := by
  intro id' q
  rw [hby, Dict.get?_erase, hslot, hrs]
  by_cases heq : Json.str id = id'
  · rw [if_pos heq, ← heq]
    constructor
    · intro hn
      cases hn
    · intro hmem
      have hq := (h (.str id) q).mpr ⟨hmem.1.2, hmem.2⟩
      rw [(h (.str id) r).mpr ⟨hr, hid⟩] at hq
      cases hq
      exact absurd rfl hmem.1.1
  · rw [if_neg heq, h id' q]
    constructor
    · intro hmem
      refine ⟨⟨?_, hmem.1⟩, hmem.2⟩
      intro hqr
      rw [hqr, hid] at hmem
      exact heq hmem.2
    · intro hmem
      exact ⟨hmem.1.2, hmem.2⟩

/-- A slot ends while `on_reconnect` is not in its loop. -/
theorem Routed.ended {s s' : Session} (h : Routed s) (hwf : s'.mgr.WellFormed)
    (hout : ∀ r rest, s.mgr.reconnecting ≠ .resubscribing r rest) {key : SlotKey} {r : SlotRef}
    (hr : s.mgr.slots.get? key = some r) (hslots : s'.mgr.slots = s.mgr.slots.erase key)
    (hsub : ∀ q, (s'.mgr.slot q).subscriptionId = (s.mgr.slot q).subscriptionId)
    (hby : s'.mgr.bySubId = forget s.mgr.bySubId (s.mgr.slot r).subscriptionId)
    (hrc : s'.mgr.reconnecting = s.mgr.reconnecting) (hused : ∀ id ∈ s.used, id ∈ s'.used) :
    Routed s' := by
  have hrv : r ∈ s.mgr.slots.values := Dict.mem_values.mpr ⟨key, hr⟩
  obtain ⟨id, hid⟩ := h.strings r hrv
  have hvalues : ∀ q, q ∈ s'.mgr.slots.values ↔ q ≠ r ∧ q ∈ s.mgr.slots.values := by
    intro q
    rw [hslots]
    exact Dict.mem_values_erase hr h.wellFormed.members.inj
  have hreg := registered_of_outside hout
  have hreg' : registered s'.mgr = s'.mgr.slots.values := registered_of_outside (by rwa [hrc])
  have hroutes := h.routes
  have hids := h.used
  rw [hreg] at hroutes hids
  refine ⟨hwf, ?_, ?_, ?_⟩
  · intro q hq
    rw [hsub]
    exact h.strings q ((hvalues q).mp hq).2
  · rw [hreg']
    apply routesTo_ended hroutes hrv hid hsub _ hvalues
    rw [hby, hid]
    rfl
  · rw [hreg', hrc]
    intro hacq q hq
    obtain ⟨id', hmem, hid'⟩ := hids hacq q ((hvalues q).mp hq).2
    exact ⟨id', hused id' hmem, by rw [hsub]; exact hid'⟩

/-- A slot is created under an unused id while `on_reconnect` is not in its loop. -/
theorem Routed.created {s s' : Session} (h : Routed s) (hwf : s'.mgr.WellFormed)
    (hout : ∀ r rest, s.mgr.reconnecting ≠ .resubscribing r rest) {key : SlotKey} {slot : Slot}
    {id : String} (hkey : s.mgr.slots.get? key = none)
    (hslots : s'.mgr.slots = s.mgr.slots.set key s.mgr.nextSlot)
    (hslot : s'.mgr.slot = Function.update s.mgr.slot s.mgr.nextSlot slot)
    (hid : slot.subscriptionId = .str id)
    (hby : s'.mgr.bySubId = s.mgr.bySubId.set (.str id) s.mgr.nextSlot)
    (hrc : s'.mgr.reconnecting = s.mgr.reconnecting) (hfresh : id ∉ s.used)
    (hstale : s.mgr.reconnecting = .acquiring →
      ∀ q ∈ s.mgr.slots.values, (s.mgr.slot q).subscriptionId ≠ .str id)
    (hused : s'.used = id :: s.used) : Routed s' := by
  have hvalues : ∀ q, q ∈ s'.mgr.slots.values ↔ q = s.mgr.nextSlot ∨ q ∈ s.mgr.slots.values := by
    intro q
    rw [hslots]
    exact Dict.mem_values_set hkey
  have hnot : s.mgr.nextSlot ∉ s.mgr.slots.values := by
    intro hmem
    obtain ⟨key', hkey'⟩ := Dict.mem_values.mp hmem
    exact Nat.lt_irrefl _ (h.wellFormed.members.exist key' _ hkey')
  have hold : ∀ q ∈ s.mgr.slots.values, s'.mgr.slot q = s.mgr.slot q := by
    intro q hq
    rw [hslot, Function.update_of_ne]
    intro heq
    rw [heq] at hq
    exact hnot hq
  have hnewSlot : s'.mgr.slot s.mgr.nextSlot = slot := by rw [hslot, Function.update_self]
  have hreg := registered_of_outside hout
  have hreg' : registered s'.mgr = s'.mgr.slots.values := registered_of_outside (by rwa [hrc])
  have hroutes := h.routes
  have hids := h.used
  rw [hreg] at hroutes hids
  have hnew : ∀ q ∈ s.mgr.slots.values, (s.mgr.slot q).subscriptionId ≠ .str id := by
    intro q hq
    by_cases hacq : s.mgr.reconnecting = .acquiring
    · exact hstale hacq q hq
    · obtain ⟨id', hmem, hid'⟩ := hids hacq q hq
      rw [hid']
      intro heq
      cases heq
      exact hfresh hmem
  refine ⟨hwf, ?_, ?_, ?_⟩
  · intro q hq
    rcases (hvalues q).mp hq with heq | hq
    · rw [heq, hnewSlot]
      exact ⟨id, hid⟩
    · rw [hold q hq]
      exact h.strings q hq
  · rw [hreg']
    exact routesTo_created hroutes hnot hid hnew hslot hby hvalues
  · rw [hreg', hrc, hused]
    intro hacq q hq
    rcases (hvalues q).mp hq with heq | hq
    · rw [heq, hnewSlot]
      exact ⟨id, List.mem_cons_self, hid⟩
    · obtain ⟨id', hmem, hid'⟩ := hids hacq q hq
      rw [hold q hq]
      exact ⟨id', List.mem_cons_of_mem _ hmem, hid'⟩

/-- After the loop over `rs`, the slots before them are the registered ones. -/
theorem registered_after_loop {m : Manager} {connected : Bool} (before : List SlotRef)
    {rs : List SlotRef} (hvalues : m.slots.values = before ++ rs)
    (hrc : m.reconnecting = stopsAt connected rs)
    (hserved : refusedAtOnce connected rs = []) : registered m = before := by
  cases rs with
  | nil =>
      have hidle : m.reconnecting = .idle := by
        rw [hrc]
        cases connected <;> rfl
      rw [registered_of_outside (by rw [hidle]; nofun), hvalues, List.append_nil]
  | cons r rest =>
      cases connected with
      | false => cases hserved
      | true => exact registered_of_split hrc hvalues

/-- `on_reconnect` gets the lock. -/
theorem Routed.started {s s' : Session} (h : Routed s) (hwf : s'.mgr.WellFormed)
    {connected : Bool} (hserved : refusedAtOnce connected s.mgr.slots.values = [])
    (hslots : s'.mgr.slots = s.mgr.slots)
    (hsub : ∀ q, (s'.mgr.slot q).subscriptionId = (s.mgr.slot q).subscriptionId)
    (hby : s'.mgr.bySubId = .empty)
    (hrc : s'.mgr.reconnecting = stopsAt connected s.mgr.slots.values) : Routed s' := by
  have hreg : registered s'.mgr = [] :=
    registered_after_loop [] (by rw [hslots]; rfl) hrc hserved
  refine ⟨hwf, ?_, ?_, ?_⟩
  · intro q hq
    rw [hsub]
    rw [hslots] at hq
    exact h.strings q hq
  · rw [hreg]
    intro id q
    rw [hby]
    simp
  · rw [hreg]
    intro _ q hq
    cases hq

/-- A slot is re-subscribed under an unused id. -/
theorem Routed.renewed {s s' : Session} (h : Routed s) (hwf : s'.mgr.WellFormed)
    {connected : Bool} {r : SlotRef} {rest : List SlotRef} {newId : Json} {id : String}
    (hrc : s.mgr.reconnecting = .resubscribing r rest)
    (hserved : refusedAtOnce connected rest = []) (hslots : s'.mgr.slots = s.mgr.slots)
    (hslot : s'.mgr.slot
      = Function.update s.mgr.slot r { s.mgr.slot r with subscriptionId := newId })
    (hid : newId = .str id) (hby : s'.mgr.bySubId = s.mgr.bySubId.set (.str id) r)
    (hrc' : s'.mgr.reconnecting = stopsAt connected rest) (hfresh : id ∉ s.used)
    (hused : s'.used = id :: s.used) : Routed s' := by
  obtain ⟨before, hvalues⟩ := h.wellFormed.progress.resubscribing r rest hrc
  have hreg := registered_of_split hrc hvalues
  have hreg' : registered s'.mgr = before ++ [r] := by
    refine registered_after_loop _ ?_ hrc' hserved
    rw [hslots, hvalues]
    simp
  have hnot : r ∉ before := by
    have hnd := Dict.values_nodup h.wellFormed.members.inj
    rw [hvalues, List.nodup_append] at hnd
    intro hmem
    exact hnd.2.2 r hmem r List.mem_cons_self rfl
  have hroutes := h.routes
  have hids := h.used (by rw [hrc]; nofun)
  rw [hreg] at hroutes hids
  have hnew : ∀ q ∈ before, (s.mgr.slot q).subscriptionId ≠ .str id := by
    intro q hq
    obtain ⟨id', hmem, hid'⟩ := hids q hq
    rw [hid']
    intro heq
    cases heq
    exact hfresh hmem
  have hsame : ∀ q, q ≠ r → s'.mgr.slot q = s.mgr.slot q := by
    intro q hq
    rw [hslot, Function.update_of_ne hq]
  have hnewId : (s'.mgr.slot r).subscriptionId = .str id := by
    rw [hslot, Function.update_self, ← hid]
  refine ⟨hwf, ?_, ?_, ?_⟩
  · intro q hq
    by_cases hqr : q = r
    · rw [hqr]
      exact ⟨id, hnewId⟩
    · rw [hsame q hqr]
      rw [hslots] at hq
      exact h.strings q hq
  · rw [hreg']
    apply routesTo_created hroutes hnot hid hnew hslot hby
    intro q
    rw [List.mem_append, List.mem_singleton, or_comm]
  · rw [hreg', hused]
    intro _ q hq
    rcases List.mem_append.mp hq with hq | hq
    · obtain ⟨id', hmem, hid'⟩ := hids q hq
      rw [hsame q (fun heq => hnot (heq ▸ hq))]
      exact ⟨id', List.mem_cons_of_mem _ hmem, hid'⟩
    · rw [List.mem_singleton.mp hq]
      exact ⟨id, List.mem_cons_self, hnewId⟩

/-- **Every served step keeps the invariant.** -/
theorem Routed.step {s s' : Session} (h : Routed s) {e : Bool × Op} (hserved : Served s e)
    (hs : s.step e = some s') : Routed s' := by
  obtain ⟨hused, hstep⟩ := Session.step_eq_some hs
  have hwf := h.wellFormed.step hstep
  obtain ⟨mgr', used'⟩ := s'
  obtain ⟨connected, op⟩ := e
  cases effect_of_step h.wellFormed.locks hstep with
  | closedAgain =>
      exact h.frame hwf rfl rfl (fun _ => rfl) rfl (Session.mem_usedAfter (by nofun) hused)
  | ignored =>
      exact h.frame hwf rfl rfl (fun _ => rfl) rfl (Session.mem_usedAfter (by nofun) hused)
  | refused hk =>
      exact h.frame hwf rfl rfl (fun _ => rfl) rfl (Session.mem_usedAfter (by nofun) hused)
  | unsubscribed hk =>
      exact h.frame hwf rfl rfl (fun _ => rfl) rfl (Session.mem_usedAfter (by nofun) hused)
  | waiting hk =>
      exact h.frame hwf rfl rfl (fun _ => rfl) rfl (Session.mem_usedAfter hk.ne_onReconnect hused)
  | @joined _ k key params r rest hk hr =>
      refine h.frame hwf rfl rfl ?_ rfl (Session.mem_usedAfter hk.ne_onReconnect hused)
      intro q
      exact subscriptionId_consumers ..
  | asked hk hr hc =>
      exact h.frame hwf rfl rfl (fun _ => rfl) rfl (Session.mem_usedAfter hk.ne_onReconnect hused)
  | turnedAway hk =>
      exact h.frame hwf rfl rfl (fun _ => rfl) rfl (Session.mem_usedAfter hk.ne_onReconnect hused)
  | gone hk hmem =>
      exact h.frame hwf rfl rfl (fun _ => rfl) rfl (Session.mem_usedAfter hk.ne_onReconnect hused)
  | left hk hmem hne =>
      refine h.frame hwf rfl rfl ?_ rfl (Session.mem_usedAfter hk.ne_onReconnect hused)
      intro q
      exact subscriptionId_consumers ..
  | @ended _ k key r rest p hk hmem hnil hp =>
      refine h.ended hwf (not_resubscribing_of_lock h.wellFormed.locks (by rw [hk.1]; nofun))
        (h.wellFormed.members.home k key r (hk.before rfl).2.1).1 rfl ?_ rfl rfl
        (Session.mem_usedAfter hk.ne_onReconnect hused)
      intro q
      exact subscriptionId_consumers ..
  | @created k key params subId hk hsub =>
      obtain ⟨id, hid, hfresh, hused'⟩ := Session.usedAfter_answer (awaits_subscribing hk) hused
      have hlock := h.wellFormed.locks.subscribing hk
      refine h.created hwf (not_resubscribing_of_lock h.wellFormed.locks (by rw [hlock]; nofun))
        (h.wellFormed.progress.subscribing k key params hk) rfl rfl hid
        (by rw [hid]; rfl) rfl hfresh ?_ hused'
      intro hacq q hq
      have hstale := hserved.2
      simp only [reusesStaleId, hk, hacq, List.any_eq_false, decide_eq_true_eq] at hstale
      rw [← hid]
      exact hstale q hq
  | @createdUnhashable k key params subId hk hsub =>
      obtain ⟨id, hid, -, -⟩ := Session.usedAfter_answer (awaits_subscribing hk) hused
      rw [hid] at hsub
      cases hsub
  | unanswered hk =>
      exact h.frame hwf rfl rfl (fun _ => rfl) rfl (Session.mem_usedAfter (by nofun) hused)
  | reconnectWaiting hrc =>
      have hout : ∀ r rest, s.mgr.reconnecting ≠ .resubscribing r rest := by
        intro r rest h'
        rw [h'] at hrc
        cases hrc
      refine ⟨hwf, h.strings, ?_, fun hacq => absurd rfl hacq⟩
      have hroutes := h.routes
      rw [registered_of_outside hout] at hroutes
      exact hroutes
  | @reconnectStarted _ rest hturn =>
      have hfailing := hserved.1
      rw [failing_start hturn] at hfailing
      exact h.started hwf hfailing rfl (fun _ => rfl) rfl rfl
  | @notRenewed r rest e hrc =>
      have hfailing := hserved.1
      simp only [failing, hrc] at hfailing
      cases hfailing
  | @renewed r rest newId hrc hid =>
      obtain ⟨id, hid', hfresh, hused'⟩ := Session.usedAfter_answer (awaits_resubscribing hrc) hused
      have hfailing := hserved.1
      simp only [failing, hrc] at hfailing
      exact h.renewed hwf hrc hfailing rfl rfl hid' (by rw [hid']; rfl) rfl hfresh hused'
  | @renewedUnhashable r rest newId hrc hid =>
      obtain ⟨id, hid', -, -⟩ := Session.usedAfter_answer (awaits_resubscribing hrc) hused
      rw [hid'] at hid
      cases hid
  | dispatched hn hr =>
      exact h.frame hwf rfl rfl (fun _ => rfl) rfl (Session.mem_usedAfter (by nofun) hused)
  | read hk hq =>
      exact h.frame hwf rfl rfl (fun _ => rfl) rfl (Session.mem_usedAfter (by nofun) hused)

/-! ### Whole runs

The condition is on each step: a re-subscribe request that ends in it has succeeded, and no id
comes back that a slot still carries.  In the run that fails one of the requests does not
succeed, and its slot is left where no notification reaches it.
-/

theorem routed_init : Routed Session.init := by
  refine ⟨wellFormed_init, ?_, ?_, ?_⟩
  · intro r hr
    cases hr
  · intro id r
    constructor
    · intro h
      cases h
    · intro h
      cases h.1
  · intro _ r hr
    cases hr

theorem routed_of_run {s : Session} {ls : List (Bool × Op)}
    (h : Run Session.step Served Session.init ls s) : Routed s :=
  h.preserves (fun _ _ _ hI hok hs => hI.step hok hs) routed_init

/-- **As long as every re-subscribe request succeeds, the routing map is exact whenever the
lock is free.** -/
theorem routing_exact {s : Session} {ls : List (Bool × Op)}
    (h : Run Session.step Served Session.init ls s) (hfree : s.mgr.lock = none) :
    s.mgr.RoutesTo s.mgr.slots.values := by
  have hr := routed_of_run h
  have hroutes := hr.routes
  rwa [registered_of_outside (not_resubscribing_of_lock hr.wellFormed.locks
    (by rw [hfree]; nofun))] at hroutes

/-- One subscription carried over a reconnect. -/
private def carriedOver : List (Bool × Op) :=
  [(true, .subscribe 0 .newHeads .null), (true, .answer (.consumer 0) (.ok (.str "0xa"))),
    (true, .onReconnect), (true, .answer .reconnect (.ok (.str "0xb")))]

/-- One subscription whose re-subscribe request fails. -/
private def notCarriedOver : List (Bool × Op) :=
  [(true, .subscribe 0 .newHeads .null), (true, .answer (.consumer 0) (.ok (.str "0xa"))),
    (true, .onReconnect), (true, .answer .reconnect (.error .timeoutError))]

theorem routing_exact_renewed : ∃ s : Session, s.mgr.slots.values = [0]
    ∧ (s.mgr.slot 0).subscriptionId = .str "0xb" ∧ s.mgr.RoutesTo s.mgr.slots.values := by
  have h : exec (guarded Session.step Served) Session.init carriedOver
      = some ((exec Session.step Session.init carriedOver).getD Session.init) := by
    rfl
  exact ⟨_, by decide, by decide, routing_exact (run_of_exec_guarded h) rfl⟩

/-- The slot stays in `_slots` with its old id, which leads nowhere. -/
theorem routing_lost : ¬ ∀ (s : Session) (ls : List (Bool × Op)),
    Run Session.step unguarded Session.init ls s → s.mgr.lock = none →
      s.mgr.RoutesTo s.mgr.slots.values := by
  intro h
  have hrun : exec Session.step Session.init notCarriedOver
      = some ((exec Session.step Session.init notCarriedOver).getD Session.init) := by
    rfl
  have hroutes := (h _ _ (run_of_exec hrun) rfl (.str "0xa") 0).mpr ⟨by decide, by decide⟩
  revert hroutes
  decide

end Manager

end ExecRestApi
