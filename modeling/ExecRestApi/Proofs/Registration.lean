/-
Which slots are registered, and what a slot that ends takes along.

A slot that is registered is registered under the id it carries, whatever the upstream answers
(`Own`).  So the last consumer of a slot takes away the registration of another one exactly if the
two carry one id.

That it holds for all answers is why `Own` takes an id as the key it has in a dictionary of the
source: an answer may be a number, a list, or nothing at all, and an unhashable one is never
registered.
-/
import ExecRestApi.Proofs.Routing

namespace ExecRestApi

open Py Transition

namespace Manager

/-- The slots that `on_reconnect` has yet to ask for, or awaits the answer for. -/
def outstanding (m : Manager) : List SlotRef :=
  match m.reconnecting with
  | .resubscribing r rest => r :: rest
  | _ => []

/-- What is true of a slot that is registered under an id. -/
structure RegisteredAs (m : Manager) (id : Json) (r : SlotRef) : Prop where
  carried : dictKey (m.slot r).subscriptionId = id
  hashable : (m.slot r).subscriptionId.isHashable = true
  exist : r < m.nextSlot
  settled : r ∉ outstanding m

/-- Every slot that is registered carries its id. -/
def Own (m : Manager) : Prop := ∀ id r, m.bySubId.get? id = some r → RegisteredAs m id r

section

variable {connected : Bool} {m m' : Manager} {op : Op}

/-- The slots in the loop of `on_reconnect` are in `_slots`, once each. -/
theorem mem_values_of_outstanding (h : m.WellFormed) {r : SlotRef} (hr : r ∈ outstanding m) :
    r ∈ m.slots.values := by
  unfold outstanding at hr
  split at hr
  · rename_i q rest hrc
    obtain ⟨before, hvalues⟩ := h.progress.resubscribing q rest hrc
    rw [hvalues]
    exact List.mem_append_right _ hr
  · cases hr

theorem lt_of_outstanding (h : m.WellFormed) {r : SlotRef} (hr : r ∈ outstanding m) :
    r < m.nextSlot := by
  obtain ⟨key, hkey⟩ := Dict.mem_values.mp (mem_values_of_outstanding h hr)
  exact h.members.exist key r hkey

theorem not_mem_rest (h : m.WellFormed) {r : SlotRef} {rest : List SlotRef}
    (hrc : m.reconnecting = .resubscribing r rest) : r ∉ rest := by
  obtain ⟨before, hvalues⟩ := h.progress.resubscribing r rest hrc
  have hnd := Dict.values_nodup h.members.inj
  rw [hvalues] at hnd
  exact (List.nodup_cons.mp (List.nodup_append.mp hnd).2.1).1

/-- Where the loop stops there is less to do. -/
theorem mem_of_stopsAt (connected : Bool) {rs : List SlotRef} (hrc : m.reconnecting = stopsAt connected rs) :
    ∀ r ∈ outstanding m, r ∈ rs := by
  intro r hr
  rw [outstanding, hrc] at hr
  cases connected with
  | false => cases hr
  | true =>
      cases rs with
      | nil => cases hr
      | cons q rest => exact hr

/-- A step that registers nothing new. -/
theorem Own.frame (h : m.Own) (hby : ∀ id r, m'.bySubId.get? id = some r → m.bySubId.get? id = some r)
    (hsub : ∀ id r, m.bySubId.get? id = some r →
      (m'.slot r).subscriptionId = (m.slot r).subscriptionId)
    (hnext : m.nextSlot ≤ m'.nextSlot) (hout : ∀ r ∈ outstanding m', r ∈ outstanding m) :
    m'.Own := by
  intro id r hr
  have hold := hby id r hr
  obtain ⟨hcarried, hhash, hexist, hsettled⟩ := h id r hold
  refine ⟨?_, ?_, Nat.lt_of_lt_of_le hexist hnext, fun hmem => hsettled (hout r hmem)⟩
  · rw [hsub id r hold]
    exact hcarried
  · rw [hsub id r hold]
    exact hhash

/-- A slot that was not registered gets an id. -/
theorem Own.register (h : m.Own) {v : Json} {r : SlotRef} (hv : v.isHashable = true)
    (hby : m'.bySubId = m.bySubId.set (dictKey v) r) (hid : (m'.slot r).subscriptionId = v)
    (hother : ∀ q, q ≠ r → (m'.slot q).subscriptionId = (m.slot q).subscriptionId)
    (hnew : ∀ id, m.bySubId.get? id ≠ some r) (hlt : r < m'.nextSlot)
    (hnext : m.nextSlot ≤ m'.nextSlot)
    (hout : ∀ q ∈ outstanding m', q ∈ outstanding m ∧ q ≠ r) : m'.Own := by
  intro id q hq
  rw [hby, Dict.get?_set] at hq
  split at hq
  · rename_i heq
    injection hq with hq
    rw [← hq]
    refine ⟨by rw [hid, heq], by rw [hid, hv], hlt, fun hmem => (hout r hmem).2 rfl⟩
  · obtain ⟨hcarried, hhash, hexist, hsettled⟩ := h id q hq
    have hne : q ≠ r := by
      intro heq
      rw [heq] at hq
      exact hnew id hq
    refine ⟨?_, ?_, Nat.lt_of_lt_of_le hexist hnext, fun hmem => hsettled (hout q hmem).1⟩
    · rw [hother q hne]
      exact hcarried
    · rw [hother q hne]
      exact hhash

/-- **Every step keeps the registered slots under their own ids**, whatever the upstream
answers. -/
theorem Own.step (h : m.Own) (hm : m.WellFormed) (heff : Effect connected m op m') : m'.Own := by
  cases heff with
  | closedAgain => exact h
  | ignored => exact h
  | refused _ => exact h.frame (fun _ _ => id) (fun _ _ _ => rfl) (Nat.le_refl _) fun _ => id
  | unsubscribed _ => exact h.frame (fun _ _ => id) (fun _ _ _ => rfl) (Nat.le_refl _) fun _ => id
  | waiting _ => exact h.frame (fun _ _ => id) (fun _ _ _ => rfl) (Nat.le_refl _) fun _ => id
  | joined _ _ =>
      exact h.frame (fun _ _ => id) (fun _ q _ => subscriptionId_consumers m.slot _ _ q)
        (Nat.le_refl _) fun _ => id
  | asked _ _ _ => exact h.frame (fun _ _ => id) (fun _ _ _ => rfl) (Nat.le_refl _) fun _ => id
  | turnedAway _ => exact h.frame (fun _ _ => id) (fun _ _ _ => rfl) (Nat.le_refl _) fun _ => id
  | gone _ _ => exact h.frame (fun _ _ => id) (fun _ _ _ => rfl) (Nat.le_refl _) fun _ => id
  | left _ _ _ =>
      exact h.frame (fun _ _ => id) (fun _ q _ => subscriptionId_consumers m.slot _ _ q)
        (Nat.le_refl _) fun _ => id
  | ended _ _ _ _ =>
      exact h.frame (fun _ _ => get?_of_forget)
        (fun _ q _ => subscriptionId_consumers m.slot _ _ q) (Nat.le_refl _) fun _ => id
  | created hk hsub =>
      refine h.register hsub rfl ?_ ?_ (fun id hid => Nat.lt_irrefl _ (h id _ hid).exist)
        (Nat.lt_succ_self _) (Nat.le_succ _) fun q hq => ⟨hq, Nat.ne_of_lt (lt_of_outstanding hm hq)⟩
      · simp
      · intro q hq
        simp [Function.update_of_ne hq]
  | createdUnhashable hk hsub =>
      refine h.frame (fun _ _ => id) ?_ (Nat.le_succ _) fun _ => id
      intro id q hq
      have hne : q ≠ m.nextSlot := Nat.ne_of_lt (h id q hq).exist
      simp [Function.update_of_ne hne]
  | unanswered _ => exact h.frame (fun _ _ => id) (fun _ _ _ => rfl) (Nat.le_refl _) fun _ => id
  | reconnectWaiting _ => exact h.frame (fun _ _ => id) (fun _ _ _ => rfl) (Nat.le_refl _) nofun
  | reconnectStarted _ => exact nofun
  | notRenewed hrc =>
      refine h.frame (fun _ _ => id) (fun _ _ _ => rfl) (Nat.le_refl _) fun q hq => ?_
      rw [outstanding, hrc]
      exact List.mem_cons_of_mem _ (mem_of_stopsAt connected rfl q hq)
  | @renewed r rest newId hrc hid =>
      have hr : r ∈ outstanding m := by
        rw [outstanding, hrc]
        exact List.mem_cons_self
      refine h.register hid rfl ?_ ?_ (fun id hget => (h id r hget).settled hr)
        (lt_of_outstanding hm hr) (Nat.le_refl _) fun q hq => ?_
      · simp
      · intro q hq
        simp [Function.update_of_ne hq]
      · have hrest := mem_of_stopsAt connected rfl q hq
        refine ⟨by rw [outstanding, hrc]; exact List.mem_cons_of_mem _ hrest, ?_⟩
        intro heq
        rw [heq] at hrest
        exact not_mem_rest hm hrc hrest
  | @renewedUnhashable r rest newId hrc hid =>
      refine h.frame (fun _ _ => id) ?_ (Nat.le_refl _) nofun
      intro id q hq
      have hne : q ≠ r := by
        intro heq
        rw [heq] at hq
        exact (h id r hq).settled (by rw [outstanding, hrc]; exact List.mem_cons_self)
      simp [Function.update_of_ne hne]
  | dispatched _ _ => exact h.frame (fun _ _ => id) (fun _ _ _ => rfl) (Nat.le_refl _) fun _ => id
  | read _ _ => exact h.frame (fun _ _ => id) (fun _ _ _ => rfl) (Nat.le_refl _) fun _ => id

end

theorem own_init : init.Own := nofun

/-- What every state a run can reach satisfies. -/
theorem own_step (m : Manager) (e : Bool × Op) (m' : Manager) (h : m.WellFormed ∧ m.Own)
    (hs : m.step e = some m') : m'.WellFormed ∧ m'.Own :=
  ⟨h.1.step hs, h.2.step h.1 (effect_of_step h.1.locks hs)⟩

theorem own_of_run {ok : Manager → Bool × Op → Prop} {ls : List (Bool × Op)} {m : Manager}
    (h : Run Manager.step ok init ls m) : m.WellFormed ∧ m.Own :=
  h.preserves (I := fun m => m.WellFormed ∧ m.Own) (fun m e m' hI _ hs => own_step m e m' hI hs)
    ⟨wellFormed_init, own_init⟩

/-! ### The end of a slot

A slot ends in the step in which its last consumer leaves it under the lock.  The id it carries
is taken out of the routing map then, and named in an `eth_unsubscribe`; what else carries that
id loses its notifications by it.
-/

/-- It is the turn of the `aclose` of the last consumer of a slot. -/
def LastLeaves (m : Manager) (op : Op) (key : SlotKey) (r : SlotRef) : Prop :=
  ∃ k rest, AtLock m op k rest (.removing key r) ∧ (m.slot r).consumers = [k]

/-- The other slots stay registered as they are, and a request to unsubscribe that is sent in the
step names none of them. -/
structure Undisturbed (m m' : Manager) : Prop where
  registered : ∀ key q, m'.slots.get? key = some q →
    ∀ id, m'.bySubId.get? id = some q ↔ m.bySubId.get? id = some q
  named : ∀ t subId, m'.awaits t = some (unsubscribeCall subId) →
    m.awaits t ≠ some (unsubscribeCall subId) →
      ∀ key q, m'.slots.get? key = some q → m.bySubId.get? (dictKey subId) ≠ some q

/-- If a slot ends in the step, the others do not notice. -/
def Undisturbing (m : Manager) (e : Bool × Op) : Prop :=
  ∀ key r m', LastLeaves m e.2 key r → m.step e = some m' → Undisturbed m m'

/-- Two ids are one key, and not `None`. -/
def Clash (v w : Json) : Prop := v ≠ .null ∧ dictKey v = dictKey w

/-- If a slot ends in the step, no other slot that is registered carries its id. -/
def Apart (m : Manager) (e : Bool × Op) : Prop :=
  ∀ key r, LastLeaves m e.2 key r → ∀ key' q id, m.slots.get? key' = some q → q ≠ r →
    m.bySubId.get? id = some q → ¬ Clash (m.slot r).subscriptionId (m.slot q).subscriptionId

section

variable {connected : Bool} {m m' : Manager} {op : Op} {key : SlotKey} {r : SlotRef}

theorem subscribeCall_ne_unsubscribeCall (kind : StreamKind) (params subId : Json) :
    subscribeCall kind params ≠ unsubscribeCall subId := by
  intro h
  injection h with hmethod
  revert hmethod
  decide

theorem awaits_unsubscribe {t : Task} {subId : Json}
    (h : m.awaits t = some (unsubscribeCall subId)) :
    ∃ k, t = .consumer k ∧ m.phase k = .unsubscribing subId := by
  cases t with
  | reconnect =>
      obtain ⟨r, rest, -, hcall⟩ := reconnecting_of_awaits h
      exact absurd hcall.symm (subscribeCall_ne_unsubscribeCall _ _ _)
  | consumer k =>
      rcases phase_of_awaits h with ⟨key, params, -, hcall⟩ | ⟨subId', hk, hcall⟩
      · exact absurd hcall.symm (subscribeCall_ne_unsubscribeCall _ _ _)
      · injection hcall with _ hparams
        injection hparams with hid
        rw [← hid] at hk
        exact ⟨k, rfl, hk⟩

/-- The step in which a slot ends. -/
theorem step_of_lastLeaves (connected : Bool) (h : LastLeaves m op key r) : ∃ k rest,
    LastLeaves m op key r ∧ m.step (connected, op) = some
      { (m.setSlot r { m.slot r with consumers := [] }).setPhase k
          (afterEnd connected (m.slot r).subscriptionId) with
        slots := m.slots.erase key, bySubId := forget m.bySubId (m.slot r).subscriptionId,
        gauge := gaugeAfterEnd m key r, lock := none, waiters := rest } := by
  obtain ⟨k, rest, hk, hcons⟩ := h
  have hnot : ∀ kind params, op = .subscribe k kind params → connected = true := by
    intro kind params hop
    rcases hk.2 with ⟨hgrant, -⟩ | ⟨-, -, happ⟩
    · rw [hop] at hgrant
      cases hgrant
    · rw [hop] at happ
      cases happ
  refine ⟨k, rest, ⟨k, rest, hk, hcons⟩, ?_⟩
  rw [step_of_turn hk hnot, locked]
  dsimp only
  rw [Function.update_self]
  dsimp only
  rw [lockedRemove_last (by rw [hcons]; exact List.mem_cons_self) (by rw [hcons]; simp)]
  simp [setPhase, setSlot, gaugeAfterEnd]

theorem LastLeaves.slot (hm : m.WellFormed) (h : LastLeaves m op key r) :
    m.slots.get? key = some r := by
  obtain ⟨k, rest, hk, -⟩ := h
  exact (hm.members.home k key r (hk.before rfl).2.1).1

/-- What is taken out with a slot. -/
theorem get?_forget_eq_some_iff {bySubId : Dict Json SlotRef} {subId id : Json} {q : SlotRef} :
    (forget bySubId subId).get? id = some q ↔ bySubId.get? id = some q ∧
      (subId ≠ .null → subId.isHashable = true → dictKey subId ≠ id) := by
  unfold forget
  split
  · rename_i hkeep
    refine ⟨fun h => ⟨h, fun hnull hhash => ?_⟩, And.left⟩
    rcases hkeep with hkeep | hkeep
    · exact absurd hkeep hnull
    · rw [hhash] at hkeep
      cases hkeep
  · rename_i hdrop
    rw [not_or, Bool.not_eq_false] at hdrop
    rw [Dict.get?_erase_eq_some]
    exact ⟨fun h => ⟨h.2, fun _ _ => h.1⟩, fun h => ⟨h.2 hdrop.1 hdrop.2, h.1⟩⟩

/-- **The end of a slot goes unnoticed** exactly if no other slot that is registered carries its
id. -/
theorem undisturbing_iff_apart (hm : m.WellFormed) (hown : m.Own) (e : Bool × Op) :
    Undisturbing m e ↔ Apart m e := by
  obtain ⟨connected, op⟩ := e
  constructor
  · rintro h key r hlast key' q id hq hne hid ⟨hnull, hsame⟩
    obtain ⟨k, rest, -, hstep⟩ := step_of_lastLeaves connected hlast
    obtain ⟨hcarried, hhash, -, -⟩ := hown id q hid
    have hslot : (m.slots.erase key).get? key' = some q := by
      refine Dict.get?_erase_eq_some.mpr ⟨?_, hq⟩
      intro heq
      rw [← heq, hlast.slot hm] at hq
      injection hq with hq
      exact hne hq.symm
    have hafter := (((h key r _ hlast hstep).registered key' q hslot id).mpr hid)
    refine (get?_forget_eq_some_iff.mp hafter).2 hnull ?_ (hsame.trans hcarried)
    rw [← isHashable_dictKey, hsame, isHashable_dictKey]
    exact hhash
  · intro h key r m' hlast hs
    obtain ⟨k, rest, -, hstep⟩ := step_of_lastLeaves connected hlast
    rw [hstep] at hs
    injection hs with hs
    have hother : ∀ key' q, m'.slots.get? key' = some q → m.slots.get? key' = some q ∧ q ≠ r := by
      intro key' q hq
      rw [← hs] at hq
      replace hq : (m.slots.erase key).get? key' = some q := hq
      obtain ⟨hne, hq⟩ := Dict.get?_erase_eq_some.mp hq
      refine ⟨hq, fun heq => hne ?_⟩
      rw [heq] at hq
      exact hm.members.inj key key' r (hlast.slot hm) hq
    have hapart : ∀ key' q id, m'.slots.get? key' = some q → m.bySubId.get? id = some q →
        (m.slot r).subscriptionId ≠ .null → dictKey (m.slot r).subscriptionId ≠ id := by
      intro key' q id hq hid hnull heq
      obtain ⟨hslot, hne⟩ := hother key' q hq
      exact h key r hlast key' q id hslot hne hid ⟨hnull, by rw [heq, (hown id q hid).carried]⟩
    refine ⟨fun key' q hq id => ?_, fun t subId hasked hbefore key' q hq hid => ?_⟩
    · rw [← hs]
      exact get?_forget_eq_some_iff.trans ⟨And.left, fun hid => ⟨hid, fun hnull _ =>
        hapart key' q id hq hid hnull⟩⟩
    · obtain ⟨j, rfl, hphase⟩ := awaits_unsubscribe hasked
      have hjk : j = k := by
        by_contra hne
        rw [← hs] at hphase
        replace hphase : Function.update m.phase k _ j = .unsubscribing subId := hphase
        rw [Function.update_of_ne hne] at hphase
        exact hbefore (awaits_unsubscribing hphase)
      rw [← hs, hjk] at hphase
      replace hphase : Function.update m.phase k (afterEnd connected (m.slot r).subscriptionId) k =
        .unsubscribing subId := hphase
      rw [Function.update_self, afterEnd] at hphase
      split at hphase
      · rename_i hcond
        injection hphase with hphase
        rw [← hphase] at hid
        exact hapart key' q _ hq hid hcond.1 rfl
      · cases hphase

end

/-- **No end of a slot in a run is noticed by another one** exactly if, whenever one ends, no other
slot that is registered carries its id. -/
theorem undisturbing_iff (ls : List (Bool × Op)) (m : Manager) :
    Run Manager.step Undisturbing init ls m ↔ Run Manager.step Apart init ls m := by
  have hinit : init.WellFormed ∧ init.Own := ⟨wellFormed_init, own_init⟩
  constructor
  · intro h
    exact h.mono (fun m e m' hI _ hs => own_step m e m' hI hs)
      (fun m e hI => (undisturbing_iff_apart hI.1 hI.2 e).mp) hinit
  · intro h
    exact h.mono (fun m e m' hI _ hs => own_step m e m' hI hs)
      (fun m e hI => (undisturbing_iff_apart hI.1 hI.2 e).mpr) hinit

/-- Two slots; over a reconnect the first is not asked for again in time, and the second gets the
id that the first has kept. -/
def staleId : List (Bool × Op) :=
  [(true, .subscribe 0 .newHeads .null), (true, .answer (.consumer 0) (.ok (.str "0x1"))),
    (true, .subscribe 1 .logs .null), (true, .answer (.consumer 1) (.ok (.str "0x2"))),
    (true, .onReconnect), (true, .answer .reconnect (.error .timeoutError)),
    (true, .answer .reconnect (.ok (.str "0x1")))]

/-- **The stream that ends takes the other one's subscription along**, with ids that are new on
their connection. -/
theorem not_undisturbing_stale : ∃ s : Session,
    Run Session.step unguarded Session.init staleId s ∧ (s.step (true, .aclose 0)).isSome = true ∧
      ¬ Undisturbing s.mgr (true, .aclose 0) := by
  have hrun : exec Session.step Session.init staleId
      = some ((exec Session.step Session.init staleId).getD Session.init) := by
    rfl
  refine ⟨_, run_of_exec hrun, rfl, fun h => ?_⟩
  have hlast : LastLeaves ((exec Session.step Session.init staleId).getD Session.init).mgr
      (.aclose 0) (.newHeads, "null") 0 :=
    ⟨0, [], ⟨rfl, .inr ⟨rfl, rfl, .aclose rfl⟩⟩, rfl⟩
  have hgone := ((h (.newHeads, "null") 0 _ hlast rfl).registered (.logs, "null") 1 (by decide)
    (.str "0x1")).mpr (by decide)
  revert hgone
  decide

end Manager

end ExecRestApi
