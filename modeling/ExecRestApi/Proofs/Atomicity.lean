/-
What a call of `subscribe` leaves behind.

A call does its part under the lock, so between its request and the answer nobody else touches the
books.  It is atomic unless one of two things happens: the request is answered with something that
is not a string, or the slot it joins is one that no notification reaches.

Both of these are conditions on the state before the call and on the answer, not on what the
call makes of them.  A call may begin in any reachable state, queue up for the lock, and have
any number of steps of other tasks between its request and the answer; `Call` is such a call,
from the step in which it begins to the step in which it has ended.
-/
import ExecRestApi.Proofs.Registration

namespace ExecRestApi

open Py Transition

namespace Manager

/-- `_slots`, the routing map, the consumers of all slots and the gauges are the same. -/
structure SameBooks (m m' : Manager) : Prop where
  slots : m'.slots = m.slots
  bySubId : m'.bySubId = m.bySubId
  consumers : ∀ r, (m'.slot r).consumers = (m.slot r).consumers
  gauge : m'.gauge = m.gauge

/-- A notification may reach the slot: `on_notification` looks for text. -/
def Receives (m : Manager) (r : SlotRef) : Prop :=
  ∃ id : String, m.bySubId.get? (.str id) = some r

/-- Whether a call has returned its stream or raised. -/
def Ended (p : Phase) : Prop := (∃ e, p = .failed e) ∨ ∃ key r, p = .streaming key r

/-- The step in which a call is made, or gets the lock it has waited for. -/
def Begins (k : Nat) (kind : StreamKind) (params : Json) (m : Manager) (op : Op) : Prop :=
  op = .subscribe k kind params ∨
    op = .grant ∧ ∃ rest text, m.waiters = .consumer k :: rest ∧ canonicalize params = .ok text ∧
      m.phase k = .acquiring (kind, text) params

/-- The request of the call is not answered in the step. -/
def Unanswered (k : Nat) (_ : Manager) (e : Bool × Op) : Prop :=
  ∀ outcome, e.2 ≠ .answer (.consumer k) outcome

/-- A call, from the step in which it begins in `m` to the one in which it has ended in `m'`, with
the outcome of its request if it makes one.  The other tasks do what they can meanwhile. -/
inductive Call (k : Nat) (kind : StreamKind) (params : Json) (m : Manager) (e : Bool × Op) :
    Option (Except Exc Json) → Manager → Prop where
  | atOnce {m' : Manager} (hbegins : Begins k kind params m e.2) (hstep : m.step e = some m')
      (hends : Ended (m'.phase k)) : Call k kind params m e none m'
  | answered {m₁ m₂ m' : Manager} {ls : List (Bool × Op)} {text : String} {connected : Bool}
      {outcome : Except Exc Json} (hbegins : Begins k kind params m e.2)
      (hstep : m.step e = some m₁) (hasking : m₁.phase k = .subscribing (kind, text) params)
      (hrun : Run Manager.step (Unanswered k) m₁ ls m₂)
      (hanswer : m₂.step (connected, .answer (.consumer k) outcome) = some m') :
      Call k kind params m e (some outcome) m'

/-- All or nothing: the stream is in the slot of its key, which notifications reach, or the call
has raised and the books are what they were. -/
inductive Atomic (k : Nat) (kind : StreamKind) (params : Json) (m m' : Manager) : Prop where
  | returned {text : String} {r : SlotRef} (htext : canonicalize params = .ok text)
      (hk : m'.phase k = .streaming (kind, text) r) (hslot : m'.slots.get? (kind, text) = some r)
      (hmem : k ∈ (m'.slot r).consumers) (hreceives : m'.Receives r)
  | raised {e : Exc} (hk : m'.phase k = .failed e) (hsame : SameBooks m m')

/-- Notifications reach the slot that is joined, and the request is answered with text if it is
answered. -/
structure Dependable (k : Nat) (kind : StreamKind) (params : Json) (m : Manager) (e : Bool × Op)
    (outcome : Option (Except Exc Json)) : Prop where
  joined : (e.2 = .subscribe k kind params → e.1 = true) → ∀ text r,
    canonicalize params = .ok text → m.slots.get? (kind, text) = some r → m.Receives r
  answered : ∀ v, outcome = some (.ok v) → ∃ id, v = .str id

section

variable {connected : Bool} {m m' : Manager} {op : Op} {k : Nat} {kind : StreamKind} {params : Json}

theorem SameBooks.refl (m : Manager) : SameBooks m m := ⟨rfl, rfl, fun _ => rfl, rfl⟩

theorem SameBooks.trans {m'' : Manager} (h : SameBooks m m') (h' : SameBooks m' m'') :
    SameBooks m m'' :=
  ⟨h'.slots.trans h.slots, h'.bySubId.trans h.bySubId,
    fun r => (h'.consumers r).trans (h.consumers r), h'.gauge.trans h.gauge⟩

/-! ### The parts of a call

A call ends in the step in which it begins, or it awaits the answer to its request.  In the
second case the lock is held for it (`held_run`), so the books that the answer finds are the
ones the request left, and each of the two parts can be looked at on its own.
-/

/-- How a call begins: it is refused, it queues up, or it does its part under the lock. -/
theorem begins_cases (h : Begins k kind params m op) (hs : m.step (connected, op) = some m') :
    (∃ e, m' = m.setPhase k (.failed e) ∧ op = .subscribe k kind params ∧
      ∀ text, canonicalize params = .ok text → connected = false) ∨
    (∃ key, m'.phase k = .acquiring key params) ∨
    ∃ text rest, canonicalize params = .ok text ∧
      (op = .subscribe k kind params → connected = true) ∧
      m' = lockedSubscribe connected { m with
        phase := Function.update m.phase k (.acquiring (kind, text) params)
        lock := some (.consumer k)
        waiters := rest } k (kind, text) params := by
  have hlocked : ∀ text rest, canonicalize params = .ok text →
      AtLock m op k rest (.acquiring (kind, text) params) →
      (∀ kind params, op = .subscribe k kind params → connected = true) →
      ∃ text rest, canonicalize params = .ok text ∧
        (op = .subscribe k kind params → connected = true) ∧
        m' = lockedSubscribe connected { m with
          phase := Function.update m.phase k (.acquiring (kind, text) params)
          lock := some (.consumer k)
          waiters := rest } k (kind, text) params := by
    intro text rest htext hat hc
    rw [step_of_turn hat hc, locked] at hs
    dsimp only at hs
    rw [Function.update_self] at hs
    injection hs with hs
    exact ⟨text, rest, htext, hc kind params, hs.symm⟩
  rcases h with rfl | ⟨rfl, rest, text, hw, htext, hk⟩
  · have hfresh : m.phase k = .fresh := by
      rw [step] at hs
      split at hs
      · assumption
      · cases hs
    have hs' := hs
    rw [step, hfresh] at hs'
    dsimp only at hs'
    injection hs' with hs'
    unfold subscribe at hs'
    by_cases hc : connected = true
    · rw [if_pos hc] at hs'
      obtain ⟨e, herror⟩ | ⟨text, htext⟩ : (∃ e, canonicalize params = .error e) ∨
          ∃ text, canonicalize params = .ok text := by
        cases canonicalize params with
        | error e => exact .inl ⟨e, rfl⟩
        | ok text => exact .inr ⟨text, rfl⟩
      · rw [herror] at hs'
        exact .inl ⟨e, hs'.symm, rfl, fun text htext => by rw [herror] at htext; cases htext⟩
      · by_cases hfree : m.lock = none ∧ m.waiters = []
        · exact .inr (.inr (hlocked text [] htext
            ⟨hfree.1, .inr ⟨hfree.2, rfl, .subscribe hfresh htext⟩⟩ fun _ _ _ => hc))
        · rw [htext] at hs'
          dsimp only at hs'
          rw [acquire, if_neg (show ¬((m.setPhase k _).lock = none ∧ (m.setPhase k _).waiters = [])
            from hfree)] at hs'
          refine .inr (.inl ⟨(kind, text), ?_⟩)
          rw [← hs']
          exact Function.update_self ..
    · rw [if_neg hc] at hs'
      exact .inl ⟨_, hs'.symm, rfl, fun _ _ => by simpa using hc⟩
  · have hlock : m.lock = none := by
      rw [step] at hs
      split at hs
      · assumption
      · cases hs
    exact .inr (.inr (hlocked text rest htext ⟨hlock, .inl ⟨rfl, hw, hk⟩⟩
      fun _ _ hop => by cases hop))

/-- While a call awaits its answer nobody else touches the books. -/
theorem held_step (hm : m.WellFormed) {key : SlotKey} (hk : m.phase k = .subscribing key params)
    {e : Bool × Op} (hok : Unanswered k m e) (hs : m.step e = some m') :
    m'.phase k = .subscribing key params ∧ SameBooks m m' := by
  obtain ⟨connected, op⟩ := e
  have hlock := hm.locks.subscribing hk
  have hnot : ∀ {op j rest p}, ¬ AtLock m op j rest p := by
    intro op j rest p hat
    rw [hat.1] at hlock
    cases hlock
  have hother : ∀ j p, lockStatus (m.phase j) ≠ .holding →
      Function.update m.phase j p k = .subscribing key params := by
    intro j p hj
    rw [Function.update_of_ne, hk]
    intro heq
    rw [← heq, hk] at hj
    exact hj rfl
  have hloop : ∀ r rest, m.reconnecting ≠ .resubscribing r rest :=
    not_resubscribing_of_lock hm.locks (by rw [hlock]; nofun)
  cases effect_of_step hm.locks hs with
  | closedAgain => exact ⟨hk, .refl m⟩
  | ignored => exact ⟨hk, .refl m⟩
  | refused hj => exact ⟨hother _ _ (by rw [hj]; nofun), rfl, rfl, fun _ => rfl, rfl⟩
  | unsubscribed hj => exact ⟨hother _ _ (by rw [hj]; nofun), rfl, rfl, fun _ => rfl, rfl⟩
  | waiting hj => exact ⟨hother _ _ (by rw [hj.before.1]; nofun), rfl, rfl, fun _ => rfl, rfl⟩
  | joined hj _ => exact absurd hj hnot
  | asked hj _ _ => exact absurd hj hnot
  | turnedAway hj => exact absurd hj hnot
  | gone hj _ => exact absurd hj hnot
  | left hj _ _ => exact absurd hj hnot
  | ended hj _ _ _ => exact absurd hj hnot
  | @created j key' params' subId hj hsub =>
      have hheld := hm.locks.subscribing hj
      rw [hlock] at hheld
      cases hheld
      exact absurd rfl (hok (.ok subId))
  | @createdUnhashable j key' params' subId hj hsub =>
      have hheld := hm.locks.subscribing hj
      rw [hlock] at hheld
      cases hheld
      exact absurd rfl (hok (.ok subId))
  | @unanswered j key' params' e e' hj =>
      have hheld := hm.locks.subscribing hj
      rw [hlock] at hheld
      cases hheld
      exact absurd rfl (hok (.error e))
  | reconnectWaiting _ => exact ⟨hk, rfl, rfl, fun _ => rfl, rfl⟩
  | reconnectStarted hturn =>
      have hfree := hturn.1
      rw [hlock] at hfree
      cases hfree
  | notRenewed hrc => exact absurd hrc (hloop _ _)
  | renewed hrc _ => exact absurd hrc (hloop _ _)
  | renewedUnhashable hrc _ => exact absurd hrc (hloop _ _)
  | dispatched _ _ => exact ⟨hk, rfl, rfl, fun _ => rfl, rfl⟩
  | read _ _ => exact ⟨hk, rfl, rfl, fun _ => rfl, rfl⟩

theorem held_run {key : SlotKey} {ls : List (Bool × Op)} {m₁ m₂ : Manager}
    (hm : m₁.WellFormed ∧ m₁.Own) (hk : m₁.phase k = .subscribing key params)
    (h : Run Manager.step (Unanswered k) m₁ ls m₂) :
    (m₂.WellFormed ∧ m₂.Own) ∧ m₂.phase k = .subscribing key params ∧ SameBooks m₁ m₂ := by
  refine h.preserves (I := fun m => (m.WellFormed ∧ m.Own) ∧
    m.phase k = .subscribing key params ∧ SameBooks m₁ m) (fun m e m' hI hok hs => ?_)
    ⟨hm, hk, .refl m₁⟩
  obtain ⟨hk', hsame⟩ := held_step hI.1.1 hI.2.1 hok hs
  exact ⟨own_step m e m' hI.1 hs, hk', hI.2.2.trans hsame⟩

/-- The part of a call under the lock, up to its request. -/
theorem lockedSubscribe_cases (connected : Bool) (m : Manager) (k : Nat) (key : SlotKey)
    (params : Json) :
    (∃ r, m.slots.get? key = some r ∧
      (lockedSubscribe connected m k key params).phase k = .streaming key r ∧
      (lockedSubscribe connected m k key params).slots = m.slots ∧
      (lockedSubscribe connected m k key params).bySubId = m.bySubId ∧
      k ∈ ((lockedSubscribe connected m k key params).slot r).consumers) ∨
    m.slots.get? key = none ∧ SameBooks m (lockedSubscribe connected m k key params) ∧
      (connected = true ∧
          (lockedSubscribe connected m k key params).phase k = .subscribing key params ∨
        ∃ e, (lockedSubscribe connected m k key params).phase k = .failed e) := by
  unfold lockedSubscribe
  cases hr : m.slots.get? key with
  | some r =>
      refine .inl ⟨r, rfl, Function.update_self .., rfl, rfl, ?_⟩
      show k ∈ (Function.update m.slot r _ r).consumers
      rw [Function.update_self]
      exact List.mem_append_right _ List.mem_cons_self
  | none =>
      refine .inr ⟨rfl, ?_⟩
      cases connected with
      | true => exact ⟨⟨rfl, rfl, fun _ => rfl, rfl⟩, .inl ⟨rfl, Function.update_self ..⟩⟩
      | false => exact ⟨⟨rfl, rfl, fun _ => rfl, rfl⟩, .inr ⟨_, Function.update_self ..⟩⟩

/-- The call does without a request. -/
theorem atomic_iff_of_atOnce {text : String} (htext : canonicalize params = .ok text)
    (h : (∃ r, m.slots.get? (kind, text) = some r ∧ m'.phase k = .streaming (kind, text) r ∧
        m'.slots = m.slots ∧ m'.bySubId = m.bySubId ∧ k ∈ (m'.slot r).consumers) ∨
      m.slots.get? (kind, text) = none ∧ SameBooks m m' ∧ ∃ e, m'.phase k = .failed e) :
    Atomic k kind params m m' ↔ ∀ text r, canonicalize params = .ok text →
      m.slots.get? (kind, text) = some r → m.Receives r := by
  have honly : ∀ text', canonicalize params = .ok text' → text' = text := by
    intro text' htext'
    rw [htext] at htext'
    injection htext' with htext'
    exact htext'.symm
  rcases h with ⟨r, hr, hk, hslots, hby, hmem⟩ | ⟨hnone, hsame, e, hk⟩
  · constructor
    · intro hatomic text' r' htext' hr'
      rw [honly text' htext', hr] at hr'
      injection hr' with hr'
      cases hatomic with
      | returned htext'' hk'' hslot'' hmem'' hreceives =>
          rw [hk] at hk''
          injection hk'' with _ hrr
          rw [← hr', hrr, Receives, ← hby]
          exact hreceives
      | raised hk'' _ =>
          rw [hk] at hk''
          cases hk''
    · intro hreceives
      refine .returned htext hk (by rw [hslots]; exact hr) hmem ?_
      rw [Receives, hby]
      exact hreceives text r htext hr
  · refine iff_of_true (.raised hk hsame) fun text' r htext' hr => ?_
    rw [honly text' htext', hnone] at hr
    cases hr

/-- What becomes of a call whose request is answered. -/
theorem subscribed_cases (m : Manager) (k : Nat) (key : SlotKey) (params v : Json) :
    (m.subscribed k key params (.ok v)).slots = m.slots.set key m.nextSlot ∧
      k ∈ ((m.subscribed k key params (.ok v)).slot m.nextSlot).consumers ∧
      (v.isHashable = true ∧
          (m.subscribed k key params (.ok v)).phase k = .streaming key m.nextSlot ∧
          (m.subscribed k key params (.ok v)).bySubId = m.bySubId.set (dictKey v) m.nextSlot ∨
        v.isHashable = false ∧
          (m.subscribed k key params (.ok v)).phase k = .failed .typeError) := by
  rw [subscribed]
  dsimp only
  by_cases hhash : v.isHashable = true
  · rw [if_pos hhash]
    refine ⟨rfl, ?_, .inl ⟨hhash, Function.update_self .., rfl⟩⟩
    show k ∈ (Function.update m.slot m.nextSlot _ m.nextSlot).consumers
    rw [Function.update_self]
    exact List.mem_singleton_self k
  · rw [if_neg hhash]
    refine ⟨rfl, ?_, .inr ⟨by simpa using hhash, Function.update_self ..⟩⟩
    show k ∈ (Function.update m.slot m.nextSlot _ m.nextSlot).consumers
    rw [Function.update_self]
    exact List.mem_singleton_self k

/-- What becomes of a call whose request fails. -/
theorem subscribed_error (m : Manager) (k : Nat) (key : SlotKey) (params : Json) (e : Exc) :
    SameBooks m (m.subscribed k key params (.error e)) ∧
      ∃ e', (m.subscribed k key params (.error e)).phase k = .failed e' := by
  rw [subscribed.eq_def]
  split
  · rename_i h
    cases h
  · exact ⟨⟨rfl, rfl, fun _ => rfl, rfl⟩, _, Function.update_self ..⟩
  · exact ⟨⟨rfl, rfl, fun _ => rfl, rfl⟩, _, Function.update_self ..⟩

/-- The call ends with the answer to its request. -/
theorem atomic_iff_of_answer {m₂ : Manager} (hown : m₂.Own) {text : String}
    (htext : canonicalize params = .ok text) (hnone : m.slots.get? (kind, text) = none)
    (hsame : SameBooks m m₂) (outcome : Except Exc Json) :
    Atomic k kind params m (m₂.subscribed k (kind, text) params outcome) ↔
      ∀ v, outcome = .ok v → ∃ id, v = .str id := by
  cases outcome with
  | error e =>
      obtain ⟨hbooks, e', hk⟩ := subscribed_error m₂ k (kind, text) params e
      exact iff_of_true (.raised hk (hsame.trans hbooks)) nofun
  | ok v =>
      obtain ⟨hslots, hmem, hcases⟩ := subscribed_cases m₂ k (kind, text) params v
      have hslot := Dict.get?_set_self m₂.slots (kind, text) m₂.nextSlot
      rw [← hslots] at hslot
      rcases hcases with ⟨hhash, hk, hby⟩ | ⟨hhash, hk⟩
      · constructor
        · intro hatomic v' hv'
          cases hv'
          cases hatomic with
          | returned _ hk' _ _ hreceives =>
              rw [hk] at hk'
              cases hk'
              obtain ⟨id, hid⟩ := hreceives
              rw [hby, Dict.get?_set] at hid
              split at hid
              · rename_i heq
                exact ⟨id, dictKey_eq_str heq⟩
              · exact absurd (hown _ _ hid).exist (Nat.lt_irrefl _)
          | raised hk' _ =>
              rw [hk] at hk'
              cases hk'
        · intro hstr
          obtain ⟨id, rfl⟩ := hstr v rfl
          exact .returned htext hk hslot hmem ⟨id, by rw [hby]; exact Dict.get?_set_self ..⟩
      · refine iff_of_false (fun hatomic => ?_) fun hstr => ?_
        · cases hatomic with
          | returned _ hk' _ _ _ =>
              rw [hk] at hk'
              cases hk'
          | raised _ hbooks =>
              rw [hbooks.slots, hnone] at hslot
              cases hslot
        · obtain ⟨id, rfl⟩ := hstr v rfl
          cases hhash

end

/-- **A call is atomic** exactly if notifications reach the slot it joins, and its request is not
answered with anything but text. -/
theorem atomic_iff {ls : List (Bool × Op)} {m m' : Manager} {k : Nat} {kind : StreamKind}
    {params : Json} {e : Bool × Op} {outcome : Option (Except Exc Json)}
    (h : Run Manager.step unguarded init ls m) (hcall : Call k kind params m e outcome m') :
    Atomic k kind params m m' ↔ Dependable k kind params m e outcome := by
  have hm := own_of_run h
  obtain ⟨connected, op⟩ := e
  cases hcall with
  | atOnce hbegins hstep hends =>
      have hdependable : Dependable k kind params m (connected, op) none ↔
          ((op = .subscribe k kind params → connected = true) → ∀ text r,
            canonicalize params = .ok text → m.slots.get? (kind, text) = some r → m.Receives r) :=
        ⟨fun h => h.joined, fun h => ⟨h, nofun⟩⟩
      rw [hdependable]
      rcases begins_cases hbegins hstep with ⟨e, rfl, hop, hc⟩ | ⟨key, hk⟩ |
        ⟨text, rest, htext, hon, rfl⟩
      · refine iff_of_true (.raised (Function.update_self ..) ⟨rfl, rfl, fun _ => rfl, rfl⟩) ?_
        intro hon text r htext
        have hoff := hc text htext
        rw [hon hop] at hoff
        cases hoff
      · rcases hends with ⟨e, he⟩ | ⟨key', r, hr⟩
        · rw [hk] at he
          cases he
        · rw [hk] at hr
          cases hr
      · refine (atomic_iff_of_atOnce htext ?_).trans ⟨fun h _ => h, fun h => h hon⟩
        rcases lockedSubscribe_cases connected { m with
            phase := Function.update m.phase k (.acquiring (kind, text) params)
            lock := some (.consumer k)
            waiters := rest } k (kind, text) params with
          ⟨r, hr, hk, hslots, hby, hmem⟩ | ⟨hnone, hsame, ⟨-, hk⟩ | hfailed⟩
        · exact .inl ⟨r, hr, hk, hslots, hby, hmem⟩
        · rcases hends with ⟨e, he⟩ | ⟨key', r, hr⟩
          · rw [hk] at he
            cases he
          · rw [hk] at hr
            cases hr
        · exact .inr ⟨hnone, ⟨hsame.slots, hsame.bySubId, hsame.consumers, hsame.gauge⟩, hfailed⟩
  | @answered m₁ m₂ _ ls text connected' outcome hbegins hstep hasking hrun hanswer =>
      have hm₁ := own_step m (connected, op) m₁ hm hstep
      obtain ⟨hm₂, hk₂, hsame₂⟩ := held_run hm₁ hasking hrun
      rw [step, answered, hk₂] at hanswer
      injection hanswer with hanswer
      obtain ⟨htext, hnone, hsame⟩ : canonicalize params = .ok text ∧
          m.slots.get? (kind, text) = none ∧ SameBooks m m₁ := by
        rcases begins_cases hbegins hstep with ⟨e, rfl, -, -⟩ | ⟨key, hk⟩ |
          ⟨text', rest, htext', -, rfl⟩
        · rw [setPhase_phase, Function.update_self] at hasking
          cases hasking
        · rw [hk] at hasking
          cases hasking
        · rcases lockedSubscribe_cases connected { m with
              phase := Function.update m.phase k (.acquiring (kind, text') params)
              lock := some (.consumer k)
              waiters := rest } k (kind, text') params with
            ⟨r, -, hk, -⟩ | ⟨hnone, hsame, ⟨-, hk⟩ | ⟨e, hk⟩⟩
          · rw [hk] at hasking
            cases hasking
          · rw [hk] at hasking
            cases hasking
            exact ⟨htext', hnone, hsame.slots, hsame.bySubId, hsame.consumers, hsame.gauge⟩
          · rw [hk] at hasking
            cases hasking
      rw [← hanswer]
      refine (atomic_iff_of_answer hm₂.2 htext hnone (hsame.trans hsame₂) outcome).trans ?_
      constructor
      · intro hstr
        refine ⟨fun _ text' r htext' hr => ?_, fun v hv => hstr v (Option.some.inj hv)⟩
        rw [htext] at htext'
        injection htext' with htext'
        rw [← htext', hnone] at hr
        cases hr
      · exact fun hdep v hv => hdep.answered v (by rw [hv])

/-- The first call there is, once its request is answered with `v`. -/
def firstCall (v : Json) : Manager :=
  (exec Manager.step init [(true, .subscribe 0 .newHeads .null),
    (true, .answer (.consumer 0) (.ok v))]).getD init

theorem call_first (v : Json) (hv : v = .str "0x1" ∨ v = .arr []) :
    Call 0 .newHeads .null init (true, .subscribe 0 .newHeads .null) (some (.ok v)) (firstCall v) := by
  have hasking : ((Manager.step init (true, .subscribe 0 .newHeads .null)).getD init).phase 0 =
      .subscribing (.newHeads, "null") .null := rfl
  have hanswer : ((Manager.step init (true, .subscribe 0 .newHeads .null)).getD init).step
      (true, .answer (.consumer 0) (.ok v)) = some (firstCall v) := by
    rcases hv with rfl | rfl
    · rfl
    · rfl
  exact .answered (.inl rfl) rfl hasking (.nil _) hanswer

theorem atomic_iff_first : Atomic 0 .newHeads .null init (firstCall (.str "0x1")) := by
  refine (atomic_iff (.nil init) (call_first _ (.inl rfl))).mpr ⟨fun _ text r _ hr => ?_, fun v hv => ?_⟩
  · cases hr
  · cases hv
    exact ⟨"0x1", rfl⟩

/-- **A slot nobody asked for.**  The upstream answers with a list: the call raises, and its slot
stays behind. -/
theorem not_atomic_list :
    Run Manager.step unguarded init [] init ∧
      Call 0 .newHeads .null init (true, .subscribe 0 .newHeads .null) (some (.ok (.arr [])))
        (firstCall (.arr [])) ∧
      ¬ Atomic 0 .newHeads .null init (firstCall (.arr [])) := by
  refine ⟨.nil init, call_first _ (.inr rfl), ?_⟩
  rintro (⟨-, hk, -, -, -⟩ | ⟨-, hsame⟩)
  · cases hk
  · have hslots : (firstCall (.arr [])).slots.get? (.newHeads, "null") = none := by
      rw [hsame.slots]
      rfl
    revert hslots
    decide

end Manager

end ExecRestApi
