/-
What holds of the subscription manager in every state it can reach.

Three groups of facts, each kept by every step: the streams and the consumer lists of
the slots name each other (`Members`), the lock's fields agree with where the tasks
stand (`LockConsistent`), and a task that waits for an answer under the lock still finds
the slots as it left them (`Progress`).

The three are proved together, since a step under the lock is right about the slots only if the
task that takes it is the one which holds the lock.  `WellFormed` has them as fields, and
`WellFormed.step` is the one induction step that the later modules start from.
-/
import ExecRestApi.Proofs.Manager

namespace ExecRestApi

open Py Transition

namespace Manager

/-- The slot a stream belongs to until its `aclose` has the lock. -/
def homeOf : Phase → Option (SlotKey × SlotRef)
  | .streaming key r => some (key, r)
  | .removing key r => some (key, r)
  | _ => none

/-- The streams, the slots and the consumer lists name each other. -/
structure Members (slots : Dict SlotKey SlotRef) (slot : SlotRef → Slot) (nextSlot : SlotRef)
    (phase : Nat → Phase) : Prop where
  exist : ∀ key r, slots.get? key = some r → r < nextSlot
  inj : ∀ key key' r, slots.get? key = some r → slots.get? key' = some r → key = key'
  unborn : ∀ r, nextSlot ≤ r → (slot r).consumers = []
  home : ∀ k key r, homeOf (phase k) = some (key, r) →
    slots.get? key = some r ∧ k ∈ (slot r).consumers
  member : ∀ k r, k ∈ (slot r).consumers →
    (∃ key, homeOf (phase k) = some (key, r)) ∨ ∃ e, phase k = .failed e
  nodup : ∀ r, (slot r).consumers.Nodup

/-- A task under the lock still finds the slots as it left them. -/
structure Progress (m : Manager) : Prop where
  subscribing : ∀ k key params, m.phase k = .subscribing key params → m.slots.get? key = none
  resubscribing : ∀ r rest, m.reconnecting = .resubscribing r rest →
    ∃ before, m.slots.values = before ++ r :: rest

/-- What every reachable state satisfies. -/
structure WellFormed (m : Manager) : Prop where
  members : Members m.slots m.slot m.nextSlot m.phase
  locks : m.LockConsistent
  progress : m.Progress

/-! ### Members

What can happen to the lists is little: a stream joins a list or leaves one, a slot goes, or a
slot comes with its first stream.
-/

section

variable {slots : Dict SlotKey SlotRef} {slot slot' : SlotRef → Slot} {nextSlot : SlotRef}
  {phase : Nat → Phase} {k : Nat} {key : SlotKey} {r : SlotRef}

/-- Only the consumer lists of the slots matter. -/
theorem Members.congr (h : Members slots slot nextSlot phase)
    (hcons : ∀ r, (slot' r).consumers = (slot r).consumers) :
    Members slots slot' nextSlot phase := by
  refine ⟨h.exist, h.inj, ?_, ?_, ?_, ?_⟩
  · intro r hr
    rw [hcons]
    exact h.unborn r hr
  · intro k key r hk
    rw [hcons]
    exact h.home k key r hk
  · intro k r hk
    rw [hcons] at hk
    exact h.member k r hk
  · intro r
    rw [hcons]
    exact h.nodup r

/-- A call without a slot is on no consumer list, unless it has failed. -/
theorem Members.not_mem (h : Members slots slot nextSlot phase) (hk : homeOf (phase k) = none)
    (hfail : ∀ e, phase k ≠ .failed e) (r : SlotRef) : k ∉ (slot r).consumers := by
  intro hmem
  rcases h.member k r hmem with ⟨key, hhome⟩ | ⟨e, he⟩
  · rw [hk] at hhome
    cases hhome
  · exact hfail e he

/-- A call moves on and keeps its slot. -/
theorem Members.move (h : Members slots slot nextSlot phase) {p : Phase}
    (hp : homeOf p = homeOf (phase k)) (hfail : ∀ e, phase k ≠ .failed e) :
    Members slots slot nextSlot (Function.update phase k p) := by
  have hsame : ∀ j, homeOf (Function.update phase k p j) = homeOf (phase j) := by
    intro j
    by_cases hj : j = k
    · rw [hj, Function.update_self, hp]
    · rw [Function.update_of_ne hj]
  refine ⟨h.exist, h.inj, h.unborn, ?_, ?_, h.nodup⟩
  · intro j key r hj
    rw [hsame] at hj
    exact h.home j key r hj
  · intro j r hj
    rw [hsame]
    rcases h.member j r hj with hhome | ⟨e, he⟩
    · exact .inl hhome
    · by_cases hjk : j = k
      · rw [hjk] at he
        exact absurd he (hfail e)
      · exact .inr ⟨e, by rw [Function.update_of_ne hjk]; exact he⟩

/-- A call joins a slot. -/
theorem Members.join (h : Members slots slot nextSlot phase) (hk : homeOf (phase k) = none)
    (hfail : ∀ e, phase k ≠ .failed e) (hr : slots.get? key = some r) :
    Members slots
      (Function.update slot r { slot r with consumers := (slot r).consumers ++ [k] }) nextSlot
      (Function.update phase k (.streaming key r)) := by
  have hnot := h.not_mem hk hfail
  refine ⟨h.exist, h.inj, ?_, ?_, ?_, ?_⟩
  · intro q hq
    have hne : q ≠ r := Nat.ne_of_gt (Nat.lt_of_lt_of_le (h.exist key r hr) hq)
    rw [Function.update_of_ne hne]
    exact h.unborn q hq
  · intro j key' q hj
    by_cases hjk : j = k
    · rw [hjk, Function.update_self] at hj
      cases hj
      rw [hjk, Function.update_self]
      exact ⟨hr, by simp⟩
    · rw [Function.update_of_ne hjk] at hj
      obtain ⟨hslot, hmem⟩ := h.home j key' q hj
      refine ⟨hslot, ?_⟩
      by_cases hq : q = r
      · rw [hq, Function.update_self]
        rw [hq] at hmem
        exact List.mem_append_left _ hmem
      · rwa [Function.update_of_ne hq]
  · intro j q hj
    by_cases hjk : j = k
    · rw [hjk, Function.update_self]
      by_cases hq : q = r
      · exact .inl ⟨key, by rw [hq]; rfl⟩
      · rw [Function.update_of_ne hq, hjk] at hj
        exact absurd hj (hnot q)
    · rw [Function.update_of_ne hjk]
      by_cases hq : q = r
      · rw [hq, Function.update_self] at hj
        rcases List.mem_append.mp hj with hj | hj
        · rw [hq]
          exact h.member j r hj
        · exact absurd (List.mem_singleton.mp hj) hjk
      · rw [Function.update_of_ne hq] at hj
        exact h.member j q hj
  · intro q
    by_cases hq : q = r
    · rw [hq, Function.update_self]
      exact List.nodup_append.mpr ⟨h.nodup r, List.nodup_cons.mpr ⟨List.not_mem_nil, List.nodup_nil⟩,
        by
          intro a ha b hb hab
          rw [List.mem_singleton.mp hb] at hab
          rw [hab] at ha
          exact hnot r ha⟩
    · rw [Function.update_of_ne hq]
      exact h.nodup q

/-- A stream leaves its slot. -/
theorem Members.leave (h : Members slots slot nextSlot phase)
    (hk : homeOf (phase k) = some (key, r)) {p : Phase} (hp : homeOf p = none) :
    Members slots
      (Function.update slot r { slot r with consumers := (slot r).consumers.erase k }) nextSlot
      (Function.update phase k p) := by
  have hsub : ∀ q, ∀ j ∈ (Function.update slot r
      { slot r with consumers := (slot r).consumers.erase k } q).consumers,
      j ∈ (slot q).consumers ∧ j ≠ k := by
    intro q j hj
    by_cases hq : q = r
    · rw [hq, Function.update_self] at hj
      rw [hq]
      exact ((h.nodup r).mem_erase_iff.mp hj).symm
    · rw [Function.update_of_ne hq] at hj
      refine ⟨hj, ?_⟩
      intro hjk
      rw [hjk] at hj
      rcases h.member k q hj with ⟨key', hhome⟩ | ⟨e, he⟩
      · rw [hk] at hhome
        cases hhome
        exact hq rfl
      · rw [he] at hk
        cases hk
  refine ⟨h.exist, h.inj, ?_, ?_, ?_, ?_⟩
  · intro q hq
    apply List.eq_nil_iff_forall_not_mem.mpr
    intro j hj
    have := (hsub q j hj).1
    rw [h.unborn q hq] at this
    cases this
  · intro j key' q hj
    by_cases hjk : j = k
    · rw [hjk, Function.update_self, hp] at hj
      cases hj
    · rw [Function.update_of_ne hjk] at hj
      obtain ⟨hslot, hmem⟩ := h.home j key' q hj
      refine ⟨hslot, ?_⟩
      by_cases hq : q = r
      · rw [hq, Function.update_self]
        rw [hq] at hmem
        exact (List.mem_erase_of_ne hjk).mpr hmem
      · rwa [Function.update_of_ne hq]
  · intro j q hj
    obtain ⟨hmem, hjk⟩ := hsub q j hj
    rw [Function.update_of_ne hjk]
    exact h.member j q hmem
  · intro q
    by_cases hq : q = r
    · rw [hq, Function.update_self]
      exact (h.nodup r).erase k
    · rw [Function.update_of_ne hq]
      exact h.nodup q

/-- A slot without consumers is taken out. -/
theorem Members.drop (h : Members slots slot nextSlot phase) (hr : slots.get? key = some r)
    (hnil : (slot r).consumers = []) : Members (slots.erase key) slot nextSlot phase := by
  have hsub : ∀ key' q, (slots.erase key).get? key' = some q → slots.get? key' = some q :=
    fun _ _ hq => (Dict.get?_erase_eq_some.mp hq).2
  refine ⟨?_, ?_, h.unborn, ?_, h.member, h.nodup⟩
  · intro key' q hq
    exact h.exist key' q (hsub key' q hq)
  · intro a b q ha hb
    exact h.inj a b q (hsub a q ha) (hsub b q hb)
  · intro j key' q hj
    obtain ⟨hslot, hmem⟩ := h.home j key' q hj
    refine ⟨Dict.get?_erase_eq_some.mpr ⟨?_, hslot⟩, hmem⟩
    intro heq
    rw [← heq, hr] at hslot
    cases hslot
    rw [hnil] at hmem
    cases hmem

/-- A new slot with one consumer. -/
theorem Members.create (h : Members slots slot nextSlot phase) (hk : homeOf (phase k) = none)
    (hfail : ∀ e, phase k ≠ .failed e) (hkey : slots.get? key = none) {s : Slot}
    (hs : s.consumers = [k]) {p : Phase}
    (hp : homeOf p = some (key, nextSlot) ∨ homeOf p = none ∧ ∃ e, p = .failed e) :
    Members (slots.set key nextSlot) (Function.update slot nextSlot s) (nextSlot + 1)
      (Function.update phase k p) := by
  have hnot := h.not_mem hk hfail
  have hnew : ∀ key' q, slots.get? key' = some q → key ≠ key' ∧ q ≠ nextSlot := by
    intro key' q hq
    constructor
    · intro heq
      rw [← heq, hkey] at hq
      cases hq
    · exact Nat.ne_of_lt (h.exist key' q hq)
  refine ⟨?_, ?_, ?_, ?_, ?_, ?_⟩
  · intro key' q hq
    rw [Dict.get?_set] at hq
    split at hq
    · cases hq
      exact Nat.lt_succ_self _
    · exact Nat.lt_succ_of_lt (h.exist key' q hq)
  · intro a b q ha hb
    rw [Dict.get?_set] at ha hb
    split at ha <;> split at hb
    · rename_i ha' hb'
      rw [← ha', ← hb']
    · cases ha
      exact absurd rfl (hnew b _ hb).2
    · cases hb
      exact absurd rfl (hnew a _ ha).2
    · exact h.inj a b q ha hb
  · intro q hq
    rw [Function.update_of_ne (Nat.ne_of_gt hq)]
    exact h.unborn q (Nat.le_of_succ_le hq)
  · intro j key' q hj
    by_cases hjk : j = k
    · rw [hjk, Function.update_self] at hj
      rcases hp with hp | ⟨hp, -⟩
      · rw [hp] at hj
        cases hj
        rw [hjk, Function.update_self, hs]
        exact ⟨Dict.get?_set_self .., List.mem_singleton_self k⟩
      · rw [hp] at hj
        cases hj
    · rw [Function.update_of_ne hjk] at hj
      obtain ⟨hslot, hmem⟩ := h.home j key' q hj
      obtain ⟨hne, hq⟩ := hnew key' q hslot
      rw [Dict.get?_set_ne _ _ hne, Function.update_of_ne hq]
      exact ⟨hslot, hmem⟩
  · intro j q hj
    by_cases hq : q = nextSlot
    · rw [hq, Function.update_self, hs, List.mem_singleton] at hj
      rw [hj, Function.update_self, hq]
      rcases hp with hp | ⟨-, e, he⟩
      · exact .inl ⟨key, hp⟩
      · exact .inr ⟨e, he⟩
    · rw [Function.update_of_ne hq] at hj
      have hjk : j ≠ k := by
        intro hjk
        rw [hjk] at hj
        exact hnot q hj
      rw [Function.update_of_ne hjk]
      exact h.member j q hj
  · intro q
    by_cases hq : q = nextSlot
    · rw [hq, Function.update_self, hs]
      exact List.nodup_cons.mpr ⟨List.not_mem_nil, List.nodup_nil⟩
    · rw [Function.update_of_ne hq]
      exact h.nodup q

end

/-! ### The calls at the lock

A task whose turn it is was waiting for the lock or has just asked for it.  What it was before
that is what the lists know of it.
-/

section

variable {m : Manager} {op : Op} {k : Nat} {rest : List Task} {p : Phase}

/-- Where a call stands before the step that brings it to the lock. -/
theorem Approach.before (h : Approach m op k p) :
    lockStatus (m.phase k) = .outside ∧ homeOf (m.phase k) = homeOf p
      ∧ (∀ e, m.phase k ≠ .failed e) ∧ lockStatus p = .waiting := by
  cases h with
  | subscribe hk _ =>
      rw [hk]
      exact ⟨rfl, rfl, (by intro e he; cases he), rfl⟩
  | aclose hk =>
      rw [hk]
      exact ⟨rfl, rfl, (by intro e he; cases he), rfl⟩

theorem Approach.ne_onReconnect (h : Approach m op k p) : op ≠ .onReconnect := by
  intro hop
  rw [hop] at h
  cases h

theorem AtLock.ne_onReconnect (h : AtLock m op k rest p) : op ≠ .onReconnect := by
  rcases h.2 with ⟨hop, -, -⟩ | ⟨-, -, happ⟩
  · rw [hop]
    intro h
    cases h
  · exact happ.ne_onReconnect

/-- What is true of a call whose turn it is. -/
theorem AtLock.before (h : AtLock m op k rest p)
    (hp : lockStatus p = .waiting) :
    Mutex.Turn m.lock m.waiters (status m.phase m.reconnecting) (.consumer k) rest
      ∧ homeOf (m.phase k) = homeOf p ∧ ∀ e, m.phase k ≠ .failed e := by
  rcases h.2 with ⟨-, hw, hk⟩ | ⟨hw, hrest, happ⟩
  · refine ⟨⟨h.1, .inl hw⟩, by rw [hk], ?_⟩
    intro e he
    rw [← hk, he] at hp
    cases hp
  · obtain ⟨hout, hhome, hfail, -⟩ := happ.before
    exact ⟨⟨h.1, .inr ⟨hw, hrest, hout⟩⟩, hhome, hfail⟩

theorem ReconnectAtLock.turn (h : ReconnectAtLock m op rest) :
    Mutex.Turn m.lock m.waiters (status m.phase m.reconnecting) .reconnect rest := by
  rcases h.2 with ⟨-, hw, -⟩ | ⟨-, hw, hrest, hout⟩
  · exact ⟨h.1, .inl hw⟩
  · exact ⟨h.1, .inr ⟨hw, hrest, hout⟩⟩

end

/-! ### How far a call has come

A call goes one way: it waits for the lock, asks, has its stream or has raised, and then closes.
No step takes it back, so whatever holds from some stage on holds for good.
-/

/-- How far a call has come, from being made to the end of `aclose`. -/
def stage : Phase → Nat
  | .fresh => 0
  | .acquiring _ _ => 1
  | .subscribing _ _ => 2
  | .failed _ => 3
  | .streaming _ _ => 3
  | .removing _ _ => 4
  | .unsubscribing _ => 5
  | .closed => 6

section

variable {m m' : Manager} {op : Op} {k : Nat} {rest : List Task} {p : Phase}

theorem Approach.stage_le (h : Approach m op k p) : stage (m.phase k) ≤ stage p := by
  cases h with
  | subscribe hk _ => simp [hk, stage]
  | aclose hk => simp [hk, stage]

theorem AtLock.stage_le (h : AtLock m op k rest p) : stage (m.phase k) ≤ stage p := by
  rcases h.2 with ⟨-, -, hp⟩ | ⟨-, -, happ⟩
  · rw [hp]
  · exact happ.stage_le

/-- **No step takes a call back.** -/
theorem stage_le_of_effect {connected : Bool} (h : Effect connected m op m') (k : Nat) :
    stage (m.phase k) ≤ stage (m'.phase k) := by
  -- at most one call moves, and it moves on
  have hmove : ∀ {j : Nat} {p : Phase}, m'.phase = Function.update m.phase j p →
      stage (m.phase j) ≤ stage p → stage (m.phase k) ≤ stage (m'.phase k) := by
    intro j p hp hj
    rw [hp]
    by_cases hkj : k = j
    · rw [hkj, Function.update_self]
      exact hj
    · rw [Function.update_of_ne hkj]
  cases h with
  | refused hj => exact hmove rfl (by simp [hj, stage])
  | unsubscribed hj => exact hmove rfl (by simp [hj, stage])
  | waiting happ => exact hmove rfl happ.stage_le
  | joined hat _ => exact hmove rfl (hat.stage_le.trans (by simp [stage]))
  | asked hat _ _ => exact hmove rfl (hat.stage_le.trans (by simp [stage]))
  | turnedAway hat => exact hmove rfl (hat.stage_le.trans (by simp [stage]))
  | gone hat _ => exact hmove rfl (hat.stage_le.trans (by simp [stage]))
  | left hat _ _ => exact hmove rfl (hat.stage_le.trans (by simp [stage]))
  | ended hat _ _ hp =>
      refine hmove rfl (hat.stage_le.trans ?_)
      rcases afterEnd_cases hp with hp | hp <;> simp [hp, stage]
  | created hj _ => exact hmove rfl (by simp [hj, stage])
  | createdUnhashable hj _ => exact hmove rfl (by simp [hj, stage])
  | unanswered hj => exact hmove rfl (by simp [hj, stage])
  | _ => exact Nat.le_refl _

end

/-! ### Every step keeps the invariant

A step that ends a part under the lock hands it on.  The task that gets it finds no request in
flight, and its own part begins in the state the other has left.
-/

/-- Nobody is under a free lock. -/
theorem progress_of_free {m : Manager} (hl : m.LockConsistent) (hfree : m.lock = none) :
    m.Progress := by
  rw [LockConsistent, hfree] at hl
  refine ⟨?_, ?_⟩
  · intro k key params hk
    have := hl.outside_of_free (t := .consumer k)
    rw [status, hk] at this
    exact absurd rfl this
  · intro r rest hrc
    have := hl.outside_of_free (t := .reconnect)
    rw [status, hrc] at this
    exact absurd rfl this

/-- A call takes the lock and gives it back. -/
theorem locks_after_turn {m : Manager} (hl : m.LockConsistent) {op : Op} {k : Nat}
    {rest : List Task} {p q : Phase} (hk : AtLock m op k rest p) (hp : lockStatus p = .waiting)
    (hq : lockStatus q = .outside) :
    Mutex.Consistent none rest (status (Function.update m.phase k q) m.reconnecting) := by
  rw [status_update, hq]
  exact hl.pass (hk.before hp).1

/-- The call that holds the lock gives it back. -/
theorem locks_after_answer {m : Manager} (hl : m.LockConsistent) {k : Nat} {p : Phase}
    (hk : lockStatus (m.phase k) = .holding) (hp : lockStatus p = .outside) :
    Mutex.Consistent none m.waiters (status (Function.update m.phase k p) m.reconnecting) := by
  rw [status_update, hp]
  have hlock := (hl.holding (.consumer k)).mp hk
  rw [LockConsistent, hlock] at hl
  exact hl.release

/-- `on_reconnect` holds the lock after the loop over `rs` exactly if it awaits an answer. -/
theorem locks_after_loop {waiters : List Task} {phase : Nat → Phase} {rc : Reconnecting}
    (connected : Bool) (rs : List SlotRef)
    (h : Mutex.Consistent (some .reconnect) waiters
      (Function.update (status phase rc) .reconnect .holding)) :
    Mutex.Consistent (heldBy connected rs) waiters (status phase (stopsAt connected rs)) := by
  have hrelease := h.release
  rw [Function.update_idem] at hrelease
  rw [status_reconnect phase rc]
  cases connected with
  | false => exact hrelease
  | true =>
      cases rs with
      | nil => exact hrelease
      | cons r rest => exact h

/-- The loop over `rs` leaves the slots as it found them. -/
theorem progress_after_loop {m : Manager} (hl : m.LockConsistent) {connected : Bool}
    (before : List SlotRef) {rs : List SlotRef} (hvalues : m.slots.values = before ++ rs)
    (hrc : m.reconnecting = stopsAt connected rs) (hlock : m.lock = heldBy connected rs) :
    m.Progress := by
  refine ⟨?_, ?_⟩
  · intro k key params hk
    have hheld := hl.subscribing hk
    rw [hlock] at hheld
    cases connected with
    | false => cases hheld
    | true => cases rs <;> cases hheld
  · intro r rest hr
    rw [hrc] at hr
    cases connected with
    | false => cases hr
    | true =>
        cases rs with
        | nil => cases hr
        | cons q qs =>
            cases hr
            exact ⟨before, hvalues⟩

/-- `on_reconnect` holds the lock while it awaits an answer. -/
theorem locks_of_resubscribing {m : Manager} (hl : m.LockConsistent) {r : SlotRef}
    {rest : List SlotRef} (hrc : m.reconnecting = .resubscribing r rest) :
    Mutex.Consistent (some .reconnect) m.waiters
      (Function.update (status m.phase m.reconnecting) .reconnect .holding) := by
  have hst : status m.phase m.reconnecting .reconnect = .holding := by
    rw [status, hrc]
    rfl
  have hlock := (hl.holding .reconnect).mp hst
  rw [LockConsistent, hlock] at hl
  rwa [← hst, Function.update_eq_self]

theorem wellFormed_init : init.WellFormed := by
  have hl : init.LockConsistent := by
    have hst : status init.phase init.reconnecting = fun _ => .outside := by
      funext t
      cases t <;> rfl
    rw [LockConsistent, hst]
    exact .initial
  refine ⟨⟨?_, ?_, ?_, ?_, ?_, ?_⟩, hl, progress_of_free hl rfl⟩
  · intro key r hr
    cases hr
  · intro key key' r hr
    cases hr
  · intro r _
    rfl
  · intro k key r hk
    cases hk
  · intro k r hk
    cases hk
  · intro r
    exact List.nodup_nil

/-- The step of a call outside the lock. -/
theorem WellFormed.move {m : Manager} (h : m.WellFormed) {k : Nat} {p : Phase}
    (hout : lockStatus (m.phase k) = .outside) (hp : homeOf p = homeOf (m.phase k))
    (hpout : lockStatus p = .outside) (hfail : ∀ e, m.phase k ≠ .failed e) :
    (m.setPhase k p).WellFormed := by
  refine ⟨h.members.move hp hfail, ?_, ?_, h.progress.resubscribing⟩
  · show Mutex.Consistent m.lock m.waiters (status (Function.update m.phase k p) m.reconnecting)
    rw [status_update, hpout]
    exact h.locks.stay hout
  · intro j key params hj
    rw [setPhase_phase] at hj
    by_cases hjk : j = k
    · rw [hjk, Function.update_self] at hj
      rw [hj] at hpout
      cases hpout
    · rw [Function.update_of_ne hjk] at hj
      exact h.progress.subscribing j key params hj

/-- **Every step keeps the invariant.** -/
theorem WellFormed.step {m m' : Manager} (h : m.WellFormed) {e : Bool × Op}
    (hs : m.step e = some m') : m'.WellFormed := by
  obtain ⟨connected, op⟩ := e
  cases effect_of_step h.locks hs with
  | closedAgain => exact h
  | ignored => exact h
  | refused hk => exact h.move (by rw [hk]; rfl) (by rw [hk]; rfl) rfl (by rw [hk]; intro e he; cases he)
  | unsubscribed hk =>
      exact h.move (by rw [hk]; rfl) (by rw [hk]; rfl) rfl (by rw [hk]; intro e he; cases he)
  | @waiting _ k p hk =>
      obtain ⟨hout, hhome, hfail, hp⟩ := hk.before
      refine ⟨h.members.move hhome.symm hfail, ?_, ?_, h.progress.resubscribing⟩
      · show Mutex.Consistent _ _ (status (Function.update m.phase k p) m.reconnecting)
        rw [status_update, hp]
        exact h.locks.enqueue hout
      · intro j key params hj
        rw [setPhase_phase] at hj
        by_cases hjk : j = k
        · rw [hjk, Function.update_self] at hj
          rw [hj] at hp
          cases hp
        · rw [Function.update_of_ne hjk] at hj
          exact h.progress.subscribing j key params hj
  | @joined _ k key params r rest hk hr =>
      obtain ⟨-, hhome, hfail⟩ := hk.before rfl
      have hl := locks_after_turn h.locks hk rfl (q := .streaming key r) rfl
      exact ⟨h.members.join hhome hfail hr, hl, progress_of_free hl rfl⟩
  | @asked _ k key params rest hk hr hc =>
      obtain ⟨hturn, hhome, hfail⟩ := hk.before rfl
      have hl : Mutex.Consistent (some (.consumer k)) rest
          (status (Function.update m.phase k (.subscribing key params)) m.reconnecting) := by
        rw [status_update]
        exact h.locks.take hturn
      refine ⟨h.members.move hhome.symm hfail, hl, ?_, ?_⟩
      · intro j key' params' hj
        have hheld := (hl.holding (.consumer j)).mp (by
          show lockStatus (Function.update m.phase k (.subscribing key params) j) = .holding
          rw [show Function.update m.phase k (.subscribing key params) j = _ from hj]
          rfl)
        cases hheld
        rw [setPhase_phase, Function.update_self] at hj
        cases hj
        exact hr
      · intro r rs hrc
        have hheld := (hl.holding .reconnect).mp (by
          show reconnectStatus m.reconnecting = .holding
          rw [show m.reconnecting = _ from hrc]
          rfl)
        cases hheld
  | @turnedAway _ k key params rest e hk =>
      obtain ⟨-, hhome, hfail⟩ := hk.before rfl
      have hl := locks_after_turn h.locks hk rfl (q := .failed e) rfl
      exact ⟨h.members.move hhome.symm hfail, hl, progress_of_free hl rfl⟩
  | @gone _ k key r rest hk hmem =>
      obtain ⟨-, hhome, -⟩ := hk.before rfl
      exact absurd (h.members.home k key r hhome).2 hmem
  | @left _ k key r rest hk hmem hne =>
      obtain ⟨-, hhome, -⟩ := hk.before rfl
      have hl := locks_after_turn h.locks hk rfl (q := .closed) rfl
      exact ⟨h.members.leave hhome rfl, hl, progress_of_free hl rfl⟩
  | @ended _ k key r rest p hk hmem hnil hp =>
      obtain ⟨-, hhome, -⟩ := hk.before rfl
      have hout : homeOf p = none ∧ lockStatus p = .outside := by
        rcases afterEnd_cases hp with hp | hp <;> rw [hp] <;> exact ⟨rfl, rfl⟩
      have hl := locks_after_turn h.locks hk rfl hout.2
      have hleave := h.members.leave hhome hout.1
      rw [hnil] at hleave
      exact ⟨hleave.drop (h.members.home k key r hhome).1 (by rw [Function.update_self]), hl,
        progress_of_free hl rfl⟩
  | @created k key params subId hk hsub =>
      have hl := locks_after_answer h.locks (by rw [hk]; rfl) (p := .streaming key m.nextSlot) rfl
      exact ⟨h.members.create (by rw [hk]; rfl) (by rw [hk]; intro e he; cases he)
        (h.progress.subscribing k key params hk) rfl (.inl rfl), hl, progress_of_free hl rfl⟩
  | @createdUnhashable k key params subId hk hsub =>
      have hl := locks_after_answer h.locks (by rw [hk]; rfl) (p := .failed .typeError) rfl
      exact ⟨h.members.create (by rw [hk]; rfl) (by rw [hk]; intro e he; cases he)
        (h.progress.subscribing k key params hk) rfl (.inr ⟨rfl, _, rfl⟩), hl, progress_of_free hl rfl⟩
  | @unanswered k key params e e' hk =>
      have hl := locks_after_answer h.locks (by rw [hk]; rfl) (p := .failed e') rfl
      exact ⟨h.members.move (by rw [hk]; rfl) (by rw [hk]; intro e he; cases he), hl,
        progress_of_free hl rfl⟩
  | reconnectWaiting hrc =>
      refine ⟨h.members, ?_, h.progress.subscribing, ?_⟩
      · show Mutex.Consistent _ _ (status m.phase .acquiring)
        rw [status_reconnect m.phase m.reconnecting]
        exact h.locks.enqueue hrc
      · intro r rest hrc
        cases hrc
  | @reconnectStarted _ rest hturn =>
      have hl := locks_after_loop connected m.slots.values (h.locks.take hturn.turn)
      exact ⟨h.members, hl, progress_after_loop hl [] rfl rfl rfl⟩
  | @notRenewed r rest e hrc =>
      obtain ⟨before, hvalues⟩ := h.progress.resubscribing r rest hrc
      have hl := locks_after_loop connected rest (locks_of_resubscribing h.locks hrc)
      exact ⟨h.members, hl,
        progress_after_loop hl (before ++ [r]) (by simp [hvalues]) rfl rfl⟩
  | @renewed r rest newId hrc hid =>
      obtain ⟨before, hvalues⟩ := h.progress.resubscribing r rest hrc
      have hl := locks_after_loop connected rest (locks_of_resubscribing h.locks hrc)
      exact ⟨h.members.congr (consumers_renew m r newId), hl,
        progress_after_loop hl (before ++ [r]) (by simp [hvalues, setSlot]) rfl rfl⟩
  | @renewedUnhashable r rest newId hrc hid =>
      have hl : Mutex.Consistent none m.waiters (status m.phase (.raised .typeError)) := by
        have hrelease := (locks_of_resubscribing h.locks hrc).release
        rw [Function.update_idem] at hrelease
        rw [status_reconnect m.phase m.reconnecting]
        exact hrelease
      exact ⟨h.members.congr (consumers_renew m r newId), hl, progress_of_free hl rfl⟩
  | dispatched hn hr => exact ⟨h.members, h.locks, h.progress.subscribing, h.progress.resubscribing⟩
  | read hk hq => exact ⟨h.members, h.locks, h.progress.subscribing, h.progress.resubscribing⟩

/-! ### No empty slots

A slot is registered with its first consumer and taken out with its last, whatever the upstream
answers.  This is apart from `WellFormed`, which does not need it. -/

/-- No slot that can be found is without a consumer. -/
def Occupied (m : Manager) : Prop :=
  ∀ key r, m.slots.get? key = some r → (m.slot r).consumers ≠ []

theorem occupied_init : init.Occupied := by
  intro key r hr
  cases hr

/-- The list of one slot changes, and is not empty afterwards. -/
theorem Occupied.list {m m' : Manager} (h : m.Occupied) {r : SlotRef} {s : Slot}
    (hslots : m'.slots = m.slots) (hslot : m'.slot = Function.update m.slot r s)
    (hs : s.consumers = [] → (m.slot r).consumers = []) : m'.Occupied := by
  intro key q hq hnil
  rw [hslots] at hq
  rw [hslot] at hnil
  by_cases hqr : q = r
  · rw [hqr, Function.update_self] at hnil
    rw [hqr] at hq
    exact h key r hq (hs hnil)
  · rw [Function.update_of_ne hqr] at hnil
    exact h key q hq hnil

/-- A slot that lost its last consumer is taken out. -/
theorem Occupied.end {m m' : Manager} (h : m.Occupied) (hwf : m.WellFormed) {key : SlotKey}
    {r : SlotRef} {s : Slot} (hr : m.slots.get? key = some r)
    (hslots : m'.slots = m.slots.erase key) (hslot : m'.slot = Function.update m.slot r s) :
    m'.Occupied := by
  intro key' q hq
  rw [hslots] at hq
  obtain ⟨hne, hq⟩ := Dict.get?_erase_eq_some.mp hq
  have hqr : q ≠ r := by
    intro hqr
    rw [hqr] at hq
    exact hne (hwf.members.inj key key' r hr hq)
  rw [hslot, Function.update_of_ne hqr]
  exact h key' q hq

/-- A new slot has a consumer. -/
theorem Occupied.create {m m' : Manager} (h : m.Occupied) (hwf : m.WellFormed) {key : SlotKey}
    {s : Slot} (hs : s.consumers ≠ []) (hslots : m'.slots = m.slots.set key m.nextSlot)
    (hslot : m'.slot = Function.update m.slot m.nextSlot s) : m'.Occupied := by
  intro key' q hq
  rw [hslots, Dict.get?_set] at hq
  split at hq
  · injection hq with hq
    rw [← hq, hslot, Function.update_self]
    exact hs
  · have hne : q ≠ m.nextSlot := Nat.ne_of_lt (hwf.members.exist key' q hq)
    rw [hslot, Function.update_of_ne hne]
    exact h key' q hq

/-- **No step leaves a slot behind without a consumer.** -/
theorem Occupied.step {m m' : Manager} (h : m.Occupied) (hwf : m.WellFormed) {e : Bool × Op}
    (hs : m.step e = some m') : m'.Occupied := by
  obtain ⟨connected, op⟩ := e
  cases effect_of_step hwf.locks hs with
  | @joined _ k key params r rest hk hr =>
      refine h.list (r := r) rfl rfl ?_
      intro hnil
      exact (List.append_eq_nil_iff.mp hnil).1
  | @left _ k key r rest hk hmem hne => exact h.list (r := r) rfl rfl fun hnil => absurd hnil hne
  | @ended _ k key r rest p hk hmem hnil hp =>
      exact h.end hwf (hwf.members.home k key r (hk.before rfl).2.1).1 rfl rfl
  | created hk hsub => exact h.create hwf (List.cons_ne_nil _ _) rfl rfl
  | createdUnhashable hk hsub => exact h.create hwf (List.cons_ne_nil _ _) rfl rfl
  | @renewed r rest newId hrc hid => exact h.list (r := r) rfl rfl id
  | @renewedUnhashable r rest newId hrc hid => exact h.list (r := r) rfl rfl id
  | _ => exact h

end Manager

end ExecRestApi
