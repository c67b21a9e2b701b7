/-
Everybody who asks for the manager's lock gets it.

Two things could go wrong: nobody is left who could give the lock back, or others are
served again and again.  The first does not happen since who holds the lock awaits an
answer, and any answer ends its part of the work or brings it one slot further.  For the
second there is a potential, `turnsBefore`, which counts the steps under the lock before
it is the turn of a task.  What comes in later lines up behind and does not add to it, and
every step under the lock lowers it.

Neither is assumed of the upstream.  A request may be answered in any way and at any time; what
is shown is that each answer under the lock is a step towards the turn of whoever waits, and
that as long as somebody waits there is a step under the lock to take.
-/
import ExecRestApi.Lib.Simulation
import ExecRestApi.Proofs.GapVisible

namespace ExecRestApi

open Py Transition

namespace Manager

/-- The steps of the task that holds the lock, or gets it. -/
def underLock (m : Manager) : Bool × Op → Bool
  | (_, .grant) => true
  | (_, .answer t _) => decide (m.lock = some t)
  | _ => false

/-- What the holder of the lock has still to do: a consumer may leave a slot more behind. -/
def lockWork (m : Manager) : Nat :=
  match m.lock, m.reconnecting with
  | some (.consumer _), _ => 2
  | some .reconnect, .resubscribing _ rest => rest.length + 1
  | _, _ => 0

/-- What a task that waits will have to do, with `n` slots. -/
def workOf (n : Nat) : Task → Nat
  | .consumer _ => 3
  | .reconnect => n + 1

/-- What those who wait before `t` will have to do. -/
def workAhead (t : Task) (n : Nat) : List Task → Nat
  | [] => 0
  | u :: us => if u = t then 0 else workOf n u + workAhead t n us

/-- How many steps under the lock there can be until `t` has had its turn. -/
def turnsBefore (m : Manager) (t : Task) : Nat :=
  if t ∈ m.waiters then m.lockWork + workAhead t m.slots.values.length m.waiters + 1 else 0

/-! ### The work ahead

Each task in the queue has its part of the work: that of a consumer is bounded by a constant,
and that of `on_reconnect` has a turn for every slot there is.  What is ahead of a task is the
sum.
-/

section

variable {t : Task} {n n' : Nat} {ws : List Task}

theorem workAhead_cons {u : Task} (h : u ≠ t) (n : Nat) (us : List Task) :
    workAhead t n (u :: us) = workOf n u + workAhead t n us := by
  rw [workAhead, if_neg h]

theorem workAhead_append (ht : t ∈ ws) (us : List Task) :
    workAhead t n (ws ++ us) = workAhead t n ws := by
  induction ws with
  | nil => cases ht
  | cons w ws ih =>
      by_cases hw : w = t
      · rw [List.cons_append, workAhead, workAhead, if_pos hw, if_pos hw]
      · rw [List.cons_append, workAhead_cons hw, workAhead_cons hw]
        rcases List.mem_cons.mp ht with h | h
        · exact absurd h.symm hw
        · rw [ih h]

theorem workOf_mono (h : n ≤ n') (u : Task) : workOf n u ≤ workOf n' u := by
  cases u with
  | consumer k => exact Nat.le_refl _
  | reconnect => exact Nat.succ_le_succ h

theorem workAhead_mono (h : n ≤ n') : workAhead t n ws ≤ workAhead t n' ws := by
  induction ws with
  | nil => exact Nat.le_refl _
  | cons w ws ih =>
      by_cases hw : w = t
      · rw [workAhead, workAhead, if_pos hw, if_pos hw]
      · rw [workAhead_cons hw, workAhead_cons hw]
        exact Nat.add_le_add (workOf_mono h w) ih

/-- Without `on_reconnect` the slots do not matter. -/
theorem workAhead_of_not_mem (h : Task.reconnect ∉ ws) : workAhead t n ws = workAhead t n' ws := by
  induction ws with
  | nil => rfl
  | cons w ws ih =>
      rw [List.mem_cons, not_or] at h
      rw [workAhead, workAhead, ih h.2]
      cases w with
      | consumer k => rfl
      | reconnect => exact absurd rfl h.1

/-- `on_reconnect` waits once, so that a slot more is at most one step more. -/
theorem workAhead_add (h : ws.Nodup) (d : Nat) :
    workAhead t (n + d) ws ≤ workAhead t n ws + d := by
  induction ws with
  | nil => exact Nat.zero_le _
  | cons w ws ih =>
      obtain ⟨hw, hnd⟩ := List.nodup_cons.mp h
      by_cases hwt : w = t
      · rw [workAhead, if_pos hwt]
        exact Nat.zero_le _
      · rw [workAhead_cons hwt, workAhead_cons hwt]
        cases w with
        | consumer k =>
            have := ih hnd
            rw [workOf, workOf]
            omega
        | reconnect =>
            have hahead : workAhead t (n + d) ws = workAhead t n ws := workAhead_of_not_mem hw
            rw [hahead, workOf, workOf]
            omega

theorem workAhead_le (h : ws.Nodup) : workAhead t n ws ≤ 3 * ws.length + n := by
  have hzero : ∀ us : List Task, workAhead t 0 us ≤ 3 * us.length := by
    intro us
    induction us with
    | nil => exact Nat.le_refl _
    | cons u us ih =>
        rw [workAhead, List.length_cons]
        split
        · exact Nat.zero_le _
        · have hu : workOf 0 u ≤ 3 := by cases u <;> simp [workOf]
          omega
  have hadd := workAhead_add (t := t) (n := 0) h n
  have := hzero ws
  rw [Nat.zero_add] at hadd
  omega

end

/-! ### The work of the holder

The holder of the lock has the rest of its part to do.  A loop over slots has one turn for each
that is left; a consumer has the answer to come, and may leave a slot more behind.
-/

theorem lockWork_free {m : Manager} (h : m.lock = none) : m.lockWork = 0 := by
  rw [lockWork, h]

theorem lockWork_consumer {m : Manager} {k : Nat} (h : m.lock = some (.consumer k)) :
    m.lockWork = 2 := by
  rw [lockWork, h]

theorem lockWork_resubscribing {m : Manager} {r : SlotRef} {rest : List SlotRef}
    (h : m.lock = some .reconnect) (hrc : m.reconnecting = .resubscribing r rest) :
    m.lockWork = rest.length + 1 := by
  rw [lockWork, h, hrc]

/-- `on_reconnect` begins to wait. -/
theorem lockWork_acquiring {m m' : Manager} (hlock : m'.lock = m.lock)
    (hrc : m'.reconnecting = .acquiring) : m'.lockWork ≤ m.lockWork := by
  rw [lockWork, hlock, hrc, lockWork]
  rcases m.lock with _ | ⟨k⟩ | _
  · exact Nat.zero_le _
  · exact Nat.le_refl _
  · exact Nat.zero_le _

/-- What is left once the loop over the slots `rs` stops. -/
theorem lockWork_after_loop {m : Manager} (connected : Bool) {rs : List SlotRef}
    (hlock : m.lock = heldBy connected rs) (hrc : m.reconnecting = stopsAt connected rs) :
    m.lockWork ≤ rs.length := by
  cases connected with
  | false =>
      rw [lockWork_free hlock]
      exact Nat.zero_le _
  | true =>
      cases rs with
      | nil =>
          rw [lockWork_free hlock]
          exact Nat.zero_le _
      | cons r rest =>
          rw [lockWork_resubscribing hlock hrc]
          exact Nat.le_refl _

/-- The lock is held by a task that has at most the work of a loop over all slots. -/
theorem lockWork_le {m : Manager} (hm : m.WellFormed) : m.lockWork ≤ m.slots.values.length + 2 := by
  rw [lockWork]
  split
  · omega
  · rename_i r rest _ hrc
    obtain ⟨before, hvalues⟩ := hm.progress.resubscribing r rest hrc
    have := congrArg List.length hvalues
    rw [List.length_append, List.length_cons] at this
    omega
  · exact Nat.zero_le _

/-! ### A step

A step that is not under the lock leaves the potential of a waiting task as it is: a new task
goes to the end.  One under the lock lowers it by one at least, even where a slot is added: the
consumer that adds it had two steps to its name.
-/

section

variable {m m' : Manager} {t : Task}

theorem turnsBefore_of_mem (h : t ∈ m.waiters) :
    m.turnsBefore t = m.lockWork + workAhead t m.slots.values.length m.waiters + 1 := if_pos h

/-- The first waiter does its part under the lock. -/
theorem turnsBefore_of_turn {u : Task} {rest : List Task} (hnd : m.waiters.Nodup)
    (hfree : m.lock = none) (hw : m.waiters = u :: rest) (hw' : m'.waiters = rest)
    (hslots : m'.slots.values.length ≤ m.slots.values.length)
    (hwork : m'.lockWork + 1 ≤ workOf m.slots.values.length u) (ht : t ∈ m.waiters) :
    m'.turnsBefore t + 1 ≤ m.turnsBefore t := by
  rw [turnsBefore_of_mem ht, lockWork_free hfree]
  rw [hw] at hnd ht ⊢
  by_cases hut : u = t
  · have hgone : t ∉ m'.waiters := by
      rw [hw', ← hut]
      exact (List.nodup_cons.mp hnd).1
    rw [turnsBefore, if_neg hgone]
    omega
  · have hstill : t ∈ m'.waiters := by
      rw [hw']
      rcases List.mem_cons.mp ht with h | h
      · exact absurd h.symm hut
      · exact h
    rw [turnsBefore_of_mem hstill, hw', workAhead_cons hut]
    have hmono : workAhead t _ rest ≤ workAhead t _ rest := workAhead_mono hslots
    omega

/-- A step that leaves `t` where it is in the queue, with `d` slots more at most. -/
theorem turnsBefore_of_stay {us : List Task} {c d : Nat} (hnd : m.waiters.Nodup)
    (hw : m'.waiters = m.waiters ++ us)
    (hslots : m'.slots.values.length ≤ m.slots.values.length + d)
    (hwork : m'.lockWork + d + c ≤ m.lockWork) (ht : t ∈ m.waiters) :
    m'.turnsBefore t + c ≤ m.turnsBefore t := by
  have hstill : t ∈ m'.waiters := by
    rw [hw]
    exact List.mem_append_left us ht
  rw [turnsBefore_of_mem ht, turnsBefore_of_mem hstill, hw, workAhead_append ht]
  have hmono : workAhead t _ m.waiters ≤ workAhead t _ m.waiters := workAhead_mono hslots
  have hadd := workAhead_add (t := t) (n := m.slots.values.length) hnd d
  omega

theorem length_values_erase_le (slots : Dict SlotKey SlotRef) (key : SlotKey) :
    (slots.erase key).values.length ≤ slots.values.length := by
  rw [Dict.values, Dict.values, List.length_map, List.length_map]
  exact List.length_filter_le ..

theorem length_values_set {slots : Dict SlotKey SlotRef} {key : SlotKey} (r : SlotRef)
    (h : slots.get? key = none) : (slots.set key r).values.length = slots.values.length + 1 := by
  rw [Dict.values_set r h, List.length_append, List.length_singleton]

/-- If somebody waits, it is the turn of the first of those who wait. -/
theorem AtLock.first {op : Op} {k : Nat} {rest : List Task} {p : Phase} (h : AtLock m op k rest p)
    (ht : t ∈ m.waiters) : m.lock = none ∧ m.waiters = .consumer k :: rest := by
  rcases h.2 with ⟨-, hw, -⟩ | ⟨hw, -, -⟩
  · exact ⟨h.1, hw⟩
  · rw [hw] at ht
    cases ht

theorem Approach.not_underLock {connected : Bool} {op : Op} {k : Nat} {p : Phase}
    (h : Approach m op k p) : m.underLock (connected, op) = false := by
  cases h <;> rfl

/-- **No step adds to what `t` has to wait for, and each step under the lock takes from it.** -/
theorem turnsBefore_step (hm : m.WellFormed) {e : Bool × Op} (hs : m.step e = some m')
    (ht : t ∈ m.waiters) :
    m'.turnsBefore t + (if m.underLock e then 1 else 0) ≤ m.turnsBefore t := by
  obtain ⟨connected, op⟩ := e
  have hnd := hm.locks.nodup
  -- a step outside the lock, after which new tasks may wait at the end
  have hstay : ∀ {us : List Task}, m.underLock (connected, op) = false →
      m'.waiters = m.waiters ++ us → m'.slots = m.slots → m'.lockWork ≤ m.lockWork →
      m'.turnsBefore t + (if m.underLock (connected, op) then 1 else 0) ≤ m.turnsBefore t := by
    intro us hunder hw hslots hwork
    rw [hunder]
    exact turnsBefore_of_stay (c := 0) (d := 0) hnd hw (by rw [hslots]; exact Nat.le_refl _)
      (by omega) ht
  have hcount : (if m.underLock (connected, op) then 1 else 0) ≤ 1 := by
    split <;> omega
  -- the holder of the lock has got an answer, and leaves `d` slots more behind
  have hanswer : ∀ d, m'.waiters = m.waiters →
      m'.slots.values.length ≤ m.slots.values.length + d → m'.lockWork + d + 1 ≤ m.lockWork →
      m'.turnsBefore t + (if m.underLock (connected, op) then 1 else 0) ≤ m.turnsBefore t := by
    intro d hw hslots hwork
    have hw : m'.waiters = m.waiters ++ [] := by rw [hw, List.append_nil]
    have := turnsBefore_of_stay hnd hw hslots hwork ht
    omega
  -- a call has had its turn and leaves no slot more behind
  have hturn : ∀ {k : Nat} {rest : List Task} {p : Phase}, AtLock m op k rest p →
      m'.waiters = rest → m'.slots.values.length ≤ m.slots.values.length → m'.lockWork ≤ 2 →
      m'.turnsBefore t + (if m.underLock (connected, op) then 1 else 0) ≤ m.turnsBefore t := by
    intro k rest p hat hw hslots hwork
    obtain ⟨hfree, hfirst⟩ := hat.first ht
    have := turnsBefore_of_turn hnd hfree hfirst hw hslots (by rw [workOf]; omega) ht
    omega
  have hnone : m'.lock = none → m'.lockWork ≤ 2 := by
    intro h
    rw [lockWork_free h]
    omega
  cases effect_of_step hm.locks hs with
  | closedAgain => exact hstay rfl (List.append_nil _).symm rfl (Nat.le_refl _)
  | ignored => exact hstay rfl (List.append_nil _).symm rfl (Nat.le_refl _)
  | refused hk => exact hstay rfl (List.append_nil _).symm rfl (Nat.le_refl _)
  | @unsubscribed k subId outcome hk =>
      have hfree : m.lock ≠ some (.consumer k) := by
        intro hlock
        have := (hm.locks.holding (.consumer k)).mpr hlock
        rw [status, hk] at this
        cases this
      exact hstay (decide_eq_false hfree) (List.append_nil _).symm rfl (Nat.le_refl _)
  | waiting hk => exact hstay hk.not_underLock rfl rfl (Nat.le_refl _)
  | joined hk hr => exact hturn hk rfl (Nat.le_refl _) (hnone rfl)
  | asked hk hr hc =>
      exact hturn hk rfl (Nat.le_refl _) (Nat.le_of_eq (lockWork_consumer rfl))
  | turnedAway hk => exact hturn hk rfl (Nat.le_refl _) (hnone rfl)
  | gone hk hmem => exact hturn hk rfl (Nat.le_refl _) (hnone rfl)
  | left hk hmem hne => exact hturn hk rfl (Nat.le_refl _) (hnone rfl)
  | ended hk hmem hnil hp => exact hturn hk rfl (length_values_erase_le _ _) (hnone rfl)
  | created hk hsub =>
      refine hanswer 1 rfl (Nat.le_of_eq ?_) ?_
      · exact length_values_set _ (hm.progress.subscribing _ _ _ hk)
      · rw [lockWork_free (by rfl), lockWork_consumer (hm.locks.subscribing hk)]
  | createdUnhashable hk hsub =>
      refine hanswer 1 rfl (Nat.le_of_eq ?_) ?_
      · exact length_values_set _ (hm.progress.subscribing _ _ _ hk)
      · rw [lockWork_free (by rfl), lockWork_consumer (hm.locks.subscribing hk)]
  | unanswered hk =>
      refine hanswer 0 rfl (Nat.le_refl _) ?_
      rw [lockWork_free (by rfl), lockWork_consumer (hm.locks.subscribing hk)]
      omega
  | reconnectWaiting hrc =>
      exact hstay rfl rfl rfl (lockWork_acquiring rfl rfl)
  | @reconnectStarted _ rest hat =>
      obtain ⟨hfree, hfirst⟩ : m.lock = none ∧ m.waiters = .reconnect :: rest := by
        rcases hat.2 with ⟨-, hw, -⟩ | ⟨-, hw, -, -⟩
        · exact ⟨hat.1, hw⟩
        · rw [hw] at ht
          cases ht
      refine Nat.le_trans (Nat.add_le_add_left hcount _)
        (turnsBefore_of_turn hnd hfree hfirst rfl (Nat.le_refl _) (Nat.succ_le_succ ?_) ht)
      exact lockWork_after_loop connected rfl rfl
  | notRenewed hrc =>
      refine hanswer 0 rfl (Nat.le_refl _) ?_
      rw [lockWork_resubscribing (hm.locks.resubscribing hrc) hrc]
      exact Nat.succ_le_succ (lockWork_after_loop _ rfl rfl)
  | renewed hrc hid =>
      refine hanswer 0 rfl (Nat.le_refl _) ?_
      rw [lockWork_resubscribing (hm.locks.resubscribing hrc) hrc]
      exact Nat.succ_le_succ (lockWork_after_loop _ rfl rfl)
  | renewedUnhashable hrc hid =>
      refine hanswer 0 rfl (Nat.le_refl _) ?_
      rw [lockWork_resubscribing (hm.locks.resubscribing hrc) hrc, lockWork_free (by rfl)]
      omega
  | dispatched hn hr => exact hstay rfl (List.append_nil _).symm rfl (Nat.le_refl _)
  | read hk hq => exact hstay rfl (List.append_nil _).symm rfl (Nat.le_refl _)

end

/-! ### Nobody waits forever

From the two follows a bound: no run has more steps under the lock than the potential before
the waiting task has its turn.
-/

/-- The steps under the lock along a run. -/
def stepsUnderLock (m : Manager) (ls : List (Bool × Op)) : List (Bool × Op) :=
  observed Manager.step (fun m e _ => if m.underLock e then [e] else []) m ls

/-- Who holds the lock awaits an answer, and whatever the answer is, it goes on. -/
theorem holder_goes_on {m : Manager} (hl : m.LockConsistent) {u : Task} (hu : m.lock = some u) :
    m.awaits u ≠ none ∧
      ∀ connected outcome, (m.step (connected, .answer u outcome)).isSome = true := by
  have hstatus := (hl.holding u).mpr hu
  cases u with
  | consumer k =>
      obtain ⟨key, params, hk⟩ : ∃ key params, m.phase k = .subscribing key params := by
        rw [status] at hstatus
        rcases hp : m.phase k <;> rw [hp] at hstatus <;> first | exact ⟨_, _, rfl⟩ | cases hstatus
      refine ⟨?_, ?_⟩
      · rw [awaits_subscribing hk]
        rintro ⟨⟩
      · intro connected outcome
        rw [Manager.step, answered, hk]
        rfl
  | reconnect =>
      obtain ⟨r, rest, hrc⟩ : ∃ r rest, m.reconnecting = .resubscribing r rest := by
        rw [status] at hstatus
        rcases hp : m.reconnecting <;> rw [hp] at hstatus <;>
          first | exact ⟨_, _, rfl⟩ | cases hstatus
      refine ⟨?_, ?_⟩
      · rw [awaits_resubscribing hrc]
        rintro ⟨⟩
      · intro connected outcome
        rw [Manager.step, answered, hrc]
        rfl

/-- **Whoever waits for the lock gets it**: as long as `t` waits a step under the lock can be
taken, and `t` waits through at most so many of them, whatever the other tasks do. -/
theorem lock_served {ls ls' : List (Bool × Op)} {m m' : Manager} {t : Task}
    (h : Run Manager.step unguarded init ls m)
    (h' : Run Manager.step (fun m _ => t ∈ m.waiters) m ls' m') :
    (m.stepsUnderLock ls').length ≤ 3 * m.waiters.length + 2 * m.slots.values.length + 3 ∧
      (t ∈ m'.waiters →
        (m'.lock = none → ∀ connected, (m'.step (connected, .grant)).isSome = true) ∧
          ∀ u, m'.lock = some u → m'.awaits u ≠ none ∧
            ∀ connected outcome, (m'.step (connected, .answer u outcome)).isSome = true) := by
  have hm := wellFormed_of_run h
  have hm' := h'.preserves (fun m e m' hm _ hs => WellFormed.step hm hs) hm
  refine ⟨?_, ?_⟩
  · have hbound : m'.turnsBefore t + (m.stepsUnderLock ls').length ≤ m.turnsBefore t :=
      h'.observed_le (I := WellFormed) (φ := fun m => m.turnsBefore t)
        (fun m e m' hm _ hs => hm.step hs)
        (by
          intro m e m' hm ht hs
          have hstep := turnsBefore_step hm hs ht
          rwa [apply_ite List.length]) hm
    have hstart : m.turnsBefore t ≤ 3 * m.waiters.length + 2 * m.slots.values.length + 3 := by
      rw [turnsBefore]
      split
      · have hwork := lockWork_le hm
        have hahead := workAhead_le (t := t) (n := m.slots.values.length) hm.locks.nodup
        omega
      · exact Nat.zero_le _
    omega
  · intro ht
    refine ⟨?_, fun u hu => holder_goes_on hm'.locks hu⟩
    intro hfree connected
    rcases hw : m'.waiters with _ | ⟨u, us⟩
    · rw [hw] at ht
      cases ht
    · rw [Manager.step, hfree, hw]
      rfl

private def queued : List (Bool × Op) :=
  [(true, .subscribe 0 .newHeads .null), (true, .subscribe 1 .newHeads .null), (true, .onReconnect),
    (true, .subscribe 2 .logs .null)]

private def served : List (Bool × Op) :=
  [(true, .answer (.consumer 0) (.ok (.str "0xa"))), (true, .subscribe 3 .logs .null), (true, .grant),
    (true, .grant), (true, .answer .reconnect (.error .timeoutError)), (true, .grant)]

theorem lock_served_once : ∃ m : Manager, m.waiters = [.consumer 1, .reconnect, .consumer 2]
    ∧ (m.stepsUnderLock served).length ≤ 12 := by
  have h : exec Manager.step init queued = some ((exec Manager.step init queued).getD init) := by
    rfl
  have h' : exec (guarded Manager.step fun m _ => Task.consumer 2 ∈ m.waiters)
      ((exec Manager.step init queued).getD init) served
      = some ((exec Manager.step init (queued ++ served)).getD init) := by
    rfl
  exact ⟨_, rfl, (lock_served (run_of_exec h) (run_of_exec_guarded h')).1⟩

end Manager

end ExecRestApi
