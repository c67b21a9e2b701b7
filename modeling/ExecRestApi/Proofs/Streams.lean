/-
A stream gives its subscription back.

The consumer stream is closed in the `finally` of the live loop, and only there.  A run
of `_run_stream` that reaches the loop calls `aclose`; one that is left before does not.
What leaves it before the loop is named by `Stream.Keeps`, step by step: preparing the
response, writing the retry line or the resumed frame raises, or the replay is cancelled.
What else a replay raises is caught.

The call of `aclose` is not yet the removal of the consumer.  `_remove_consumer` takes the
lock first, and on the way there its task can be cancelled once more; the stream is then
left with `_closed` set and its queue still on the list of its slot.  Whether that happens
is seen in the manager and not in the stream, so the result is about the two together:
`Consumer` ties `subscribe` and `aclose` of the stream to the calls of the manager, and
`Consumer.Keeps` adds to the condition that a cancelled `aclose` has the lock behind it.

The first part of the module is about the stream alone, which other modules use: a step
before the live loop goes on exactly if `Stream.Keeps` holds of it (`opening_step`), and a
step of the loop stays in it or is the end of `aclose` (`live_step`).  The second part
follows one consumer through the manager; the third puts the two side by side.
-/
import ExecRestApi.Model.Consumer
import ExecRestApi.Proofs.ManagerBus

namespace ExecRestApi

open Py Interaction Transition

namespace Stream

variable {s : Stream}

/-- The live loop has begun, and `_run_stream` has not been left. -/
def Live : At → Prop
  | .listening _ => True
  | .writing _ _ => True
  | .closing _ => True
  | _ => False

/-- The subscription has been made, and the live loop has not begun. -/
def Opening : At → Prop
  | .preparing => True
  | .retrying => True
  | .replaying _ _ => True
  | .resuming => True
  | _ => False

/-- Whether the end of an `await` before the live loop lets `_run_stream` go on. -/
def Keeps : At → Moment → Prop
  | .preparing, .returned _ r => r.isOk = true
  | .retrying, .returned _ r => r.isOk = true
  | .resuming, .returned _ r => r.isOk = true
  | .replaying _ _, .returned _ r => r ≠ .error .cancelled
  | _, _ => True

/-! ### One step of the stream

Case by case, what an `await` leads to.  The place a stream stands at is enough to say which of its
ways out are left. -/

/-- A step that ends an `await` ends the one the stream stands at. -/
theorem step_returned {a b : At} {op : StreamOp} {r : Except Raised Json}
    (h : s.step a (.returned op r) = some b) : s.awaiting a = some op ∧ b = s.resume a r := by
  rw [step] at h
  by_cases haw : s.awaiting a = some op
  · rw [if_pos haw] at h
    injection h with h
    exact ⟨haw, h.symm⟩
  · rw [if_neg haw] at h
    cases h

/-- What is awaited can end. -/
theorem step_of_awaiting {a : At} {op : StreamOp} {r : Except Raised Json}
    (h : s.awaiting a = some op) : s.step a (.returned op r) = some (s.resume a r) :=
  if_pos h

/-- A turn of the live loop is taken by the loop. -/
theorem step_woke {a b : At} {w : Wake} {full : Bool} (h : s.step a (.woke w full) = some b) :
    ∃ finished, a = .listening finished ∧ b = s.wake finished full w := by
  cases a with
  | listening finished =>
      injection h with h
      exact ⟨finished, rfl, h.symm⟩
  | subscribing => cases h
  | preparing => cases h
  | retrying => cases h
  | replaying op k => cases h
  | resuming => cases h
  | writing finished frame => cases h
  | closing out => cases h
  | left out => cases h

/-- Nothing happens once it is left. -/
theorem step_left {out : Left} {m : Moment} : s.step (.left out) m = none := by
  cases m with
  | returned op r => rfl
  | woke w full => rfl

theorem live_failed (r : Raised) : Live (failed r) := by
  unfold failed
  split
  · trivial
  · trivial

theorem live_deliver (finished full : Bool) (frame : SseFrame) : Live (deliver finished full frame) := by
  cases full with
  | true => trivial
  | false => trivial

theorem live_wake (finished full : Bool) (w : Wake) : Live (s.wake finished full w) := by
  cases w with
  | timeout now => exact live_deliver _ _ _
  | ended => trivial
  | raised r => exact live_failed r
  | item ev =>
      show Live (if finished then .closing .returned else s.turn full ev)
      cases finished with
      | true => trivial
      | false =>
          cases ev with
          | gap => exact live_deliver _ _ _
          | event payload =>
              show Live (s.turn full (.event payload))
              unfold turn
              split
              · cases ‹StreamEvent.event payload = .gap›
              · rename_i heq
                cases heq
                split
                · exact live_deliver _ _ _
                · split
                  · exact live_deliver _ _ _
                  · exact live_failed _

/-- Where a replay goes on is still before the loop, or at its start. -/
theorem opening_or_live_enter (p : Replay Unit) : Opening (enter p) ∨ Live (enter p) := by
  cases p with
  | pure a => exact .inr trivial
  | throw e => exact .inr trivial
  | ask op k => exact .inl trivial

theorem opening_or_live_opened : Opening s.opened ∨ Live s.opened := by
  unfold opened
  split
  · exact .inr trivial
  · split
    · exact opening_or_live_enter _
    · exact .inl trivial

/-- **A step of the live loop stays in it, or is the end of `aclose`.** -/
theorem live_step {a b : At} {m : Moment} (ha : Live a) (h : s.step a m = some b) :
    Live b ∨ ∃ r, m = .returned .aclose r ∧ ∃ out, b = .left out := by
  cases m with
  | woke w full =>
      obtain ⟨finished, -, rfl⟩ := step_woke h
      exact .inl (live_wake _ _ _)
  | returned op r =>
      obtain ⟨haw, rfl⟩ := step_returned h
      cases a with
      | listening finished => cases haw
      | writing finished frame =>
          cases r with
          | ok v => exact .inl trivial
          | error e => exact .inl (live_failed e)
      | closing out =>
          injection haw with haw
          subst haw
          cases r with
          | ok v => exact .inr ⟨_, rfl, _, rfl⟩
          | error e => exact .inr ⟨_, rfl, _, rfl⟩
      | subscribing => exact absurd ha id
      | preparing => exact absurd ha id
      | retrying => exact absurd ha id
      | replaying op k => exact absurd ha id
      | resuming => exact absurd ha id
      | left out => exact absurd ha id

/-- **A step before the live loop goes on exactly if `Keeps` holds of it.** -/
theorem opening_step {a b : At} {m : Moment} (ha : Opening a) (h : s.step a m = some b) :
    (∀ r, m ≠ .returned .aclose r) ∧
      (Keeps a m ∧ (Opening b ∨ Live b) ∨ ¬ Keeps a m ∧ ∃ out, b = .left out) := by
  cases m with
  | woke w full =>
      obtain ⟨finished, rfl, -⟩ := step_woke h
      exact absurd ha id
  | returned op r =>
      obtain ⟨haw, rfl⟩ := step_returned h
      have hop : op ≠ .aclose := by
        intro heq
        rw [heq] at haw
        cases a <;> first | exact absurd ha id | cases haw
      refine ⟨fun r' heq => hop (by cases heq; rfl), ?_⟩
      cases a with
      | preparing =>
          cases r with
          | ok v => exact .inl ⟨rfl, .inl trivial⟩
          | error e => exact .inr ⟨nofun, _, rfl⟩
      | retrying =>
          cases r with
          | ok v => exact .inl ⟨rfl, opening_or_live_opened⟩
          | error e => exact .inr ⟨nofun, _, rfl⟩
      | resuming =>
          cases r with
          | ok v => exact .inl ⟨rfl, .inr trivial⟩
          | error e => exact .inr ⟨nofun, _, rfl⟩
      | replaying op' k =>
          cases r with
          | ok v => exact .inl ⟨nofun, opening_or_live_enter _⟩
          | error e =>
              cases e with
              | exception e => exact .inl ⟨nofun, opening_or_live_enter _⟩
              | cancelled => exact .inr ⟨fun hk => hk rfl, _, rfl⟩
      | subscribing => exact absurd ha id
      | listening finished => exact absurd ha id
      | writing finished frame => exact absurd ha id
      | closing out => exact absurd ha id
      | left out => exact absurd ha id

theorem keeps_of_live {a : At} {m : Moment} (ha : Live a) : Keeps a m := by
  cases a <;> first | exact absurd ha id | trivial

/-- A run from where `_run_stream` has been left is empty. -/
theorem run_left {ok : At → Moment → Prop} {out : Left} {ms : List Moment} {a : At}
    (h : Run s.step ok (.left out) ms a) : ms = [] := by
  cases h with
  | nil => rfl
  | cons hs _ _ =>
      rw [step_left] at hs
      cases hs

end Stream

/-! ### One consumer in the manager

From the call of `aclose` on, a consumer only ever moves away from its slot: it awaits the lock,
then the answer to `eth_unsubscribe`, and is then closed. -/

namespace Manager

/-- `aclose` has been called. -/
def leaving : Phase → Bool
  | .removing _ _ => true
  | .unsubscribing _ => true
  | .closed => true
  | _ => false

theorem leaving_iff_stage {p : Phase} : leaving p = true ↔ 4 ≤ stage p := by
  cases p <;> simp [leaving, stage]

/-- What is being closed is not opened again. -/
theorem leaving_keep {connected : Bool} {m m' : Manager} {op : Op} {k : Nat}
    (h : Effect connected m op m') (hk : leaving (m.phase k) = true) :
    leaving (m'.phase k) = true :=
  leaving_iff_stage.mpr ((leaving_iff_stage.mp hk).trans (stage_le_of_effect h k))

theorem leaving_lockedRemove (connected : Bool) (m : Manager) (k : Nat) (key : SlotKey)
    (r : SlotRef) : leaving ((m.lockedRemove connected k key r).phase k) = true := by
  unfold lockedRemove
  simp only
  split_ifs
  all_goals simp only [release, setPhase_phase, Function.update_self, leaving]

/-- The call of `aclose` on an open stream. -/
theorem leaving_of_aclose {connected : Bool} {m m' : Manager} {k : Nat} {key : SlotKey}
    {r : SlotRef} (hk : m.phase k = .streaming key r)
    (h : m.step (connected, .aclose k) = some m') : leaving (m'.phase k) = true := by
  simp only [step, hk, Option.some.injEq] at h
  rw [← h, acquire]
  split_ifs
  · simp only [locked, setPhase_phase, Function.update_self]
    exact leaving_lockedRemove _ _ _ _ _
  · simp only [setPhase_phase, Function.update_self, leaving]

end Manager

/-! ### The two together

`Consumer.Stands` is what the run keeps: while the stream is open the manager has it as open, and
once it has called `aclose` the manager has it as leaving.  What is left of the consumer when the
stream is left is then read off the phase the manager has it in. -/

namespace Consumer

variable {s : Stream} {k : Nat} {x y : Consumer}

/-- What the manager has of the stream, by where the stream stands. -/
def Held (m : Manager) (k : Nat) : At → Prop
  | .subscribing => True
  | .left _ => True
  | .closing _ => Manager.leaving (m.phase k) = true
  | _ => ∃ key r, m.phase k = .streaming key r

/-- The manager is in order, and has of the stream what it should. -/
structure Stands (k : Nat) (x : Consumer) : Prop where
  wellFormed : x.mgr.WellFormed
  occupied : x.mgr.Occupied
  held : Held x.mgr k x.at_

/-- The subscription has been given back: `aclose` has been called, the queue is in no slot, and
there is no slot without a consumer. -/
structure GivenBack (k : Nat) (m : Manager) : Prop where
  called : ∀ key r, m.phase k ≠ .streaming key r
  removed : ∀ r, k ∉ (m.slot r).consumers
  released : ∀ key r, m.slots.get? key = some r → (m.slot r).consumers ≠ []

/-- Whether a step keeps the stream on its way to give the subscription back. -/
def Keeps (k : Nat) (x : Consumer) : Op → Prop
  | .moment _ mo =>
      Stream.Keeps x.at_ mo ∧
        -- a cancelled `aclose` has got past the lock
        (mo = .returned .aclose (.error .cancelled) → ∀ key r, x.mgr.phase k ≠ .removing key r)
  | _ => True

/-- The call of `subscribe` has succeeded. -/
def Subscribed (s : Stream) (ops : List Op) : Prop :=
  ∃ c v, Op.moment c (.returned (.subscribe s.kind s.params) (.ok v)) ∈ ops

@[simp] theorem after_phase (m : Manager) (k : Nat) (mo : Moment) : (after m k mo).phase = m.phase := by
  unfold after
  split <;> rfl

@[simp] theorem after_slot (m : Manager) (k : Nat) (mo : Moment) : (after m k mo).slot = m.slot := by
  unfold after
  split <;> rfl

@[simp] theorem after_slots (m : Manager) (k : Nat) (mo : Moment) : (after m k mo).slots = m.slots := by
  unfold after
  split <;> rfl

theorem after_of_ne {mo : Moment} (h : ∀ r, mo ≠ .returned .aclose r) (m : Manager) :
    after m k mo = m := by
  unfold after
  split
  · exact absurd rfl (h _)
  · rfl

/-- A step of the manager that is not the stream's own. -/
theorem step_manage {c : Bool} {op : Manager.Op} (h : step s k x (.manage c op) = some y) :
    isOwn k op = false ∧ (∀ out, x.at_ ≠ .left out) ∧
      x.mgr.step (c, op) = some y.mgr ∧ y.at_ = x.at_ := by
  rw [step] at h
  split at h
  · cases h
  · rename_i hne
    split_ifs at h with hown
    obtain ⟨m, hm, rfl⟩ := Option.map_eq_some_iff.mp h
    exact ⟨by simpa using hown, hne, hm, rfl⟩

/-- An `await` of the stream ends as the manager lets it. -/
theorem step_moment {c : Bool} {mo : Moment} (h : step s k x (.moment c mo) = some y) :
    mayEnd x.mgr k mo = true ∧ s.step x.at_ mo = some y.at_ ∧
      ((∃ out, y.at_ = .closing out) ∧ x.mgr.step (c, .aclose k) = some y.mgr
        ∨ (∀ out, y.at_ ≠ .closing out) ∧ y.mgr = after x.mgr k mo) := by
  rw [step] at h
  split_ifs at h with hend
  refine ⟨hend, ?_⟩
  split at h
  · cases h
  · rename_i out hs
    obtain ⟨m, hm, rfl⟩ := Option.map_eq_some_iff.mp h
    exact ⟨hs, .inl ⟨⟨out, rfl⟩, hm⟩⟩
  · rename_i a hne hs
    cases h
    exact ⟨hs, .inr ⟨hne, rfl⟩⟩

/-- The other callers leave the stream where it is. -/
theorem Stands.manage {c : Bool} {op : Manager.Op} (hx : Stands k x)
    (h : step s k x (.manage c op) = some y) : Stands k y := by
  obtain ⟨hown, -, hm, hat⟩ := step_manage h
  refine ⟨hx.wellFormed.step hm, hx.occupied.step hx.wellFormed hm, ?_⟩
  have heff := Manager.effect_of_step hx.wellFormed.locks hm
  have hop : op ≠ .aclose k := by
    rintro rfl
    simp [isOwn] at hown
  have hstreaming : (∃ key r, x.mgr.phase k = .streaming key r) →
      ∃ key r, y.mgr.phase k = .streaming key r := fun ⟨key, r, hk⟩ =>
    ⟨key, r, Manager.streaming_keep heff hop hk⟩
  have hheld := hx.held
  rw [hat]
  cases hplace : x.at_ with
  | subscribing => trivial
  | left out => trivial
  | closing out =>
      rw [hplace] at hheld
      exact Manager.leaving_keep heff hheld
  | preparing => rw [hplace] at hheld; exact hstreaming hheld
  | retrying => rw [hplace] at hheld; exact hstreaming hheld
  | replaying op' k' => rw [hplace] at hheld; exact hstreaming hheld
  | resuming => rw [hplace] at hheld; exact hstreaming hheld
  | listening finished => rw [hplace] at hheld; exact hstreaming hheld
  | writing finished frame => rw [hplace] at hheld; exact hstreaming hheld

/-- A consumer in its slot has not been given back. -/
theorem not_givenBack_of_home {m : Manager} (hm : m.WellFormed) {key : SlotKey} {r : SlotRef}
    (hk : Manager.homeOf (m.phase k) = some (key, r)) : ¬ GivenBack k m := fun h =>
  h.removed r (hm.members.home k key r hk).2

/-- One that is past the lock has. -/
theorem givenBack_of_past {m : Manager} (hm : m.WellFormed) (hocc : m.Occupied)
    (hk : Manager.leaving (m.phase k) = true) (hpast : ∀ key r, m.phase k ≠ .removing key r) :
    GivenBack k m := by
  refine ⟨fun key r hstream => ?_, hm.members.not_mem ?_ fun e he => ?_, hocc⟩
  · rw [hstream] at hk
    cases hk
  · cases hp : m.phase k with
    | removing key r => exact absurd hp (hpast key r)
    | streaming key r =>
        rw [hp] at hk
        cases hk
    | _ => rfl
  · rw [he] at hk
    cases hk

theorem givenBack_congr {m m' : Manager} (hphase : m'.phase = m.phase) (hslot : m'.slot = m.slot)
    (hslots : m'.slots = m.slots) : GivenBack k m' ↔ GivenBack k m := by
  constructor
  · intro ⟨hcalled, hremoved, hreleased⟩
    rw [hphase] at hcalled
    rw [hslot] at hremoved hreleased
    rw [hslots] at hreleased
    exact ⟨hcalled, hremoved, hreleased⟩
  · intro ⟨hcalled, hremoved, hreleased⟩
    rw [← hphase] at hcalled
    rw [← hslot] at hremoved hreleased
    rw [← hslots] at hreleased
    exact ⟨hcalled, hremoved, hreleased⟩

/-- What a stream that goes on is held as. -/
theorem Stands.go {c : Bool} {mo : Moment} (hx : Stands k x)
    (hopen : ∃ key r, x.mgr.phase k = .streaming key r) (hmo : ∀ r, mo ≠ .returned .aclose r)
    (h : step s k x (.moment c mo) = some y) : Stands k y := by
  obtain ⟨key, r, hk⟩ := hopen
  obtain ⟨-, -, ⟨⟨out, hat⟩, hm⟩ | ⟨hne, hm⟩⟩ := step_moment h
  · refine ⟨hx.wellFormed.step hm, hx.occupied.step hx.wellFormed hm, ?_⟩
    rw [hat]
    exact Manager.leaving_of_aclose hk hm
  · rw [after_of_ne hmo] at hm
    refine ⟨by rw [hm]; exact hx.wellFormed, by rw [hm]; exact hx.occupied, ?_⟩
    rw [hm]
    cases hplace : y.at_ with
    | subscribing => trivial
    | left out => trivial
    | closing out => exact absurd hplace (hne out)
    | _ => exact ⟨key, r, hk⟩

/-- While the stream is open, the manager has it as open. -/
theorem Stands.streaming (hx : Stands k x) (hat : Stream.Opening x.at_ ∨ Stream.Live x.at_)
    (hne : ∀ out, x.at_ ≠ .closing out) : ∃ key r, x.mgr.phase k = .streaming key r := by
  have hheld := hx.held
  cases hplace : x.at_ with
  | subscribing => rw [hplace] at hat; rcases hat with h | h <;> exact absurd h id
  | left out => rw [hplace] at hat; rcases hat with h | h <;> exact absurd h id
  | closing out => exact absurd hplace (hne out)
  | preparing => rw [hplace] at hheld; exact hheld
  | retrying => rw [hplace] at hheld; exact hheld
  | replaying op' k' => rw [hplace] at hheld; exact hheld
  | resuming => rw [hplace] at hheld; exact hheld
  | listening finished => rw [hplace] at hheld; exact hheld
  | writing finished frame => rw [hplace] at hheld; exact hheld

/-- **The end of `aclose`.**  The subscription has been given back unless the call was cancelled on
its way to the lock. -/
theorem givenBack_of_closing {c : Bool} {r : Except Raised Json} (hx : Stands k x) {out : Left}
    (hat : x.at_ = .closing out) (h : step s k x (.moment c (.returned .aclose r)) = some y) :
    GivenBack k y.mgr ↔ Keeps k x (.moment c (.returned .aclose r)) := by
  obtain ⟨hend, hs, hmgr⟩ := step_moment h
  have hheld : Manager.leaving (x.mgr.phase k) = true := by
    have := hx.held
    rwa [hat] at this
  have hleft : ∀ out', y.at_ ≠ .closing out' := by
    obtain ⟨-, hb⟩ := Stream.step_returned hs
    rw [hb, hat]
    cases r <;> nofun
  have hy : GivenBack k y.mgr ↔ GivenBack k x.mgr := by
    rcases hmgr with ⟨⟨out', hout⟩, -⟩ | ⟨-, hm⟩
    · exact absurd hout (hleft out')
    · rw [hm]
      exact givenBack_congr (after_phase _ _ _) (after_slot _ _ _) (after_slots _ _ _)
  have hkeeps : Stream.Keeps x.at_ (.returned .aclose r) := by
    rw [hat]
    trivial
  rw [hy]
  by_cases hremoving : ∃ key q, x.mgr.phase k = .removing key q
  · -- it still awaits the lock, so it cannot have ended but by being cancelled
    obtain ⟨key, q, hk⟩ := hremoving
    have hcancelled : r = .error .cancelled := by
      have hnot : ¬ x.mgr.phase k = .closed := by
        rw [hk]
        nofun
      match r, hend with
      | .error .cancelled, _ => rfl
      | .error (.exception e), hend => exact absurd (of_decide_eq_true hend) hnot
      | .ok v, hend => exact absurd (of_decide_eq_true hend) hnot
    subst hcancelled
    constructor
    · intro hback
      exact absurd hback (not_givenBack_of_home hx.wellFormed (by rw [hk]; rfl))
    · intro hk'
      exact absurd hk (hk'.2 rfl key q)
  · have hpast : ∀ key q, x.mgr.phase k ≠ .removing key q := fun key q hk =>
      hremoving ⟨key, q, hk⟩
    exact ⟨fun _ => ⟨hkeeps, fun _ => hpast⟩,
      fun _ => givenBack_of_past hx.wellFormed hx.occupied hheld hpast⟩

/-- **One step of an open stream.**  It goes on, and then the step meets the condition; or it is
left, and then the subscription has been given back exactly if the step meets the condition. -/
theorem goes_on_or_left {op : Op} (hx : Stands k x)
    (hat : Stream.Opening x.at_ ∨ Stream.Live x.at_) (h : step s k x op = some y) :
    Keeps k x op ∧ Stands k y ∧ (Stream.Opening y.at_ ∨ Stream.Live y.at_)
      ∨ (∃ out, y.at_ = .left out) ∧ (GivenBack k y.mgr ↔ Keeps k x op) := by
  cases op with
  | manage c op' =>
      refine .inl ⟨trivial, hx.manage h, ?_⟩
      rwa [(step_manage h).2.2.2]
  | call c =>
      rw [step] at h
      split at h
      · rename_i hplace
        rw [hplace] at hat
        rcases hat with h | h <;> exact absurd h id
      · cases h
  | moment c mo =>
      obtain ⟨hend, hs, hmgr⟩ := step_moment h
      by_cases hclosing : ∃ out, x.at_ = .closing out
      · -- what ends here can only be `aclose`
        obtain ⟨out, hplace⟩ := hclosing
        have hlive : Stream.Live x.at_ := by
          rw [hplace]
          trivial
        cases mo with
        | woke w full =>
            rw [hplace] at hs
            cases hs
        | returned op' r =>
            obtain ⟨haw, hb⟩ := Stream.step_returned hs
            rw [hplace] at haw hb
            injection haw with haw
            subst haw
            refine .inr ⟨?_, givenBack_of_closing hx hplace h⟩
            rw [hb]
            cases r <;> exact ⟨_, rfl⟩
      · have hne : ∀ out, x.at_ ≠ .closing out := fun out hplace => hclosing ⟨out, hplace⟩
        have hopen := hx.streaming hat hne
        rcases hat with hat | hat
        · obtain ⟨hmo, ⟨hk, hb⟩ | ⟨hk, out, hleft⟩⟩ := Stream.opening_step hat hs
          · exact .inl ⟨⟨hk, fun heq => absurd heq (hmo _)⟩, hx.go hopen hmo h, hb⟩
          · refine .inr ⟨⟨out, hleft⟩, ?_⟩
            obtain ⟨key, r, hphase⟩ := hopen
            rcases hmgr with ⟨⟨out', hout⟩, -⟩ | ⟨-, hm⟩
            · rw [hleft] at hout
              cases hout
            · rw [hm, after_of_ne hmo]
              exact ⟨fun hback => absurd hphase (hback.called key r), fun hkeeps =>
                absurd hkeeps.1 hk⟩
        · have hmo : ∀ r, mo ≠ .returned .aclose r := by
            rintro r rfl
            obtain ⟨haw, -⟩ := Stream.step_returned hs
            cases hplace : x.at_ with
            | closing out => exact hne out hplace
            | _ => rw [hplace] at haw; cases haw
          rcases Stream.live_step hat hs with hb | ⟨r, heq, -⟩
          · exact .inl ⟨⟨Stream.keeps_of_live hat, fun heq => absurd heq (hmo _)⟩,
              hx.go hopen hmo h, .inr hb⟩
          · exact absurd heq (hmo r)

/-! ### Runs -/

theorem run_left {ok : Consumer → Op → Prop} {ops : List Op} {out : Left}
    (h : Run (step s k) ok x ops y) (hx : x.at_ = .left out) : ops = [] := by
  cases h with
  | nil => rfl
  | @cons _ b _ op rest hs _ _ =>
      cases op with
      | manage c op' => exact absurd hx ((step_manage hs).2.1 out)
      | call c =>
          rw [step, hx] at hs
          cases hs
      | moment c mo =>
          obtain ⟨-, hstep, -⟩ := step_moment hs
          rw [hx, Stream.step_left] at hstep
          cases hstep

/-- From an open stream to where it is left. -/
theorem givenBack_iff_of_open {ops : List Op} {out : Left}
    (h : Run (step s k) unguarded x ops y) (hy : y.at_ = .left out) :
    Stands k x → Stream.Opening x.at_ ∨ Stream.Live x.at_ →
      (GivenBack k y.mgr ↔ Run (step s k) (Keeps k) x ops y) := by
  induction h with
  | nil x =>
      intro _ hat
      rw [hy] at hat
      rcases hat with h | h <;> exact absurd h id
  | @cons x b y op rest hs _ hrest ih =>
      intro hx hat
      rcases goes_on_or_left hx hat hs with ⟨hk, hb, hbat⟩ | ⟨⟨out', hleft⟩, hiff⟩
      · rw [ih hy hb hbat]
        constructor
        · exact fun hrun => .cons hs hk hrun
        · intro hrun
          cases hrun with
          | cons hs' _ hrest' =>
              rw [hs] at hs'
              cases hs'
              exact hrest'
      · -- the run ends here
        obtain rfl := run_left hrest hleft
        cases hrest
        rw [hiff]
        constructor
        · exact fun hk => .cons hs hk (.nil _)
        · intro hrun
          cases hrun with
          | cons _ hk _ => exact hk

/-- From the start to where the stream is left. -/
theorem givenBack_iff_of_subscribing {ops : List Op} {out : Left}
    (h : Run (step s k) unguarded x ops y) (hy : y.at_ = .left out) :
    Stands k x → x.at_ = .subscribing → Subscribed s ops →
      (GivenBack k y.mgr ↔ Run (step s k) (Keeps k) x ops y) := by
  induction h with
  | nil x =>
      intro _ hat _
      rw [hy] at hat
      cases hat
  | @cons x b y op rest hs _ hrest ih =>
      intro hx hat hsub
      -- whatever the step is, it meets the condition
      have hcons : Keeps k x op → (GivenBack k y.mgr ↔ Run (step s k) (Keeps k) b rest y) →
          (GivenBack k y.mgr ↔ Run (step s k) (Keeps k) x (op :: rest) y) := by
        intro hk hiff
        rw [hiff]
        constructor
        · exact fun hrun => .cons hs hk hrun
        · intro hrun
          cases hrun with
          | cons hs' _ hrest' =>
              rw [hs] at hs'
              cases hs'
              exact hrest'
      have htail : (∀ c v, op ≠ .moment c (.returned (.subscribe s.kind s.params) (.ok v))) →
          Subscribed s rest := by
        intro hop
        obtain ⟨c, v, hmem⟩ := hsub
        rcases List.mem_cons.mp hmem with heq | hmem
        · exact absurd heq.symm (hop c v)
        · exact ⟨c, v, hmem⟩
      cases op with
      | manage c op' =>
          refine hcons trivial (ih hy (hx.manage hs) ?_ (htail fun _ _ => nofun))
          rw [(step_manage hs).2.2.2, hat]
      | call c =>
          rw [step, hat] at hs
          obtain ⟨m, hm, rfl⟩ := Option.map_eq_some_iff.mp hs
          exact hcons trivial (ih hy ⟨hx.wellFormed.step hm, hx.occupied.step hx.wellFormed hm,
            trivial⟩ rfl (htail fun _ _ => nofun))
      | moment c mo =>
          obtain ⟨hend, hstep, hmgr⟩ := step_moment hs
          have hk : Keeps k x (.moment c mo) := by
            refine ⟨by rw [hat]; trivial, ?_⟩
            rintro rfl
            rw [hat] at hstep
            cases hstep
          cases mo with
          | woke w full =>
              rw [hat] at hstep
              cases hstep
          | returned op' r =>
              obtain ⟨haw, hb⟩ := Stream.step_returned hstep
              rw [hat] at haw hb
              injection haw with haw
              subst haw
              cases r with
              | ok v =>
                  have hopen : ∃ key q, x.mgr.phase k = .streaming key q := by
                    rw [mayEnd] at hend
                    split at hend
                    · exact ⟨_, _, ‹_›⟩
                    · cases hend
                  have hmo : ∀ r', Moment.returned (.subscribe s.kind s.params) (.ok v)
                      ≠ .returned .aclose r' := by
                    intro r' heq
                    injection heq with heq
                    cases heq
                  refine hcons hk (givenBack_iff_of_open hrest hy (hx.go hopen hmo hs) ?_)
                  rw [hb]
                  exact .inl trivial
              | error e =>
                  -- the call has been refused, and there is no other
                  have hnil := run_left hrest (hb : _ = At.left (.refused e))
                  rw [hnil] at hsub
                  obtain ⟨c', v, hmem⟩ := hsub
                  cases List.mem_singleton.mp hmem

/-- `subscribe` of a stream on the head of an empty manager. -/
def subscribes : List Op :=
  [.call true, .manage true (.answer (.consumer 0) (.ok (.str "0x1"))),
    .moment true (.returned (.subscribe .syncing .null) (.ok .null))]

/-- A client that has gone before its response is prepared. -/
def goneBefore : List Op :=
  subscribes ++ [.moment true (.returned .prepare (.error (.exception .connectionResetError)))]

/-- The live loop begins, and its source ends. -/
def toTheEnd : List Op :=
  subscribes ++ [.moment true (.returned .prepare (.ok .null)),
    .moment true (.returned (.io (.write (.retry 5000))) (.ok .null)),
    .moment true (.woke .ended false)]

/-- A client that goes while the live loop writes; the upstream has let go of the subscription
when `aclose` returns. -/
def goneDuring : List Op :=
  toTheEnd ++ [.manage true (.answer (.consumer 0) (.ok .null)),
    .moment true (.returned .aclose (.ok .null))]

/-- The source ends while `on_reconnect` has the lock, and the task is cancelled in `aclose`. -/
def cancelledAtTheLock : List Op :=
  subscribes ++ [.moment true (.returned .prepare (.ok .null)),
    .moment true (.returned (.io (.write (.retry 5000))) (.ok .null)), .manage true .onReconnect,
    .moment true (.woke .ended false), .moment true (.returned .aclose (.error .cancelled))]

-- `aclose` has been called, and the consumer is still on the list of its slot
example : (((exec (step (Stream.syncStatus none) 0) init cancelledAtTheLock).getD
    init).mgr.slot 0).consumers = [0] := rfl

end Consumer

end ExecRestApi
