/-
What a chain-head tracker keeps up to date.

Its task follows the stream it has subscribed to, or polls, and never both.  Nothing that a
stream brings ends it, while a poll may (`ChainHead.survives_iff`).  Composed with the
manager, which is a bus, it keeps the last head of its topic.

What the tracker has been given is told apart by its source.  `heard` are the events that its
stream has handed over, `polled` the replies to its calls, and `Follows` says that the head it
shows is the last number among all of them, in the order they came.
-/
import ExecRestApi.Model.HeadTracker
import ExecRestApi.Proofs.ChainHead
import ExecRestApi.Proofs.LiveLoop
import ExecRestApi.Proofs.ManagerBus

namespace ExecRestApi

open Py Transition

namespace HeadTracker

/-- The head an event carries, if it is a well-formed one. -/
def headIn : StreamEvent → Option Nat
  | .event (.obj fields) =>
      match Json.field? fields "number" with
      | some (.str numberHex) => (hexToInt (.str numberHex)).toOption
      | _ => none
  | _ => none

section

variable (py : Printing) (depth : Nat) (onCall : Option OnCall)

/-- The head there is in what happens. -/
def heard : Op → Option Nat
  | .event ev => headIn ev
  | .answer id x => ChainHead.headOf (ChainHead.outcome py depth onCall id x)
  | _ => none

/-- What happens to the polling loop. -/
def polled : Op → Option ChainHead.Op
  | .answer id x => some (.answer id x)
  | .elapse => some .elapse
  | .stop => some .stop
  | _ => none

/-- What the task has kept. -/
structure Follows (ls : List Op) (s : HeadTracker) : Prop where
  current : s.head.current = (ls.filterMap (heard py depth onCall)).getLast?
  gauge : s.head.gauge = s.head.current
  /-- A task that has its stream does not poll, and goes on until it is stopped. -/
  reading : .subscribed (.ok ()) ∈ ls → s.head.calls = [] ∧ (.stop ∉ ls → s.at_ = .reading)
  /-- A task that polls does what the polling loop does. -/
  polling : s.at_ = .polling →
    Run (ChainHead.step py depth onCall) unguarded ChainHead.start (ls.filterMap polled) s.head

/-- Where the task stands after what has happened. -/
def Stands (ls : List Op) (s : HeadTracker) : Prop :=
  match s.at_ with
  | .created => ls = [] ∧ s.head = init.head
  | .subscribing => ls = [.begin] ∧ s.head = init.head
  | .reading => .stop ∉ ls ∧ s.head.stopEvent = false ∧ s.head.calls = []
  | .closing _ => .stop ∈ ls ∧ s.head.calls = []
  | .ended => (.stop ∈ ls ∨ .subscribed (.ok ()) ∉ ls) ∧ s.head.calls = []
  | .polling => .subscribed (.ok ()) ∉ ls ∧
      Run (ChainHead.step py depth onCall) unguarded ChainHead.start (ls.filterMap polled) s.head

end

variable {py : Printing} {depth : Nat} {onCall : Option OnCall} {manager : Bool}
  {s t : HeadTracker} {ls : List Op} {op : Op}

/-! ### One step

A turn takes one event and shows its number, if it has one.  What it cannot convert is logged
and dropped, so no event ends the task.
-/

/-- An event changes nothing but the head it carries. -/
theorem turn_spec (ev : StreamEvent) (h : s.head.stopEvent = false) :
    (s.turn ev).at_ = s.at_ ∧ (s.turn ev).head.stopEvent = false
      ∧ (s.turn ev).head.calls = s.head.calls
      ∧ (s.turn ev).head.current = (headIn ev).or s.head.current
      ∧ (s.turn ev).head.gauge = (headIn ev).or s.head.gauge := by
  unfold turn
  rw [if_neg (by rw [h]; exact Bool.false_ne_true)]
  rcases ev with payload | _
  · cases payload with
    | obj fields =>
        dsimp only
        rw [consume, headIn]
        rcases Json.field? fields "number" with _ | v
        · exact ⟨rfl, h, rfl, rfl, rfl⟩
        · cases v with
          | str numberHex =>
              dsimp only
              rcases hexToInt (.str numberHex) with e | n
              · exact ⟨rfl, h, rfl, rfl, rfl⟩
              · exact ⟨rfl, h, rfl, rfl, rfl⟩
          | _ => exact ⟨rfl, h, rfl, rfl, rfl⟩
    | _ => exact ⟨rfl, h, rfl, rfl, rfl⟩
  · exact ⟨rfl, h, rfl, rfl, rfl⟩

theorem head_enter (h : ChainHead) :
    h.enter.current = h.current ∧ h.enter.gauge = h.gauge := by
  rw [ChainHead.enter]
  split <;> exact ⟨rfl, rfl⟩

theorem head_stop : s.stop.head.current = s.head.current ∧ s.stop.head.gauge = s.head.gauge := by
  rw [stop]
  dsimp only
  split
  all_goals first | exact ⟨rfl, rfl⟩ | (split <;> exact ⟨rfl, rfl⟩)

theorem head_subscribed (r : Except Raised Unit) :
    (s.subscribed r).head.current = s.head.current ∧ (s.subscribed r).head.gauge = s.head.gauge := by
  rcases r with (e | _) | _
  · exact head_enter s.head
  · exact ⟨rfl, rfl⟩
  · exact ⟨rfl, rfl⟩

theorem head_closed (out : TaskAt) (r : Except Raised Unit) :
    (s.closed out r).head.current = s.head.current ∧ (s.closed out r).head.gauge = s.head.gauge
      ∧ (s.closed out r).head.calls = s.head.calls ∧ (s.closed out r).at_ = .ended := by
  rcases r with (e | _) | _ <;> exact ⟨rfl, rfl, rfl, rfl⟩

/-- A step takes over the head there is in it. -/
theorem head_step (hs : s.step py depth onCall manager op = some t)
    (hreading : s.at_ = .reading → s.head.stopEvent = false) :
    t.head.current = (heard py depth onCall op).or s.head.current
      ∧ t.head.gauge = (heard py depth onCall op).or s.head.gauge := by
  unfold step at hs
  cases op with
  | begin =>
      dsimp only at hs
      split at hs
      · injection hs with hs
        rw [← hs]
        cases manager with
        | true => exact ⟨rfl, rfl⟩
        | false => exact head_enter s.head
      · cases hs
  | subscribed r =>
      dsimp only at hs
      split at hs
      · injection hs with hs
        rw [← hs]
        exact head_subscribed r
      · cases hs
  | event ev =>
      dsimp only at hs
      split at hs
      · rename_i hat
        injection hs with hs
        rw [← hs]
        exact (turn_spec ev (hreading hat)).2.2.2
      · cases hs
  | closed r =>
      dsimp only at hs
      split at hs
      · injection hs with hs
        rw [← hs]
        exact ⟨(head_closed _ r).1, (head_closed _ r).2.1⟩
      · cases hs
  | answer id x =>
      dsimp only at hs
      split at hs
      · obtain ⟨h, hstep, rfl⟩ := Option.map_eq_some_iff.mp hs
        rw [ChainHead.step] at hstep
        split at hstep
        · injection hstep with hstep
          rw [← hstep]
          have hpoll := ChainHead.poll_spec (s := s.head)
            (ChainHead.outcome_ne_encodingError py depth onCall id x)
          exact ⟨hpoll.2.2.1, hpoll.2.2.2.1⟩
        · cases hstep
      · cases hs
  | elapse =>
      dsimp only at hs
      split at hs
      · obtain ⟨h, hstep, rfl⟩ := Option.map_eq_some_iff.mp hs
        rw [ChainHead.step] at hstep
        split at hstep
        · injection hstep with hstep
          rw [← hstep]
          exact head_enter s.head
        · cases hstep
      · cases hs
  | stop =>
      injection hs with hs
      rw [← hs]
      exact head_stop

/-! ### Runs

`Stands` ties the place the task is at to what has been heard and polled.  A task that follows
its stream has polled nothing, and one that polls will not follow it again.
-/

theorem not_mem_append {l : Op} (h : l ∉ ls) (hne : l ≠ op) : l ∉ ls ++ [op] := by
  intro hmem
  rcases List.mem_append.mp hmem with hmem | hmem
  · exact h hmem
  · exact hne (List.mem_singleton.mp hmem)

/-- A poll is a step of the polling loop. -/
theorem stands_poll (h : Stands py depth onCall ls s) (hat : s.at_ = .polling) {l : ChainHead.Op}
    (hop : polled op = some l) (hne : Op.subscribed (.ok ()) ≠ op) {h' : ChainHead}
    (hs : s.head.step py depth onCall l = some h') :
    Stands py depth onCall (ls ++ [op]) { s with head := h' } := by
  rw [Stands, hat] at h
  show Stands py depth onCall (ls ++ [op]) ⟨h', s.at_⟩
  rw [hat]
  refine ⟨not_mem_append h.1 hne, ?_⟩
  rw [List.filterMap_append, LiveLoop.filterMap_one, hop]
  exact h.2.snoc trivial hs

theorem stop_eq_of_waiting
    (hat : s.at_ = .created ∨ s.at_ = .subscribing ∨ ∃ out, s.at_ = .closing out) :
    s.stop = ⟨{ s.head with stopEvent := true, task := .cancelled }, .ended⟩ := by
  rw [stop]
  rcases hat with hat | hat | ⟨out, hat⟩ <;> rw [hat] <;> rfl

theorem stop_eq_of_reading (hat : s.at_ = .reading) :
    s.stop = ⟨{ s.head with stopEvent := true }, .closing .cancelled⟩ := by
  rw [stop]
  dsimp only
  rw [hat]

theorem stop_eq_of_ended (hat : s.at_ = .ended) :
    s.stop = { s with head := { s.head with stopEvent := true } } := by
  rw [stop]
  dsimp only
  rw [hat]

/-- The polling loop is stopped as it is on its own. -/
theorem stop_eq_of_polling (py : Printing) (depth : Nat) (onCall : Option OnCall)
    (hat : s.at_ = .polling) :
    ∃ h', s.head.step py depth onCall .stop = some h' ∧ s.stop = { s with head := h' } := by
  refine ⟨_, rfl, ?_⟩
  obtain ⟨head, at_⟩ := s
  cases hat
  rw [stop]
  by_cases hrunning : head.Running
  · rw [if_pos hrunning]
    exact if_pos hrunning
  · rw [if_neg hrunning]
    exact if_neg hrunning

/-- **Each step leaves the task where it stands.** -/
theorem stands_step (h : Stands py depth onCall ls s)
    (hs : s.step py depth onCall manager op = some t) : Stands py depth onCall (ls ++ [op]) t := by
  have hpolling : ∀ {s' : HeadTracker}, s'.head = init.head → Op.subscribed (.ok ()) ∉ ls ++ [op] →
      (ls ++ [op]).filterMap polled = [] →
      Stands py depth onCall (ls ++ [op]) ⟨s'.head.enter, .polling⟩ := by
    intro s' hhead hno hnone
    refine ⟨hno, ?_⟩
    rw [hnone, hhead]
    exact .nil _
  unfold step at hs
  cases op with
  | begin =>
      dsimp only at hs
      split at hs
      · rename_i hat
        rw [Stands, hat] at h
        obtain ⟨rfl, hhead⟩ := h
        injection hs with hs
        rw [← hs]
        cases manager with
        | true => exact ⟨rfl, hhead⟩
        | false => exact hpolling hhead (by simp) rfl
      · cases hs
  | subscribed r =>
      dsimp only at hs
      split at hs
      · rename_i hat
        rw [Stands, hat] at h
        obtain ⟨rfl, hhead⟩ := h
        injection hs with hs
        rw [← hs]
        rcases r with (e | _) | _
        · exact hpolling hhead (by simp) rfl
        · exact ⟨.inr (by simp), congrArg ChainHead.calls hhead⟩
        · exact ⟨by simp, congrArg ChainHead.stopEvent hhead, congrArg ChainHead.calls hhead⟩
      · cases hs
  | event ev =>
      dsimp only at hs
      split at hs
      · rename_i hat
        rw [Stands, hat] at h
        obtain ⟨hstop, hevent, hcalls⟩ := h
        obtain ⟨hat', hevent', hcalls', -, -⟩ := turn_spec ev hevent
        injection hs with hs
        rw [← hs, Stands, hat', hat]
        exact ⟨not_mem_append hstop (by rintro ⟨⟩), hevent', by rw [hcalls', hcalls]⟩
      · cases hs
  | closed r =>
      dsimp only at hs
      split at hs
      · rename_i out hat
        rw [Stands, hat] at h
        injection hs with hs
        obtain ⟨-, -, hcalls, hat'⟩ := head_closed (s := s) out r
        rw [← hs, Stands, hat']
        exact ⟨.inl (List.mem_append_left _ h.1), by rw [hcalls, h.2]⟩
      · cases hs
  | answer id x =>
      dsimp only at hs
      split at hs
      · rename_i hat
        obtain ⟨h', hstep, rfl⟩ := Option.map_eq_some_iff.mp hs
        exact stands_poll h hat rfl (by rintro ⟨⟩) hstep
      · cases hs
  | elapse =>
      dsimp only at hs
      split at hs
      · rename_i hat
        obtain ⟨h', hstep, rfl⟩ := Option.map_eq_some_iff.mp hs
        exact stands_poll h hat rfl (by rintro ⟨⟩) hstep
      · cases hs
  | stop =>
      injection hs with hs
      rw [← hs]
      have hmem : Op.stop ∈ ls ++ [Op.stop] := List.mem_append_right _ (List.mem_singleton_self _)
      cases hat : s.at_ with
      | polling =>
          obtain ⟨h', hstep, heq⟩ := stop_eq_of_polling py depth onCall hat
          rw [heq]
          exact stands_poll h hat rfl (by rintro ⟨⟩) hstep
      | created =>
          rw [Stands, hat] at h
          rw [stop_eq_of_waiting (.inl hat)]
          exact ⟨.inl hmem, congrArg ChainHead.calls h.2⟩
      | subscribing =>
          rw [Stands, hat] at h
          rw [stop_eq_of_waiting (.inr (.inl hat))]
          exact ⟨.inl hmem, congrArg ChainHead.calls h.2⟩
      | closing out =>
          rw [Stands, hat] at h
          rw [stop_eq_of_waiting (.inr (.inr ⟨out, hat⟩))]
          exact ⟨.inl hmem, h.2⟩
      | reading =>
          rw [Stands, hat] at h
          rw [stop_eq_of_reading hat]
          exact ⟨hmem, h.2.2⟩
      | ended =>
          rw [Stands, hat] at h
          rw [stop_eq_of_ended hat]
          show Stands py depth onCall _ ⟨_, s.at_⟩
          rw [hat]
          exact ⟨.inl hmem, h.2⟩

theorem stopEvent_of_stands (h : Stands py depth onCall ls s) (hat : s.at_ = .reading) :
    s.head.stopEvent = false := by
  rw [Stands, hat] at h
  exact h.2.1

/-- A task that has its stream does not poll, and goes on until it is stopped. -/
theorem reading_of_stands (h : Stands py depth onCall ls s) (hsub : .subscribed (.ok ()) ∈ ls) :
    s.head.calls = [] ∧ (.stop ∉ ls → s.at_ = .reading) := by
  rw [Stands] at h
  cases hat : s.at_ with
  | created =>
      rw [hat] at h
      rw [h.1] at hsub
      cases hsub
  | subscribing =>
      rw [hat] at h
      rw [h.1] at hsub
      rcases List.mem_singleton.mp hsub
  | reading =>
      rw [hat] at h
      exact ⟨h.2.2, fun _ => rfl⟩
  | closing out =>
      rw [hat] at h
      exact ⟨h.2, fun hstop => absurd h.1 hstop⟩
  | polling =>
      rw [hat] at h
      exact absurd hsub h.1
  | ended =>
      rw [hat] at h
      refine ⟨h.2, fun hstop => ?_⟩
      rcases h.1 with hmem | hno
      · exact absurd hmem hstop
      · exact absurd hsub hno

theorem getLast?_heard (ls : List Op) (op : Op) :
    ((ls ++ [op]).filterMap (heard py depth onCall)).getLast?
      = (heard py depth onCall op).or (ls.filterMap (heard py depth onCall)).getLast? := by
  rw [List.filterMap_append, LiveLoop.filterMap_one, List.getLast?_append]
  cases heard py depth onCall op <;> rfl

/-- **The task follows its stream, or polls**: in every run it keeps the last head it has heard
of.  Once it has its stream it never polls and nothing but `stop` ends it; and until then, if it
polls, it does exactly what the polling loop does. -/
theorem tracker_follows (h : Run (step py depth onCall manager) unguarded init ls s) :
    Follows py depth onCall ls s := by
  have hrun : Stands py depth onCall ls s
      ∧ s.head.current = (ls.filterMap (heard py depth onCall)).getLast?
      ∧ s.head.gauge = (ls.filterMap (heard py depth onCall)).getLast? := by
    refine h.recorded (I := fun ls s => Stands py depth onCall ls s
      ∧ s.head.current = (ls.filterMap (heard py depth onCall)).getLast?
      ∧ s.head.gauge = (ls.filterMap (heard py depth onCall)).getLast?) ?_ ⟨⟨rfl, rfl⟩, rfl, rfl⟩
    intro ls s op t ⟨hstands, hcurrent, hgauge⟩ _ hs
    obtain ⟨hcurrent', hgauge'⟩ := head_step hs (stopEvent_of_stands hstands)
    rw [getLast?_heard]
    exact ⟨stands_step hstands hs, by rw [hcurrent', hcurrent], by rw [hgauge', hgauge]⟩
  obtain ⟨hstands, hcurrent, hgauge⟩ := hrun
  refine ⟨hcurrent, hgauge.trans hcurrent.symm, reading_of_stands hstands, fun hat => ?_⟩
  rw [Stands, hat] at hstands
  exact hstands.2

/-- A block header that names a number, and one that does not. -/
def headsThenStop : List Op :=
  [.begin, .subscribed (.ok ()), .event (.event (.obj [("number", .str "0x9")])), .event .gap,
    .event (.event (.obj [("number", .int 4)])), .stop, .closed (.ok ())]

theorem tracker_follows_heads : ∃ s : HeadTracker, s.head.current = some 9 ∧ s.at_ = .ended
    ∧ Follows plainPrinting 9 none headsThenStop s := by
  obtain ⟨s, hs, hcurrent, hended⟩ : ∃ s, exec (step plainPrinting 9 none true) init headsThenStop
      = some s ∧ s.head.current = some 9 ∧ s.at_ = .ended := ⟨_, rfl, rfl, rfl⟩
  exact ⟨s, hcurrent, hended, tracker_follows (run_of_exec hs)⟩

end HeadTracker

/-! ### With the manager

Here the stream is one of the manager's.  The run of the manager is a run on its own, and what
its owner reads is what was published on the topic (`stream_delivery`), so the head that is
shown is the last one published that has been read.
-/

namespace Tracked

/-- The tracker has just got its stream. -/
def following : HeadTracker := { HeadTracker.init with at_ := .reading }

/-- What happens to the manager. -/
def managed (k : Nat) : Op → Option (Bool × Manager.Op)
  | .manage connected op => some (connected, op)
  | .take connected ev => some (connected, .read k ev)
  | .stop connected => some (connected, .aclose k)
  | .closed => none

/-- The steps of the manager. -/
def managerSteps (k : Nat) (ls : List Op) : List (Bool × Manager.Op) := ls.filterMap (managed k)

/-- `stop` has not been called. -/
def Unstopped (_ : Tracked) : Op → Prop
  | .stop _ => False
  | _ => True

section

variable {py : Printing} {depth : Nat} {onCall : Option OnCall} {k : Nat} {x x' : Tracked} {op : Op}
  {ls : List Op}

theorem step_manage {connected : Bool} {mop : Manager.Op}
    (h : x.step py depth onCall k (.manage connected mop) = some x') :
    isOwn k mop = false ∧ x.mgr.step (connected, mop) = some x'.mgr ∧ x'.tracker = x.tracker := by
  rw [step] at h
  split at h
  · cases h
  · rename_i hown
    obtain ⟨m, hm, rfl⟩ := Option.map_eq_some_iff.mp h
    exact ⟨by simpa using hown, hm, rfl⟩

theorem step_take {connected : Bool} {ev : StreamEvent}
    (h : x.step py depth onCall k (.take connected ev) = some x') :
    x.mgr.step (connected, .read k ev) = some x'.mgr ∧ x.tracker.at_ = .reading
      ∧ x'.tracker = x.tracker.turn ev := by
  rw [step] at h
  split at h
  · rename_i m t hm ht
    injection h with h
    rw [HeadTracker.step] at ht
    split at ht
    · rename_i hat
      injection ht with ht
      rw [← h]
      exact ⟨hm, hat, ht.symm⟩
    · cases ht
  · cases h

theorem step_stop {connected : Bool} (h : x.step py depth onCall k (.stop connected) = some x') :
    x.mgr.step (connected, .aclose k) = some x'.mgr ∧ x.tracker.at_ = .reading
      ∧ x'.tracker = ⟨{ x.tracker.head with stopEvent := true }, .closing .cancelled⟩ := by
  rw [step] at h
  split at h
  · rename_i hat
    obtain ⟨m, hm, rfl⟩ := Option.map_eq_some_iff.mp h
    exact ⟨hm, hat, HeadTracker.stop_eq_of_reading hat⟩
  · cases h

theorem step_closed (h : x.step py depth onCall k .closed = some x') :
    x'.mgr = x.mgr ∧ ∃ out, x.tracker.at_ = .closing out ∧ x'.tracker = x.tracker.finish out := by
  rw [step] at h
  split at h
  · obtain ⟨t, ht, rfl⟩ := Option.map_eq_some_iff.mp h
    rw [HeadTracker.step] at ht
    split at ht
    · rename_i out hat
      injection ht with ht
      exact ⟨rfl, out, hat, ht.symm⟩
    · cases ht
  · cases h

/-- The tracker keeps the last head of what it has read, and nothing else. -/
structure Keeps (k : Nat) (ls : List Op) (x : Tracked) : Prop where
  current : x.tracker.head.current
    = ((Manager.reads k (managerSteps k ls)).filterMap HeadTracker.headIn).getLast?
  gauge : x.tracker.head.gauge = x.tracker.head.current
  calls : x.tracker.head.calls = []
  reading : x.tracker.at_ = .reading → x.tracker.head.stopEvent = false

theorem reads_snoc (k : Nat) (ls : List Op) (op : Op) :
    Manager.reads k (managerSteps k (ls ++ [op]))
      = Manager.reads k (managerSteps k ls) ++ Manager.reads k (managed k op).toList := by
  rw [managerSteps, List.filterMap_append, LiveLoop.filterMap_one, Manager.reads, List.flatMap_append]
  rfl

theorem reads_own {connected : Bool} {mop : Manager.Op} (h : isOwn k mop = false) :
    Manager.reads k [(connected, mop)] = [] := by
  rw [Manager.reads, List.flatMap_singleton]
  cases mop with
  | read j ev =>
      rw [isOwn, decide_eq_false_iff_not] at h
      rw [Manager.readBy, if_neg h]
  | _ => rfl

theorem keeps_step (h : Keeps k ls x) (hs : x.step py depth onCall k op = some x') :
    Keeps k (ls ++ [op]) x' := by
  -- a step in which nothing is read, and the tracker keeps what it has
  have hquiet : Manager.reads k (managed k op).toList = [] →
      x'.tracker.head.current = x.tracker.head.current →
      x'.tracker.head.gauge = x.tracker.head.gauge → x'.tracker.head.calls = x.tracker.head.calls →
      (x'.tracker.at_ = .reading → x'.tracker.head.stopEvent = false) → Keeps k (ls ++ [op]) x' := by
    intro hnone hcurrent hgauge hcalls hreading
    refine ⟨?_, by rw [hgauge, hcurrent, h.gauge], by rw [hcalls, h.calls], hreading⟩
    rw [reads_snoc, hnone, List.append_nil, hcurrent, h.current]
  cases op with
  | manage connected mop =>
      obtain ⟨hown, -, htracker⟩ := step_manage hs
      exact hquiet (reads_own hown) (by rw [htracker]) (by rw [htracker]) (by rw [htracker])
        (by rw [htracker]; exact h.reading)
  | take connected ev =>
      obtain ⟨-, hat, htracker⟩ := step_take hs
      obtain ⟨hat', hstop, hcalls, hcurrent, hgauge⟩ := HeadTracker.turn_spec ev (h.reading hat)
      refine ⟨?_, ?_, ?_, ?_⟩
      · have hread : Manager.reads k (managed k (.take connected ev)).toList = [ev] := by
          show Manager.reads k [(connected, .read k ev)] = [ev]
          rw [Manager.reads, List.flatMap_singleton, Manager.readBy, if_pos rfl]
        rw [reads_snoc, hread, htracker, hcurrent, h.current, List.filterMap_append,
          LiveLoop.filterMap_one, List.getLast?_append]
        cases HeadTracker.headIn ev <;> rfl
      · rw [htracker, hgauge, hcurrent, h.gauge]
      · rw [htracker, hcalls, h.calls]
      · rw [htracker]
        exact fun _ => hstop
  | stop connected =>
      obtain ⟨-, -, htracker⟩ := step_stop hs
      exact hquiet rfl (by rw [htracker]) (by rw [htracker]) (by rw [htracker])
        (by rw [htracker]; rintro ⟨⟩)
  | closed =>
      obtain ⟨-, out, -, htracker⟩ := step_closed hs
      exact hquiet rfl (by rw [htracker]; rfl) (by rw [htracker]; rfl) (by rw [htracker]; rfl)
        (by rw [htracker]; rintro ⟨⟩)

theorem run_managed (h : Run (step py depth onCall k) Unstopped x ls x') :
    Run Manager.step (fun _ e => e.2 ≠ .aclose k) x.mgr (managerSteps k ls) x'.mgr := by
  refine h.project (π := mgr) ?_
  intro x op x' hopen hs
  cases op with
  | manage connected mop =>
      obtain ⟨hown, hm, -⟩ := step_manage hs
      refine .inr ⟨_, rfl, ?_, hm⟩
      rintro hclose
      rw [show mop = .aclose k from hclose, isOwn, decide_eq_false_iff_not] at hown
      exact hown rfl
  | take connected ev => exact .inr ⟨_, rfl, by rintro ⟨⟩, (step_take hs).1⟩
  | stop connected => exact hopen.elim
  | closed => exact .inl ⟨rfl, (step_closed hs).1⟩

end

/-- **The chain head is the last one of its topic.**  From the moment the tracker has its stream,
it keeps the last head of what it has read, whatever else the manager does, also once it has been
stopped; and as long as it is not, nothing is lost that the queue could hold: a tracker with an
empty queue is up to date. -/
theorem head_of_topic {py : Printing} {depth : Nat} {onCall : Option OnCall} {k : Nat}
    {ls₀ : List (Bool × Manager.Op)} {ls : List Op} {m : Manager} {x : Tracked} {key : SlotKey}
    {r : SlotRef} (h₀ : Run Manager.step unguarded Manager.init ls₀ m)
    (hk : m.phase k = .streaming key r)
    (h : Run (step py depth onCall k) unguarded ⟨m, following⟩ ls x) :
    Keeps k ls x ∧
      (Run (step py depth onCall k) Unstopped ⟨m, following⟩ ls x →
        (m.queue k).length + (Manager.sentTo key m (managerSteps k ls)).length ≤ queueSize →
        x.mgr.queue k = [] →
        x.tracker.head.current = ((m.queue k ++ Manager.sentTo key m (managerSteps k ls)).filterMap
          HeadTracker.headIn).getLast?) := by
  have hkeeps : Keeps k ls x :=
    h.recorded (fun _ _ _ _ hI _ hs => keeps_step hI hs) ⟨rfl, rfl, rfl, fun _ => rfl⟩
  refine ⟨hkeeps, fun hopen hfits hempty => ?_⟩
  obtain ⟨hm, hu⟩ := Manager.wellFormed_unopened h₀
  have hall := (Manager.delivered_of_streaming hm hu hk (run_managed hopen)).2 hfits
  rw [hempty, List.append_nil] at hall
  rw [hkeeps.current, hall]

private def subscribing : List (Bool × Manager.Op) :=
  [(true, .subscribe 0 .newHeads .null), (true, .answer (.consumer 0) (.ok (.str "0xa")))]

private def ninth : Json := .obj [("number", .str "0x9")]

private def oneHead : List Op :=
  [.manage true (.onNotification (.obj [("params",
      .obj [("subscription", .str "0xa"), ("result", ninth)])])),
    .take true (.event ninth)]

theorem head_of_topic_once : ∃ (m : Manager) (x : Tracked), Keeps 0 oneHead x
    ∧ x.tracker.head.current = ((m.queue 0 ++ Manager.sentTo (.newHeads, "null") m
      (managerSteps 0 oneHead)).filterMap HeadTracker.headIn).getLast? := by
  have h₀ : exec Manager.step .init subscribing
      = some ((exec Manager.step .init subscribing).getD .init) := by
    rfl
  have hk : ((exec Manager.step .init subscribing).getD .init).phase 0
      = .streaming (.newHeads, "null") 0 := by
    rfl
  have h : exec (step plainPrinting 9 none 0)
      ⟨(exec Manager.step .init subscribing).getD .init, following⟩ oneHead
      = some ((exec (step plainPrinting 9 none 0)
        ⟨(exec Manager.step .init subscribing).getD .init, following⟩ oneHead).getD
          ⟨.init, following⟩) := by
    rfl
  have hopen : ∀ op ∈ oneHead, Unstopped ⟨.init, following⟩ op := by
    intro op hop
    simp only [oneHead, List.mem_cons, List.not_mem_nil, or_false] at hop
    rcases hop with rfl | rfl <;> trivial
  obtain ⟨hkeeps, hfresh⟩ := head_of_topic (run_of_exec h₀) hk (run_of_exec h)
  exact ⟨_, _, hkeeps, hfresh ((run_of_exec h).restrict hopen) (by decide) rfl⟩

end Tracked

end ExecRestApi
