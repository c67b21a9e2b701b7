/-
What a heartbeat leaves of its source.

The tasks are the calls of the source in order, of which only the last can be running: it is the
one `next_task` points at, and another is created only when its chunk has been yielded.  So pings
come between the chunks and never in their place.  The `except` clause that makes a ping of the
interval makes one of every timeout, also of the source's own, and then the source has ended and
the generator has not.
-/
import ExecRestApi.Lib.Transition
import ExecRestApi.Model.Heartbeat

namespace ExecRestApi.Heartbeat

open Transition

/-! ### Transparency

A consumer is shown the chunks of the source, with pings between them.  `Transparent` says so
of what has been yielded so far, and also how the generator ends: as its source does.
-/

/-- What is yielded, without the pings. -/
def chunksOf (output : List Yielded) : List ByteArray :=
  output.filterMap fun
    | .chunk bytes => some bytes
    | .ping _ => none

/-- The generator has passed on what its source gave. -/
def PassesOn (s t : Heartbeat) : Given → Prop
  | .chunk bytes => t.at_ = .suspended ∧ t.output = s.output ++ [.chunk bytes]
  | .stop => t.at_ = .returned ∧ t.output = s.output
  | .raised e => t.at_ = .raised e ∧ t.output = s.output

/-- The generator gives what its source gives. -/
structure Transparent (source : Nat → Given) (s : Heartbeat) : Prop where
  /-- the chunks are the first of the source -/
  chunks : ∃ k, (chunksOf s.output).map Given.chunk = (List.range k).map source
  /-- one call at most is running -/
  single : (s.tasks.filter Option.isNone).length ≤ 1
  returned : s.at_ = .returned → source (chunksOf s.output).length = .stop
  raised : ∀ e, s.at_ = .raised e → source (chunksOf s.output).length = .raised e
  /-- once a call has finished and the generator runs, it passes on what the call gave -/
  passesOn : ∀ now given l t, s.finished = some given → l = .resume now ∨ l = .deliver now →
    step source s l = some t → PassesOn s t given

/-- The source does not raise `asyncio.TimeoutError` after its chunks. -/
def NeverTimesOut (source : Nat → Given) : Prop :=
  ∀ k, (∀ i < k, ∃ bytes, source i = .chunk bytes) → source k ≠ .raised .timeoutError

/-! ### The tasks

`Aligned` is the invariant: task `i` is call `i` of the source, all but the last are over, and
`next_task` points at the last.  The cases are those of the place the generator stands at.
-/

/-- The first calls of the source, all of them finished. -/
def doneTasks (source : Nat → Given) (k : Nat) : List (Option Given) :=
  (List.range k).map fun i => some (source i)

/-- Where the generator is after `k` chunks. -/
inductive Place (source : Nat → Given) (s : Heartbeat) (k : Nat) : Prop where
  | idle (htask : s.nextTask = none) (htasks : s.tasks = doneTasks source k)
      (hat : s.at_ = .suspended)
  | running (htask : s.nextTask = some k) (htasks : s.tasks = doneTasks source k ++ [none])
      (hat : s.at_ = .suspended ∨ s.at_ = .waiting)
  | done (htask : s.nextTask = some k) (htasks : s.tasks = doneTasks source (k + 1))
      (hreturned : s.at_ = .returned → source k = .stop)
      (hraised : ∀ e, s.at_ = .raised e → source k = .raised e)

/-- The generator is in place after the chunks it has yielded. -/
structure Aligned (source : Nat → Given) (s : Heartbeat) (k : Nat) : Prop where
  chunks : (chunksOf s.output).map Given.chunk = (List.range k).map source
  place : Place source s k

section

variable {source : Nat → Given} {s t : Heartbeat} {k : Nat}

theorem length_doneTasks : (doneTasks source k).length = k := by
  simp [doneTasks]

theorem doneTasks_succ : doneTasks source (k + 1) = doneTasks source k ++ [some (source k)] := by
  simp [doneTasks, List.range_succ]

theorem isNone_doneTasks : (doneTasks source k).filter Option.isNone = [] := by
  simp [doneTasks]

theorem finished_of_idle (htask : s.nextTask = none) : s.finished = none := by
  unfold finished
  rw [htask]
  rfl

theorem finished_of_running (htask : s.nextTask = some k)
    (htasks : s.tasks = doneTasks source k ++ [none]) : s.finished = none := by
  unfold finished
  rw [htask, Option.bind_some, htasks, List.getElem?_append_right (by rw [length_doneTasks]),
    length_doneTasks, Nat.sub_self]
  rfl

theorem finished_of_done (htask : s.nextTask = some k)
    (htasks : s.tasks = doneTasks source (k + 1)) : s.finished = some (source k) := by
  unfold finished
  rw [htask, Option.bind_some, htasks, doneTasks_succ,
    List.getElem?_append_right (by rw [length_doneTasks]), length_doneTasks, Nat.sub_self]
  rfl

@[simp] theorem chunksOf_chunk (output : List Yielded) (bytes : ByteArray) :
    chunksOf (output ++ [.chunk bytes]) = chunksOf output ++ [bytes] := by
  simp [chunksOf]

@[simp] theorem chunksOf_ping (output : List Yielded) (now : Int) :
    chunksOf (output ++ [.ping now]) = chunksOf output := by
  simp [chunksOf]

/-- What is finished is the next outcome of the source. -/
theorem Aligned.of_finished (h : Aligned source s k) {given : Given} (hs : s.finished = some given) :
    given = source k ∧ s.nextTask = some k ∧ s.tasks = doneTasks source (k + 1) := by
  rcases h.place with ⟨htask, -, -⟩ | ⟨htask, htasks, -⟩ | ⟨htask, htasks, -, -⟩
  · rw [finished_of_idle htask] at hs
    cases hs
  · rw [finished_of_running htask htasks] at hs
    cases hs
  · rw [finished_of_done htask htasks] at hs
    injection hs with hs
    exact ⟨hs.symm, htask, htasks⟩

theorem Aligned.ping (h : Aligned source s k) (hopen : s.nextTask ≠ none) (now : Int) :
    Aligned source (s.ping now) k := by
  refine ⟨by rw [← h.chunks]; exact congrArg _ (chunksOf_ping _ _), ?_⟩
  rcases h.place with ⟨htask, -, -⟩ | ⟨htask, htasks, -⟩ | ⟨htask, htasks, -, -⟩
  · exact absurd htask hopen
  · exact .running htask htasks (.inl rfl)
  · exact .done htask htasks nofun nofun

/-- A finished task is followed by the next, or it is the last. -/
theorem Aligned.settle (h : Aligned source s k) {given : Given} (hs : s.finished = some given)
    (now : Int) : ∃ k', Aligned source (s.settle now given) k' := by
  obtain ⟨rfl, htask, htasks⟩ := h.of_finished hs
  cases hgiven : source k with
  | chunk bytes =>
      refine ⟨k + 1, ?_, .idle rfl htasks rfl⟩
      show (chunksOf (s.output ++ [.chunk bytes])).map Given.chunk = _
      rw [chunksOf_chunk, List.map_append, h.chunks, List.range_succ, List.map_append,
        List.map_singleton, List.map_singleton, hgiven]
  | stop => exact ⟨k, h.chunks, .done htask htasks (fun _ => hgiven) nofun⟩
  | raised e =>
      unfold Heartbeat.settle
      dsimp only
      split_ifs
      · exact ⟨k, h.ping (by rw [htask]; nofun) now⟩
      · refine ⟨k, h.chunks, .done htask htasks nofun fun e' he' => ?_⟩
        injection he' with he'
        rw [hgiven, he']

theorem Aligned.enter (h : Aligned source s k) (now : Int) : ∃ k', Aligned source (s.enter now) k' := by
  unfold Heartbeat.enter
  cases htask : s.nextTask with
  | none =>
      refine ⟨k, h.chunks, ?_⟩
      rcases h.place with ⟨-, htasks, -⟩ | ⟨hsome, -, -⟩ | ⟨hsome, -, -, -⟩
      · refine .running ?_ ?_ (.inr rfl)
        · show some s.tasks.length = some k
          rw [htasks, length_doneTasks]
        · show s.tasks ++ [none] = _
          rw [htasks]
      · rw [htask] at hsome
        cases hsome
      · rw [htask] at hsome
        cases hsome
  | some n =>
      cases hs : s.finished with
      | some given => exact h.settle hs now
      | none =>
          refine ⟨k, h.chunks, ?_⟩
          rcases h.place with ⟨hnone, -, -⟩ | ⟨hsome, htasks, -⟩ | ⟨hsome, htasks, -, -⟩
          · rw [htask] at hnone
            cases hnone
          · exact .running (htask.symm.trans hsome) htasks (.inr rfl)
          · rw [finished_of_done hsome htasks] at hs
            cases hs

/-- Only the last task can be running. -/
theorem Aligned.finish (h : Aligned source s k) {n : Nat} (hn : s.tasks[n]? = some none) :
    Aligned source { s with tasks := s.tasks.set n (some (source n)) } k := by
  have hdone : ∀ {k n : Nat}, (doneTasks source k)[n]? ≠ some none := by
    intro k n hnone
    obtain ⟨i, -, hi⟩ := List.mem_map.mp (List.mem_of_getElem? hnone)
    cases hi
  refine ⟨h.chunks, ?_⟩
  rcases h.place with ⟨-, htasks, -⟩ | ⟨htask, htasks, hat⟩ | ⟨-, htasks, -, -⟩
  · rw [htasks] at hn
    exact absurd hn hdone
  · have hlast : n = k := by
      rw [htasks] at hn
      by_contra hne
      have hlen : n < k + 1 := by
        obtain ⟨hlt, -⟩ := List.getElem?_eq_some_iff.mp hn
        rwa [List.length_append, length_doneTasks] at hlt
      rw [List.getElem?_append_left (by rw [length_doneTasks]; omega)] at hn
      exact hdone hn
    refine .done htask ?_ (fun hr => ?_) fun e hr => ?_
    · show s.tasks.set n _ = _
      rw [hlast, htasks, doneTasks_succ, List.set_append_right _ _ (by rw [length_doneTasks]),
        length_doneTasks, Nat.sub_self]
      rfl
    · rcases hat with hat | hat
      · exact absurd (hat.symm.trans hr) nofun
      · exact absurd (hat.symm.trans hr) nofun
    · rcases hat with hat | hat
      · exact absurd (hat.symm.trans hr) nofun
      · exact absurd (hat.symm.trans hr) nofun
  · rw [htasks] at hn
    exact absurd hn hdone

theorem aligned_step {l : Op} (h : ∃ k, Aligned source s k) (hstep : step source s l = some t) :
    ∃ k, Aligned source t k := by
  obtain ⟨k, h⟩ := h
  unfold step at hstep
  cases l with
  | resume now =>
      dsimp only at hstep
      split_ifs at hstep
      injection hstep with hstep
      rw [← hstep]
      exact h.enter now
  | finish n =>
      dsimp only at hstep
      split_ifs at hstep with hn
      injection hstep with hstep
      rw [← hstep]
      exact ⟨k, h.finish hn⟩
  | deliver now =>
      dsimp only at hstep
      split_ifs at hstep
      obtain ⟨given, hgiven, rfl⟩ := Option.map_eq_some_iff.mp hstep
      exact h.settle hgiven now
  | expire now =>
      dsimp only at hstep
      split_ifs at hstep with hat
      injection hstep with hstep
      rw [← hstep]
      refine ⟨k, h.ping (fun hnone => ?_) now⟩
      rcases h.place with ⟨-, -, hsuspended⟩ | ⟨htask, -, -⟩ | ⟨htask, -, -, -⟩
      · rw [hat] at hsuspended
        cases hsuspended
      · rw [htask] at hnone
        cases hnone
      · rw [htask] at hnone
        cases hnone

theorem aligned_init : Aligned source init 0 := ⟨rfl, .idle rfl rfl rfl⟩

theorem aligned_run {ls : List Op} (h : Run (step source) unguarded init ls s) :
    ∃ k, Aligned source s k :=
  h.preserves (I := fun s => ∃ k, Aligned source s k) (fun _ _ _ hs _ hl => aligned_step hs hl)
    ⟨0, aligned_init⟩

/-! ### What is passed on

Only the task that `next_task` points at can hand anything on, and what it hands on is the next
chunk.  An expiry in the turn in which the task settles changes nothing about that.
-/

/-- Where a task has finished, the generator settles it as soon as it runs. -/
theorem step_of_finished {given : Given} {now : Int} {l : Op} (hs : s.finished = some given)
    (hl : l = .resume now ∨ l = .deliver now) (hstep : step source s l = some t) :
    t = s.settle now given := by
  unfold step at hstep
  rcases hl with rfl | rfl
  · dsimp only at hstep
    split_ifs at hstep
    injection hstep with hstep
    rw [← hstep]
    unfold Heartbeat.enter
    cases htask : s.nextTask with
    | none =>
        rw [finished_of_idle htask] at hs
        cases hs
    | some n =>
        dsimp only
        rw [hs]
  · dsimp only at hstep
    split_ifs at hstep
    rw [hs, Option.map_some] at hstep
    injection hstep with hstep
    exact hstep.symm

theorem passesOn_settle {given : Given} (hgiven : given ≠ .raised .timeoutError) (now : Int) :
    PassesOn s (s.settle now given) given := by
  cases given with
  | chunk bytes => exact ⟨rfl, rfl⟩
  | stop => exact ⟨rfl, rfl⟩
  | raised e =>
      have he : e ≠ .timeoutError := fun he => hgiven (by rw [he])
      unfold Heartbeat.settle
      dsimp only
      rw [if_neg he]
      exact ⟨rfl, rfl⟩

theorem Aligned.transparent (h : Aligned source s k) (hsource : NeverTimesOut source) :
    Transparent source s := by
  have hlen : (chunksOf s.output).length = k := by
    have := congrArg List.length h.chunks
    rwa [List.length_map, List.length_map, List.length_range] at this
  have hprefix : ∀ i < k, ∃ bytes, source i = .chunk bytes := by
    intro i hi
    have hmem : source i ∈ (List.range k).map source := List.mem_map_of_mem (List.mem_range.mpr hi)
    rw [← h.chunks] at hmem
    obtain ⟨bytes, -, hbytes⟩ := List.mem_map.mp hmem
    exact ⟨bytes, hbytes.symm⟩
  refine ⟨⟨k, h.chunks⟩, ?_, fun hr => ?_, fun e hr => ?_, fun now given l t hs hl hstep => ?_⟩
  · rcases h.place with ⟨-, htasks, -⟩ | ⟨-, htasks, -⟩ | ⟨-, htasks, -, -⟩
    · rw [htasks, isNone_doneTasks]
      exact Nat.zero_le _
    · rw [htasks, List.filter_append, isNone_doneTasks]
      exact le_refl _
    · rw [htasks, isNone_doneTasks]
      exact Nat.zero_le _
  · rw [hlen]
    rcases h.place with ⟨-, -, hat⟩ | ⟨-, -, hat | hat⟩ | ⟨-, -, hreturned, -⟩
    · exact absurd (hat.symm.trans hr) nofun
    · exact absurd (hat.symm.trans hr) nofun
    · exact absurd (hat.symm.trans hr) nofun
    · exact hreturned hr
  · rw [hlen]
    rcases h.place with ⟨-, -, hat⟩ | ⟨-, -, hat | hat⟩ | ⟨-, -, -, hraised⟩
    · exact absurd (hat.symm.trans hr) nofun
    · exact absurd (hat.symm.trans hr) nofun
    · exact absurd (hat.symm.trans hr) nofun
    · exact hraised e hr
  · rw [step_of_finished hs hl hstep]
    refine passesOn_settle ?_ now
    rw [(h.of_finished hs).1]
    exact hsource k hprefix

/-! ### A source that times out

A `TimeoutError` of the source is taken for one of the interval.  The state in which that
happens can be reached for every such source, so the condition is exact.
-/

/-- The next call has finished, and the generator waits for it. -/
theorem reach_waiting {ls : List Op} (h : Run (step source) unguarded init ls s)
    (htask : s.nextTask = none) (htasks : s.tasks = doneTasks source k) (hat : s.at_ = .suspended) :
    ∃ ls t, Run (step source) unguarded init ls t ∧ t.at_ = .waiting ∧ t.nextTask = some k ∧
      t.tasks = doneTasks source (k + 1) := by
  have hlen : s.tasks.length = k := by rw [htasks, length_doneTasks]
  have hcreate : step source s (.resume 0) = some
      { s with tasks := s.tasks ++ [none], nextTask := some k, at_ := .waiting } := by
    unfold step Heartbeat.enter
    dsimp only
    rw [if_pos hat, htask, hlen]
  have hrunning : (s.tasks ++ [none])[k]? = some none := by
    rw [List.getElem?_append_right (by rw [hlen]), hlen, Nat.sub_self]
    rfl
  have hfinish : step source
      { s with tasks := s.tasks ++ [none], nextTask := some k, at_ := .waiting } (.finish k) = some
      { s with
        tasks := (s.tasks ++ [none]).set k (some (source k)), nextTask := some k, at_ := .waiting } :=
    if_pos hrunning
  refine ⟨ls ++ [.resume 0, .finish k], { s with
    tasks := (s.tasks ++ [none]).set k (some (source k)), nextTask := some k, at_ := .waiting },
    run_append.mpr ⟨s, h, ?_⟩, rfl, rfl, ?_⟩
  · exact .cons hcreate trivial (.cons hfinish trivial (.nil _))
  · show (s.tasks ++ [none]).set k (some (source k)) = _
    rw [List.set_append_right _ _ (by rw [hlen]), hlen, Nat.sub_self, htasks, doneTasks_succ]
    rfl

theorem reach_idle (h : ∀ i < k, ∃ bytes, source i = .chunk bytes) :
    ∃ ls s, Run (step source) unguarded init ls s ∧ s.nextTask = none ∧
      s.tasks = doneTasks source k ∧ s.at_ = .suspended := by
  induction k with
  | zero => exact ⟨[], init, .nil init, rfl, rfl, rfl⟩
  | succ k ih =>
      obtain ⟨ls, s, hrun, htask, htasks, hat⟩ := ih fun i hi => h i (by omega)
      obtain ⟨ls, t, hrun, hat, htask, htasks⟩ := reach_waiting hrun htask htasks hat
      obtain ⟨bytes, hbytes⟩ := h k (Nat.lt_succ_self k)
      have hdeliver : step source t (.deliver 0) = some (t.settle 0 (.chunk bytes)) := by
        unfold step
        dsimp only
        rw [if_pos hat, finished_of_done htask htasks, hbytes]
        rfl
      exact ⟨ls ++ [.deliver 0], t.settle 0 (.chunk bytes),
        run_append.mpr ⟨t, hrun, .cons hdeliver trivial (.nil _)⟩, rfl, htasks, rfl⟩

/-- **Heartbeats are transparent** exactly for the sources that do not raise a timeout themselves. -/
theorem transparent_iff (source : Nat → Given) :
    (∀ ls s, Run (step source) unguarded init ls s → Transparent source s) ↔
      NeverTimesOut source := by
  constructor
  · intro h k hprefix htimeout
    obtain ⟨ls, s, hrun, htask, htasks, hat⟩ := reach_idle hprefix
    obtain ⟨ls, t, hrun, hat, htask, htasks⟩ := reach_waiting hrun htask htasks hat
    have hfinished := finished_of_done htask htasks
    rw [htimeout] at hfinished
    have hdeliver : step source t (.deliver 0) = some (t.ping 0) := by
      unfold step
      dsimp only
      rw [if_pos hat, hfinished]
      rfl
    have hpass := (h ls t hrun).passesOn 0 _ _ _ hfinished (.inr rfl) hdeliver
    cases hpass.1
  · intro h ls s hrun
    obtain ⟨k, hk⟩ := aligned_run hrun
    exact hk.transparent h

end

/-- A source that times out at once. -/
def timesOut : Nat → Given := fun _ => .raised .timeoutError

/-- **The generator sends a ping, and the source has ended.** -/
theorem not_transparent_timesOut :
    ¬ ∀ ls s, Run (step timesOut) unguarded init ls s → Transparent timesOut s := by
  intro h
  have hrun : Run (step timesOut) unguarded init [.resume 0, .finish 0]
      ⟨[some (.raised .timeoutError)], some 0, .waiting, []⟩ := run_of_exec rfl
  have hpass := (h _ _ hrun).passesOn 0 (.raised .timeoutError) (.deliver 0) _ rfl (.inr rfl) rfl
  cases hpass.1

end ExecRestApi.Heartbeat
