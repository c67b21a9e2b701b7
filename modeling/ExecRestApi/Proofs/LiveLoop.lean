/-
The live loop is what `Stream.step` makes of it.

The machine of `Model/Streams` knows neither tasks nor generators: it is listening, and
then an event or a ping is there.  The coroutines of `Model/LiveLoop` refine it.  A call
of `__anext__` that ends is nothing the machine sees; the event is there when the
generator yields its frame.  The generator makes a ping of every timeout, also of one of
its source, but `to_bytes` raises none.

`Sim` relates a state of the coroutines to the state of the machine it stands for, and
`related_step` says that a step of the former is one step of the latter or none.  What is shown
for the machine in `Proofs/LiveFrames.lean` then holds of the loop in the source.
-/
import ExecRestApi.Lib.Simulation
import ExecRestApi.Model.LiveLoop
import ExecRestApi.Proofs.Heartbeat
import ExecRestApi.Proofs.SseFraming
import ExecRestApi.Proofs.Streams

namespace ExecRestApi

open Py Transition Heartbeat

namespace LiveLoop

/-- The event that is taken in a moment. -/
def itemOf : Moment → Option StreamEvent
  | .woke (.item ev) _ => some ev
  | _ => none

/-- The frame that is written in a moment. -/
def frameWritten : Moment → Option SseFrame
  | .returned (.io (.write frame)) (.ok _) => some frame
  | _ => none

theorem filterMap_one {α β : Type} (f : α → Option β) (x : α) : [x].filterMap f = (f x).toList := by
  cases h : f x <;> simp [h]

/-- The first events. -/
def firsts (events : Nat → StreamEvent) (k : Nat) : List StreamEvent := (List.range k).map events

theorem firsts_succ (events : Nat → StreamEvent) (k : Nat) :
    firsts events (k + 1) = firsts events k ++ [events k] := by
  rw [firsts, List.range_succ, List.map_append]
  rfl

theorem endedBy_succ (s : Stream) (events : Nat → StreamEvent) (k : Nat) :
    s.endedBy events (k + 1) = (s.endedBy events k || !s.goesOn (events k)) := by
  rw [Stream.endedBy, List.range_succ, List.all_append, Bool.not_and, ← Stream.endedBy]
  simp

/-- The call of `__anext__` with this number has ended. -/
def hasEnded (g : Heartbeat) (n : Nat) : Bool := (g.tasks[n]?).join.isSome

/-- The first `k` calls of `__anext__` have ended, an event was there for each, and there is one
more at most. -/
structure Served (s : Stream) (events : Nat → StreamEvent) (g : Heartbeat) (k : Nat) : Prop where
  given : ∀ n < k, hasEnded g n = true ∧ s.endedBy events n = false
  most : g.tasks.length ≤ k + 1

/-- The machine and the coroutines stand at the same place, after the events that were taken. -/
inductive Sim (s : Stream) (events : Nat → StreamEvent) :
    List StreamEvent → LiveLoop → At → Prop where
  | next {c : LiveLoop} {k : Nat} (h : Aligned (s.toBytes events) c.generator k)
      (hg : c.generator.at_ = .waiting) (hat : c.at_ = .next) :
      Sim s events (firsts events k) c (.listening (s.endedBy events k))
  | write {c : LiveLoop} {k : Nat} {frame : SseFrame}
      (h : Aligned (s.toBytes events) c.generator k) (hg : c.generator.at_ = .suspended)
      (hat : c.at_ = .write frame.bytes) :
      Sim s events (firsts events k) c (.writing (s.endedBy events k) frame)
  | aclose {c : LiveLoop} {k : Nat} {out : Left} (h : Served s events c.generator k)
      (hat : c.at_ = .aclose out) :
      Sim s events (firsts events k) c (.closing out)
  | left {c : LiveLoop} {k : Nat} {out : Left} (h : Served s events c.generator k)
      (hat : c.at_ = .left out) :
      Sim s events (firsts events k) c (.left out)

/-! ### The generator

The heartbeat is used as it is in `Proofs/Heartbeat.lean`, with `to_bytes` as its source: a
chunk is the frame of an event or the exception that formatting it has raised.
-/

section

variable {s : Stream} {events : Nat → StreamEvent} {c : LiveLoop} {g : Heartbeat} {k : Nat}

theorem aligned_count {source : Nat → Given} (h : Aligned source g k) :
    k = (chunksOf g.output).length := by
  have := congrArg List.length h.chunks
  rw [List.length_map, List.length_map, List.length_range] at this
  exact this.symm

theorem hasEnded_of_done {source : Nat → Given} {n m : Nat} (more : List (Option Given)) (hn : n < m)
    (htasks : g.tasks = doneTasks source m ++ more) : hasEnded g n = true := by
  rw [hasEnded, htasks, List.getElem?_append_left (by rw [length_doneTasks]; exact hn), doneTasks,
    List.getElem?_map, List.getElem?_range hn]
  rfl

/-- The chunks of the generator come from as many calls. -/
theorem served_of_aligned (h : Aligned (s.toBytes events) g k) : Served s events g k := by
  refine ⟨fun n hn => ⟨?_, ?_⟩, ?_⟩
  · rcases h.place with ⟨-, htasks, -⟩ | ⟨-, htasks, -⟩ | ⟨-, htasks, -, -⟩
    · exact hasEnded_of_done [] hn (by rw [htasks, List.append_nil])
    · exact hasEnded_of_done _ hn htasks
    · exact hasEnded_of_done [] (Nat.lt_succ_of_lt hn) (by rw [htasks, List.append_nil])
  · have hmem : s.toBytes events n ∈ (List.range k).map (s.toBytes events) :=
      List.mem_map_of_mem (List.mem_range.mpr hn)
    rw [← h.chunks] at hmem
    obtain ⟨bytes, -, hbytes⟩ := List.mem_map.mp hmem
    rw [Stream.toBytes] at hbytes
    cases hended : s.endedBy events n with
    | false => rfl
    | true =>
        rw [hended] at hbytes
        cases hbytes
  · rcases h.place with ⟨-, htasks, -⟩ | ⟨-, htasks, -⟩ | ⟨-, htasks, -, -⟩
    · rw [htasks, length_doneTasks]
      exact Nat.le_succ k
    · rw [htasks, List.length_append, length_doneTasks]
      exact Nat.le_refl _
    · rw [htasks, length_doneTasks]

theorem Served.congr {g' : Heartbeat} (h : Served s events g k) (htasks : g'.tasks = g.tasks) :
    Served s events g' k := by
  refine ⟨fun n hn => ?_, by rw [htasks]; exact h.most⟩
  rw [hasEnded, htasks]
  exact h.given n hn

/-- The call that is settled has ended too. -/
theorem served_succ (h : Aligned (s.toBytes events) g k) {given : Given} (hs : g.finished = some given)
    (hgoing : s.endedBy events k = false) : Served s events g (k + 1) := by
  obtain ⟨-, -, htasks⟩ := h.of_finished hs
  refine ⟨fun n hn => ⟨hasEnded_of_done [] hn (by rw [htasks, List.append_nil]), ?_⟩, ?_⟩
  · rcases Nat.lt_succ_iff_lt_or_eq.mp hn with hlt | heq
    · exact ((served_of_aligned h).given n hlt).2
    · rw [heq, hgoing]
  · rw [htasks, length_doneTasks]
    exact Nat.le_succ _

/-- Rendering raises nothing but `ValueError`. -/
theorem renderParts_error {parts : FrameParts} {e : Exc} (h : renderParts parts = .error e) :
    e = .valueError := by
  rw [renderParts, formatEvent] at h
  split at h
  · cases h
  · injection h with h
    exact h.symm

theorem failed_eq (r : Raised) : Stream.failed r = .closing (leaving r) := by
  cases r with
  | exception e => cases e <;> rfl
  | cancelled => rfl

/-- The generator has yielded a frame. -/
theorem sim_deliver {chunk : Yielded} {frame : SseFrame} {output : List Yielded} (full : Bool)
    (h : Aligned (s.toBytes events) g k) (hg : g.at_ = .suspended)
    (hout : g.output = output ++ [chunk]) (hbytes : chunk.bytes = frame.bytes) :
    Sim s events (firsts events k) (c.react full g)
      (Stream.deliver (s.endedBy events k) full frame) := by
  have hreact : c.react full g = { c with
      generator := g, at_ := if full then .aclose .returned else .write frame.bytes } := by
    rw [react, hg, hout, List.getLast?_append, List.getLast?_singleton, ← hbytes]
    rfl
  rw [hreact, Stream.deliver]
  cases full with
  | true => exact .aclose (served_of_aligned h) rfl
  | false => exact .write h hg rfl

/-- The interval has expired. -/
theorem sim_ping (full : Bool) (now : Nat) (h : Aligned (s.toBytes events) g k)
    (hopen : g.nextTask ≠ none) :
    Sim s events (firsts events k) (c.react full (g.ping now))
      (s.wake (s.endedBy events k) full (.timeout now)) :=
  sim_deliver full (h.ping hopen now) rfl rfl rfl

/-- A chunk of the source is the next one. -/
theorem aligned_chunk {given : Given} {bytes : ByteArray} (now : Int)
    (h : Aligned (s.toBytes events) g k) (hs : g.finished = some given) (hgiven : given = .chunk bytes) :
    Aligned (s.toBytes events) (g.settle now (.chunk bytes)) (k + 1) := by
  rw [hgiven] at hs
  obtain ⟨k', h'⟩ := h.settle hs now
  have hcount := aligned_count h'
  rw [settle, chunksOf_chunk, List.length_append, List.length_singleton, ← aligned_count h] at hcount
  rwa [hcount] at h'

/-- A call of `to_bytes` has ended and the generator settles it. -/
theorem sim_settle {given : Given} (full : Bool) (now : Int) (h : Aligned (s.toBytes events) g k)
    (hs : g.finished = some given) : ∃ w,
      Sim s events (firsts events k ++ (itemOf (.woke w full)).toList)
        (c.react full (g.settle now given)) (s.wake (s.endedBy events k) full w) := by
  obtain ⟨hgiven, -, -⟩ := h.of_finished hs
  rw [Stream.toBytes] at hgiven
  cases hended : s.endedBy events k with
  | true =>
      rw [hended, if_pos rfl] at hgiven
      refine ⟨.ended, ?_⟩
      show Sim s events (firsts events k ++ []) _ _
      rw [hgiven, List.append_nil]
      exact .aclose ((served_of_aligned h).congr rfl) rfl
  | false =>
      rw [hended, if_neg Bool.false_ne_true] at hgiven
      refine ⟨.item (events k), ?_⟩
      have hnext := endedBy_succ s events k
      rw [hended, Bool.false_or] at hnext
      show Sim s events (firsts events k ++ [events k]) _ (s.turn full (events k))
      rw [← firsts_succ]
      -- the frame of the event, after which the source may have ended
      have hchunk : ∀ {frame : SseFrame} (fin : Bool), given = .chunk frame.bytes →
          s.goesOn (events k) = !fin → Sim s events (firsts events (k + 1))
            (c.react full (g.settle now given)) (Stream.deliver fin full frame) := by
        intro frame fin hframe hgoes
        rw [hgoes, Bool.not_not] at hnext
        rw [← hnext, hframe]
        exact sim_deliver full (aligned_chunk now h hs hframe) rfl rfl rfl
      rcases hev : events k with payload | _
      · rw [hev, Stream.rendered] at hgiven
        rw [Stream.turn]
        rcases hformat : s.formatter payload with e | parts
        · rw [hformat] at hgiven
          exact hchunk true hgiven (by rw [hev, Stream.goesOn, hformat]; rfl)
        · rw [hformat] at hgiven
          dsimp only at hgiven ⊢
          rcases hrender : renderParts parts with e | frame
          · rw [hrender] at hgiven
            dsimp only at hgiven ⊢
            rw [failed_eq, hgiven, settle, if_neg (by rw [renderParts_error hrender]; rintro ⟨⟩)]
            exact .aclose ((served_succ h hs hended).congr rfl) rfl
          · rw [hrender] at hgiven
            dsimp only at hgiven ⊢
            exact hchunk false hgiven
              (by rw [hev, Stream.goesOn, hformat]; simp [hrender, Except.toOption])
      · rw [hev] at hgiven
        exact hchunk false hgiven (by rw [hev]; rfl)

/-- The generator waits. -/
theorem sim_waiting (full : Bool) (h : Aligned (s.toBytes events) g k) (hg : g.at_ = .waiting) :
    Sim s events (firsts events k) (c.react full g) (.listening (s.endedBy events k)) := by
  have hreact : c.react full g = { c with generator := g, at_ := .next } := by
    rw [react, hg]
  rw [hreact]
  exact .next h hg rfl

/-- The loop asks for the next chunk: it is there, or the generator waits. -/
theorem sim_enter (full : Bool) (now : Int) (h : Aligned (s.toBytes events) g k) :
    ∃ ms b, Run s.step unguarded (.listening (s.endedBy events k)) ms b
      ∧ ms.filterMap frameWritten = []
      ∧ Sim s events (firsts events k ++ ms.filterMap itemOf) (c.react full (g.enter now)) b := by
  have hwait : (g.enter now).at_ = .waiting → (g.enter now).output = g.output →
      Sim s events (firsts events k) (c.react full (g.enter now))
        (.listening (s.endedBy events k)) := by
    intro hat hout
    obtain ⟨k', h'⟩ := h.enter now
    have hcount := aligned_count h'
    rw [hout, ← aligned_count h] at hcount
    rw [hcount] at h'
    exact sim_waiting full h' hat
  have hnone : ∀ {c' : LiveLoop}, Sim s events (firsts events k) c' (.listening (s.endedBy events k)) →
      ∃ ms b, Run s.step unguarded (.listening (s.endedBy events k)) ms b
        ∧ ms.filterMap frameWritten = []
        ∧ Sim s events (firsts events k ++ ms.filterMap itemOf) c' b := by
    intro c' hsim
    exact ⟨[], _, .nil _, rfl, by rwa [List.filterMap_nil, List.append_nil]⟩
  rcases htask : g.nextTask with _ | n
  · exact hnone (hwait (by rw [enter, htask]) (by rw [enter, htask]))
  · rcases hs : g.finished with _ | given
    · exact hnone (hwait (by rw [enter, htask, hs]) (by rw [enter, htask, hs]))
    · obtain ⟨w, hsim⟩ := sim_settle (c := c) full now h hs
      have henter : g.enter now = g.settle now given := by
        rw [enter, htask]
        dsimp only
        rw [hs]
      refine ⟨[.woke w full], _, .cons rfl trivial (.nil _), rfl, ?_⟩
      rwa [henter, filterMap_one]

/-- A generator that waits has asked for an event. -/
theorem nextTask_of_waiting {source : Nat → Given} (h : Aligned source g k) (hg : g.at_ = .waiting) :
    g.nextTask ≠ none := by
  rcases h.place with ⟨-, -, hat⟩ | ⟨htask, -, -⟩ | ⟨htask, -, -, -⟩
  · rw [hg] at hat
    cases hat
  · rw [htask]
    rintro ⟨⟩
  · rw [htask]
    rintro ⟨⟩

end

/-! ### The loop

The loop asks the generator for its next chunk and writes it.  It closes the generator when a
write fails or the client is too slow, and that is where the machine leaves as well.
-/

/-- The coroutines and the machine, with all the machine has done. -/
def Related (s : Stream) (events : Nat → StreamEvent) (ms : List Moment) (c : LiveLoop) (a : At) :
    Prop :=
  Sim s events (ms.filterMap itemOf) c a ∧ (ms.filterMap frameWritten).map SseFrame.bytes = c.sent

section

variable {s : Stream} {events : Nat → StreamEvent} {ms : List Moment} {c c' : LiveLoop} {a : At}

/-- The machine takes one step, in which nothing is written. -/
theorem related_one (h : Related s events ms c a) {m : Moment} {b : At} (hstep : s.step a m = some b)
    (hm : frameWritten m = none) (hsent : c'.sent = c.sent)
    (hsim : Sim s events (ms.filterMap itemOf ++ (itemOf m).toList) c' b) :
    ∃ ms' b, Run s.step unguarded a ms' b ∧ Related s events (ms ++ ms') c' b := by
  refine ⟨[m], b, .cons hstep trivial (.nil _), ?_, ?_⟩
  · rwa [List.filterMap_append, filterMap_one]
  · rw [List.filterMap_append, filterMap_one, hm, Option.toList_none, List.append_nil, hsent, h.2]

theorem sent_react (c : LiveLoop) (full : Bool) (g : Heartbeat) : (c.react full g).sent = c.sent := by
  rw [react]
  split <;> rfl

theorem Sim.of_next {items : List StreamEvent} (h : Sim s events items c a) (hat : c.at_ = .next) :
    ∃ k, items = firsts events k ∧ a = .listening (s.endedBy events k)
      ∧ Aligned (s.toBytes events) c.generator k ∧ c.generator.at_ = .waiting := by
  cases h with
  | next hk hwait _ => exact ⟨_, rfl, rfl, hk, hwait⟩
  | write _ _ h => cases hat.symm.trans h
  | aclose _ h => cases hat.symm.trans h
  | left _ h => cases hat.symm.trans h

theorem Sim.of_write {items : List StreamEvent} {chunk : ByteArray} (h : Sim s events items c a)
    (hat : c.at_ = .write chunk) :
    ∃ k frame, items = firsts events k ∧ a = .writing (s.endedBy events k) frame
      ∧ chunk = frame.bytes ∧ Aligned (s.toBytes events) c.generator k
      ∧ c.generator.at_ = .suspended := by
  cases h with
  | write hk hsus h =>
      injection hat.symm.trans h with hchunk
      exact ⟨_, _, rfl, rfl, hchunk, hk, hsus⟩
  | next _ _ h => cases hat.symm.trans h
  | aclose _ h => cases hat.symm.trans h
  | left _ h => cases hat.symm.trans h

theorem Sim.of_aclose {items : List StreamEvent} {out : Left} (h : Sim s events items c a)
    (hat : c.at_ = .aclose out) :
    ∃ k, items = firsts events k ∧ a = .closing out ∧ Served s events c.generator k := by
  cases h with
  | aclose hk h =>
      injection hat.symm.trans h with hout
      exact ⟨_, rfl, by rw [hout], hk⟩
  | next _ _ h => cases hat.symm.trans h
  | write _ _ h => cases hat.symm.trans h
  | left _ h => cases hat.symm.trans h

theorem served_finish {g : Heartbeat} {k n : Nat} {given : Given} (h : Served s events g k)
    (hn : g.tasks[n]? = some none) : Served s events { g with tasks := g.tasks.set n (some given) } k := by
  refine ⟨fun i hi => ⟨?_, (h.given i hi).2⟩, by rw [List.length_set]; exact h.most⟩
  have hne : n ≠ i := by
    intro hni
    have := (h.given i hi).1
    rw [hasEnded, ← hni, hn] at this
    cases this
  rw [hasEnded, List.getElem?_set_ne hne]
  exact (h.given i hi).1

/-- A call of `__anext__` that ends changes nothing the machine knows of. -/
theorem sim_finish {items : List StreamEvent} {g : Heartbeat} {n : Nat}
    (h : Sim s events items c a)
    (hg : c.generator.step (s.toBytes events) (.finish n) = some g) :
    Sim s events items { c with generator := g } a := by
  rw [Heartbeat.step] at hg
  split at hg
  · rename_i hn
    injection hg with hg
    rw [← hg]
    cases h with
    | next hk hwait hat => exact .next (hk.finish hn) hwait hat
    | write hk hsus hat => exact .write (hk.finish hn) hsus hat
    | aclose hk hat => exact .aclose (served_finish hk hn) hat
    | left hk hat => exact .left (served_finish hk hn) hat
  · cases hg

/-- **Each step of the coroutines is nothing, or some steps of the machine.** -/
theorem related_step {op : Op} (h : Related s events ms c a) (hs : c.step s events op = some c') :
    ∃ ms' b, Run s.step unguarded a ms' b ∧ Related s events (ms ++ ms') c' b := by
  cases op with
  | finish n =>
      obtain ⟨g, hg, rfl⟩ := Option.map_eq_some_iff.mp hs
      exact ⟨[], a, .nil a, by rw [List.append_nil]; exact ⟨sim_finish h.1 hg, h.2⟩⟩
  | deliver now full =>
      rw [step] at hs
      split at hs
      · rename_i hat
        obtain ⟨k, hitems, rfl, hk, hwait⟩ := h.1.of_next hat
        obtain ⟨g, hg, rfl⟩ := Option.map_eq_some_iff.mp hs
        rw [Heartbeat.step, if_pos hwait] at hg
        obtain ⟨given, hfin, rfl⟩ := Option.map_eq_some_iff.mp hg
        obtain ⟨w, hw⟩ := sim_settle (c := c) full now hk hfin
        rw [← hitems] at hw
        exact related_one h rfl rfl (sent_react c full _) hw
      · cases hs
  | expire now full =>
      rw [step] at hs
      split at hs
      · rename_i hat
        obtain ⟨k, hitems, rfl, hk, hwait⟩ := h.1.of_next hat
        obtain ⟨g, hg, rfl⟩ := Option.map_eq_some_iff.mp hs
        rw [Heartbeat.step, if_pos hwait] at hg
        injection hg with hg
        have hping := sim_ping (c := c) full now hk (nextTask_of_waiting hk hwait)
        rw [← hitems, hg, ← List.append_nil (ms.filterMap itemOf)] at hping
        exact related_one (m := .woke (.timeout now) full) h rfl rfl (sent_react c full _) hping
      · cases hs
  | cancel =>
      rw [step] at hs
      split at hs
      · rename_i hat
        obtain ⟨k, hitems, rfl, hk, -⟩ := h.1.of_next hat
        injection hs with hs
        rw [← hs]
        refine related_one (m := .woke (.raised .cancelled) false) h rfl rfl rfl ?_
        show Sim s events (ms.filterMap itemOf ++ []) _ _
        rw [List.append_nil, hitems]
        exact .aclose (served_of_aligned hk) rfl
      · cases hs
  | wrote r now full =>
      unfold step at hs
      dsimp only at hs
      split at hs
      · rename_i chunk v hat
        obtain ⟨k, frame, hitems, rfl, rfl, hk, hsus⟩ := h.1.of_write hat
        obtain ⟨g, hg, rfl⟩ := Option.map_eq_some_iff.mp hs
        rw [Heartbeat.step, if_pos hsus] at hg
        injection hg with hg
        rw [← hg]
        obtain ⟨ms', b, hrun, hnone, hsim⟩ := sim_enter
          (c := { c with sent := c.sent ++ [frame.bytes] }) full now hk
        refine ⟨.returned (.io (.write frame)) (.ok v) :: ms', b,
          .cons (Stream.step_of_awaiting rfl) trivial hrun, ?_, ?_⟩
        · rw [List.filterMap_append, hitems]
          exact hsim
        · rw [sent_react, List.filterMap_append, List.map_append, h.2]
          show c.sent ++ (frame :: ms'.filterMap frameWritten).map SseFrame.bytes = _
          rw [hnone]
          rfl
      · rename_i chunk r hat
        obtain ⟨k, frame, hitems, rfl, -, hk, -⟩ := h.1.of_write hat
        injection hs with hs
        rw [← hs]
        refine related_one (m := .returned (.io (.write frame)) (.error r)) h
          (Stream.step_of_awaiting rfl) rfl rfl ?_
        show Sim s events (ms.filterMap itemOf ++ []) _ (Stream.failed r)
        rw [List.append_nil, hitems, failed_eq]
        exact .aclose (served_of_aligned hk) rfl
      · cases hs
  | closed r =>
      unfold step at hs
      dsimp only at hs
      split at hs
      · rename_i out v hat
        obtain ⟨k, hitems, rfl, hk⟩ := h.1.of_aclose hat
        injection hs with hs
        rw [← hs]
        refine related_one (m := .returned .aclose (.ok v)) (b := .left out) h
          (Stream.step_of_awaiting rfl) rfl rfl ?_
        show Sim s events (ms.filterMap itemOf ++ []) _ (.left out)
        rw [List.append_nil, hitems]
        exact .left hk rfl
      · rename_i out r hat
        obtain ⟨k, hitems, rfl, hk⟩ := h.1.of_aclose hat
        injection hs with hs
        rw [← hs]
        refine related_one (m := .returned .aclose (.error r)) (b := .left (.raised r)) h
          (Stream.step_of_awaiting rfl) rfl rfl ?_
        show Sim s events (ms.filterMap itemOf ++ []) _ (.left (.raised r))
        rw [List.append_nil, hitems]
        exact .left hk rfl
      · cases hs

end

/-! ### The calls of `__anext__`

The tasks are the calls of the source in order.  Which of them have ended is all that ties the
generator to the queue of the stream.
-/

section

variable {source : Nat → Given} {g g' : Heartbeat} {i n : Nat}

theorem tasks_settle (g : Heartbeat) (now : Int) (given : Given) :
    (g.settle now given).tasks = g.tasks := by
  unfold settle
  split
  · rfl
  · rfl
  · split <;> rfl

theorem hasEnded_append_none (g : Heartbeat) (i : Nat) :
    ((g.tasks ++ [none])[i]?).join.isSome = hasEnded g i := by
  rw [hasEnded]
  rcases Nat.lt_or_ge i g.tasks.length with hlt | hge
  · rw [List.getElem?_append_left hlt]
  · rw [List.getElem?_append_right hge, List.getElem?_eq_none hge]
    rcases i - g.tasks.length with _ | d <;> rfl

/-- The generator itself ends no call. -/
theorem hasEnded_step {l : Heartbeat.Op} (h : g.step source l = some g')
    (hl : ∀ n, l ≠ .finish n) : hasEnded g' i = hasEnded g i := by
  cases l with
  | finish n => exact absurd rfl (hl n)
  | resume now =>
      rw [Heartbeat.step] at h
      split at h
      · injection h with h
        rw [← h]
        unfold enter
        split
        · exact hasEnded_append_none g i
        · split
          · rw [hasEnded, tasks_settle, hasEnded]
          · rfl
      · cases h
  | deliver now =>
      rw [Heartbeat.step] at h
      split at h
      · obtain ⟨given, -, rfl⟩ := Option.map_eq_some_iff.mp h
        rw [hasEnded, tasks_settle, hasEnded]
      · cases h
  | expire now =>
      rw [Heartbeat.step] at h
      split at h
      · injection h with h
        rw [← h]
        rfl
      · cases h

/-- A call that ends was running, and it is the only one. -/
theorem hasEnded_finish {k : Nat} (hk : Aligned source g k) (h : g.step source (.finish n) = some g') :
    hasEnded g n = false ∧ (∀ i < n, hasEnded g i = true) ∧
      ∀ i, hasEnded g' i = true ↔ i = n ∨ hasEnded g i = true := by
  rw [Heartbeat.step] at h
  split at h
  · rename_i hn
    injection h with h
    refine ⟨by rw [hasEnded, hn]; rfl, ?_, ?_⟩
    · intro i hi
      rcases hk.place with ⟨-, htasks, -⟩ | ⟨-, htasks, -⟩ | ⟨-, htasks, -, -⟩
      · exact hasEnded_of_done (m := k) [] (by
          have := (List.getElem?_eq_some_iff.mp hn).1
          rw [htasks, length_doneTasks] at this
          omega) (by rw [htasks, List.append_nil])
      · exact hasEnded_of_done (m := k) _ (by
          have := (List.getElem?_eq_some_iff.mp hn).1
          rw [htasks, List.length_append, length_doneTasks, List.length_singleton] at this
          omega) htasks
      · exact hasEnded_of_done (m := k + 1) [] (by
          have := (List.getElem?_eq_some_iff.mp hn).1
          rw [htasks, length_doneTasks] at this
          omega) (by rw [htasks, List.append_nil])
    · intro i
      rw [← h, hasEnded]
      by_cases hi : i = n
      · rw [hi, List.getElem?_set_self (List.getElem?_eq_some_iff.mp hn).1]
        simp
      · rw [List.getElem?_set_ne (Ne.symm hi), ← hasEnded]
        simp [hi]
  · cases h

/-- What a step of the loop does to its generator. -/
theorem generator_step {s : Stream} {events : Nat → StreamEvent} {c c' : LiveLoop} {op : Op}
    (h : c.step s events op = some c') : c'.generator = c.generator ∨
      ∃ l, c.generator.step (s.toBytes events) l = some c'.generator
        ∧ ((∃ n, op = .finish n ∧ l = .finish n) ∨ (∀ n, op ≠ .finish n) ∧ ∀ n, l ≠ .finish n) := by
  have hreact : ∀ (c : LiveLoop) (full : Bool) (g : Heartbeat), (c.react full g).generator = g := by
    intro c full g
    rw [react]
    split <;> rfl
  unfold step at h
  cases op with
  | finish n =>
      obtain ⟨g, hg, rfl⟩ := Option.map_eq_some_iff.mp h
      exact .inr ⟨_, hg, .inl ⟨n, rfl, rfl⟩⟩
  | deliver now full =>
      dsimp only at h
      split at h
      · obtain ⟨g, hg, rfl⟩ := Option.map_eq_some_iff.mp h
        exact .inr ⟨_, by rw [hreact]; exact hg, .inr ⟨by rintro n ⟨⟩, by rintro n ⟨⟩⟩⟩
      · cases h
  | expire now full =>
      dsimp only at h
      split at h
      · obtain ⟨g, hg, rfl⟩ := Option.map_eq_some_iff.mp h
        exact .inr ⟨_, by rw [hreact]; exact hg, .inr ⟨by rintro n ⟨⟩, by rintro n ⟨⟩⟩⟩
      · cases h
  | cancel =>
      dsimp only at h
      split at h
      · injection h with h
        exact .inl (by rw [← h])
      · cases h
  | wrote r now full =>
      dsimp only at h
      split at h
      · obtain ⟨g, hg, rfl⟩ := Option.map_eq_some_iff.mp h
        exact .inr ⟨_, by rw [hreact]; exact hg, .inr ⟨by rintro n ⟨⟩, by rintro n ⟨⟩⟩⟩
      · injection h with h
        exact .inl (by rw [← h])
      · cases h
  | closed r =>
      dsimp only at h
      split at h
      · injection h with h
        exact .inl (by rw [← h])
      · injection h with h
        exact .inl (by rw [← h])
      · cases h

end

/-! ### The refinement

Related states stand at the same `await` and have written the same frames.  That carries over
to runs by induction, since the steps that the machine does not see leave the relation alone.
-/

/-- Where the machine stands when the loop stands at `l`. -/
def StandsAt : LoopAt → At → Prop
  | .next, a => ∃ finished, a = .listening finished
  | .write chunk, a => ∃ finished frame, a = .writing finished frame ∧ frame.bytes = chunk
  | .aclose out, a => a = .closing out
  | .left out, a => a = .left out

theorem Sim.standsAt {s : Stream} {events : Nat → StreamEvent} {items : List StreamEvent}
    {c : LiveLoop} {a : At} (h : Sim s events items c a) : StandsAt c.at_ a := by
  cases h with
  | next _ _ hat => rw [hat]; exact ⟨_, rfl⟩
  | write _ _ hat => rw [hat]; exact ⟨_, _, rfl, rfl⟩
  | aclose _ hat => rw [hat]; rfl
  | left _ hat => rw [hat]; rfl

theorem Sim.served {s : Stream} {events : Nat → StreamEvent} {items : List StreamEvent}
    {c : LiveLoop} {a : At} (h : Sim s events items c a) :
    ∃ k, items = firsts events k ∧ Served s events c.generator k := by
  cases h with
  | next hk _ _ => exact ⟨_, rfl, served_of_aligned hk⟩
  | write hk _ _ => exact ⟨_, rfl, served_of_aligned hk⟩
  | aclose hk _ => exact ⟨_, rfl, hk⟩
  | left hk _ => exact ⟨_, rfl, hk⟩

theorem related_start (s : Stream) (events : Nat → StreamEvent) :
    Related s events [] start (.listening false) := by
  refine ⟨?_, rfl⟩
  have hinit : Aligned (s.toBytes events) Heartbeat.init 0 := aligned_init
  obtain ⟨k, hk⟩ := hinit.enter 0
  have hzero : k = 0 := aligned_count hk
  rw [hzero] at hk
  show Sim s events (firsts events 0) start (.listening (s.endedBy events 0))
  exact .next hk rfl rfl

theorem related_of_run {s : Stream} {events : Nat → StreamEvent} {ops : List Op} {c : LiveLoop}
    (h : Run (step s events) unguarded start ops c) :
    ∃ ms a, Run s.step unguarded (.listening false) ms a ∧ Related s events ms c a :=
  h.simulates_history (fun _ _ _ _ _ hrel _ hs => related_step hrel hs) (related_start s events)

/-- **The coroutines of the live loop refine the machine**: whatever the schedule, what has been
written is what the machine writes, frame by frame, after it has taken the same events in the
same order, each of them given by a call that has ended. -/
theorem live_loop_refines (s : Stream) (events : Nat → StreamEvent) {ops : List Op} {c : LiveLoop}
    (h : Run (step s events) unguarded start ops c) :
    ∃ ms a, Run s.step unguarded (.listening false) ms a ∧ StandsAt c.at_ a
      ∧ (∃ k, ms.filterMap itemOf = firsts events k ∧ Served s events c.generator k)
      ∧ (ms.filterMap frameWritten).map SseFrame.bytes = c.sent := by
  obtain ⟨ms, a, hrun, hsim, hsent⟩ := related_of_run h
  exact ⟨ms, a, hrun, hsim.standsAt, hsim.served, hsent⟩

/-- An event is there before the interval has expired, then a ping. -/
def servedOnce : List Op :=
  [.finish 0, .deliver 1 false, .wrote (.ok .null) 2 false, .expire 3 false]

theorem live_loop_refines_once : ∃ ms a,
    Run (Stream.syncStatus none).step unguarded (.listening false) ms a
      ∧ (ms.filterMap frameWritten).map SseFrame.bytes
        = [(SseFrame.event "sync-status" none (.obj [("syncing", .bool false)])).bytes] := by
  have hrun : exec (step (Stream.syncStatus none) fun _ => .event (.bool false)) start servedOnce
      = some ((exec (step (Stream.syncStatus none) fun _ => .event (.bool false)) start
        servedOnce).getD start) := by
    rfl
  obtain ⟨ms, a, hms, -, -, hsent⟩ := live_loop_refines _ _ (run_of_exec hrun)
  exact ⟨ms, a, hms, hsent⟩

end LiveLoop

end ExecRestApi
