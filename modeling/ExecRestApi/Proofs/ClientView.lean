/-
What the client of a stream is shown.

Two refinements meet here.  The manager is a bus, so what its owner reads from a stream is
what was published on its topic (`stream_delivery`).  The live loop writes the frames of
what it is given, in order (`live_loop_refines`, `live_frames`).  What the client's parser
makes of the bytes is then what was published, shown frame by frame.

The two run side by side and meet in one step: the loop takes what the manager has queued for
its stream.  A run of the whole is a run of each of the two on its own (`run_managed`,
`run_proceeded`), and what the one has been read for is what the other has been given.
-/
import ExecRestApi.Model.Subscriber
import ExecRestApi.Proofs.Formatters
import ExecRestApi.Proofs.LiveFrames
import ExecRestApi.Proofs.ManagerBus

namespace ExecRestApi

open Py Transition

namespace Subscriber

/-- What happens to the manager. -/
def managed (k : Nat) (events : Nat → StreamEvent) : Op → Option (Bool × Manager.Op)
  | .manage connected op => some (connected, op)
  | .proceed _ => none
  | .take connected n => some (connected, .read k (events n))

/-- The steps of the manager. -/
def managerSteps (k : Nat) (events : Nat → StreamEvent) (ls : List Op) : List (Bool × Manager.Op) :=
  ls.filterMap (managed k events)

/-- What happens to the loop. -/
def proceeded : Op → Option LiveLoop.Op
  | .manage _ _ => none
  | .proceed op => some op
  | .take _ n => some (.finish n)

/-- The stream is not closed. -/
def Open (k : Nat) (_ : Subscriber) : Op → Prop
  | .manage _ op => op ≠ .aclose k
  | _ => True

section

variable {s : Stream} {k : Nat} {events : Nat → StreamEvent} {x x' : Subscriber} {op : Op}

theorem step_manage {connected : Bool} {mop : Manager.Op}
    (h : x.step s k events (.manage connected mop) = some x') :
    isRead k mop = false ∧ x.mgr.step (connected, mop) = some x'.mgr ∧ x'.loop = x.loop := by
  rw [step] at h
  split at h
  · cases h
  · rename_i hread
    obtain ⟨m, hm, rfl⟩ := Option.map_eq_some_iff.mp h
    exact ⟨by simpa using hread, hm, rfl⟩

theorem step_proceed {lop : LiveLoop.Op} (h : x.step s k events (.proceed lop) = some x') :
    isGiven s events lop = false ∧ x.loop.step s events lop = some x'.loop ∧ x'.mgr = x.mgr := by
  rw [step] at h
  split at h
  · cases h
  · rename_i hgiven
    obtain ⟨c, hc, rfl⟩ := Option.map_eq_some_iff.mp h
    exact ⟨by simpa using hgiven, hc, rfl⟩

theorem step_take {connected : Bool} {n : Nat} (h : x.step s k events (.take connected n) = some x') :
    s.endedBy events n = false ∧ x.mgr.step (connected, .read k (events n)) = some x'.mgr
      ∧ x.loop.step s events (.finish n) = some x'.loop := by
  rw [step] at h
  split at h
  · cases h
  · rename_i hended
    split at h
    · rename_i m c hm hc
      injection h with h
      rw [← h]
      exact ⟨by simpa using hended, hm, hc⟩
    · cases h

/-- The manager runs as it does on its own. -/
theorem run_managed {ls : List Op} (h : Run (step s k events) (Open k) x ls x') :
    Run Manager.step (fun _ e => e.2 ≠ .aclose k) x.mgr (managerSteps k events ls) x'.mgr := by
  refine h.project (π := mgr) ?_
  intro x op x' hopen hs
  cases op with
  | manage connected mop => exact .inr ⟨_, rfl, hopen, (step_manage hs).2.1⟩
  | proceed lop => exact .inl ⟨rfl, (step_proceed hs).2.2⟩
  | take connected n => exact .inr ⟨_, rfl, by rintro ⟨⟩, (step_take hs).2.1⟩

/-- So does the loop. -/
theorem run_proceeded {ls : List Op} (h : Run (step s k events) (Open k) x ls x') :
    Run (LiveLoop.step s events) unguarded x.loop (ls.filterMap proceeded) x'.loop := by
  refine h.project (π := loop) ?_
  intro x op x' _ hs
  cases op with
  | manage connected mop => exact .inl ⟨rfl, (step_manage hs).2.2⟩
  | proceed lop => exact .inr ⟨_, rfl, trivial, (step_proceed hs).2.1⟩
  | take connected n => exact .inr ⟨_, rfl, trivial, (step_take hs).2.2⟩

/-- What the owner has read are the first events, those of the calls that have ended. -/
def Reads (s : Stream) (k : Nat) (events : Nat → StreamEvent) (ls : List Op) (x : Subscriber) : Prop :=
  (∃ n, Heartbeat.Aligned (s.toBytes events) x.loop.generator n) ∧
    ∃ j, Manager.reads k (managerSteps k events ls) = LiveLoop.firsts events j
      ∧ ∀ i, i < j ↔ LiveLoop.hasEnded x.loop.generator i = true ∧ s.endedBy events i = false

theorem endedBy_mono {i n : Nat} (h : i ≤ n) (hn : s.endedBy events n = false) :
    s.endedBy events i = false := by
  obtain ⟨d, rfl⟩ := Nat.exists_eq_add_of_le h
  induction d with
  | zero => exact hn
  | succ d ih =>
      rw [Nat.add_succ, LiveLoop.endedBy_succ, Bool.or_eq_false_iff] at hn
      exact ih (Nat.le_add_right ..) hn.1

theorem reads_append (k : Nat) (ls : List (Bool × Manager.Op)) (e : Bool × Manager.Op) :
    Manager.reads k (ls ++ [e]) = Manager.reads k ls ++ Manager.readBy k e := by
  rw [Manager.reads, List.flatMap_append, ← Manager.reads]
  simp

theorem readBy_eq_nil {connected : Bool} {mop : Manager.Op} (h : isRead k mop = false) :
    Manager.readBy k (connected, mop) = [] := by
  cases mop with
  | read j ev =>
      rw [isRead, decide_eq_false_iff_not] at h
      rw [Manager.readBy, if_neg h]
  | _ => rfl

theorem reads_step {ls : List Op} (h : Reads s k events ls x) (hs : x.step s k events op = some x') :
    Reads s k events (ls ++ [op]) x' := by
  obtain ⟨⟨n, hn⟩, j, hreads, hj⟩ := h
  -- a step of the loop keeps its generator in order
  have haligned : ∀ {lop : LiveLoop.Op}, x.loop.step s events lop = some x'.loop →
      ∃ n, Heartbeat.Aligned (s.toBytes events) x'.loop.generator n := by
    intro lop hl
    rcases LiveLoop.generator_step hl with hsame | ⟨l, hl, -⟩
    · exact ⟨n, by rw [hsame]; exact hn⟩
    · exact Heartbeat.aligned_step ⟨n, hn⟩ hl
  rw [managerSteps] at hreads
  rw [Reads, managerSteps, List.filterMap_append]
  cases op with
  | manage connected mop =>
      obtain ⟨hread, -, hloop⟩ := step_manage hs
      refine ⟨⟨n, by rw [hloop]; exact hn⟩, j, ?_, by rw [hloop]; exact hj⟩
      show Manager.reads k (_ ++ [(connected, mop)]) = _
      rw [reads_append, hreads, readBy_eq_nil hread, List.append_nil]
  | proceed lop =>
      obtain ⟨hgiven, hl, -⟩ := step_proceed hs
      refine ⟨haligned hl, j, by rw [← hreads]; exact congrArg _ (List.append_nil _), ?_⟩
      rcases LiveLoop.generator_step hl with hsame | ⟨l, hg, ⟨i, hi, hi'⟩ | ⟨-, hother⟩⟩
      · rw [hsame]
        exact hj
      · -- a call of a `to_bytes` that has ended
        rw [hi, isGiven, Bool.not_eq_eq_eq_not, Bool.not_false] at hgiven
        rw [hi'] at hg
        obtain ⟨-, -, hiff⟩ := LiveLoop.hasEnded_finish hn hg
        intro i'
        rw [hj, hiff]
        constructor
        · exact fun ⟨h, h'⟩ => ⟨.inr h, h'⟩
        · rintro ⟨rfl | h, h'⟩
          · rw [hgiven] at h'
            cases h'
          · exact ⟨h, h'⟩
      · intro i
        rw [LiveLoop.hasEnded_step hg hother]
        exact hj i
  | take connected i =>
      obtain ⟨hended, hm, hl⟩ := step_take hs
      obtain ⟨g, hg, hloop⟩ := Option.map_eq_some_iff.mp hl
      obtain ⟨hrunning, hbefore, hiff⟩ := LiveLoop.hasEnded_finish hn hg
      have hij : i = j := by
        refine Nat.le_antisymm ?_ ?_
        · by_contra hlt
          have hlt : j < i := by omega
          have := (hj j).mpr ⟨hbefore j hlt, endedBy_mono (Nat.le_of_lt hlt) hended⟩
          omega
        · by_contra hlt
          have := ((hj i).mp (by omega)).1
          rw [hrunning] at this
          cases this
      refine ⟨haligned hl, j + 1, ?_, ?_⟩
      · show Manager.reads k (_ ++ [(connected, .read k (events i))]) = _
        rw [reads_append, hreads, Manager.readBy, if_pos rfl, LiveLoop.firsts_succ, hij]
      · intro i'
        rw [← hloop]
        show i' < j + 1 ↔ LiveLoop.hasEnded g i' = true ∧ _
        rw [hiff, Nat.lt_succ_iff_lt_or_eq, hj]
        constructor
        · rintro (⟨h, h'⟩ | rfl)
          · exact ⟨.inr h, h'⟩
          · exact ⟨.inl hij.symm, by rw [← hij]; exact hended⟩
        · rintro ⟨rfl | h, h'⟩
          · exact .inr hij
          · exact .inl ⟨h, h'⟩

theorem reads_run {ls : List Op} {m : Manager}
    (h : Run (step s k events) (Open k) ⟨m, LiveLoop.start⟩ ls x) : Reads s k events ls x := by
  refine h.recorded (fun ls x op x' hx _ hs => reads_step hx hs) ?_
  refine ⟨Heartbeat.aligned_init.enter 0, 0, rfl, ?_⟩
  intro i
  constructor
  · exact fun h => absurd h (Nat.not_lt_zero i)
  · rintro ⟨h, -⟩
    cases i with
    | zero => cases h
    | succ i => cases h

end

/-! ### The bytes

The parser works on the bytes of the whole response, and frames are whole in them, so it may be
asked frame by frame.  A ping is a comment and dispatches nothing, wherever it stands.
-/

/-- What the chunks are on the wire. -/
def joined : List ByteArray → ByteArray
  | [] => ByteArray.empty
  | chunk :: rest => chunk ++ joined rest

theorem joined_frames (frames : List SseFrame) :
    joined (frames.map SseFrame.bytes) = streamBytes frames := by
  induction frames with
  | nil => rfl
  | cons frame rest ih => rw [List.map_cons, joined, ih, streamBytes]

theorem streamBytes_append (frames frames' : List SseFrame) :
    streamBytes (frames ++ frames') = streamBytes frames ++ streamBytes frames' := by
  induction frames with
  | nil => exact (ByteArray.empty_append ..).symm
  | cons frame rest ih => rw [List.cons_append, streamBytes, ih, streamBytes, ByteArray.append_assoc]

/-- Pings dispatch nothing, wherever they are. -/
theorem dispatchedBy_content (lastId : List Char) (before frames : List SseFrame) :
    dispatchedBy lastId (before ++ frames)
      = dispatchedBy lastId (before ++ frames.filter Stream.isContent) := by
  induction before generalizing lastId with
  | nil =>
      induction frames generalizing lastId with
      | nil => rfl
      | cons frame rest ih =>
          have htail := ih (frame.idAfter lastId)
          rw [List.nil_append, List.nil_append] at htail ⊢
          cases hframe : Stream.isContent frame with
          | true =>
              rw [List.filter_cons_of_pos hframe, dispatchedBy, dispatchedBy, htail]
          | false =>
              rw [List.filter_cons_of_neg (by rw [hframe]; exact Bool.false_ne_true), dispatchedBy]
              cases frame with
              | comment text => exact htail
              | _ => cases hframe
  | cons frame rest ih =>
      rw [List.cons_append, List.cons_append, dispatchedBy, dispatchedBy, ih]

theorem firsts_begins (events : Nat → StreamEvent) {i j : Nat} (h : i ≤ j) :
    LiveLoop.firsts events i <+: LiveLoop.firsts events j := by
  obtain ⟨d, rfl⟩ := Nat.exists_eq_add_of_le h
  rw [LiveLoop.firsts, LiveLoop.firsts, List.range_add, List.map_append]
  exact List.prefix_append _ _

theorem mem_framesOf {s : Stream} {evs : List StreamEvent} {frame : SseFrame}
    (h : frame ∈ s.framesOf evs) : ∃ ev ∈ evs, s.shown ev = some frame := by
  induction evs with
  | nil => cases h
  | cons ev evs ih =>
      rw [Stream.framesOf] at h
      split at h
      · cases h
      · rename_i shown hshown
        rcases List.mem_cons.mp h with rfl | h
        · exact ⟨ev, List.mem_cons_self, hshown⟩
        · split at h
          · obtain ⟨ev', hev, hframe⟩ := ih h
            exact ⟨ev', List.mem_cons_of_mem _ hev, hframe⟩
          · cases h

/-- The loop has written the frames of what was read, but for two at most. -/
theorem shown_of_run {s : Stream} {k : Nat} {events : Nat → StreamEvent} {ls : List Op} {m : Manager}
    {x : Subscriber} (h : Run (step s k events) (Open k) ⟨m, LiveLoop.start⟩ ls x) :
    ∃ frames : List SseFrame, x.loop.sent = frames.map SseFrame.bytes
      ∧ frames.filter Stream.isContent <+: s.framesOf (Manager.reads k (managerSteps k events ls))
      ∧ (s.framesOf (Manager.reads k (managerSteps k events ls))).length
        ≤ (frames.filter Stream.isContent).length + 2 := by
  obtain ⟨ms, a, hrun, hsim, hsent⟩ := LiveLoop.related_of_run (run_proceeded h)
  obtain ⟨n, htaken, hserved⟩ := hsim.served
  obtain ⟨-, j, hreads, hj⟩ := reads_run h
  have hnj : n ≤ j := by
    cases n with
    | zero => exact Nat.zero_le _
    | succ n => exact (hj n).mpr (hserved.given n (Nat.lt_succ_self n))
  have hjn : j ≤ n + 1 := by
    cases j with
    | zero => exact Nat.zero_le _
    | succ j =>
        have hended := ((hj j).mp (Nat.lt_succ_self j)).1
        have hlt : j < x.loop.generator.tasks.length := by
          by_contra hge
          rw [LiveLoop.hasEnded, List.getElem?_eq_none (by omega)] at hended
          cases hended
        have := hserved.most
        omega
  obtain ⟨hwritten, hmissing⟩ := Stream.live_frames hrun
  have hlengths : ∀ i, (LiveLoop.firsts events i).length = i := by
    intro i
    rw [LiveLoop.firsts, List.length_map, List.length_range]
  obtain ⟨hbegins, hlength⟩ := Stream.framesOf_begins (s := s) (firsts_begins events hnj)
  rw [hlengths, hlengths] at hlength
  rw [Stream.taken, htaken] at hwritten hmissing
  refine ⟨ms.filterMap LiveLoop.frameWritten, hsent.symm, ?_, ?_⟩
  · rw [hreads]
    exact hwritten.trans hbegins
  · rw [hreads]
    show _ ≤ (Stream.content ms).length + 2
    omega

/-- What the client of a stream is shown, after the frames `before` of the same response: its parser
dispatches the frames of the events that were read, one event for each.  The last two at most are
still on their way. -/
def ShowsClient (s : Stream) (before : List SseFrame) (evs : List StreamEvent) (bytes : ByteArray) :
    Prop :=
  ∃ shown es, shown <+: s.framesOf evs ∧ (s.framesOf evs).length ≤ shown.length + 2
    ∧ EventStream.events bytes = some es ∧ Dispatched [] (before ++ shown) es

theorem showsClient_of_run {s : Stream} {k : Nat} {events : Nat → StreamEvent} {ls : List Op}
    {m : Manager} {x : Subscriber} {before : List SseFrame} (hs : s.OfHandler)
    (h : Run (step s k events) (Open k) ⟨m, LiveLoop.start⟩ ls x)
    (hbefore : ∀ frame ∈ before, Produced frame) :
    ShowsClient s before (Manager.reads k (managerSteps k events ls))
      (streamBytes before ++ joined x.loop.sent) := by
  obtain ⟨frames, hsent, hbegins, hmissing⟩ := shown_of_run h
  have hcontent : ∀ frame ∈ frames.filter Stream.isContent, Produced frame := by
    intro frame hframe
    obtain ⟨ev, -, hshown⟩ := mem_framesOf (hbegins.subset hframe)
    exact hs.produced_shown hshown
  have hframes : ∀ frame ∈ frames, Produced frame := by
    intro frame hframe
    cases hc : Stream.isContent frame with
    | true => exact hcontent frame (List.mem_filter.mpr ⟨hframe, hc⟩)
    | false =>
        cases frame with
        | comment text => exact .comment text
        | _ => cases hc
  have hjoin : ∀ {more : List SseFrame}, (∀ frame ∈ more, Produced frame) →
      ∀ frame ∈ before ++ more, Produced frame := by
    intro more hmore frame hframe
    rcases List.mem_append.mp hframe with hmem | hmem
    · exact hbefore frame hmem
    · exact hmore frame hmem
  refine ⟨frames.filter Stream.isContent, dispatchedBy [] (before ++ frames), hbegins, hmissing, ?_, ?_⟩
  · rw [hsent, joined_frames, ← streamBytes_append]
    exact events_streamBytes (hjoin hframes)
  · rw [dispatchedBy_content]
    exact dispatched_of_produced (hjoin hcontent) []

/-- **What the client of a stream is shown**, from the first byte of its response.  The loop has
read what waited for it and what was published on its topic since, in order, up to what is still on
the queue; if the queue could hold it, nothing is left out.  After what the replay wrote, the client
is shown the frames of what was read, and pings go unnoticed. -/
theorem client_of_topic {s : Stream} {k : Nat} {events : Nat → StreamEvent}
    {ls₀ : List (Bool × Manager.Op)} {ms : List Moment} {ls : List Op} {m : Manager} {x : Subscriber}
    {key : SlotKey} {r : SlotRef} (hs : s.OfHandler)
    (h₀ : Run Manager.step unguarded Manager.init ls₀ m) (hk : m.phase k = .streaming key r)
    (hms : Run s.step (fun a _ => ¬Stream.Live a) .subscribing ms (.listening false))
    (h : Run (step s k events) (Open k) ⟨m, LiveLoop.start⟩ ls x) :
    (Manager.reads k (managerSteps k events ls) ++ x.mgr.queue k).Sublist
        (m.queue k ++ Manager.sentTo key m (managerSteps k events ls))
      ∧ ((m.queue k).length + (Manager.sentTo key m (managerSteps k events ls)).length ≤ queueSize →
        Manager.reads k (managerSteps k events ls) ++ x.mgr.queue k
          = m.queue k ++ Manager.sentTo key m (managerSteps k events ls))
      ∧ ShowsClient s (ms.filterMap LiveLoop.frameWritten)
        (Manager.reads k (managerSteps k events ls))
        (streamBytes (ms.filterMap LiveLoop.frameWritten) ++ joined x.loop.sent) := by
  obtain ⟨hm, hu⟩ := Manager.wellFormed_unopened h₀
  obtain ⟨hsublist, hall⟩ := Manager.delivered_of_streaming hm hu hk (run_managed h)
  exact ⟨hsublist, hall, showsClient_of_run hs h (hs.produced_of_run hms)⟩

private def watched : Stream := Stream.syncStatus none

private def opening : List (Bool × Manager.Op) :=
  [(true, .subscribe 0 .syncing .null), (true, .answer (.consumer 0) (.ok (.str "0xa")))]

private def preparing : List Moment :=
  [.returned (.subscribe .syncing .null) (.ok .null), .returned .prepare (.ok .null),
    .returned (.io (.write (.retry 5000))) (.ok .null)]

private def notSyncing (_ : Nat) : StreamEvent := .event (.bool false)

/-- A notification is routed, read, rendered and written. -/
private def watching : List Op :=
  [.manage true (.onNotification (.obj [("params",
      .obj [("subscription", .str "0xa"), ("result", .bool false)])])),
    .take true 0, .proceed (.deliver 1 false), .proceed (.wrote (.ok .null) 2 false)]

theorem client_of_topic_once : ∃ (m : Manager) (x : Subscriber),
    ShowsClient watched [.retry 5000] [.event (.bool false)]
      (streamBytes [.retry 5000] ++ joined x.loop.sent)
      ∧ [.event (.bool false)] ++ x.mgr.queue 0
        = m.queue 0 ++ Manager.sentTo (.syncing, "null") m (managerSteps 0 notSyncing watching) := by
  have h₀ : exec Manager.step .init opening = some ((exec Manager.step .init opening).getD .init) := by
    rfl
  have hk : ((exec Manager.step .init opening).getD .init).phase 0 = .streaming (.syncing, "null") 0 := by
    rfl
  have hopening : Run watched.step (fun a _ => ¬Stream.Live a) .subscribing preparing
      (.listening false) := by
    refine .cons rfl (fun h => h) (.cons rfl (fun h => h) (.cons rfl (fun h => h) (.nil _)))
  have h : exec (step watched 0 notSyncing)
      ⟨(exec Manager.step .init opening).getD .init, LiveLoop.start⟩ watching
      = some ((exec (step watched 0 notSyncing)
        ⟨(exec Manager.step .init opening).getD .init, LiveLoop.start⟩ watching).getD
          ⟨.init, LiveLoop.start⟩) := by
    rfl
  have hopen : ∀ op ∈ watching, Open 0 ⟨.init, LiveLoop.start⟩ op := by
    intro op hop
    simp only [watching, List.mem_cons, List.not_mem_nil, or_false] at hop
    rcases hop with rfl | rfl | rfl | rfl
    · rintro ⟨⟩
    · trivial
    · trivial
    · trivial
  obtain ⟨-, hall, hshows⟩ := client_of_topic (.syncStatus none) (run_of_exec h₀) hk hopening
    ((run_of_exec h).restrict hopen)
  exact ⟨_, _, hshows, hall (by decide)⟩

end Subscriber

end ExecRestApi
