/-
The subscription manager is a bus.

The topics are the keys of the slots: one for every subscription that is shared.  A
stream joins its topic in the step in which `subscribe` returns it and leaves it in the
step in which its `aclose` gets the lock; a notification or a `GAP` that reaches a slot is
published on the topic of the slot.  Slots, ids, the lock and the requests in flight are
gone from this picture, and yet every run of the manager is a run of the bus.

The refinement is by observation: each step of the manager is observed as a list of steps of
the bus, mostly none or one.  `manager_is_bus` is the run of the bus that comes of it, and
`stream_delivery` reads off that run what the owner of an open stream is given.
-/
import ExecRestApi.Lib.Bus
import ExecRestApi.Lib.Simulation
import ExecRestApi.Proofs.Delivery

namespace ExecRestApi

open Py Transition

namespace Manager

/-- What the bus of the manager carries. -/
abbrev BusAct := Bus.Act Nat SlotKey StreamEvent

/-- The bus the manager stands for. -/
def busOf (m : Manager) : Bus Nat SlotKey StreamEvent where
  topic k := (homeOf (m.phase k)).map Prod.fst
  inbox k := if homeOf (m.phase k) = none then [] else m.queue k

/-- The key a slot is found under. -/
def topicOf (slots : Dict SlotKey SlotRef) (r : SlotRef) : Option SlotKey :=
  (slots.entries.find? fun p => decide (p.2 = r)).map Prod.fst

/-- What it means for the topics that the consumers of a slot are told something. -/
def publishedTo (slots : Dict SlotKey SlotRef) (ev : StreamEvent) (r : SlotRef) : List BusAct :=
  match topicOf slots r with
  | some key => [.publish key ev]
  | none => []

/-- Where a notification is published. -/
def routed (m : Manager) (payload : Json) : List BusAct :=
  match notified payload with
  | none => []
  | some (s, result) =>
      match m.bySubId.get? (.str s) with
      | none => []
      | some r => publishedTo m.slots (.event result) r

/-- The call whose task runs in a step. -/
def caller (m : Manager) : Op → Option Nat
  | .subscribe k _ _ => some k
  | .aclose k => some k
  | .answer (.consumer k) _ => some k
  | .grant =>
      match m.waiters with
      | .consumer k :: _ => some k
      | _ => none
  | _ => none

/-- Whether the stream `k` joins or leaves a topic on the way from `m` to `m'`. -/
def turn (m : Manager) (k : Nat) (m' : Manager) : List BusAct :=
  match m.busOf.topic k, m'.busOf.topic k with
  | none, some key => [.join k key]
  | some _, none => [.leave k]
  | _, _ => []

/-- Whether a stream joins or leaves a topic in a step. -/
def moved (m : Manager) (op : Op) (m' : Manager) : List BusAct :=
  match m.caller op with
  | none => []
  | some k => m.turn k m'

/-- What a step of the manager is on the bus. -/
def observe (m : Manager) (e : Bool × Op) (m' : Manager) : List BusAct :=
  match e with
  | (_, .onNotification payload) => m.routed payload
  | (_, .read k ev) => [.take k ev]
  | e => (m.told e).flatMap (publishedTo m.slots .gap) ++ m.moved e.2 m'

/-! ### Keys and slots

The topic of a stream is the key it was asked for, as long as it is on the list of a slot.  A
slot has one key, so its list is the list of the subscribers of that topic.
-/

section

variable {slots : Dict SlotKey SlotRef} {slot : SlotRef → Slot} {nextSlot : SlotRef}
  {phase : Nat → Phase} {r : SlotRef} {key : SlotKey}

theorem topicOf_eq_some (h : Members slots slot nextSlot phase) :
    topicOf slots r = some key ↔ slots.get? key = some r := by
  constructor
  · intro hkey
    obtain ⟨p, hp, hkey⟩ := Option.map_eq_some_iff.mp hkey
    have hmem := List.mem_of_find?_eq_some hp
    have hr := List.find?_some hp
    rw [decide_eq_true_eq] at hr
    rw [← hkey, ← hr]
    exact Dict.mem_entries.mp hmem
  · intro hslot
    rcases hfind : slots.entries.find? fun p => decide (p.2 = r) with _ | p
    · have := List.find?_eq_none.mp hfind (key, r) (Dict.mem_entries.mpr hslot)
      simp at this
    · rw [topicOf, hfind, Option.map_some]
      have hr := List.find?_some hfind
      rw [decide_eq_true_eq] at hr
      have hp := Dict.mem_entries.mp (List.mem_of_find?_eq_some hfind)
      rw [hr] at hp
      rw [h.inj _ _ _ hp hslot]

/-- The consumers of a slot that have a stream are the members of its topic. -/
theorem mem_consumers_iff (h : Members slots slot nextSlot phase) {k : Nat} {key' : SlotKey}
    {r' : SlotRef} (hhome : homeOf (phase k) = some (key', r')) :
    k ∈ (slot r).consumers ↔ topicOf slots r = some key' := by
  obtain ⟨hslot, hmem'⟩ := h.home k key' r' hhome
  rw [topicOf_eq_some h]
  constructor
  · intro hmem
    rcases h.member k r hmem with ⟨key, hk⟩ | ⟨e, he⟩
    · rw [hhome] at hk
      injection hk with hk
      injection hk with _ hr
      rw [← hr]
      exact hslot
    · rw [he] at hhome
      cases hhome
  · intro hr
    rw [hslot] at hr
    rw [← Option.some.inj hr]
    exact hmem'

/-- A full queue stays as it is. -/
theorem enqueueAll_of_full {queue : Nat → List StreamEvent} {ev : StreamEvent} {k : Nat}
    (hfull : ¬(queue k).length < queueSize) (ks : List Nat) :
    enqueueAll queue ev ks k = queue k := by
  induction ks generalizing queue with
  | nil => rfl
  | cons j ks ih =>
      have hsame : enqueue queue ev j k = queue k := by
        rw [enqueue]
        split
        · rename_i hroom
          rw [Function.update_of_ne]
          intro hk
          rw [hk] at hfull
          exact hfull hroom
        · rfl
      rw [enqueueAll, ih (by rw [hsame]; exact hfull), hsame]

end

@[simp] theorem topic_busOf (m : Manager) (k : Nat) :
    m.busOf.topic k = (homeOf (m.phase k)).map Prod.fst := rfl

@[simp] theorem inbox_busOf (m : Manager) (k : Nat) :
    m.busOf.inbox k = if homeOf (m.phase k) = none then [] else m.queue k := rfl

/-! ### What is told to a slot is published on its topic

A notification is put on the queues of one list, and a gap on those of one list after the
other.  Each is one publication on the bus.
-/

/-- The queues have changed. -/
def withQueue (m : Manager) (queue : Nat → List StreamEvent) : Manager := { m with queue := queue }

theorem busOf_enqueueAll {m : Manager} (h : Members m.slots m.slot m.nextSlot m.phase)
    (ev : StreamEvent) (r : SlotRef) :
    Run (Bus.step queueSize) unguarded m.busOf (publishedTo m.slots ev r)
      (m.withQueue (enqueueAll m.queue ev (m.slot r).consumers)).busOf := by
  -- what a member of a topic gets is what its queue gets
  have hinbox : ∀ k key', (homeOf (m.phase k)).map Prod.fst = some key' →
      enqueueAll m.queue ev (m.slot r).consumers k
        = if topicOf m.slots r = some key' ∧ (m.queue k).length < queueSize then m.queue k ++ [ev]
          else m.queue k := by
    intro k key' hk
    obtain ⟨⟨key, r'⟩, hhome, hkey⟩ := Option.map_eq_some_iff.mp hk
    have hmem := mem_consumers_iff h (r := r) hhome
    rw [← hkey]
    by_cases hroom : (m.queue k).length < queueSize
    · by_cases hk : k ∈ (m.slot r).consumers
      · rw [if_pos ⟨hmem.mp hk, hroom⟩, enqueueAll_of_nodup (h.nodup r) hk hroom]
      · rw [if_neg fun hc => hk (hmem.mpr hc.1), enqueueAll_of_not_mem hk]
    · rw [if_neg fun hc => hroom hc.2, enqueueAll_of_full hroom]
  rcases hkey : topicOf m.slots r with _ | key
  · have hsame : (m.withQueue (enqueueAll m.queue ev (m.slot r).consumers)).busOf = m.busOf := by
      refine Bus.ext rfl (funext fun k => ?_)
      rw [inbox_busOf, inbox_busOf]
      show (if homeOf (m.phase k) = none then [] else enqueueAll m.queue ev _ k) = _
      rcases hhome : homeOf (m.phase k) with _ | p
      · rfl
      · rw [hinbox k p.1 (by rw [hhome]; rfl), hkey]
        simp
    rw [publishedTo, hkey, hsame]
    exact .nil _
  · have hput : (m.withQueue (enqueueAll m.queue ev (m.slot r).consumers)).busOf
        = m.busOf.put queueSize key ev := by
      refine Bus.ext rfl (funext fun k => ?_)
      rw [Bus.inbox_put, inbox_busOf, inbox_busOf, topic_busOf]
      show (if homeOf (m.phase k) = none then [] else enqueueAll m.queue ev _ k) = _
      rcases hhome : homeOf (m.phase k) with _ | p
      · rfl
      · rw [hinbox k p.1 (by rw [hhome]; rfl), hkey]
        simp [eq_comm]
    rw [publishedTo, hkey, hput]
    exact .cons rfl trivial (.nil _)

/-- The slots of a list are told of the gap one after the other. -/
theorem busOf_gapped {m : Manager} (h : Members m.slots m.slot m.nextSlot m.phase)
    (rs : List SlotRef) :
    Run (Bus.step queueSize) unguarded m.busOf (rs.flatMap (publishedTo m.slots .gap))
      (m.withQueue (gapped m.slot m.queue rs)).busOf := by
  induction rs generalizing m with
  | nil => exact .nil _
  | cons r rs ih =>
      rw [List.flatMap_cons]
      exact run_append.mpr ⟨_, busOf_enqueueAll h .gap r,
        ih (m := m.withQueue (enqueueAll m.queue .gap (m.slot r).consumers)) h⟩

/-! ### Joining and leaving

A call joins when it returns and not when the upstream answers somebody else's request, so the
turn of a waiting call may begin with a step of the bus.
-/

/-- A call moves on: it joins the topic of its new phase or leaves that of its old one. -/
theorem run_turn {m m' : Manager} {k : Nat} {p : Phase}
    (hphase : m'.phase = Function.update m.phase k p) (hqueue : m'.queue = m.queue)
    (hstay : ∀ x y, homeOf (m.phase k) = some x → homeOf p = some y → x = y)
    (hempty : homeOf (m.phase k) = none → homeOf p ≠ none → m.queue k = []) :
    Run (Bus.step queueSize) unguarded m.busOf (m.turn k m') m'.busOf := by
  have hnew : homeOf (m'.phase k) = homeOf p := by
    rw [hphase, Function.update_self]
  have hother : ∀ j, j ≠ k → homeOf (m'.phase j) = homeOf (m.phase j) := by
    intro j hj
    rw [hphase, Function.update_of_ne hj]
  have hsame : homeOf p = homeOf (m.phase k) → m'.busOf = m.busOf := by
    intro hp
    have hall : ∀ j, homeOf (m'.phase j) = homeOf (m.phase j) := by
      intro j
      by_cases hj : j = k
      · rw [hj, hnew, hp]
      · exact hother j hj
    simp only [busOf, hall, hqueue]
  -- what becomes of the bus if the topic of `k` changes
  have hmoved : ∀ (topic : Option SlotKey) (inbox : List StreamEvent),
      (homeOf p).map Prod.fst = topic →
      (if homeOf (m'.phase k) = none then [] else m'.queue k) = inbox →
      m'.busOf = ⟨Function.update m.busOf.topic k topic, Function.update m.busOf.inbox k inbox⟩ := by
    intro topic inbox htopic hinbox
    refine Bus.ext (funext fun j => ?_) (funext fun j => ?_)
    · by_cases hj : j = k
      · simp [hj, hnew, htopic]
      · simp [hj, hother j hj]
    · by_cases hj : j = k
      · show _ = Function.update m.busOf.inbox k inbox j
        rw [hj, Function.update_self, inbox_busOf, hinbox]
      · simp [hj, hother j hj, hqueue]
  rw [turn, topic_busOf, topic_busOf, hnew]
  rcases hold : homeOf (m.phase k) with _ | x
  · rcases hp : homeOf p with _ | y
    · rw [hsame (by rw [hp, hold])]
      exact .nil _
    · have hjoin : m'.busOf = ⟨Function.update m.busOf.topic k (some y.1),
          Function.update m.busOf.inbox k []⟩ := by
        refine hmoved _ _ (by rw [hp]; rfl) ?_
        rw [hqueue, hempty hold (by rw [hp]; nofun)]
        exact ite_self _
      refine .cons (t := m'.busOf) ?_ trivial (.nil _)
      rw [Bus.step, topic_busOf, hold, hjoin]
      rfl
  · rcases hp : homeOf p with _ | y
    · have hleave : m'.busOf = ⟨Function.update m.busOf.topic k none,
          Function.update m.busOf.inbox k []⟩ :=
        hmoved _ _ (by rw [hp]; rfl) (by rw [hnew, hp, if_pos rfl])
      refine .cons (t := m'.busOf) ?_ trivial (.nil _)
      rw [Bus.step, topic_busOf, hold, hleave]
      rfl
    · rw [hsame (by rw [hp, hold, hstay x y hold hp])]
      exact .nil _

section

variable {m m' : Manager} {k : Nat} {p : Phase}

theorem run_turn_of_eq (hphase : m'.phase = Function.update m.phase k p)
    (hqueue : m'.queue = m.queue) (hp : homeOf (m.phase k) = homeOf p) :
    Run (Bus.step queueSize) unguarded m.busOf (m.turn k m') m'.busOf := by
  refine run_turn hphase hqueue ?_ ?_
  · intro x y hx hy
    rw [hp, hy] at hx
    exact (Option.some.inj hx).symm
  · intro hnone hsome
    exact absurd (hp.symm.trans hnone) hsome

theorem run_turn_of_none (hphase : m'.phase = Function.update m.phase k p)
    (hqueue : m'.queue = m.queue) (hp : homeOf p = none) :
    Run (Bus.step queueSize) unguarded m.busOf (m.turn k m') m'.busOf := by
  refine run_turn hphase hqueue ?_ ?_
  · intro x y _ hy
    rw [hp] at hy
    cases hy
  · intro _ hsome
    exact absurd hp hsome

theorem run_turn_of_empty (hphase : m'.phase = Function.update m.phase k p)
    (hqueue : m'.queue = m.queue) (hnone : homeOf (m.phase k) = none) (hempty : m.queue k = []) :
    Run (Bus.step queueSize) unguarded m.busOf (m.turn k m') m'.busOf := by
  refine run_turn hphase hqueue ?_ ?_
  · intro x y hx _
    rw [hnone] at hx
    cases hx
  · intro _ _
    exact hempty

end

/-! ### Nothing waits for a call that has no stream yet

A queue is made with its stream.  Until then nothing is put on it, and the bus may start it
empty.
-/

/-- A call that has not returned has nothing on its queue. -/
def Unopened (m : Manager) : Prop := ∀ k, called (m.phase k) = false → m.queue k = []

theorem gapped_of_not_mem {slot : SlotRef → Slot} {queue : Nat → List StreamEvent} {k : Nat}
    (rs : List SlotRef) (hk : ∀ r, k ∉ (slot r).consumers) : gapped slot queue rs k = queue k := by
  induction rs generalizing queue with
  | nil => rfl
  | cons r rs ih => rw [gapped, ih, enqueueAll_of_not_mem (hk r)]

theorem Unopened.step {m m' : Manager} (h : m.Unopened) (hm : m.WellFormed) {connected : Bool}
    {op : Op} (heff : Effect connected m op m') : m'.Unopened := by
  intro k hk
  have hbefore : called (m.phase k) = false := by
    by_contra hc
    rw [called_keep heff (by simpa using hc)] at hk
    cases hk
  have hnot : ∀ r, k ∉ (m.slot r).consumers := by
    refine hm.members.not_mem ?_ ?_
    · rcases hp : m.phase k <;> rw [hp] at hbefore <;> first | rfl | cases hbefore
    · intro e he
      rw [he] at hbefore
      cases hbefore
  have hempty := h k hbefore
  cases heff with
  | reconnectStarted _ => exact (gapped_of_not_mem _ hnot).trans hempty
  | notRenewed _ => exact (gapped_of_not_mem _ hnot).trans hempty
  | renewed _ _ => exact (gapped_of_not_mem _ hnot).trans hempty
  | dispatched _ _ => exact (enqueueAll_of_not_mem (hnot _)).trans hempty
  | @read j _ _ _ _ hj hq =>
      refine (Function.update_of_ne ?_ _ _).trans hempty
      intro hkj
      rw [hkj, hj] at hbefore
      cases hbefore
  | _ => exact hempty

/-! ### Every step of the manager is a step of the bus

One lemma for each kind of outcome; the last of them goes through `Effect`.
-/

section

variable {connected : Bool} {m m' : Manager} {op : Op} {k : Nat} {rest : List Task} {p : Phase}

theorem Approach.observe (h : Approach m op k p) : m.observe (connected, op) m' = m.turn k m' := by
  cases h <;> rfl

theorem AtLock.observe (h : AtLock m op k rest p) :
    m.observe (connected, op) m' = m.turn k m' := by
  rcases h.2 with ⟨hop, hw, -⟩ | ⟨-, -, happ⟩
  · rw [hop]
    have htold : m.told (connected, .grant) = [] := by
      rw [told, refusedAtStart, h.1, hw]
      · intro connected' outcome heq
        cases heq
    have hmoved : m.moved .grant m' = m.turn k m' := by
      rw [moved, caller, hw]
    show (m.told (connected, .grant)).flatMap _ ++ m.moved .grant m' = _
    rw [htold, hmoved]
    rfl
  · exact happ.observe

theorem ReconnectAtLock.observe (h : ReconnectAtLock m op rest) :
    m.observe (connected, op) m'
      = (refusedAtOnce connected m.slots.values).flatMap (publishedTo m.slots .gap) := by
  have htold : m.told (connected, op) = refusedAtOnce connected m.slots.values := told_start h
  rcases h.2 with ⟨hop, hw, -⟩ | ⟨hop, -, -, -⟩
  · rw [hop] at htold ⊢
    show (m.told (connected, .grant)).flatMap _ ++ m.moved .grant m' = _
    rw [htold, moved, caller, hw, List.append_nil]
  · rw [hop] at htold ⊢
    show (m.told (connected, .onReconnect)).flatMap _ ++ [] = _
    rw [htold, List.append_nil]

theorem observe_answered (m m' : Manager) (connected : Bool) (outcome : Except Exc Json) :
    m.observe (connected, .answer .reconnect outcome) m'
      = (m.told (connected, .answer .reconnect outcome)).flatMap (publishedTo m.slots .gap) :=
  List.append_nil _

theorem told_notRenewed {r : SlotRef} {rs : List SlotRef} (e : Exc)
    (hrc : m.reconnecting = .resubscribing r rs) :
    m.told (connected, .answer .reconnect (.error e)) = r :: refusedAtOnce connected rs := by
  simp only [told, hrc]

theorem told_renewed {r : SlotRef} {rs : List SlotRef} (newId : Json)
    (hrc : m.reconnecting = .resubscribing r rs) :
    m.told (connected, .answer .reconnect (.ok newId))
      = if newId.isHashable then r :: refusedAtOnce connected rs else [] := by
  simp only [told, hrc]

theorem notification_on_bus (hm : m.WellFormed) (payload : Json) :
    Run (Bus.step queueSize) unguarded m.busOf (m.routed payload)
      (m.afterNotification payload).busOf := by
  rw [routed, afterNotification]
  rcases notified payload with _ | ⟨x, result⟩
  · exact .nil _
  · dsimp only
    rcases m.bySubId.get? (.str x) with _ | r
    · exact .nil _
    · exact busOf_enqueueAll hm.members _ r

/-- Where a call stands before the step that brings it to the lock, as to its topic. -/
theorem AtLock.home (h : AtLock m op k rest p) (hp : lockStatus p = .waiting) :
    homeOf (m.phase k) = homeOf p :=
  (h.before hp).2.1

end

/-- **Every step of the manager is a run of the bus.** -/
theorem step_on_bus {m m' : Manager} (hm : m.WellFormed) (hu : m.Unopened) {e : Bool × Op}
    (hs : m.step e = some m') :
    Run (Bus.step queueSize) unguarded m.busOf (m.observe e m') m'.busOf := by
  obtain ⟨connected, op⟩ := e
  cases effect_of_step hm.locks hs with
  | @closedAgain k => exact run_turn_of_eq (Function.update_eq_self k m.phase).symm rfl rfl
  | @ignored payload =>
      have hrun := notification_on_bus hm payload
      rw [step_onNotification] at hs
      rwa [Option.some.inj hs] at hrun
  | refused hk => exact run_turn_of_none rfl rfl rfl
  | unsubscribed hk => exact run_turn_of_none rfl rfl rfl
  | waiting hk =>
      rw [hk.observe]
      exact run_turn_of_eq rfl rfl hk.before.2.1
  | joined hk hr =>
      rw [hk.observe]
      exact run_turn_of_empty rfl rfl (hk.home rfl) (hu _ hk.called_of_acquiring)
  | asked hk hr hc =>
      rw [hk.observe]
      exact run_turn_of_none rfl rfl rfl
  | turnedAway hk =>
      rw [hk.observe]
      exact run_turn_of_none rfl rfl rfl
  | gone hk hmem =>
      rw [hk.observe]
      exact run_turn_of_none rfl rfl rfl
  | left hk hmem hne =>
      rw [hk.observe]
      exact run_turn_of_none rfl rfl rfl
  | ended hk hmem hnil hp =>
      rw [hk.observe]
      refine run_turn_of_none rfl rfl ?_
      rcases afterEnd_cases hp with h | h <;> rw [h] <;> rfl
  | created hk hsub =>
      exact run_turn_of_empty rfl rfl (by rw [hk]; rfl) (hu _ (by rw [hk]; rfl))
  | createdUnhashable hk hsub => exact run_turn_of_none rfl rfl rfl
  | unanswered hk => exact run_turn_of_none rfl rfl rfl
  | reconnectWaiting hrc =>
      have hbusy : ¬(m.lock = none ∧ m.waiters = []) := by
        intro hfree
        rw [step_of_start ⟨hfree.1, .inr ⟨rfl, hfree.2, rfl, hrc⟩⟩] at hs
        have := congrArg waiters (Option.some.inj hs)
        simp at this
      have htold : m.told (connected, .onReconnect) = [] := if_neg hbusy
      show Run _ _ m.busOf ((m.told (connected, .onReconnect)).flatMap _ ++ []) _
      rw [htold]
      exact .nil _
  | reconnectStarted hturn =>
      rw [hturn.observe]
      exact busOf_gapped hm.members _
  | @notRenewed r rest e hrc =>
      rw [observe_answered, told_notRenewed e hrc]
      exact busOf_gapped hm.members _
  | @renewed r rest newId hrc hid =>
      rw [observe_answered, told_renewed newId hrc, if_pos hid]
      exact busOf_gapped hm.members _
  | @renewedUnhashable r rest newId hrc hid =>
      rw [observe_answered, told_renewed newId hrc, hid]
      exact .nil _
  | @dispatched payload result x r hn hr =>
      have hrun := notification_on_bus hm payload
      rwa [afterNotification_of_notified hn hr] at hrun
  | @read k key r ev more hk hq =>
      have hinbox : m.busOf.inbox k = ev :: more := by
        rw [inbox_busOf, hk]
        exact hq
      refine .cons ?_ trivial (.nil _)
      rw [Bus.step, topic_busOf, hinbox, hk]
      dsimp only [homeOf, Option.map_some]
      rw [if_pos rfl]
      refine congrArg some (Bus.ext rfl (funext fun j => ?_))
      show Function.update m.busOf.inbox k more j = if _ then [] else Function.update m.queue k more j
      by_cases hj : j = k
      · rw [hj, Function.update_self, Function.update_self, hk]
        rfl
      · rw [Function.update_of_ne hj, Function.update_of_ne hj]
        rfl

theorem unopened_init : init.Unopened := fun _ _ => rfl

/-- **The manager refines the bus**: what its tasks do in any order is a run of the bus, the
same streams joining and leaving the same topics and the same events published and taken. -/
theorem manager_is_bus {ls : List (Bool × Op)} {m : Manager} (h : Run Manager.step unguarded init ls m) :
    Run (Bus.step queueSize) unguarded Bus.quiet (observed Manager.step observe init ls) m.busOf := by
  obtain ⟨b, hrun, hb, -, -⟩ := h.simulates (R := fun m b => b = m.busOf ∧ m.WellFormed ∧ m.Unopened)
    (fun m e m' b hR _ hs => ⟨m'.busOf, by rw [hR.1]; exact step_on_bus hR.2.1 hR.2.2 hs, rfl,
      hR.2.1.step hs, hR.2.2.step hR.2.1 (effect_of_step hR.2.1.locks hs)⟩)
    (a := init.busOf) ⟨rfl, wellFormed_init, unopened_init⟩
  rw [← hb]
  exact hrun

private def newHead (id : String) (n : Int) : Json :=
  .obj [("params", .obj [("subscription", .str id), ("result", .int n)])]

/-- Two streams share a topic; one reads, a reconnect comes, the other one closes. -/
private def shared : List (Bool × Op) :=
  [(true, .subscribe 0 .newHeads .null), (true, .subscribe 1 .newHeads .null),
    (true, .answer (.consumer 0) (.ok (.str "0xa"))), (true, .grant),
    (true, .onNotification (newHead "0xa" 1)), (true, .read 1 (.event (.int 1)))]

private def afterShared : List (Bool × Op) :=
  [(true, .onReconnect), (true, .answer .reconnect (.ok (.str "0xb"))), (true, .aclose 1),
    (true, .onNotification (newHead "0xb" 2)), (true, .read 0 (.event (.int 1)))]

theorem manager_is_bus_once : ∃ m : Manager, m.queue 0 = [.gap, .event (.int 2)]
    ∧ Run (Bus.step queueSize) unguarded Bus.quiet
      [.join 0 (.newHeads, "null"), .join 1 (.newHeads, "null"),
        .publish (.newHeads, "null") (.event (.int 1)), .take 1 (.event (.int 1)),
        .publish (.newHeads, "null") .gap, .leave 1,
        .publish (.newHeads, "null") (.event (.int 2)), .take 0 (.event (.int 1))] m.busOf := by
  have hrun : exec Manager.step init (shared ++ afterShared)
      = some ((exec Manager.step init (shared ++ afterShared)).getD init) := by
    rfl
  exact ⟨_, rfl, manager_is_bus (run_of_exec hrun)⟩

/-! ### What an open stream reads

While a stream is open it stays on its topic, so what was published from the step on in which
it was opened is what it reads, up to what is still queued and what found its queue full.
-/

theorem mem_publishedTo {slots : Dict SlotKey SlotRef} {ev : StreamEvent} {r : SlotRef} {x : BusAct}
    (h : x ∈ publishedTo slots ev r) : ∃ key, x = .publish key ev := by
  rw [publishedTo] at h
  split at h
  · rename_i key _
    exact ⟨key, List.mem_singleton.mp h⟩
  · cases h

theorem mem_turn {m m' : Manager} {k : Nat} {x : BusAct} (h : x ∈ m.turn k m') :
    (m.busOf.topic k = none ∧ ∃ key, x = .join k key) ∨ (m'.busOf.topic k = none ∧ x = .leave k) := by
  rw [turn] at h
  split at h
  · rename_i key hold _
    exact .inl ⟨hold, key, List.mem_singleton.mp h⟩
  · rename_i _ hnew
    exact .inr ⟨hnew, List.mem_singleton.mp h⟩
  · cases h

/-- What a step shows: streams that join or leave, events that are published, and a read. -/
theorem mem_observe {m m' : Manager} {e : Bool × Op} {x : BusAct} (h : x ∈ m.observe e m') :
    (∃ key ev, x = .publish key ev) ∨ (∃ k, m.caller e.2 = some k ∧ x ∈ m.turn k m')
      ∨ ∃ k ev, e.2 = .read k ev ∧ x = .take k ev := by
  obtain ⟨connected, op⟩ := e
  have hrest : x ∈ (m.told (connected, op)).flatMap (publishedTo m.slots .gap) ++ m.moved op m' →
      (∃ key ev, x = .publish key ev) ∨ (∃ k, m.caller op = some k ∧ x ∈ m.turn k m') := by
    intro hx
    rcases List.mem_append.mp hx with hx | hx
    · obtain ⟨r, -, hx⟩ := List.mem_flatMap.mp hx
      obtain ⟨key, hx⟩ := mem_publishedTo hx
      exact .inl ⟨key, .gap, hx⟩
    · rw [moved] at hx
      split at hx
      · cases hx
      · rename_i k hk
        exact .inr ⟨k, hk, hx⟩
  cases op with
  | onNotification payload =>
      have hx : x ∈ m.routed payload := h
      rw [routed] at hx
      split at hx
      · cases hx
      · split at hx
        · cases hx
        · obtain ⟨key, hx⟩ := mem_publishedTo hx
          exact .inl ⟨key, _, hx⟩
  | read k ev => exact .inr (.inr ⟨k, ev, rfl, List.mem_singleton.mp h⟩)
  | _ => exact (hrest h).imp_right .inl

/-- What a stream takes from the bus is what its owner reads. -/
theorem taken_observe (m m' : Manager) (k : Nat) (e : Bool × Op) :
    Bus.taken k (m.observe e m') = readBy k e := by
  obtain ⟨connected, op⟩ := e
  by_cases hread : ∃ j ev, op = .read j ev
  · obtain ⟨j, ev, hop⟩ := hread
    rw [hop]
    rfl
  · have hnone : readBy k (connected, op) = [] := by
      cases op with
      | read j ev => exact absurd ⟨j, ev, rfl⟩ hread
      | _ => rfl
    rw [hnone]
    apply Bus.taken_eq_nil
    intro ev hx
    rcases mem_observe hx with ⟨key, ev', hx⟩ | ⟨j, -, hx⟩ | ⟨j, ev', hop, -⟩
    · cases hx
    · rcases mem_turn hx with ⟨-, key, hx⟩ | ⟨-, hx⟩ <;> cases hx
    · exact hread ⟨j, ev', hop⟩

theorem taken_observed {ok : Manager → Bool × Op → Prop} {m m' : Manager} {ls : List (Bool × Op)}
    (h : Run Manager.step ok m ls m') (k : Nat) :
    Bus.taken k (observed Manager.step observe m ls) = reads k ls := by
  induction h with
  | nil m => rfl
  | cons hs _ _ ih =>
      rw [observed_cons _ hs, Bus.taken_append, taken_observe, ih]
      rfl

/-- A stream stays open until its `aclose`. -/
theorem streaming_keep {connected : Bool} {m m' : Manager} {op : Op} {k : Nat} {key : SlotKey}
    {r : SlotRef} (h : Effect connected m op m') (hop : op ≠ .aclose k)
    (hk : m.phase k = .streaming key r) : m'.phase k = .streaming key r := by
  -- the call `j` that moves on is another one
  have hmove : ∀ {j : Nat} {p : Phase}, m'.phase = Function.update m.phase j p →
      m.phase j ≠ .streaming key r ∨ op = .aclose j → m'.phase k = .streaming key r := by
    intro j p hp hj
    have hne : k ≠ j := by
      intro hkj
      rcases hj with hj | hj
      · rw [hkj] at hk
        exact hj hk
      · rw [hj, hkj] at hop
        exact hop rfl
    rw [hp, Function.update_of_ne hne]
    exact hk
  have happroach : ∀ {j : Nat} {p : Phase}, Approach m op j p →
      m.phase j ≠ .streaming key r ∨ op = .aclose j := by
    intro j p happ
    cases happ with
    | subscribe hj _ => exact .inl (by rw [hj]; rintro ⟨⟩)
    | aclose _ => exact .inr rfl
  have hturn : ∀ {j : Nat} {rest : List Task} {p : Phase}, AtLock m op j rest p →
      lockStatus p = .waiting → m.phase j ≠ .streaming key r ∨ op = .aclose j := by
    intro j rest p hat hp
    rcases hat.2 with ⟨-, -, hj⟩ | ⟨-, -, happ⟩
    · refine .inl ?_
      rw [hj]
      intro hp'
      rw [hp'] at hp
      cases hp
    · exact happroach happ
  cases h with
  | refused hj => exact hmove rfl (.inl (by rw [hj]; rintro ⟨⟩))
  | unsubscribed hj => exact hmove rfl (.inl (by rw [hj]; rintro ⟨⟩))
  | waiting happ => exact hmove rfl (happroach happ)
  | joined hat _ => exact hmove rfl (hturn hat rfl)
  | asked hat _ _ => exact hmove rfl (hturn hat rfl)
  | turnedAway hat => exact hmove rfl (hturn hat rfl)
  | gone hat _ => exact hmove rfl (hturn hat rfl)
  | left hat _ _ => exact hmove rfl (hturn hat rfl)
  | ended hat _ _ _ => exact hmove rfl (hturn hat rfl)
  | created hj _ => exact hmove rfl (.inl (by rw [hj]; rintro ⟨⟩))
  | createdUnhashable hj _ => exact hmove rfl (.inl (by rw [hj]; rintro ⟨⟩))
  | unanswered hj => exact hmove rfl (.inl (by rw [hj]; rintro ⟨⟩))
  | _ => exact hk

/-- On the bus, a stream that is not closed neither joins nor leaves. -/
theorem stays_of_streaming {m m' : Manager} {k : Nat} {key : SlotKey} {r : SlotRef} {e : Bool × Op}
    (hk : m.phase k = .streaming key r) (hk' : m'.phase k = .streaming key r) :
    ∀ x ∈ m.observe e m', Bus.Stays k x := by
  have htopic : ∀ {p : Manager}, p.phase k = .streaming key r → p.busOf.topic k ≠ none := by
    intro p hp
    rw [topic_busOf, hp]
    nofun
  intro x hx
  rcases mem_observe hx with ⟨key, ev, rfl⟩ | ⟨j, -, hx⟩ | ⟨j, ev, -, rfl⟩
  · trivial
  · rcases mem_turn hx with ⟨hnone, key', rfl⟩ | ⟨hnone, rfl⟩
    · intro hj
      rw [hj] at hnone
      exact htopic hk hnone
    · intro hj
      rw [hj] at hnone
      exact htopic hk' hnone
  · trivial

/-- What the manager has published on a topic along a run. -/
def sentTo (key : SlotKey) (m : Manager) (ls : List (Bool × Op)) : List StreamEvent :=
  Bus.published key (observed Manager.step observe m ls)

theorem wellFormed_unopened {ls : List (Bool × Op)} {m : Manager}
    (h : Run Manager.step unguarded init ls m) : m.WellFormed ∧ m.Unopened :=
  h.preserves (I := fun m => m.WellFormed ∧ m.Unopened)
    (fun _ _ _ hI _ hs => ⟨hI.1.step hs, hI.2.step hI.1 (effect_of_step hI.1.locks hs)⟩)
    ⟨wellFormed_init, unopened_init⟩

/-- A stream that stays open is delivered to as its bus delivers. -/
theorem delivered_of_streaming {ls : List (Bool × Op)} {m m' : Manager} {k : Nat} {key : SlotKey}
    {r : SlotRef} (hm : m.WellFormed) (hu : m.Unopened) (hk : m.phase k = .streaming key r)
    (h : Run Manager.step (fun _ e => e.2 ≠ .aclose k) m ls m') :
    (reads k ls ++ m'.queue k).Sublist (m.queue k ++ sentTo key m ls) ∧
      ((m.queue k).length + (sentTo key m ls).length ≤ queueSize →
        reads k ls ++ m'.queue k = m.queue k ++ sentTo key m ls) := by
  have hstep : ∀ p e p' b, (b = busOf p ∧ p.WellFormed ∧ p.Unopened ∧ p.phase k = .streaming key r) →
      e.2 ≠ .aclose k → p.step e = some p' →
      ∃ b', Run (Bus.step queueSize) (fun _ x => Bus.Stays k x) b (p.observe e p') b' ∧
        b' = busOf p' ∧ p'.WellFormed ∧ p'.Unopened ∧ p'.phase k = .streaming key r := by
    intro p e p' b ⟨hb, hp, hup, hkp⟩ hop hs
    have heff := effect_of_step hp.locks hs
    have hk' := streaming_keep heff hop hkp
    refine ⟨p'.busOf, ?_, rfl, hp.step hs, hup.step hp heff, hk'⟩
    rw [hb]
    exact (step_on_bus hp hup hs).restrict (stays_of_streaming hkp hk')
  obtain ⟨b, hrun, hb, -, -, hk'⟩ := h.simulates hstep ⟨rfl, hm, hu, hk⟩
  rw [hb] at hrun
  have hdelivered := Bus.Delivered.of_run hrun (t := key) (by rw [topic_busOf, hk]; rfl)
  have hinbox : ∀ {p : Manager}, p.phase k = .streaming key r → p.busOf.inbox k = p.queue k := by
    intro p hp
    rw [inbox_busOf, hp]
    rfl
  have hsublist := hdelivered.sublist
  have hcomplete := hdelivered.complete
  rw [taken_observed h, hinbox hk, hinbox hk'] at hsublist hcomplete
  exact ⟨hsublist, hcomplete⟩

/-- **What the owner of a stream reads, followed by what still waits, is what waited before
followed by what was published on its topic: in this order, nothing twice, nothing of another
topic, and all of it if the queue can hold it.** -/
theorem stream_delivery {ls₀ ls : List (Bool × Op)} {m m' : Manager} {k : Nat} {key : SlotKey}
    {r : SlotRef} (h₀ : Run Manager.step unguarded init ls₀ m)
    (h : Run Manager.step (fun _ e => e.2 ≠ .aclose k) m ls m') (hk : m.phase k = .streaming key r) :
    (reads k ls ++ m'.queue k).Sublist (m.queue k ++ sentTo key m ls) ∧
      ((m.queue k).length + (sentTo key m ls).length ≤ queueSize →
        reads k ls ++ m'.queue k = m.queue k ++ sentTo key m ls) := by
  obtain ⟨hm, hu⟩ := wellFormed_unopened h₀
  exact delivered_of_streaming hm hu hk h

theorem stream_delivery_once : ∃ m m' : Manager,
    reads 0 afterShared ++ m'.queue 0 = m.queue 0 ++ [.gap, .event (.int 2)] := by
  have h₀ : exec Manager.step init shared = some ((exec Manager.step init shared).getD init) := by
    rfl
  have h : exec Manager.step ((exec Manager.step init shared).getD init) afterShared
      = some ((exec Manager.step init (shared ++ afterShared)).getD init) := by
    rfl
  have hopen : ((exec Manager.step init shared).getD init).phase 0
      = .streaming (.newHeads, "null") 0 := by
    rfl
  have hstay : ∀ e ∈ afterShared, e.2 ≠ .aclose 0 := by
    intro e he
    simp only [afterShared, List.mem_cons, List.not_mem_nil, or_false] at he
    rcases he with rfl | rfl | rfl | rfl | rfl <;> rintro ⟨⟩
  have hdelivery := stream_delivery (run_of_exec h₀) ((run_of_exec h).restrict hstay) hopen
  have hall := hdelivery.2 (by decide)
  exact ⟨(exec Manager.step init shared).getD init,
    (exec Manager.step init (shared ++ afterShared)).getD init, hall⟩

end Manager

end ExecRestApi
