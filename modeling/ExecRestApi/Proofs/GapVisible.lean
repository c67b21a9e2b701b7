/-
Whether a consumer sees a reconnect.

`on_reconnect` tells every consumer of the gap through the same bounded queue the events
go through.  What a consumer reads is what was put on its queue, in order; so after a
reconnect it reads the events that were queued at that moment, then `GAP`, then the rest,
provided its queue had room when `GAP` was put.

The invariant `Across` follows one consumer from the moment a reconnect starts.  It keeps what
was queued then, what has been put since, and how much of both has been read, and what a `GAP`
finds is said by `Roomy`: a condition on the fill of one queue before one step.
-/
import ExecRestApi.Proofs.ManagerInvariant

namespace ExecRestApi

open Py Transition

namespace Manager

/-! ### Queues only grow at the end

A queue that is full takes nothing, and one that is not takes an event at its end.  Nothing is
ever put in front or taken from the middle.
-/

section

variable {slot : SlotRef → Slot} {queue : Nat → List StreamEvent} {ev : StreamEvent} {k : Nat}

theorem enqueueAll_append (queue : Nat → List StreamEvent) (ev : StreamEvent) (ks : List Nat)
    (k : Nat) : ∃ more, enqueueAll queue ev ks k = queue k ++ more := by
  induction ks generalizing queue with
  | nil => exact ⟨[], (List.append_nil _).symm⟩
  | cons j ks ih =>
      obtain ⟨more, h⟩ := ih (enqueue queue ev j)
      rw [enqueueAll, h, enqueue]
      split
      · by_cases hk : k = j
        · rw [hk, Function.update_self]
          exact ⟨ev :: more, by simp⟩
        · rw [Function.update_of_ne hk]
          exact ⟨more, rfl⟩
      · exact ⟨more, rfl⟩

/-- A queue that is not addressed stays as it is. -/
theorem enqueueAll_of_not_mem {ks : List Nat} (hk : k ∉ ks) : enqueueAll queue ev ks k = queue k := by
  induction ks generalizing queue with
  | nil => rfl
  | cons j ks ih =>
      rw [List.mem_cons, not_or] at hk
      rw [enqueueAll, ih hk.2, enqueue]
      split
      · rw [Function.update_of_ne hk.1]
      · rfl

/-- A queue with room gets the event. -/
theorem enqueueAll_of_mem {ks : List Nat} (hk : k ∈ ks) (hroom : (queue k).length < queueSize) :
    ∃ more, enqueueAll queue ev ks k = queue k ++ ev :: more := by
  induction ks generalizing queue with
  | nil => cases hk
  | cons j ks ih =>
      rw [enqueueAll]
      by_cases hkj : k = j
      · obtain ⟨more, h⟩ := enqueueAll_append (enqueue queue ev j) ev ks k
        rw [h, ← hkj, enqueue, if_pos hroom, Function.update_self]
        exact ⟨more, by simp⟩
      · have hsame : enqueue queue ev j k = queue k := by
          rw [enqueue]
          split
          · rw [Function.update_of_ne hkj]
          · rfl
        have hks : k ∈ ks := by
          rcases List.mem_cons.mp hk with h | h
          · exact absurd h hkj
          · exact h
        have hroom' : (enqueue queue ev j k).length < queueSize := by
          rw [hsame]
          exact hroom
        obtain ⟨more, h⟩ := ih hks hroom'
        exact ⟨more, by rw [h, hsame]⟩

theorem gapped_append (queue : Nat → List StreamEvent) (rs : List SlotRef) (k : Nat) :
    ∃ more, gapped slot queue rs k = queue k ++ more := by
  induction rs generalizing queue with
  | nil => exact ⟨[], (List.append_nil _).symm⟩
  | cons r rs ih =>
      obtain ⟨more, h⟩ := ih (enqueueAll queue .gap (slot r).consumers)
      obtain ⟨more', h'⟩ := enqueueAll_append queue .gap (slot r).consumers k
      exact ⟨more' ++ more, by rw [gapped, h, h', List.append_assoc]⟩

/-- After the slots `rs` have been told of the gap, a consumer with room has `GAP` next, or it
belongs to none of them. -/
theorem gapped_cases {rs : List SlotRef}
    (hroom : ∀ r ∈ rs, k ∈ (slot r).consumers → (queue k).length < queueSize) :
    (gapped slot queue rs k = queue k ∧ ∀ r ∈ rs, k ∉ (slot r).consumers)
      ∨ ∃ more, gapped slot queue rs k = queue k ++ .gap :: more := by
  induction rs generalizing queue with
  | nil => exact .inl ⟨rfl, by nofun⟩
  | cons r rs ih =>
      rw [gapped]
      by_cases hk : k ∈ (slot r).consumers
      · have htold : ∃ more, enqueueAll queue .gap (slot r).consumers k = queue k ++ .gap :: more :=
          enqueueAll_of_mem hk (hroom r List.mem_cons_self hk)
        obtain ⟨more, h⟩ := htold
        obtain ⟨more', h'⟩ : ∃ more', gapped slot (enqueueAll queue .gap (slot r).consumers) rs k
            = enqueueAll queue .gap (slot r).consumers k ++ more' := gapped_append _ rs k
        exact .inr ⟨more ++ more', by rw [h', h]; simp⟩
      · have hsame : enqueueAll queue .gap (slot r).consumers k = queue k :=
          enqueueAll_of_not_mem hk
        have hroom' : ∀ p ∈ rs, k ∈ (slot p).consumers →
            (enqueueAll queue .gap (slot r).consumers k).length < queueSize := by
          intro p hp hmem
          rw [hsame]
          exact hroom p (List.mem_cons_of_mem _ hp) hmem
        have hrest := ih hroom'
        rw [hsame] at hrest
        rcases hrest with ⟨heq, hnone⟩ | hmore
        · refine .inl ⟨heq, ?_⟩
          intro p hp
          rcases List.mem_cons.mp hp with hp | hp
          · rw [hp]
            exact hk
          · exact hnone p hp
        · exact .inr hmore

end

/-! ### What a consumer reads

There is one case for each step of the manager, and most of them put nothing on the queue of
the consumer.  A reconnect does when its turn comes, once for each slot.
-/

/-- What the consumer `k` reads in a step. -/
def readBy (k : Nat) : Bool × Op → List StreamEvent
  | (_, .read j ev) => if j = k then [ev] else []
  | _ => []

/-- What the consumer `k` reads in the steps `ls`. -/
def reads (k : Nat) (ls : List (Bool × Op)) : List StreamEvent := ls.flatMap (readBy k)

/-- `on_reconnect` gets the lock in this step, and clears the routing map. -/
def StartsReconnect (m : Manager) (e : Bool × Op) : Prop := ∃ rest, ReconnectAtLock m e.2 rest

/-- Between any event of the first list and any event of the second there is a `GAP`. -/
def GapBetween (before after : List StreamEvent) : Prop :=
  ∀ a x mid mid' y b, before = a ++ .event x :: mid → after = mid' ++ .event y :: b →
    .gap ∈ mid ++ mid'

/-- The slots whose consumers are told of the gap in a step. -/
def told (m : Manager) : Bool × Op → List SlotRef
  | (connected, .answer .reconnect outcome) =>
      match m.reconnecting, outcome with
      | .resubscribing r rest, .error _ => r :: refusedAtOnce connected rest
      | .resubscribing r rest, .ok newId =>
          if newId.isHashable then r :: refusedAtOnce connected rest else []
      | _, _ => []
  | e => m.refusedAtStart e

/-- Every consumer that is told of the gap in the step has room in its queue. -/
def Roomy (m : Manager) (e : Bool × Op) : Prop :=
  ∀ r ∈ m.told e, ∀ k ∈ (m.slot r).consumers, (m.queue k).length < queueSize

instance (m : Manager) (e : Bool × Op) : Decidable (Roomy m e) := by
  unfold Roomy
  infer_instance

/-- The stream has been opened. -/
def opened : Phase → Bool
  | .streaming _ _ => true
  | .removing _ _ => true
  | .unsubscribing _ => true
  | .closed => true
  | _ => false

/-- No event can reach the consumer. -/
def Unrouted (m : Manager) (k : Nat) : Prop :=
  ∀ id r, m.bySubId.get? id = some r → k ∉ (m.slot r).consumers

/-- After a reconnect with `q` on its queue, the consumer `k` has read `rds`: either no event
can reach it before `GAP`, or `GAP` is behind what was queued. -/
structure Across (m : Manager) (q : List StreamEvent) (k : Nat) (rds : List StreamEvent) : Prop where
  opened : opened (m.phase k) = true
  next : (rds ++ m.queue k = q ∧ m.Unrouted k) ∨ ∃ more, rds ++ m.queue k = q ++ .gap :: more

section

variable {m m' : Manager} {q rds : List StreamEvent} {k : Nat}

theorem opened_update {phase : Nat → Phase} {j : Nat} {p : Phase} (h : opened (phase k) = true)
    (hj : opened (phase j) = false ∨ opened p = true) :
    opened (Function.update phase j p k) = true := by
  by_cases hkj : k = j
  · rw [hkj, Function.update_self]
    rcases hj with hj | hj
    · rw [hkj, hj] at h
      cases h
    · exact hj
  · rw [Function.update_of_ne hkj]
    exact h

/-- A step that puts something on the queue, where `GAP` comes first if it is the first thing
after the reconnect. -/
theorem Across.extend (h : Across m q k rds) (hop : Manager.opened (m'.phase k) = true)
    (hq : ∃ more, m'.queue k = m.queue k ++ more)
    (hnext : m.Unrouted k → (m'.queue k = m.queue k ∧ m'.Unrouted k)
      ∨ ∃ more, m'.queue k = m.queue k ++ .gap :: more) : Across m' q k rds := by
  refine ⟨hop, ?_⟩
  rcases h.next with ⟨hread, hun⟩ | ⟨more, hread⟩
  · rcases hnext hun with ⟨hsame, hun'⟩ | ⟨more, hmore⟩
    · exact .inl ⟨by rw [hsame]; exact hread, hun'⟩
    · exact .inr ⟨more, by rw [hmore, ← List.append_assoc, hread]⟩
  · obtain ⟨more', hmore⟩ := hq
    exact .inr ⟨more ++ more', by rw [hmore, ← List.append_assoc, hread]; simp⟩

/-- A step in which `on_reconnect` tells the slots `rs` of the gap. -/
theorem Across.tell (h : Across m q k rds) (hop : Manager.opened (m'.phase k) = true)
    {rs : List SlotRef} (hq : m'.queue = gapped m.slot m.queue rs)
    (hroom : ∀ r ∈ rs, ∀ k ∈ (m.slot r).consumers, (m.queue k).length < queueSize)
    (hun : m.Unrouted k → (∀ r ∈ rs, k ∉ (m.slot r).consumers) → m'.Unrouted k) :
    Across m' q k rds := by
  refine h.extend hop ?_ ?_
  · rw [hq]
    exact gapped_append ..
  · intro hout
    rw [hq]
    rcases gapped_cases (fun r hr hmem => hroom r hr k hmem) with ⟨hsame, hnone⟩ | hmore
    · exact .inl ⟨hsame, hun hout hnone⟩
    · exact .inr hmore

/-- A step in which the consumer reads nothing. -/
theorem Across.quiet {e : Bool × Op} (h : Across m' q k rds) (he : readBy k e = []) :
    Across m' q k (rds ++ readBy k e) := by
  rw [he, List.append_nil]
  exact h

/-- A step that leaves the queue alone and brings the consumer no event. -/
theorem Across.frame (h : Across m q k rds) (hop : Manager.opened (m'.phase k) = true)
    (hq : m'.queue = m.queue) (hun : m.Unrouted k → m'.Unrouted k) : Across m' q k rds := by
  apply h.extend hop ⟨[], by rw [hq, List.append_nil]⟩
  intro h
  exact .inl ⟨by rw [hq], hun h⟩

theorem AtLock.not_opened {op : Op} {rest : List Task} {key : SlotKey} {params : Json}
    (h : AtLock m op k rest (.acquiring key params)) : Manager.opened (m.phase k) = false := by
  rcases h.2 with ⟨-, -, hk⟩ | ⟨-, -, happ⟩
  · rw [hk]
    rfl
  · cases happ with
    | subscribe hk _ =>
        rw [hk]
        rfl

theorem Approach.readBy_eq_nil {op : Op} {j : Nat} {p : Phase} (h : Approach m op j p)
    (connected : Bool) (k : Nat) : readBy k (connected, op) = [] := by
  cases h <;> rfl

theorem AtLock.readBy_eq_nil {op : Op} {j : Nat} {rest : List Task} {p : Phase}
    (h : AtLock m op j rest p) (connected : Bool) (k : Nat) : readBy k (connected, op) = [] := by
  rcases h.2 with ⟨hop, -⟩ | ⟨-, -, happ⟩
  · rw [hop]
    rfl
  · exact happ.readBy_eq_nil connected k

theorem ReconnectAtLock.readBy_eq_nil {op : Op} {rest : List Task}
    (h : ReconnectAtLock m op rest) (connected : Bool) (k : Nat) :
    readBy k (connected, op) = [] := by
  rcases h.2 with ⟨hop, -⟩ | ⟨hop, -⟩
  · rw [hop]
    rfl
  · rw [hop]
    rfl

theorem told_start {connected : Bool} {op : Op} {rest : List Task}
    (h : ReconnectAtLock m op rest) :
    m.told (connected, op) = refusedAtOnce connected m.slots.values := by
  rw [← refusedAtStart_eq h]
  rcases h.2 with ⟨hop, -⟩ | ⟨hop, -⟩ <;> rw [hop, told]
  · nofun
  · nofun

/-- The consumers of a slot that has just got a new one. -/
theorem mem_consumers_join {slot : SlotRef → Slot} {r : SlotRef} {j : Nat} (hk : k ≠ j) {r' : SlotRef}
    (h : k ∈ (Function.update slot r
      { slot r with consumers := (slot r).consumers ++ [j] } r').consumers) :
    k ∈ (slot r').consumers := by
  by_cases hr : r' = r
  · rw [hr, Function.update_self] at h
    rw [hr]
    rcases List.mem_append.mp h with h | h
    · exact h
    · exact absurd (List.mem_singleton.mp h) hk
  · rwa [Function.update_of_ne hr] at h

/-- A slot that has lost consumers has no new one. -/
theorem mem_of_mem_shrunk {slot : SlotRef → Slot} {r : SlotRef} {ks : List Nat}
    (hks : k ∈ ks → k ∈ (slot r).consumers) {r' : SlotRef}
    (h : k ∈ (Function.update slot r { slot r with consumers := ks } r').consumers) :
    k ∈ (slot r').consumers := by
  by_cases hr : r' = r
  · rw [hr, Function.update_self] at h
    rw [hr]
    exact hks h
  · rwa [Function.update_of_ne hr] at h

/-- A new slot has its creator as the only consumer. -/
theorem mem_of_created {slot : SlotRef → Slot} {r : SlotRef} {j : Nat} {s : Slot}
    (hs : s.consumers = [j]) (hk : k ≠ j) {r' : SlotRef}
    (h : k ∈ (Function.update slot r s r').consumers) : r' ≠ r ∧ k ∈ (slot r').consumers := by
  by_cases hr : r' = r
  · rw [hr, Function.update_self, hs] at h
    exact absurd (List.mem_singleton.mp h) hk
  · rw [Function.update_of_ne hr] at h
    exact ⟨hr, h⟩

/-- **Every step with room for `GAP` keeps the consumer's view.** -/
theorem Across.step (h : Across m q k rds) (hl : m.LockConsistent) {e : Bool × Op}
    (hroom : Roomy m e) (hs : m.step e = some m') : Across m' q k (rds ++ readBy k e) := by
  obtain ⟨connected, op⟩ := e
  have hne : ∀ j, Manager.opened (m.phase j) = false → k ≠ j := by
    intro j hj heq
    rw [← heq, h.opened] at hj
    cases hj
  cases effect_of_step hl hs with
  | closedAgain =>
      apply Across.quiet _ rfl
      exact h
  | ignored =>
      apply Across.quiet _ rfl
      exact h
  | @refused j _ _ _ hk =>
      apply Across.quiet _ rfl
      exact h.frame (opened_update h.opened (.inl (by rw [hk]; rfl))) rfl id
  | unsubscribed hk =>
      apply Across.quiet _ rfl
      exact h.frame (opened_update h.opened (.inr rfl)) rfl id
  | @waiting _ j p hk =>
      apply Across.quiet _ (hk.readBy_eq_nil connected k)
      refine h.frame (opened_update h.opened ?_) rfl id
      cases hk with
      | subscribe hk _ => exact .inl (by rw [hk]; rfl)
      | aclose hk => exact .inr rfl
  | @joined _ j key params r rest hk hr =>
      apply Across.quiet _ (hk.readBy_eq_nil connected k)
      refine h.frame (opened_update h.opened (.inr rfl)) rfl ?_
      intro hun id r' hr' hmem
      exact hun id r' hr' (mem_consumers_join (hne j hk.not_opened) hmem)
  | asked hk hr hc =>
      apply Across.quiet _ (hk.readBy_eq_nil connected k)
      exact h.frame (opened_update h.opened (.inl hk.not_opened)) rfl id
  | turnedAway hk =>
      apply Across.quiet _ (hk.readBy_eq_nil connected k)
      exact h.frame (opened_update h.opened (.inl hk.not_opened)) rfl id
  | gone hk hmem =>
      apply Across.quiet _ (hk.readBy_eq_nil connected k)
      exact h.frame (opened_update h.opened (.inr rfl)) rfl id
  | @left _ j key r rest hk hmem hnonempty =>
      apply Across.quiet _ (hk.readBy_eq_nil connected k)
      refine h.frame (opened_update h.opened (.inr rfl)) rfl ?_
      intro hun id r' hr' hmem'
      exact hun id r' hr' (mem_of_mem_shrunk List.mem_of_mem_erase hmem')
  | @ended _ j key r rest p hk hmem hnil hp =>
      apply Across.quiet _ (hk.readBy_eq_nil connected k)
      have hop : Manager.opened p = true := by
        rcases afterEnd_cases hp with hp | hp <;> rw [hp] <;> rfl
      refine h.frame (opened_update h.opened (.inr hop)) rfl ?_
      intro hun id r' hr' hmem'
      exact hun id r' (get?_of_forget hr') (mem_of_mem_shrunk (by nofun) hmem')
  | @created j key params subId hk hsub =>
      apply Across.quiet _ rfl
      refine h.frame (opened_update h.opened (.inr rfl)) rfl ?_
      have hkj := hne j (by rw [hk]; rfl)
      intro hun id r' hr' hmem
      rw [Dict.get?_set] at hr'
      split at hr'
      · cases hr'
        exact (mem_of_created rfl hkj hmem).1 rfl
      · exact hun id r' hr' (mem_of_created rfl hkj hmem).2
  | @createdUnhashable j key params subId hk hsub =>
      apply Across.quiet _ rfl
      refine h.frame (opened_update h.opened (.inl (by rw [setSlot_phase, hk]; rfl))) rfl ?_
      have hkj := hne j (by rw [hk]; rfl)
      intro hun id r' hr' hmem
      exact hun id r' hr' (mem_of_created rfl hkj hmem).2
  | unanswered hk =>
      apply Across.quiet _ rfl
      exact h.frame (opened_update h.opened (.inl (by rw [hk]; rfl))) rfl id
  | reconnectWaiting hrc =>
      apply Across.quiet _ rfl
      exact h.frame h.opened rfl id
  | @reconnectStarted _ rest hturn =>
      apply Across.quiet _ (hturn.readBy_eq_nil connected k)
      rw [Roomy, told_start hturn] at hroom
      exact h.tell h.opened rfl hroom fun _ _ _ _ hr => by cases hr
  | @notRenewed r rest e hrc =>
      apply Across.quiet _ rfl
      simp only [Roomy, told, hrc] at hroom
      exact h.tell h.opened rfl hroom (fun hun _ => hun)
  | @renewed r rest newId hrc hid =>
      apply Across.quiet _ rfl
      simp only [Roomy, told, hrc, hid, if_true] at hroom
      refine h.tell h.opened rfl hroom ?_
      intro hun hnone id r' hr' hmem
      have hmem' : k ∈ (m.slot r').consumers := by
        rw [← consumers_renew m r newId]
        exact hmem
      rw [Dict.get?_set] at hr'
      split at hr'
      · cases hr'
        exact hnone _ List.mem_cons_self hmem'
      · exact hun id r' hr' hmem'
  | @renewedUnhashable r rest newId hrc hid =>
      apply Across.quiet _ rfl
      refine h.frame h.opened rfl ?_
      intro hun id r' hr' hmem
      have hmem' : k ∈ (m.slot r').consumers := by
        rw [← consumers_renew m r newId]
        exact hmem
      exact hun id r' hr' hmem'
  | @dispatched payload result s r hn hr =>
      apply Across.quiet _ rfl
      refine Across.extend h h.opened (enqueueAll_append ..) ?_
      intro hun
      exact .inl ⟨enqueueAll_of_not_mem (hun _ r hr), hun⟩
  | @read j key r ev more hk hq =>
      by_cases hkj : j = k
      · rw [readBy, if_pos hkj]
        rw [hkj] at hq
        refine ⟨h.opened, ?_⟩
        have hsplit : ∀ rest, (rds ++ [ev]) ++ Function.update m.queue j more k = rest ↔
            rds ++ m.queue k = rest := by
          intro rest
          rw [hkj, Function.update_self, hq]
          simp
        simp only [hsplit]
        exact h.next
      · rw [readBy, if_neg hkj, List.append_nil]
        refine Across.extend h h.opened ⟨[], ?_⟩ ?_
        · rw [List.append_nil]
          exact Function.update_of_ne (Ne.symm hkj) ..
        · intro hun
          exact .inl ⟨Function.update_of_ne (Ne.symm hkj) .., hun⟩

/-! ### Whole runs

From the start of the reconnect on, `Across` is kept by every step; when the slot has been
renewed, `GAP` stands where it should, between the events before and those after.
-/

/-- The step in which `on_reconnect` gets the lock. -/
theorem Across.start {e : Bool × Op} (hstart : StartsReconnect m e)
    (hk : Manager.opened (m.phase k) = true) (hroom : Roomy m e) (hs : m.step e = some m') :
    Across m' (m.queue k) k [] := by
  obtain ⟨connected, op⟩ := e
  obtain ⟨rest, hturn⟩ := hstart
  rw [step_of_start hturn] at hs
  injection hs with hs
  rw [Roomy, told_start hturn] at hroom
  rw [← hs]
  refine ⟨hk, ?_⟩
  rcases gapped_cases (fun r hr hmem => hroom r hr k hmem) with ⟨hsame, -⟩ | hmore
  · exact .inl ⟨hsame, by nofun⟩
  · exact .inr hmore

theorem Across.run {ls : List (Bool × Op)} (h : Across m q k rds) (hwf : m.WellFormed)
    (hrun : Run Manager.step Roomy m ls m') : Across m' q k (rds ++ reads k ls) := by
  induction hrun generalizing rds with
  | nil m =>
      rw [reads, List.flatMap_nil, List.append_nil]
      exact h
  | cons hs hroom _ ih =>
      have := ih (h.step hwf.locks hroom hs) (hwf.step hs)
      rwa [List.append_assoc] at this

theorem wellFormed_of_run {ok : Manager → Bool × Op → Prop} {ls : List (Bool × Op)}
    (hrun : Run Manager.step ok init ls m) : m.WellFormed :=
  hrun.preserves (fun _ _ _ h _ hs => h.step hs) wellFormed_init

/-- **A consumer with room in its queue sees every reconnect.**  The events read before, and
those still queued when `on_reconnect` gets the lock, are separated by a `GAP` from
everything that comes later. -/
theorem gap_visible {ls₁ ls₂ : List (Bool × Op)} {e : Bool × Op} {m m' : Manager} {k : Nat}
    {key : SlotKey} {r : SlotRef} (h₁ : Run Manager.step Roomy init ls₁ m)
    (hstart : StartsReconnect m e) (hk : m.phase k = .streaming key r)
    (h₂ : Run Manager.step Roomy m (e :: ls₂) m') :
    GapBetween (reads k ls₁ ++ m.queue k) ((reads k ls₂).drop (m.queue k).length) := by
  have hwf := wellFormed_of_run h₁
  rcases h₂ with _ | ⟨hs, hroom, hrest⟩
  have hend := (Across.start hstart (by rw [hk]; rfl) hroom hs).run (hwf.step hs) hrest
  rw [List.nil_append] at hend
  intro a x mid mid' y b _ hafter
  rcases hend.next with ⟨hread, -⟩ | ⟨more, hread⟩
  · -- nothing beyond the queued events has been read
    rw [List.drop_eq_nil_of_le] at hafter
    · cases mid' <;> cases hafter
    · rw [← hread, List.length_append]
      exact Nat.le_add_right ..
  · apply List.mem_append_right
    have hle : (m.queue k).length ≤ (reads k ls₂).length := by
      by_contra hlt
      rw [List.drop_eq_nil_of_le (Nat.le_of_not_le hlt)] at hafter
      cases mid' <;> cases hafter
    have hgap : mid' ++ .event y :: (b ++ m'.queue k) = .gap :: more := by
      have := congrArg (List.drop (m.queue k).length) hread
      rw [List.drop_append_of_le_length hle, List.drop_left, hafter, List.append_assoc] at this
      exact this
    cases mid' with
    | nil => cases hgap
    | cons z zs =>
        injection hgap with hz
        rw [hz]
        exact List.mem_cons_self

end

/-! ### A full queue

A consumer that has not read for as many events as its queue holds is not told: the run fills
the queue, reconnects, and drains it.
-/

/-- A notification for the subscription `id`. -/
private def note (id : String) (n : Int) : Json :=
  .obj [("method", .str "eth_subscription"),
    ("params", .obj [("subscription", .str id), ("result", .int n)])]

/-- One event before a reconnect and one after it. -/
private def oneEach : List (Bool × Op) × (Bool × Op) × List (Bool × Op) :=
  ([(true, .subscribe 0 .newHeads .null), (true, .answer (.consumer 0) (.ok (.str "0xa"))),
      (true, .onNotification (note "0xa" 1))],
    (true, .onReconnect),
    [(true, .answer .reconnect (.ok (.str "0xb"))), (true, .onNotification (note "0xb" 2)),
      (true, .read 0 (.event (.int 1))), (true, .read 0 .gap), (true, .read 0 (.event (.int 2)))])

theorem gap_visible_once : GapBetween [.event (.int 1)] [.gap, .event (.int 2)] := by
  have h₁ : exec (guarded Manager.step Roomy) init oneEach.1
      = some ((exec Manager.step init oneEach.1).getD init) := by
    rfl
  have h₂ : exec (guarded Manager.step Roomy) ((exec Manager.step init oneEach.1).getD init)
      (oneEach.2.1 :: oneEach.2.2)
      = some ((exec Manager.step init
          (oneEach.1 ++ oneEach.2.1 :: oneEach.2.2)).getD init) := by
    rfl
  have hstart : StartsReconnect ((exec Manager.step init oneEach.1).getD init) oneEach.2.1 :=
    ⟨[], rfl, .inr ⟨rfl, rfl, rfl, rfl⟩⟩
  have hopen : ((exec Manager.step init oneEach.1).getD init).phase 0
      = .streaming (.newHeads, "null") 0 := by
    rfl
  exact gap_visible (run_of_exec_guarded h₁) hstart hopen (run_of_exec_guarded h₂)

/-- Notifications fill the queue of the only consumer of a slot. -/
theorem run_fill {id : String} {x : Int} {r : SlotRef} {k : Nat} (n : Nat) {m : Manager}
    (hid : m.bySubId.get? (.str id) = some r) (hk : (m.slot r).consumers = [k])
    (hroom : (m.queue k).length + n ≤ queueSize) :
    Run Manager.step unguarded m (List.replicate n (true, .onNotification (note id x)))
      { m with
        queue := Function.update m.queue k (m.queue k ++ List.replicate n (.event (.int x))) } := by
  induction n generalizing m with
  | zero =>
      rw [List.replicate_zero, List.replicate_zero, List.append_nil, Function.update_eq_self]
      exact .nil m
  | succ n ih =>
      have hput : enqueueAll m.queue (.event (.int x)) (m.slot r).consumers
          = Function.update m.queue k (m.queue k ++ [.event (.int x)]) := by
        rw [hk, enqueueAll, enqueueAll, enqueue, if_pos (by omega)]
      have hstep : m.step (true, .onNotification (note id x))
          = some { m with queue := Function.update m.queue k (m.queue k ++ [.event (.int x)]) } := by
        rw [step_onNotification, ← hput]
        exact congrArg some (afterNotification_of_notified rfl hid)
      have hqueue : Function.update m.queue k
            (m.queue k ++ List.replicate (n + 1) (StreamEvent.event (.int x)))
          = Function.update (Function.update m.queue k (m.queue k ++ [.event (.int x)])) k
            (Function.update m.queue k (m.queue k ++ [.event (.int x)]) k
              ++ List.replicate n (.event (.int x))) := by
        rw [Function.update_idem, Function.update_self, List.append_assoc]
        rfl
      rw [hqueue, List.replicate_succ]
      refine .cons hstep trivial (ih hid hk ?_)
      show (Function.update m.queue k (m.queue k ++ [.event (.int x)]) k).length + n ≤ queueSize
      rw [Function.update_self, List.length_append]
      show (m.queue k).length + 1 + n ≤ queueSize
      omega

/-- A stream reads what is queued. -/
theorem run_drain {k : Nat} {key : SlotKey} {r : SlotRef} (xs more : List StreamEvent)
    {m : Manager} (hk : m.phase k = .streaming key r)
    (hq : m.queue k = xs ++ more) :
    Run Manager.step unguarded m (xs.map fun ev => (true, .read k ev))
      { m with queue := Function.update m.queue k more } := by
  induction xs generalizing m with
  | nil =>
      rw [← show m.queue k = more from hq, Function.update_eq_self]
      exact .nil m
  | cons ev xs ih =>
      have hstep : m.step (true, .read k ev)
          = some { m with queue := Function.update m.queue k (xs ++ more) } := by
        rw [step, hk, hq]
        show (if ev = ev then _ else none) = _
        rw [if_pos rfl]
        rfl
      have hqueue : Function.update m.queue k more
          = Function.update (Function.update m.queue k (xs ++ more)) k more := by
        rw [Function.update_idem]
      rw [hqueue]
      exact .cons hstep trivial (ih hk (Function.update_self ..))

/-- A full queue drops `GAP`: a stream that then reads on has `x` next to what was queued. -/
theorem run_overflow {m : Manager} {r : SlotRef} {k : Nat} {key : SlotKey}
    {q : List StreamEvent} (id : String) (x : Int) (hvalues : m.slots.values = [r])
    (hk : (m.slot r).consumers = [k]) (hphase : m.phase k = .streaming key r)
    (hlock : m.lock = none) (hwaiters : m.waiters = []) (hrc : m.reconnecting = .idle)
    (hq : m.queue k = q) (hfull : queueSize ≤ q.length) :
    ∃ m', Run Manager.step unguarded m ((true, .onReconnect)
      :: (true, .answer .reconnect (.ok (.str id)))
      :: (q.map (fun ev => (true, .read k ev))
        ++ [(true, .onNotification (note id x)), (true, .read k (.event (.int x)))])) m' := by
  let m₁ : Manager := { m with
    bySubId := .empty, reconnecting := .resubscribing r [], lock := some .reconnect, waiters := [] }
  let m₂ : Manager := { m₁.setSlot r { m.slot r with subscriptionId := .str id } with
    bySubId := Dict.empty.set (.str id) r, reconnecting := .idle, lock := none }
  let m₃ : Manager := { m₂ with queue := Function.update m₂.queue k [] }
  have hdropped : enqueue m.queue .gap k = m.queue := by
    rw [enqueue, hq, if_neg (Nat.not_lt.mpr hfull)]
  have h₁ : m.step (true, .onReconnect) = some m₁ := by
    have hturn : ReconnectAtLock m .onReconnect [] :=
      ⟨hlock, .inr ⟨rfl, hwaiters, rfl, by rw [hrc]; rfl⟩⟩
    rw [step_of_start hturn, hvalues]
    rfl
  have h₂ : m₁.step (true, .answer .reconnect (.ok (.str id))) = some m₂ := by
    have hsame : enqueueAll m.queue .gap
        (Function.update m.slot r { m.slot r with subscriptionId := .str id } r).consumers
          = m.queue := by
      rw [Function.update_self]
      show enqueueAll m.queue .gap (m.slot r).consumers = _
      rw [hk, enqueueAll, enqueueAll, hdropped]
    show some { m₁.setSlot r { m.slot r with subscriptionId := .str id } with
      bySubId := Dict.empty.set (.str id) r, reconnecting := .idle, lock := none,
      queue := enqueueAll m.queue .gap
        (Function.update m.slot r { m.slot r with subscriptionId := .str id } r).consumers } = _
    rw [hsame]
    rfl
  have h₃ : Run Manager.step unguarded m₂ (q.map fun ev => (true, .read k ev)) m₃ :=
    run_drain q [] hphase (by rw [List.append_nil]; exact hq)
  have hcons : (m₃.slot r).consumers = [k] := by
    show (Function.update m.slot r { m.slot r with subscriptionId := .str id } r).consumers = [k]
    rw [Function.update_self]
    exact hk
  have hempty : m₃.queue k = [] := Function.update_self ..
  have h₄ := run_fill (x := x) 1 (m := m₃) (Dict.get?_set_self ..) hcons (by rw [hempty]; decide)
  have h₅ := run_drain [.event (.int x)] []
    (m := { m₃ with
      queue := Function.update m₃.queue k (m₃.queue k ++ List.replicate 1 (.event (.int x))) })
    hphase (by
      show Function.update m₃.queue k (m₃.queue k ++ List.replicate 1 (.event (.int x))) k = _
      rw [Function.update_self, hempty]
      rfl)
  exact ⟨_, .cons h₁ trivial (.cons h₂ trivial (run_append.mpr ⟨_, h₃,
    run_append.mpr ⟨_, h₄, h₅⟩⟩))⟩

theorem reads_map (k : Nat) (q : List StreamEvent) :
    reads k (q.map fun ev => (true, .read k ev)) = q := by
  induction q with
  | nil => rfl
  | cons ev q ih =>
      rw [List.map_cons, reads, List.flatMap_cons, readBy, if_pos rfl]
      exact congrArg (ev :: ·) ih

/-- One stream on its own slot, with nothing queued. -/
private theorem run_open : ∃ m, Run Manager.step unguarded init
      [(true, .subscribe 0 .newHeads .null), (true, .answer (.consumer 0) (.ok (.str "0xa")))] m
    ∧ m.bySubId.get? (.str "0xa") = some 0 ∧ (m.slot 0).consumers = [0] ∧ m.slots.values = [0]
    ∧ m.phase 0 = .streaming (.newHeads, "null") 0 ∧ m.lock = none ∧ m.waiters = []
    ∧ m.reconnecting = .idle ∧ m.queue 0 = [] :=
  ⟨_, run_of_exec rfl, rfl, rfl, rfl, rfl, rfl, rfl, rfl, rfl⟩

/-- With 1024 events on its queue, a consumer goes from one connection to the next without
noticing. -/
theorem gap_dropped : ¬ ∀ (ls₁ ls₂ : List (Bool × Op)) (e : Bool × Op) (m m' : Manager) (k : Nat)
    (key : SlotKey) (r : SlotRef), Run Manager.step unguarded init ls₁ m → StartsReconnect m e →
      m.phase k = .streaming key r → Run Manager.step unguarded m (e :: ls₂) m' →
        GapBetween (reads k ls₁ ++ m.queue k) ((reads k ls₂).drop (m.queue k).length) := by
  intro h
  obtain ⟨m₁, hopen, hid, hcons, hvalues, hphase, hlock, hwaiters, hrc, hempty⟩ := run_open
  have hfill := run_fill (x := 1) queueSize hid hcons (by rw [hempty, List.length_nil, Nat.zero_add])
  rw [hempty, List.nil_append] at hfill
  generalize hq : List.replicate queueSize (StreamEvent.event (.int 1)) = q at hfill
  have hlen : q.length = queueSize := by rw [← hq, List.length_replicate]
  have hqueue : Function.update m₁.queue 0 q 0 = q := Function.update_self ..
  obtain ⟨m', hrest⟩ := run_overflow (m := { m₁ with queue := Function.update m₁.queue 0 q })
    "0xb" 2 hvalues hcons hphase hlock hwaiters hrc hqueue (by rw [hlen])
  have hgap := h _ _ _ _ m' 0 _ 0 (run_append.mpr ⟨_, hopen, hfill⟩)
    ⟨[], hlock, .inr ⟨rfl, hwaiters, rfl, by rw [hrc]; rfl⟩⟩ hphase hrest
  have hlast : q = List.replicate 1023 (.event (.int 1)) ++ .event (.int 1) :: [] := by
    rw [← hq]
    exact List.replicate_succ'
  have hreads : reads 0 ((true, .answer .reconnect (.ok (.str "0xb")))
      :: (q.map (fun ev => (true, .read 0 ev))
        ++ [(true, .onNotification (note "0xb" 2)), (true, .read 0 (.event (.int 2)))]))
      = q ++ [.event (.int 2)] := by
    rw [reads, List.flatMap_cons, List.flatMap_append, ← reads, reads_map]
    rfl
  rw [hreads] at hgap
  have hdrop : (q ++ [StreamEvent.event (.int 2)]).drop q.length = [.event (.int 2)] :=
    List.drop_left ..
  have := hgap (reads 0 _ ++ List.replicate 1023 (.event (.int 1))) (.int 1) [] [] (.int 2) []
    (by
      show _ ++ Function.update m₁.queue 0 q 0 = _
      rw [hqueue, hlast, List.append_assoc])
    (by
      show (q ++ [StreamEvent.event (.int 2)]).drop (Function.update m₁.queue 0 q 0).length = _
      rw [hqueue, hdrop]
      rfl)
  cases this

end Manager

end ExecRestApi
