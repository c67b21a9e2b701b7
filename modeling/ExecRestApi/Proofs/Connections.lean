/-
The connections gauge counts the streams that are open.

A request is open from the moment it has subscribed until it is left, however that comes about.
Whatever the interleaving, the count of a label is the number of its open requests, and the
gauge shows the count.

The gauge is published from the count and not counted itself, so both have to be right: the
count changes by one where a stream begins to be open or ends, and every change is followed by
a publication in the same turn.  `Balanced` says the two together, for every label.
-/
import ExecRestApi.Model.Connections
import ExecRestApi.Proofs.Streams

namespace ExecRestApi

open Py Transition

namespace SseApp

/-- `_run_stream` has subscribed and has not been left. -/
def isOpen : At → Bool
  | .subscribing => false
  | .left _ => false
  | _ => true

/-- An open request of this label. -/
def opens (label : String) (c : Connection) : Bool :=
  decide (c.stream.label = label) && isOpen c.at_

/-- How many requests of a label are open. -/
def openOf (app : SseApp) (label : String) : Nat := app.connections.countP (opens label)

/-- What the gauge shows for a label. -/
def shown (metrics : Metrics) (label : String) : Option Number :=
  metrics.sseConnections.values.get? [("stream", label)]

/-- The books are right. -/
structure Balanced (app : SseApp) : Prop where
  metrics : ∃ metrics, app.metrics = some metrics
    ∧ ∀ label, shown metrics label = (app.counts.get? label).map .int
  counts : ∀ label, (app.counts.get? label).getD 0 = app.openOf label

variable {app app' : SseApp}

/-! ### One step

Whether a request is open is a function of the place it stands at, so a step changes the count
of its label by `delta` of two places and no other count.
-/

theorem isOpen_of_opening_or_live {a : At} (h : Stream.Opening a ∨ Stream.Live a) : isOpen a = true := by
  cases a with
  | subscribing => exact (h.elim id id).elim
  | left out => exact (h.elim id id).elim
  | _ => rfl

/-- An open request stays open or is left. -/
theorem isOpen_step {s : Stream} {a b : At} {m : Moment} (ha : isOpen a = true)
    (h : s.step a m = some b) : isOpen b = true ∨ ∃ out, b = .left out := by
  have hplace : Stream.Opening a ∨ Stream.Live a := by
    cases a with
    | subscribing => cases ha
    | left out => cases ha
    | preparing => exact .inl trivial
    | retrying => exact .inl trivial
    | replaying op k => exact .inl trivial
    | resuming => exact .inl trivial
    | listening finished => exact .inr trivial
    | writing finished frame => exact .inr trivial
    | closing out => exact .inr trivial
  rcases hplace with ho | hl
  · rcases (Stream.opening_step ho h).2 with ⟨-, hb⟩ | ⟨-, hb⟩
    · exact .inl (isOpen_of_opening_or_live hb)
    · exact .inr hb
  · rcases Stream.live_step hl h with hb | ⟨r, -, hb⟩
    · exact .inl (isOpen_of_opening_or_live (.inr hb))
    · exact .inr hb

/-- A request that has subscribed is open. -/
theorem isOpen_subscribed {s : Stream} {b : At} {m : Moment} (h : s.step .subscribing m = some b) :
    isOpen b = true ∨ ∃ out, b = .left out := by
  cases m with
  | woke w full => cases h
  | returned op r =>
      obtain ⟨-, rfl⟩ := Stream.step_returned h
      cases r with
      | ok v => exact .inl rfl
      | error r => exact .inr ⟨_, rfl⟩

/-- What a request adds to the count of its label when it goes on. -/
def delta (a b : At) : Int :=
  (if isOpen b then 1 else 0) - (if isOpen a then 1 else 0)

/-- A request publishes exactly what it changes. -/
theorem move_eq {s : Stream} {a b : At} {m : Moment} (i : Nat) (h : s.step a m = some b) :
    (delta a b = 0 ∧ app.move i s a b = { app with connections := app.connections.set i ⟨s, b⟩ })
      ∨ app.move i s a b
        = publishSseGauge { app with connections := app.connections.set i ⟨s, b⟩ } s.label
          (delta a b) := by
  cases ha : isOpen a with
  | true =>
      have hne : a ≠ .subscribing := by
        rintro rfl
        cases ha
      rcases isOpen_step ha h with hb | ⟨out, rfl⟩
      · refine .inl ⟨by rw [delta, ha, hb]; rfl, ?_⟩
        cases a with
        | subscribing => cases ha
        | left out => cases ha
        | _ =>
            cases b with
            | left out => cases hb
            | _ => rfl
      · refine .inr ?_
        rw [delta, ha]
        cases a with
        | subscribing => cases ha
        | left out => cases ha
        | _ => rfl
  | false =>
      cases a with
      | subscribing =>
          rcases isOpen_subscribed h with hb | ⟨out, rfl⟩
          · refine .inr ?_
            rw [delta, hb]
            cases b with
            | left out => cases hb
            | _ => rfl
          · exact .inl ⟨rfl, rfl⟩
      | left out =>
          rw [Stream.step_left] at h
          cases h
      | _ => cases ha

theorem openOf_set {i : Nat} {c : Connection} (hi : app.connections[i]? = some c) (b : At)
    (label : String) :
    (({ app with connections := app.connections.set i ⟨c.stream, b⟩ } : SseApp).openOf label : Int)
      = app.openOf label + if c.stream.label = label then delta c.at_ b else 0 := by
  obtain ⟨hlt, hget⟩ := List.getElem?_eq_some_iff.mp hi
  have hold : opens label app.connections[i] = true → 0 < app.connections.countP (opens label) := by
    intro hopen
    exact List.countP_pos_iff.mpr ⟨_, List.getElem_mem hlt, hopen⟩
  rw [hget] at hold
  have hset := List.countP_set (p := opens label) (a := ⟨c.stream, b⟩) hlt
  rw [hget] at hset
  show ((app.connections.set i ⟨c.stream, b⟩).countP (opens label) : Int)
    = app.connections.countP (opens label) + _
  rw [hset]
  by_cases hlabel : c.stream.label = label
  · have hopens : ∀ a : At, opens label ⟨c.stream, a⟩ = isOpen a := by
      intro a
      rw [opens, decide_eq_true hlabel, Bool.true_and]
    rw [show opens label c = isOpen c.at_ from hopens c.at_] at hold ⊢
    rw [hopens, if_pos hlabel, delta]
    cases ha : isOpen c.at_ with
    | true =>
        have hpos := hold ha
        cases isOpen b <;> simp <;> omega
    | false => cases isOpen b <;> simp
  · have hopens : ∀ a : At, opens label ⟨c.stream, a⟩ = false := by
      intro a
      rw [opens, decide_eq_false hlabel, Bool.false_and]
    rw [show opens label c = false from hopens c.at_, hopens, if_neg hlabel]
    simp

theorem shown_setSseConnections (metrics : Metrics) (stream : String) (value : Int) (label : String) :
    shown (metrics.setSseConnections stream value) label
      = if stream = label then some (.int value) else shown metrics label := by
  show (metrics.sseConnections.values.set [("stream", stream)] (.int value)).get? _ = _
  rw [Dict.get?_set]
  by_cases h : stream = label
  · rw [if_pos h, if_pos (by rw [h])]
  · rw [if_neg h, if_neg]
    · rfl
    · intro heq
      injection heq with heq
      injection heq with _ heq
      exact h heq

theorem sseConnections_incRequest (m : Metrics) (method pathTemplate : String) (status : Int) :
    (m.step (.incRequest method pathTemplate status)).sseConnections = m.sseConnections := by
  unfold Metrics.step
  dsimp only
  rcases h : m.incRequest method pathTemplate status with e | m'
  · rfl
  · obtain ⟨text, -, heq⟩ := bind_eq_ok.mp h
    cases heq
    rfl

/-- What is published is what is counted. -/
theorem Balanced.publish {stream : String} {d : Int} {connections : List Connection}
    (h : app.Balanced)
    (hopen : ∀ label, (({ app with connections := connections } : SseApp).openOf label : Int)
      = app.openOf label + if stream = label then d else 0) :
    (publishSseGauge { app with connections := connections } stream d).Balanced := by
  obtain ⟨metrics, hmetrics, hshown⟩ := h.metrics
  have hpublish : publishSseGauge { app with connections := connections } stream d
      = ⟨app.counts.set stream ((app.counts.get? stream).getD 0 + d),
        some (metrics.setSseConnections stream ((app.counts.get? stream).getD 0 + d)), connections⟩ := by
    rw [publishSseGauge]
    dsimp only
    rw [hmetrics]
  rw [hpublish]
  refine ⟨⟨_, rfl, fun label => ?_⟩, fun label => ?_⟩
  · rw [shown_setSseConnections, Dict.get?_set]
    by_cases hlabel : stream = label
    · rw [if_pos hlabel, if_pos hlabel]
      rfl
    · rw [if_neg hlabel, if_neg hlabel]
      exact hshown label
  · have hcount : (connections.countP (opens label) : Int)
        = app.openOf label + if stream = label then d else 0 := hopen label
    show ((app.counts.set stream _).get? label).getD 0 = (connections.countP (opens label) : Int)
    rw [Dict.get?_set, hcount, ← h.counts label]
    by_cases hlabel : stream = label
    · rw [if_pos hlabel, if_pos hlabel, hlabel]
      rfl
    · rw [if_neg hlabel, if_neg hlabel, Int.add_zero]

/-- **Each step keeps the books right.** -/
theorem Balanced.step {op : Op} (h : app.Balanced) (hs : app.step op = some app') : app'.Balanced := by
  cases op with
  | request s =>
      injection hs with hs
      rw [← hs]
      refine ⟨h.metrics, fun label => ?_⟩
      rw [openOf, List.countP_append, List.countP_singleton, opens, isOpen, Bool.and_false]
      exact h.counts label
  | moment i m =>
      rw [SseApp.step] at hs
      split at hs
      · cases hs
      · rename_i c hc
        split at hs
        · cases hs
        · rename_i b hb
          injection hs with hs
          rw [← hs]
          have hopen := openOf_set hc b
          rcases @move_eq app _ _ _ _ i hb with ⟨hzero, hmove⟩ | hmove
          · rw [hmove]
            refine ⟨h.metrics, fun label => ?_⟩
            rw [hopen, hzero, ite_self, Int.add_zero]
            exact h.counts label
          · rw [hmove]
            exact h.publish hopen
  | metric op =>
      obtain ⟨metrics, hmetrics, hshown⟩ := h.metrics
      have hkeep : ∀ {m' : Metrics}, m'.sseConnections = metrics.sseConnections →
          Balanced { app with metrics := some m' } := by
        intro m' heq
        refine ⟨⟨m', rfl, fun label => ?_⟩, h.counts⟩
        rw [shown, heq]
        exact hshown label
      cases op with
      | setSseConnections stream value => cases hs
      | incRequest method pathTemplate status =>
          injection hs with hs
          rw [← hs, hmetrics]
          exact hkeep (sseConnections_incRequest metrics method pathTemplate status)
      | _ =>
          injection hs with hs
          rw [← hs, hmetrics]
          exact hkeep rfl

/-- **The gauge shows how many streams are open**: in every run of any number of requests, however
each of them ends, the count of a label is the number of its open requests, and the gauge shows it
if it has ever been set. -/
theorem gauge_counts_open {metrics : Metrics} {ls : List Op}
    (hnew : ∀ label, shown metrics label = none)
    (h : Run step unguarded (init (some metrics)) ls app) (label : String) :
    (app.counts.get? label).getD 0 = app.openOf label
      ∧ ∃ m, app.metrics = some m
        ∧ (shown m label = none ∧ app.openOf label = 0
          ∨ shown m label = some (.int (app.openOf label))) := by
  have hstart : (init (some metrics)).Balanced :=
    ⟨⟨metrics, rfl, fun label => hnew label⟩, fun _ => rfl⟩
  have hbalanced := h.preserves (fun _ _ _ hI _ hs => Balanced.step hI hs) hstart
  obtain ⟨m, hm, hshown⟩ := hbalanced.metrics
  refine ⟨hbalanced.counts label, m, hm, ?_⟩
  have hcount := hbalanced.counts label
  rw [hshown label]
  cases hget : app.counts.get? label with
  | none =>
      rw [hget, Option.getD_none] at hcount
      exact .inl ⟨rfl, by omega⟩
  | some n =>
      rw [hget, Option.getD_some] at hcount
      rw [hcount]
      exact .inr rfl

/-- One stream opens and its client goes away, another one opens, and a third cannot subscribe. -/
private def comeAndGo : List Op :=
  [.request (Stream.blocks 64 none), .request (Stream.blocks 64 none), .request (Stream.syncStatus none),
    .moment 0 (.returned (.subscribe .newHeads .null) (.ok .null)),
    .moment 1 (.returned (.subscribe .newHeads .null) (.ok .null)),
    .metric (.setChainHeadBlock 9),
    .moment 2 (.returned (.subscribe .syncing .null) (.error .cancelled)),
    .moment 0 (.returned .prepare (.error .cancelled))]

theorem gauge_counts_open_once : ∃ app : SseApp, app.openOf "blocks" = 1 ∧ ∃ m, app.metrics = some m
    ∧ shown m "blocks" = some (.int 1) := by
  have h : exec step (init (some Metrics.new)) comeAndGo
      = some ((exec step (init (some Metrics.new)) comeAndGo).getD (init none)) := by
    rfl
  obtain ⟨m, hm, ⟨-, hnone⟩ | hshown⟩ := (gauge_counts_open (fun _ => rfl) (run_of_exec h) "blocks").2
  · cases hnone
  · exact ⟨_, rfl, m, hm, hshown⟩

end SseApp

end ExecRestApi
