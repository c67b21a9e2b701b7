/-
What the live loop of a stream writes.

The frames of the events that were taken, up to the first one that cannot be formatted,
with pings in between.  At most the last of them is missing: it is being written, its write
has failed, or the client was too slow for it.

`content` are the frames without the pings, `taken` the events that have been handed to the
loop, and `Told` puts the two side by side at each place the loop can stand at.  It is kept by
every step, so the theorem is about every run from the moment the loop is entered.

A client that is too slow is left: the buffer of its connection is full when the frame would be
written, and that frame is the one that is missing.
-/
import ExecRestApi.Proofs.LiveLoop

namespace ExecRestApi

open Py Transition

namespace Stream

/-- The frame an event is shown as, if it can be rendered. -/
def shown (s : Stream) : StreamEvent → Option SseFrame
  | .gap => some s.gapFrame
  | .event payload =>
      match s.formatter payload with
      | .error _ => some errorFrame
      | .ok parts => (renderParts parts).toOption

/-- The frames some events are shown as. -/
def framesOf (s : Stream) : List StreamEvent → List SseFrame
  | [] => []
  | ev :: evs =>
      match s.shown ev with
      | none => []
      | some frame => frame :: if s.goesOn ev then framesOf s evs else []

/-- A ping is a comment. -/
def isContent : SseFrame → Bool
  | .comment _ => false
  | _ => true

/-- The frames that were written, without the pings. -/
def content (ms : List Moment) : List SseFrame :=
  (ms.filterMap LiveLoop.frameWritten).filter isContent

/-- The events that were taken. -/
def taken (ms : List Moment) : List StreamEvent := ms.filterMap LiveLoop.itemOf

variable {s : Stream}

theorem isContent_of_shown {ev : StreamEvent} {frame : SseFrame} (h : s.shown ev = some frame) :
    isContent frame = true := by
  rcases ev with payload | _
  · rw [shown] at h
    split at h
    · injection h with h
      rw [← h]
      rfl
    · rename_i parts _
      rw [renderParts, formatEvent] at h
      split at h
      · injection h with h
        rw [← h]
        rfl
      · cases h
  · injection h with h
    rw [← h]
    rfl

theorem shown_of_goesOn {ev : StreamEvent} (h : s.goesOn ev = true) : ∃ frame, s.shown ev = some frame := by
  rcases ev with payload | _
  · rcases hformat : s.formatter payload with e | parts
    · rw [goesOn, hformat] at h
      cases h
    · rw [goesOn, hformat] at h
      rw [shown, hformat]
      exact Option.isSome_iff_exists.mp h
  · exact ⟨s.gapFrame, rfl⟩

/-- As long as no event has failed, the next one adds its frame. -/
theorem framesOf_append {evs : List StreamEvent} (h : evs.all s.goesOn = true) (ev : StreamEvent) :
    s.framesOf (evs ++ [ev]) = s.framesOf evs ++ (s.shown ev).toList := by
  induction evs with
  | nil =>
      rw [List.nil_append, framesOf, framesOf]
      cases s.shown ev with
      | none => rfl
      | some frame => simp [framesOf]
  | cons e evs ih =>
      rw [List.all_cons, Bool.and_eq_true] at h
      obtain ⟨frame, hframe⟩ := shown_of_goesOn h.1
      rw [List.cons_append, framesOf, framesOf, hframe, h.1, if_pos rfl, ih h.2]
      rfl

/-- After the first one that has failed, the others add nothing. -/
theorem framesOf_append_of_failed {evs : List StreamEvent} (h : evs.all s.goesOn = false)
    (more : List StreamEvent) : s.framesOf (evs ++ more) = s.framesOf evs := by
  induction evs with
  | nil => cases h
  | cons e evs ih =>
      rw [List.cons_append, framesOf, framesOf]
      rcases s.shown e with _ | frame
      · rfl
      · dsimp only
        cases hgoes : s.goesOn e with
        | false => rfl
        | true =>
            rw [List.all_cons, hgoes, Bool.true_and] at h
            rw [if_pos rfl, if_pos rfl, ih h]

theorem framesOf_begins {evs evs' : List StreamEvent} (h : evs <+: evs') :
    s.framesOf evs <+: s.framesOf evs'
      ∧ (s.framesOf evs').length + evs.length ≤ (s.framesOf evs).length + evs'.length := by
  obtain ⟨more, rfl⟩ := h
  induction more generalizing evs with
  | nil =>
      rw [List.append_nil]
      exact ⟨List.prefix_refl _, Nat.le_refl _⟩
  | cons ev more ih =>
      obtain ⟨hbegins, hlength⟩ := @ih (evs ++ [ev])
      rw [List.append_assoc, List.singleton_append] at hbegins hlength
      have hone : s.framesOf evs <+: s.framesOf (evs ++ [ev])
          ∧ (s.framesOf (evs ++ [ev])).length ≤ (s.framesOf evs).length + 1 := by
        cases hgoing : evs.all s.goesOn with
        | true =>
            rw [framesOf_append hgoing, List.length_append]
            refine ⟨List.prefix_append _ _, Nat.add_le_add_left ?_ _⟩
            cases s.shown ev <;> simp
        | false =>
            rw [framesOf_append_of_failed hgoing]
            exact ⟨List.prefix_refl _, Nat.le_succ _⟩
      refine ⟨hone.1.trans hbegins, ?_⟩
      rw [List.length_append, List.length_singleton] at hlength
      omega

/-- What has been written when the machine stands at `a`. -/
def Told (s : Stream) (ms : List Moment) : At → Prop
  | .listening finished =>
      content ms = s.framesOf (taken ms) ∧ finished = !(taken ms).all s.goesOn
  | .writing finished frame =>
      content ms ++ [frame].filter isContent = s.framesOf (taken ms)
        ∧ finished = !(taken ms).all s.goesOn
  | .closing _ | .left _ =>
      content ms <+: s.framesOf (taken ms)
        ∧ (s.framesOf (taken ms)).length ≤ (content ms).length + 1
  | _ => False

section

variable {ms : List Moment} {m : Moment} {a b : At}

theorem content_append (ms : List Moment) (m : Moment) :
    content (ms ++ [m]) = content ms ++ ((LiveLoop.frameWritten m).toList).filter isContent := by
  rw [content, List.filterMap_append, List.filter_append, LiveLoop.filterMap_one]
  rfl

theorem taken_append (ms : List Moment) (m : Moment) :
    taken (ms ++ [m]) = taken ms ++ (LiveLoop.itemOf m).toList := by
  rw [taken, List.filterMap_append, LiveLoop.filterMap_one]
  rfl

theorem content_append_none (ms : List Moment) (h : LiveLoop.frameWritten m = none) :
    content (ms ++ [m]) = content ms := by
  rw [content_append, h, Option.toList_none, List.filter_nil, List.append_nil]

theorem taken_append_none (ms : List Moment) (h : LiveLoop.itemOf m = none) :
    taken (ms ++ [m]) = taken ms := by
  rw [taken_append, h, Option.toList_none, List.append_nil]

/-- Everything is written but a frame at most. -/
theorem content_of_rest {rest : List SseFrame} (h : content ms ++ rest = s.framesOf (taken ms))
    (hrest : rest.length ≤ 1) :
    content ms <+: s.framesOf (taken ms)
      ∧ (s.framesOf (taken ms)).length ≤ (content ms).length + 1 := by
  refine ⟨⟨rest, h⟩, ?_⟩
  rw [← h, List.length_append]
  omega

/-- Everything is written. -/
theorem content_of_eq (h : content ms = s.framesOf (taken ms)) :
    content ms <+: s.framesOf (taken ms)
      ∧ (s.framesOf (taken ms)).length ≤ (content ms).length + 1 :=
  content_of_rest ((List.append_nil _).trans h) (Nat.zero_le _)

theorem length_filter_one (frame : SseFrame) : ([frame].filter isContent).length ≤ 1 :=
  List.length_filter_le ..

/-- A frame is there. -/
theorem told_deliver {finished full : Bool} {frame : SseFrame}
    (h : content ms ++ [frame].filter isContent = s.framesOf (taken ms))
    (hfin : finished = !(taken ms).all s.goesOn) : Told s ms (deliver finished full frame) := by
  cases full with
  | true => exact content_of_rest h (length_filter_one frame)
  | false => exact ⟨h, hfin⟩

/-- The loop takes the next event. -/
theorem told_turn {full : Bool} {ev : StreamEvent} {finished : Bool}
    (h : Told s ms (.listening finished)) (hgoing : (taken ms).all s.goesOn = true)
    (hm : taken (ms ++ [m]) = taken ms ++ [ev]) (hc : content (ms ++ [m]) = content ms) :
    Told s (ms ++ [m]) (s.turn full ev) := by
  have hframes : s.framesOf (taken (ms ++ [m])) = content (ms ++ [m]) ++ (s.shown ev).toList := by
    rw [hm, hc, framesOf_append hgoing, h.1]
  have hall : (taken (ms ++ [m])).all s.goesOn = s.goesOn ev := by
    rw [hm, List.all_append, hgoing, Bool.true_and]
    simp
  have hshown : ∀ {frame : SseFrame} {fin : Bool}, s.shown ev = some frame → s.goesOn ev = !fin →
      Told s (ms ++ [m]) (deliver fin full frame) := by
    intro frame fin hframe hgoes
    refine told_deliver ?_ (by rw [hall, hgoes, Bool.not_not])
    rw [hframes, hframe, List.filter_cons_of_pos (isContent_of_shown hframe)]
    rfl
  rcases ev with payload | _
  · rw [turn]
    rcases hformat : s.formatter payload with e | parts
    · exact hshown (by rw [shown, hformat]) (by rw [goesOn, hformat]; rfl)
    · dsimp only
      rcases hrender : renderParts parts with e | frame
      · have hnone : s.shown (.event payload) = none := by
          rw [shown, hformat]
          dsimp only
          rw [hrender]
          rfl
        dsimp only
        rw [LiveLoop.failed_eq]
        refine content_of_eq ?_
        rw [hframes, hnone]
        exact (List.append_nil _).symm
      · dsimp only
        refine hshown ?_ ?_
        · rw [shown, hformat]
          dsimp only
          rw [hrender]
          rfl
        · rw [goesOn, hformat]
          dsimp only
          rw [hrender]
          rfl
  · exact hshown rfl rfl

/-- A moment in which nothing is taken or written leaves the loop. -/
theorem told_leave {finished : Bool} {out : Left} (h : Told s ms (.listening finished))
    (hitem : LiveLoop.itemOf m = none) (hframe : LiveLoop.frameWritten m = none) :
    Told s (ms ++ [m]) (.closing out) := by
  refine content_of_eq ?_
  rw [content_append_none ms hframe, taken_append_none ms hitem, h.1]

/-- **A moment writes the next frame, or a ping, or leaves the loop.** -/
theorem told_woke {finished full : Bool} {w : Wake} (h : Told s ms (.listening finished)) :
    Told s (ms ++ [.woke w full]) (s.wake finished full w) := by
  have hcontent : content (ms ++ [.woke w full]) = content ms := content_append_none ms rfl
  cases w with
  | timeout now =>
      have htaken : taken (ms ++ [.woke (.timeout now) full]) = taken ms := taken_append_none ms rfl
      refine told_deliver ?_ (by rw [htaken]; exact h.2)
      rw [hcontent, htaken, ← h.1]
      exact List.append_nil _
  | item ev =>
      have htaken : taken (ms ++ [.woke (.item ev) full]) = taken ms ++ [ev] := by
        rw [taken_append]
        rfl
      rw [wake]
      cases hfin : finished with
      | true =>
          have hfailed : (taken ms).all s.goesOn = false := by
            have := h.2
            rw [hfin] at this
            simpa using this.symm
          rw [if_pos rfl]
          refine content_of_eq ?_
          rw [hcontent, htaken, framesOf_append_of_failed hfailed, h.1]
      | false =>
          have hgoing : (taken ms).all s.goesOn = true := by
            have := h.2
            rw [hfin] at this
            simpa using this.symm
          rw [if_neg Bool.false_ne_true]
          exact told_turn h hgoing htaken hcontent
  | ended => exact told_leave h rfl rfl
  | raised r =>
      rw [wake, LiveLoop.failed_eq]
      exact told_leave h rfl rfl

/-- **Each step keeps the account of what has been written.** -/
theorem told_step (h : Told s ms a) (hs : s.step a m = some b) : Told s (ms ++ [m]) b := by
  cases a with
  | listening finished =>
      cases m with
      | woke w full =>
          obtain ⟨fin, hat, rfl⟩ := step_woke hs
          injection hat with hat
          rw [← hat]
          exact told_woke h
      | returned op r =>
          have := (step_returned hs).1
          cases this
  | writing finished frame =>
      cases m with
      | woke w full =>
          obtain ⟨fin, hat, -⟩ := step_woke hs
          cases hat
      | returned op r =>
          obtain ⟨hop, rfl⟩ := step_returned hs
          injection hop with hop
          rw [← hop]
          have htaken : taken (ms ++ [.returned (.io (.write frame)) r]) = taken ms :=
            taken_append_none ms rfl
          cases r with
          | ok v =>
              refine ⟨?_, ?_⟩
              · rw [content_append, htaken]
                exact h.1
              · rw [htaken]
                exact h.2
          | error r =>
              rw [resume, LiveLoop.failed_eq]
              refine content_of_rest ?_ (length_filter_one frame)
              rw [content_append_none ms rfl, htaken]
              exact h.1
  | closing out =>
      cases m with
      | woke w full =>
          obtain ⟨fin, hat, -⟩ := step_woke hs
          cases hat
      | returned op r =>
          obtain ⟨hop, rfl⟩ := step_returned hs
          injection hop with hop
          have htold : ∀ out, Told s (ms ++ [.returned .aclose r]) (.left out) := by
            intro out
            refine ⟨?_, ?_⟩ <;> rw [content_append_none ms rfl, taken_append_none ms rfl]
            · exact h.1
            · exact h.2
          rw [← hop]
          cases r with
          | ok v => exact htold _
          | error r => exact htold _
  | left out =>
      rw [step_left] at hs
      cases hs
  | _ => exact h.elim

end

/-- **What the live loop writes are the frames of the events it takes**, all but the last at
most. -/
theorem live_frames {ms : List Moment} {a : At}
    (h : Run s.step unguarded (.listening false) ms a) :
    content ms <+: s.framesOf (taken ms)
      ∧ (s.framesOf (taken ms)).length ≤ (content ms).length + 1 := by
  have htold : Told s ms a := h.recorded (fun _ _ _ _ hold _ hs => told_step hold hs) ⟨rfl, rfl⟩
  cases a with
  | listening finished => exact content_of_eq htold.1
  | writing finished frame => exact content_of_rest htold.1 (length_filter_one frame)
  | closing out => exact htold
  | left out => exact htold
  | _ => exact htold.elim

end Stream

end ExecRestApi
