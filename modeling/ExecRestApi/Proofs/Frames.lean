/-
What one frame can do.

`_dispatch` runs inside `_read_loop`, so what it raises ends the connection.  `raised` says
what that is, and it is tied to the model of the socket first: a frame closes the socket
exactly if `_dispatch` raises.  A frame that `json.loads` can read then raises in one case
only, when it answers a pending request with an `error` member that the exception for it
cannot be built from.

What the socket does besides is not looked at here.  A frame that raises takes the connection
with it and every call that waits on it; that is a matter of the run lemmas of
`Proofs/Correlation.lean`.
-/
import ExecRestApi.Model.UpstreamWs

namespace ExecRestApi

open Py

/-- The id of a frame; `isinstance(True, int)`. -/
def carriedId (payload : List (String × Json)) : Option Int :=
  match Json.field? payload "id" with
  | some (.int n) => some n
  | some (.bool b) => some (if b then 1 else 0)
  | _ => none

/-- The text is an object with an integer id. -/
structure Responds (depth : Nat) (raw : String) (payload : List (String × Json)) (rid : Int) :
    Prop where
  loads : Json.loads depth raw.toList = .ok (.obj payload)
  carries : carriedId payload = some rid

/-- The exception for an `error` member can be built: it is an object, and `int` takes its code. -/
def Convertible (err : Json) : Prop :=
  ∃ fields, err = .obj fields ∧
    intRaises ((Json.field? fields "code").getD (.int (-32603))) = none

/-! ### Reading a frame

`json.loads` may fail, and then the frame is only logged.  Of what it has read three kinds are
told apart: a reply to an id, a notification, and anything else.
-/

theorem Responds.readFrame {depth : Nat} {raw : String} {payload : List (String × Json)} {rid : Int}
    (h : Responds depth raw payload rid) :
    readFrame depth raw = .reply rid (answerOf payload) := by
  obtain ⟨hloads, hcarries⟩ := h
  unfold ExecRestApi.readFrame
  rw [hloads]
  unfold carriedId at hcarries
  dsimp only
  split at hcarries
  · rename_i n hid
    cases hcarries
    rw [hid, if_neg (by simp)]
  · rename_i b hid
    cases hcarries
    rw [hid, if_neg (by simp)]
  · cases hcarries

theorem responds_of_readFrame {depth : Nat} {raw : String} {rid : Int} {answer : Answer}
    (h : readFrame depth raw = .reply rid answer) :
    ∃ payload, Responds depth raw payload rid ∧ answer = answerOf payload := by
  unfold readFrame at h
  split at h
  · cases h
  · cases h
  · rename_i payload hloads
    split_ifs at h
    split at h
    · rename_i n hid
      cases h
      exact ⟨payload, ⟨hloads, by rw [carriedId, hid]⟩, rfl⟩
    · rename_i b hid
      cases h
      exact ⟨payload, ⟨hloads, by rw [carriedId, hid]⟩, rfl⟩
    · cases h
  · cases h

/-- Only a text that is nested too deeply breaks the reader. -/
theorem loads_of_breaks {depth : Nat} {raw : String} {e : Exc}
    (h : readFrame depth raw = .breaks e) : Json.loads depth raw.toList = .error .recursion := by
  unfold readFrame at h
  split at h
  · assumption
  · cases h
  · split_ifs at h
    split at h <;> cases h
  · cases h

/-- What an answer needs to raise. -/
theorem answerOf_raises_iff {payload : List (String × Json)} :
    (∃ e, answerOf payload = .raises e) ↔
      ∃ err, Json.field? payload "error" = some err ∧ ¬ Convertible err := by
  unfold answerOf
  cases hfield : Json.field? payload "error" with
  | none =>
      constructor
      · intro ⟨e, h⟩
        cases h
      · intro ⟨err, h, _⟩
        cases h
  | some err =>
      have hiff : (∃ e, errorAnswer err = .raises e) ↔ ¬ Convertible err := by
        unfold errorAnswer Convertible
        cases err with
        | obj fields =>
            dsimp only
            cases hcode : intRaises ((Json.field? fields "code").getD (.int (-32603))) with
            | none =>
                constructor
                · intro ⟨e, h⟩
                  cases h
                · intro h
                  exact absurd ⟨fields, rfl, hcode⟩ h
            | some e =>
                constructor
                · intro _ ⟨fields', hobj, h⟩
                  cases hobj
                  rw [hcode] at h
                  cases h
                · exact fun _ => ⟨e, rfl⟩
        | _ =>
            constructor
            · intro _ ⟨fields, h, _⟩
              cases h
            · exact fun _ => ⟨.attributeError, rfl⟩
      constructor
      · intro h
        exact ⟨err, rfl, hiff.mp h⟩
      · intro ⟨err', h, hbad⟩
        cases h
        exact hiff.mpr hbad

/-! ### Dispatching it

A reply is looked up by its id first.  One that nobody waits for is dropped without a look at
its `error`, so what cannot be converted there does no harm.
-/

namespace UpstreamWs

/-- Dispatching a response to a pending request. -/
theorem dispatch_reply {s : UpstreamWs} {rid : Int} {f : Nat} (answer : Answer)
    (hget : s.pending.get? rid = some f) (hf : s.future f = .pending) :
    s.dispatch (.reply rid answer) =
      (match answer with
        | .result v => s.setFuture f (.result v)
        | .error e => s.setFuture f (.exception e)
        | .raises _ => { s with closed := true }) ∧
    s.raised (.reply rid answer) =
      match answer with
      | .raises e => some e
      | _ => none := by
  cases answer <;> simp [dispatch, raised, hget, hf]

/-- A response to no pending request does nothing. -/
theorem dispatch_reply_of_not_pending {s : UpstreamWs} {rid : Int} (answer : Answer)
    (h : ∀ f, s.pending.get? rid = some f → s.future f ≠ .pending) :
    s.dispatch (.reply rid answer) = s ∧ s.raised (.reply rid answer) = none := by
  cases hget : s.pending.get? rid with
  | none => cases answer <;> simp [dispatch, raised, hget]
  | some f =>
      have hf := h f hget
      cases hfuture : s.future f with
      | pending => exact absurd hfuture hf
      | _ => cases answer <;> simp [dispatch, raised, hget, hfuture]

/-- A frame closes the socket exactly if `_dispatch` raises. -/
theorem closed_dispatch (s : UpstreamWs) (frame : Frame) :
    (s.dispatch frame).closed = (s.closed || (s.raised frame).isSome) := by
  cases frame with
  | ignored => exact (Bool.or_false _).symm
  | notification payload => exact (Bool.or_false _).symm
  | breaks e => exact (Bool.or_true _).symm
  | reply rid answer =>
      by_cases hpending : ∃ f, s.pending.get? rid = some f ∧ s.future f = .pending
      · obtain ⟨f, hget, hf⟩ := hpending
        obtain ⟨hdispatch, hraised⟩ := dispatch_reply answer hget hf
        rw [hdispatch, hraised]
        cases answer with
        | result v => exact (Bool.or_false _).symm
        | error e => exact (Bool.or_false _).symm
        | raises e => exact (Bool.or_true _).symm
      · have hnone : ∀ f, s.pending.get? rid = some f → s.future f ≠ .pending :=
          fun f hget hf => hpending ⟨f, hget, hf⟩
        obtain ⟨hdispatch, hraised⟩ := dispatch_reply_of_not_pending answer hnone
        rw [hdispatch, hraised]
        exact (Bool.or_false _).symm

/-- What one frame does to the futures: the effect of a `_dispatch` that returns. -/
structure Contained (depth : Nat) (s : UpstreamWs) (raw : String) : Prop where
  returns : s.raised (readFrame depth raw) = none
  /-- Nothing happens to the socket and its requests, but for at most one call of
  `on_notification`; or the pending future whose id the frame carries is completed. -/
  effect : s.dispatch (readFrame depth raw) = s ∨
    ∃ payload rid f, Responds depth raw payload rid ∧ s.pending.get? rid = some f ∧
      s.future f = .pending ∧ notified (readFrame depth raw) = none ∧
      ((∃ v, s.dispatch (readFrame depth raw) = s.setFuture f (.result v)) ∨
        ∃ e, s.dispatch (readFrame depth raw) = s.setFuture f (.exception e))
  /-- A response to a pending request completes it, with the result or with the error. -/
  completes : ∀ payload rid f, Responds depth raw payload rid → s.pending.get? rid = some f →
    s.future f = .pending →
      (∃ v, answerOf payload = .result v ∧
        s.dispatch (readFrame depth raw) = s.setFuture f (.result v)) ∨
      ∃ e, answerOf payload = .error e ∧
        s.dispatch (readFrame depth raw) = s.setFuture f (.exception e)

/-- The frame answers a pending request with an error that cannot be converted. -/
def Unconvertible (depth : Nat) (s : UpstreamWs) (raw : String) : Prop :=
  ∃ payload rid f err, Responds depth raw payload rid ∧ s.pending.get? rid = some f ∧
    s.future f = .pending ∧ Json.field? payload "error" = some err ∧ ¬ Convertible err

/-- **What one frame does.**  It is contained exactly if it does not answer a pending request with
an `error` member that is no object or whose code `int` refuses. -/
theorem contained_iff (depth : Nat) (s : UpstreamWs) (raw : String)
    (hdepth : Json.loads depth raw.toList ≠ .error .recursion) :
    Contained depth s raw ↔ ¬ Unconvertible depth s raw := by
  constructor
  · intro h ⟨payload, rid, f, err, hresponds, hget, hf, herr, hbad⟩
    obtain ⟨e, he⟩ := answerOf_raises_iff.mpr ⟨err, herr, hbad⟩
    have hreturns := h.returns
    rw [hresponds.readFrame, (dispatch_reply _ hget hf).2, he] at hreturns
    cases hreturns
  · intro hconv
    -- a response to a pending request comes with an answer that does not raise
    have hanswer : ∀ payload rid f, Responds depth raw payload rid →
        s.pending.get? rid = some f → s.future f = .pending →
        s.raised (readFrame depth raw) = none ∧
          ((∃ v, answerOf payload = .result v ∧
            s.dispatch (readFrame depth raw) = s.setFuture f (.result v)) ∨
          ∃ e, answerOf payload = .error e ∧
            s.dispatch (readFrame depth raw) = s.setFuture f (.exception e)) := by
      intro payload rid f hresponds hget hf
      obtain ⟨hdispatch, hraised⟩ := dispatch_reply (answerOf payload) hget hf
      rw [hresponds.readFrame, hdispatch, hraised]
      cases hans : answerOf payload with
      | result v => exact ⟨rfl, .inl ⟨v, rfl, rfl⟩⟩
      | error e => exact ⟨rfl, .inr ⟨e, rfl, rfl⟩⟩
      | raises e =>
          obtain ⟨err, herr, hbad⟩ := answerOf_raises_iff.mp ⟨e, hans⟩
          exact absurd ⟨payload, rid, f, err, hresponds, hget, hf, herr, hbad⟩ hconv
    have hcompletes := fun payload rid f hresponds hget hf =>
      (hanswer payload rid f hresponds hget hf).2
    cases hframe : readFrame depth raw with
    | ignored => exact ⟨by rw [hframe]; rfl, .inl (by rw [hframe]; rfl), hcompletes⟩
    | notification p => exact ⟨by rw [hframe]; rfl, .inl (by rw [hframe]; rfl), hcompletes⟩
    | breaks e => exact absurd (loads_of_breaks hframe) hdepth
    | reply rid answer =>
        obtain ⟨payload, hresponds, rfl⟩ := responds_of_readFrame hframe
        by_cases hpending : ∃ f, s.pending.get? rid = some f ∧ s.future f = .pending
        · obtain ⟨f, hget, hf⟩ := hpending
          obtain ⟨hraised, hdone⟩ := hanswer payload rid f hresponds hget hf
          refine ⟨hraised, .inr ⟨payload, rid, f, hresponds, hget, hf, by rw [hframe]; rfl, ?_⟩,
            hcompletes⟩
          rcases hdone with ⟨v, -, hv⟩ | ⟨e, -, he⟩
          · exact .inl ⟨v, hv⟩
          · exact .inr ⟨e, he⟩
        · have hnone : ∀ f, s.pending.get? rid = some f → s.future f ≠ .pending :=
            fun f hget hf => hpending ⟨f, hget, hf⟩
          obtain ⟨hdispatch, hraised⟩ := dispatch_reply_of_not_pending (answerOf payload) hnone
          rw [← hframe] at hdispatch hraised
          exact ⟨hraised, .inl hdispatch, hcompletes⟩

/-- A socket with one request on it. -/
def oneRequest : UpstreamWs :=
  { init with
    nextId := 2
    pending := ⟨[(1, 0)], List.nodup_singleton 1⟩
    nextFuture := 1
    runner := .reading
    socket := some 0
    nextSocket := 1
    connectedEvent := true }

/-- The request is answered with an error that has a code and nothing else. -/
def plainError : String := "\x7b\"id\": 1, \"error\": \x7b\"code\": -32000\x7d\x7d"

theorem contained_plainError : Contained 9 oneRequest plainError := by
  have hloads : Json.loads 9 plainError.toList =
      .ok (.obj [("id", .int 1), ("error", .obj [("code", .int (-32000))])]) := by decide +kernel
  refine (contained_iff 9 oneRequest plainError (by rw [hloads]; nofun)).mpr ?_
  intro ⟨payload, rid, f, err, hresponds, hget, hf, herr, hbad⟩
  have hpayload := hresponds.loads
  rw [hloads] at hpayload
  cases hpayload
  cases herr
  exact hbad ⟨_, rfl, rfl⟩

/-- The same with a string for an error. -/
def textError : String := "\x7b\"id\": 1, \"error\": \"boom\"\x7d"

/-- **One odd reply.**  Its text is shallow, the request is pending, and the connection is lost. -/
theorem not_contained :
    Json.loads 9 textError.toList = .ok (.obj [("id", .int 1), ("error", .str "boom")]) ∧
      oneRequest.raised (readFrame 9 textError) = some .attributeError ∧
      (oneRequest.dispatch (readFrame 9 textError)).closed = true ∧
      ¬ Contained 9 oneRequest textError := by
  have hframe : readFrame 9 textError = .reply 1 (.raises .attributeError) := by decide +kernel
  have hraised : oneRequest.raised (readFrame 9 textError) = some .attributeError := by
    rw [hframe]
    rfl
  refine ⟨by decide +kernel, hraised, ?_, ?_⟩
  · rw [closed_dispatch, hraised]
    rfl
  · intro h
    have hreturns := h.returns
    rw [hraised] at hreturns
    cases hreturns

end UpstreamWs

end ExecRestApi
