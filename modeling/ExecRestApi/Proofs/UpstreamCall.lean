/-
What `UpstreamClient.call` promises, and when it keeps it.

The callers rely on two exception types and on one report per call.  `CallContract` is that
promise.  It is kept exactly if nothing escapes the three `try` blocks: the body of the request
can be printed, the HTTP library raises nothing but its own errors, the answer is not nested too
deeply, and the code of an error object is one that `int` takes.

The promise has two directions: a result is returned exactly if the body has one, and an error
is raised with what the body says, `code`, `message` and `data`.  A timeout is one of the
exceptions that are not the library's own, so it reaches the caller, and the report says that
all went well.
-/
import ExecRestApi.Model.UpstreamCall

namespace ExecRestApi

open Py

/-! ### The promise

`Answers` and the definitions after it are about the body of a response, as JSON.  They do not
mention the client.
-/

/-- The payload of a response with status 200. -/
def Answers (depth : Nat) (x : Exchange) (payload : Json) : Prop :=
  ∃ s, x = .response 200 (.text s) ∧ bodyJson depth s = .ok payload

/-- The response has a result and no error. -/
def AnswersResult (depth : Nat) (x : Exchange) (v : Json) : Prop :=
  ∃ fields, Answers depth x (.obj fields) ∧ Json.field? fields "error" = none ∧
    Json.field? fields "result" = some v

/-- The response has an error object. -/
def AnswersError (depth : Nat) (x : Exchange) (err : List (String × Json)) : Prop :=
  ∃ fields, Answers depth x (.obj fields) ∧ Json.field? fields "error" = some (.obj err)

/-- The exception carries what the error object says. -/
structure CarriesError (py : Printing) (err : List (String × Json)) (e : JsonRpcError) : Prop where
  code : py.intOf ((Json.field? err "code").getD (.int (-32603))) = .ok e.code
  message : e.message = py.strOf ((Json.field? err "message").getD (.str ""))
  data : e.data = (Json.field? err "data").getD .null

/-- The status that goes with the end of a call. -/
def statusOf : Except Exc Json → CallStatus
  | .ok _ => .ok
  | .error (.jsonRpcError _) => .error
  | .error _ => .transportError

/-- What callers rely on. -/
structure CallContract (py : Printing) (depth : Nat) (onCall : Option OnCall) (method : String)
    (x : Exchange) (out : Except Exc Json) (seen : List (String × CallStatus)) : Prop where
  /-- Nothing but the two exceptions is raised. -/
  ends : (∃ v, out = .ok v) ∨ (∃ e, out = .error (.jsonRpcError e)) ∨
    ∃ text, out = .error (.upstreamError text)
  returns : ∀ v, out = .ok v ↔ AnswersResult depth x v
  rejects : ∀ e, out = .error (.jsonRpcError e) ↔
    ∃ err, AnswersError depth x err ∧ CarriesError py err e
  /-- One report, with the status that goes with the end. -/
  observed : seen = onCall.toList.map fun _ => (method, statusOf out)

/-- How a call may end. -/
def Ends (out : Except Exc Json) : Prop :=
  (∃ v, out = .ok v) ∨ (∃ e, out = .error (.jsonRpcError e)) ∨
    ∃ text, out = .error (.upstreamError text)

/-- Nothing escapes. -/
structure Tame (depth : Nat) (body : Json) (x : Exchange) : Prop where
  printed : ∃ text, printBody depth body = .ok text
  sent : ∀ e, x = .raised e → ∃ text, e = .clientError text
  read : ∀ e, x = .response 200 (.unread e) → ∃ text, e = .clientError text
  shallow : ∀ s, x = .response 200 (.text s) → bodyJson depth s ≠ .error .recursion
  code : ∀ err, AnswersError depth x err →
    intRaises ((Json.field? err "code").getD (.int (-32603))) = none

/-! ### The pieces

The three `try` blocks are the request, the body and the payload.  Each has its lemma, and what
escapes one of them is what `Tame` shuts out.
-/

theorem notifyCall_eq (onCall : Option OnCall) (method : String) (status : CallStatus) :
    notifyCall onCall method status = onCall.toList.map fun _ => (method, status) := by
  unfold notifyCall
  cases onCall with
  | none => rfl
  | some observe =>
      dsimp only
      cases observe method status <;> rfl

theorem intOf_error_iff (py : Printing) (v : Json) :
    (∃ e, py.intOf v = .error e) ↔ intRaises v ≠ none := by
  unfold Printing.intOf
  cases h : intRaises v with
  | some e => simp
  | none => cases v <;> simp_all [intRaises]

/-- What `int` raises is neither of the two exceptions of a call, and no `EncodingError`. -/
theorem intOf_error {py : Printing} {v : Json} {e : Exc} (h : py.intOf v = .error e) :
    (∀ err, e ≠ .jsonRpcError err) ∧ (∀ text, e ≠ .upstreamError text) ∧
      ∀ msg, e ≠ .encodingError msg := by
  unfold Printing.intOf at h
  split at h
  · rename_i e' hraises
    cases h
    unfold intRaises at hraises
    split at hraises <;> try split_ifs at hraises
    all_goals first
      | cases hraises; exact ⟨nofun, nofun, nofun⟩
      | cases hraises
  · split at h <;> cases h
    exact ⟨nofun, nofun, nofun⟩

section

variable {py : Printing} {depth : Nat} {x : Exchange}

/-- A payload comes from a response with status 200. -/
theorem callPayload_eq_ok {payload : Json} :
    callPayload py depth x = .ok payload ↔ Answers depth x payload := by
  constructor
  · intro h
    unfold callPayload at h
    split at h
    · cases h
    · rename_i status body
      split_ifs at h with hstatus
      split at h
      · cases h
      · cases h
      · rename_i s
        split at h
        · rename_i payload' hs
          cases h
          exact ⟨s, by rw [hstatus], hs⟩
        · cases h
        · cases h
  · rintro ⟨s, rfl, hs⟩
    simp only [callPayload, if_true, hs]

/-- What goes wrong before there is a payload. -/
theorem callPayload_eq_error {e : Exc} (h : callPayload py depth x = .error e) :
    (∀ err, e ≠ .jsonRpcError err) ∧
      ((∃ text, e = .upstreamError text) ↔
        (∀ e', x = .raised e' → ∃ text, e' = .clientError text) ∧
        (∀ e', x = .response 200 (.unread e') → ∃ text, e' = .clientError text) ∧
        ∀ s, x = .response 200 (.text s) → bodyJson depth s ≠ .error .recursion) := by
  have htransport : ∀ e', (∀ err, transportError e' ≠ .jsonRpcError err) ∧
      ((∃ text, transportError e' = .upstreamError text) ↔ ∃ text, e' = .clientError text) := by
    intro e'
    cases e' <;> simp [transportError]
  unfold callPayload at h
  split at h
  · rename_i e'
    cases h
    refine ⟨(htransport e').1, ?_⟩
    rw [(htransport e').2]
    constructor
    · intro htext
      refine ⟨?_, nofun, nofun⟩
      intro e'' he
      cases he
      exact htext
    · exact fun hsent => hsent.1 e' rfl
  · rename_i status body
    split_ifs at h with hstatus
    · subst hstatus
      split at h
      · rename_i e'
        cases h
        refine ⟨(htransport e').1, ?_⟩
        rw [(htransport e').2]
        constructor
        · intro htext
          refine ⟨nofun, ?_, nofun⟩
          intro e'' he
          cases he
          exact htext
        · exact fun hread => hread.2.1 e' rfl
      · cases h
        exact ⟨nofun, fun _ => ⟨nofun, nofun, nofun⟩, fun _ => ⟨_, rfl⟩⟩
      · rename_i s
        split at h
        · cases h
        · rename_i hs
          cases h
          refine ⟨nofun, nofun, ?_⟩
          intro ⟨_, _, hshallow⟩
          exact absurd hs (hshallow s rfl)
        · rename_i err hnot hs
          cases h
          refine ⟨nofun, fun _ => ⟨nofun, nofun, ?_⟩, fun _ => ⟨_, rfl⟩⟩
          intro s' hs' hrec
          cases hs'
          rw [hs] at hrec
          cases hrec
          exact hnot rfl
    · cases h
      refine ⟨nofun, fun _ => ⟨nofun, ?_, ?_⟩, fun _ => ⟨_, rfl⟩⟩
      · intro e' he
        cases he
        exact absurd rfl hstatus
      · intro s he
        cases he
        exact absurd rfl hstatus

/-- What a payload amounts to. -/
theorem readPayload_cases (py : Printing) (payload : Json) :
    (∃ fields err, payload = .obj fields ∧ Json.field? fields "error" = some (.obj err) ∧
      ((∃ e, readPayload py payload = (.error, .error (.jsonRpcError e)) ∧ CarriesError py err e) ∧
          intRaises ((Json.field? err "code").getD (.int (-32603))) = none ∨
        (∃ e, readPayload py payload = (.error, .error e) ∧ (∀ err, e ≠ .jsonRpcError err) ∧
            ∀ text, e ≠ .upstreamError text) ∧
          intRaises ((Json.field? err "code").getD (.int (-32603))) ≠ none)) ∨
    (∃ fields v, payload = .obj fields ∧ Json.field? fields "error" = none ∧
      Json.field? fields "result" = some v ∧ readPayload py payload = (.ok, .ok v)) ∨
    ((∀ fields err, payload = .obj fields → Json.field? fields "error" ≠ some (.obj err)) ∧
      (∀ fields v, payload = .obj fields → Json.field? fields "error" = none →
        Json.field? fields "result" ≠ some v) ∧
      ∃ text, readPayload py payload = (.ok, .error (.upstreamError text))) := by
  unfold readPayload
  split
  · rename_i fields
    split
    · rename_i err herr
      refine .inl ⟨fields, err, rfl, herr, ?_⟩
      cases hcode : py.intOf ((Json.field? err "code").getD (.int (-32603))) with
      | ok code =>
          refine .inl ⟨⟨_, rfl, hcode, rfl, rfl⟩, ?_⟩
          by_contra hraises
          obtain ⟨e, he⟩ := (intOf_error_iff py _).mpr hraises
          rw [hcode] at he
          cases he
      | error e =>
          obtain ⟨hjson, hup, -⟩ := intOf_error hcode
          exact .inr ⟨⟨e, rfl, hjson, hup⟩, (intOf_error_iff py _).mp ⟨e, hcode⟩⟩
    · rename_i err hnot herr
      refine .inr (.inr ⟨?_, ?_, _, rfl⟩)
      · intro fields' err' hobj hfield
        cases hobj
        rw [herr] at hfield
        cases hfield
        exact hnot err' rfl
      · intro fields' v hobj hnone
        cases hobj
        rw [herr] at hnone
        cases hnone
    · rename_i herr
      split
      · rename_i v hv
        exact .inr (.inl ⟨fields, v, rfl, herr, hv, rfl⟩)
      · rename_i hresult
        refine .inr (.inr ⟨?_, ?_, _, rfl⟩)
        · intro fields' err' hobj hfield
          cases hobj
          rw [herr] at hfield
          cases hfield
        · intro fields' v hobj hnone hfield
          cases hobj
          rw [hresult] at hfield
          cases hfield
  · rename_i hnot
    exact .inr (.inr ⟨fun fields _ hobj => absurd hobj (hnot fields),
      fun fields _ hobj => absurd hobj (hnot fields), _, rfl⟩)

theorem Answers.unique {payload payload' : Json} (h : Answers depth x payload)
    (h' : Answers depth x payload') : payload = payload' := by
  obtain ⟨s, rfl, hs⟩ := h
  obtain ⟨s', heq, hs'⟩ := h'
  cases heq
  rw [hs] at hs'
  cases hs'
  rfl

/-- A response that can be read is one that nothing went wrong with before. -/
theorem Answers.read {payload : Json} (h : Answers depth x payload) :
    (∀ e, x = .raised e → ∃ text, e = .clientError text) ∧
      (∀ e, x = .response 200 (.unread e) → ∃ text, e = .clientError text) ∧
      ∀ s, x = .response 200 (.text s) → bodyJson depth s ≠ .error .recursion := by
  obtain ⟨s, rfl, hs⟩ := h
  refine ⟨nofun, nofun, ?_⟩
  intro s' heq hrec
  cases heq
  rw [hs] at hrec
  cases hrec

/-- The error object of a payload, if it has one. -/
theorem AnswersError.unique {fields err err' : List (String × Json)} (h : Answers depth x (.obj fields))
    (herr : Json.field? fields "error" = some (.obj err)) (h' : AnswersError depth x err') :
    err' = err := by
  obtain ⟨fields', hanswers, herr'⟩ := h'
  cases h.unique hanswers
  rw [herr] at herr'
  cases herr'
  rfl

theorem not_answersError_of_none {fields : List (String × Json)} (h : Answers depth x (.obj fields))
    (herr : Json.field? fields "error" = none) (err : List (String × Json)) :
    ¬ AnswersError depth x err := by
  rintro ⟨fields', hanswers, herr'⟩
  cases h.unique hanswers
  rw [herr] at herr'
  cases herr'

theorem not_answersResult_of_some {fields : List (String × Json)} {err : Json}
    (h : Answers depth x (.obj fields)) (herr : Json.field? fields "error" = some err) (v : Json) :
    ¬ AnswersResult depth x v := by
  rintro ⟨fields', hanswers, hnone, -⟩
  cases h.unique hanswers
  rw [herr] at hnone
  cases hnone

/-- There is one exception for an error object. -/
theorem CarriesError.unique {err : List (String × Json)} {e e' : JsonRpcError}
    (h : CarriesError py err e) (h' : CarriesError py err e') : e = e' := by
  have hcode : e.code = e'.code := Except.ok.inj (h.code.symm.trans h'.code)
  cases e
  cases e'
  obtain rfl := hcode
  obtain rfl := h.message.trans h'.message.symm
  obtain rfl := h.data.trans h'.data.symm
  rfl

/-- How the reading of a payload ends. -/
theorem ends_of_payload {payload : Json} (h : Answers depth x payload) :
    Ends (readPayload py payload).2 ↔ ∀ err, AnswersError depth x err →
      intRaises ((Json.field? err "code").getD (.int (-32603))) = none := by
  rcases readPayload_cases py payload with ⟨fields, err, rfl, herr, hcases⟩ |
    ⟨fields, v, rfl, herr, hv, hout⟩ | ⟨hnot, hnoResult, text, hout⟩
  · rcases hcases with ⟨⟨e, hout, -⟩, hcode⟩ | ⟨⟨e, hout, hjson, hup⟩, hcode⟩
    · rw [hout]
      refine iff_of_true (.inr (.inl ⟨e, rfl⟩)) fun err' herr' => ?_
      rw [herr'.unique h herr]
      exact hcode
    · rw [hout]
      refine iff_of_false ?_ fun hall => hcode (hall err ⟨fields, h, herr⟩)
      rintro (⟨v, hv⟩ | ⟨e', he'⟩ | ⟨text, htext⟩)
      · cases hv
      · cases he'
        exact absurd rfl (hjson e')
      · cases htext
        exact absurd rfl (hup text)
  · rw [hout]
    exact iff_of_true (.inl ⟨v, rfl⟩) fun err herr' =>
      absurd herr' (not_answersError_of_none h herr err)
  · rw [hout]
    refine iff_of_true (.inr (.inr ⟨text, rfl⟩)) fun err herr' => ?_
    obtain ⟨fields', hanswers, herr'⟩ := herr'
    exact absurd herr' (hnot fields' err (h.unique hanswers))

/-- The rest of the contract of a payload that has been read. -/
theorem contract_of_payload {payload : Json} (onCall : Option OnCall) (method : String)
    (h : Answers depth x payload) (hends : Ends (readPayload py payload).2) :
    CallContract py depth onCall method x (readPayload py payload).2
      (notifyCall onCall method
        (finalStatus (readPayload py payload).1 (readPayload py payload).2)) := by
  rcases readPayload_cases py payload with ⟨fields, err, rfl, herr, hcases⟩ |
    ⟨fields, v, rfl, herr, hv, hout⟩ | ⟨hnot, hnoResult, text, hout⟩
  · rcases hcases with ⟨⟨e, hout, hcarries⟩, -⟩ | ⟨-, hcode⟩
    · rw [hout] at hends ⊢
      refine ⟨hends, fun v => ⟨nofun, fun hv => ?_⟩, fun e' => ⟨?_, ?_⟩, notifyCall_eq onCall method _⟩
      · exact absurd hv (not_answersResult_of_some h herr v)
      · intro he
        cases he
        exact ⟨err, ⟨fields, h, herr⟩, hcarries⟩
      · rintro ⟨err', herr', hcarries'⟩
        rw [herr'.unique h herr] at hcarries'
        rw [hcarries.unique hcarries']
    · exact absurd ((ends_of_payload h).mp hends err ⟨fields, h, herr⟩) hcode
  · rw [hout] at hends ⊢
    refine ⟨hends, fun v' => ⟨?_, ?_⟩, fun e => ⟨nofun, ?_⟩, notifyCall_eq onCall method _⟩
    · intro hv'
      cases hv'
      exact ⟨fields, h, herr, hv⟩
    · rintro ⟨fields', hanswers, -, hv'⟩
      cases h.unique hanswers
      rw [hv] at hv'
      cases hv'
      rfl
    · rintro ⟨err, herr', -⟩
      exact absurd herr' (not_answersError_of_none h herr err)
  · rw [hout] at hends ⊢
    refine ⟨hends, fun v => ⟨nofun, ?_⟩, fun e => ⟨nofun, ?_⟩, notifyCall_eq onCall method _⟩
    · rintro ⟨fields', hanswers, hnone, hv⟩
      exact absurd hv (hnoResult fields' v (h.unique hanswers) hnone)
    · rintro ⟨err, ⟨fields', hanswers, herr'⟩, -⟩
      exact absurd herr' (hnot fields' err (h.unique hanswers))

end

/-- What cannot be printed raises neither of the two exceptions, and no `EncodingError`. -/
theorem printBody_eq_error {depth : Nat} {body : Json} {e : Exc}
    (h : printBody depth body = .error e) :
    (∀ err, e ≠ .jsonRpcError err) ∧ (∀ text, e ≠ .upstreamError text) ∧
      ∀ msg, e ≠ .encodingError msg := by
  unfold printBody at h
  split_ifs at h
  · cases h
    exact ⟨nofun, nofun, nofun⟩
  · split at h
    · cases h
    · cases h
      exact ⟨nofun, nofun, nofun⟩

/-- A call does not end with an `EncodingError`. -/
theorem tryCall_ne_encodingError {py : Printing} {depth : Nat} {body : Json} {x : Exchange}
    (msg : Msg) : (tryCall py depth body x).2 ≠ .error (.encodingError msg) := by
  have htransport : ∀ e, Except.error (transportError e) ≠ (.error (.encodingError msg) :
      Except Exc Json) := by
    intro e
    cases e <;> exact nofun
  unfold tryCall
  cases hprint : printBody depth body with
  | error e =>
      rintro h
      cases h
      exact (printBody_eq_error hprint).2.2 msg rfl
  | ok text =>
      dsimp only
      cases hpayload : callPayload py depth x with
      | error e =>
          rintro h
          cases h
          unfold callPayload at hpayload
          split at hpayload
          · exact htransport _ hpayload
          · split_ifs at hpayload
            · split at hpayload
              · exact htransport _ hpayload
              · cases hpayload
              · split at hpayload <;> cases hpayload
            · cases hpayload
      | ok payload =>
          unfold readPayload
          dsimp only
          split
          · split
            · rename_i err herr
              cases hcode : py.intOf ((Json.field? err "code").getD (.int (-32603))) with
              | ok code => exact nofun
              | error e =>
                  rintro h
                  cases h
                  exact (intOf_error hcode).2.2 msg rfl
            · exact nofun
            · split <;> exact nofun
          · exact nofun

/-- How a call ends: with one of the two exceptions, if any, exactly if nothing escapes. -/
theorem ends_iff (py : Printing) (depth : Nat) (body : Json) (x : Exchange) :
    Ends (tryCall py depth body x).2 ↔ Tame depth body x := by
  unfold tryCall
  cases hprint : printBody depth body with
  | error e =>
      obtain ⟨hjson, hup, -⟩ := printBody_eq_error hprint
      refine iff_of_false ?_ fun htame => ?_
      · rintro (⟨v, hv⟩ | ⟨err, herr⟩ | ⟨text, htext⟩)
        · cases hv
        · cases herr
          exact absurd rfl (hjson err)
        · cases htext
          exact absurd rfl (hup text)
      · obtain ⟨text, htext⟩ := htame.printed
        rw [hprint] at htext
        cases htext
  | ok text =>
      dsimp only
      cases hpayload : callPayload py depth x with
      | error e =>
          obtain ⟨hjson, hup⟩ := callPayload_eq_error hpayload
          have hnone : ∀ err, ¬ AnswersError depth x err := by
            rintro err ⟨fields, hanswers, -⟩
            rw [callPayload_eq_ok.mpr hanswers] at hpayload
            cases hpayload
          constructor
          · rintro (⟨v, hv⟩ | ⟨err, herr⟩ | ⟨text', htext⟩)
            · cases hv
            · cases herr
              exact absurd rfl (hjson err)
            · cases htext
              obtain ⟨hsent, hread, hshallow⟩ := hup.mp ⟨text', rfl⟩
              exact ⟨⟨text, hprint⟩, hsent, hread, hshallow,
                fun err herr => absurd herr (hnone err)⟩
          · intro htame
            obtain ⟨text', rfl⟩ := hup.mpr ⟨htame.sent, htame.read, htame.shallow⟩
            exact .inr (.inr ⟨text', rfl⟩)
      | ok payload =>
          have hanswers := callPayload_eq_ok.mp hpayload
          obtain ⟨hsent, hread, hshallow⟩ := hanswers.read
          refine (ends_of_payload hanswers).trans ?_
          constructor
          · exact fun hcode => ⟨⟨text, hprint⟩, hsent, hread, hshallow, hcode⟩
          · exact fun htame => htame.code

/-- A call that ends as it should keeps the rest of its contract. -/
theorem contract_of_ends {py : Printing} {depth : Nat} {onCall : Option OnCall} {id : Nat}
    {method : String} {params : List Json} {x : Exchange}
    (hends : Ends (upstreamCall py depth onCall id method params x).1) :
    CallContract py depth onCall method x (upstreamCall py depth onCall id method params x).1
      (upstreamCall py depth onCall id method params x).2 := by
  have htame := (ends_iff py depth (requestBody id method params) x).mp hends
  obtain ⟨text, hprint⟩ := htame.printed
  unfold upstreamCall tryCall at hends ⊢
  rw [hprint] at hends ⊢
  dsimp only at hends ⊢
  cases hpayload : callPayload py depth x with
  | error e =>
      obtain ⟨-, hup⟩ := callPayload_eq_error hpayload
      obtain ⟨text', rfl⟩ := hup.mpr ⟨htame.sent, htame.read, htame.shallow⟩
      have hnone : ∀ payload, ¬ Answers depth x payload := by
        intro payload hanswers
        rw [callPayload_eq_ok.mpr hanswers] at hpayload
        cases hpayload
      refine ⟨.inr (.inr ⟨text', rfl⟩), fun v => ⟨nofun, ?_⟩, fun e => ⟨nofun, ?_⟩,
        notifyCall_eq onCall method _⟩
      · rintro ⟨fields, hanswers, -⟩
        exact absurd hanswers (hnone _)
      · rintro ⟨err, ⟨fields, hanswers, -⟩, -⟩
        exact absurd hanswers (hnone _)
  | ok payload =>
      rw [hpayload] at hends
      exact contract_of_payload onCall method (callPayload_eq_ok.mp hpayload) hends

/-- **When a call keeps its contract**: exactly if nothing escapes. -/
theorem call_contract_iff (py : Printing) (depth : Nat) (onCall : Option OnCall) (id : Nat)
    (method : String) (params : List Json) (x : Exchange) :
    CallContract py depth onCall method x (upstreamCall py depth onCall id method params x).1
        (upstreamCall py depth onCall id method params x).2 ↔
      Tame depth (requestBody id method params) x :=
  ⟨fun h => (ends_iff py depth _ x).mp h.ends,
    fun h => contract_of_ends ((ends_iff py depth _ x).mpr h)⟩

/-- Texts for values that are JSON as they stand, and numbers without an exponent. -/
def plainPrinting : Printing where
  loadsError := fun _ => "Expecting value: line 1 column 1 (char 0)"
  repr := fun v => String.ofList v.print
  str := fun v => String.ofList v.print
  truncate := fun text => (int? (String.ofList (text.toList.takeWhile fun c => c != '.'))).getD 0

/-- **A call that is not in time.**  The exception is none of the two, and the observer is told
that the call went well. -/
theorem call_timed_out :
    upstreamCall plainPrinting 9 (some fun _ _ => .ok ()) 1 "eth_blockNumber" [] (.raised .timeoutError) =
        (.error .timeoutError, [("eth_blockNumber", .ok)]) ∧
      ¬ CallContract plainPrinting 9 (some fun _ _ => .ok ()) "eth_blockNumber" (.raised .timeoutError)
        (.error .timeoutError) [("eth_blockNumber", .ok)] := by
  have hprint : ∃ text, printBody 9 (requestBody 1 "eth_blockNumber" []) = .ok text :=
    ⟨_, show _ = Except.ok (requestBody 1 "eth_blockNumber" []).print by decide +kernel⟩
  obtain ⟨text, hprint⟩ := hprint
  constructor
  · rw [upstreamCall, tryCall, hprint]
    rfl
  · intro hcontract
    rcases hcontract.ends with ⟨v, hv⟩ | ⟨err, herr⟩ | ⟨text, htext⟩
    · cases hv
    · cases herr
    · cases htext

end ExecRestApi
