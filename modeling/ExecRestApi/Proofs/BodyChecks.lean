/-
What the bodies of the other `POST` endpoints come to.

Every handler checks its body step by step.  What it does not accept it answers with a 400, unless
a check raises something that its `except` clause does not catch: a set does not take a list, a
pattern does not take a number, and not everything can be walked through.  As for the calls, the
checks are listed in the order they are made, and the handler begins the way the first complaint
of that list says.

`Reads` is the bridge: it says of one step of a handler which complaints it stands for, and
steps are put together in the order of the source (`Reads.unless`, `Reads.last`).  For each
endpoint there is then one list of verdicts and one lemma, and `answeredOrAsked_post` reads off
it which bodies are answered with a 400 or passed on, and which make the handler raise.
-/
import ExecRestApi.Lib.DecimalText
import ExecRestApi.Lib.JsonPlain
import ExecRestApi.Model.Accounts
import ExecRestApi.Model.TraceCalls
import ExecRestApi.Model.Traces
import ExecRestApi.Proofs.CallRequest
import ExecRestApi.Proofs.LogsPage

namespace ExecRestApi

open Py Interaction Checks
open Prog (Runs)

/-! ### How a handler begins

Up to its first call a handler answers, asks, or raises.  Which of them it is does not depend
on the upstream, so it is a function of the request: the opening of the handler's program.
-/

/-- A run that exchanges nothing ends with a 400. -/
def AnsweredOrAsked (p : Handler Response) : Prop :=
  ∀ tr out, Runs p tr out → tr = [] → ∃ resp, out = .ok resp ∧ resp.status = 400

/-- An answer as a verdict. -/
def answerVerdict (resp : Response) : Verdict := if resp.status = 400 then .refused else .broken

/-- How a handler begins: with a call, with an answer, or by raising. -/
def opening : Handler Response → Verdict
  | .pure resp => answerVerdict resp
  | .throw _ => .broken
  | .ask _ _ => .fine

theorem answeredOrAsked_iff {p : Handler Response} : AnsweredOrAsked p ↔ opening p ≠ .broken := by
  cases p with
  | pure resp =>
      show _ ↔ answerVerdict resp ≠ .broken
      unfold answerVerdict
      constructor
      · intro h
        obtain ⟨resp', hresp, hstatus⟩ := h [] (.ok resp) ⟨rfl, rfl⟩ rfl
        injection hresp with hresp
        rw [hresp, if_pos hstatus]
        nofun
      · intro h tr out hrun _
        refine ⟨resp, hrun.2, ?_⟩
        by_contra hne
        exact h (if_neg hne)
  | throw e =>
      refine iff_of_false (fun h => ?_) fun h => h rfl
      obtain ⟨resp, hresp, -⟩ := h [] (.error e) ⟨rfl, rfl⟩ rfl
      cases hresp
  | ask op k =>
      refine iff_of_true (fun tr out hrun htr => ?_) nofun
      obtain ⟨r, rest, hcons, -⟩ := hrun
      rw [htr] at hcons
      cases hcons

/-! ### Reading a request -/

/-- What was read of a request, as a verdict. -/
def reading {α : Type} : Except Exc (Response ⊕ α) → Verdict
  | .ok (.inr _) => .fine
  | .ok (.inl resp) => answerVerdict resp
  | .error _ => .broken

/-- It is read the way the first complaint of `vs` says. -/
def Reads {α : Type} (x : Except Exc (Response ⊕ α)) (vs : List Verdict) : Prop :=
  reading x = first vs

section

variable {α β : Type}

theorem reads_refused (path : String) (msg : Msg) :
    Reads (.ok (.inl (badRequest path msg)) : Except Exc (Response ⊕ α)) [.refused] := rfl

theorem Reads.unless {x : Except Exc (Response ⊕ α)} {f : α → Except Exc (Response ⊕ β)}
    {vs ws : List Verdict} (hx : Reads x vs) (hf : ∀ a, x = .ok (.inr a) → Reads (f a) ws) :
    Reads (unlessRefused x f) (vs ++ ws) := by
  unfold Reads at hx ⊢
  rw [first_append, ← hx]
  cases x with
  | error e => rfl
  | ok r =>
      cases r with
      | inl resp =>
          show answerVerdict resp = if answerVerdict resp = .fine then _ else answerVerdict resp
          unfold answerVerdict
          by_cases hstatus : resp.status = 400
          · rw [if_pos hstatus]
            rfl
          · rw [if_neg hstatus]
            rfl
      | inr a => exact hf a rfl

/-- Nothing can be refused any more. -/
theorem Reads.last {x : Except Exc (Response ⊕ α)} {f : α → β} {vs : List Verdict}
    (hx : Reads x vs) : Reads (unlessRefused x fun a => .ok (.inr (f a))) vs := by
  have h : Reads (unlessRefused x fun a => .ok (.inr (f a))) (vs ++ []) :=
    hx.unless fun a _ => rfl
  rwa [List.append_nil] at h

theorem reads_orBadRequest {x : Except Exc α} {vs : List Verdict} (path : String)
    (h : Meets Exc.isBadInput x vs) : Reads (orBadRequest path x) vs := by
  unfold Reads
  rw [← h]
  cases x with
  | ok a => rfl
  | error e =>
      unfold orBadRequest ending
      dsimp only
      split_ifs <;> rfl

end

theorem readJson_of_ok {req : Request} {body : Json} (h : req.body = .ok body) :
    readJson req = .ok (.inr body) := by
  unfold readJson
  rw [h]

/-! ### The block and the tracers

These are checked by several of the endpoints.  The block is read before the tracers in some
and after them in others, which is why each has verdicts of its own.
-/

/-- A block identifier, which has to be text unless it is falsy. -/
def onBlockId (v : Json) : List Verdict :=
  if v.isFalsy then [.refused]
  else match v with
    | .str s => [accepts (parseBlockId (.str s))]
    | _ => [.broken]

/-- The block of a body. -/
def onAt (body : List (String × Json)) : List Verdict :=
  onBlockId ((Json.field? body "at").getD (.str "latest"))

theorem meets_parseBlockId (v : Json) : Meets Exc.isBadInput (parseBlockId v) (onBlockId v) := by
  unfold onBlockId
  by_cases hfalsy : v.isFalsy = true
  · unfold parseBlockId
    rw [if_pos hfalsy, if_pos hfalsy]
    exact meets_refused rfl
  · rw [if_neg hfalsy]
    cases v with
    | str s => exact meets_accepts (parseBlockId_str_raises s)
    | _ =>
        unfold parseBlockId
        rw [if_neg hfalsy]
        exact meets_broken rfl

theorem meets_bodyAt (body : List (String × Json)) :
    Meets Exc.isBadInput (bodyAt body) (onAt body) :=
  (meets_parseBlockId _).map fun bid => ⟨bid.toRpcParam, rfl⟩

/-- A tracer, which is looked up in a set. -/
def onTracer : Json → List Verdict
  | .str s => if s ∈ allowedTracers then [] else [.refused]
  | .arr _ => [.broken]
  | .obj _ => [.broken]
  | _ => [.refused]

/-- The tracers of a body, of which there has to be one. -/
def onTracers : Json → List Verdict
  | .arr (t :: ts) => (t :: ts).flatMap onTracer
  | _ => [.refused]

/-- The loop over the tracers ends with the first that is not allowed. -/
theorem reads_orUnknownTracer (path : String) (unknown : Json → Msg) (tracers : List Json) :
    Reads (orUnknownTracer path unknown tracers) (tracers.flatMap onTracer) := by
  have hloop : ∀ ts : List Json, (∃ msg, checkTracers unknown ts = .ok (some msg) ∧
      first (ts.flatMap onTracer) = .refused) ∨
      (checkTracers unknown ts = .ok none ∧ first (ts.flatMap onTracer) = .fine) ∨
      ∃ e, checkTracers unknown ts = .error e ∧ first (ts.flatMap onTracer) = .broken := by
    intro ts
    induction ts with
    | nil => exact .inr (.inl ⟨rfl, rfl⟩)
    | cons t ts ih =>
        rw [List.flatMap_cons]
        cases t with
        | str s =>
            by_cases hs : s ∈ allowedTracers
            · have hnext : checkTracers unknown (.str s :: ts) = checkTracers unknown ts := by
                show (if decide (s ∈ allowedTracers) then _ else _ : Except Exc (Option Msg)) = _
                rw [if_pos (decide_eq_true hs)]
              rw [hnext, onTracer, if_pos hs]
              exact ih
            · refine .inl ⟨unknown (.str s), ?_, ?_⟩
              · show (if decide (s ∈ allowedTracers) then _ else _ : Except Exc (Option Msg)) = _
                rw [if_neg (by simpa using hs)]
                rfl
              · rw [onTracer, if_neg hs]
                rfl
        | arr items => exact .inr (.inr ⟨.typeError, rfl, rfl⟩)
        | obj fields => exact .inr (.inr ⟨.typeError, rfl, rfl⟩)
        | _ => exact .inl ⟨unknown _, rfl, rfl⟩
  unfold Reads orUnknownTracer
  rcases hloop tracers with ⟨msg, hcheck, hfirst⟩ | ⟨hcheck, hfirst⟩ | ⟨e, hcheck, hfirst⟩
  · rw [hcheck, hfirst]
    rfl
  · rw [hcheck, hfirst]
    rfl
  · rw [hcheck, hfirst]
    rfl

theorem reads_validateTracers (path : String) (v : Json) :
    Reads (validateTracers path v) (onTracers v) := by
  cases v with
  | arr tracers =>
      cases tracers with
      | nil => exact reads_refused path _
      | cons t ts => exact reads_orUnknownTracer path unknownTracer (t :: ts)
  | _ => exact reads_refused path _

/-! ### The calls

A simulation converts the calls of every block, and each call may carry overrides.  The
verdicts of the converters are those of `Proofs/CallRequest.lean`; what is added is where they
are asked.
-/

theorem meets_innerCall (c : Json) : Meets Exc.isBadInput (innerCall c) (callVerdicts c) :=
  (meets_callRequestToRpc c).map fun _ => ⟨_, rfl⟩

/-- An override of a block state; `None` is converted to nothing, which is then missed. -/
def onOverride (verdicts : Json → List Verdict) (key : String) (bsc : List (String × Json)) :
    List Verdict :=
  match Json.field? bsc key with
  | none => []
  | some .null => [.refused]
  | some v => verdicts v

/-- The calls of a block state. -/
def onCalls : Json → List Verdict
  | .arr calls => calls.flatMap callVerdicts
  | _ => [.refused]

/-- One entry of `blockStateCalls`. -/
def onBlockStateCall : Json → List Verdict
  | .obj bsc => onOverride onBlockOverrides "blockOverrides" bsc
      ++ onOverride onStateOverrides "stateOverrides" bsc
      ++ onCalls ((Json.field? bsc "calls").getD (.arr []))
  | _ => [.refused]

/-- The `blockStateCalls` of a body, which have to be something to walk through. -/
def onBlockStateCalls (v : Json) : List Verdict :=
  match v.iter? with
  | none => [.broken]
  | some items => items.flatMap onBlockStateCall

theorem field?_single (key : String) (v : Json) : Json.field? [(key, v)] key = some v := by
  unfold Json.field? Dict.lookupIn
  rw [if_pos rfl]

/-- A converter that puts what it has converted under its own key. -/
theorem meets_overrideOf {convert : List (String × Json) → List (String × Json) →
      Except Exc (List (String × Json))} {verdicts : Json → List Verdict} {key : String}
    (hmeets : ∀ v, Meets Exc.isBadInput (convert [] [(key, v)]) (verdicts v))
    (hnull : convert [] [(key, .null)] = .ok [])
    (hput : ∀ v tmp, v ≠ .null → convert [] [(key, v)] = .ok tmp → ∃ x, tmp = [(key, x)])
    (bsc out : List (String × Json)) :
    Meets Exc.isBadInput (overrideOf convert key bsc out) (onOverride verdicts key bsc) := by
  unfold overrideOf onOverride
  cases Json.field? bsc key with
  | none => exact meets_ok out
  | some v =>
      by_cases hv : v = .null
      · rw [hv]
        dsimp only
        rw [hnull]
        exact meets_refused rfl
      · have hverdicts : (match some v with
            | none => []
            | some .null => [.refused]
            | some v => verdicts v) = verdicts v := by
          cases v <;> first | exact absurd rfl hv | rfl
        rw [hverdicts]
        have hrest : ∀ tmp, convert [] [(key, v)] = .ok tmp → Meets Exc.isBadInput
            (do let x ← getItem (.obj tmp) key
                pure (Dict.setIn key x out) : Except Exc (List (String × Json))) [] := by
          intro tmp htmp
          obtain ⟨x, rfl⟩ := hput v tmp hv htmp
          unfold getItem
          dsimp only
          rw [field?_single]
          exact meets_ok _
        have hall := (hmeets v).bind hrest
        rwa [List.append_nil] at hall

theorem meets_blockOverrides (bsc out : List (String × Json)) :
    Meets Exc.isBadInput (overrideOf (convertBlockOverrides lower) "blockOverrides" bsc out)
      (onOverride onBlockOverrides "blockOverrides" bsc) := by
  refine meets_overrideOf (fun v => ?_) rfl (fun v tmp hv htmp => ?_) bsc out
  · exact meets_convertBlockOverrides [] [("blockOverrides", v)]
  · cases v with
    | null => exact absurd rfl hv
    | obj bo =>
        obtain ⟨x, _, hx⟩ := bind_eq_ok.mp htmp
        injection hx with hx
        exact ⟨.obj x, hx.symm⟩
    | _ => cases htmp

theorem meets_stateOverrides (bsc out : List (String × Json)) :
    Meets Exc.isBadInput (overrideOf (convertStateOverrides lower) "stateOverrides" bsc out)
      (onOverride onStateOverrides "stateOverrides" bsc) := by
  refine meets_overrideOf (fun v => ?_) rfl (fun v tmp hv htmp => ?_) bsc out
  · exact meets_convertStateOverrides [] [("stateOverrides", v)]
  · cases v with
    | null => exact absurd rfl hv
    | obj so =>
        obtain ⟨x, _, hx⟩ := bind_eq_ok.mp htmp
        injection hx with hx
        exact ⟨.obj x, hx.symm⟩
    | _ => cases htmp

theorem meets_blockStateCall (bsc : Json) :
    Meets Exc.isBadInput (blockStateCall bsc) (onBlockStateCall bsc) := by
  cases bsc with
  | obj fields =>
      unfold blockStateCall onBlockStateCall
      dsimp only
      rw [List.append_assoc]
      refine (meets_blockOverrides fields []).bind fun out _ => ?_
      refine (meets_stateOverrides fields out).bind fun out _ => ?_
      cases (Json.field? fields "calls").getD (.arr []) with
      | arr calls => exact (meets_mapM meets_innerCall calls).map fun _ => ⟨_, rfl⟩
      | _ => exact meets_refused rfl
  | _ => exact meets_refused rfl

theorem meets_simulatePayload (body : List (String × Json)) (calls : Json) :
    Meets Exc.isBadInput (simulatePayload body calls) (onBlockStateCalls calls ++ onAt body) := by
  unfold simulatePayload onBlockStateCalls iterate
  cases calls.iter? with
  | none => exact meets_broken rfl
  | some items =>
      refine (meets_mapM meets_blockStateCall items).bind fun bscs _ => ?_
      exact (meets_bodyAt body).map fun at_ => ⟨_, rfl⟩

/-! ### The endpoints that make one call

Each of these reads its request, makes one call and shapes the result, and what can go wrong
before the call is in the reading.
-/

/-- The body of `/simulate`. -/
def onSimulate : Json → List Verdict
  | .obj body =>
      match Json.field? body "blockStateCalls" with
      | none => [.refused]
      | some calls => onBlockStateCalls calls ++ onAt body
  | _ => [.refused]

/-- A tracer with its settings. -/
def onTracerConfig : Json → List Verdict
  | .null => []
  | .obj _ => []
  | _ => [.refused]

/-- The body of `/debug-traces/call`. -/
def onDebugTracesCall : Json → List Verdict
  | .obj body =>
      match Json.field? body "call" with
      | none => [.refused]
      | some c => (callVerdicts c ++ onAt body)
          ++ onTracerConfig ((Json.field? body "tracer").getD .null)
  | _ => [.refused]

/-- The body of `/traces/call`. -/
def onTracesCall : Json → List Verdict
  | .obj body =>
      match Json.field? body "call", Json.field? body "tracers" with
      | some c, some tracers => onTracers tracers ++ (callVerdicts c ++ onAt body)
      | _, _ => [.refused]
  | _ => [.refused]

/-- The body of `/traces/call-many`. -/
def onTracesCallMany : Json → List Verdict
  | .obj body =>
      match Json.field? body "calls", Json.field? body "tracers" with
      | some calls, some tracers => onTracers tracers ++
          match calls with
          | .arr calls => calls.flatMap callVerdicts ++ onAt body
          | _ => [.refused]
      | _, _ => [.refused]
  | _ => [.refused]

/-- The body of `/traces/raw-transaction`. -/
def onRawTransaction : Json → List Verdict
  | .obj body =>
      match (Json.field? body "raw").getD .null with
      | .str raw =>
          if hexBytesRe raw then onTracers ((Json.field? body "tracers").getD .null)
          else [.refused]
      | _ => [.refused]
  | _ => [.refused]

/-- The body of a replay. -/
def onReplay : Json → List Verdict
  | .obj body => onTracers ((Json.field? body "tracers").getD .null)
  | _ => [.refused]

/-- `except BlockIdError` catches it. -/
def Exc.isBlockIdError : Exc → Bool
  | blockIdError _ => true
  | _ => false

/-- A check that is answered with its message. -/
def onMsg {α : Type} : Except Msg α → List Verdict
  | .ok _ => []
  | .error _ => [.refused]

/-- The block of `/accounts/{addr}/proof/search`. -/
def onProofAt : Json → List Verdict
  | .str s => [ending Exc.isBlockIdError (parseBlockId (.str s))]
  | _ => [.refused]

/-- The body of `/accounts/{addr}/proof/search`. -/
def onProofSearch : Json → List Verdict
  | .obj body =>
      match Json.field? body "slots" with
      | some (.arr slots) => onMsg (slots.mapM proofSlot)
          ++ onProofAt ((Json.field? body "at").getD (.str "latest"))
      | _ => [.refused]
  | _ => [.refused]

section

variable {req : Request} {body : Json}

theorem reads_simulateOf (h : req.body = .ok body) : Reads (simulateOf req) (onSimulate body) := by
  unfold simulateOf onSimulate
  rw [readJson_of_ok h, unlessRefused_inr]
  cases body with
  | obj fields =>
      dsimp only
      cases Json.field? fields "blockStateCalls" with
      | none => exact reads_refused req.path _
      | some calls => exact (reads_orBadRequest req.path (meets_simulatePayload fields calls)).last
  | _ => exact reads_refused req.path _

/-- A call and the block of the body it is in. -/
theorem meets_callAndAt (c : Json) (fields : List (String × Json)) :
    Meets Exc.isBadInput (do
      let (rpcCall, _) ← callRequestToRpc lower c
      let at_ ← bodyAt fields
      pure (rpcCall, at_) : Except Exc (List (String × Json) × String))
      (callVerdicts c ++ onAt fields) :=
  (meets_callRequestToRpc c).bind fun _ _ => (meets_bodyAt fields).map fun _ => ⟨_, rfl⟩

theorem reads_debugTracesOf (h : req.body = .ok body) :
    Reads (debugTracesOf req) (onDebugTracesCall body) := by
  unfold debugTracesOf onDebugTracesCall
  rw [readJson_of_ok h, unlessRefused_inr]
  cases body with
  | obj fields =>
      dsimp only
      cases Json.field? fields "call" with
      | none => exact reads_refused req.path _
      | some c =>
          refine (reads_orBadRequest req.path (meets_callAndAt c fields)).unless fun _ _ => ?_
          cases (Json.field? fields "tracer").getD .null with
          | null => rfl
          | obj tracer => rfl
          | _ => exact reads_refused req.path _
  | _ => exact reads_refused req.path _

theorem reads_readJsonObject {α : Type} (h : req.body = .ok body)
    {f : List (String × Json) → Except Exc (Response ⊕ α)} {verdicts : Json → List Verdict}
    (hobject : ∀ fields, Reads (f fields) (verdicts (.obj fields)))
    (hother : ∀ v, (∀ fields, v ≠ .obj fields) → verdicts v = [.refused]) :
    Reads (unlessRefused (readJsonObject req) f) (verdicts body) := by
  unfold readJsonObject
  rw [readJson_of_ok h, unlessRefused_inr]
  cases body with
  | obj fields => exact hobject fields
  | _ =>
      rw [hother _ fun fields hfields => by cases hfields]
      exact reads_refused req.path _

theorem reads_traceCallOf (h : req.body = .ok body) :
    Reads (traceCallOf req) (onTracesCall body) := by
  refine reads_readJsonObject h (fun fields => ?_) fun v hv => ?_
  · unfold onTracesCall
    dsimp only
    cases Json.field? fields "call" with
    | none => exact reads_refused req.path _
    | some c =>
        cases Json.field? fields "tracers" with
        | none => exact reads_refused req.path _
        | some tracers =>
            refine (reads_validateTracers req.path tracers).unless fun _ _ => ?_
            exact (reads_orBadRequest req.path (meets_callAndAt c fields)).last
  · cases v <;> first | exact absurd rfl (hv _) | rfl

theorem reads_traceCallManyOf (h : req.body = .ok body) :
    Reads (traceCallManyOf req) (onTracesCallMany body) := by
  refine reads_readJsonObject h (fun fields => ?_) fun v hv => ?_
  · unfold onTracesCallMany
    dsimp only
    cases Json.field? fields "calls" with
    | none => exact reads_refused req.path _
    | some calls =>
        cases Json.field? fields "tracers" with
        | none => exact reads_refused req.path _
        | some tracers =>
            refine (reads_validateTracers req.path tracers).unless fun ts _ => ?_
            cases calls with
            | arr calls =>
                have hcalls : Meets Exc.isBadInput (do
                    let rpcCalls ← calls.mapM (tracedCall ts)
                    let at_ ← bodyAt fields
                    pure (rpcCalls, at_) : Except Exc (List Json × String))
                    (calls.flatMap callVerdicts ++ onAt fields) := by
                  refine (meets_mapM (fun c => ?_) calls).bind fun _ _ => ?_
                  · exact (meets_innerCall c).map fun _ => ⟨_, rfl⟩
                  · exact (meets_bodyAt fields).map fun _ => ⟨_, rfl⟩
                exact (reads_orBadRequest req.path hcalls).last
            | _ => exact reads_refused req.path _
  · cases v <;> first | exact absurd rfl (hv _) | rfl

theorem reads_traceRawTransactionOf (h : req.body = .ok body) :
    Reads (traceRawTransactionOf req) (onRawTransaction body) := by
  refine reads_readJsonObject h (fun fields => ?_) fun v hv => ?_
  · unfold onRawTransaction
    dsimp only
    cases (Json.field? fields "raw").getD .null with
    | str raw =>
        dsimp only
        split_ifs
        · exact (reads_validateTracers req.path _).last
        · exact reads_refused req.path _
    | _ => exact reads_refused req.path _
  · cases v <;> first | exact absurd rfl (hv _) | rfl

theorem reads_replayTracers (h : req.body = .ok body) : Reads (replayTracers req) (onReplay body) := by
  unfold replayTracers onReplay
  rw [readJson_of_ok h, unlessRefused_inr]
  cases body with
  | obj fields =>
      dsimp only
      cases (Json.field? fields "tracers").getD .null with
      | arr tracers =>
          cases tracers with
          | nil => exact reads_refused req.path _
          | cons t ts => exact reads_orUnknownTracer req.path _ (t :: ts)
      | _ => exact reads_refused req.path _
  | _ => exact reads_refused req.path _

theorem reads_traceReplayOf (h : req.body = .ok body) :
    Reads (traceReplayOf req)
      ((if fixedHexRe 64 (req.matched "hash").toList then [] else [.refused]) ++ onReplay body) := by
  unfold traceReplayOf validateTxHash
  split_ifs
  · exact (reads_replayTracers h).last
  · rfl

theorem reads_parseId (raw path : String) :
    Reads (parseId raw path) [ending Exc.isBlockIdError (parseBlockId (.str raw))] := by
  unfold parseId
  cases parseBlockId (.str raw) with
  | ok bid => rfl
  | error e => cases e <;> rfl

theorem reads_blockTracesReplayOf (h : req.body = .ok body) :
    Reads (blockTracesReplayOf req)
      ([ending Exc.isBlockIdError (parseBlockId (.str (req.matched "id")))] ++ onReplay body) :=
  (reads_parseId _ _).unless fun _ _ => (reads_replayTracers h).last

theorem reads_parseAddress (raw path : String) :
    Reads (parseAddress raw path) [accepts (mapAddressLowercase (.str raw))] := by
  unfold parseAddress mapAddressLowercase
  dsimp only
  split_ifs <;> rfl

theorem reads_proofAt (fields : List (String × Json)) :
    Reads (proofAt req fields) (onProofAt ((Json.field? fields "at").getD (.str "latest"))) := by
  unfold proofAt
  cases (Json.field? fields "at").getD (.str "latest") with
  | str s =>
      unfold onProofAt
      dsimp only
      cases parseBlockId (.str s) with
      | ok bid => rfl
      | error e => cases e <;> rfl
  | _ => exact reads_refused req.path _

theorem reads_proofSearchOf (h : req.body = .ok body) :
    Reads (proofSearchOf req)
      ([accepts (mapAddressLowercase (.str (req.matched "addr")))] ++ onProofSearch body) := by
  refine (reads_parseAddress _ _).unless fun addr _ => ?_
  unfold onProofSearch
  rw [readJson_of_ok h, unlessRefused_inr]
  cases body with
  | obj fields =>
      dsimp only
      cases Json.field? fields "slots" with
      | none => exact reads_refused req.path _
      | some slots =>
          cases slots with
          | arr slots =>
              dsimp only
              cases slots.mapM proofSlot with
              | error msg => rfl
              | ok slots => exact (reads_proofAt fields).last
          | _ => exact reads_refused req.path _
  | _ => exact reads_refused req.path _

end

/-- A handler that makes its call once it has read it begins the way it reads. -/
theorem opening_of_read {read : Request → Except Exc (Response ⊕ RpcCall)} {req : Request}
    {rest : RpcCall → Handler Response} (hasks : ∀ rpc, opening (rest rpc) = .fine) :
    opening (do
      match ← (read req : Except Exc (Response ⊕ RpcCall)) with
      | .inl resp => pure resp
      | .inr rpc => rest rpc) = reading (read req) := by
  cases read req with
  | error e => rfl
  | ok r =>
      cases r with
      | inl resp => rfl
      | inr rpc => exact hasks rpc

/-- What `parse_block_id` raises something else on than `BlockIdError`: a value that is no text,
and a number `int` does not read. -/
def BlockIdUnread (v : Json) : Prop :=
  v.isFalsy = false ∧ ∀ s, v = .str s → decimalRe s.toList = true ∧ maxStrDigits < s.toList.length

theorem parseBlockId_broken_iff {v : Json} :
    ending Exc.isBlockIdError (parseBlockId v) = .broken ↔ BlockIdUnread v := by
  unfold BlockIdUnread
  cases hfalsy : v.isFalsy with
  | true =>
      unfold parseBlockId
      rw [if_pos hfalsy]
      exact iff_of_false nofun fun h => by cases h.1
  | false =>
      unfold parseBlockId
      rw [hfalsy, if_neg nofun]
      cases v with
      | str s =>
          have hs : (∀ t, Json.str s = .str t →
              decimalRe t.toList = true ∧ maxStrDigits < t.toList.length) ↔
              decimalRe s.toList = true ∧ maxStrDigits < s.toList.length := by
            constructor
            · exact fun h => h s rfl
            · intro h t ht
              injection ht with ht
              rwa [← ht]
          rw [hs]
          dsimp only
          by_cases htag : s ∈ blockTags
          · rw [if_pos htag]
            refine iff_of_false nofun fun h => ?_
            have hnone : ∀ t ∈ blockTags, decimalRe t.toList = false := by decide +kernel
            rw [hnone s htag] at h
            cases h.2.1
          · rw [if_neg htag]
            by_cases hdecimal : decimalRe s.toList = true
            · obtain ⟨hne, hall⟩ : s.toList ≠ [] ∧ ∀ c ∈ s.toList, isDecimal c = true := by
                simpa [decimalRe] using hdecimal
              have hint := int?_eq_ite hne hall
              rw [String.ofList_toList] at hint
              rw [if_pos hdecimal, hint]
              by_cases hlen : s.toList.length ≤ maxStrDigits
              · rw [if_pos hlen]
                exact iff_of_false nofun fun h => absurd h.2.2 (by omega)
              · rw [if_neg hlen]
                exact iff_of_true rfl ⟨rfl, hdecimal, Nat.lt_of_not_le hlen⟩
            · rw [if_neg hdecimal]
              refine iff_of_false ?_ fun h => hdecimal h.2.1
              split_ifs <;> nofun
      | _ => exact iff_of_true rfl ⟨rfl, nofun⟩

/-! ### The searches

A search resolves the block ids of its range before it asks for anything else, which takes a
call for a tag or a hash and none for a number.  So its first call may already be made while
there are still checks to come, and those are outside what is looked at here.
-/

/-- The number of a block that is not looked up. -/
def BlockId.known? : BlockId → Option Int
  | .number n => some n
  | .tag t => if t = "earliest" then some 0 else none
  | .hash _ => none

/-- A program that begins with a call. -/
def BeginsWithCall {α : Type} (p : Handler α) : Prop := ∃ c k, p = .ask c k

section

variable {α β : Type}

theorem BeginsWithCall.bind {p : Handler α} (h : BeginsWithCall p) (f : α → Handler β) :
    BeginsWithCall (p >>= f) := by
  obtain ⟨c, k, rfl⟩ := h
  exact ⟨c, _, rfl⟩

theorem BeginsWithCall.opening {p : Handler Response} (h : BeginsWithCall p) :
    opening p = .fine := by
  obtain ⟨c, k, rfl⟩ := h
  rfl

end

theorem resolveBlockId_known {bid : BlockId} {n : Int} (h : bid.known? = some n) :
    resolveBlockId bid = Prog.pure (some n) := by
  cases bid with
  | number m =>
      injection h with h
      rw [h]
      rfl
  | tag t =>
      unfold BlockId.known? at h
      unfold resolveBlockId
      dsimp only at h ⊢
      split_ifs at h ⊢
      injection h with h
      rw [h]
      rfl
  | hash t => cases h

theorem beginsWithCall_resolveBlockId {bid : BlockId} (h : bid.known? = none) :
    BeginsWithCall (resolveBlockId bid) := by
  cases bid with
  | number m => cases h
  | tag t =>
      unfold BlockId.known? at h
      unfold resolveBlockId
      dsimp only at h ⊢
      split_ifs at h ⊢
      · exact ⟨_, _, rfl⟩
      · exact ⟨_, _, rfl⟩
  | hash t => exact ⟨_, _, rfl⟩

/-- A number that was parsed can be printed. -/
theorem known_of_parseBlockId {v : Json} {bid : BlockId} {n : Int}
    (h : parseBlockId v = .ok bid) (hn : bid.known? = some n) : 0 ≤ n ∧ strFits n = true := by
  have hzero : strFits 0 = true := strFits_iff.mpr (Nat.pow_pos (by decide))
  unfold parseBlockId at h
  split_ifs at h
  cases v with
  | str s =>
      dsimp only at h
      split_ifs at h with htag hdecimal hhash
      · injection h with h
        rw [← h] at hn
        unfold BlockId.known? at hn
        dsimp only at hn
        split_ifs at hn
        injection hn with hn
        rw [← hn]
        exact ⟨Int.le_refl 0, hzero⟩
      · obtain ⟨hne, hall⟩ : s.toList ≠ [] ∧ ∀ c ∈ s.toList, isDecimal c = true := by
          simpa [decimalRe] using hdecimal
        have hint := int?_eq_ite hne hall
        rw [String.ofList_toList] at hint
        rw [hint] at h
        split_ifs at h with hlen
        injection h with h
        rw [← h] at hn
        injection hn with hn
        have hlt := foldDigits_lt s.toList (fun c hc => Json.hexVal_lt_ten (hall c hc)) 0
        rw [← hn, strFits_iff]
        refine ⟨Int.natCast_nonneg _, ?_⟩
        rw [Nat.zero_add, Nat.one_mul] at hlt
        exact Nat.lt_of_lt_of_le hlt (Nat.pow_le_pow_right (by decide) hlen)
      · injection h with h
        rw [← h] at hn
        cases hn
  | _ => cases h

theorem known_of_parseBlockIdOfStr {v : Json} {bid : BlockId} {n : Int}
    (h : parseBlockIdOfStr v = .ok bid) (hn : bid.known? = some n) : 0 ≤ n ∧ strFits n = true := by
  unfold parseBlockIdOfStr at h
  cases v with
  | str s => exact known_of_parseBlockId h hn
  | int m =>
      obtain ⟨s, -, h⟩ := bind_eq_ok.mp h
      exact known_of_parseBlockId h hn
  | null => exact known_of_parseBlockId h hn
  | bool b => exact known_of_parseBlockId h hn
  | _ =>
      dsimp only at h
      split_ifs at h

/-- The two ends of a range, with `BlockIdError` answered. -/
def parseBoth (parse : Json → Except Exc BlockId) (path : String) (fromRaw toRaw : Json) :
    Except Exc (Response ⊕ (BlockId × BlockId)) :=
  match (do
      let fromBid ← parse fromRaw
      let toBid ← parse toRaw
      pure (fromBid, toBid) : Except Exc (BlockId × BlockId)) with
  | .ok bids => .ok (.inr bids)
  | .error (.blockIdError msg) => .ok (.inl (badRequest path msg))
  | .error e => .error e

/-- The range of blocks a first page asks for. -/
def rangeOf (parse : Json → Except Exc BlockId) (path : String) (fromRaw toRaw : Json) :
    Handler (Response ⊕ (Int × Int)) := do
  match ← parseBoth parse path fromRaw toRaw with
  | .inl resp => pure (.inl resp)
  | .inr (fromBid, toBid) => resolveRange path fromBid toBid

theorem requestRange_eq (path : String) (fromRaw toRaw : Json) :
    requestRange path fromRaw toRaw = rangeOf parseBlockId path fromRaw toRaw := rfl

theorem bodyRange_eq (path : String) (fromRaw toRaw : Json) :
    bodyRange path fromRaw toRaw = rangeOf parseBlockIdOfStr path fromRaw toRaw := rfl

/-- The ends of a range: what is checked once they are known is `page`, and a block that is not
known is looked up. -/
def onKnown (page : List Verdict) (fromBid toBid : BlockId) : List Verdict :=
  match fromBid.known?, toBid.known? with
  | some a, some b => if b < a then [.refused] else page
  | _, _ => []

/-- A range of blocks. -/
def onRange (parse : Json → Except Exc BlockId) (fromRaw toRaw : Json) (page : List Verdict) :
    List Verdict :=
  [ending Exc.isBlockIdError (parse fromRaw), ending Exc.isBlockIdError (parse toRaw)] ++
    match parse fromRaw, parse toRaw with
    | .ok fromBid, .ok toBid => onKnown page fromBid toBid
    | _, _ => []

section

variable {parse : Json → Except Exc BlockId} {page : List Verdict}
  {k : Response ⊕ (Int × Int) → Handler Response}

theorem opening_resolveRange (path : String) {fromBid toBid : BlockId}
    (hfrom : ∀ n, fromBid.known? = some n → 0 ≤ n ∧ strFits n = true)
    (hto : ∀ n, toBid.known? = some n → 0 ≤ n ∧ strFits n = true)
    (hk : ∀ resp, k (.inl resp) = pure resp)
    (hpage : ∀ a b, 0 ≤ a → a ≤ b → opening (k (.inr (a, b))) = first page) :
    opening (resolveRange path fromBid toBid >>= k) = first (onKnown page fromBid toBid) := by
  unfold resolveRange onKnown
  rw [Prog.bind_assoc]
  cases ha : fromBid.known? with
  | none => exact ((beginsWithCall_resolveBlockId ha).bind _).opening
  | some a =>
      rw [resolveBlockId_known ha, Prog.bind_pure, Prog.bind_assoc]
      cases hb : toBid.known? with
      | none => exact ((beginsWithCall_resolveBlockId hb).bind _).opening
      | some b =>
          rw [resolveBlockId_known hb, Prog.bind_pure]
          dsimp only
          by_cases hlt : b < a
          · rw [if_pos hlt, if_pos hlt, strInt, strInt, if_pos (hfrom a ha).2, if_pos (hto b hb).2]
            show opening (k (.inl _)) = _
            rw [hk]
            rfl
          · rw [if_neg hlt, if_neg hlt]
            exact hpage a b (hfrom a ha).1 (Int.not_lt.mp hlt)

theorem opening_rangeOf (path : String) (fromRaw toRaw : Json)
    (hknown : ∀ v bid n, parse v = .ok bid → bid.known? = some n → 0 ≤ n ∧ strFits n = true)
    (hk : ∀ resp, k (.inl resp) = pure resp)
    (hpage : ∀ a b, 0 ≤ a → a ≤ b → opening (k (.inr (a, b))) = first page) :
    opening (rangeOf parse path fromRaw toRaw >>= k) = first (onRange parse fromRaw toRaw page) := by
  have hanswer : ∀ msg, opening (k (.inl (badRequest path msg))) = .refused := by
    intro msg
    rw [hk]
    rfl
  unfold rangeOf parseBoth onRange
  cases hfrom : parse fromRaw with
  | error e =>
      cases e with
      | blockIdError msg => exact hanswer msg
      | _ => rfl
  | ok fromBid =>
      cases hto : parse toRaw with
      | error e =>
          cases e with
          | blockIdError msg => exact hanswer msg
          | _ => rfl
      | ok toBid =>
          exact opening_resolveRange path (fun n => hknown fromRaw fromBid n hfrom)
            (fun n => hknown toRaw toBid n hto) hk hpage

end

/-! ### The pages of the searches -/

/-- A cursor, around which `CursorError` is caught. -/
def Exc.isCursorError : Exc → Bool
  | cursorError _ => true
  | _ => false

/-- A page of the log search has to take one log at least, or the upstream is not asked. -/
def onPage (limit : Int) : List Verdict := if 1 ≤ limit then [] else [.broken]

/-- The body of `/logs/search`. -/
def onLogsSearch (limit : Int) : Json → List Verdict
  | .obj body => (onMsg (validateLogfilterAddress ((Json.field? body "address").getD .null))
      ++ onMsg (validateLogfilterTopics ((Json.field? body "topics").getD .null)))
      ++ onRange parseBlockId ((Json.field? body "fromBlock").getD (.str "earliest"))
        ((Json.field? body "toBlock").getD (.str "latest")) (onPage limit)
  | _ => [.refused]

/-- The body of `/traces/search`. -/
def onTracesSearch : Json → List Verdict
  | .obj body => onRange parseBlockIdOfStr ((Json.field? body "fromBlock").getD (.str "earliest"))
      ((Json.field? body "toBlock").getD (.str "latest"))
      (onMsg (validateAddressList ((Json.field? body "fromAddress").getD .null))
        ++ onMsg (validateAddressList ((Json.field? body "toAddress").getD .null)))
  | _ => [.refused]

theorem unlessAnswered_bind {α β γ : Type} (s : Handler (Response ⊕ α))
    (f : α → Handler (Response ⊕ β)) (k : Response ⊕ β → Handler γ) :
    unlessAnswered s f >>= k = s >>= fun
      | .inl resp => k (.inl resp)
      | .inr a => f a >>= k := by
  unfold unlessAnswered
  rw [Prog.bind_assoc]
  congr 1
  funext r
  cases r <;> rfl

/-- A page that is asked for begins with a call; one of no logs is answered at once. -/
theorem opening_answerPage (app : App) (route : String) (limit : Int) (scan : Scan)
    (hfrom : 0 ≤ scan.fromBlock) (hto : scan.fromBlock ≤ scan.toBlock) :
    opening (answerPage app route limit scan) = first (onPage limit) := by
  unfold answerPage onPage
  by_cases hlimit : 1 ≤ limit
  · rw [if_pos hlimit]
    refine BeginsWithCall.opening (.bind ?_ _)
    unfold fetchLogsPaginated
    rw [fetchLoop, if_pos ⟨hto, hlimit⟩]
    have hlast : 0 ≤ chunkEnd scan.fromBlock .default scan.toBlock := by
      unfold chunkEnd
      have := ChunkSize.default.2
      omega
    unfold getLogsParams
    rw [decimalToHex_eq_ok.mpr ⟨hfrom, rfl⟩, decimalToHex_eq_ok.mpr ⟨hlast, rfl⟩]
    exact ⟨_, _, rfl⟩
  · have hnone : fetchLogsPaginated scan.filter scan.fromBlock scan.toBlock limit scan.skipUntil =
        Prog.pure ⟨[], none, -1⟩ := by
      unfold fetchLogsPaginated
      rw [fetchLoop, if_neg fun h => hlimit h.2]
    rw [if_neg hlimit, hnone, Prog.bind_pure]
    show opening (liftM (strInt limit) >>= _) = .broken
    cases strInt limit with
    | error e => rfl
    | ok size => rfl

/-! ### The searches as they begin

A cursor in the body is decoded first and brings its own filter.  A string that is no cursor is
refused, and what the decoder raises besides `CursorError` is not.
-/

/-- What a cursor comes to; the body is not read then. -/
def onCursor {α : Type} (decoded : Except Exc α) : List Verdict :=
  [ending Exc.isCursorError decoded]

/-- A search: its page size, and its cursor or its body. -/
def onSearch {α : Type} (app : App) (req : Request) (decode : String → Except Exc α)
    (first : Int → List Verdict) : List Verdict :=
  match requestedLimit app.config req with
  | .inl _ => [.refused]
  | .inr requested =>
      match req.queryGet "cursor" with
      | some raw => onCursor (decode raw)
      | none => first (min requested app.config.maxPageSize)

theorem opening_logsPage {app : App} {req : Request} {body : Json} (hbody : req.body = .ok body) :
    opening (postLogsSearch app req) =
      first (onSearch app req (decodeCursor app.recursionLimit)
        fun limit => onLogsSearch limit body) := by
  unfold postLogsSearch logsPage onSearch
  cases hlimit : requestedLimit app.config req with
  | inl resp => exact if_pos (status_of_requestedLimit hlimit)
  | inr requested =>
      dsimp only
      unfold openScan
      cases req.queryGet "cursor" with
      | some raw =>
          dsimp only
          unfold cursorScan onCursor
          cases decodeCursor app.recursionLimit raw with
          | error e => cases e <;> rfl
          | ok cursor => rfl
      | none =>
          dsimp only
          unfold postLogsScan onLogsSearch
          rw [hbody]
          cases body with
          | obj fields =>
              dsimp only
              cases validateLogfilterAddress ((Json.field? fields "address").getD .null) with
              | error msg => rfl
              | ok addresses =>
                  cases validateLogfilterTopics ((Json.field? fields "topics").getD .null) with
                  | error msg => rfl
                  | ok topics =>
                      dsimp only
                      rw [unlessAnswered_bind, requestRange_eq]
                      refine opening_rangeOf req.path _ _ (fun _ _ _ => known_of_parseBlockId)
                        (fun _ => rfl) fun a b ha hab => ?_
                      exact opening_answerPage _ _ _ ⟨_, a, b, -1⟩ ha hab
          | _ => rfl

theorem opening_tracesPage {app : App} {req : Request} {body : Json} (hbody : req.body = .ok body) :
    opening (postTracesSearch app req) =
      first (onSearch app req (decodeTraceCursor app.recursionLimit)
        fun _ => onTracesSearch body) := by
  unfold postTracesSearch tracesPage onSearch
  cases hlimit : requestedLimit app.config req with
  | inl resp => exact if_pos (status_of_requestedLimit hlimit)
  | inr requested =>
      dsimp only
      unfold openTraceScan
      cases req.queryGet "cursor" with
      | some raw =>
          dsimp only
          unfold cursorTraceScan onCursor
          cases decodeTraceCursor app.recursionLimit raw with
          | error e => cases e <;> rfl
          | ok cursor => rfl
      | none =>
          dsimp only
          unfold postTracesScan onTracesSearch
          rw [hbody]
          cases body with
          | obj fields =>
              dsimp only
              rw [unlessAnswered_bind, bodyRange_eq]
              refine opening_rangeOf req.path _ _ (fun _ _ _ => known_of_parseBlockIdOfStr)
                (fun _ => rfl) fun a b _ _ => ?_
              dsimp only
              cases validateAddressList ((Json.field? fields "fromAddress").getD .null) with
              | error msg => rfl
              | ok fromAddresses =>
                  cases validateAddressList ((Json.field? fields "toAddress").getD .null) with
                  | error msg => rfl
                  | ok toAddresses => rfl
          | _ => rfl

/-! ### The endpoints

`BodyRoute` names the endpoints; their handlers and verdicts are functions of it, so the
theorem about all of them is one statement.
-/

/-- The endpoints that check a body of their own. -/
inductive BodyRoute where
  | simulate
  | debugTracesCall
  | traceCall
  | traceCallMany
  | traceRawTransaction
  | tracesSearch
  | logsSearch
  | traceReplay
  | blockTracesReplay
  | proofSearch
  deriving DecidableEq

/-- The handler of an endpoint. -/
def BodyRoute.handler : BodyRoute → App → Request → Handler Response
  | simulate => ExecRestApi.simulate
  | debugTracesCall => ExecRestApi.debugTracesCall
  | traceCall => ExecRestApi.traceCall
  | traceCallMany => ExecRestApi.traceCallMany
  | traceRawTransaction => ExecRestApi.traceRawTransaction
  | tracesSearch => postTracesSearch
  | logsSearch => postLogsSearch
  | traceReplay => postTraceReplay
  | blockTracesReplay => postBlockTracesReplay
  | proofSearch => postProofSearch

/-- The checks of an endpoint, in the order they are made. -/
def BodyRoute.verdicts (app : App) (req : Request) (body : Json) : BodyRoute → List Verdict
  | simulate => onSimulate body
  | debugTracesCall => onDebugTracesCall body
  | traceCall => onTracesCall body
  | traceCallMany => onTracesCallMany body
  | traceRawTransaction => onRawTransaction body
  | tracesSearch => onSearch app req (decodeTraceCursor app.recursionLimit) fun _ =>
      onTracesSearch body
  | logsSearch => onSearch app req (decodeCursor app.recursionLimit) fun limit =>
      onLogsSearch limit body
  | traceReplay => (if fixedHexRe 64 (req.matched "hash").toList then [] else [.refused])
      ++ onReplay body
  | blockTracesReplay => [ending Exc.isBlockIdError (parseBlockId (.str (req.matched "id")))]
      ++ onReplay body
  | proofSearch => [accepts (mapAddressLowercase (.str (req.matched "addr")))]
      ++ onProofSearch body

/-- **A handler begins the way the first complaint says.** -/
theorem opening_handler (app : App) {req : Request} {body : Json} (h : req.body = .ok body)
    (route : BodyRoute) : opening (route.handler app req) = first (route.verdicts app req body) := by
  cases route with
  | simulate => exact (opening_of_read fun _ => rfl).trans (reads_simulateOf h)
  | debugTracesCall => exact (opening_of_read fun _ => rfl).trans (reads_debugTracesOf h)
  | traceCall => exact (opening_of_read fun _ => rfl).trans (reads_traceCallOf h)
  | traceCallMany => exact (opening_of_read fun _ => rfl).trans (reads_traceCallManyOf h)
  | traceRawTransaction =>
      exact (opening_of_read fun _ => rfl).trans (reads_traceRawTransactionOf h)
  | tracesSearch => exact opening_tracesPage h
  | logsSearch => exact opening_logsPage h
  | traceReplay => exact (opening_of_read fun _ => rfl).trans (reads_traceReplayOf h)
  | blockTracesReplay => exact (opening_of_read fun _ => rfl).trans (reads_blockTracesReplayOf h)
  | proofSearch => exact (opening_of_read fun _ => rfl).trans (reads_proofSearchOf h)

/-- A tracer that there is. -/
def plainTracers : Json := .obj [("raw", .str "0x"), ("tracers", .arr [.str "trace"])]

def plainTracersRequest : Request :=
  { path := "/traces/raw-transaction", query := [], body := .ok plainTracers }

/-- A tracer that is a list. -/
def nestedTracers : Json := .obj [("raw", .str "0x"), ("tracers", .arr [.arr []])]

def nestedTracersRequest : Request :=
  { path := "/traces/raw-transaction", query := [], body := .ok nestedTracers }

end ExecRestApi
