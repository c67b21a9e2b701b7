/-
A revert is a result.

Six endpoints execute calls.  Each reads its request and makes one call; if the upstream answers
with an error that is a revert, the response is to be the body of that revert, and any other
error is to reach the middleware as it is.  Five handlers look at the error.  The sixth, that of
`/traces/call`, does not, and its reverts are mapped like every other error.

What a response should tell is `TellsRevert`, field by field, with what `decode_revert_data`
makes of the data of the error.  The theorem is about every request that is accepted and every
error; the condition is which endpoint it is and, for an error that is no revert, whether its
problem can be printed.
-/
import ExecRestApi.Model.TraceCalls
import ExecRestApi.Proofs.AbiRevert
import ExecRestApi.Proofs.LogsPage
import ExecRestApi.Proofs.Server

namespace ExecRestApi

open Py Interaction
open Prog (Runs)

/-! ### The endpoints

`CallRoute` names them.  Up to the call they are readers of a request, which is why they can be
looked at together.
-/

/-- The endpoints that execute calls. -/
inductive CallRoute where
  | call
  | gasEstimate
  | accessList
  | simulate
  | tracesCall
  | debugTracesCall
  deriving DecidableEq

/-- The handler of an endpoint. -/
def CallRoute.handler : CallRoute → App → Request → Handler Response
  | call => postCall
  | gasEstimate => ExecRestApi.gasEstimate
  | accessList => ExecRestApi.accessList
  | simulate => ExecRestApi.simulate
  | tracesCall => traceCall
  | debugTracesCall => ExecRestApi.debugTracesCall

/-- What it makes of a request: an answer, or the call. -/
def CallRoute.read : CallRoute → Request → Except Exc (Response ⊕ RpcCall)
  | call => callOf "eth_call"
  | gasEstimate => callOf "eth_estimateGas"
  | accessList => callOf "eth_createAccessList"
  | simulate => simulateOf
  | tracesCall => traceCallOf
  | debugTracesCall => debugTracesOf

/-- `is_revert(e) or is_out_of_gas(e)` -/
def JsonRpcError.isReverted (e : JsonRpcError) : Bool := isRevert e || isOutOfGas e

/-- How a handler ends, as the middlewares see it. -/
def webOutcome : Except Exc Response → Except Failure StreamResponse
  | .ok r => .ok r.stream
  | .error e => .error (.exc e)

/-! ### The body of a revert

The data of an error may be any value.  What is no hexadecimal text is replaced by an empty
one; what the decoder makes of the others is in `Proofs/AbiRevert.lean`.
-/

/-- What the body of a revert says. -/
structure TellsRevert (e : JsonRpcError) (fields : List (String × Json)) : Prop where
  reverted : Json.field? fields "reverted" = some (.bool true)
  data : ∃ cs, (∀ c ∈ cs, isHex c = true) ∧
    Json.field? fields "data" = some (.str (String.ofList ('0' :: 'x' :: cs)))
  reason : Json.field? fields "reason" = some (reasonJson (decodeRevertData e.data).1)
  panicCode : Json.field? fields "panicCode" = some (panicJson (decodeRevertData e.data).2)
  outOfGas : Json.field? fields "outOfGas" = if isOutOfGas e then some (.bool true) else none

/-- The data of an error is hexadecimal, or replaced. -/
theorem rawRevertData_cases (e : JsonRpcError) :
    ∃ cs, (∀ c ∈ cs, isHex c = true) ∧ rawRevertData e = String.ofList ('0' :: 'x' :: cs) ∧
      decodeRevertData (.str (rawRevertData e)) = decodeRevertData e.data := by
  have hempty : decodeRevertData (.str "0x") = (none, none) := by decide
  have hnone : revertDigits e.data = none → rawRevertData e = "0x" →
      ∃ cs, (∀ c ∈ cs, isHex c = true) ∧ rawRevertData e = String.ofList ('0' :: 'x' :: cs) ∧
        decodeRevertData (.str (rawRevertData e)) = decodeRevertData e.data := by
    intro hdigits hraw
    refine ⟨[], nofun, hraw.trans rfl, ?_⟩
    rw [hraw, hempty, decodeRevertData, hdigits]
  unfold rawRevertData at hnone ⊢
  cases hdata : e.data with
  | str s =>
      rw [hdata] at hnone
      dsimp only at hnone ⊢
      cases hs : hexDataDigits s with
      | none =>
          rw [hs] at hnone
          exact hnone hs rfl
      | some cs =>
          obtain ⟨hshape, hhex⟩ := hexDataDigits_eq_some.mp hs
          exact ⟨cs, hhex, hshape, rfl⟩
  | _ =>
      rw [hdata] at hnone
      exact hnone rfl rfl

theorem lower_hexData {cs : List Char} (h : ∀ c ∈ cs, isHex c = true) :
    lower (String.ofList ('0' :: 'x' :: cs)) =
      String.ofList ('0' :: 'x' :: cs.map fun c => (digitOf c).digitChar) := by
  have htail := toList_lower_hex h
  rw [lower, String.toList_ofList, String.toList_ofList] at htail
  rw [lower, String.toList_ofList, List.flatMap_cons, List.flatMap_cons, htail]
  rfl

theorem tellsRevert (e : JsonRpcError) :
    ∃ fields, revertBody e = .obj fields ∧ TellsRevert e fields := by
  obtain ⟨cs, hhex, hraw, hdecode⟩ := rawRevertData_cases e
  refine ⟨_, rfl, rfl, ⟨cs.map fun c => (digitOf c).digitChar, ?_, ?_⟩, ?_, ?_, ?_⟩
  · intro c hc
    obtain ⟨d, -, rfl⟩ := List.mem_map.mp hc
    exact isHex_digitChar (digitOf_lt d)
  · rw [← lower_hexData hhex, ← hraw]
    rfl
  · rw [← hdecode]
    rfl
  · rw [← hdecode]
    rfl
  · cases isOutOfGas e <;> rfl

theorem panicFits {data : Json} {n : Nat} (h : (decodeRevertData data).2 = some n) :
    strFits n = true := by
  have hpanic : ∀ tail : List Char, decodePanicUint tail = some n → strFits n = true := by
    intro tail htail
    unfold decodePanicUint at htail
    split_ifs at htail
    injection htail with htail
    have hlt := foldDigits_lt (tail.take 64) (fun c _ => digitOf_lt c) 0
    have hlen : (16 : Nat) ^ (tail.take 64).length ≤ 10 ^ maxStrDigits := by
      calc (16 : Nat) ^ (tail.take 64).length ≤ 16 ^ 64 :=
            Nat.pow_le_pow_right (by decide) (List.length_take_le 64 tail)
        _ ≤ 10 ^ 78 := by decide
        _ ≤ 10 ^ maxStrDigits := Nat.pow_le_pow_right (by decide) (by
            unfold maxStrDigits
            decide)
    rw [strFits_iff, Int.natAbs_natCast, ← htail]
    rw [Nat.zero_add, Nat.one_mul] at hlt
    exact Nat.lt_of_lt_of_le hlt hlen
  unfold decodeRevertData at h
  split at h
  · cases h
  · dsimp only at h
    split_ifs at h
    exact hpanic _ h

theorem jsonResponse_revertBody (e : JsonRpcError) :
    jsonResponse (revertBody e) [] = .ok ⟨200, [], .json (revertBody e)⟩ := by
  have hreason : ∀ reason, (reasonJson reason).intsFit = true := by
    intro reason
    cases reason <;> rfl
  have hpanic : (panicJson (decodeRevertData (.str (rawRevertData e))).2).intsFit = true := by
    cases hcode : (decodeRevertData (.str (rawRevertData e))).2 with
    | none => rfl
    | some n => exact panicFits hcode
  have hfits : (revertBody e).intsFit = true := by
    unfold revertBody
    cases isOutOfGas e <;>
      simp [Json.intsFit, Json.fieldsFit, hreason, hpanic]
  unfold jsonResponse
  rw [if_pos hfits]

/-! ### The six handlers

After the call there are two programs: the one that looks at the error, and the one that does
not.
-/

/-- Reverts are looked at by every handler but one. -/
theorem runs_handler {route : CallRoute} {app : App} {req : Request} {rpc : RpcCall}
    (hread : route.read req = .ok (.inr rpc)) (e : JsonRpcError) (out : Except Exc Response) :
    Runs (route.handler app req) [(rpc, .error (.jsonRpcError e))] out ↔
      out = if e.isReverted ∧ route ≠ .tracesCall then .ok ⟨200, [], .json (revertBody e)⟩
        else .error (.jsonRpcError e) := by
  have hcomputed : ∀ {read : Request → Except Exc (Response ⊕ RpcCall)}
      {shape : Request → Json → Except Exc Response}, read req = .ok (.inr rpc) →
      (Runs (computed read shape req) [(rpc, .error (.jsonRpcError e))] out ↔
        out = if e.isReverted then .ok ⟨200, [], .json (revertBody e)⟩
          else .error (.jsonRpcError e)) := by
    intro read shape hread
    have hprog : computed read shape req = orReverted rpc (shape req) := by
      unfold computed
      rw [hread]
      rfl
    rw [hprog, orReverted, Prog.runs_ask]
    constructor
    · intro ⟨r, rest, htr, hrun⟩
      injection htr with hfirst hrest
      injection hfirst with _ hr
      rw [← hr, ← hrest] at hrun
      dsimp only at hrun
      unfold JsonRpcError.isReverted
      split_ifs at hrun ⊢
      · rw [jsonResponse_revertBody] at hrun
        exact hrun.2
      · exact hrun.2
    · intro hout
      refine ⟨_, [], rfl, ?_⟩
      dsimp only
      rw [hout]
      unfold JsonRpcError.isReverted
      split_ifs
      · rw [jsonResponse_revertBody]
        exact ⟨rfl, rfl⟩
      · exact ⟨rfl, rfl⟩
  cases route with
  | tracesCall =>
      have hprog : traceCall app req = (call rpc.method rpc.params >>= fun result =>
          jsonResponse result [] : Handler Response) := by
        unfold traceCall passedOn
        rw [show traceCallOf req = .ok (.inr rpc) from hread]
        rfl
      rw [if_neg fun h => h.2 rfl]
      show Runs (traceCall app req) _ out ↔ _
      rw [hprog]
      constructor
      · intro ⟨r, rest, htr, hrun⟩
        injection htr with hfirst hrest
        injection hfirst with _ hr
        rw [← hr, ← hrest] at hrun
        exact hrun.2
      · intro hout
        rw [hout]
        exact ⟨_, [], rfl, rfl, rfl⟩
  | _ =>
      refine (hcomputed hread).trans ?_
      by_cases hreverted : e.isReverted = true
      · rw [if_pos hreverted, if_pos ⟨hreverted, nofun⟩]
      · rw [if_neg hreverted, if_neg fun h => hreverted h.1]

/-! ### What the client gets

An error that is no revert goes up to the middleware.  So it does in the sixth handler, with
one that is.
-/

/-- The response that an error of the upstream is to have. -/
def revertAnswer (path : String) (e : JsonRpcError) : Response :=
  if e.isReverted then ⟨200, [], .json (revertBody e)⟩
  else problemResponse (withInstance (mapJsonrpcError e) path)

/-- The error `e` of the call `rpc` is answered with the body of its revert or, if it is none, with
the problem it is mapped to. -/
def AnswersRevert (route : CallRoute) (app : App) (s : Server) (req : Request) (inc : Incoming)
    (rpc : RpcCall) (e : JsonRpcError) : Prop :=
  (∃ out, (∀ out', Runs (route.handler app req) [(rpc, .error (.jsonRpcError e))] out' ↔
      out' = out) ∧
    mappedOutcome s inc (webOutcome out) = .ok (revertAnswer inc.path e).stream) ∧
  (e.isReverted = true → ∃ fields, revertBody e = .obj fields ∧ TellsRevert e fields)

/-- **When a revert is a result.** -/
theorem answersRevert_iff {route : CallRoute} {req : Request} {rpc : RpcCall} (app : App)
    (s : Server) (inc : Incoming) (hread : route.read req = .ok (.inr rpc)) (e : JsonRpcError) :
    AnswersRevert route app s req inc rpc e ↔
      if e.isReverted then route ≠ .tracesCall else (mapJsonrpcError e).fits = true := by
  -- an error that gets through is mapped to its problem, if that can be printed
  have hmap : mappedOutcome s inc (webOutcome (.error (.jsonRpcError e))) =
      if (mapJsonrpcError e).fits then
        .ok (problemResponse (withInstance (mapJsonrpcError e) inc.path)).stream
      else .error (.exc .valueError) := by
    show respondProblem (withInstance (mapJsonrpcError e) inc.path) = _
    unfold respondProblem printProblem
    rw [show (withInstance (mapJsonrpcError e) inc.path).fits = (mapJsonrpcError e).fits from rfl]
    split_ifs <;> rfl
  have honly : AnswersRevert route app s req inc rpc e ↔
      mappedOutcome s inc (webOutcome
        (if e.isReverted ∧ route ≠ .tracesCall then .ok ⟨200, [], .json (revertBody e)⟩
          else .error (.jsonRpcError e))) = .ok (revertAnswer inc.path e).stream := by
    constructor
    · intro ⟨⟨out, hout, hanswer⟩, _⟩
      have hrun := (runs_handler hread e out).mp ((hout out).mpr rfl)
      rw [← hrun]
      exact hanswer
    · intro hanswer
      exact ⟨⟨_, fun out' => runs_handler hread e out', hanswer⟩, fun _ => tellsRevert e⟩
  rw [honly]
  unfold revertAnswer
  by_cases hreverted : e.isReverted = true
  · rw [if_pos hreverted, if_pos hreverted]
    by_cases hroute : route = .tracesCall
    · rw [if_neg fun h => h.2 hroute, hmap]
      refine iff_of_false ?_ fun h => h hroute
      split_ifs
      · intro h
        injection h with h
        injection h with _ _ hcontent
        injection hcontent with hbody
        cases hbody
      · nofun
    · rw [if_pos ⟨hreverted, hroute⟩]
      exact iff_of_true rfl hroute
  · rw [if_neg hreverted, if_neg hreverted, if_neg fun h => hreverted h.1, hmap]
    split_ifs with hfits
    · exact iff_of_true rfl hfits
    · exact iff_of_false nofun hfits

/-! ### Samples

One revert, answered to a call that is executed and to one that is traced.
-/

/-- What the upstream answers to a call that reverts. -/
def plainRevert : JsonRpcError := ⟨-32000, "execution reverted", .str "0x"⟩

/-- A call of `/traces/call`. -/
def tracedBody : Json := .obj [("call", .obj []), ("tracers", .arr [.str "trace"])]

def tracedRequest : Request := { path := "/traces/call", query := [], body := .ok tracedBody }

/-- The call it makes. -/
def tracedRpc : RpcCall := ⟨"trace_call", [.obj [], .arr [.str "trace"], .str "latest"]⟩

/-- An empty call of `/call`. -/
def emptyCallRequest : Request := { path := "/call", query := [], body := .ok (.obj []) }

def incomingAt (path : String) : Incoming :=
  { method := "POST", path := path, idHeader := none, uuid := "b", resource := some path }

theorem answersRevert_iff_call :
    AnswersRevert .call (sampleApp 1000 10000) freshServer emptyCallRequest (incomingAt "/call")
        ⟨"eth_call", [.obj [], .str "latest"]⟩ plainRevert :=
  (answersRevert_iff (sampleApp 1000 10000) freshServer (incomingAt "/call")
    (show CallRoute.read .call emptyCallRequest = _ by decide +kernel) plainRevert).mpr
    (by decide +kernel)

/-- **A revert of `/traces/call` is a problem.** -/
theorem not_answersRevert :
    ¬ AnswersRevert .tracesCall (sampleApp 1000 10000) freshServer tracedRequest
      (incomingAt "/traces/call") tracedRpc plainRevert := by
  intro ⟨⟨out, hout, hanswer⟩, _⟩
  have hrun : Runs (CallRoute.handler .tracesCall (sampleApp 1000 10000) tracedRequest)
      [(tracedRpc, .error (.jsonRpcError plainRevert))] (.error (.jsonRpcError plainRevert)) :=
    Prog.runs_of_feed [.error (.jsonRpcError plainRevert)] (by decide +kernel)
  rw [← (hout _).mp hrun] at hanswer
  have hstatus := congrArg sentStatus hanswer
  revert hstatus
  decide +kernel

end ExecRestApi
