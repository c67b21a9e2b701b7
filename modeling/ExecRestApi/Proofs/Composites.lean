/-
The endpoints that fan out answer as if they did not.

Whatever the order in which the upstream replies, the response is that of the handler that makes
the calls one after the other.  Only which of several errors is reported depends on the order.

A handler that fans out is a list of coroutines, gathered, and a shape for their results.  What
a gathering comes to is a general matter (`Lib.Gather`); here it is put on the four endpoints,
whose coroutines make one call each.  A template of a transaction makes some of its calls
through `_maybe`, which turns the codes of a node without the method into `None`, and the
second half of the module follows those through to the fields that are left out.
-/
import ExecRestApi.Model.Composites
import ExecRestApi.Lib.JsonSort

namespace ExecRestApi

open Py Interaction Transition

/-! ### One coroutine

A coroutine asks once and returns or raises; what it raises is what the upstream has replied.
-/

/-- A coroutine makes its call and no other. -/
theorem runs_coro {coro : Coro} {tr : Trace} {out : Except Exc Json}
    (h : Prog.Runs coro.run tr out) : ∃ r, tr = [(coro.rpc, r)] := by
  cases coro with
  | call rpc =>
      obtain ⟨r, rest, rfl, hrest⟩ := h
      exact ⟨r, by rw [(Prog.runs_ofExcept.mp hrest).1]; rfl⟩
  | maybe rpc =>
      obtain ⟨r, rest, rfl, hrest⟩ := h
      refine ⟨r, ?_⟩
      dsimp only at hrest
      have hnil : rest = [] := by
        split at hrest
        · exact hrest.1
        · split at hrest <;> exact hrest.1
        · exact hrest.1
      rw [hnil]
      rfl

/-- What a coroutine raises is what the upstream has replied, and `_maybe` raises no code that it
takes for `None`. -/
theorem raised_by_coro {coro : Coro} {tr : Trace} {e : Exc}
    (h : Prog.Runs coro.run tr (.error e)) : tr = [(coro.rpc, .error e)]
      ∧ ∀ rpc err, coro = .maybe rpc → e = .jsonRpcError err → err.code ∉ degradedCodes := by
  cases coro with
  | call rpc =>
      obtain ⟨r, rest, rfl, hrest⟩ := h
      obtain ⟨hnil, hr⟩ := Prog.runs_ofExcept.mp hrest
      rw [hnil, ← hr]
      exact ⟨rfl, by rintro rpc' err ⟨⟩⟩
  | maybe rpc =>
      obtain ⟨r, rest, rfl, hrest⟩ := h
      dsimp only at hrest
      split at hrest
      · cases hrest.2
      · rename_i err
        split at hrest
        · cases hrest.2
        · rename_i hcode
          obtain ⟨hnil, he⟩ := hrest
          cases he
          rw [hnil]
          refine ⟨rfl, ?_⟩
          rintro rpc' err' - herr
          cases herr
          exact hcode
      · rename_i e' hother
        obtain ⟨hnil, he⟩ := hrest
        cases he
        rw [hnil]
        refine ⟨rfl, ?_⟩
        rintro rpc' err - herr
        exact absurd herr (hother err)

/-! ### All of them

No two coroutines of an endpoint make the same call, so the replies of a run can be given as a
function of the call.  With it the handler that makes its calls in turn has a run of its own,
and that is the one the gathered run is compared with.
-/

/-- What was exchanged are the calls, each of them once. -/
theorem calls_of_returned {coros : List Coro} {f : Nat → List Reply} {vs : List Json}
    (h : Gather.returned (Gather.advance f (coros.map Coro.run)) = some vs) :
    (Gather.transcript f (coros.map Coro.run)).map Prod.fst = coros.map Coro.rpc := by
  induction coros generalizing f vs with
  | nil => rfl
  | cons coro coros ih =>
      rw [List.map_cons, Gather.advance] at h
      rw [List.map_cons, Gather.transcript, List.map_append, List.map_cons]
      cases hp : coro.run.after (f 0) with
      | pure a =>
          rw [hp] at h
          obtain ⟨as, has, -⟩ := Option.map_eq_some_iff.mp h
          obtain ⟨r, hr⟩ := runs_coro (Prog.runs_of_after_pure hp)
          rw [hr, ih has]
          rfl
      | throw e =>
          rw [hp] at h
          cases h
      | ask op k =>
          rw [hp] at h
          cases h

namespace Composite

/-- The replies of a schedule, in the order of the calls. -/
def trace (c : Composite) (ls : List (Nat × Reply)) : Trace :=
  Gather.transcript (fun i => Gather.repliesTo i ls) (c.coros.map Coro.run)

/-- No endpoint asks for the same thing twice. -/
theorem coros_nodup {ep : CompositeEndpoint} {req : Request} {c : Composite}
    (h : compositeOf ep req = .ok (.inr c)) : (c.coros.map Coro.rpc).Nodup := by
  cases ep with
  | chain =>
      cases h
      decide
  | chainPeers =>
      cases h
      decide
  | accountSummary =>
      rw [compositeOf, accountSummary] at h
      obtain ⟨addr, -, h⟩ := unlessRefused_eq_inr h
      obtain ⟨bid, -, h⟩ := unlessRefused_eq_inr h
      cases h
      simp [Coro.rpc]
  | transactionTemplate =>
      rw [compositeOf, transactionTemplate] at h
      obtain ⟨addr, -, h⟩ := unlessRefused_eq_inr h
      obtain ⟨bid, -, h⟩ := unlessRefused_eq_inr h
      cases h
      simp [Coro.rpc]

/-- **Fanning out changes nothing but the order**: with every schedule, when all calls have been
answered well the response is that of the handler that makes the calls one after the other, each
of them once; otherwise the error is one that some call was answered with, and not one that the
endpoint copes with.  With the same replies in another order the response is the same, or an error
again; and as long as there is none, some call is still unanswered. -/
theorem response_any_order {ep : CompositeEndpoint} {req : Request} {c : Composite}
    (hc : compositeOf ep req = .ok (.inr c)) {ls : List (Nat × Reply)} {g : Gathering}
    (h : Run Gather.step unguarded c.start ls g) :
    (∀ vs, g.outcome = some (.ok vs) → Prog.Runs c.inOrder (c.trace ls) (c.shape vs)
        ∧ (c.trace ls).map Prod.fst = c.coros.map Coro.rpc
        ∧ ((c.trace ls).map Prod.fst).Nodup)
      ∧ (∀ e, g.outcome = some (.error e) → ∃ (i : Nat) (coro : Coro), c.coros[i]? = some coro
        ∧ coro.run.exchanged (Gather.repliesTo i ls) = [(coro.rpc, .error e)]
        ∧ ∀ rpc err, coro = .maybe rpc → e = .jsonRpcError err → err.code ∉ degradedCodes)
      ∧ (g.outcome = none → ∃ i, ∀ r, (g.step (i, r)).isSome = true)
      ∧ ∀ ls' g', Run Gather.step unguarded c.start ls' g' →
        (∀ i, Gather.repliesTo i ls = Gather.repliesTo i ls') →
        c.response g = c.response g'
          ∨ ∃ e e', c.response g = some (.error e) ∧ c.response g' = some (.error e') := by
  refine ⟨fun vs hout => ?_, fun e hout => ?_, Gather.step_of_waiting h, ?_⟩
  · have hruns := Gather.inOrder_of_run h hout
    have hreturned := (Gather.right_of_run h).ok vs hout
    rw [(Gather.right_of_run h).children] at hreturned
    have hcalls : (c.trace ls).map Prod.fst = c.coros.map Coro.rpc := calls_of_returned hreturned
    refine ⟨?_, hcalls, ?_⟩
    · rw [inOrder, Prog.runs_bind]
      exact .inr ⟨c.trace ls, [], vs, (List.append_nil _).symm, hruns,
        Prog.runs_ofExcept.mpr ⟨rfl, rfl⟩⟩
    · rw [hcalls]
      exact coros_nodup hc
  · obtain ⟨i, p, hi, hruns⟩ := Gather.raised_of_run h hout
    rw [List.getElem?_map] at hi
    obtain ⟨coro, hcoro, rfl⟩ := Option.map_eq_some_iff.mp hi
    exact ⟨i, coro, hcoro, raised_by_coro hruns⟩
  · intro ls' g' h' hsame
    rw [response, response]
    rcases Gather.outcome_of_same_replies h h' hsame with heq | ⟨e, e', he, he'⟩
    · rw [heq]
      exact .inl rfl
    · rw [he, he']
      exact .inr ⟨e, e', rfl, rfl⟩

/-- The prices are not there, and the chain id comes before the nonce. -/
private def unpriced : List (Nat × Reply) :=
  [(2, .error (.jsonRpcError ⟨-32601, "method not found", .null⟩)), (1, .ok (.str "0x1")),
    (0, .ok (.str "0x7")), (3, .ok .null)]

private def templateFor : Request where
  path := "/accounts/0x1111111111111111111111111111111111111111/transaction-template"
  query := []
  matchInfo := [("addr", "0x1111111111111111111111111111111111111111")]

private def template : Composite where
  coros := [.call ⟨"eth_getTransactionCount",
      [.str "0x1111111111111111111111111111111111111111", .str "latest"]⟩,
    .call ⟨"eth_chainId", []⟩, .maybe ⟨"eth_gasPrice", []⟩, .maybe ⟨"eth_maxPriorityFeePerGas", []⟩]
  shape := transactionTemplateShape

private theorem template_gathers : transactionTemplate templateFor = .ok (.inr template) := by
  rfl

private theorem run_unpriced :
    Run Gather.step unguarded template.start unpriced
      ((exec Gather.step template.start unpriced).getD template.start) :=
  run_of_exec rfl

theorem response_any_order_template :
    (template.trace unpriced).map Prod.fst = template.coros.map Coro.rpc :=
  ((response_any_order
    (show compositeOf .transactionTemplate templateFor = _ from template_gathers) run_unpriced).1
    [.str "0x7", .str "0x1", .null, .null] rfl).2.1

/-! ### A node without prices

Each of the four prices comes as a price or with one of the codes of a node that has none.  The
field of the second kind is left out, and the rest of the template is not touched by it.
-/

/-- A price that the node has given, or that it does not have. -/
inductive Priced : Reply → Option Nat → Prop
  | given (n : Nat) : Py.strFits n = true → Priced (.ok (.str (toHex n))) (some n)
  | missing : Priced (.ok .null) none
  | degraded (err : JsonRpcError) : err.code ∈ degradedCodes → Priced (.error (.jsonRpcError err)) none

/-- What `_maybe` makes of it. -/
def priceJson : Option Nat → Json
  | some n => .str (toHex n)
  | none => .null

/-- The field of a price. -/
def priceField (key : String) (price : Option Nat) : List (String × Json) :=
  (price.map fun n => (key, Json.str (String.ofList (intText n)))).toList

theorem after_of_priced {r : Reply} {p : Option Nat} (h : Priced r p) (rpc : RpcCall) :
    (Coro.maybe rpc).run.after [r] = .pure (priceJson p) := by
  cases h with
  | given n hfit => rfl
  | missing => rfl
  | degraded err hcode =>
      rw [Coro.run, Prog.after_ask, Prog.after_nil]
      exact if_pos hcode

theorem templatePrice_of_priced {r : Reply} {p : Option Nat} (h : Priced r p) (key : String) :
    templatePrice key (priceJson p) = .ok (priceField key p) := by
  cases h with
  | given n hfit =>
      rw [priceJson, templatePrice, if_neg (by rintro ⟨⟩), weiJson, weiFromRpc, hexToInt_toHex]
      simp only [bind, Except.bind, pure, Except.pure, strInt, hfit, if_true]
      rfl
  | missing => rfl
  | degraded err hcode => rfl

theorem intsFit_of_mem_priceField {key : String} {p : Option Nat} {field : String × Json}
    (h : field ∈ priceField key p) : field.2.intsFit = true := by
  cases p with
  | some n =>
      rw [List.mem_singleton.mp h]
      rfl
  | none => cases h

/-- **A template copes with a node that has no prices.**  When the nonce and the chain id have been
answered with quantities, and each price with a quantity, with nothing or with a code that says the
node does not have it, the template is made, whatever the order of the answers; and it has the
prices that were given. -/
theorem template_copes {req : Request} {c : Composite} (hc : transactionTemplate req = .ok (.inr c))
    {ls : List (Nat × Reply)} {g : Gathering} (h : Run Gather.step unguarded c.start ls g)
    {nonce chainId : Nat} {gasPrice priorityFee : Option Nat} {r r' : Reply}
    (hnonce : Gather.repliesTo 0 ls = [.ok (.str (toHex nonce))])
    (hchain : Gather.repliesTo 1 ls = [.ok (.str (toHex chainId))])
    (hgas : Gather.repliesTo 2 ls = [r]) (hfee : Gather.repliesTo 3 ls = [r'])
    (hr : Priced r gasPrice) (hr' : Priced r' priorityFee)
    (hfit : strFits nonce = true) (hfit' : strFits chainId = true) :
    c.response g = some (.ok ⟨200, [], .json (.obj ([("nonce", .int nonce), ("chainId", .int chainId)]
      ++ priceField "gasPrice" gasPrice ++ priceField "maxPriorityFeePerGas" priorityFee))⟩) := by
  rw [transactionTemplate] at hc
  obtain ⟨addr, -, hc⟩ := unlessRefused_eq_inr hc
  obtain ⟨bid, -, hc⟩ := unlessRefused_eq_inr hc
  cases hc
  have hout : g.outcome = some (.ok [.str (toHex nonce), .str (toHex chainId), priceJson gasPrice,
      priceJson priorityFee]) := by
    refine Gather.outcome_of_returned h ?_
    simp only [List.map_cons, List.map_nil, Gather.advance, hnonce, hchain, hgas, hfee,
      after_of_priced hr, after_of_priced hr']
    rfl
  rw [response, hout]
  simp only [Option.map_some, bind, Except.bind, transactionTemplateShape, hexJson, hexToInt_toHex,
    templatePrice_of_priced hr, templatePrice_of_priced hr', pure, Except.pure]
  rw [jsonResponse, if_pos]
  rw [Json.intsFit, Json.fieldsFit_iff]
  intro field hfield
  rcases List.mem_append.mp hfield with hfield | hfield
  · rcases List.mem_append.mp hfield with hfield | hfield
    · rcases List.mem_pair.mp hfield with rfl | rfl
      · exact hfit
      · exact hfit'
    · exact intsFit_of_mem_priceField hfield
  · exact intsFit_of_mem_priceField hfield

theorem template_copes_unpriced :
    template.response ((exec Gather.step template.start unpriced).getD template.start)
      = some (.ok ⟨200, [], .json (.obj [("nonce", .int 7), ("chainId", .int 1)])⟩) :=
  template_copes template_gathers run_unpriced rfl rfl rfl rfl (.degraded _ (by decide)) .missing
    (by decide +kernel) (by decide +kernel)

end Composite

end ExecRestApi
