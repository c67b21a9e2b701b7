/-
Numbers in a body, as numbers and as text.

`parse_input_int` takes either, so it makes no difference which of the two a quantity is given as,
wherever it is in the body.  A block is another matter: `parse_block_id` takes text only, and only
`/traces/search` puts the number into text first.  The converter of calls and
`/accounts/{addr}/proof/search` say that `at` must be a string.

Two bodies are compared that differ in one value: a number in the one, its text in the other.
The relation `Rewritten` finds the place, and the converters are taken through one after the
other: what they make of a field that is not touched is the same, and what they make of the one
that is depends on who reads it.
-/
import ExecRestApi.Lib.Replaced
import ExecRestApi.Model.Accounts
import ExecRestApi.Model.TraceCalls
import ExecRestApi.Model.Traces
import ExecRestApi.Proofs.CallRequest
import ExecRestApi.Proofs.LogsPage
import ExecRestApi.Proofs.Quantities

namespace ExecRestApi

open Py Interaction Replaced
open Prog (Runs)

/-- The number `n` as JSON number and as text. -/
def Rewritten (n : Nat) (v w : Json) : Prop := v = .int n ∧ ∃ s, strInt n = .ok s ∧ w = .str s

/-- The value of a key of an object is replaced. -/
def AtField (key : String) (R : Json → Json → Prop) (v w : Json) : Prop :=
  ∃ fs fs', v = .obj fs ∧ w = .obj fs' ∧ AtKey key R fs fs'

/-- An entry of an array is replaced. -/
def AtEntry (R : Json → Json → Prop) (v w : Json) : Prop :=
  ∃ l l', v = .arr l ∧ w = .arr l' ∧ OneReplaced R l l'

/-! ### Quantities

A quantity is read by `parse_input_int`, and a number that can be printed reads the same as its
decimal text.
-/

theorem inputQuantity_rewritten {n : Nat} {v w : Json} (h : Rewritten n v w) :
    inputQuantity w = inputQuantity v := by
  obtain ⟨rfl, s, hs, rfl⟩ := h
  unfold strInt at hs
  split_ifs at hs with hfits
  injection hs with hs
  have htext : inputWei (.str s) = .ok (.str (toHex n)) := by
    rw [← hs]
    exact inputWei_of_inputOf (.text (decimalOf_intText hfits))
  exact htext.trans (inputWei_of_inputOf .number).symm

section

variable {key : String} {R : Json → Json → Prop} {fs fs' : List (String × Json)} {n : Nat}

theorem field?_ne (h : AtKey key R fs fs') {k : String} (hk : k ≠ key) :
    Json.field? fs' k = Json.field? fs k := h.lookupIn_ne hk

theorem convertField_ne (h : AtKey key R fs fs') (convert : Json → Except Exc Json)
    (out : List (String × Json)) {k : String} (hk : k ≠ key) :
    convertField convert fs' out k = convertField convert fs out k := by
  unfold convertField
  rw [field?_ne h hk]

theorem convertField_rewritten (h : AtKey key (Rewritten n) fs fs') (out : List (String × Json))
    (k : String) : convertField inputQuantity fs' out k = convertField inputQuantity fs out k := by
  by_cases hk : k = key
  · obtain ⟨v, w, hv, hw, hvw⟩ := h.lookupIn_self
    have hsame := inputQuantity_rewritten hvw
    obtain ⟨rfl, s, -, rfl⟩ := hvw
    unfold convertField Json.field?
    rw [hk, hv, hw]
    dsimp only
    rw [hsame]
  · exact convertField_ne h inputQuantity out hk

/-- Fields that are converted alike one by one. -/
theorem foldlM_convertField {convert : Json → Except Exc Json} {keys : List String}
    (h : ∀ k ∈ keys, ∀ out, convertField convert fs' out k = convertField convert fs out k)
    (out : List (String × Json)) :
    keys.foldlM (convertField convert fs') out = keys.foldlM (convertField convert fs) out := by
  induction keys generalizing out with
  | nil => rfl
  | cons k keys ih =>
      rw [List.foldlM_cons, List.foldlM_cons, h k List.mem_cons_self]
      exact congrArg _ (funext fun out => ih (fun k hk => h k (List.mem_cons_of_mem _ hk)) out)

theorem foldlM_convertField_ne (h : AtKey key R fs fs') (convert : Json → Except Exc Json)
    {keys : List String} (hkey : key ∉ keys) (out : List (String × Json)) :
    keys.foldlM (convertField convert fs') out = keys.foldlM (convertField convert fs) out :=
  foldlM_convertField (fun _ hk out => convertField_ne h convert out fun heq => hkey (heq ▸ hk)) out

/-! ### The parts of a call that a field does not touch

A converter looks at its own fields only.  There is one frame lemma for each.
-/

theorem convertAddresses_ne (h : AtKey key R fs fs') (hkey : key ∉ addressFields)
    (out : List (String × Json)) : convertAddresses out fs' = convertAddresses out fs :=
  foldlM_convertField_ne h inputAddress hkey out

theorem convertNumeric_ne (h : AtKey key R fs fs') (hkey : key ∉ intFields ++ weiFields)
    (out : List (String × Json)) : convertNumeric out fs' = convertNumeric out fs := by
  rw [List.mem_append, not_or] at hkey
  unfold convertNumeric
  rw [foldlM_convertField_ne h inputQuantity hkey.1]
  exact congrArg _ (funext (foldlM_convertField_ne h inputWei hkey.2))

theorem convertNumeric_rewritten (h : AtKey key (Rewritten n) fs fs') (out : List (String × Json)) :
    convertNumeric out fs' = convertNumeric out fs := by
  have heach : ∀ keys : List String, ∀ out, keys.foldlM (convertField inputQuantity fs') out
      = keys.foldlM (convertField inputQuantity fs) out := fun keys =>
    foldlM_convertField fun _ _ out => convertField_rewritten h out _
  unfold convertNumeric
  rw [heach intFields]
  exact congrArg _ (funext (heach weiFields))

theorem convertBytes_ne (h : AtKey key R fs fs') (hkey : key ≠ "data")
    (out : List (String × Json)) : convertBytes out fs' = convertBytes out fs := by
  show convertField (inputBytes "data") fs' out "data" >>= pure
    = convertField (inputBytes "data") fs out "data" >>= pure
  rw [convertField_ne h _ _ (Ne.symm hkey)]

theorem convertAccessList_ne (h : AtKey key R fs fs') (hkey : key ≠ "accessList")
    (out : List (String × Json)) : convertAccessList lower out fs' = convertAccessList lower out fs := by
  unfold convertAccessList
  rw [field?_ne h (Ne.symm hkey)]

theorem convertStateOverrides_ne (h : AtKey key R fs fs') (hkey : key ≠ "stateOverrides")
    (out : List (String × Json)) : convertStateOverrides lower out fs' = convertStateOverrides lower out fs := by
  unfold convertStateOverrides
  rw [field?_ne h (Ne.symm hkey)]

theorem convertBlockOverrides_ne (h : AtKey key R fs fs') (hkey : key ≠ "blockOverrides")
    (out : List (String × Json)) : convertBlockOverrides lower out fs' = convertBlockOverrides lower out fs := by
  unfold convertBlockOverrides
  rw [field?_ne h (Ne.symm hkey)]

theorem callAt_ne (h : AtKey key R fs fs') (hkey : key ≠ "at") : callAt fs' = callAt fs := by
  unfold callAt
  rw [field?_ne h (Ne.symm hkey)]

end

/-! ### Where the numbers are

The places are given by paths through the body: a field of the call, of an override in it, or
of the overrides of a block.
-/

/-- A number in the overrides of an account. -/
def NumberInAccount (n : Nat) (v w : Json) : Prop :=
  ∃ key ∈ ["balance", "nonce"], AtField key (Rewritten n) v w

/-- A number in `stateOverrides`. -/
def NumberInStates (n : Nat) (v w : Json) : Prop :=
  ∃ so so', v = .obj so ∧ w = .obj so' ∧
    OneReplaced (fun p q => p.1 = q.1 ∧ NumberInAccount n p.2 q.2) so so'

/-- A number in `blockOverrides`. -/
def NumberInBlock (n : Nat) (v w : Json) : Prop :=
  ∃ key ∈ ["number", "timestamp", "gasLimit", "baseFeePerGas", "difficulty"],
    AtField key (Rewritten n) v w

/-- A number in a call. -/
def NumberInCall (n : Nat) (v w : Json) : Prop :=
  (∃ key ∈ intFields ++ weiFields, AtField key (Rewritten n) v w) ∨
    AtField "stateOverrides" (NumberInStates n) v w ∨ AtField "blockOverrides" (NumberInBlock n) v w

/-- A number in an entry of `blockStateCalls`. -/
def NumberInBlockState (n : Nat) (v w : Json) : Prop :=
  AtField "calls" (AtEntry (NumberInCall n)) v w ∨
    AtField "stateOverrides" (NumberInStates n) v w ∨ AtField "blockOverrides" (NumberInBlock n) v w

/-- `at` of a call. -/
def AtOfCall (n : Nat) : Json → Json → Prop := AtField "at" (Rewritten n)

/-! ### A number in a call

The conversion of the whole is a fold over fields, so it is enough that the one step which sees
the difference makes the same of both.
-/

section

variable {key : String} {R : Json → Json → Prop} {fs fs' : List (String × Json)} {n : Nat}

theorem stateOverride_rewritten (h : AtKey key (Rewritten n) fs fs')
    (hkey : key ∈ ["balance", "nonce"]) : stateOverride lower fs' = stateOverride lower fs := by
  have hothers : ∀ k ∈ ["balance", "nonce"], "code" ≠ k ∧ "state" ≠ k ∧ "stateDiff" ≠ k := by decide
  obtain ⟨hcode, hstate, hdiff⟩ := hothers key hkey
  unfold stateOverride
  rw [inputWei_eq]
  simp only [convertField_rewritten h, convertField_ne h _ _ hcode, convertField_ne h _ _ hstate,
    convertField_ne h _ _ hdiff]

theorem addStateOverride_rewritten {p q : String × Json} (hkey : p.1 = q.1)
    (h : NumberInAccount n p.2 q.2) (out : List (String × Json)) :
    addStateOverride lower out q = addStateOverride lower out p := by
  obtain ⟨k, hk, fs, fs', hv, hw, hat⟩ := h
  unfold addStateOverride
  rw [hv, hw, hkey]
  dsimp only
  rw [stateOverride_rewritten hat hk]

theorem convertStateOverrides_rewritten (h : AtKey "stateOverrides" (NumberInStates n) fs fs')
    (out : List (String × Json)) : convertStateOverrides lower out fs' = convertStateOverrides lower out fs := by
  obtain ⟨v, w, hv, hw, so, so', rfl, rfl, hso⟩ := h.lookupIn_self
  unfold convertStateOverrides Json.field?
  rw [hv, hw]
  show so'.foldlM (addStateOverride lower) [] >>= _ = so.foldlM (addStateOverride lower) [] >>= _
  rw [hso.foldlM_eq fun acc p q hpq => addStateOverride_rewritten hpq.1 hpq.2 acc]

theorem blockOverride_rewritten (h : AtKey key (Rewritten n) fs fs')
    (hkey : key ∈ ["number", "timestamp", "gasLimit", "baseFeePerGas", "difficulty"]) :
    blockOverride lower fs' = blockOverride lower fs := by
  have hothers : ∀ k ∈ ["number", "timestamp", "gasLimit", "baseFeePerGas", "difficulty"],
      "coinbase" ≠ k ∧ "random" ≠ k := by decide
  obtain ⟨hcoinbase, hrandom⟩ := hothers key hkey
  have heach : ∀ keys : List String, ∀ out, keys.foldlM (convertField inputQuantity fs') out
      = keys.foldlM (convertField inputQuantity fs) out := fun keys =>
    foldlM_convertField fun _ _ out => convertField_rewritten h out _
  unfold blockOverride
  rw [inputWei_eq]
  simp only [heach, convertField_ne h _ _ hcoinbase, convertField_ne h _ _ hrandom]

theorem convertBlockOverrides_rewritten (h : AtKey "blockOverrides" (NumberInBlock n) fs fs')
    (out : List (String × Json)) : convertBlockOverrides lower out fs' = convertBlockOverrides lower out fs := by
  obtain ⟨v, w, hv, hw, k, hk, bo, bo', rfl, rfl, hbo⟩ := h.lookupIn_self
  unfold convertBlockOverrides Json.field?
  rw [hv, hw]
  show blockOverride lower bo' >>= _ = blockOverride lower bo >>= _
  rw [blockOverride_rewritten hbo hk]

theorem callRequestToRpc_rewritten {c c' : Json} (h : NumberInCall n c c') :
    callRequestToRpc lower c' = callRequestToRpc lower c := by
  rcases h with ⟨key, hkey, fs, fs', rfl, rfl, hat⟩ | ⟨fs, fs', rfl, rfl, hat⟩ | ⟨fs, fs', rfl, rfl, hat⟩
  · have hothers : ∀ k ∈ intFields ++ weiFields, k ∉ addressFields ∧ k ≠ "data" ∧
        k ≠ "accessList" ∧ k ≠ "stateOverrides" ∧ k ≠ "blockOverrides" ∧ k ≠ "at" := by decide
    obtain ⟨haddress, hdata, hlist, hstate, hblock, hat_⟩ := hothers key hkey
    unfold callRequestToRpc callObject
    simp only [convertAddresses_ne hat haddress, convertNumeric_rewritten hat,
      convertBytes_ne hat hdata, convertAccessList_ne hat hlist, convertStateOverrides_ne hat hstate,
      convertBlockOverrides_ne hat hblock, callAt_ne hat hat_]
  · unfold callRequestToRpc callObject
    simp only [convertAddresses_ne hat (by decide), convertNumeric_ne hat (by decide),
      convertBytes_ne hat (by decide), convertAccessList_ne hat (by decide),
      convertStateOverrides_rewritten hat, convertBlockOverrides_ne hat (by decide),
      callAt_ne hat (by decide)]
  · unfold callRequestToRpc callObject
    simp only [convertAddresses_ne hat (by decide), convertNumeric_ne hat (by decide),
      convertBytes_ne hat (by decide), convertAccessList_ne hat (by decide),
      convertStateOverrides_ne hat (by decide), convertBlockOverrides_rewritten hat,
      callAt_ne hat (by decide)]

end

/-! ### A number as the block of a call

Here the two differ on purpose.  The converter of calls asks for a string before it parses, and
a number is refused whatever else is in the body, unless something before it is.
-/

/-- The message for an `at` that is no string. -/
def atMustBeString : Msg := ⟨"`at` must be a string block identifier", none⟩

theorem stops_callRequestToRpc {n : Nat} {c c' : Json} (h : AtOfCall n c c') :
    Stops (.badValue atMustBeString) (callRequestToRpc lower c) (callRequestToRpc lower c') := by
  obtain ⟨fs, fs', rfl, rfl, hat⟩ := h
  have hobject : callObject lower fs' = callObject lower fs := by
    unfold callObject
    simp only [convertAddresses_ne hat (by decide), convertNumeric_ne hat (by decide),
      convertBytes_ne hat (by decide), convertAccessList_ne hat (by decide),
      convertStateOverrides_ne hat (by decide), convertBlockOverrides_ne hat (by decide)]
  have hcall : callAt fs = .error (.badValue atMustBeString) := by
    obtain ⟨v, w, hv, -, rfl, -⟩ := hat.lookupIn_self
    unfold callAt Json.field?
    rw [hv]
    rfl
  unfold callRequestToRpc
  dsimp only
  rw [hobject]
  refine .after fun out => ?_
  rw [hcall]
  exact stops_self _

/-! ### An entry of `blockStateCalls` -/

section

variable {key : String} {R : Json → Json → Prop} {fs fs' : List (String × Json)} {n : Nat}

theorem overrideOf_ne (h : AtKey key R fs fs') (convert : List (String × Json) →
      List (String × Json) → Except Exc (List (String × Json))) {k : String} (hk : k ≠ key)
    (out : List (String × Json)) : overrideOf convert k fs' out = overrideOf convert k fs out := by
  unfold overrideOf
  rw [field?_ne h hk]

/-- A converter that treats both values of its key alike. -/
theorem overrideOf_self {convert : List (String × Json) →
      List (String × Json) → Except Exc (List (String × Json))} (h : AtKey key R fs fs')
    (hconvert : ∀ v w, R v w → convert [] [(key, w)] = convert [] [(key, v)])
    (out : List (String × Json)) :
    overrideOf convert key fs' out = overrideOf convert key fs out := by
  obtain ⟨v, w, hv, hw, hvw⟩ := h.lookupIn_self
  unfold overrideOf Json.field?
  rw [hv, hw]
  dsimp only
  rw [hconvert v w hvw]

theorem blockStateCall_rewritten {b b' : Json} (h : NumberInBlockState n b b') :
    blockStateCall b' = blockStateCall b := by
  rcases h with ⟨fs, fs', rfl, rfl, hat⟩ | ⟨fs, fs', rfl, rfl, hat⟩ | ⟨fs, fs', rfl, rfl, hat⟩
  · obtain ⟨v, w, hv, hw, l, l', rfl, rfl, hl⟩ := hat.lookupIn_self
    have hcalls : l'.mapM innerCall = l.mapM innerCall := hl.mapM_eq fun c c' hc => by
      unfold innerCall
      rw [callRequestToRpc_rewritten hc]
    unfold blockStateCall
    simp only [overrideOf_ne hat _ (k := "blockOverrides") (by decide),
      overrideOf_ne hat _ (k := "stateOverrides") (by decide)]
    unfold Json.field?
    rw [hv, hw]
    simp only [Option.getD_some, hcalls]
  · unfold blockStateCall
    simp only [overrideOf_ne hat _ (k := "blockOverrides") (by decide), field?_ne hat (k := "calls")
      (by decide), overrideOf_self hat fun v w hvw => convertStateOverrides_rewritten (.head hvw) []]
  · unfold blockStateCall
    simp only [overrideOf_ne hat _ (k := "stateOverrides") (by decide), field?_ne hat (k := "calls")
      (by decide), overrideOf_self hat fun v w hvw => convertBlockOverrides_rewritten (.head hvw) []]

theorem stops_innerCall {c c' : Json} (h : AtOfCall n c c') :
    Stops (.badValue atMustBeString) (innerCall c) (innerCall c') :=
  (stops_callRequestToRpc h).bind _

theorem stops_blockStateCall {b b' : Json} (h : AtField "calls" (AtEntry (AtOfCall n)) b b') :
    Stops (.badValue atMustBeString) (blockStateCall b) (blockStateCall b') := by
  obtain ⟨fs, fs', rfl, rfl, hat⟩ := h
  obtain ⟨v, w, hv, hw, l, l', rfl, rfl, hl⟩ := hat.lookupIn_self
  unfold blockStateCall
  simp only [overrideOf_ne hat _ (k := "blockOverrides") (by decide),
    overrideOf_ne hat _ (k := "stateOverrides") (by decide)]
  refine .after fun out => .after fun out => ?_
  unfold Json.field?
  rw [hv, hw]
  exact (hl.stops_mapM fun c c' hc => stops_innerCall hc).bind _

theorem bodyAt_ne (h : AtKey key R fs fs') (hkey : "at" ≠ key) : bodyAt fs' = bodyAt fs := by
  unfold bodyAt
  rw [field?_ne h hkey]

end

/-! ### The endpoints

`LenientNumber` are the places of an endpoint where a number may stand for its text, and
`StrictNumber` those where it may not.
-/

/-- The endpoints whose bodies hold quantities or blocks. -/
inductive LenientRoute where
  | call
  | gasEstimate
  | accessList
  | simulate
  | traceCall
  | traceCallMany
  | debugTracesCall
  | logsSearch
  | tracesSearch
  | proofSearch
  deriving DecidableEq

/-- The handler of an endpoint. -/
def LenientRoute.handler : LenientRoute → App → Request → Handler Response
  | call => postCall
  | gasEstimate => ExecRestApi.gasEstimate
  | accessList => ExecRestApi.accessList
  | simulate => ExecRestApi.simulate
  | traceCall => ExecRestApi.traceCall
  | traceCallMany => ExecRestApi.traceCallMany
  | debugTracesCall => ExecRestApi.debugTracesCall
  | logsSearch => postLogsSearch
  | tracesSearch => postTracesSearch
  | proofSearch => postProofSearch

/-- A number that may as well be text: a quantity, or an end of the range of `/traces/search`. -/
def LenientRoute.LenientNumber (n : Nat) : LenientRoute → Json → Json → Prop
  | call | gasEstimate | accessList => NumberInCall n
  | simulate => AtField "blockStateCalls" (AtEntry (NumberInBlockState n))
  | traceCall | debugTracesCall => AtField "call" (NumberInCall n)
  | traceCallMany => AtField "calls" (AtEntry (NumberInCall n))
  | tracesSearch => fun v w => ∃ key ∈ ["fromBlock", "toBlock"], AtField key (Rewritten n) v w
  | logsSearch | proofSearch => fun _ _ => False

/-- A number where the code says that text is needed. -/
def LenientRoute.StrictNumber (n : Nat) : LenientRoute → Json → Json → Prop
  | call | gasEstimate | accessList => AtOfCall n
  | simulate => AtField "blockStateCalls" (AtEntry (AtField "calls" (AtEntry (AtOfCall n))))
  | traceCall | debugTracesCall => AtField "call" (AtOfCall n)
  | traceCallMany => AtField "calls" (AtEntry (AtOfCall n))
  | proofSearch => AtField "at" (Rewritten n)
  | logsSearch | tracesSearch => fun _ _ => False

/-- A request with another body. -/
def Request.withBody (req : Request) (body : Json) : Request := { req with body := .ok body }

/-- Two handlers with the same exchanges and the same ends. -/
def EqualRuns (p q : Handler Response) : Prop := ∀ tr out, Runs p tr out ↔ Runs q tr out

theorem equalRuns_of_eq {p q : Handler Response} (h : p = q) : EqualRuns p q := by
  rw [h]
  exact fun _ _ => Iff.rfl

/-! ### Numbers that may as well be text

From equal readings equal handlers follow: the same calls, in the same order, with the same
answers.
-/

section

variable {n : Nat} {req : Request} {v w : Json}

theorem readJson_withBody (v : Json) : readJson (req.withBody v) = .ok (.inr v) := rfl

theorem readJsonObject_withBody (fs : List (String × Json)) :
    readJsonObject (req.withBody (.obj fs)) = .ok (.inr fs) := rfl

theorem callOf_rewritten (method : String) (h : NumberInCall n v w) :
    callOf method (req.withBody w) = callOf method (req.withBody v) := by
  unfold callOf readCallRequest
  rw [readJson_withBody, readJson_withBody, unlessRefused_inr, unlessRefused_inr,
    callRequestToRpc_rewritten h]
  rfl

theorem simulateOf_rewritten (h : AtField "blockStateCalls" (AtEntry (NumberInBlockState n)) v w) :
    simulateOf (req.withBody w) = simulateOf (req.withBody v) := by
  obtain ⟨fs, fs', rfl, rfl, hat⟩ := h
  obtain ⟨x, y, hx, hy, l, l', rfl, rfl, hl⟩ := hat.lookupIn_self
  have hflags : ∀ out, simulateFlags.foldl (simulateFlag fs') out
      = simulateFlags.foldl (simulateFlag fs) out := by
    intro out
    show simulateFlag fs' (simulateFlag fs' (simulateFlag fs' out _) _) _
      = simulateFlag fs (simulateFlag fs (simulateFlag fs out _) _) _
    unfold simulateFlag
    rw [field?_ne hat (k := "traceTransfers") (by decide),
      field?_ne hat (k := "validation") (by decide),
      field?_ne hat (k := "returnFullTransactions") (by decide)]
  have hpayload : simulatePayload fs' (.arr l') = simulatePayload fs (.arr l) := by
    have hcalls : l'.mapM blockStateCall = l.mapM blockStateCall :=
      hl.mapM_eq fun _ _ hb => blockStateCall_rewritten hb
    unfold simulatePayload
    simp only [hflags, bodyAt_ne hat (by decide)]
    show l'.mapM blockStateCall >>= _ = l.mapM blockStateCall >>= _
    rw [hcalls]
  unfold simulateOf Json.field?
  rw [readJson_withBody, readJson_withBody, unlessRefused_inr, unlessRefused_inr]
  dsimp only
  rw [hx, hy]
  dsimp only
  rw [hpayload]
  rfl

theorem traceCallOf_rewritten (h : AtField "call" (NumberInCall n) v w) :
    traceCallOf (req.withBody w) = traceCallOf (req.withBody v) := by
  obtain ⟨fs, fs', rfl, rfl, hat⟩ := h
  obtain ⟨c, c', hc, hc', hcall⟩ := hat.lookupIn_self
  have htracers := field?_ne hat (k := "tracers") (by decide)
  unfold traceCallOf
  rw [readJsonObject_withBody, readJsonObject_withBody, unlessRefused_inr, unlessRefused_inr,
    htracers, show Json.field? fs "call" = some c from hc,
    show Json.field? fs' "call" = some c' from hc', bodyAt_ne hat (by decide)]
  cases Json.field? fs "tracers" with
  | none => rfl
  | some tracers =>
      dsimp only
      rw [callRequestToRpc_rewritten hcall]
      rfl

theorem debugTracesOf_rewritten (h : AtField "call" (NumberInCall n) v w) :
    debugTracesOf (req.withBody w) = debugTracesOf (req.withBody v) := by
  obtain ⟨fs, fs', rfl, rfl, hat⟩ := h
  obtain ⟨c, c', hc, hc', hcall⟩ := hat.lookupIn_self
  unfold debugTracesOf
  rw [readJson_withBody, readJson_withBody, unlessRefused_inr, unlessRefused_inr]
  dsimp only
  rw [show Json.field? fs "call" = some c from hc, show Json.field? fs' "call" = some c' from hc',
    field?_ne hat (k := "tracer") (by decide), bodyAt_ne hat (by decide)]
  dsimp only
  rw [callRequestToRpc_rewritten hcall]
  rfl

theorem traceCallManyOf_rewritten (h : AtField "calls" (AtEntry (NumberInCall n)) v w) :
    traceCallManyOf (req.withBody w) = traceCallManyOf (req.withBody v) := by
  obtain ⟨fs, fs', rfl, rfl, hat⟩ := h
  obtain ⟨x, y, hx, hy, l, l', rfl, rfl, hl⟩ := hat.lookupIn_self
  have hcalls : ∀ tracers, l'.mapM (tracedCall tracers) = l.mapM (tracedCall tracers) := by
    refine fun tracers => hl.mapM_eq fun c c' hc => ?_
    unfold tracedCall innerCall
    rw [callRequestToRpc_rewritten hc]
  unfold traceCallManyOf
  rw [readJsonObject_withBody, readJsonObject_withBody, unlessRefused_inr, unlessRefused_inr,
    field?_ne hat (k := "tracers") (by decide), show Json.field? fs "calls" = some (.arr l) from hx,
    show Json.field? fs' "calls" = some (.arr l') from hy, bodyAt_ne hat (by decide)]
  cases Json.field? fs "tracers" with
  | none => rfl
  | some tracers =>
      dsimp only
      simp only [hcalls]
      rfl

theorem parseBlockIdOfStr_rewritten (h : Rewritten n v w) :
    parseBlockIdOfStr w = parseBlockIdOfStr v := by
  obtain ⟨rfl, s, hs, rfl⟩ := h
  unfold parseBlockIdOfStr
  dsimp only
  rw [hs]
  rfl

/-- An end of the range. -/
theorem parseBlockIdOfStr_field {key : String} {fs fs' : List (String × Json)}
    (hat : AtKey key (Rewritten n) fs fs') (k : String) (missing : Json) :
    parseBlockIdOfStr ((Json.field? fs' k).getD missing)
      = parseBlockIdOfStr ((Json.field? fs k).getD missing) := by
  by_cases hk : k = key
  · obtain ⟨x, y, hx, hy, hxy⟩ := hat.lookupIn_self
    rw [hk, show Json.field? fs key = some x from hx, show Json.field? fs' key = some y from hy]
    exact parseBlockIdOfStr_rewritten hxy
  · rw [field?_ne hat hk]

theorem postTracesScan_rewritten
    (h : ∃ key ∈ ["fromBlock", "toBlock"], AtField key (Rewritten n) v w) :
    postTracesScan (req.withBody w) = postTracesScan (req.withBody v) := by
  obtain ⟨key, hkey, fs, fs', rfl, rfl, hat⟩ := h
  have hothers : ∀ k ∈ ["fromBlock", "toBlock"], "fromAddress" ≠ k ∧ "toAddress" ≠ k := by decide
  obtain ⟨hfrom, hto⟩ := hothers key hkey
  have hrange : parseRangeOfStr req.path ((Json.field? fs' "fromBlock").getD (.str "earliest"))
        ((Json.field? fs' "toBlock").getD (.str "latest"))
      = parseRangeOfStr req.path ((Json.field? fs "fromBlock").getD (.str "earliest"))
        ((Json.field? fs "toBlock").getD (.str "latest")) := by
    unfold parseRangeOfStr
    rw [parseBlockIdOfStr_field hat "fromBlock", parseBlockIdOfStr_field hat "toBlock"]
  unfold postTracesScan bodyRange Request.withBody
  dsimp only
  rw [hrange, field?_ne hat hfrom, field?_ne hat hto]

end

/-! ### Numbers where text is needed

`Refuses` says of the reading with the number that it ends in the refusal of `at`, or before
`at` is looked at, and then as the reading with the text does.
-/

/-- Nothing is to be asked: what was read is answered as in `y`, or with `resp`. -/
def Refuses {α : Type} (resp : Response) (x y : Except Exc (Response ⊕ α)) : Prop :=
  (∀ a, x ≠ .ok (.inr a)) ∧ (x = y ∨ x = .ok (.inl resp))

section

variable {α β : Type} {resp : Response}

theorem refuses_self (y : Except Exc (Response ⊕ α)) : Refuses resp (.ok (.inl resp)) y :=
  ⟨nofun, .inr rfl⟩

theorem refuses_orBadRequest {e : Exc} (path : String) (he : e.isBadInput = true)
    {x y : Except Exc α} (h : Stops e x y) :
    Refuses (badRequest path e.str) (orBadRequest path x) (orBadRequest path y) := by
  unfold orBadRequest
  rcases h with ⟨e', rfl, rfl⟩ | rfl
  · refine ⟨?_, .inl rfl⟩
    dsimp only
    split_ifs <;> nofun
  · dsimp only
    rw [if_pos he]
    exact refuses_self _

/-- What comes after it is not reached. -/
theorem Refuses.unless {x y : Except Exc (Response ⊕ α)} (h : Refuses resp x y)
    (f : α → Except Exc (Response ⊕ β)) :
    Refuses resp (unlessRefused x f) (unlessRefused y f) := by
  obtain ⟨hnot, hsame⟩ := h
  have hrefused : ∀ b, unlessRefused x f ≠ .ok (.inr b) := by
    intro b hb
    cases x with
    | error e => cases hb
    | ok r =>
        cases r with
        | inl resp' => cases hb
        | inr a => exact hnot a rfl
  rcases hsame with rfl | rfl
  · exact ⟨hrefused, .inl rfl⟩
  · exact ⟨hrefused, .inr rfl⟩

/-- What comes before it is the same. -/
theorem Refuses.after {x : Except Exc (Response ⊕ α)} {f g : α → Except Exc (Response ⊕ β)}
    (h : ∀ a, Refuses resp (f a) (g a)) : Refuses resp (unlessRefused x f) (unlessRefused x g) := by
  cases x with
  | error e => exact ⟨nofun, .inl rfl⟩
  | ok r =>
      cases r with
      | inl resp' => exact ⟨nofun, .inl rfl⟩
      | inr a => exact h a

end

/-- The answer to an `at` that is no string. -/
def atRefused (path : String) : Response := badRequest path atMustBeString

section

variable {n : Nat} {req : Request} {v w : Json}

theorem refuses_callOf (method : String) (h : AtOfCall n v w) :
    Refuses (atRefused req.path) (callOf method (req.withBody v))
      (callOf method (req.withBody w)) := by
  unfold callOf readCallRequest
  rw [readJson_withBody, readJson_withBody, unlessRefused_inr, unlessRefused_inr]
  exact (refuses_orBadRequest req.path rfl (stops_callRequestToRpc h)).unless _

theorem refuses_simulateOf
    (h : AtField "blockStateCalls" (AtEntry (AtField "calls" (AtEntry (AtOfCall n)))) v w) :
    Refuses (atRefused req.path) (simulateOf (req.withBody v)) (simulateOf (req.withBody w)) := by
  obtain ⟨fs, fs', rfl, rfl, hat⟩ := h
  obtain ⟨x, y, hx, hy, l, l', rfl, rfl, hl⟩ := hat.lookupIn_self
  have hpayload : Stops (.badValue atMustBeString) (simulatePayload fs (.arr l))
      (simulatePayload fs' (.arr l')) := by
    unfold simulatePayload
    show Stops _ (l.mapM blockStateCall >>= _) (l'.mapM blockStateCall >>= _)
    rcases hl.stops_mapM fun b b' hb => stops_blockStateCall hb with ⟨e', hl, hl'⟩ | hl
    · rw [hl, hl']
      exact .inl ⟨e', rfl, rfl⟩
    · rw [hl]
      exact .inr rfl
  unfold simulateOf
  rw [readJson_withBody, readJson_withBody, unlessRefused_inr, unlessRefused_inr]
  dsimp only
  rw [show Json.field? fs "blockStateCalls" = _ from hx,
    show Json.field? fs' "blockStateCalls" = _ from hy]
  exact (refuses_orBadRequest req.path rfl hpayload).unless _

/-- A call and the block of the body it is in. -/
theorem stops_callAndAt {c c' : Json} (h : AtOfCall n c c') (fs fs' : List (String × Json)) :
    Stops (.badValue atMustBeString) (do
      let (rpcCall, _) ← callRequestToRpc lower c
      let at_ ← bodyAt fs
      pure (rpcCall, at_) : Except Exc (List (String × Json) × String)) (do
      let (rpcCall, _) ← callRequestToRpc lower c'
      let at_ ← bodyAt fs'
      pure (rpcCall, at_)) := by
  rcases stops_callRequestToRpc h with ⟨e', hc, hc'⟩ | hc
  · rw [hc, hc']
    exact .inl ⟨e', rfl, rfl⟩
  · rw [hc]
    exact .inr rfl

theorem refuses_traceCallOf (h : AtField "call" (AtOfCall n) v w) :
    Refuses (atRefused req.path) (traceCallOf (req.withBody v)) (traceCallOf (req.withBody w)) := by
  obtain ⟨fs, fs', rfl, rfl, hat⟩ := h
  obtain ⟨c, c', hc, hc', hcall⟩ := hat.lookupIn_self
  unfold traceCallOf
  rw [readJsonObject_withBody, readJsonObject_withBody, unlessRefused_inr, unlessRefused_inr,
    field?_ne hat (k := "tracers") (by decide), show Json.field? fs "call" = some c from hc,
    show Json.field? fs' "call" = some c' from hc']
  cases Json.field? fs "tracers" with
  | none => exact ⟨nofun, .inl rfl⟩
  | some tracers =>
      refine .after fun tracers => ?_
      exact (refuses_orBadRequest req.path rfl (stops_callAndAt hcall fs fs')).unless _

theorem refuses_debugTracesOf (h : AtField "call" (AtOfCall n) v w) :
    Refuses (atRefused req.path) (debugTracesOf (req.withBody v))
      (debugTracesOf (req.withBody w)) := by
  obtain ⟨fs, fs', rfl, rfl, hat⟩ := h
  obtain ⟨c, c', hc, hc', hcall⟩ := hat.lookupIn_self
  unfold debugTracesOf
  rw [readJson_withBody, readJson_withBody, unlessRefused_inr, unlessRefused_inr]
  dsimp only
  rw [show Json.field? fs "call" = some c from hc, show Json.field? fs' "call" = some c' from hc',
    field?_ne hat (k := "tracer") (by decide)]
  exact (refuses_orBadRequest req.path rfl (stops_callAndAt hcall fs fs')).unless _

theorem refuses_traceCallManyOf (h : AtField "calls" (AtEntry (AtOfCall n)) v w) :
    Refuses (atRefused req.path) (traceCallManyOf (req.withBody v))
      (traceCallManyOf (req.withBody w)) := by
  obtain ⟨fs, fs', rfl, rfl, hat⟩ := h
  obtain ⟨x, y, hx, hy, l, l', rfl, rfl, hl⟩ := hat.lookupIn_self
  unfold traceCallManyOf
  rw [readJsonObject_withBody, readJsonObject_withBody, unlessRefused_inr, unlessRefused_inr,
    field?_ne hat (k := "tracers") (by decide), show Json.field? fs "calls" = some (.arr l) from hx,
    show Json.field? fs' "calls" = some (.arr l') from hy, bodyAt_ne hat (by decide)]
  cases Json.field? fs "tracers" with
  | none => exact ⟨nofun, .inl rfl⟩
  | some tracers =>
      refine .after fun tracers => ?_
      have hcalls : Stops (.badValue atMustBeString) (l.mapM (tracedCall tracers))
          (l'.mapM (tracedCall tracers)) := hl.stops_mapM fun c c' hc => (stops_innerCall hc).bind _
      exact (refuses_orBadRequest req.path rfl (hcalls.bind _)).unless _

theorem refuses_proofSearchOf (h : AtField "at" (Rewritten n) v w) :
    Refuses (atRefused req.path) (proofSearchOf (req.withBody v))
      (proofSearchOf (req.withBody w)) := by
  obtain ⟨fs, fs', rfl, rfl, hat⟩ := h
  have hproof : proofAt (req.withBody (.obj fs)) fs = .ok (.inl (atRefused req.path)) := by
    obtain ⟨x, y, hx, -, rfl, -⟩ := hat.lookupIn_self
    unfold proofAt
    rw [show Json.field? fs "at" = some (.int n) from hx]
    rfl
  unfold proofSearchOf
  refine .after fun addr => ?_
  rw [readJson_withBody, readJson_withBody, unlessRefused_inr, unlessRefused_inr]
  dsimp only
  rw [field?_ne hat (k := "slots") (by decide), hproof]
  cases Json.field? fs "slots" with
  | none => exact ⟨nofun, .inl rfl⟩
  | some slots =>
      cases slots with
      | arr slots =>
          dsimp only
          cases slots.mapM proofSlot with
          | error msg => exact ⟨nofun, .inl rfl⟩
          | ok slots => exact refuses_self _
      | _ => exact ⟨nofun, .inl rfl⟩

end

/-! ### What the handlers make of it -/

/-- A handler that answers, or goes on with the call it has read. -/
def afterRead (x : Except Exc (Response ⊕ RpcCall)) (rest : RpcCall → Handler Response) :
    Handler Response := do
  match ← x with
  | .inl resp => pure resp
  | .inr rpc => rest rpc

/-- The handler `p` asks nothing: it runs as `q` does, or answers that `at` must be a string. -/
structure RefusesAt (path : String) (p q : Handler Response) : Prop where
  asksNothing : ∀ tr out, Runs p tr out → tr = []
  runs : EqualRuns p q ∨ ∀ tr out, Runs p tr out ↔ tr = [] ∧ out = .ok (atRefused path)

theorem refusesAt_afterRead {path : String} {x y : Except Exc (Response ⊕ RpcCall)}
    (h : Refuses (atRefused path) x y) (rest : RpcCall → Handler Response) :
    RefusesAt path (afterRead x rest) (afterRead y rest) := by
  obtain ⟨hnot, hsame⟩ := h
  constructor
  · intro tr out hrun
    cases x with
    | error e => exact hrun.1
    | ok r =>
        cases r with
        | inl resp => exact hrun.1
        | inr rpc => exact absurd rfl (hnot rpc)
  · rcases hsame with rfl | rfl
    · exact .inl fun _ _ => Iff.rfl
    · exact .inr fun _ _ => Iff.rfl

/-- **A number may be text.**  A quantity, or an end of the range of `/traces/search`, makes the
handler exchange and answer the same as a number and as text; where the code wants a string as the
block of a call or of a proof, the number is not sent on. -/
theorem lenient_post (route : LenientRoute) (app : App) (req : Request) (n : Nat) (v w : Json) :
    (route.LenientNumber n v w →
      EqualRuns (route.handler app (req.withBody v)) (route.handler app (req.withBody w))) ∧
    (route.StrictNumber n v w →
      RefusesAt req.path (route.handler app (req.withBody v))
        (route.handler app (req.withBody w))) := by
  have hcomputed : ∀ read shape, shape (req.withBody w) = shape (req.withBody v) →
      read (req.withBody w) = read (req.withBody v) →
      EqualRuns (computed read shape (req.withBody v)) (computed read shape (req.withBody w)) := by
    intro read shape hshape hread
    refine equalRuns_of_eq ?_
    unfold computed
    rw [hread, hshape]
  have hpassed : ∀ read, read (req.withBody w) = read (req.withBody v) →
      EqualRuns (passedOn read (req.withBody v)) (passedOn read (req.withBody w)) := by
    intro read hread
    refine equalRuns_of_eq ?_
    unfold passedOn
    rw [hread]
  constructor
  · intro h
    cases route with
    | call => exact hcomputed (callOf "eth_call") callShape rfl (callOf_rewritten _ h)
    | gasEstimate =>
        exact hcomputed (callOf "eth_estimateGas") gasEstimateShape rfl (callOf_rewritten _ h)
    | accessList =>
        exact hcomputed (callOf "eth_createAccessList") accessListShape rfl (callOf_rewritten _ h)
    | simulate => exact hcomputed simulateOf simulateShape rfl (simulateOf_rewritten h)
    | traceCall => exact hpassed traceCallOf (traceCallOf_rewritten h)
    | traceCallMany => exact hpassed traceCallManyOf (traceCallManyOf_rewritten h)
    | debugTracesCall => exact hcomputed debugTracesOf passShape rfl (debugTracesOf_rewritten h)
    | logsSearch => exact h.elim
    | tracesSearch =>
        refine equalRuns_of_eq ?_
        show tracesPage _ postTracesScan app (req.withBody v)
          = tracesPage _ postTracesScan app (req.withBody w)
        unfold tracesPage openTraceScan
        rw [postTracesScan_rewritten h]
        rfl
    | proofSearch => exact h.elim
  · intro h
    cases route with
    | call => exact refusesAt_afterRead (refuses_callOf _ h) _
    | gasEstimate => exact refusesAt_afterRead (refuses_callOf _ h) _
    | accessList => exact refusesAt_afterRead (refuses_callOf _ h) _
    | simulate => exact refusesAt_afterRead (refuses_simulateOf h) _
    | traceCall => exact refusesAt_afterRead (refuses_traceCallOf h) _
    | traceCallMany => exact refusesAt_afterRead (refuses_traceCallManyOf h) _
    | debugTracesCall => exact refusesAt_afterRead (refuses_debugTracesOf h) _
    | logsSearch => exact h.elim
    | tracesSearch => exact h.elim
    | proofSearch => exact refusesAt_afterRead (refuses_proofSearchOf h) _

/-- A field of an empty call, as a number and as text. -/
def fiveAsNumber (key : String) : Json := .obj [(key, .int 5)]

def fiveAsText (key : String) : Json := .obj [(key, .str "5")]

theorem rewritten_five (key : String) :
    AtField key (Rewritten 5) (fiveAsNumber key) (fiveAsText key) :=
  ⟨_, _, rfl, rfl, .head ⟨rfl, "5", by decide +kernel, rfl⟩⟩

theorem lenient_post_gas :
    EqualRuns (LenientRoute.handler .call (sampleApp 1000 10000)
        (plainRequest.withBody (fiveAsNumber "gas")))
      (LenientRoute.handler .call (sampleApp 1000 10000)
        (plainRequest.withBody (fiveAsText "gas"))) :=
  (lenient_post .call (sampleApp 1000 10000) plainRequest 5 (fiveAsNumber "gas")
    (fiveAsText "gas")).1 (.inl ⟨"gas", by decide, rewritten_five "gas"⟩)

/-- **The block of a call may not be a number.** -/
theorem not_lenient_post :
    ¬ EqualRuns (LenientRoute.handler .call (sampleApp 1000 10000)
        (plainRequest.withBody (fiveAsNumber "at")))
      (LenientRoute.handler .call (sampleApp 1000 10000)
        (plainRequest.withBody (fiveAsText "at"))) := by
  intro h
  have hnumber : Runs (LenientRoute.handler .call (sampleApp 1000 10000)
      (plainRequest.withBody (fiveAsNumber "at"))) [] (.ok (atRefused "/logs")) :=
    Prog.runs_of_feed [] (by decide +kernel)
  have htext : callOf "eth_call" (plainRequest.withBody (fiveAsText "at"))
      = .ok (.inr ⟨"eth_call", [.obj [], .str "0x5"]⟩) := by decide +kernel
  have hrun : Runs (computed (callOf "eth_call") callShape (plainRequest.withBody (fiveAsText "at")))
      [] (.ok (atRefused "/logs")) := (h _ _).mp hnumber
  unfold computed at hrun
  rw [htext] at hrun
  obtain ⟨resp, rest, hcons, -⟩ := hrun
  cases hcons

end ExecRestApi
