/-
What `call_request_to_rpc` raises.

The converters look at one field after the other and end with the first they do not accept.
Most of them refuse with `ValueError`; the fields whose value is put in lower case without
a look at its type raise `AttributeError` instead.  `callVerdicts` lists what is found in
the order it is looked at, and the converter ends as the first complaint of that list says.

Only the first complaint matters, so a converter is compared with its list through `first`, and
the two ways to refuse are told apart by `Catches`: any `except` clause that catches
`ValueError` and lets `AttributeError` through sees the same verdicts.
-/
import ExecRestApi.Lib.Verdict
import ExecRestApi.Model.Computed

namespace ExecRestApi

open Py Checks

/-! ### One field

Each of the conversions of one value raises `ValueError` or nothing.  That is all the later
lemmas use of them.
-/

/-- An `except` clause that catches `ValueError` and not `AttributeError`. -/
class Catches (refuses : Exc → Bool) : Prop where
  value : ∀ e : Exc, e.isValueError = true → refuses e = true
  other : refuses .attributeError = false

instance : Catches Exc.isValueError := ⟨fun _ he => he, rfl⟩

theorem isBadInput_of_isValueError {e : Exc} (he : e.isValueError = true) : e.isBadInput = true := by
  cases e <;> first | rfl | exact he

instance : Catches Exc.isBadInput := ⟨fun _ he => isBadInput_of_isValueError he, rfl⟩

/-- A conversion that raises `ValueError` refuses. -/
def accepts {α : Type} : Except Exc α → Verdict
  | .ok _ => .fine
  | .error _ => .refused

/-- It raises nothing else. -/
def RaisesValueError {α : Type} (x : Except Exc α) : Prop :=
  ∀ e, x = .error e → e.isValueError = true

section

variable {α β : Type} {x : Except Exc α}

theorem meets_accepts {refuses : Exc → Bool} [Catches refuses] (h : RaisesValueError x) :
    Meets refuses x [accepts x] := by
  cases x with
  | ok a => rfl
  | error e => exact meets_refused (Catches.value e (h e rfl))

theorem raisesValueError_ok (a : α) : RaisesValueError (.ok a : Except Exc α) := by
  intro e h
  cases h

theorem raisesValueError_error {e : Exc} (he : e.isValueError = true) :
    RaisesValueError (.error e : Except Exc α) := by
  intro e' h
  cases h
  exact he

theorem raisesValueError_bind {f : α → Except Exc β} (hx : RaisesValueError x)
    (hf : ∀ a, RaisesValueError (f a)) : RaisesValueError (x >>= f) := by
  cases x with
  | ok a => exact hf a
  | error e =>
      intro e' h
      cases h
      exact hx e rfl

theorem raisesValueError_mapM {f : α → Except Exc β} (hf : ∀ a, RaisesValueError (f a))
    (as : List α) : RaisesValueError (as.mapM f) := by
  induction as with
  | nil => exact raisesValueError_ok []
  | cons a as ih =>
      rw [List.mapM_cons]
      exact raisesValueError_bind (hf a) fun b =>
        raisesValueError_bind ih fun bs => raisesValueError_ok (b :: bs)

end

theorem intOfText_raises (s : String) : RaisesValueError (intOfText s) := by
  unfold intOfText
  split
  · exact raisesValueError_ok _
  · exact raisesValueError_error rfl

theorem parseInputInt_raises (v : Json) : RaisesValueError (parseInputInt v) := by
  unfold parseInputInt
  split
  · exact raisesValueError_error rfl
  · split_ifs
    · exact raisesValueError_error rfl
    · exact raisesValueError_ok _
  · split_ifs
    · exact intOfText_raises _
    · exact raisesValueError_error rfl
  · exact raisesValueError_error rfl

theorem decimalToHex_raises (n : Int) : RaisesValueError (decimalToHex n) := by
  unfold decimalToHex
  split_ifs
  · exact raisesValueError_error rfl
  · exact raisesValueError_ok _

theorem inputQuantity_raises (v : Json) : RaisesValueError (inputQuantity v) :=
  raisesValueError_bind (parseInputInt_raises v) fun n =>
    raisesValueError_bind (decimalToHex_raises n) fun _ => raisesValueError_ok _

theorem mapAddressLowercase_raises (v : Json) : RaisesValueError (mapAddressLowercase v) := by
  unfold mapAddressLowercase
  split
  · split_ifs
    · exact raisesValueError_ok _
    · exact raisesValueError_error rfl
  · exact raisesValueError_error rfl

theorem inputAddress_raises (v : Json) : RaisesValueError (inputAddress v) :=
  raisesValueError_bind (mapAddressLowercase_raises v) fun _ => raisesValueError_ok _

theorem inputBytes_raises (f : String) (v : Json) : RaisesValueError (inputBytes f v) := by
  unfold inputBytes
  split
  · split_ifs
    · exact raisesValueError_ok _
    · exact raisesValueError_error rfl
  · exact raisesValueError_error rfl

theorem storageKey_raises (k : Json) : RaisesValueError (storageKey lower k) := by
  unfold storageKey
  split
  · exact raisesValueError_ok _
  · exact raisesValueError_error rfl

theorem accessListEntry_raises (entry : Json) : RaisesValueError (accessListEntry lower entry) := by
  unfold accessListEntry
  split
  · split
    · exact raisesValueError_error rfl
    · split
      · exact raisesValueError_bind (raisesValueError_mapM storageKey_raises _) fun _ =>
          raisesValueError_bind (inputAddress_raises _) fun _ => raisesValueError_ok _
      · exact raisesValueError_error rfl
  · exact raisesValueError_error rfl

theorem parseBlockId_str_raises (s : String) : RaisesValueError (parseBlockId (.str s)) := by
  unfold parseBlockId
  split_ifs
  · exact raisesValueError_error rfl
  · dsimp only
    split_ifs
    · exact raisesValueError_ok _
    · split
      · exact raisesValueError_ok _
      · exact raisesValueError_error rfl
    · exact raisesValueError_ok _
    · exact raisesValueError_error rfl

theorem callAt_raises (body : List (String × Json)) : RaisesValueError (callAt body) := by
  unfold callAt
  split
  · exact raisesValueError_bind (parseBlockId_str_raises _) fun _ => raisesValueError_ok _
  · exact raisesValueError_error rfl

/-! ### What is found in a call

The lists follow the source line by line: the same fields, in the same order, with the
overrides of an account before its address.  A field that is missing or `None` has no verdict.
-/

/-- The verdicts on a field that is there and not `None`. -/
def onField (verdicts : Json → List Verdict) (body : List (String × Json)) (key : String) :
    List Verdict :=
  match Json.field? body key with
  | none => []
  | some .null => []
  | some v => verdicts v

/-- A quantity. -/
def onQuantity (v : Json) : List Verdict := [accepts (inputQuantity v)]

/-- An address. -/
def onAddress (v : Json) : List Verdict := [accepts (inputAddress v)]

/-- A value that is put in lower case, which has to be text. -/
def onText : Json → List Verdict
  | .str _ => []
  | _ => [.broken]

/-- A map of storage slots, which has to be an object of texts. -/
def onSlots : Json → List Verdict
  | .obj entries => entries.flatMap fun entry => onText entry.2
  | _ => [.broken]

/-- The override of one account. -/
def onStateOverride (override : List (String × Json)) : List Verdict :=
  onField onQuantity override "balance" ++ onField onQuantity override "nonce"
    ++ onField onText override "code" ++ onField onSlots override "state"
    ++ onField onSlots override "stateDiff"

/-- One overridden account: its override, then its address. -/
def onAccount (account : String × Json) : List Verdict :=
  match account.2 with
  | .obj override => onStateOverride override ++ onAddress (.str account.1)
  | _ => [.refused]

/-- The overrides of the accounts. -/
def onStateOverrides : Json → List Verdict
  | .null => []
  | .obj accounts => accounts.flatMap onAccount
  | _ => [.refused]

/-- The overrides of the block. -/
def onBlockOverrides : Json → List Verdict
  | .null => []
  | .obj bo =>
      ["number", "timestamp", "gasLimit", "baseFeePerGas", "difficulty"].flatMap
          (onField onQuantity bo)
        ++ onField onAddress bo "coinbase" ++ onField onText bo "random"
  | _ => [.refused]

/-- The access list. -/
def onAccessList : Json → List Verdict
  | .null => []
  | .arr entries => entries.flatMap fun entry => [accepts (accessListEntry lower entry)]
  | _ => [.refused]

/-- What is found in the fields of a call, in the order they are looked at. -/
def objectVerdicts (body : List (String × Json)) : List Verdict :=
  addressFields.flatMap (onField onAddress body)
    ++ (intFields ++ weiFields).flatMap (onField onQuantity body)
    ++ onField (fun v => [accepts (inputBytes "data" v)]) body "data"
    ++ onAccessList ((Json.field? body "accessList").getD .null)
    ++ onStateOverrides ((Json.field? body "stateOverrides").getD .null)
    ++ onBlockOverrides ((Json.field? body "blockOverrides").getD .null)

/-- The same with the block, which comes last. -/
def callVerdicts : Json → List Verdict
  | .obj body => objectVerdicts body ++ [accepts (callAt body)]
  | _ => [.refused]

/-! ### The converters end as they say

There is one lemma for each converter, with the shape of its loop: a fold over the fields, or a
walk over the entries of an object.
-/

section

variable {refuses : Exc → Bool} [Catches refuses]

omit [Catches refuses] in
theorem meets_convertField {convert : Json → Except Exc Json} {verdicts : Json → List Verdict}
    (h : ∀ v, Meets refuses (convert v) (verdicts v)) (body out : List (String × Json)) (key : String) :
    Meets refuses (convertField convert body out key) (onField verdicts body key) := by
  unfold convertField onField
  cases Json.field? body key with
  | none => exact meets_ok out
  | some v =>
      cases v with
      | null => exact meets_ok out
      | _ => exact (h _).map fun x => ⟨_, rfl⟩

theorem meets_inputQuantity (v : Json) : Meets refuses (inputQuantity v) (onQuantity v) :=
  meets_accepts (inputQuantity_raises v)

/-- Amounts of wei are read the way other quantities are. -/
theorem inputWei_eq : inputWei = inputQuantity := rfl

theorem meets_inputAddress (v : Json) : Meets refuses (inputAddress v) (onAddress v) :=
  meets_accepts (inputAddress_raises v)

theorem meets_inputLower (v : Json) : Meets refuses (inputLower lower v) (onText v) := by
  cases v with
  | str s => exact meets_ok _
  | _ => exact meets_broken Catches.other

theorem meets_inputSlots (v : Json) : Meets refuses (inputSlots lower v) (onSlots v) := by
  cases v with
  | obj entries =>
      refine Meets.map (meets_foldlM (fun out entry => ?_) entries []) fun out => ⟨_, rfl⟩
      exact (meets_inputLower entry.2).map fun w => ⟨_, rfl⟩
  | _ => exact meets_broken Catches.other

theorem meets_stateOverride (override : List (String × Json)) :
    Meets refuses (stateOverride lower override) (onStateOverride override) := by
  unfold stateOverride onStateOverride
  simp only [List.append_assoc]
  refine (meets_convertField meets_inputQuantity _ _ _).bind fun _ _ => ?_
  refine (meets_convertField meets_inputQuantity _ _ _).bind fun _ _ => ?_
  refine (meets_convertField meets_inputLower _ _ _).bind fun _ _ => ?_
  refine (meets_convertField meets_inputSlots _ _ _).bind fun _ _ => ?_
  exact meets_convertField meets_inputSlots _ _ _

theorem meets_addStateOverride (converted : List (String × Json)) (account : String × Json) :
    Meets refuses (addStateOverride lower converted account) (onAccount account) := by
  obtain ⟨addr, v⟩ := account
  unfold addStateOverride onAccount
  cases v with
  | obj override =>
      refine (meets_stateOverride override).bind fun _ _ => ?_
      have haddress : Meets refuses (mapAddressLowercase (.str addr)) _ :=
        meets_accepts (mapAddressLowercase_raises (.str addr))
      have hsame : accepts (mapAddressLowercase (.str addr)) = accepts (inputAddress (.str addr)) := by
        unfold inputAddress
        cases mapAddressLowercase (.str addr) <;> rfl
      rw [hsame] at haddress
      exact haddress.map fun _ => ⟨_, rfl⟩
  | _ => exact meets_refused (Catches.value _ rfl)

theorem meets_convertStateOverrides (out body : List (String × Json)) :
    Meets refuses (convertStateOverrides lower out body)
      (onStateOverrides ((Json.field? body "stateOverrides").getD .null)) := by
  unfold convertStateOverrides
  cases (Json.field? body "stateOverrides").getD .null with
  | null => exact meets_ok out
  | obj accounts =>
      exact (meets_foldlM meets_addStateOverride accounts []).map fun _ => ⟨_, rfl⟩
  | _ => exact meets_refused (Catches.value _ rfl)

theorem meets_blockOverride (bo : List (String × Json)) :
    Meets refuses (blockOverride lower bo) (onBlockOverrides (.obj bo)) := by
  unfold blockOverride onBlockOverrides
  have hsplit : ["number", "timestamp", "gasLimit", "baseFeePerGas", "difficulty"].flatMap
      (onField onQuantity bo)
      = ["number", "timestamp", "gasLimit"].flatMap (onField onQuantity bo)
        ++ ["baseFeePerGas", "difficulty"].flatMap (onField onQuantity bo) := by
    rw [← List.flatMap_append]
    rfl
  dsimp only
  rw [hsplit, inputWei_eq]
  simp only [List.append_assoc]
  refine (meets_foldlM (meets_convertField meets_inputQuantity bo) _ _).bind fun _ _ => ?_
  refine (meets_foldlM (meets_convertField meets_inputQuantity bo) _ _).bind fun _ _ => ?_
  refine (meets_convertField meets_inputAddress _ _ _).bind fun _ _ => ?_
  exact meets_convertField meets_inputLower _ _ _

theorem meets_convertBlockOverrides (out body : List (String × Json)) :
    Meets refuses (convertBlockOverrides lower out body)
      (onBlockOverrides ((Json.field? body "blockOverrides").getD .null)) := by
  unfold convertBlockOverrides
  cases (Json.field? body "blockOverrides").getD .null with
  | null => exact meets_ok out
  | obj bo => exact (meets_blockOverride bo).map fun _ => ⟨_, rfl⟩
  | _ => exact meets_refused (Catches.value _ rfl)

theorem meets_convertAccessList (out body : List (String × Json)) :
    Meets refuses (convertAccessList lower out body)
      (onAccessList ((Json.field? body "accessList").getD .null)) := by
  unfold convertAccessList
  cases (Json.field? body "accessList").getD .null with
  | null => exact meets_ok out
  | arr entries =>
      exact (meets_mapM (fun entry => meets_accepts (accessListEntry_raises entry)) entries).map
        fun _ => ⟨_, rfl⟩
  | _ => exact meets_refused (Catches.value _ rfl)

/-- The call object by itself. -/
theorem meets_callObject (body : List (String × Json)) :
    Meets refuses (callObject lower body) (objectVerdicts body) := by
  unfold callObject objectVerdicts convertAddresses convertNumeric convertBytes
  rw [inputWei_eq, List.flatMap_append]
  simp only [List.append_assoc]
  refine (meets_foldlM (meets_convertField meets_inputAddress body) _ _).bind fun _ _ => ?_
  have hnumeric : ∀ out, Meets refuses (do
      let out ← intFields.foldlM (convertField inputQuantity body) out
      weiFields.foldlM (convertField inputQuantity body) out)
      (intFields.flatMap (onField onQuantity body) ++ weiFields.flatMap (onField onQuantity body)) :=
    fun out => (meets_foldlM (meets_convertField meets_inputQuantity body) _ out).bind fun out _ =>
      meets_foldlM (meets_convertField meets_inputQuantity body) _ out
  rw [← List.append_assoc]
  refine (hnumeric _).bind fun out _ => ?_
  have hbytes : Meets refuses (bytesFields.foldlM (fun out f => convertField (inputBytes f) body out f) out)
      (onField (fun v => [accepts (inputBytes "data" v)]) body "data") := by
    show Meets refuses (convertField (inputBytes "data") body out "data" >>= pure) _
    exact (meets_convertField (fun v => meets_accepts (inputBytes_raises "data" v)) _ _ _).map
      fun out => ⟨out, rfl⟩
  refine hbytes.bind fun _ _ => ?_
  refine (meets_convertAccessList _ _).bind fun _ _ => ?_
  refine (meets_convertStateOverrides _ _).bind fun _ _ => ?_
  exact meets_convertBlockOverrides _ _

/-- **The converter ends with the first complaint.** -/
theorem meets_callRequestToRpc (body : Json) :
    Meets refuses (callRequestToRpc lower body) (callVerdicts body) := by
  cases body with
  | obj body =>
      refine (meets_callObject body).bind fun out _ => ?_
      exact (meets_accepts (callAt_raises body)).map fun at_ => ⟨_, rfl⟩
  | _ => exact meets_refused (Catches.value _ rfl)

end

/-! ### The contract

What is left is to read the list: a call is converted or refused unless a field that has to be
text comes first among the complaints and is not.
-/

/-- A call is converted, or refused with `ValueError`; and whoever sends it is answered with 400
then. -/
def Contract (body : Json) : Prop :=
  ((∃ rpc, callRequestToRpc lower body = .ok rpc) ∨
      ∃ e, callRequestToRpc lower body = .error e ∧ e.isValueError = true) ∧
    ∀ req : Request, req.body = .ok body →
      (∃ rpc, readCallRequest req = .ok (.inr rpc)) ∨
        ∃ resp, readCallRequest req = .ok (.inl resp) ∧ resp.status = 400

/-- The answer to the sender follows from what is raised. -/
theorem contract_iff_ok_or_refused {body : Json} :
    Contract body ↔ (∃ rpc, callRequestToRpc lower body = .ok rpc) ∨
      ∃ e, callRequestToRpc lower body = .error e ∧ e.isValueError = true := by
  constructor
  · exact fun h => h.1
  · intro h
    refine ⟨h, fun req hreq => ?_⟩
    have hread : readJson req = .ok (.inr body) := by rw [readJson, hreq]
    rcases h with ⟨rpc, hrpc⟩ | ⟨e, he, hvalue⟩
    · refine .inl ⟨rpc, ?_⟩
      rw [readCallRequest, unlessRefused, hread]
      show orBadRequest req.path (callRequestToRpc lower body) = _
      rw [hrpc]
      rfl
    · refine .inr ⟨badRequest req.path e.str, ?_, rfl⟩
      rw [readCallRequest, unlessRefused, hread]
      show orBadRequest req.path (callRequestToRpc lower body) = _
      rw [he, orBadRequest, if_pos (isBadInput_of_isValueError hvalue)]

/-- The code of an account as a number. -/
def numberAsCode : Json :=
  .obj [("stateOverrides",
    .obj [("0x00000000000000000000000000000000000000aa", .obj [("code", .int 5)])])]

end ExecRestApi
