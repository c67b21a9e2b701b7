/-
The converter from the body of a call to the upstream's call object (`handlers/computed.py`).

Every converter reads one part of `body` and adds it to `out`, the object built so far.  A
field that is missing or `None` adds nothing.
-/
import ExecRestApi.Model.BlockId

namespace ExecRestApi

open Py

/-- `_HEX_BYTES_RE.fullmatch`: `0x` and an even number of hexadecimal digits. -/
def hexBytesRe (s : String) : Bool :=
  match s.toList with
  | '0' :: 'x' :: cs => cs.all isHex && cs.length % 2 == 0
  | _ => false

/-- `_INT_FIELDS` -/
def intFields : List String := ["gas", "nonce", "chainId"]

/-- `_WEI_FIELDS` -/
def weiFields : List String := ["gasPrice", "maxFeePerGas", "maxPriorityFeePerGas", "value"]

/-- `_ADDRESS_FIELDS` -/
def addressFields : List String := ["from", "to"]

/-- `_BYTES_FIELDS` -/
def bytesFields : List String := ["data"]

/-! ### One field -/

/-- `out[key]` becomes the conversion of `body[key]`, if that is there and not `None`. -/
def convertField (convert : Json → Except Exc Json) (body out : List (String × Json))
    (key : String) : Except Exc (List (String × Json)) :=
  match Json.field? body key with
  | none => .ok out
  | some .null => .ok out
  | some v => do
      let x ← convert v
      pure (Dict.setIn key x out)

/-- `decimal_to_hex(parse_input_int(v))` -/
def inputQuantity (v : Json) : Except Exc Json := do
  let n ← parseInputInt v
  let s ← decimalToHex n
  pure (.str s)

/-- `decimal_to_hex(parse_input_wei(v))` -/
def inputWei (v : Json) : Except Exc Json := do
  let n ← parseInputWei v
  let s ← decimalToHex n
  pure (.str s)

/-- `map_address_lowercase(v)` as a value. -/
def inputAddress (v : Json) : Except Exc Json := do
  let a ← mapAddressLowercase v
  pure (.str a)

/-- The bytes of a field `f`. -/
def inputBytes (f : String) (v : Json) : Except Exc Json :=
  let refuse : Except Exc Json :=
    .error (.badValue ⟨"field '" ++ f ++ "' must be 0x-prefixed hex bytes (even length)", none⟩)
  match v with
  | .str s => if hexBytesRe s then .ok (.str (lower s)) else refuse
  | _ => refuse

/-! ### Fields of any text

What is put in lower case above has been checked to be ASCII.  The texts below have not, so the map
is a parameter.
-/

section

variable (lower : String → String)

/-- `v.lower()` as a value. -/
def inputLower (v : Json) : Except Exc Json :=
  match v with
  | .str s => .ok (.str (lower s))
  | _ => .error .attributeError

/-- `{k.lower(): w.lower() for k, w in v.items()}` -/
def inputSlots (v : Json) : Except Exc Json :=
  match v with
  | .obj entries => do
      let out ← entries.foldlM (fun out entry => do
        let w ← inputLower lower entry.2
        pure (Dict.setIn (lower entry.1) w out)) []
      pure (.obj out)
  | _ => .error .attributeError

end

/-! ### The parts of a call -/

/-- `_convert_numeric` -/
def convertNumeric (out body : List (String × Json)) : Except Exc (List (String × Json)) := do
  let out ← intFields.foldlM (convertField inputQuantity body) out
  weiFields.foldlM (convertField inputWei body) out

/-- `_convert_addresses` -/
def convertAddresses (out body : List (String × Json)) : Except Exc (List (String × Json)) :=
  addressFields.foldlM (convertField inputAddress body) out

/-- `_convert_bytes` -/
def convertBytes (out body : List (String × Json)) : Except Exc (List (String × Json)) :=
  bytesFields.foldlM (fun out f => convertField (inputBytes f) body out f) out

section

variable (lower : String → String)

/-- A storage key of an access list. -/
def storageKey (k : Json) : Except Exc Json :=
  match k with
  | .str s => .ok (.str (lower s))
  | _ => .error (.badValue ⟨"accessList storageKey entries must be strings", none⟩)

/-- An entry of an access list. -/
def accessListEntry (entry : Json) : Except Exc Json :=
  match entry with
  | .obj fields =>
      match Json.field? fields "address" with
      | none => .error (.badValue ⟨"accessList entry missing `address`", none⟩)
      | some address =>
          match (Json.field? fields "storageKeys").getD (.arr []) with
          | .arr keys => do
              let keys ← keys.mapM (storageKey lower)
              let address ← inputAddress address
              pure (.obj [("address", address), ("storageKeys", .arr keys)])
          | _ => .error (.badValue ⟨"accessList `storageKeys` must be an array", none⟩)
  | _ => .error (.badValue ⟨"accessList entries must be objects", none⟩)

/-- `_convert_access_list` -/
def convertAccessList (out body : List (String × Json)) : Except Exc (List (String × Json)) :=
  match (Json.field? body "accessList").getD .null with
  | .null => .ok out
  | .arr al => do
      let converted ← al.mapM (accessListEntry lower)
      pure (Dict.setIn "accessList" (.arr converted) out)
  | _ => .error (.badValue ⟨"accessList must be an array", none⟩)

/-- The overrides of one account. -/
def stateOverride (override : List (String × Json)) : Except Exc (List (String × Json)) := do
  let out ← convertField inputWei override [] "balance"
  let out ← convertField inputQuantity override out "nonce"
  let out ← convertField (inputLower lower) override out "code"
  let out ← convertField (inputSlots lower) override out "state"
  convertField (inputSlots lower) override out "stateDiff"

/-- One turn of the loop over the overridden accounts. -/
def addStateOverride (converted : List (String × Json)) (entry : String × Json) :
    Except Exc (List (String × Json)) :=
  match entry.2 with
  | .obj override => do
      let out ← stateOverride lower override
      let addr ← mapAddressLowercase (.str entry.1)
      pure (Dict.setIn addr (.obj out) converted)
  | _ => .error (.badValue ⟨"stateOverride for " ++ entry.1 ++ " must be an object", none⟩)

/-- `_convert_state_overrides` -/
def convertStateOverrides (out body : List (String × Json)) :
    Except Exc (List (String × Json)) :=
  match (Json.field? body "stateOverrides").getD .null with
  | .null => .ok out
  | .obj so => do
      let converted ← so.foldlM (addStateOverride lower) []
      pure (Dict.setIn "stateOverrides" (.obj converted) out)
  | _ => .error (.badValue ⟨"stateOverrides must be an object", none⟩)

/-- The overrides of a block. -/
def blockOverride (bo : List (String × Json)) : Except Exc (List (String × Json)) := do
  let out ← ["number", "timestamp", "gasLimit"].foldlM (convertField inputQuantity bo) []
  let out ← ["baseFeePerGas", "difficulty"].foldlM (convertField inputWei bo) out
  let out ← convertField inputAddress bo out "coinbase"
  convertField (inputLower lower) bo out "random"

/-- `_convert_block_overrides` -/
def convertBlockOverrides (out body : List (String × Json)) :
    Except Exc (List (String × Json)) :=
  match (Json.field? body "blockOverrides").getD .null with
  | .null => .ok out
  | .obj bo => do
      let converted ← blockOverride lower bo
      pure (Dict.setIn "blockOverrides" (.obj converted) out)
  | _ => .error (.badValue ⟨"blockOverrides must be an object", none⟩)

/-- The block a call is made at, which must be a string. -/
def callAt (body : List (String × Json)) : Except Exc String :=
  match (Json.field? body "at").getD (.str "latest") with
  | .str s => do
      let bid ← parseBlockId (.str s)
      pure bid.toRpcParam
  | _ => .error (.badValue ⟨"`at` must be a string block identifier", none⟩)

/-- The upstream's call object. -/
def callObject (body : List (String × Json)) : Except Exc (List (String × Json)) := do
  let out ← convertAddresses [] body
  let out ← convertNumeric out body
  let out ← convertBytes out body
  let out ← convertAccessList lower out body
  let out ← convertStateOverrides lower out body
  convertBlockOverrides lower out body

/-- `call_request_to_rpc`: the call object and the block it is made at. -/
def callRequestToRpc (body : Json) : Except Exc (List (String × Json) × String) :=
  match body with
  | .obj fields => do
      let out ← callObject lower fields
      let at_ ← callAt fields
      pure (out, at_)
  | _ => .error (.badValue ⟨"CallRequest must be an object", none⟩)

end

end ExecRestApi
