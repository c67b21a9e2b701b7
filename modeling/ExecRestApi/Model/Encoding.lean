/-
Conversions between the JSON-RPC wire format and the REST shapes (`encoding.py`).

Arguments are untyped JSON where the source checks the type itself.
-/
import ExecRestApi.Lib.Text
import ExecRestApi.Model.Errors

namespace ExecRestApi

open Py

/-- `_HEX_RE.fullmatch`: `0x[0-9a-fA-F]+` -/
def hexRe : List Char → Bool
  | '0' :: 'x' :: c :: cs => (c :: cs).all isHex
  | _ => false

/-- `_DECIMAL_RE.fullmatch`: `[0-9]+` -/
def decimalRe (cs : List Char) : Bool := !cs.isEmpty && cs.all isDecimal

/-- `0x` followed by exactly `n` hexadecimal digits. -/
def fixedHexRe (n : Nat) : List Char → Bool
  | '0' :: 'x' :: cs => cs.length == n && cs.all isHex
  | _ => false

/-- `hex_to_int` -/
def hexToInt (s : Json) : Except Exc Nat :=
  match s with
  | .str t =>
      if hexRe t.toList then .ok (foldDigits 16 0 (t.toList.drop 2))
      else .error (.encodingError ⟨"expected 0x-prefixed hex, got ", s⟩)
  | _ => .error (.encodingError ⟨"expected 0x-prefixed hex, got ", s⟩)

/-- `int(v)` on decimal text. -/
def intOfText (s : String) : Except Exc Int :=
  match int? s with
  | some n => .ok n
  | none => .error .valueError

/-- `coerce_rpc_int` -/
def coerceRpcInt (value : Json) : Except Exc Int :=
  match value with
  | .bool _ => .error (.encodingError ⟨"bool is not an int: ", value⟩)
  | .int n => if n < 0 then .error (.encodingError ⟨"expected non-negative int, got ", value⟩) else .ok n
  | .str s =>
      if hexRe s.toList then .ok (foldDigits 16 0 (s.toList.drop 2))
      else if decimalRe s.toList then intOfText s
      else .error (.encodingError ⟨"expected int or hex/decimal string, got ", value⟩)
  | _ => .error (.encodingError ⟨"expected int or hex/decimal string, got ", value⟩)

/-- `parse_input_int` -/
def parseInputInt (value : Json) : Except Exc Int :=
  match value with
  | .bool _ => .error (.encodingError ⟨"bool is not an int: ", value⟩)
  | .int n => if n < 0 then .error (.encodingError ⟨"expected non-negative int, got ", value⟩) else .ok n
  | .str s =>
      if decimalRe s.toList then intOfText s
      else .error (.encodingError ⟨"expected non-negative int or decimal string, got ", value⟩)
  | _ => .error (.encodingError ⟨"expected non-negative int or decimal string, got ", value⟩)

/-- `parse_input_wei` -/
def parseInputWei (value : Json) : Except Exc Int := parseInputInt value

/-- `decimal_to_hex` -/
def decimalToHex (n : Int) : Except Exc String :=
  if n < 0 then .error (.encodingError ⟨"expected non-negative int, got ", Json.int n⟩)
  else .ok (toHex n.toNat)

/-- `wei_from_rpc` -/
def weiFromRpc (rpc : Json) : Except Exc String := do
  let n ← hexToInt rpc
  strInt n

/-- `wei_to_rpc` -/
def weiToRpc (value : Json) : Except Exc String :=
  match value with
  | .bool _ => .error (.encodingError ⟨"bool is not a wei value: ", value⟩)
  | .int n =>
      if n < 0 then .error (.encodingError ⟨"wei must be non-negative, got ", value⟩)
      else .ok (formatHex n)
  | .str s =>
      if decimalRe s.toList then do
        let n ← intOfText s
        pure (formatHex n)
      else .error (.encodingError ⟨"wei string must be decimal digits, got ", value⟩)
  | _ => .error (.encodingError ⟨"wei must be int or decimal string, got " ++ typeName value, none⟩)

/-- `map_address_lowercase` -/
def mapAddressLowercase (addr : Json) : Except Exc String :=
  match addr with
  | .str t =>
      if fixedHexRe 40 t.toList then .ok (lower t)
      else .error (.encodingError ⟨"expected 0x-prefixed 20-byte address, got ", addr⟩)
  | _ => .error (.encodingError ⟨"expected 0x-prefixed 20-byte address, got ", addr⟩)

/-- `v.lower()` -/
def lowerOf (v : Json) : Except Exc String :=
  match v with
  | .str t => .ok (lower t)
  | _ => .error .attributeError

/-! ### Quantities survive the wire -/

theorem hexRe_toHex (n : Nat) : hexRe (toHex n).toList = true := by
  rw [toList_toHex]
  rcases hds : Nat.toDigits 16 n with _ | ⟨c, cs⟩
  · exact absurd hds Nat.toDigits_ne_nil
  · rw [hexRe, ← hds, List.all_eq_true]
    exact fun x hx => isHex_of_mem_toDigits hx

theorem hexToInt_toHex (n : Nat) : hexToInt (.str (toHex n)) = .ok n := by
  simp only [hexToInt, hexRe_toHex, if_pos]
  rw [toList_toHex]
  exact congrArg Except.ok (foldDigits_toDigits (by decide) (by decide) n)

theorem decimalToHex_natCast (n : Nat) : decimalToHex (n : Int) = .ok (toHex n) := by
  simp [decimalToHex]

theorem toHex_injective : Function.Injective toHex := by
  intro m n h
  have := hexToInt_toHex m
  rw [h, hexToInt_toHex n] at this
  cases this
  rfl

end ExecRestApi
