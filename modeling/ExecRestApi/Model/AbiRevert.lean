/-
Reverts (`abi_revert.py`): which upstream errors are results, and the body they are answered
with.

The data of a revert is ABI-encoded: a selector of four bytes and a tail of 32-byte words.
Everything is read off the hexadecimal text, as the source does.  Nothing can raise there: the
text has matched `_HEX_RE`, so `int` and `bytes.fromhex` only see digits.
-/
import ExecRestApi.Lib.Base64
import ExecRestApi.Lib.HexBytes
import ExecRestApi.Model.Encoding

namespace ExecRestApi

open Py

/-- `_ERROR_SELECTOR` -/
def errorSelector : String := "08c379a0"

/-- `_PANIC_SELECTOR` -/
def panicSelector : String := "4e487b71"

/-- `_REVERT_MARKERS` -/
def revertMarkers : List String := ["execution reverted"]

/-- `_OUT_OF_GAS_MARKERS` -/
def outOfGasMarkers : List String := ["out of gas", "gas required exceeds allowance"]

/-- `_MAX_REASON_BYTES` -/
def maxReasonBytes : Nat := 2 ^ 20

/-- `is_revert` -/
def isRevert (err : JsonRpcError) : Bool :=
  err.code == -32000 && revertMarkers.any (contains (lower err.message))

/-- `is_out_of_gas` -/
def isOutOfGas (err : JsonRpcError) : Bool := outOfGasMarkers.any (contains (lower err.message))

/-- The digits of `_HEX_RE.fullmatch`: `0x[0-9a-fA-F]*` -/
def hexDataDigits (data : String) : Option (List Char) :=
  match data.toList with
  | '0' :: 'x' :: cs => if cs.all isHex then some cs else none
  | _ => none

/-- `_decode_error_string`: an offset, and at the offset a length and that many bytes. -/
def decodeErrorString (tail : List Char) : Option String :=
  if tail.length < 128 then none
  else
    let offset := foldDigits 16 0 (tail.take 64)
    let structStart := offset * 2
    if tail.length < structStart + 64 then none
    else
      let length := foldDigits 16 0 ((tail.drop structStart).take 64)
      if maxReasonBytes < length then none
      else
        let dataStart := structStart + 64
        if tail.length < dataStart + length * 2 then none
        else
          some (String.ofList (utf8DecodeReplace
            (fromHex ((tail.drop dataStart).take (length * 2)))))

/-- `_decode_panic_uint` -/
def decodePanicUint (tail : List Char) : Option Nat :=
  if tail.length < 64 then none else some (foldDigits 16 0 (tail.take 64))

/-- The digits `decode_revert_data` goes on with, if it does. -/
def revertDigits (data : Json) : Option (List Char) :=
  match data with
  | .str s => hexDataDigits s
  | _ => none

/-- `decode_revert_data`: the reason and the panic code, at most one of which is there. -/
def decodeRevertData (data : Json) : Option String × Option Nat :=
  match revertDigits data with
  | none => (none, none)
  | some body =>
      if body.length < 8 then (none, none)
      else
        let selector := lower (String.ofList (body.take 8))
        let tail := body.drop 8
        if selector = errorSelector then (decodeErrorString tail, none)
        else if selector = panicSelector then (none, decodePanicUint tail)
        else (none, none)

/-- The data of an error, or `0x` if it is not hexadecimal text. -/
def rawRevertData (err : JsonRpcError) : String :=
  match err.data with
  | .str s => if (hexDataDigits s).isSome then s else "0x"
  | _ => "0x"

/-- A reason as JSON. -/
def reasonJson : Option String → Json
  | some reason => .str reason
  | none => .null

/-- A panic code as JSON. -/
def panicJson : Option Nat → Json
  | some code => .int code
  | none => .null

/-- `revert_body` -/
def revertBody (err : JsonRpcError) : Json :=
  let rawData := rawRevertData err
  let (reason, panic) := decodeRevertData (.str rawData)
  .obj ([("reverted", .bool true), ("data", .str (lower rawData)), ("reason", reasonJson reason),
    ("panicCode", panicJson panic)] ++ if isOutOfGas err then [("outOfGas", .bool true)] else [])

end ExecRestApi
