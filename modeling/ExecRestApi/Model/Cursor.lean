/-
Opaque pagination cursors (`cursor.py`).

A cursor is base64url over compact JSON, padding stripped.  How deeply nested a value
`json.dumps` prints and how deeply nested a text `json.loads` accepts is the interpreter's
limit, an argument of either direction: each has as much of the stack as its caller left.
The text of an exception of the standard library is left out of the messages that quote it.
-/
import ExecRestApi.Lib.Base64
import ExecRestApi.Lib.JsonRoundTrip
import ExecRestApi.Model.Errors

namespace ExecRestApi

open Py

/-- `_b64url_encode` -/
def b64urlEncode (depth : Nat) (payload : Json) : Except Exc String :=
  if depth < payload.depth then .error .recursionError
  else
    match payload.dumps with
    | some text => .ok (String.ofList (rstripPad (urlsafeB64encode (utf8Encode text))))
    | none => .error .valueError

/-- `_b64url_decode`: the fields of the payload. -/
def b64urlDecode (depth : Nat) (encoded : String) : Except Exc (List (String × Json)) :=
  if encoded = "" then .error (.cursorError ⟨"cursor is empty", none⟩)
  else
    match urlsafeB64decode (encoded.toList ++ padding encoded.toList) with
    | none => .error (.cursorError ⟨"cursor is not valid base64url: ", none⟩)
    | some raw =>
        match utf8Decode raw with
        | none => .error (.cursorError ⟨"cursor payload is not valid JSON: ", none⟩)
        | some text =>
            match Json.loads depth text with
            | .error .decode =>
                .error (.cursorError ⟨"cursor payload is not valid JSON: ", none⟩)
            | .error .digits => .error .valueError
            | .error .recursion => .error .recursionError
            | .ok (.obj fields) => .ok fields
            | .ok v =>
                .error (.cursorError ⟨"cursor payload must be an object, got " ++ typeName v, none⟩)

/-- `payload[key]`, with `KeyError` turned into `CursorError`. -/
def cursorField (fields : List (String × Json)) (key : String) : Except Exc Json :=
  match Json.field? fields key with
  | some v => .ok v
  | none => .error (.cursorError ⟨"cursor missing field: '" ++ key ++ "'", none⟩)

/-- An integer that is not a boolean, or `CursorError`. -/
def asInt (msg : String) : Json → Except Exc Int
  | .int n => .ok n
  | _ => .error (.cursorError ⟨msg, none⟩)

/-- A string, or `CursorError`. -/
def asStr (msg : String) : Json → Except Exc String
  | .str s => .ok s
  | _ => .error (.cursorError ⟨msg, none⟩)

/-- A dictionary, or `CursorError`. -/
def asDict (msg : String) : Json → Except Exc (List (String × Json))
  | .obj fields => .ok fields
  | _ => .error (.cursorError ⟨msg, none⟩)

/-- `Cursor`: state carried between pages of `/logs`. -/
structure Cursor where
  nextFromBlock : Int
  /-- Index of the last log emitted on the boundary block. -/
  lastLogIndex : Int
  toBlock : Int
  boundaryBlockHash : String
  filter : List (String × Json)
  deriving DecidableEq

/-- The payload of a logs cursor. -/
def Cursor.payload (c : Cursor) : Json :=
  .obj [("kind", .str "logs"), ("nextFromBlock", .int c.nextFromBlock),
    ("lastLogIndex", .int c.lastLogIndex), ("toBlock", .int c.toBlock),
    ("boundaryBlockHash", .str c.boundaryBlockHash), ("filter", .obj c.filter)]

/-- `encode_cursor` -/
def encodeCursor (depth : Nat) (c : Cursor) : Except Exc String := b64urlEncode depth c.payload

/-- `decode_cursor` -/
def decodeCursor (depth : Nat) (encoded : String) : Except Exc Cursor := do
  let payload ← b64urlDecode depth encoded
  let nextFromBlock ← cursorField payload "nextFromBlock"
  let lastLogIndex ← cursorField payload "lastLogIndex"
  let toBlock ← cursorField payload "toBlock"
  let boundaryBlockHash ← cursorField payload "boundaryBlockHash"
  let filter ← cursorField payload "filter"
  let nextFromBlock ← asInt "nextFromBlock must be an int" nextFromBlock
  let lastLogIndex ← asInt "lastLogIndex must be an int" lastLogIndex
  let toBlock ← asInt "toBlock must be an int" toBlock
  let boundaryBlockHash ← asStr "boundaryBlockHash must be a string" boundaryBlockHash
  let filter ← asDict "filter must be an object" filter
  pure ⟨nextFromBlock, lastLogIndex, toBlock, boundaryBlockHash, filter⟩

/-- `TraceCursor`: resume state of `/traces`. -/
structure TraceCursor where
  after : Int
  fromBlock : Int
  toBlock : Int
  filter : List (String × Json)
  deriving DecidableEq

/-- The payload of a traces cursor. -/
def TraceCursor.payload (c : TraceCursor) : Json :=
  .obj [("kind", .str "traces"), ("after", .int c.after), ("fromBlock", .int c.fromBlock),
    ("toBlock", .int c.toBlock), ("filter", .obj c.filter)]

/-- `encode_trace_cursor` -/
def encodeTraceCursor (depth : Nat) (c : TraceCursor) : Except Exc String :=
  b64urlEncode depth c.payload

/-- `decode_trace_cursor` -/
def decodeTraceCursor (depth : Nat) (encoded : String) : Except Exc TraceCursor := do
  let payload ← b64urlDecode depth encoded
  let after ← cursorField payload "after"
  let fromBlock ← cursorField payload "fromBlock"
  let toBlock ← cursorField payload "toBlock"
  let filter ← cursorField payload "filter"
  let after ← asInt "after / fromBlock / toBlock must all be ints" after
  let fromBlock ← asInt "after / fromBlock / toBlock must all be ints" fromBlock
  let toBlock ← asInt "after / fromBlock / toBlock must all be ints" toBlock
  let filter ← asDict "filter must be an object" filter
  pure ⟨after, fromBlock, toBlock, filter⟩

end ExecRestApi
