/-
Exceptions and error responses (`errors.py`, and the exception classes of the other
modules).

Every exception the modelled code raises or lets through is one constructor, so an
`except` clause is a pattern.  A message that ends in `{value!r}` keeps the value
rather than its `repr`.
-/
import ExecRestApi.Lib.Json
import ExecRestApi.Lib.Text

namespace ExecRestApi

open Py

/-- A message: its text, and the value printed after it. -/
structure Msg where
  text : String
  got : Option Json := none
  deriving DecidableEq

/-- `type(v).__name__` -/
def typeName : Json → String
  | .null => "NoneType"
  | .bool _ => "bool"
  | .int _ => "int"
  | .float _ => "float"
  | .str _ => "str"
  | .arr _ => "list"
  | .obj _ => "dict"

/-- `UpstreamJsonRpcError`: the error object of a JSON-RPC reply. -/
structure JsonRpcError where
  code : Int
  message : String
  data : Json := .null
  deriving DecidableEq

/-- What can be raised. -/
inductive Exc where
  /-- `EncodingError`, a `ValueError` -/
  | encodingError (msg : Msg)
  /-- `BlockIdError`, a `ValueError` -/
  | blockIdError (msg : Msg)
  /-- `CursorError`, a `ValueError` -/
  | cursorError (msg : Msg)
  /-- `ConfigError`, a `ValueError` -/
  | configError (msg : Msg)
  /-- a `ValueError` raised with a message of its own -/
  | badValue (msg : Msg)
  /-- a `ValueError` of the standard library, or one of its subclasses there -/
  | valueError
  | typeError
  | attributeError
  | keyError (key : String)
  | recursionError
  /-- `UpstreamError` -/
  | upstreamError (msg : String)
  /-- `UpstreamJsonRpcError` -/
  | jsonRpcError (e : JsonRpcError)
  /-- `asyncio.TimeoutError` -/
  | timeoutError
  /-- `UpstreamWsClosed` -/
  | upstreamWsClosed (msg : String)
  /-- `UpstreamWsJsonRpcError`, with the values `int` and `str` were applied to -/
  | upstreamWsJsonRpcError (code message data : Json)
  /-- `SubscriptionUnavailable` -/
  | subscriptionUnavailable (msg : String)
  /-- `ConnectionResetError` -/
  | connectionResetError
  /-- anything else -/
  | other
  deriving DecidableEq

/-- What `except ValueError` catches. -/
def Exc.isValueError : Exc → Bool
  | encodingError _ => true
  | blockIdError _ => true
  | cursorError _ => true
  | configError _ => true
  | badValue _ => true
  | valueError => true
  | _ => false

/-- `str(e)`, for the exceptions handlers answer with it.  The texts of the standard library are
left out. -/
def Exc.str : Exc → Msg
  | encodingError msg => msg
  | blockIdError msg => msg
  | cursorError msg => msg
  | configError msg => msg
  | badValue msg => msg
  | keyError key => ⟨"'" ++ key ++ "'", none⟩
  | _ => ⟨"", none⟩

/-- A sequence that succeeds is two parts that succeed. -/
theorem bind_eq_ok {ε α β : Type} {x : Except ε α} {f : α → Except ε β} {b : β} :
    (x >>= f) = .ok b ↔ ∃ a, x = .ok a ∧ f a = .ok b := by
  cases x with
  | error e =>
      constructor
      · intro h
        cases h
      · rintro ⟨a, h, -⟩
        cases h
  | ok a =>
      constructor
      · exact fun h => ⟨a, rfl, h⟩
      · rintro ⟨a', h, hf⟩
        cases h
        exact hf

theorem mapM_nil_eq_ok {ε α β : Type} {f : α → Except ε β} {ys : List β} :
    [].mapM f = .ok ys ↔ ys = [] := by
  rw [List.mapM_nil]
  constructor
  · intro h
    cases h
    rfl
  · rintro rfl
    rfl

theorem mapM_cons_eq_ok {ε α β : Type} {f : α → Except ε β} {x : α} {xs : List α} {ys : List β} :
    (x :: xs).mapM f = .ok ys ↔ ∃ z zs, f x = .ok z ∧ xs.mapM f = .ok zs ∧ ys = z :: zs := by
  rw [List.mapM_cons]
  simp only [bind_eq_ok]
  constructor
  · rintro ⟨z, hz, zs, hzs, h⟩
    cases h
    exact ⟨z, zs, hz, hzs, rfl⟩
  · rintro ⟨z, zs, hz, hzs, rfl⟩
    exact ⟨z, hz, zs, hzs, rfl⟩

theorem mapM_append_eq_ok {ε α β : Type} {f : α → Except ε β} {ys ys' : List β} :
    ∀ {xs xs' : List α}, xs.mapM f = .ok ys → xs'.mapM f = .ok ys' →
      (xs ++ xs').mapM f = .ok (ys ++ ys') := by
  intro xs
  induction xs generalizing ys with
  | nil =>
      intro xs' h h'
      rw [mapM_nil_eq_ok.mp h]
      exact h'
  | cons x xs ih =>
      intro xs' h h'
      obtain ⟨z, zs, hz, hzs, rfl⟩ := mapM_cons_eq_ok.mp h
      exact mapM_cons_eq_ok.mpr ⟨z, zs ++ ys', hz, ih hzs h', rfl⟩

/-- A list that is converted entry by entry. -/
theorem forall₂_of_mapM {ε α β : Type} {f : α → Except ε β} {R : α → β → Prop}
    (hf : ∀ a b, f a = .ok b → R a b) : ∀ {xs : List α} {ys : List β},
      xs.mapM f = .ok ys → List.Forall₂ R xs ys := by
  intro xs
  induction xs with
  | nil =>
      intro ys h
      rw [mapM_nil_eq_ok.mp h]
      exact .nil
  | cons x xs ih =>
      intro ys h
      obtain ⟨z, zs, hz, hzs, rfl⟩ := mapM_cons_eq_ok.mp h
      exact .cons (hf x z hz) (ih hzs)

theorem exists_bind_eq_ok {ε α β : Type} {x : Except ε α} {f : α → Except ε β} :
    (∃ b, (x >>= f) = .ok b) ↔ ∃ a, x = .ok a ∧ ∃ b, f a = .ok b := by
  simp only [bind_eq_ok]
  exact ⟨fun ⟨b, a, ha, hb⟩ => ⟨a, ha, b, hb⟩, fun ⟨a, ha, b, hb⟩ => ⟨b, a, ha, hb⟩⟩

theorem exists_pure_eq_ok {ε β : Type} (b : β) : ∃ b', (pure b : Except ε β) = .ok b' := ⟨b, rfl⟩

theorem exists_mapM_eq_ok {ε α β : Type} {f : α → Except ε β} {xs : List α} :
    (∃ ys, xs.mapM f = .ok ys) ↔ ∀ x ∈ xs, ∃ y, f x = .ok y := by
  induction xs with
  | nil => exact ⟨by simp, fun _ => ⟨[], rfl⟩⟩
  | cons x xs ih =>
      rw [List.forall_mem_cons, ← ih]
      constructor
      · rintro ⟨ys, h⟩
        obtain ⟨z, zs, hz, hzs, -⟩ := mapM_cons_eq_ok.mp h
        exact ⟨⟨z, hz⟩, zs, hzs⟩
      · rintro ⟨⟨z, hz⟩, zs, hzs⟩
        exact ⟨z :: zs, mapM_cons_eq_ok.mpr ⟨z, zs, hz, hzs, rfl⟩⟩

/-! ### Reading untyped values -/

/-- `v[key]` with a string key. -/
def getItem (v : Json) (key : String) : Except Exc Json :=
  match v with
  | .obj fields =>
      match Json.field? fields key with
      | some x => .ok x
      | none => .error (.keyError key)
  | _ => .error .typeError

/-- `v.get(key)`, which is `None` for a missing key. -/
def dictGet (v : Json) (key : String) : Except Exc Json :=
  match v with
  | .obj fields => .ok ((Json.field? fields key).getD .null)
  | _ => .error .attributeError

/-- `for x in v` -/
def iterate (v : Json) : Except Exc (List Json) :=
  match v.iter? with
  | some items => .ok items
  | none => .error .typeError

/-- `str(n)`, which refuses numbers of too many digits. -/
def strInt (n : Int) : Except Exc String :=
  if strFits n then .ok (String.ofList (intText n)) else .error .valueError

/-! ### Responses -/

/-- `Problem`: an RFC 9457 body.  `None` as its data is `null`. -/
structure Problem where
  status : Nat
  typeSlug : String
  title : String
  detail : Option Msg := none
  inst : Option String := none
  code : Option Int := none
  data : Json := .null
  deriving DecidableEq

/-- The body of a response. -/
inductive Body where
  | json (v : Json)
  | problem (p : Problem)
  deriving DecidableEq

/-- `web.Response` -/
structure Response where
  status : Nat
  headers : List (String × String)
  body : Body
  deriving DecidableEq

/-- What `problem_response` builds. -/
def problemResponse (p : Problem) : Response := ⟨p.status, [], .problem p⟩

/-- Whether the code and the data of a problem can be printed. -/
def Problem.fits (p : Problem) : Bool := p.code.all strFits && p.data.intsFit

/-- `problem_response`, which prints its body.  Without a code and data that always succeeds. -/
def printProblem (p : Problem) : Except Exc Response :=
  if p.fits then .ok (problemResponse p) else .error .valueError

/-- `web.json_response`, which prints its body and so refuses integers of too many digits. -/
def jsonResponse (v : Json) (headers : List (String × String)) : Except Exc Response :=
  if v.intsFit then .ok ⟨200, headers, .json v⟩ else .error .valueError

/-- The value of a response header. -/
def Response.header? (r : Response) (name : String) : Option String :=
  Dict.lookupIn name r.headers

/-! ### JSON-RPC errors as problems -/

/-- `_STANDARD_CODES` -/
def standardCodes : List (Int × Nat × String × String) :=
  [(-32600, 400, "invalid-request", "Invalid request"),
   (-32601, 501, "method-not-supported-by-upstream", "Method not supported by upstream"),
   (-32602, 400, "invalid-request", "Invalid request"),
   (-32603, 502, "upstream-error", "Upstream error"),
   (-32700, 502, "upstream-error", "Upstream error"),
   (-32001, 404, "not-found", "Not found"),
   (-32002, 503, "upstream-unavailable", "Upstream unavailable"),
   (-32003, 422, "transaction-rejected", "Transaction rejected"),
   (-32004, 501, "method-not-supported-by-upstream", "Method not supported by upstream"),
   (-32005, 429, "rate-limited", "Rate limited")]

/-- `_M32000_PATTERNS` -/
def m32000Patterns : List (String × Nat × String × String) :=
  [("nonce too low", 422, "transaction-rejected/nonce-too-low", "Transaction rejected"),
   ("already known", 422, "transaction-rejected/already-known", "Transaction rejected"),
   ("replacement transaction underpriced", 422, "transaction-rejected/replacement-underpriced",
     "Transaction rejected"),
   ("transaction underpriced", 422, "transaction-rejected/underpriced", "Transaction rejected"),
   ("insufficient funds", 422, "transaction-rejected/insufficient-funds", "Transaction rejected"),
   ("intrinsic gas too low", 422, "transaction-rejected/intrinsic-gas-too-low",
     "Transaction rejected"),
   ("exceeds block gas limit", 422, "transaction-rejected/gas-limit-exceeded",
     "Transaction rejected"),
   ("query returned more than", 413, "payload-too-large", "Payload too large"),
   ("exceed maximum block range", 413, "payload-too-large", "Payload too large")]

/-- The row of the tables an error falls under: its status, slug and title. -/
def jsonrpcRow (e : JsonRpcError) : Nat × String × String :=
  match Dict.lookupIn e.code standardCodes with
  | some row => row
  | none =>
      let default := (502, "upstream-error", "Upstream error")
      if e.code = -32000 then
        ((m32000Patterns.find? fun p => contains (lower e.message) p.1).map Prod.snd).getD default
      else default

/-- `map_jsonrpc_error` -/
def mapJsonrpcError (e : JsonRpcError) : Problem :=
  let row := jsonrpcRow e
  { status := row.1, typeSlug := row.2.1, title := row.2.2, detail := some ⟨e.message, none⟩,
    code := some e.code, data := e.data }

end ExecRestApi
