/-
What becomes of a cursor the client made up.

The text of a cursor goes through base64, UTF-8 and `json.loads`, and the fields are checked
for their types.  What is missed on the way are a payload that `json.loads` gives up on for
another reason than its syntax, and numbers below zero.  Everything else ends in a 400 or in a
cursor that every later call can be built from.

A cursor is safe to send if it is answered with a 400 or leads to calls whose block numbers are
quantities, on each of the routes that take one.  `CursorTame` is the condition on the text: it
is read off the payload alone, before any handler has seen it.
-/
import ExecRestApi.Proofs.Chunking
import ExecRestApi.Proofs.TracesRun

namespace ExecRestApi

open Py Interaction
open Prog (Runs Asks asks_pure asks_throw asks_ofExcept asks_ask asks_bind asks_lift_bind)

/-! ### Decoding

`Finds` says of a reader which payloads it accepts and with what, and it is composed the way
the decoder is: field by field.  A payload that is accepted is accepted for one cursor only.
-/

/-- The text inside a cursor. -/
def payloadText (encoded : String) : Option (List Char) :=
  if encoded = "" then none
  else (urlsafeB64decode (encoded.toList ++ padding encoded.toList)).bind utf8Decode

/-- The decoder found nothing it can go on with, and says so. -/
def Malformed {α : Type} (x : Except Exc α) : Prop := ∃ msg, x = .error (.cursorError msg)

/-- What `_b64url_decode` makes of the text. -/
theorem b64urlDecode_eq (d : Nat) (encoded : String) :
    match payloadText encoded with
    | none => Malformed (b64urlDecode d encoded)
    | some text =>
        match Json.loads d text with
        | .error .decode => Malformed (b64urlDecode d encoded)
        | .error .digits => b64urlDecode d encoded = .error .valueError
        | .error .recursion => b64urlDecode d encoded = .error .recursionError
        | .ok (.obj fields) => b64urlDecode d encoded = .ok fields
        | .ok _ => Malformed (b64urlDecode d encoded) := by
  unfold b64urlDecode payloadText
  by_cases hempty : encoded = ""
  · rw [if_pos hempty, if_pos hempty]
    exact ⟨_, rfl⟩
  · rw [if_neg hempty, if_neg hempty]
    cases urlsafeB64decode (encoded.toList ++ padding encoded.toList) with
    | none => exact ⟨_, rfl⟩
    | some raw =>
        rw [Option.bind_some]
        dsimp only
        cases utf8Decode raw with
        | none => exact ⟨_, rfl⟩
        | some text =>
            dsimp only
            cases Json.loads d text with
            | error e =>
                cases e with
                | decode => exact ⟨_, rfl⟩
                | digits => rfl
                | recursion => rfl
            | ok v =>
                cases v with
                | obj fields => rfl
                | _ => exact ⟨_, rfl⟩

/-- A decoder finds a value that `P` holds of, or says that there is none. -/
def Finds {α : Type} (x : Except Exc α) (P : α → Prop) : Prop :=
  (Malformed x ∧ ∀ a, ¬ P a) ∨ ∃ a, x = .ok a ∧ P a

theorem finds_bind {α β : Type} {x : Except Exc α} {f : α → Except Exc β} {P : α → Prop}
    {Q : β → Prop} (hx : Finds x P) (hQ : ∀ b, Q b → ∃ a, P a)
    (hf : ∀ a, P a → Finds (f a) Q) : Finds (x >>= f) Q := by
  rcases hx with ⟨⟨msg, rfl⟩, hnone⟩ | ⟨a, rfl, ha⟩
  · refine .inl ⟨⟨msg, rfl⟩, ?_⟩
    intro b hb
    obtain ⟨a, ha⟩ := hQ b hb
    exact hnone a ha
  · exact hf a ha

theorem finds_cursorField (fields : List (String × Json)) (key : String) :
    Finds (cursorField fields key) fun v => Json.field? fields key = some v := by
  unfold cursorField
  cases h : Json.field? fields key with
  | none => exact .inl ⟨⟨_, rfl⟩, nofun⟩
  | some v => exact .inr ⟨v, rfl, rfl⟩

theorem finds_asInt (msg : String) (v : Json) : Finds (asInt msg v) fun n => v = .int n := by
  cases v with
  | int n => exact .inr ⟨n, rfl, rfl⟩
  | _ => exact .inl ⟨⟨_, rfl⟩, nofun⟩

theorem finds_asStr (msg : String) (v : Json) : Finds (asStr msg v) fun s => v = .str s := by
  cases v with
  | str s => exact .inr ⟨s, rfl, rfl⟩
  | _ => exact .inl ⟨⟨_, rfl⟩, nofun⟩

theorem finds_asDict (msg : String) (v : Json) :
    Finds (asDict msg v) fun fields => v = .obj fields := by
  cases v with
  | obj fields => exact .inr ⟨fields, rfl, rfl⟩
  | _ => exact .inl ⟨⟨_, rfl⟩, nofun⟩

/-- The payload of a logs cursor has its five fields, of their types. -/
structure LogsPayload (fields : List (String × Json)) (c : Cursor) : Prop where
  nextFromBlock : Json.field? fields "nextFromBlock" = some (.int c.nextFromBlock)
  lastLogIndex : Json.field? fields "lastLogIndex" = some (.int c.lastLogIndex)
  toBlock : Json.field? fields "toBlock" = some (.int c.toBlock)
  boundaryBlockHash : Json.field? fields "boundaryBlockHash" = some (.str c.boundaryBlockHash)
  filter : Json.field? fields "filter" = some (.obj c.filter)

/-- The payload of a traces cursor has its four fields, of their types. -/
structure TracesPayload (fields : List (String × Json)) (c : TraceCursor) : Prop where
  after : Json.field? fields "after" = some (.int c.after)
  fromBlock : Json.field? fields "fromBlock" = some (.int c.fromBlock)
  toBlock : Json.field? fields "toBlock" = some (.int c.toBlock)
  filter : Json.field? fields "filter" = some (.obj c.filter)

theorem LogsPayload.unique {fields : List (String × Json)} {c c' : Cursor}
    (h : LogsPayload fields c) (h' : LogsPayload fields c') : c = c' := by
  obtain ⟨a, b, e, f, g⟩ := c
  obtain ⟨a', b', e', f', g'⟩ := c'
  obtain ⟨h₁, h₂, h₃, h₄, h₅⟩ := h
  obtain ⟨h₁', h₂', h₃', h₄', h₅'⟩ := h'
  simp only at h₁ h₂ h₃ h₄ h₅ h₁' h₂' h₃' h₄' h₅'
  simp_all

theorem TracesPayload.unique {fields : List (String × Json)} {c c' : TraceCursor}
    (h : TracesPayload fields c) (h' : TracesPayload fields c') : c = c' := by
  obtain ⟨a, b, e, f⟩ := c
  obtain ⟨a', b', e', f'⟩ := c'
  obtain ⟨h₁, h₂, h₃, h₄⟩ := h
  obtain ⟨h₁', h₂', h₃', h₄'⟩ := h'
  simp only at h₁ h₂ h₃ h₄ h₁' h₂' h₃' h₄'
  simp_all

/-- What `decode_cursor` makes of the fields. -/
theorem finds_decodeCursor {d : Nat} {encoded : String} {fields : List (String × Json)}
    (h : b64urlDecode d encoded = .ok fields) :
    Finds (decodeCursor d encoded) (LogsPayload fields) := by
  unfold decodeCursor
  rw [h]
  refine finds_bind (P := fun found => found = fields) (.inr ⟨fields, rfl, rfl⟩)
    (fun _ _ => ⟨fields, rfl⟩) ?_
  rintro fields rfl
  refine finds_bind (finds_cursorField fields _) (fun c hc => ⟨_, hc.nextFromBlock⟩) ?_
  intro nextFromBlock h₁
  refine finds_bind (finds_cursorField fields _) (fun c hc => ⟨_, hc.lastLogIndex⟩) ?_
  intro lastLogIndex h₂
  refine finds_bind (finds_cursorField fields _) (fun c hc => ⟨_, hc.toBlock⟩) ?_
  intro toBlock h₃
  refine finds_bind (finds_cursorField fields _) (fun c hc => ⟨_, hc.boundaryBlockHash⟩) ?_
  intro boundaryBlockHash h₄
  refine finds_bind (finds_cursorField fields _) (fun c hc => ⟨_, hc.filter⟩) ?_
  intro filter h₅
  refine finds_bind (finds_asInt _ _) (fun c hc => ⟨_, Option.some.inj (h₁.symm.trans hc.1)⟩) ?_
  rintro a rfl
  refine finds_bind (finds_asInt _ _) (fun c hc => ⟨_, Option.some.inj (h₂.symm.trans hc.2)⟩) ?_
  rintro b rfl
  refine finds_bind (finds_asInt _ _) (fun c hc => ⟨_, Option.some.inj (h₃.symm.trans hc.3)⟩) ?_
  rintro e rfl
  refine finds_bind (finds_asStr _ _) (fun c hc => ⟨_, Option.some.inj (h₄.symm.trans hc.4)⟩) ?_
  rintro f rfl
  refine finds_bind (finds_asDict _ _) (fun c hc => ⟨_, Option.some.inj (h₅.symm.trans hc.5)⟩) ?_
  rintro g rfl
  exact .inr ⟨_, rfl, h₁, h₂, h₃, h₄, h₅⟩

/-- What `decode_trace_cursor` makes of the fields. -/
theorem finds_decodeTraceCursor {d : Nat} {encoded : String} {fields : List (String × Json)}
    (h : b64urlDecode d encoded = .ok fields) :
    Finds (decodeTraceCursor d encoded) (TracesPayload fields) := by
  unfold decodeTraceCursor
  rw [h]
  refine finds_bind (P := fun found => found = fields) (.inr ⟨fields, rfl, rfl⟩)
    (fun _ _ => ⟨fields, rfl⟩) ?_
  rintro fields rfl
  refine finds_bind (finds_cursorField fields _) (fun c hc => ⟨_, hc.after⟩) ?_
  intro after h₁
  refine finds_bind (finds_cursorField fields _) (fun c hc => ⟨_, hc.fromBlock⟩) ?_
  intro fromBlock h₂
  refine finds_bind (finds_cursorField fields _) (fun c hc => ⟨_, hc.toBlock⟩) ?_
  intro toBlock h₃
  refine finds_bind (finds_cursorField fields _) (fun c hc => ⟨_, hc.filter⟩) ?_
  intro filter h₄
  refine finds_bind (finds_asInt _ _) (fun c hc => ⟨_, Option.some.inj (h₁.symm.trans hc.1)⟩) ?_
  rintro a rfl
  refine finds_bind (finds_asInt _ _) (fun c hc => ⟨_, Option.some.inj (h₂.symm.trans hc.2)⟩) ?_
  rintro b rfl
  refine finds_bind (finds_asInt _ _) (fun c hc => ⟨_, Option.some.inj (h₃.symm.trans hc.3)⟩) ?_
  rintro e rfl
  refine finds_bind (finds_asDict _ _) (fun c hc => ⟨_, Option.some.inj (h₄.symm.trans hc.4)⟩) ?_
  rintro f rfl
  exact .inr ⟨_, rfl, h₁, h₂, h₃, h₄⟩

/-! ### What is missed

`json.loads` raises more than `JSONDecodeError`: a number of too many digits is a plain
`ValueError`, and a payload nested too deeply is a `RecursionError`.  Neither is what the
`except` clause names.
-/

/-- The payload of a cursor, if there is one, has no integer that is too long for `int` and is not
nested too deeply, and if it has the fields of a cursor then `good` holds of them. -/
structure CursorTame {γ : Type} (Payload : List (String × Json) → γ → Prop) (good : γ → Prop)
    (d : Nat) (encoded : String) : Prop where
  short : ∀ text, payloadText encoded = some text → Json.loads d text ≠ .error .digits
  shallow : ∀ text, payloadText encoded = some text → Json.loads d text ≠ .error .recursion
  good : ∀ text fields c, payloadText encoded = some text →
    Json.loads d text = .ok (.obj fields) → Payload fields c → good c

/-- The decoder raises `CursorError` or gives a cursor that `good` holds of. -/
def DecodesSafely {γ : Type} (x : Except Exc γ) (good : γ → Prop) : Prop :=
  Malformed x ∨ ∃ c, x = .ok c ∧ good c

theorem decodesSafely_iff {γ : Type} {Payload : List (String × Json) → γ → Prop}
    (good : γ → Prop) {d : Nat} {encoded : String} {x : Except Exc γ}
    (herror : ∀ e, b64urlDecode d encoded = .error e → x = .error e)
    (hfinds : ∀ fields, b64urlDecode d encoded = .ok fields → Finds x (Payload fields))
    (hunique : ∀ fields c c', Payload fields c → Payload fields c' → c = c') :
    DecodesSafely x good ↔ CursorTame Payload good d encoded := by
  have hraised : ∀ e, x = .error e → (∀ msg, e ≠ .cursorError msg) → ¬ DecodesSafely x good := by
    intro e he hmsg hsafe
    rcases hsafe with ⟨msg, hbad⟩ | ⟨c, hok, -⟩
    · rw [he] at hbad
      cases hbad
      exact hmsg msg rfl
    · rw [he] at hok
      cases hok
  have hmalformed : Malformed (b64urlDecode d encoded) → DecodesSafely x good :=
    fun ⟨msg, h⟩ => .inl ⟨msg, herror _ h⟩
  have hdec := b64urlDecode_eq d encoded
  cases htext : payloadText encoded with
  | none =>
      rw [htext] at hdec
      refine iff_of_true (hmalformed hdec) ⟨?_, ?_, ?_⟩
      · intro text h
        rw [htext] at h
        cases h
      · intro text h
        rw [htext] at h
        cases h
      · intro text fields c h
        rw [htext] at h
        cases h
  | some text =>
      rw [htext] at hdec
      dsimp only at hdec
      have hsame : ∀ {text'}, payloadText encoded = some text' → text' = text := by
        intro text' h
        rw [htext] at h
        exact (Option.some.inj h).symm
      -- what is not an object with the fields of a cursor leaves nothing to be checked
      have htame : (∀ e, Json.loads d text = .error e → e = .decode) →
          (∀ fields c, Json.loads d text = .ok (.obj fields) → Payload fields c → good c) →
          CursorTame Payload good d encoded := by
        intro hdecode hgood
        refine ⟨?_, ?_, ?_⟩
        · intro text' h hloads
          rw [hsame h] at hloads
          cases hdecode _ hloads
        · intro text' h hloads
          rw [hsame h] at hloads
          cases hdecode _ hloads
        · intro text' fields c h hloads
          rw [hsame h] at hloads
          exact hgood fields c hloads
      cases hloads : Json.loads d text with
      | error e =>
          rw [hloads] at hdec htame
          cases e with
          | decode =>
              refine iff_of_true (hmalformed hdec) (htame ?_ nofun)
              intro e he
              cases he
              rfl
          | digits =>
              exact iff_of_false (hraised _ (herror _ hdec) nofun)
                fun h => h.short text htext hloads
          | recursion =>
              exact iff_of_false (hraised _ (herror _ hdec) nofun)
                fun h => h.shallow text htext hloads
      | ok v =>
          rw [hloads] at hdec htame
          cases v with
          | obj fields =>
              rcases hfinds fields hdec with ⟨hbad, hnone⟩ | ⟨c, hc, hpayload⟩
              · refine iff_of_true (.inl hbad) (htame nofun ?_)
                intro fields' c h hpayload
                cases h
                exact absurd hpayload (hnone c)
              · constructor
                · intro hsafe
                  refine htame nofun ?_
                  intro fields' c' h hpayload'
                  cases h
                  rcases hsafe with ⟨msg, hbad⟩ | ⟨c'', hc'', hgood⟩
                  · rw [hc] at hbad
                    cases hbad
                  · rw [hc] at hc''
                    cases hc''
                    rw [hunique fields c' c hpayload' hpayload]
                    exact hgood
                · intro h
                  exact .inr ⟨c, hc, h.good text fields c htext hloads hpayload⟩
          | _ => exact iff_of_true (hmalformed hdec) (htame nofun nofun)

/-! ### What is asked afterwards

Every call that follows is built from the numbers of the cursor by `hex`, which writes a sign.
A number below zero is then no quantity, and that is all that can be wrong with a call.
-/

/-- `0x` and hexadecimal digits. -/
def IsQuantity (v : Json) : Prop :=
  ∃ cs, cs ≠ [] ∧ (∀ c ∈ cs, isHex c = true) ∧ v = .str (String.ofList ('0' :: 'x' :: cs))

/-- Every block a call names is named by a quantity. -/
structure BlocksValid (c : RpcCall) : Prop where
  block : c.method = "eth_getBlockByNumber" → ∃ v rest, c.params = v :: rest ∧ IsQuantity v
  range : c.method = "eth_getLogs" ∨ c.method = "trace_filter" →
    ∃ fields a b, c.params = [.obj fields] ∧ Json.field? fields "fromBlock" = some a ∧
      Json.field? fields "toBlock" = some b ∧ IsQuantity a ∧ IsQuantity b

theorem isQuantity_toHex (n : Nat) : IsQuantity (.str (toHex n)) := by
  refine ⟨Nat.toDigits 16 n, Nat.toDigits_ne_nil, fun c hc => isHex_of_mem_toDigits hc, ?_⟩
  rw [← toList_toHex, String.ofList_toList]

theorem isQuantity_formatHex {n : Int} (h : 0 ≤ n) : IsQuantity (.str (formatHex n)) := by
  obtain ⟨m, rfl⟩ := Int.eq_ofNat_of_zero_le h
  rw [formatHex_natCast]
  exact isQuantity_toHex m

/-- A call of `call`. -/
theorem asks_call {P : RpcCall → Prop} {method : String} {params : List Json}
    (h : P ⟨method, params⟩) : Asks P (call method params) :=
  asks_ask h fun r => asks_ofExcept r

theorem blocksValid_block {n : Int} (h : 0 ≤ n) :
    BlocksValid ⟨"eth_getBlockByNumber", [.str (formatHex n), .bool false]⟩ := by
  refine ⟨fun _ => ⟨_, _, rfl, isQuantity_formatHex h⟩, ?_⟩
  intro hmethod
  rcases hmethod with hmethod | hmethod <;> simp at hmethod

theorem blocksValid_chunkCall (f : Fetch) (m n : Nat) : BlocksValid (chunkCall f m n) := by
  refine ⟨fun hmethod => by simp [chunkCall] at hmethod, fun _ => ?_⟩
  exact ⟨_, _, _, rfl, field?_withoutRange.1, field?_withoutRange.2, isQuantity_toHex m,
    isQuantity_toHex n⟩

/-- Every call of the loop is for a chunk. -/
theorem Looped.calls {f : Fetch} {cur skipBlock : Int} {chunk : ChunkSize} {items : List Json}
    {tr : Trace} {out : Except Exc PaginationResult}
    (h : Looped f cur chunk skipBlock items tr out) :
    ∀ x ∈ tr, ∃ m n, x.1 = chunkCall f m n := by
  have hcall : ∀ {cur last : Int} {params : Json}, getLogsParams f.filter cur last = .ok params →
      ∃ m n, (⟨"eth_getLogs", [params]⟩ : RpcCall) = chunkCall f m n :=
    fun hparams => ⟨_, _, (call_of_params hparams).2.2⟩
  induction h with
  | stop => nofun
  | unasked => nofun
  | rejected _ hparams _ _ ih => exact List.forall_mem_cons.mpr ⟨hcall hparams, ih⟩
  | refused _ hparams => exact List.forall_mem_cons.mpr ⟨hcall hparams, nofun⟩
  | unread _ hparams => exact List.forall_mem_cons.mpr ⟨hcall hparams, nofun⟩
  | cut _ hparams => exact List.forall_mem_cons.mpr ⟨hcall hparams, nofun⟩
  | page _ hparams _ _ ih => exact List.forall_mem_cons.mpr ⟨hcall hparams, ih⟩

section

variable {P : RpcCall → Prop}

theorem asks_fetchLogsPaginated {filter : List (String × Json)}
    {fromBlock toBlock limit skipUntil : Int}
    (hchunk : ∀ m n, P (chunkCall ⟨filter, toBlock, limit, skipUntil⟩ m n)) :
    Asks P (fetchLogsPaginated filter fromBlock toBlock limit skipUntil) := by
  intro tr out h x hx
  obtain ⟨m, n, hcall⟩ := (looped_of_runs h).calls x hx
  rw [hcall]
  exact hchunk m n

theorem asks_linkHeader {app : App} {route : String} {scan : Scan} {result : PaginationResult}
    (hblock : ∀ n : Nat, P ⟨"eth_getBlockByNumber", [.str (formatHex n), .bool false]⟩) :
    Asks P (linkHeader app route scan result) := by
  unfold linkHeader
  split
  · exact asks_pure _
  · rename_i b _
    refine asks_bind (asks_call (hblock b)) fun rpc => ?_
    split_ifs
    · exact asks_pure _
    · refine asks_lift_bind _ fun hash => asks_lift_bind _ fun hash => ?_
      exact asks_lift_bind _ fun cursor => asks_pure _

/-- A page of logs asks for its chunks and for the block its link names. -/
theorem asks_answerPage {app : App} {route : String} {limit : Int} {scan : Scan}
    (hblock : ∀ n : Nat, P ⟨"eth_getBlockByNumber", [.str (formatHex n), .bool false]⟩)
    (hchunk : ∀ m n, P (chunkCall ⟨scan.filter, scan.toBlock, limit, scan.skipUntil⟩ m n)) :
    Asks P (answerPage app route limit scan) := by
  unfold answerPage
  refine asks_bind (asks_fetchLogsPaginated hchunk) fun result => ?_
  refine asks_lift_bind _ fun items => asks_lift_bind _ fun size => ?_
  exact asks_bind (asks_linkHeader hblock) fun link => asks_ofExcept _

end

theorem asks_verifyCursorBoundary {c : Cursor} (h : 0 ≤ c.nextFromBlock) (path : String) :
    Asks BlocksValid (verifyCursorBoundary c path) := by
  unfold verifyCursorBoundary
  refine asks_bind (asks_call (blocksValid_block h)) fun rpc => ?_
  split_ifs
  · exact asks_lift_bind _ fun n => asks_pure _
  · refine asks_lift_bind _ fun hash => asks_lift_bind _ fun hash => ?_
    split_ifs
    · exact asks_lift_bind _ fun n => asks_pure _
    · exact asks_pure _

/-- A page of traces over a range that is not below zero. -/
theorem asks_answerTraces {scan : TraceScan} (hfrom : 0 ≤ scan.fromBlock) (hto : 0 ≤ scan.toBlock)
    (app : App) (route : String) (limit : Int) : Asks BlocksValid (answerTraces app route limit scan) := by
  unfold answerTraces
  refine asks_bind (asks_call ⟨fun hmethod => by simp at hmethod, fun _ => ?_⟩) fun rpc => ?_
  · refine ⟨_, _, _, rfl, ?_, ?_, isQuantity_formatHex hfrom, isQuantity_formatHex hto⟩
    · simp [rpcTraceFilter, Json.field?, Dict.lookupIn_setIn]
    · simp [rpcTraceFilter, Json.field?, Dict.lookupIn_setIn]
  · refine asks_lift_bind _ fun traces => asks_lift_bind _ fun items => ?_
    refine asks_lift_bind _ fun size => asks_lift_bind _ fun link => ?_
    exact asks_ofExcept _

/-! ### The four routes

Two handlers of each of the two pages take a cursor, from the query or from the body.  What
they do before they decode it does not depend on it.
-/

/-- How a request that carries `encoded` ends, and what it asks. -/
structure AnswersSafely (malformed : Prop) (tr : Trace) (out : Except Exc Response) : Prop where
  refused : malformed → tr = [] ∧ ∃ resp, out = .ok resp ∧ resp.status = 400
  asked : ∀ x ∈ tr, BlocksValid x.1

/-- A cursor for logs, with either route. -/
structure LogsCursorSafe (d : Nat) (encoded : String) : Prop where
  decodes : DecodesSafely (decodeCursor d encoded) fun c => 0 ≤ c.nextFromBlock ∧ 0 ≤ c.toBlock
  answers : ∀ (route : LogsRoute) (app : App) (req : Request) (tr : Trace)
    (out : Except Exc Response), app.recursionLimit = d → req.queryGet "cursor" = some encoded →
      Runs (route.handler app req) tr out →
        AnswersSafely (Malformed (decodeCursor d encoded)) tr out

/-- A cursor for traces, with either route. -/
structure TracesCursorSafe (d : Nat) (encoded : String) : Prop where
  decodes : DecodesSafely (decodeTraceCursor d encoded) fun c =>
    0 ≤ c.after ∧ 0 ≤ c.fromBlock ∧ 0 ≤ c.toBlock
  answers : ∀ (route : TracesRoute) (app : App) (req : Request) (tr : Trace)
    (out : Except Exc Response), app.recursionLimit = d → req.queryGet "cursor" = some encoded →
      Runs (route.handler app req) tr out →
        AnswersSafely (Malformed (decodeTraceCursor d encoded)) tr out

theorem answersSafely_pure {malformed : Prop} {tr : Trace} {out : Except Exc Response}
    {resp : Response} (hstatus : resp.status = 400)
    (h : Runs (pure resp : Handler Response) tr out) : AnswersSafely malformed tr out := by
  obtain ⟨rfl, rfl⟩ := h
  exact ⟨fun _ => ⟨rfl, resp, rfl, hstatus⟩, nofun⟩

theorem answersSafely_of_asks {malformed : Prop} {p : Handler Response} {tr : Trace}
    {out : Except Exc Response} (hnot : ¬ malformed) (hp : Asks BlocksValid p)
    (h : Runs p tr out) : AnswersSafely malformed tr out :=
  ⟨fun hbad => absurd hbad hnot, hp tr out h⟩

/-- Either log handler, once its cursor decodes safely. -/
theorem logsPage_safe {route : String} {firstScan : Request → Handler (Response ⊕ Scan)}
    {app : App} {req : Request} {encoded : String} {tr : Trace} {out : Except Exc Response}
    (hcursor : req.queryGet "cursor" = some encoded)
    (hsafe : DecodesSafely (decodeCursor app.recursionLimit encoded) fun c =>
      0 ≤ c.nextFromBlock ∧ 0 ≤ c.toBlock)
    (h : Runs (logsPage route firstScan app req) tr out) :
    AnswersSafely (Malformed (decodeCursor app.recursionLimit encoded)) tr out := by
  unfold logsPage at h
  split at h
  · rename_i resp hlimit
    exact answersSafely_pure (status_of_requestedLimit hlimit) h
  · unfold openScan at h
    rw [hcursor] at h
    dsimp only at h
    unfold cursorScan at h
    rcases hsafe with ⟨msg, hbad⟩ | ⟨c, hc, hfrom, -⟩
    · rw [hbad] at h
      exact answersSafely_pure rfl h
    · rw [hc] at h ⊢
      refine answersSafely_of_asks nofun (asks_bind ?_ fun found => ?_) h
      · refine asks_bind (asks_verifyCursorBoundary hfrom req.path) fun found => ?_
        rcases found with resp | _
        · exact asks_pure _
        · exact asks_pure _
      · rcases found with resp | scan
        · exact asks_pure _
        · exact asks_answerPage (fun n => blocksValid_block (Int.natCast_nonneg n))
            (blocksValid_chunkCall _)

/-- Either trace handler, once its cursor decodes safely. -/
theorem tracesPage_safe {route : String} {firstScan : Request → Handler (Response ⊕ TraceScan)}
    {app : App} {req : Request} {encoded : String} {tr : Trace} {out : Except Exc Response}
    (hcursor : req.queryGet "cursor" = some encoded)
    (hsafe : DecodesSafely (decodeTraceCursor app.recursionLimit encoded) fun c =>
      0 ≤ c.after ∧ 0 ≤ c.fromBlock ∧ 0 ≤ c.toBlock)
    (h : Runs (tracesPage route firstScan app req) tr out) :
    AnswersSafely (Malformed (decodeTraceCursor app.recursionLimit encoded)) tr out := by
  unfold tracesPage at h
  split at h
  · rename_i resp hlimit
    exact answersSafely_pure (status_of_requestedLimit hlimit) h
  · unfold openTraceScan at h
    rw [hcursor] at h
    dsimp only at h
    unfold cursorTraceScan at h
    rcases hsafe with ⟨msg, hbad⟩ | ⟨c, hc, -, hfrom, hto⟩
    · rw [hbad] at h
      exact answersSafely_pure rfl h
    · rw [hc] at h ⊢
      exact answersSafely_of_asks nofun (asks_answerTraces hfrom hto _ _ _) h

/-- **When a cursor fails safely.**  It is refused with a 400 or leads to calls for valid blocks
only, exactly if its payload has no integer that is too long, is not nested too deeply, and names
no block and no offset below zero. -/
theorem cursor_fails_safely_iff (d : Nat) (encoded : String) :
    (LogsCursorSafe d encoded ↔
      CursorTame LogsPayload (fun c => 0 ≤ c.nextFromBlock ∧ 0 ≤ c.toBlock) d encoded) ∧
    (TracesCursorSafe d encoded ↔
      CursorTame TracesPayload (fun c => 0 ≤ c.after ∧ 0 ≤ c.fromBlock ∧ 0 ≤ c.toBlock) d
        encoded) := by
  have herror : ∀ e, b64urlDecode d encoded = .error e → decodeCursor d encoded = .error e := by
    intro e h
    unfold decodeCursor
    rw [h]
    rfl
  have herror' : ∀ e, b64urlDecode d encoded = .error e →
      decodeTraceCursor d encoded = .error e := by
    intro e h
    unfold decodeTraceCursor
    rw [h]
    rfl
  have hlogs := decodesSafely_iff (fun c : Cursor => 0 ≤ c.nextFromBlock ∧ 0 ≤ c.toBlock) herror
    (fun _ => finds_decodeCursor) (fun _ _ _ => LogsPayload.unique)
  have htraces := decodesSafely_iff
    (fun c : TraceCursor => 0 ≤ c.after ∧ 0 ≤ c.fromBlock ∧ 0 ≤ c.toBlock) herror'
    (fun _ => finds_decodeTraceCursor) (fun _ _ _ => TracesPayload.unique)
  refine ⟨⟨fun h => hlogs.mp h.decodes, fun h => ⟨hlogs.mpr h, ?_⟩⟩,
    ⟨fun h => htraces.mp h.decodes, fun h => ⟨htraces.mpr h, ?_⟩⟩⟩
  · intro route app req tr out hd hcursor hruns
    subst hd
    cases route with
    | list => exact logsPage_safe hcursor (hlogs.mpr h) hruns
    | search => exact logsPage_safe hcursor (hlogs.mpr h) hruns
  · intro route app req tr out hd hcursor hruns
    subst hd
    cases route with
    | list => exact tracesPage_safe hcursor (htraces.mpr h) hruns
    | search => exact tracesPage_safe hcursor (htraces.mpr h) hruns

/-- A cursor that resumes one block below zero. -/
def belowZero : Cursor := ⟨-1, 0, 0, "0xaa", []⟩

def belowZeroText : String :=
  String.ofList (rstripPad (urlsafeB64encode (utf8Encode belowZero.payload.print)))

/-- The upstream is asked for the block `0x-1`, which it does not have. -/
def belowZeroTrace : Trace :=
  [(⟨"eth_getBlockByNumber", [.str "0x-1", .bool false]⟩, .ok .null)]

/-- **A block below zero.**  The cursor decodes, and what the handler does first is to ask for a
block that is no quantity. -/
theorem block_below_zero :
    decodeCursor 9 belowZeroText = .ok belowZero ∧
      Runs (verifyCursorBoundary belowZero "/logs") belowZeroTrace (.ok (.inl
        (chainReorged "/logs" ⟨"block -1 no longer exists; restart the query", none⟩))) ∧
      ¬ LogsCursorSafe 9 belowZeroText := by
  have hdecode : decodeCursor 9 belowZeroText = .ok belowZero := by decide +kernel
  refine ⟨hdecode, Prog.runs_of_feed (belowZeroTrace.map Prod.snd) (by decide +kernel), ?_⟩
  intro hsafe
  rcases hsafe.decodes with ⟨msg, hbad⟩ | ⟨c, hc, hfrom, -⟩
  · rw [hdecode] at hbad
    cases hbad
  · rw [hdecode] at hc
    cases hc
    exact absurd hfrom (by decide)

end ExecRestApi
