/-
Raw bytes go in and come out unchanged.

A transaction reaches the upstream as the same text however the client has written it, and the text
is read back as the bytes.  What a client gets as RLP are the bytes of the text that the upstream
has for the resource.

`HexText bs v` is the relation between the two sides: `v` is a text of hexadecimal digits, in
letters of either case, for the bytes `bs`.  The proxy writes one such text (`hexText`) and reads
any.  The way in is `Carries`, what it means for a request to carry a transaction; the way out is
the one call that gets bytes.
-/
import ExecRestApi.Model.RawResources

namespace ExecRestApi

open Py Interaction

/-! ### Bytes as text

Two digits are a byte.  Reading such a text skips white space, of which it has none, and takes
letters of either case.
-/

theorem isAsciiSpace_of_isHex {c : Char} (h : isHex c = true) : isAsciiSpace c = false := by
  have hsmall : ∀ n, n < 128 → isHex (Char.ofNat n) = true → isAsciiSpace (Char.ofNat n) = false := by
    decide
  have heq := hsmall c.toNat (toNat_lt_of_isHex h)
  rw [Char.ofNat_toNat] at heq
  exact heq h

/-- Digits without blanks are read pair by pair. -/
theorem bytesFromHex_of_isHex : ∀ {cs : List Char}, (∀ c ∈ cs, isHex c = true) →
    cs.length % 2 = 0 → bytesFromHex cs = .ok (fromHex cs)
  | [], _, _ => rfl
  | [_], _, heven => by simp at heven
  | c :: d :: cs, hhex, heven => by
      have hc : isHex c = true := hhex c List.mem_cons_self
      have hd : isHex d = true := hhex d (List.mem_cons_of_mem _ List.mem_cons_self)
      have hcs : ∀ x ∈ cs, isHex x = true := fun x hx =>
        hhex x (List.mem_cons_of_mem _ (List.mem_cons_of_mem _ hx))
      have hrest : bytesFromHex cs = .ok (fromHex cs) := by
        refine bytesFromHex_of_isHex hcs ?_
        simp only [List.length_cons] at heven
        omega
      rw [bytesFromHex, if_neg (by rw [isAsciiSpace_of_isHex hc]; exact Bool.false_ne_true),
        if_pos (by rw [hc, hd]; rfl), hrest]
      rfl

/-- What `bytes.fromhex` returns are bytes. -/
theorem lt_of_bytesFromHex : ∀ {cs : List Char} {bs : List Nat}, bytesFromHex cs = .ok bs →
    ∀ b ∈ bs, b < 256
  | [], bs, h => by
      cases h
      exact fun b hb => (List.not_mem_nil hb).elim
  | [c], bs, h => by
      rw [bytesFromHex] at h
      split at h
      · cases h
        exact fun b hb => (List.not_mem_nil hb).elim
      · cases h
  | c :: d :: cs, bs, h => by
      rw [bytesFromHex] at h
      split at h
      · exact lt_of_bytesFromHex h
      · split at h
        · obtain ⟨rest, hrest, h⟩ := bind_eq_ok.mp h
          cases h
          intro b hb
          rcases List.mem_cons.mp hb with rfl | hb
          · have hc := digitOf_lt c
            have hd := digitOf_lt d
            omega
          · exact lt_of_bytesFromHex hrest b hb
        · cases h

/-- The text of the bytes that a text stands for. -/
theorem hexBytes_fromHex : ∀ {cs : List Char}, cs.length % 2 = 0 →
    hexBytes (fromHex cs) = cs.map fun c => (digitOf c).digitChar
  | [], _ => rfl
  | [_], heven => by simp at heven
  | c :: d :: cs, heven => by
      have hrest : hexBytes (fromHex cs) = cs.map fun c => (digitOf c).digitChar := by
        refine hexBytes_fromHex ?_
        simp only [List.length_cons] at heven
        omega
      have hd := digitOf_lt d
      rw [fromHex, hexBytes_cons, hrest, List.map_cons, List.map_cons,
        show (16 * digitOf c + digitOf d) / 16 = digitOf c by omega,
        show (16 * digitOf c + digitOf d) % 16 = digitOf d by omega]

/-- The text the proxy writes for bytes. -/
def hexText (bs : List Nat) : String := String.ofList ('0' :: 'x' :: hexBytes bs)

/-- A text for bytes, whatever the case of its letters. -/
def HexText (bs : List Nat) (v : Json) : Prop :=
  ∃ cs, v = .str (String.ofList ('0' :: 'x' :: cs)) ∧ (∀ c ∈ cs, isHex c = true)
    ∧ cs.length % 2 = 0 ∧ fromHex cs = bs

theorem hexText_spec {bs : List Nat} (h : ∀ b ∈ bs, b < 256) : HexText bs (.str (hexText bs)) :=
  ⟨hexBytes bs, rfl, isHex_hexBytes h, by rw [length_hexBytes]; omega, fromHex_hexBytes h⟩

theorem hexToBytes_of_hexText {bs : List Nat} {v : Json} (h : HexText bs v) :
    hexToBytes v = .ok bs := by
  obtain ⟨cs, rfl, hhex, heven, rfl⟩ := h
  rw [hexToBytes, String.toList_ofList, withoutZeroX, bytesFromHex_of_isHex hhex heven]

theorem lt_of_hexToBytes {v : Json} {bs : List Nat} (h : hexToBytes v = .ok bs) :
    ∀ b ∈ bs, b < 256 := by
  cases v with
  | str s => exact lt_of_bytesFromHex h
  | _ => cases h

theorem toList_lower_cons {c : Char} (hc : lowerChar c = [c]) (cs : List Char) :
    (lower (String.ofList (c :: cs))).toList = c :: (lower (String.ofList cs)).toList := by
  rw [lower, lower, String.toList_ofList, String.toList_ofList, String.toList_ofList,
    String.toList_ofList, List.flatMap_cons, hc]
  rfl

/-- In lower case a text is the one the proxy writes. -/
theorem lower_of_hexText {cs : List Char} (hhex : ∀ c ∈ cs, isHex c = true)
    (heven : cs.length % 2 = 0) :
    lower (String.ofList ('0' :: 'x' :: cs)) = hexText (fromHex cs) := by
  rw [← String.toList_inj, toList_lower_cons (by decide), toList_lower_cons (by decide),
    toList_lower_hex hhex, hexText, String.toList_ofList, hexBytes_fromHex heven]

/-! ### Sending

A request carries bytes by its media type: as its body, or as the text in a field of it.  What
is sent is the one text of these bytes in lower case.
-/

theorem hexBytesRe_eq_true {s : String} (h : hexBytesRe s = true) :
    ∃ cs, s = String.ofList ('0' :: 'x' :: cs) ∧ (∀ c ∈ cs, isHex c = true) ∧ cs.length % 2 = 0 := by
  unfold hexBytesRe at h
  split at h
  · rename_i cs hs
    obtain ⟨hhex, heven⟩ := Bool.and_eq_true_iff.mp h
    refine ⟨cs, ?_, List.all_eq_true.mp hhex, beq_iff_eq.mp heven⟩
    rw [← String.toList_inj, hs, String.toList_ofList]
  · cases h

/-- The transaction that a request carries, as bytes or as text. -/
inductive Carries (req : RawRequest) (bs : List Nat) : Prop where
  | raw (hct : mediaType req.contentType = contentTypeRlp) (hbs : bs = req.bytes)
  | text (hct : mediaType req.contentType = "application/json" ∨ mediaType req.contentType = "")
      (fields : List (String × Json)) (v : Json) (hbody : req.req.body = .ok (.obj fields))
      (hraw : Json.field? fields "raw" = some v) (hv : HexText bs v)

theorem rlp_ne_json {ct : String} (h : ct = contentTypeRlp) :
    ¬ (ct = "application/json" ∨ ct = "") := by
  rw [h]
  decide

theorem rawTxRe_eq_true {s : String} (h : rawTxRe s = true) :
    ∃ bs, HexText bs (.str s) ∧ bs ≠ [] ∧ lower s = hexText bs := by
  obtain ⟨hbytes, hne⟩ := Bool.and_eq_true_iff.mp h
  obtain ⟨cs, rfl, hhex, heven⟩ := hexBytesRe_eq_true hbytes
  refine ⟨fromHex cs, ⟨cs, rfl, hhex, heven, rfl⟩, fun hnil => ?_, lower_of_hexText hhex heven⟩
  refine of_decide_eq_true hne ?_
  match cs with
  | [] => rfl
  | [_] => simp at heven
  | c :: d :: cs => cases hnil

theorem rawTxRe_of_hexText {bs : List Nat} {s : String} (h : HexText bs (.str s)) (hne : bs ≠ []) :
    rawTxRe s = true ∧ lower s = hexText bs := by
  obtain ⟨cs, hs, hhex, heven, rfl⟩ := h
  injection hs with hs
  rw [hs]
  refine ⟨Bool.and_eq_true_iff.mpr ⟨?_, decide_eq_true ?_⟩, lower_of_hexText hhex heven⟩
  · rw [hexBytesRe, String.toList_ofList]
    exact Bool.and_eq_true_iff.mpr ⟨List.all_eq_true.mpr hhex, beq_iff_eq.mpr heven⟩
  · intro hempty
    have hlist := congrArg String.toList hempty
    rw [String.toList_ofList] at hlist
    cases hlist
    exact hne rfl

theorem rawTxOfJson_iff {req : Request} {s : String} : rawTxOfJson req = .ok (.inr s) ↔
    ∃ fields v bs, req.body = .ok (.obj fields) ∧ Json.field? fields "raw" = some v
      ∧ HexText bs v ∧ bs ≠ [] ∧ s = hexText bs := by
  constructor
  · intro h
    obtain ⟨body, hbody, h⟩ := unlessRefused_eq_inr h
    have hbody := ok_of_readJson hbody
    dsimp only at h
    split at h
    · rename_i fields hread
      split at h
      · cases h
      · rename_i raw hraw
        split at h
        · rename_i hre
          obtain ⟨bs, htext, hne, hlower⟩ := rawTxRe_eq_true hre
          injection h with h
          injection h with h
          exact ⟨fields, _, bs, hbody, hraw, htext, hne, h ▸ hlower⟩
        · cases h
      · cases h
    · cases h
  · rintro ⟨fields, v, bs, hbody, hraw, htext, hne, rfl⟩
    have hv : ∃ t, v = .str t := by
      obtain ⟨cs, rfl, -⟩ := htext
      exact ⟨_, rfl⟩
    obtain ⟨t, rfl⟩ := hv
    obtain ⟨hre, hlower⟩ := rawTxRe_of_hexText htext hne
    have hread : readJson req = .ok (.inr (.obj fields)) := by
      rw [readJson, hbody]
    rw [rawTxOfJson, hread, unlessRefused_inr]
    simp only [hraw, hre, hlower, if_true]

/-- **What is sent is the text of the bytes**, and only bytes are sent. -/
theorem readRawTx_iff {req : RawRequest} {s : String} : readRawTx req = .ok (.inr s) ↔
    ∃ bs, Carries req bs ∧ bs ≠ [] ∧ s = hexText bs := by
  rw [readRawTx]
  by_cases hct : mediaType req.contentType = contentTypeRlp
  · rw [if_pos hct]
    constructor
    · intro h
      split at h
      · cases h
      · rename_i hne
        cases h
        exact ⟨req.bytes, .raw hct rfl, hne, rfl⟩
    · rintro ⟨bs, hcarries, hne, rfl⟩
      cases hcarries with
      | raw _ hbs =>
          rw [if_neg (hbs ▸ hne), hbs]
          rfl
      | text hjson => exact absurd hjson (rlp_ne_json hct)
  · rw [if_neg hct]
    by_cases hjson : mediaType req.contentType = "application/json" ∨ mediaType req.contentType = ""
    · rw [if_pos hjson, rawTxOfJson_iff]
      constructor
      · rintro ⟨fields, v, bs, hbody, hraw, htext, hne, rfl⟩
        exact ⟨bs, .text hjson fields v hbody hraw htext, hne, rfl⟩
      · rintro ⟨bs, hcarries, hne, rfl⟩
        cases hcarries with
        | raw h => exact absurd h hct
        | text _ fields v hbody hraw htext => exact ⟨fields, v, bs, hbody, hraw, htext, hne, rfl⟩
    · rw [if_neg hjson]
      constructor
      · intro h
        cases h
      · rintro ⟨bs, hcarries, -, -⟩
        cases hcarries with
        | raw h => exact absurd h hct
        | text h => exact absurd h hjson

/-! ### Receiving

There are two forms of a raw result, a text and a list of texts.  The second is that of
receipts, and their bytes are put one after the other.
-/

theorem rlpResponse_of_hexText {bs : List Nat} {v : Json} (h : HexText bs v) :
    rlpResponse v = .ok (.rlp bs) := by
  rw [rlpResponse, hexToBytes_of_hexText h]
  rfl

/-- Only the text of no bytes is taken for missing. -/
theorem rawUnlessEmpty_of_hexText {bs : List Nat} {v : Json} (h : HexText bs v) (hne : bs ≠ []) :
    rawUnlessEmpty v = some (.ok (.rlp bs)) := by
  have hthere : ¬ (v = .null ∨ v = .str "0x") := by
    obtain ⟨cs, rfl, -, -, rfl⟩ := h
    rintro (hnull | hempty)
    · cases hnull
    · injection hempty with hempty
      have hlist := congrArg String.toList hempty
      rw [String.toList_ofList] at hlist
      cases hlist
      exact hne rfl
  rw [rawUnlessEmpty, if_neg hthere, rlpResponse_of_hexText h]

theorem mapM_hexToBytes : ∀ {parts : List (List Nat)} {items : List Json},
    List.Forall₂ HexText parts items → items.mapM hexToBytes = .ok parts
  | _, _, .nil => rfl
  | _, _, .cons h hs => by
      rw [List.mapM_cons, hexToBytes_of_hexText h, mapM_hexToBytes hs]
      rfl

/-- The receipts of a block follow each other. -/
theorem rawReceipts_of_hexText {parts : List (List Nat)} {items : List Json}
    (h : List.Forall₂ HexText parts items) :
    rawReceipts (.arr items) = some (.ok (.rlp parts.flatten)) := by
  rw [rawReceipts, mapM_hexToBytes h]
  rfl

/-- A program that issues one operation and computes on the reply. -/
theorem runs_ask_once {α : Type} {rpc : RpcCall} {f : Json → Except Exc α} {tr : Trace}
    {out : Except Exc α} :
    Prog.Runs (.ask rpc fun reply => Prog.ofExcept reply >>= fun v => liftM (f v)) tr out
      ↔ ∃ reply : Reply, tr = [(rpc, reply)] ∧ out = reply >>= f := by
  have hrest : ∀ reply : Reply, (Prog.ofExcept reply >>= fun v => liftM (f v) : Handler α)
      = Prog.ofExcept (reply >>= f) := by
    intro reply
    cases reply <;> rfl
  simp only [Prog.runs_ask, hrest, Prog.runs_ofExcept]
  constructor
  · rintro ⟨reply, rest, rfl, rfl, rfl⟩
    exact ⟨reply, rfl, rfl⟩
  · rintro ⟨reply, rfl, rfl⟩
    exact ⟨reply, [], rfl, rfl, rfl⟩

/-- A client that wants bytes is answered from the one call that gets them. -/
theorem RawResource.runs_rlp {r : RawResource} {sort : List (String × Flt) → List (String × Flt)}
    {req : RawRequest} {rpc rawRpc : RpcCall}
    (hread : r.read req.req = .ok (.inr (rpc, rawRpc)))
    (hrlp : selectRepresentation lower sort req.accept supportedTypes supportedTypes_ne_nil
      = some contentTypeRlp) {tr : Trace} {out : Except Exc Representation} :
    Prog.Runs (r.run sort req) tr out
      ↔ ∃ reply : Reply, tr = [(rawRpc, reply)] ∧ out = reply >>= r.respondRaw req.req := by
  have hrun : r.run sort req
      = .ask rawRpc fun reply => Prog.ofExcept reply >>= fun v => liftM (r.respondRaw req.req v) := by
    simp only [RawResource.run, hread]
    rw [hrlp]
    rfl
  rw [hrun, runs_ask_once]

/-! ### There and back

`AsksRaw` is a request for a resource as RLP.  It makes the one call for the raw text, whatever
the representation would have been otherwise.
-/

/-- A transaction is sent as the text of its bytes, in one call. -/
theorem runs_postTransaction {req : RawRequest} {bs : List Nat} (hcarries : Carries req bs)
    (hne : bs ≠ []) {tr : Trace} {out : Except Exc Response} :
    Prog.Runs (postTransaction req) tr out
      ↔ ∃ reply : Reply, tr = [(⟨"eth_sendRawTransaction", [.str (hexText bs)]⟩, reply)]
        ∧ out = reply >>= sentResponse req.req.path := by
  have hread : readRawTx req = .ok (.inr (hexText bs)) :=
    readRawTx_iff.mpr ⟨bs, hcarries, hne, rfl⟩
  have hpost : postTransaction req
      = .ask ⟨"eth_sendRawTransaction", [.str (hexText bs)]⟩ fun reply =>
          Prog.ofExcept reply >>= fun v => liftM (sentResponse req.req.path v) := by
    simp only [postTransaction, hread]
    rfl
  rw [hpost, runs_ask_once]

/-- A request that carries no transaction is answered without the upstream. -/
theorem not_sent {req : RawRequest} (h : ¬ ∃ bs, Carries req bs ∧ bs ≠ []) :
    ∃ out, postTransaction req = Prog.ofExcept out := by
  rcases hread : readRawTx req with e | resp | s
  · refine ⟨.error e, ?_⟩
    simp only [postTransaction, hread]
    rfl
  · refine ⟨.ok resp, ?_⟩
    simp only [postTransaction, hread]
    rfl
  · obtain ⟨bs, hcarries, hne, -⟩ := readRawTx_iff.mp hread
    exact absurd ⟨bs, hcarries, hne⟩ h

theorem Carries.lt {req : RawRequest} {bs : List Nat} (h : Carries req bs)
    (hbytes : ∀ b ∈ req.bytes, b < 256) : ∀ b ∈ bs, b < 256 := by
  cases h with
  | raw _ hbs => exact hbs ▸ hbytes
  | text _ _ _ _ _ hv => exact lt_of_hexToBytes (hexToBytes_of_hexText hv)

/-- What a client gets as bytes is what the handler makes of the raw result. -/
theorem RawResource.runs_of_raw {r : RawResource} {sort : List (String × Flt) → List (String × Flt)}
    {req : RawRequest} {rpc rawRpc : RpcCall}
    (hread : r.read req.req = .ok (.inr (rpc, rawRpc)))
    (hrlp : selectRepresentation lower sort req.accept supportedTypes supportedTypes_ne_nil
      = some contentTypeRlp) {bs : List Nat} {v : Json} (hraw : r.raw v = some (.ok (.rlp bs)))
    (out : Except Exc Representation) :
    Prog.Runs (r.run sort req) [(rawRpc, .ok v)] out ↔ out = .ok (.rlp bs) := by
  have hrespond : r.respondRaw req.req v = .ok (.rlp bs) := by
    rw [RawResource.respondRaw, hraw]
  rw [RawResource.runs_rlp hread hrlp]
  constructor
  · rintro ⟨reply, htrace, rfl⟩
    cases htrace
    exact hrespond
  · rintro rfl
    exact ⟨.ok v, rfl, hrespond.symm⟩

/-- The resources that the upstream has as one text. -/
def textResources : List RawResource := [getTransaction, getBlock, getBlockHeader]

theorem raw_of_textResources {r : RawResource} (h : r ∈ textResources) (v : Json) :
    r.raw v = rawUnlessEmpty v := by
  simp only [textResources, List.mem_cons, List.not_mem_nil, or_false] at h
  rcases h with rfl | rfl | rfl <;> rfl

/-- A client asks for a resource as bytes, with a request that is read as this call. -/
structure AsksRaw (r : RawResource) (sort : List (String × Flt) → List (String × Flt))
    (req : RawRequest) (rawRpc : RpcCall) : Prop where
  read : ∃ rpc, r.read req.req = .ok (.inr (rpc, rawRpc))
  rlp : selectRepresentation lower sort req.accept supportedTypes supportedTypes_ne_nil
    = some contentTypeRlp

/-- **Raw bytes go in and come out unchanged.**  A request that carries a transaction, as bytes or
as text, is sent in one call, as a text of its bytes, and nothing else is sent.  When the upstream
has a text of such bytes for a transaction, a block or a header, however its letters are written, a
client that wants bytes gets the same bytes; receipts follow each other. -/
theorem raw_round_trip {req : RawRequest} (hbytes : ∀ b ∈ req.bytes, b < 256) :
    ((¬ ∃ bs, Carries req bs ∧ bs ≠ []) → ∃ out, postTransaction req = Prog.ofExcept out)
      ∧ (∀ bs, Carries req bs → bs ≠ [] → HexText bs (.str (hexText bs))
        ∧ ∀ tr out, Prog.Runs (postTransaction req) tr out ↔ ∃ reply : Reply,
            tr = [(⟨"eth_sendRawTransaction", [.str (hexText bs)]⟩, reply)]
              ∧ out = reply >>= sentResponse req.req.path)
      ∧ (∀ r ∈ textResources, ∀ sort fetch rawRpc, AsksRaw r sort fetch rawRpc →
          ∀ bs v out, HexText bs v → bs ≠ [] →
            (Prog.Runs (r.run sort fetch) [(rawRpc, .ok v)] out ↔ out = .ok (.rlp bs)))
      ∧ ∀ sort fetch rawRpc, AsksRaw getBlockReceipts sort fetch rawRpc →
          ∀ parts items out, List.Forall₂ HexText parts items →
            (Prog.Runs (getBlockReceipts.run sort fetch) [(rawRpc, .ok (.arr items))] out ↔
              out = .ok (.rlp parts.flatten)) := by
  refine ⟨not_sent, fun bs hcarries hne => ⟨hexText_spec (hcarries.lt hbytes), fun tr out =>
    runs_postTransaction hcarries hne⟩, ?_, ?_⟩
  · intro r hr sort fetch rawRpc ⟨⟨rpc, hread⟩, hrlp⟩ bs v out hv hne
    have hraw : r.raw v = some (.ok (.rlp bs)) := by
      rw [raw_of_textResources hr, rawUnlessEmpty_of_hexText hv hne]
    exact RawResource.runs_of_raw hread hrlp hraw out
  · intro sort fetch rawRpc ⟨⟨rpc, hread⟩, hrlp⟩ parts items out hparts
    have hraw : getBlockReceipts.raw (.arr items) = some (.ok (.rlp parts.flatten)) :=
      rawReceipts_of_hexText hparts
    exact RawResource.runs_of_raw hread hrlp hraw out

/-- A transaction of one byte is sent as text. -/
def sentTransaction : RawRequest where
  req := { path := "/transactions", query := [], body := .ok (.obj [("raw", .str "0xAB")]) }
  accept := none
  contentType := some "application/json"
  bytes := []

/-- It is asked for as bytes. -/
def fetchedTransaction : RawRequest where
  req :=
    { path := "/transactions/0x00000000000000000000000000000000000000000000000000000000000000aa"
      query := []
      matchInfo := [("hash", "0x00000000000000000000000000000000000000000000000000000000000000aa")] }
  accept := some contentTypeRlp
  contentType := none
  bytes := []

theorem raw_round_trip_once :
    Prog.Runs (getTransaction.run id fetchedTransaction)
      [(⟨"debug_getRawTransaction",
        [.str "0x00000000000000000000000000000000000000000000000000000000000000aa"]⟩,
        .ok (.str "0xab"))] (.ok (.rlp [171])) := by
  have hcarries : Carries sentTransaction [171] :=
    .text (.inl (by decide +kernel)) _ _ rfl rfl
      ⟨['A', 'B'], rfl, List.all_eq_true.mp rfl, rfl, by decide⟩
  have hread : getTransaction.read fetchedTransaction.req = .ok (.inr
      (⟨"eth_getTransactionByHash",
        [.str "0x00000000000000000000000000000000000000000000000000000000000000aa"]⟩,
      ⟨"debug_getRawTransaction",
        [.str "0x00000000000000000000000000000000000000000000000000000000000000aa"]⟩)) := by
    decide +kernel
  obtain ⟨-, hsent, htexts, -⟩ := @raw_round_trip sentTransaction nofun
  have htext : HexText [171] (.str (hexText [171])) := (hsent _ hcarries nofun).1
  exact (htexts getTransaction List.mem_cons_self id fetchedTransaction _
    ⟨⟨_, hread⟩, by decide +kernel⟩ [171] _ _ htext nofun).mpr rfl

end ExecRestApi
