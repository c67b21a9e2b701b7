/-
The cursor codec: decoding the text of a cursor gives the cursor back.

Between the two lie `json.dumps`, UTF-8 and base64url, each undone by its own library
theorem.  What none of them undoes is the limit of the interpreter on nesting.
Printing and loading both recurse, each on the stack its caller leaves it, so a payload
has a text only up to one depth and is read again only up to another.  The limits are
kept apart here, `e` for the encoder and `d` for the decoder: the handlers encode from
deeper in the stack than they decode, or the other way round, and nothing may rest on
which.

`cursor_codec` is therefore an equivalence.  A cursor whose payload nests no deeper than
either limit survives the wire and is not taken for the other kind; one that nests deeper
than `e` has no text, and one that nests deeper than `d` cannot be read again.  What the
decoder never does, under any limit, is to read a cursor that was not written:
`eq_of_decodeCursor_encodeCursor`.
-/
import ExecRestApi.Lib.JsonDepth
import ExecRestApi.Lib.JsonPlain
import ExecRestApi.Model.Cursor

namespace ExecRestApi

open Py Json

/-! ### The text layer

One lemma for each direction of the layer the two codecs share.  An object that fits is given back
by the decoder whatever its fields are; an object that nests too deeply for the decoder ends in
`RecursionError`, which is no `CursorError`. -/

theorem toList_ofList_ne_nil {cs : List Char} (h : cs ≠ []) : String.ofList cs ≠ "" := by
  intro heq
  have := congrArg String.toList heq
  simp only [String.toList_ofList] at this
  exact h this

theorem digits64_ne_nil {bs : List Nat} (h : bs ≠ []) : digits64 bs ≠ [] := by
  rcases bs with _ | ⟨a, _ | ⟨b, _ | ⟨c, rest⟩⟩⟩
  · exact absurd rfl h
  · simp [digits64]
  · simp [digits64]
  · simp [digits64]

/-- Only a value that nests no deeper than the encoder goes has a text. -/
theorem depth_of_b64urlEncode {e : Nat} {v : Json} {text : String}
    (h : b64urlEncode e v = .ok text) : depth v ≤ e := by
  unfold b64urlEncode at h
  split_ifs at h with hdeep
  exact Nat.le_of_not_lt hdeep

/-- What `_b64url_decode` makes of an encoded object is what `json.loads` makes of its text. -/
theorem b64urlDecode_encode {e d : Nat} {fields : List (String × Json)} {text : String}
    (hplain : PlainObj fields) (h : b64urlEncode e (.obj fields) = .ok text) :
    (depth (.obj fields) ≤ d → b64urlDecode d text = .ok fields) ∧
    (d < depth (.obj fields) → b64urlDecode d text = .error .recursionError) ∧
    ∀ out, b64urlDecode d text = .ok out → out = fields := by
  have hobj : Plain (.obj fields) := plain_obj.mpr hplain
  have hascii : Ascii (print (.obj fields)) := ascii_print _ hobj
  have hbytes := utf8Encode_lt hascii
  have htext : text
      = String.ofList (rstripPad (urlsafeB64encode (utf8Encode (print (.obj fields))))) := by
    have hfits := Nat.not_lt_of_le (depth_of_b64urlEncode h)
    simp only [b64urlEncode, if_neg hfits, dumps, intsFit_of_plain _ hobj, if_true,
      Except.ok.injEq] at h
    exact h.symm
  have hne : text ≠ "" := by
    rw [htext, rstripPad_encode hbytes]
    refine toList_ofList_ne_nil (digits64_ne_nil ?_)
    obtain ⟨c, cs, hp, -, -⟩ := print_head _ hobj
    have hc : c.toNat < 128 := hascii c (by rw [hp]; simp)
    rw [hp]
    simp [utf8Encode, utf8Char, hc]
  have hlist : text.toList = rstripPad (urlsafeB64encode (utf8Encode (print (.obj fields)))) := by
    rw [htext, String.toList_ofList]
  simp only [b64urlDecode, if_neg hne, hlist, urlsafeB64decode_encode hbytes,
    utf8Decode_encode hascii]
  refine ⟨fun hd => ?_, fun hd => ?_, fun out hout => ?_⟩
  · rw [loads_print hobj hd]
  · rw [loads_print_deep hobj hd]
  · cases hloads : loads d (print (.obj fields)) with
    | error e =>
        rw [hloads] at hout
        cases e <;> cases hout
    | ok v =>
        have hv := eq_of_loads_print hobj hloads
        subst hv
        rw [hloads] at hout
        cases hout
        rfl

/-- The characters that survive a URL as they are. -/
def UrlSafe (text : String) : Prop :=
  ∀ c ∈ text.toList, c.isAlphanum = true ∨ c = '-' ∨ c = '_'

/-- A plain value that nests no deeper than the encoder goes has a text, which is not empty and
survives a URL. -/
theorem b64urlEncode_plain {e : Nat} {v : Json} (hv : Plain v) (he : depth v ≤ e) :
    ∃ text, b64urlEncode e v = .ok text ∧ text ≠ "" ∧ UrlSafe text := by
  have hascii : Ascii (print v) := ascii_print _ hv
  have hbytes := utf8Encode_lt hascii
  refine ⟨_, by rw [b64urlEncode, if_neg (Nat.not_lt_of_le he), dumps, intsFit_of_plain _ hv]; rfl,
    ?_, ?_⟩
  · rw [rstripPad_encode hbytes]
    apply toList_ofList_ne_nil
    apply digits64_ne_nil
    obtain ⟨c, cs, hp, -, -⟩ := print_head _ hv
    have hc : c.toNat < 128 := hascii c (by rw [hp]; simp)
    rw [hp]
    simp [utf8Encode, utf8Char, hc]
  · intro c hc
    rw [String.toList_ofList, rstripPad_encode hbytes] at hc
    obtain ⟨n, hn, rfl⟩ := mem_digits64 _ hbytes c hc
    exact (b64Char_spec hn).2.2

/-- Every object a cursor is decoded from is plain. -/
theorem plainObj_of_b64urlDecode {d : Nat} {text : String} {fields : List (String × Json)}
    (h : b64urlDecode d text = .ok fields) : PlainObj fields := by
  unfold b64urlDecode at h
  split_ifs at h
  cases hraw : urlsafeB64decode (text.toList ++ padding text.toList) with
  | none => simp [hraw] at h
  | some raw =>
      cases hutf : utf8Decode raw with
      | none => simp [hraw, hutf] at h
      | some chars =>
          cases hloads : loads d chars with
          | error e => cases e <;> simp [hraw, hutf, hloads] at h
          | ok v =>
              have hv := plain_of_loads hloads
              cases v <;> simp only [hraw, hutf, hloads, reduceCtorEq, Except.ok.injEq] at h
              subst h
              exact plain_obj.mp hv

/-! ### Logs cursors

The payload of a cursor is an object of scalars and the filter, so what the text layer asks of it
comes down to the filter being plain and the three numbers being short enough to print. -/

/-- Everything in the payload of an encodable cursor with a plain filter is plain. -/
theorem plain_payload {e : Nat} {c : Cursor} {text : String} (hf : PlainObj c.filter)
    (h : encodeCursor e c = .ok text) : Plain c.payload := by
  have hfit : intsFit c.payload = true := by
    by_contra hno
    have hfits := Nat.not_lt_of_le (depth_of_b64urlEncode h)
    simp [encodeCursor, b64urlEncode, hfits, dumps, hno] at h
  simp only [Cursor.payload, intsFit, fieldsFit, Bool.and_eq_true, Bool.true_and] at hfit
  refine plain_obj.mpr ⟨?_, ?_⟩
  · simp
  · simp only [List.forall_mem_cons, List.not_mem_nil, false_imp_iff, implies_true, and_true]
    exact ⟨trivial, hfit.1, hfit.2.1, hfit.2.2.1, trivial, plain_obj.mpr hf⟩

/-- **A cursor survives the wire**, if the interpreter lets JSON nest deeply enough. -/
theorem decodeCursor_encodeCursor {e d : Nat} {c : Cursor} {text : String}
    (hf : PlainObj c.filter) (henc : encodeCursor e c = .ok text) (hd : depth c.payload ≤ d) :
    decodeCursor d text = .ok c := by
  have hplain := plain_obj.mp (plain_payload hf henc)
  simp only [decodeCursor, (b64urlDecode_encode hplain henc).1 hd]
  rfl

/-- A cursor that nests too deeply for the decoder is not read again. -/
theorem decodeCursor_encodeCursor_deep {e d : Nat} {c : Cursor} {text : String}
    (hf : PlainObj c.filter) (henc : encodeCursor e c = .ok text) (hd : d < depth c.payload) :
    decodeCursor d text = .error .recursionError := by
  have hplain := plain_obj.mp (plain_payload hf henc)
  simp only [decodeCursor, (b64urlDecode_encode hplain henc).2.1 hd]
  rfl

/-- However deeply JSON may nest, no other cursor is read out of the text of a cursor. -/
theorem eq_of_decodeCursor_encodeCursor {e d : Nat} {c c' : Cursor} {text : String}
    (hf : PlainObj c.filter) (henc : encodeCursor e c = .ok text)
    (hdec : decodeCursor d text = .ok c') : c' = c := by
  have hplain := plain_obj.mp (plain_payload hf henc)
  cases hpay : b64urlDecode d text with
  | error e =>
      simp only [decodeCursor, hpay] at hdec
      cases hdec
  | ok fields =>
      have hfields := (b64urlDecode_encode hplain henc).2.2 fields hpay
      subst hfields
      simp only [decodeCursor, hpay] at hdec
      have hok : (Except.ok c : Except Exc Cursor) = .ok c' := by
        rw [← hdec]
        obtain ⟨a, b, e, f, g⟩ := c
        rfl
      cases hok
      rfl

/-- Everything in the payload of a cursor is plain, if its numbers are short enough to print. -/
theorem Cursor.plain {c : Cursor} (hf : PlainObj c.filter) (hnext : strFits c.nextFromBlock = true)
    (hindex : strFits c.lastLogIndex = true) (hto : strFits c.toBlock = true) :
    Plain c.payload := by
  refine plain_obj.mpr ⟨by simp, ?_⟩
  simp only [List.forall_mem_cons, List.not_mem_nil, false_imp_iff, implies_true, and_true]
  exact ⟨trivial, hnext, hindex, hto, trivial, plain_obj.mpr hf⟩

/-! ### Trace cursors -/

theorem TraceCursor.plain {c : TraceCursor} (hf : PlainObj c.filter)
    (hafter : strFits c.after = true) (hfrom : strFits c.fromBlock = true)
    (hto : strFits c.toBlock = true) : Plain c.payload := by
  refine plain_obj.mpr ⟨by simp, ?_⟩
  simp only [List.forall_mem_cons, List.not_mem_nil, false_imp_iff, implies_true, and_true]
  exact ⟨trivial, hafter, hfrom, hto, plain_obj.mpr hf⟩

/-- **A trace cursor survives the wire**, if the interpreter lets JSON nest deeply enough. -/
theorem decodeTraceCursor_encodeTraceCursor {e d : Nat} {c : TraceCursor} {text : String}
    (hplain : Plain c.payload) (henc : encodeTraceCursor e c = .ok text)
    (hd : depth c.payload ≤ d) : decodeTraceCursor d text = .ok c := by
  simp only [decodeTraceCursor, (b64urlDecode_encode (plain_obj.mp hplain) henc).1 hd]
  rfl

/-- A trace cursor that nests too deeply for the decoder is not read again. -/
theorem decodeTraceCursor_encodeTraceCursor_deep {e d : Nat} {c : TraceCursor} {text : String}
    (hplain : Plain c.payload) (henc : encodeTraceCursor e c = .ok text)
    (hd : d < depth c.payload) : decodeTraceCursor d text = .error .recursionError := by
  simp only [decodeTraceCursor, (b64urlDecode_encode (plain_obj.mp hplain) henc).2.1 hd]
  rfl

/-! ### Two kinds

Neither payload has all the fields of the other, so a text of one kind that can be read at all is
refused by the reader of the other kind at the first field it misses. -/

/-- A traces cursor is no logs cursor. -/
theorem decodeCursor_encodeTraceCursor {e d : Nat} {c : TraceCursor} {text : String}
    (hplain : Plain c.payload) (henc : encodeTraceCursor e c = .ok text)
    (hd : depth c.payload ≤ d) : ∃ msg, decodeCursor d text = .error (.cursorError msg) := by
  simp only [decodeCursor, (b64urlDecode_encode (plain_obj.mp hplain) henc).1 hd]
  exact ⟨_, rfl⟩

/-- A logs cursor is no traces cursor. -/
theorem decodeTraceCursor_encodeCursor {e d : Nat} {c : Cursor} {text : String}
    (hplain : Plain c.payload) (henc : encodeCursor e c = .ok text)
    (hd : depth c.payload ≤ d) : ∃ msg, decodeTraceCursor d text = .error (.cursorError msg) := by
  simp only [decodeTraceCursor, (b64urlDecode_encode (plain_obj.mp hplain) henc).1 hd]
  exact ⟨_, rfl⟩

/-- What a codec owes a value, where `other` reads the other kind: a text that survives a URL,
from which the value comes back and which the other reader refuses. -/
def Codec {α β : Type} (encode : α → Except Exc String) (decode : String → Except Exc α)
    (other : String → Except Exc β) (a : α) : Prop :=
  ∃ text, encode a = .ok text ∧ decode text = .ok a ∧ text ≠ "" ∧ UrlSafe text
    ∧ ∃ msg, other text = .error (.cursorError msg)

/-- A logs cursor is owed all that exactly when its payload fits both stacks. -/
theorem codec_cursor_iff {e d : Nat} {c : Cursor} (hf : PlainObj c.filter)
    (hplain : Plain c.payload) :
    Codec (encodeCursor e) (decodeCursor d) (decodeTraceCursor d) c
      ↔ depth c.payload ≤ e ∧ depth c.payload ≤ d := by
  constructor
  · rintro ⟨text, henc, hdec, -⟩
    refine ⟨depth_of_b64urlEncode henc, ?_⟩
    by_contra hdeep
    rw [decodeCursor_encodeCursor_deep hf henc (Nat.lt_of_not_le hdeep)] at hdec
    cases hdec
  · rintro ⟨he, hd⟩
    obtain ⟨text, henc, hne, hsafe⟩ := b64urlEncode_plain hplain he
    exact ⟨text, henc, decodeCursor_encodeCursor hf henc hd, hne, hsafe,
      decodeTraceCursor_encodeCursor hplain henc hd⟩

/-- A trace cursor is owed all that exactly when its payload fits both stacks. -/
theorem codec_traceCursor_iff {e d : Nat} {c : TraceCursor} (hplain : Plain c.payload) :
    Codec (encodeTraceCursor e) (decodeTraceCursor d) (decodeCursor d) c
      ↔ depth c.payload ≤ e ∧ depth c.payload ≤ d := by
  constructor
  · rintro ⟨text, henc, hdec, -⟩
    refine ⟨depth_of_b64urlEncode henc, ?_⟩
    by_contra hdeep
    rw [decodeTraceCursor_encodeTraceCursor_deep hplain henc (Nat.lt_of_not_le hdeep)] at hdec
    cases hdec
  · rintro ⟨he, hd⟩
    obtain ⟨text, henc, hne, hsafe⟩ := b64urlEncode_plain hplain he
    exact ⟨text, henc, decodeTraceCursor_encodeTraceCursor hplain henc hd, hne, hsafe,
      decodeCursor_encodeTraceCursor hplain henc hd⟩

/-- **The cursor codec.**  Numbers are as long as Python prints them and filters are plain JSON
objects; `json.dumps` nests `e` deep where the cursor is encoded, `json.loads` nests `d` deep
where it is decoded. -/
theorem cursor_codec (e d : Nat) :
    (∀ c : Cursor, PlainObj c.filter → strFits c.nextFromBlock = true →
      strFits c.lastLogIndex = true → strFits c.toBlock = true →
        (Codec (encodeCursor e) (decodeCursor d) (decodeTraceCursor d) c
          ↔ depth c.payload ≤ e ∧ depth c.payload ≤ d))
    ∧ ∀ c : TraceCursor, PlainObj c.filter → strFits c.after = true →
      strFits c.fromBlock = true → strFits c.toBlock = true →
        (Codec (encodeTraceCursor e) (decodeTraceCursor d) (decodeCursor d) c
          ↔ depth c.payload ≤ e ∧ depth c.payload ≤ d) := by
  refine ⟨?_, ?_⟩
  · intro c hf hnext hindex hto
    exact codec_cursor_iff hf (c.plain hf hnext hindex hto)
  · intro c hf hafter hfrom hto
    exact codec_traceCursor_iff (c.plain hf hafter hfrom hto)

theorem strFits_of_small {n : Int} (hn : n.natAbs < 10) : strFits n = true :=
  strFits_iff.mpr (Nat.lt_of_lt_of_le hn (Nat.le_self_pow maxStrDigits_pos.ne' 10))

theorem cursor_codec_nested :
    Codec (encodeCursor 3) (decodeCursor 3) (decodeTraceCursor 3)
        ⟨5, -1, 9, "0xé", [("topics", .arr [.null, .bool true, .int (-7)])]⟩
      ∧ Codec (encodeTraceCursor 3) (decodeTraceCursor 3) (decodeCursor 3)
        ⟨2, 0, 9, [("fromAddress", .arr [.str "0xq\"\n"])]⟩ := by
  refine ⟨((cursor_codec 3 3).1 _ ?_ (strFits_of_small (by decide))
      (strFits_of_small (by decide)) (strFits_of_small (by decide))).mpr
        ⟨by decide, by decide⟩,
    ((cursor_codec 3 3).2 _ ?_ (strFits_of_small (by decide))
      (strFits_of_small (by decide)) (strFits_of_small (by decide))).mpr
        ⟨by decide, by decide⟩⟩
  · refine ⟨by decide, ?_⟩
    simp [Plain, PlainItems, strFits_of_small]
  · refine ⟨by decide, ?_⟩
    simp [Plain, PlainItems]

/-- A cursor whose filter holds `n + 1` arrays in one another. -/
def deepCursor (n : Nat) : Cursor := ⟨5, -1, 9, "0x", [("topics", nested n)]⟩

theorem depth_deepCursor (n : Nat) : depth (deepCursor n).payload = n + 3 := by
  simp [Cursor.payload, deepCursor, depth, fieldsDepth, depth_nested]

theorem plainObj_deepCursor (n : Nat) : PlainObj (deepCursor n).filter :=
  ⟨by simp [deepCursor], by simp [deepCursor, plain_nested]⟩

theorem plain_deepCursor (n : Nat) : Plain (deepCursor n).payload :=
  (deepCursor n).plain (plainObj_deepCursor n) (strFits_of_small (by simp [deepCursor]))
    (strFits_of_small (by simp [deepCursor])) (strFits_of_small (by simp [deepCursor]))

/-- A filter of a thousand arrays in one another is more than either direction takes. -/
theorem not_codec_deep :
    PlainObj (deepCursor 999).filter ∧
      encodeCursor 995 (deepCursor 999) = .error .recursionError ∧
      ¬ Codec (encodeCursor 995) (decodeCursor 990) (decodeTraceCursor 990) (deepCursor 999) := by
  have hdepth := depth_deepCursor 999
  refine ⟨plainObj_deepCursor 999, ?_, ?_⟩
  · rw [encodeCursor, b64urlEncode, hdepth]
    rfl
  · intro hcodec
    obtain ⟨he, -⟩ :=
      (codec_cursor_iff (plainObj_deepCursor 999) (plain_deepCursor 999)).mp hcodec
    rw [hdepth] at he
    omega

/-! ### What a decoded cursor is made of -/

theorem asDict_eq_ok {msg : String} {v : Json} {fields : List (String × Json)} :
    asDict msg v = .ok fields ↔ v = .obj fields := by
  cases v <;> simp [asDict]

theorem cursorField_eq_ok {fields : List (String × Json)} {key : String} {v : Json} :
    cursorField fields key = .ok v ↔ Json.field? fields key = some v := by
  unfold cursorField
  cases Json.field? fields key <;> simp

/-- The filter of a decoded cursor is plain. -/
theorem plainObj_of_decodeCursor {d : Nat} {c : Cursor} {text : String}
    (h : decodeCursor d text = .ok c) : PlainObj c.filter := by
  simp only [decodeCursor, bind_eq_ok] at h
  obtain ⟨fields, hfields, _, _, _, _, _, _, _, _, filter, hfilter, _, _, _, _, _, _, _, _,
    entries, hentries, h⟩ := h
  cases h
  have hmem := Dict.mem_of_lookupIn (cursorField_eq_ok.mp hfilter)
  have hobj := (plainObj_of_b64urlDecode hfields).2 _ hmem
  rw [asDict_eq_ok.mp hentries] at hobj
  exact plain_obj.mp hobj

end ExecRestApi
