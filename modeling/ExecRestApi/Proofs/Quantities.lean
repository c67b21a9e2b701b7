/-
Quantities keep their value across the boundary.

The upstream writes a quantity in hexadecimal, and a client reads and writes it in decimal.  Every
converter reads the digits of one of the two, and what is printed is the one spelling without
leading zeros, so that there and back is the same number.

`Survives` has the ways into the upstream and the ways out of it for one number, and
`RefusesText` what becomes of a text that is no spelling of any.  Both are about all natural
numbers: no width is assumed of them, but for the digits that `int` and `str` can take.
-/
import ExecRestApi.Lib.DecimalText
import ExecRestApi.Model.CallRequest

namespace ExecRestApi

open Py

/-! ### Spellings

A number has many spellings in hexadecimal, of either case and with leading zeros, and one that
is minimal.  The same goes for decimal spellings.
-/

/-- A hexadecimal spelling of a number, in either case and with any zeros in front. -/
structure HexOf (n : Nat) (h : String) : Prop where
  grammar : hexRe h.toList = true
  value : foldDigits 16 0 (h.toList.drop 2) = n

/-- A decimal spelling of a number, with any zeros in front, that is not too long to be read. -/
structure DecimalOf (n : Nat) (d : String) : Prop where
  grammar : decimalRe d.toList = true
  length : d.toList.length ≤ maxStrDigits
  value : foldDigits 10 0 d.toList = n

/-- The spelling in lower case without zeros in front. -/
structure MinimalHexOf (n : Nat) (h : String) : Prop extends HexOf n h where
  lower : ∀ c ∈ h.toList.drop 2, c ∈ "0123456789abcdef".toList
  minimal : (h.toList.drop 2).head? = some '0' → h.toList.drop 2 = ['0']

/-- The decimal spelling without zeros in front. -/
structure CanonicalDecimalOf (n : Nat) (d : String) : Prop where
  grammar : decimalRe d.toList = true
  value : foldDigits 10 0 d.toList = n
  minimal : d.toList.head? = some '0' → d.toList = ['0']

section

variable {n : Nat}

theorem eq_of_hexRe {cs : List Char} (h : hexRe cs = true) :
    ∃ ds, cs = '0' :: 'x' :: ds ∧ ds ≠ [] ∧ ∀ c ∈ ds, isHex c = true := by
  unfold hexRe at h
  split at h
  · rename_i c cs
    exact ⟨c :: cs, rfl, by simp, List.all_eq_true.mp h⟩
  · cases h

/-- The digits in lower case are those that are printed. -/
theorem mem_lowerDigits_iff {c : Char} :
    c ∈ "0123456789abcdef".toList ↔ ∃ d < 16, c = d.digitChar := by
  have hdigits : "0123456789abcdef".toList = (List.range 16).map Nat.digitChar := by decide +kernel
  rw [hdigits, List.mem_map]
  simp only [List.mem_range, eq_comm]

/-- **There is one minimal spelling, and it is printed.** -/
theorem minimalHexOf_iff {h : String} : MinimalHexOf n h ↔ h = toHex n := by
  constructor
  · intro hmin
    obtain ⟨ds, hds, hne, -⟩ := eq_of_hexRe hmin.grammar
    have hvalue := hmin.value
    have hlower := hmin.lower
    have hminimal := hmin.minimal
    rw [hds] at hvalue hlower hminimal
    have hdigits : ∀ c ∈ ds, ∃ d < 16, c = d.digitChar :=
      fun c hc => mem_lowerDigits_iff.mp (hlower c hc)
    have hprinted := toDigits_foldDigits (by decide) (by decide) hne hdigits hminimal
    rw [toHex, ← hvalue, List.drop_succ_cons, List.drop_succ_cons, List.drop_zero, hprinted, ← hds,
      String.ofList_toList]
  · rintro rfl
    have hvalue : foldDigits 16 0 ((toHex n).toList.drop 2) = n := by
      rw [toList_toHex]
      exact foldDigits_toDigits (by decide) (by decide) n
    refine ⟨⟨hexRe_toHex n, hvalue⟩, ?_, ?_⟩
    · rw [toList_toHex]
      exact forall_mem_toDigits (by decide) (by decide) n
    · rw [toList_toHex]
      intro hzero
      rw [show n = 0 from head_toDigits_eq_zero (by decide) hzero]
      rfl

theorem decimalRe_intText : decimalRe (intText n) = true := by
  rw [intText_natCast]
  unfold decimalRe
  rw [Bool.and_eq_true, List.all_eq_true]
  exact ⟨by simp [Nat.toDigits_ne_nil], fun c hc => isDecimal_of_mem_toDigits hc⟩

/-- **There is one canonical decimal spelling, and it is printed.** -/
theorem canonicalDecimalOf_iff {d : String} :
    CanonicalDecimalOf n d ↔ d = String.ofList (intText n) := by
  constructor
  · intro hcanonical
    obtain ⟨hne, hdigits⟩ : d.toList ≠ [] ∧ ∀ c ∈ d.toList, isDecimal c = true := by
      simpa [decimalRe] using hcanonical.grammar
    have hchars : ∀ c ∈ d.toList, ∃ k < 10, c = k.digitChar := fun c hc =>
      eq_digitChar_of_isDecimal (hdigits c hc)
    have hprinted := toDigits_foldDigits (by decide) (by decide) hne hchars hcanonical.minimal
    rw [intText_natCast, ← hcanonical.value, hprinted, String.ofList_toList]
  · rintro rfl
    refine ⟨?_, ?_, ?_⟩
    · rw [String.toList_ofList]
      exact decimalRe_intText
    · rw [String.toList_ofList, intText_natCast]
      exact foldDigits_toDigits (by decide) (by decide) n
    · rw [String.toList_ofList, intText_natCast]
      intro hzero
      rw [show n = 0 from head_toDigits_eq_zero (by decide) hzero]
      rfl

/-! ### What the converters make of a spelling

The digits are read by one fold, in one base or the other.  There is a lemma for each
converter, and each says which number it makes of a spelling.
-/

theorem hexToInt_of_hexOf {h : String} (hh : HexOf n h) : hexToInt (.str h) = .ok n := by
  unfold hexToInt
  dsimp only
  rw [if_pos hh.grammar, hh.value]

theorem weiFromRpc_of_hexOf (hfits : strFits n = true) {h : String} (hh : HexOf n h) :
    weiFromRpc (.str h) = .ok (String.ofList (intText n)) := by
  unfold weiFromRpc
  rw [hexToInt_of_hexOf hh]
  exact if_pos hfits

/-- The text that is printed is a spelling that is read. -/
theorem decimalOf_intText (hfits : strFits n = true) : DecimalOf n (String.ofList (intText n)) := by
  refine ⟨?_, ?_, ?_⟩
  · rw [String.toList_ofList]
    exact decimalRe_intText
  · rw [String.toList_ofList, intText_natCast]
    exact length_toDigits_le_of_strFits hfits
  · rw [String.toList_ofList, intText_natCast]
    exact foldDigits_toDigits (by decide) (by decide) n

theorem intOfText_of_decimalOf {d : String} (hd : DecimalOf n d) : intOfText d = .ok (n : Int) := by
  obtain ⟨hne, hdigits⟩ : d.toList ≠ [] ∧ ∀ c ∈ d.toList, isDecimal c = true := by
    simpa [decimalRe] using hd.grammar
  have hint := int?_digits hne hdigits hd.length
  rw [String.ofList_toList, hd.value] at hint
  unfold intOfText
  rw [hint]
  rfl

/-- What a client may send for an amount: the number, or a spelling of it. -/
inductive InputOf (n : Nat) : Json → Prop where
  | number : InputOf n (.int n)
  | text {d : String} (hd : DecimalOf n d) : InputOf n (.str d)

theorem weiToRpc_of_inputOf {v : Json} (hv : InputOf n v) : weiToRpc v = .ok (toHex n) := by
  unfold weiToRpc
  cases hv with
  | number =>
      dsimp only
      rw [if_neg (by omega), formatHex_natCast]
  | text hd =>
      dsimp only
      rw [if_pos hd.grammar, intOfText_of_decimalOf hd]
      show Except.ok (formatHex n) = _
      rw [formatHex_natCast]

theorem parseInputWei_of_inputOf {v : Json} (hv : InputOf n v) : parseInputWei v = .ok (n : Int) := by
  unfold parseInputWei parseInputInt
  cases hv with
  | number => exact if_neg (by omega)
  | text hd =>
      dsimp only
      rw [if_pos hd.grammar, intOfText_of_decimalOf hd]

theorem inputWei_of_inputOf {v : Json} (hv : InputOf n v) : inputWei v = .ok (.str (toHex n)) := by
  unfold inputWei
  rw [parseInputWei_of_inputOf hv]
  show (decimalToHex n >>= fun s => pure (Json.str s)) = _
  rw [decimalToHex_natCast]
  rfl

/-- No text is in both grammars. -/
theorem not_hexRe_of_decimalRe {cs : List Char} (h : decimalRe cs = true) : hexRe cs ≠ true := by
  intro hhex
  obtain ⟨ds, rfl, -⟩ := eq_of_hexRe hhex
  have hx : isDecimal 'x' = true := List.all_eq_true.mp (Bool.and_eq_true _ _ ▸ h).2 'x' (by simp)
  cases hx

theorem coerceRpcInt_of_hexOf {h : String} (hh : HexOf n h) : coerceRpcInt (.str h) = .ok (n : Int) := by
  unfold coerceRpcInt
  dsimp only
  rw [if_pos hh.grammar, hh.value]

theorem coerceRpcInt_of_inputOf {v : Json} (hv : InputOf n v) : coerceRpcInt v = .ok (n : Int) := by
  unfold coerceRpcInt
  cases hv with
  | number => exact if_neg (by omega)
  | text hd =>
      dsimp only
      rw [if_neg (not_hexRe_of_decimalRe hd.grammar), if_pos hd.grammar,
        intOfText_of_decimalOf hd]

theorem field?_singleton (f k : String) (v : Json) :
    Json.field? [(f, v)] k = if f = k then some v else none := rfl

/-- Fields that are not there add nothing. -/
theorem foldlM_convertField_absent (convert : Json → Except Exc Json) {f : String} (v : Json)
    {keys : List String} (hf : f ∉ keys) (out : List (String × Json)) :
    keys.foldlM (convertField convert [(f, v)]) out = .ok out := by
  induction keys with
  | nil => rfl
  | cons k keys ih =>
      rw [List.mem_cons, not_or] at hf
      rw [List.foldlM_cons]
      unfold convertField
      rw [field?_singleton, if_neg hf.1]
      exact ih hf.2

/-- The one field that is there is added. -/
theorem foldlM_convertField_present {convert : Json → Except Exc Json} {f : String} {v x : Json}
    (hv : v ≠ .null) (hx : convert v = .ok x) {keys : List String} (hf : f ∈ keys)
    (hkeys : keys.Nodup) (out : List (String × Json)) :
    keys.foldlM (convertField convert [(f, v)]) out = .ok (Dict.setIn f x out) := by
  induction keys generalizing out with
  | nil => cases hf
  | cons k keys ih =>
      rw [List.nodup_cons] at hkeys
      rw [List.foldlM_cons]
      by_cases hk : f = k
      · have hfield : convertField convert [(f, v)] out k = .ok (Dict.setIn f x out) := by
          unfold convertField
          rw [field?_singleton, if_pos hk, ← hk]
          cases v with
          | null => exact absurd rfl hv
          | _ =>
              dsimp only
              rw [hx]
              rfl
        rw [hfield]
        exact foldlM_convertField_absent convert v (hk ▸ hkeys.1) _
      · have hfield : convertField convert [(f, v)] out k = .ok out := by
          unfold convertField
          rw [field?_singleton, if_neg hk]
        rw [hfield]
        exact ih ((List.mem_cons.mp hf).resolve_left hk) hkeys.2 out

/-- A call with one amount in it. -/
theorem callRequestToRpc_of_inputOf {v : Json} (hv : InputOf n v) {f : String}
    (hf : f ∈ intFields ++ weiFields) :
    callRequestToRpc lower (.obj [(f, v)]) = .ok ([(f, .str (toHex n))], "latest") := by
  have hquantity : inputQuantity v = .ok (.str (toHex n)) := inputWei_of_inputOf hv
  have hnull : v ≠ .null := by
    cases hv <;> nofun
  have hnumeric : convertNumeric [] [(f, v)] = .ok [(f, .str (toHex n))] := by
    show (intFields.foldlM (convertField inputQuantity [(f, v)]) [] >>= fun out =>
      weiFields.foldlM (convertField inputQuantity [(f, v)]) out) = _
    rw [← List.foldlM_append]
    exact foldlM_convertField_present hnull hquantity hf (by decide) []
  have hothers : ∀ k ∈ intFields ++ weiFields, k ∉ addressFields ∧ k ∉ bytesFields ∧
      k ≠ "accessList" ∧ k ≠ "stateOverrides" ∧ k ≠ "blockOverrides" ∧ k ≠ "at" := by decide
  obtain ⟨haddress, hbytes, hlist, hstate, hblock, hat⟩ := hothers f hf
  have haddresses : convertAddresses [] [(f, v)] = .ok [] :=
    foldlM_convertField_absent inputAddress v haddress []
  have hdata : ∀ out, convertBytes out [(f, v)] = .ok out :=
    foldlM_convertField_absent (inputBytes "data") v hbytes
  have hmissing : ∀ k, f ≠ k → Json.field? [(f, v)] k = none := fun k hk => if_neg hk
  have haccess : ∀ out, convertAccessList lower out [(f, v)] = .ok out := by
    intro out
    unfold convertAccessList
    rw [hmissing _ hlist]
    rfl
  have hstates : ∀ out, convertStateOverrides lower out [(f, v)] = .ok out := by
    intro out
    unfold convertStateOverrides
    rw [hmissing _ hstate]
    rfl
  have hblocks : ∀ out, convertBlockOverrides lower out [(f, v)] = .ok out := by
    intro out
    unfold convertBlockOverrides
    rw [hmissing _ hblock]
    rfl
  have hlatest : callAt [(f, v)] = .ok "latest" := by
    unfold callAt
    rw [hmissing _ hat]
    decide +kernel
  unfold callRequestToRpc callObject
  simp only [haddresses, hnumeric, hdata, haccess, hstates, hblocks, hlatest, bind,
    Except.bind, pure, Except.pure]

end

/-! ### There and back

Reading after printing is the identity on numbers, and printing after reading the one on
minimal spellings.
-/

/-- What becomes of a number `n` that the upstream spells `h`. -/
structure Survives (n : Nat) (h : String) : Prop where
  there : (decimalToHex n >>= fun s => hexToInt (.str s)) = .ok n
  minimal : ∀ s, (hexToInt (.str h) >>= fun m => decimalToHex m) = .ok s ↔ MinimalHexOf n s
  canonical : ∀ d, weiFromRpc (.str h) = .ok d ↔ CanonicalDecimalOf n d
  /-- What is read from the API may be sent back. -/
  input : ∀ d, weiFromRpc (.str h) = .ok d → InputOf n (.str d)
  wei : ∀ v, InputOf n v → ∀ s, weiToRpc v = .ok s ↔ MinimalHexOf n s
  parsed : ∀ v, InputOf n v →
    ∀ s, (parseInputWei v >>= fun m => decimalToHex m) = .ok s ↔ MinimalHexOf n s
  coerced : coerceRpcInt (.str h) = .ok (n : Int) ∧ ∀ v, InputOf n v → coerceRpcInt v = .ok (n : Int)
  /-- In a call it reaches the upstream as the same quantity. -/
  called : ∀ v, InputOf n v → ∀ f ∈ intFields ++ weiFields, ∃ s, MinimalHexOf n s ∧
    callRequestToRpc lower (.obj [(f, v)]) = .ok ([(f, .str s)], "latest")

/-- Text that is not in the grammar a function reads is refused with `EncodingError`. -/
structure RefusesText (s : String) : Prop where
  hex : hexRe s.toList ≠ true → ∃ msg, hexToInt (.str s) = .error (.encodingError msg) ∧
    weiFromRpc (.str s) = .error (.encodingError msg)
  decimal : decimalRe s.toList ≠ true →
    (∃ msg, weiToRpc (.str s) = .error (.encodingError msg)) ∧
    ∃ msg, parseInputInt (.str s) = .error (.encodingError msg)
  either : hexRe s.toList ≠ true → decimalRe s.toList ≠ true →
    ∃ msg, coerceRpcInt (.str s) = .error (.encodingError msg)

theorem ok_iff_minimalHexOf {n : Nat} {x : Except Exc String} (h : x = .ok (toHex n)) (s : String) :
    x = .ok s ↔ MinimalHexOf n s := by
  rw [h, minimalHexOf_iff]
  constructor
  · intro heq
    injection heq with heq
    exact heq.symm
  · rintro rfl
    rfl

theorem survives {n : Nat} (hfits : strFits n = true) {h : String} (hh : HexOf n h) :
    Survives n h where
  there := by
    rw [decimalToHex_natCast]
    exact hexToInt_toHex n
  minimal := by
    refine ok_iff_minimalHexOf ?_
    rw [hexToInt_of_hexOf hh]
    exact decimalToHex_natCast n
  canonical := by
    intro d
    rw [weiFromRpc_of_hexOf hfits hh, canonicalDecimalOf_iff]
    constructor
    · intro heq
      injection heq with heq
      exact heq.symm
    · rintro rfl
      rfl
  input := by
    intro d hd
    rw [weiFromRpc_of_hexOf hfits hh] at hd
    injection hd with hd
    rw [← hd]
    exact .text (decimalOf_intText hfits)
  wei := fun _ hv => ok_iff_minimalHexOf (weiToRpc_of_inputOf hv)
  parsed := by
    refine fun v hv => ok_iff_minimalHexOf ?_
    rw [parseInputWei_of_inputOf hv]
    exact decimalToHex_natCast n
  coerced := ⟨coerceRpcInt_of_hexOf hh, fun _ hv => coerceRpcInt_of_inputOf hv⟩
  called := fun _ hv _ hf =>
    ⟨toHex n, minimalHexOf_iff.mpr rfl, callRequestToRpc_of_inputOf hv hf⟩

theorem refusesText (s : String) : RefusesText s where
  hex := by
    intro hs
    have hhex : hexToInt (.str s) = .error (.encodingError ⟨"expected 0x-prefixed hex, got ", some (.str s)⟩) :=
      if_neg hs
    refine ⟨_, hhex, ?_⟩
    unfold weiFromRpc
    rw [hhex]
    rfl
  decimal := fun hs => ⟨⟨_, if_neg hs⟩, ⟨_, if_neg hs⟩⟩
  either := by
    intro hhex hdecimal
    unfold coerceRpcInt
    dsimp only
    rw [if_neg hhex, if_neg hdecimal]
    exact ⟨_, rfl⟩

/-- **Quantities survive the boundary in both directions**, and text outside the grammars is
refused. -/
theorem quantities_survive :
    (∀ (n : Nat) (h : String), strFits n = true → HexOf n h → Survives n h) ∧
      ∀ s, RefusesText s :=
  ⟨fun _ _ hfits hh => survives hfits hh, refusesText⟩

/-- In upper case and with zeros in front. -/
theorem quantities_survive_255 : Survives 255 "0x00Ff" :=
  quantities_survive.1 255 "0x00Ff" (by decide +kernel) ⟨by decide +kernel, by decide +kernel⟩

end ExecRestApi
