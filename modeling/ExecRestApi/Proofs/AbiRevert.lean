/-
`decode_revert_data` is the ABI decoder for `Error(string)` and `Panic(uint256)`.

The source slices hexadecimal text, so its offsets count digits.  Here the data is described
in bytes: a selector of four bytes, and words and strings at byte offsets of the tail after
it.  `HasReason` and `HasPanic` say what such data holds, and the decoder returns exactly
that.  The standard encodings of a string and of a number are data of this form.

Nothing is assumed about the data.  What is not `0x` and hexadecimal digits, what has another
selector, and what points past its own end decodes to nothing, and that is stated as well: the
two equivalences of `decodeRevertData_exact` leave no input out.
-/
import ExecRestApi.Model.AbiRevert

namespace ExecRestApi

open Py

/-! ### Data in bytes -/

/-- The 32-byte word at byte offset `o`. -/
def wordAt (tail : List Char) (o : Nat) : Nat := foldDigits 16 0 ((tail.drop (2 * o)).take 64)

/-- The `l` bytes from byte offset `o` on. -/
def bytesAt (tail : List Char) (o l : Nat) : List Nat := fromHex ((tail.drop (2 * o)).take (2 * l))

/-- Whether `l` bytes from byte offset `o` on lie inside the tail. -/
def Inside (tail : List Char) (o l : Nat) : Prop := 2 * (o + l) ≤ tail.length

/-- `data` is `0x` and digits of either case: four bytes of `selector`, and the tail. -/
def HasSelector (data : Json) (selector : List Nat) (tail : List Char) : Prop :=
  ∃ head, data = .str (String.ofList ('0' :: 'x' :: (head ++ tail))) ∧
    (∀ c ∈ head ++ tail, isHex c = true) ∧ head.length = 8 ∧ fromHex head = selector

/-- An `Error(string)`: the first word is the offset of a word, the length of the text that
follows it. -/
def HasReason (data : Json) (s : String) : Prop :=
  ∃ tail, HasSelector data [0x08, 0xc3, 0x79, 0xa0] tail ∧ 128 ≤ tail.length ∧
    let o := wordAt tail 0
    let l := wordAt tail o
    Inside tail o 32 ∧ l ≤ 2 ^ 20 ∧ Inside tail (o + 32) l ∧
      s = String.ofList (utf8DecodeReplace (bytesAt tail (o + 32) l))

/-- A `Panic(uint256)`: one word. -/
def HasPanic (data : Json) (n : Nat) : Prop :=
  ∃ tail, HasSelector data [0x4e, 0x48, 0x7b, 0x71] tail ∧ 64 ≤ tail.length ∧ n = wordAt tail 0

/-! ### The decoder on such data

The two selectors are told apart in lower case, so the digits of a selector are compared as
bytes (`lower_eq_selector`).  From there on the tail decides: `decodeErrorString_eq_some` reads
the bounds on digits that the source checks as bounds on bytes.
-/

theorem hexDataDigits_eq_some {s : String} {cs : List Char} :
    hexDataDigits s = some cs ↔
      s = String.ofList ('0' :: 'x' :: cs) ∧ ∀ c ∈ cs, isHex c = true := by
  unfold hexDataDigits
  constructor
  · intro h
    split at h
    · rename_i ds hs
      split_ifs at h with hall
      cases h
      exact ⟨by rw [← String.ofList_toList (s := s), hs], List.all_eq_true.mp hall⟩
    · cases h
  · rintro ⟨rfl, hall⟩
    rw [String.toList_ofList]
    simp only [List.all_eq_true.mpr hall, if_true]

theorem revertDigits_eq_some {data : Json} {cs : List Char} :
    revertDigits data = some cs ↔
      data = .str (String.ofList ('0' :: 'x' :: cs)) ∧ ∀ c ∈ cs, isHex c = true := by
  cases data <;> simp [revertDigits, hexDataDigits_eq_some]

/-- Eight digits are a selector in either case exactly if they are its bytes. -/
theorem lower_eq_selector {head ds : List Char} (hhead : ∀ c ∈ head, isHex c = true)
    (hlen : head.length = 8) (hds : ∀ c ∈ ds, isHex c = true) (hdlen : ds.length = 8)
    (hlower : lower (String.ofList ds) = String.ofList ds) :
    lower (String.ofList head) = String.ofList ds ↔ fromHex head = fromHex ds := by
  rw [← hlower, lower_hex_eq_iff hhead hds]
  constructor
  · intro h
    exact fromHex_eq_of_digits h
  · intro h
    exact fromHex_injective (by rw [hlen, hdlen]) (by rw [hlen]) h

/-- What the decoder goes through, in terms of the selector. -/
theorem decodeRevertData_of_selector {data : Json} {selector : List Nat} {tail : List Char}
    (h : HasSelector data selector tail) :
    decodeRevertData data =
      if selector = [0x08, 0xc3, 0x79, 0xa0] then (decodeErrorString tail, none)
      else if selector = [0x4e, 0x48, 0x7b, 0x71] then (none, decodePanicUint tail)
      else (none, none) := by
  obtain ⟨head, hdata, hhex, hlen, hsel⟩ := h
  have hhead : ∀ c ∈ head, isHex c = true := fun c hc => hhex c (List.mem_append_left _ hc)
  have herror := @lower_eq_selector head "08c379a0".toList hhead hlen
    (List.all_eq_true.mp (by decide)) rfl (by decide +kernel)
  have hpanic := @lower_eq_selector head "4e487b71".toList hhead hlen
    (List.all_eq_true.mp (by decide)) rfl (by decide +kernel)
  rw [hsel] at herror hpanic
  rw [String.ofList_toList] at herror hpanic
  unfold decodeRevertData
  rw [revertDigits_eq_some.mpr ⟨hdata, hhex⟩]
  have htake : (head ++ tail).take 8 = head := by rw [← hlen, List.take_left']; rfl
  have hdrop : (head ++ tail).drop 8 = tail := by rw [← hlen, List.drop_left']; rfl
  dsimp only
  rw [if_neg (by rw [List.length_append]; omega), htake, hdrop, errorSelector, panicSelector]
  simp only [herror, hpanic]
  rfl

/-- Whatever is decoded comes from data with one of the two selectors. -/
theorem selector_of_decodeRevertData {data : Json} (h : decodeRevertData data ≠ (none, none)) :
    ∃ selector tail, HasSelector data selector tail ∧
      (selector = [0x08, 0xc3, 0x79, 0xa0] ∨ selector = [0x4e, 0x48, 0x7b, 0x71]) := by
  cases hdigits : revertDigits data with
  | none =>
      rw [decodeRevertData, hdigits] at h
      exact absurd rfl h
  | some body =>
      obtain ⟨hdata, hhex⟩ := revertDigits_eq_some.mp hdigits
      by_cases hlen : body.length < 8
      · rw [decodeRevertData, hdigits] at h
        dsimp only at h
        rw [if_pos hlen] at h
        exact absurd rfl h
      · have hsel : HasSelector data (fromHex (body.take 8)) (body.drop 8) := by
          refine ⟨body.take 8, ?_, ?_, ?_, rfl⟩
          · rw [List.take_append_drop]
            exact hdata
          · rw [List.take_append_drop]
            exact hhex
          · rw [List.length_take]
            omega
        refine ⟨_, _, hsel, ?_⟩
        rw [decodeRevertData_of_selector hsel] at h
        by_contra hneither
        rw [not_or] at hneither
        rw [if_neg hneither.1, if_neg hneither.2] at h
        exact h rfl

/-- The reason of a tail, with offsets counted in bytes. -/
theorem decodeErrorString_eq_some {tail : List Char} {s : String} :
    decodeErrorString tail = some s ↔
      128 ≤ tail.length ∧ Inside tail (wordAt tail 0) 32 ∧ wordAt tail (wordAt tail 0) ≤ 2 ^ 20 ∧
        Inside tail (wordAt tail 0 + 32) (wordAt tail (wordAt tail 0)) ∧
        s = String.ofList (utf8DecodeReplace
          (bytesAt tail (wordAt tail 0 + 32) (wordAt tail (wordAt tail 0)))) := by
  have hword : ∀ o, wordAt tail o = foldDigits 16 0 ((tail.drop (o * 2)).take 64) := by
    intro o
    rw [wordAt, Nat.mul_comm]
  have hfirst : foldDigits 16 0 (tail.take 64) = wordAt tail 0 := rfl
  have hbytes : ∀ o l, fromHex ((tail.drop (o * 2 + 64)).take (l * 2)) = bytesAt tail (o + 32) l := by
    intro o l
    rw [bytesAt, show 2 * (o + 32) = o * 2 + 64 by omega, Nat.mul_comm l 2]
  unfold decodeErrorString
  simp only [hfirst, ← hword, hbytes, maxReasonBytes, Inside]
  split_ifs with h1 h2 h3 h4
  · simp only [false_iff]
    intro h
    omega
  · simp only [false_iff]
    intro h
    omega
  · simp only [false_iff]
    intro h
    omega
  · simp only [false_iff]
    intro h
    omega
  · rw [Option.some.injEq]
    constructor
    · intro h
      exact ⟨by omega, by omega, by omega, by omega, h.symm⟩
    · intro h
      exact h.2.2.2.2.symm

/-- **A reason is decoded exactly from an `Error(string)`.** -/
theorem decodeRevertData_reason {data : Json} {s : String} :
    decodeRevertData data = (some s, none) ↔ HasReason data s := by
  constructor
  · intro h
    have hne : decodeRevertData data ≠ (none, none) := by
      rw [h]
      simp
    obtain ⟨selector, tail, hsel, hcase⟩ := selector_of_decodeRevertData hne
    rw [decodeRevertData_of_selector hsel] at h
    rcases hcase with rfl | rfl
    · rw [if_pos rfl] at h
      injection h with h _
      exact ⟨tail, hsel, decodeErrorString_eq_some.mp h⟩
    · rw [if_neg (by decide), if_pos rfl] at h
      injection h with h _
      cases h
  · rintro ⟨tail, hsel, hreason⟩
    rw [decodeRevertData_of_selector hsel, if_pos rfl, decodeErrorString_eq_some.mpr hreason]

/-- **A panic code is decoded exactly from a `Panic(uint256)`.** -/
theorem decodeRevertData_panic {data : Json} {n : Nat} :
    decodeRevertData data = (none, some n) ↔ HasPanic data n := by
  constructor
  · intro h
    have hne : decodeRevertData data ≠ (none, none) := by
      rw [h]
      simp
    obtain ⟨selector, tail, hsel, hcase⟩ := selector_of_decodeRevertData hne
    rw [decodeRevertData_of_selector hsel] at h
    rcases hcase with rfl | rfl
    · rw [if_pos rfl] at h
      injection h with _ h
      cases h
    · rw [if_neg (by decide), if_pos rfl, decodePanicUint] at h
      split_ifs at h with hlen
      · injection h with _ h
        cases h
      · injection h with _ h
        injection h with h
        exact ⟨tail, hsel, by omega, h.symm⟩
  · rintro ⟨tail, hsel, hlen, rfl⟩
    rw [decodeRevertData_of_selector hsel, if_neg (by decide), if_pos rfl, decodePanicUint,
      if_neg (by omega)]
    rfl

/-- Nothing else is ever decoded. -/
theorem decodeRevertData_cases (data : Json) :
    (∃ s, decodeRevertData data = (some s, none)) ∨ (∃ n, decodeRevertData data = (none, some n)) ∨
      decodeRevertData data = (none, none) := by
  by_cases h : decodeRevertData data = (none, none)
  · exact .inr (.inr h)
  obtain ⟨selector, tail, hsel, hcase⟩ := selector_of_decodeRevertData h
  rw [decodeRevertData_of_selector hsel] at h ⊢
  rcases hcase with rfl | rfl
  · rw [if_pos rfl] at h ⊢
    cases hdec : decodeErrorString tail with
    | none =>
        rw [hdec] at h
        exact absurd rfl h
    | some s => exact .inl ⟨s, rfl⟩
  · rw [if_neg (by decide), if_pos rfl] at h ⊢
    cases hdec : decodePanicUint tail with
    | none =>
        rw [hdec] at h
        exact absurd rfl h
    | some n => exact .inr (.inl ⟨n, rfl⟩)

/-! ### The standard encodings

Here `HasReason` and `HasPanic` are met with: an encoder that writes the offset, the length,
the text and its padding writes data of that form, with whatever bytes after it.
-/

/-- `Error(string)` applied to `s`, with any bytes after it. -/
def abiError (s : String) (trailing : List Nat) : String :=
  let bytes := utf8Encode s.toList
  String.ofList ('0' :: 'x' :: (hexBytes [0x08, 0xc3, 0x79, 0xa0] ++ (hexWord 64 32
    ++ (hexWord 64 bytes.length ++ (hexBytes bytes
      ++ (hexBytes (List.replicate ((32 - bytes.length % 32) % 32) 0) ++ hexBytes trailing))))))

/-- `Panic(uint256)` applied to `n`, with any bytes after it. -/
def abiPanic (n : Nat) (trailing : List Nat) : String :=
  String.ofList ('0' :: 'x' :: (hexBytes [0x4e, 0x48, 0x7b, 0x71]
    ++ (hexWord 64 n ++ hexBytes trailing)))

/-- A word at the front of what is left at a byte offset. -/
theorem wordAt_of_drop {tail rest : List Char} {o n : Nat} (hn : n < 2 ^ 256)
    (h : tail.drop (2 * o) = hexWord 64 n ++ rest) : wordAt tail o = n := by
  have hlen : (hexWord 64 n).length = 64 := length_hexWord (by decide) (by
    rw [show (16 : Nat) ^ 64 = 2 ^ 256 by decide]
    exact hn)
  rw [wordAt, h, List.take_left' hlen, foldDigits_hexWord]

/-- **The standard encoding of a text decodes to it.** -/
theorem hasReason_abiError {s : String} {trailing : List Nat}
    (hs : (utf8Encode s.toList).length ≤ 2 ^ 20) (htrailing : ∀ b ∈ trailing, b < 256) :
    HasReason (.str (abiError s trailing)) s := by
  have hbytes := utf8Encode_byte s.toList
  generalize hpad : (hexBytes (List.replicate ((32 - (utf8Encode s.toList).length % 32) % 32) 0)
    ++ hexBytes trailing) = pad
  have hpadHex : ∀ c ∈ pad, isHex c = true := by
    intro c hc
    rw [← hpad] at hc
    rcases List.mem_append.mp hc with hc | hc
    · refine isHex_hexBytes (fun b hb => ?_) c hc
      rw [List.eq_of_mem_replicate hb]
      decide
    · exact isHex_hexBytes htrailing c hc
  have hword : (hexWord 64 32).length = 64 := length_hexWord (by decide) (by decide)
  have hlenWord : (hexWord 64 (utf8Encode s.toList).length).length = 64 :=
    length_hexWord (by decide) (Nat.lt_of_le_of_lt hs (by decide))
  generalize htail : hexWord 64 32 ++ (hexWord 64 (utf8Encode s.toList).length
    ++ (hexBytes (utf8Encode s.toList) ++ pad)) = tail
  have hlength : tail.length = 128 + 2 * (utf8Encode s.toList).length + pad.length := by
    rw [← htail, List.length_append, List.length_append, List.length_append, hword, hlenWord,
      length_hexBytes]
    omega
  have hoffset : wordAt tail 0 = 32 := wordAt_of_drop (by decide) (by rw [← htail]; rfl)
  have hlen : wordAt tail 32 = (utf8Encode s.toList).length :=
    wordAt_of_drop (Nat.lt_of_le_of_lt hs (by decide)) (by rw [← htail, List.drop_left' hword])
  have hafter : tail.drop (2 * 64) = hexBytes (utf8Encode s.toList) ++ pad := by
    rw [← htail, ← List.append_assoc, List.drop_left']
    rw [List.length_append, hword, hlenWord]
  refine ⟨tail, ⟨hexBytes [0x08, 0xc3, 0x79, 0xa0], ?_, ?_, rfl, by decide⟩, by omega, ?_⟩
  · rw [abiError, ← htail, ← hpad]
  · intro c hc
    rcases List.mem_append.mp hc with hc | hc
    · exact isHex_hexBytes (by decide) c hc
    · rw [← htail] at hc
      simp only [List.mem_append] at hc
      rcases hc with hc | hc | hc | hc
      · exact isHex_hexWord _ _ c hc
      · exact isHex_hexWord _ _ c hc
      · exact isHex_hexBytes hbytes c hc
      · exact hpadHex c hc
  · simp only [hoffset, hlen, Inside, hlength]
    refine ⟨by omega, hs, by omega, ?_⟩
    rw [bytesAt, hafter, List.take_left' (length_hexBytes _), fromHex_hexBytes hbytes,
      utf8DecodeReplace_encode, String.ofList_toList]

/-- **The standard encoding of a panic code decodes to it.** -/
theorem hasPanic_abiPanic {n : Nat} {trailing : List Nat} (hn : n < 2 ^ 256)
    (htrailing : ∀ b ∈ trailing, b < 256) : HasPanic (.str (abiPanic n trailing)) n := by
  have hword : (hexWord 64 n).length = 64 := length_hexWord (by decide) (by
    rw [show (16 : Nat) ^ 64 = 2 ^ 256 by decide]
    exact hn)
  refine ⟨hexWord 64 n ++ hexBytes trailing,
    ⟨hexBytes [0x4e, 0x48, 0x7b, 0x71], rfl, ?_, rfl, by decide⟩, ?_, ?_⟩
  · intro c hc
    simp only [List.mem_append] at hc
    rcases hc with hc | hc | hc
    · exact isHex_hexBytes (by decide) c hc
    · exact isHex_hexWord _ _ c hc
    · exact isHex_hexBytes htrailing c hc
  · rw [List.length_append, hword]
    omega
  · exact (wordAt_of_drop hn rfl).symm

/-- **`decode_revert_data` is the ABI decoder** for `Error(string)` and `Panic(uint256)`: what it
returns, for all data; and the standard encodings decode to what they encode. -/
theorem decodeRevertData_exact (data : Json) :
    (∀ s, decodeRevertData data = (some s, none) ↔ HasReason data s) ∧
    (∀ n, decodeRevertData data = (none, some n) ↔ HasPanic data n) ∧
    ((∀ s, ¬ HasReason data s) → (∀ n, ¬ HasPanic data n) →
      decodeRevertData data = (none, none)) ∧
    (∀ s trailing, (utf8Encode s.toList).length ≤ 2 ^ 20 → (∀ b ∈ trailing, b < 256) →
      decodeRevertData (.str (abiError s trailing)) = (some s, none)) ∧
    (∀ n trailing, n < 2 ^ 256 → (∀ b ∈ trailing, b < 256) →
      decodeRevertData (.str (abiPanic n trailing)) = (none, some n)) := by
  refine ⟨fun s => decodeRevertData_reason, fun n => decodeRevertData_panic, ?_, ?_, ?_⟩
  · intro hreason hpanic
    rcases decodeRevertData_cases data with ⟨s, h⟩ | ⟨n, h⟩ | h
    · exact absurd (decodeRevertData_reason.mp h) (hreason s)
    · exact absurd (decodeRevertData_panic.mp h) (hpanic n)
    · exact h
  · intro s trailing hs htrailing
    exact decodeRevertData_reason.mpr (hasReason_abiError hs htrailing)
  · intro n trailing hn htrailing
    exact decodeRevertData_panic.mpr (hasPanic_abiPanic hn htrailing)

/-- A reason with a byte after it, a panic code, and no data at all. -/
theorem decodeRevertData_exact_samples :
    decodeRevertData .null = (none, none) ∧
    decodeRevertData (.str (abiError "é!" [7])) = (some "é!", none) ∧
    decodeRevertData (.str (abiPanic 17 [])) = (none, some 17) := by
  have hnone : ∀ selector tail, ¬ HasSelector .null selector tail := by
    rintro selector tail ⟨head, hdata, -⟩
    cases hdata
  refine ⟨(decodeRevertData_exact .null).2.2.1 ?_ ?_, ?_, ?_⟩
  · rintro s ⟨tail, hsel, -⟩
    exact hnone _ _ hsel
  · rintro n ⟨tail, hsel, -⟩
    exact hnone _ _ hsel
  · exact (decodeRevertData_exact .null).2.2.2.1 "é!" [7] (by decide) (by decide)
  · exact (decodeRevertData_exact .null).2.2.2.2 17 [] (by decide) (by decide)

end ExecRestApi
