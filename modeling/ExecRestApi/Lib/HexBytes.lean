/-
Bytes and words as hexadecimal text.

A byte is two digits and a word of `n` bytes is `2 * n` of them, most significant first.
Reading takes digits of either case; writing gives lower-case ones.
-/
import ExecRestApi.Lib.Text

namespace Py

/-! ### Bytes -/

/-- The value of a digit. -/
def digitOf (c : Char) : Nat := (hexVal c).getD 0

theorem digitOf_digitChar {d : Nat} (h : d < 16) : digitOf d.digitChar = d := by
  rw [digitOf, hexVal_digitChar h]
  rfl

/-- `bytes.fromhex` on an even number of hexadecimal digits. -/
def fromHex : List Char → List Nat
  | c :: d :: cs => (16 * digitOf c + digitOf d) :: fromHex cs
  | _ => []

/-- `bs.hex()` -/
def hexBytes (bs : List Nat) : List Char :=
  bs.flatMap fun b => [(b / 16).digitChar, (b % 16).digitChar]

@[simp] theorem hexBytes_cons (b : Nat) (bs : List Nat) :
    hexBytes (b :: bs) = (b / 16).digitChar :: (b % 16).digitChar :: hexBytes bs := rfl

theorem length_hexBytes (bs : List Nat) : (hexBytes bs).length = 2 * bs.length := by
  induction bs with
  | nil => rfl
  | cons b bs ih =>
      rw [hexBytes_cons, List.length_cons, List.length_cons, List.length_cons, ih]
      omega

theorem isHex_hexBytes {bs : List Nat} (h : ∀ b ∈ bs, b < 256) : ∀ c ∈ hexBytes bs, isHex c = true := by
  intro c hc
  obtain ⟨b, hb, hc⟩ := List.mem_flatMap.mp hc
  have hlt := h b hb
  simp only [List.mem_cons, List.not_mem_nil, or_false] at hc
  rcases hc with rfl | rfl
  · exact isHex_digitChar (by omega)
  · exact isHex_digitChar (by omega)

/-- Writing bytes and reading them back. -/
theorem fromHex_hexBytes {bs : List Nat} (h : ∀ b ∈ bs, b < 256) : fromHex (hexBytes bs) = bs := by
  induction bs with
  | nil => rfl
  | cons b bs ih =>
      have hb := h b (by simp)
      rw [hexBytes_cons, fromHex, ih fun x hx => h x (List.mem_cons_of_mem _ hx),
        digitOf_digitChar (by omega), digitOf_digitChar (by omega)]
      simp only [List.cons.injEq, and_true]
      omega

theorem digitOf_lt (c : Char) : digitOf c < 16 := by
  unfold digitOf hexVal
  split_ifs <;> simp <;> omega

/-- The bytes of digits are those of their values. -/
theorem fromHex_injective : ∀ {cs ds : List Char}, cs.length = ds.length → cs.length % 2 = 0 →
    fromHex cs = fromHex ds → cs.map digitOf = ds.map digitOf
  | [], [], _, _, _ => rfl
  | [_], [_], _, heven, _ => by simp at heven
  | c :: d :: cs, c' :: d' :: ds, hlen, heven, h => by
      simp only [fromHex, List.cons.injEq] at h
      have hc := digitOf_lt c
      have hd := digitOf_lt d
      have hc' := digitOf_lt c'
      have hd' := digitOf_lt d'
      simp only [List.length_cons] at hlen heven
      have htail := @fromHex_injective cs ds (by omega) (by omega) h.2
      rw [List.map_cons, List.map_cons, List.map_cons, List.map_cons, htail]
      simp only [List.cons.injEq, and_true]
      omega

theorem fromHex_eq_of_digits : ∀ {cs ds : List Char}, cs.map digitOf = ds.map digitOf →
    fromHex cs = fromHex ds
  | [], [], _ => rfl
  | [_], [_], _ => rfl
  | c :: d :: cs, c' :: d' :: ds, h => by
      simp only [List.map_cons, List.cons.injEq] at h
      rw [fromHex, fromHex, fromHex_eq_of_digits h.2.2, h.1, h.2.1]
  | [_], _ :: _ :: _, h => by simp at h
  | _ :: _ :: _, [_], h => by simp at h

/-! ### Words -/

/-- A number as `digits` digits, zeros in front. -/
def hexWord (digits n : Nat) : List Char :=
  List.replicate (digits - (Nat.toDigits 16 n).length) '0' ++ Nat.toDigits 16 n

theorem length_toDigits_le {digits n : Nat} (hpos : 0 < digits) (h : n < 16 ^ digits) :
    (Nat.toDigits 16 n).length ≤ digits :=
  (Nat.length_toDigits_le_iff (by decide) hpos).mpr h

theorem length_hexWord {digits n : Nat} (hpos : 0 < digits) (h : n < 16 ^ digits) :
    (hexWord digits n).length = digits := by
  have := length_toDigits_le hpos h
  rw [hexWord, List.length_append, List.length_replicate]
  omega

theorem isHex_hexWord (digits n : Nat) : ∀ c ∈ hexWord digits n, isHex c = true := by
  intro c hc
  rcases List.mem_append.mp hc with hc | hc
  · rw [List.eq_of_mem_replicate hc]
    decide
  · exact isHex_of_mem_toDigits hc

/-- Zeros in front do not count. -/
theorem foldDigits_replicate_zero (k : Nat) (cs : List Char) :
    foldDigits 16 0 (List.replicate k '0' ++ cs) = foldDigits 16 0 cs := by
  induction k with
  | zero => rfl
  | succ k ih =>
      rw [List.replicate_succ, List.cons_append, foldDigits_cons]
      exact ih

/-- Writing a word and reading it back. -/
theorem foldDigits_hexWord (digits n : Nat) : foldDigits 16 0 (hexWord digits n) = n := by
  rw [hexWord, foldDigits_replicate_zero, foldDigits_toDigits (by decide) (by decide)]

/-- More zeros in front make a longer word. -/
theorem replicate_append_hexWord {k digits n : Nat} (hle : k ≤ digits) (hpos : 0 < k)
    (h : n < 16 ^ k) : List.replicate (digits - k) '0' ++ hexWord k n = hexWord digits n := by
  have := length_toDigits_le hpos h
  unfold hexWord
  rw [← List.append_assoc, List.replicate_append_replicate]
  congr 2
  omega

theorem digitChar_hexWord (digits n : Nat) : ∀ c ∈ hexWord digits n, ∃ d < 16, c = d.digitChar := by
  intro c hc
  rcases List.mem_append.mp hc with hc | hc
  · exact ⟨0, by decide, List.eq_of_mem_replicate hc⟩
  · exact forall_mem_toDigits (by decide) (P := fun c => ∃ d < 16, c = d.digitChar)
      (fun d hd => ⟨d, hd, rfl⟩) n c hc

/-- **A word is the one text of its length that has its value.** -/
theorem eq_hexWord_iff {digits n : Nat} (hpos : 0 < digits) {cs : List Char} :
    (cs.length = digits ∧ (∀ c ∈ cs, ∃ d < 16, c = d.digitChar) ∧ foldDigits 16 0 cs = n) ↔
      n < 16 ^ digits ∧ cs = hexWord digits n := by
  constructor
  · rintro ⟨hlen, hcs, hvalue⟩
    have hlt : n < 16 ^ digits := by
      have hbound := foldDigits_lt cs (b := 16) (fun c hc => by
        obtain ⟨d, hd, rfl⟩ := hcs c hc
        rw [hexVal_digitChar hd]
        exact hd) 0
      rwa [hvalue, hlen, Nat.zero_add, Nat.one_mul] at hbound
    refine ⟨hlt, foldDigits_injective (by decide) ?_ hcs (digitChar_hexWord digits n) ?_⟩
    · rw [hlen, length_hexWord hpos hlt]
    · rw [hvalue, foldDigits_hexWord]
  · rintro ⟨hlt, rfl⟩
    exact ⟨length_hexWord hpos hlt, digitChar_hexWord digits n, foldDigits_hexWord digits n⟩

/-! ### Case -/

theorem toNat_lt_of_isHex {c : Char} (h : isHex c = true) : c.toNat < 128 := by
  unfold isHex hexVal at h
  split_ifs at h <;> simp at h <;> omega

/-- In lower case a digit is the digit of its value. -/
theorem lowerChar_of_isHex {c : Char} (h : isHex c = true) :
    lowerChar c = [(digitOf c).digitChar] := by
  have hsmall : ∀ n, n < 128 → isHex (Char.ofNat n) = true →
      lowerChar (Char.ofNat n) = [(digitOf (Char.ofNat n)).digitChar] := by decide
  have hc := hsmall c.toNat (toNat_lt_of_isHex h)
  rw [Char.ofNat_toNat] at hc
  exact hc h

theorem toList_lower_hex {cs : List Char} (h : ∀ c ∈ cs, isHex c = true) :
    (lower (String.ofList cs)).toList = cs.map fun c => (digitOf c).digitChar := by
  rw [lower, String.toList_ofList, String.toList_ofList]
  induction cs with
  | nil => rfl
  | cons c cs ih =>
      rw [List.flatMap_cons, lowerChar_of_isHex (h c (by simp)),
        ih fun x hx => h x (List.mem_cons_of_mem _ hx)]
      rfl

/-- Digits agree up to case exactly if they have the same values. -/
theorem lower_hex_eq_iff {cs ds : List Char} (hcs : ∀ c ∈ cs, isHex c = true)
    (hds : ∀ c ∈ ds, isHex c = true) :
    lower (String.ofList cs) = lower (String.ofList ds) ↔ cs.map digitOf = ds.map digitOf := by
  rw [← String.toList_inj, toList_lower_hex hcs, toList_lower_hex hds]
  constructor
  · intro h
    have hvals := congrArg (List.map digitOf) h
    have hback : ∀ l : List Char,
        (l.map fun c => (digitOf c).digitChar).map digitOf = l.map digitOf := by
      intro l
      rw [List.map_map]
      apply List.map_congr_left
      intro c _
      exact digitOf_digitChar (digitOf_lt c)
    rwa [hback, hback] at hvals
  · intro h
    have hchars := congrArg (List.map Nat.digitChar) h
    rw [List.map_map, List.map_map] at hchars
    exact hchars

/-- Reading does not see the case. -/
theorem foldDigits_eq_of_digits {cs ds : List Char} (h : cs.map digitOf = ds.map digitOf) (acc : Nat) :
    foldDigits 16 acc cs = foldDigits 16 acc ds := by
  have hfold : ∀ (l : List Char) (acc : Nat),
      foldDigits 16 acc l = (l.map digitOf).foldl (fun acc d => 16 * acc + d) acc := by
    intro l
    induction l with
    | nil => intro acc; rfl
    | cons c l ih =>
        intro acc
        rw [foldDigits_cons, ih]
        rfl
  rw [hfold, hfold, h]

/-- Digits of either case, put in lower case. -/
theorem lower_eq_hexWord {cs : List Char} (hne : cs ≠ []) (h : ∀ c ∈ cs, isHex c = true) :
    (lower (String.ofList cs)).toList = hexWord cs.length (foldDigits 16 0 cs) := by
  have hmap := toList_lower_hex h
  refine ((eq_hexWord_iff (List.length_pos_iff.mpr hne)).mp ⟨?_, ?_, ?_⟩).2
  · rw [hmap, List.length_map]
  · rw [hmap]
    intro c hc
    obtain ⟨x, -, rfl⟩ := List.mem_map.mp hc
    exact ⟨digitOf x, digitOf_lt x, rfl⟩
  · rw [hmap]
    refine foldDigits_eq_of_digits ?_ 0
    rw [List.map_map]
    exact List.map_congr_left fun c _ => digitOf_digitChar (digitOf_lt c)

theorem lower_prefixed {cs : List Char} (hne : cs ≠ []) (h : ∀ c ∈ cs, isHex c = true) :
    lower (String.ofList ('0' :: 'x' :: cs))
      = String.ofList ('0' :: 'x' :: hexWord cs.length (foldDigits 16 0 cs)) := by
  have hword := lower_eq_hexWord hne h
  rw [lower, String.toList_ofList, String.toList_ofList] at hword
  rw [lower, String.toList_ofList, List.flatMap_cons, List.flatMap_cons, hword]
  rfl

end Py
