/-
Bytes as text: UTF-8, and the base64url alphabet.

Decoding base64 follows CPython's lenient decoder: characters outside the alphabet
are skipped, and a complete padding ends the input.  It is a fold over the text, so
the round trip is a statement about the decoder's state between groups of four.
-/
import Mathlib.Data.List.Basic

namespace Py

/-! ### UTF-8 -/

/-- The bytes of one character. -/
def utf8Char (c : Char) : List Nat :=
  let n := c.toNat
  if n < 0x80 then [n]
  else if n < 0x800 then [0xc0 + n / 0x40, 0x80 + n % 0x40]
  else if n < 0x10000 then [0xe0 + n / 0x1000, 0x80 + n / 0x40 % 0x40, 0x80 + n % 0x40]
  else [0xf0 + n / 0x40000, 0x80 + n / 0x1000 % 0x40, 0x80 + n / 0x40 % 0x40, 0x80 + n % 0x40]

/-- `s.encode("utf-8")` -/
def utf8Encode (cs : List Char) : List Nat := cs.flatMap utf8Char

/-- A continuation byte. -/
def isTail (b : Nat) : Bool := 0x80 ≤ b && b ≤ 0xbf

/-- `raw.decode("utf-8")`, `none` where it raises `UnicodeDecodeError`. -/
def utf8Decode : List Nat → Option (List Char)
  | [] => some []
  | a :: rest =>
      if a < 0x80 then (utf8Decode rest).map (Char.ofNat a :: ·)
      else match rest with
        | b :: rest₂ =>
            if 0xc2 ≤ a ∧ a ≤ 0xdf ∧ isTail b then
              (utf8Decode rest₂).map (Char.ofNat ((a - 0xc0) * 0x40 + (b - 0x80)) :: ·)
            else match rest₂ with
              | c :: rest₃ =>
                  -- no overlong forms, no surrogates
                  if 0xe0 ≤ a ∧ a ≤ 0xef ∧ isTail b ∧ isTail c ∧ (a = 0xe0 → 0xa0 ≤ b) ∧
                      (a = 0xed → b ≤ 0x9f) then
                    (utf8Decode rest₃).map
                      (Char.ofNat ((a - 0xe0) * 0x1000 + (b - 0x80) * 0x40 + (c - 0x80)) :: ·)
                  else match rest₃ with
                    | d :: rest₄ =>
                        if 0xf0 ≤ a ∧ a ≤ 0xf4 ∧ isTail b ∧ isTail c ∧ isTail d ∧
                            (a = 0xf0 → 0x90 ≤ b) ∧ (a = 0xf4 → b ≤ 0x8f) then
                          (utf8Decode rest₄).map
                            (Char.ofNat ((a - 0xf0) * 0x40000 + (b - 0x80) * 0x1000
                              + (c - 0x80) * 0x40 + (d - 0x80)) :: ·)
                        else none
                    | [] => none
              | [] => none
        | [] => none

/-- Whether `b` may follow the first byte `a` of a character: no overlong forms, no surrogates, and
nothing past the last code point. -/
def isSecond (a b : Nat) : Bool :=
  isTail b && (a != 0xe0 || 0xa0 ≤ b) && (a != 0xed || b ≤ 0x9f) && (a != 0xf0 || 0x90 ≤ b)
    && (a != 0xf4 || b ≤ 0x8f)

/-- U+FFFD -/
def replacement : Char := Char.ofNat 0xfffd

/-- `raw.decode("utf-8", errors="replace")`: every longest beginning of a character that is not
finished, and every other byte that is out of place, becomes one U+FFFD. -/
def utf8DecodeReplace : List Nat → List Char
  | [] => []
  | a :: rest =>
      if a < 0x80 then Char.ofNat a :: utf8DecodeReplace rest
      else match rest with
        | [] => [replacement]
        | b :: rest₂ =>
            if 0xc2 ≤ a ∧ a ≤ 0xf4 ∧ isSecond a b then
              if a ≤ 0xdf then
                Char.ofNat ((a - 0xc0) * 0x40 + (b - 0x80)) :: utf8DecodeReplace rest₂
              else match rest₂ with
                | [] => [replacement]
                | c :: rest₃ =>
                    if isTail c then
                      if a ≤ 0xef then
                        Char.ofNat ((a - 0xe0) * 0x1000 + (b - 0x80) * 0x40 + (c - 0x80))
                          :: utf8DecodeReplace rest₃
                      else match rest₃ with
                        | [] => [replacement]
                        | d :: rest₄ =>
                            if isTail d then
                              Char.ofNat ((a - 0xf0) * 0x40000 + (b - 0x80) * 0x1000
                                + (c - 0x80) * 0x40 + (d - 0x80)) :: utf8DecodeReplace rest₄
                            else replacement :: utf8DecodeReplace (d :: rest₄)
                    else replacement :: utf8DecodeReplace (c :: rest₃)
            else replacement :: utf8DecodeReplace (b :: rest₂)

/-- On ASCII text the codec is the identity on code points. -/
theorem utf8Decode_encode {cs : List Char} (h : ∀ c ∈ cs, c.toNat < 128) :
    utf8Decode (utf8Encode cs) = some cs := by
  induction cs with
  | nil => rfl
  | cons c cs ih =>
      have hc : c.toNat < 128 := h c (by simp)
      have hstep : utf8Encode (c :: cs) = c.toNat :: utf8Encode cs := by
        simp [utf8Encode, utf8Char, hc]
      rw [hstep, utf8Decode.eq_def]
      simp [hc, ih fun x hx => h x (List.mem_cons_of_mem _ hx)]

/-- A code point is no surrogate and below 0x110000. -/
theorem toNat_isScalar (c : Char) :
    c.toNat < 0xd800 ∨ 0xdfff < c.toNat ∧ c.toNat < 0x110000 := by
  have hvalid := c.valid
  simp only [UInt32.isValidChar, Nat.isValidChar] at hvalid
  exact hvalid

/-- The bytes of one character are read back as that character. -/
theorem utf8DecodeReplace_char (c : Char) (rest : List Nat) :
    utf8DecodeReplace (utf8Char c ++ rest) = c :: utf8DecodeReplace rest := by
  have hscalar := toNat_isScalar c
  have hback : ∀ n, n = c.toNat → Char.ofNat n = c := by
    intro n hn
    rw [hn, Char.ofNat_toNat]
  unfold utf8Char
  by_cases h1 : c.toNat < 0x80
  · simp only [if_pos h1, List.cons_append, List.nil_append]
    rw [utf8DecodeReplace.eq_def]
    simp only [if_pos h1, Char.ofNat_toNat]
  by_cases h2 : c.toNat < 0x800
  · simp only [if_neg h1, if_pos h2, List.cons_append, List.nil_append]
    rw [utf8DecodeReplace.eq_def]
    dsimp only
    have hsecond : 0xc2 ≤ 0xc0 + c.toNat / 0x40 ∧ 0xc0 + c.toNat / 0x40 ≤ 0xf4 ∧
        isSecond (0xc0 + c.toNat / 0x40) (0x80 + c.toNat % 0x40) = true := by
      simp only [isSecond, isTail, Bool.and_eq_true, Bool.or_eq_true, bne_iff_ne,
        decide_eq_true_eq]
      omega
    rw [if_neg (by omega)]
    simp only [if_pos hsecond]
    rw [if_pos (by omega), hback _ (by omega)]
  by_cases h3 : c.toNat < 0x10000
  · simp only [if_neg h1, if_neg h2, if_pos h3, List.cons_append, List.nil_append]
    rw [utf8DecodeReplace.eq_def]
    dsimp only
    have hsecond : 0xc2 ≤ 0xe0 + c.toNat / 0x1000 ∧ 0xe0 + c.toNat / 0x1000 ≤ 0xf4 ∧
        isSecond (0xe0 + c.toNat / 0x1000) (0x80 + c.toNat / 0x40 % 0x40) = true := by
      simp only [isSecond, isTail, Bool.and_eq_true, Bool.or_eq_true, bne_iff_ne,
        decide_eq_true_eq]
      omega
    have hthird : isTail (0x80 + c.toNat % 0x40) = true := by
      simp only [isTail, Bool.and_eq_true, decide_eq_true_eq]
      omega
    rw [if_neg (by omega)]
    simp only [if_pos hsecond]
    rw [if_neg (by omega)]
    simp only [if_pos hthird]
    rw [if_pos (by omega), hback _ (by omega)]
  · simp only [if_neg h1, if_neg h2, if_neg h3, List.cons_append, List.nil_append]
    rw [utf8DecodeReplace.eq_def]
    dsimp only
    have hsecond : 0xc2 ≤ 0xf0 + c.toNat / 0x40000 ∧ 0xf0 + c.toNat / 0x40000 ≤ 0xf4 ∧
        isSecond (0xf0 + c.toNat / 0x40000) (0x80 + c.toNat / 0x1000 % 0x40) = true := by
      simp only [isSecond, isTail, Bool.and_eq_true, Bool.or_eq_true, bne_iff_ne,
        decide_eq_true_eq]
      omega
    have hthird : isTail (0x80 + c.toNat / 0x40 % 0x40) = true := by
      simp only [isTail, Bool.and_eq_true, decide_eq_true_eq]
      omega
    have hfourth : isTail (0x80 + c.toNat % 0x40) = true := by
      simp only [isTail, Bool.and_eq_true, decide_eq_true_eq]
      omega
    rw [if_neg (by omega)]
    simp only [if_pos hsecond]
    rw [if_neg (by omega)]
    simp only [if_pos hthird]
    rw [if_neg (by omega)]
    simp only [if_pos hfourth]
    rw [hback _ (by omega)]

/-- **Text survives UTF-8**, and nothing of it is replaced. -/
theorem utf8DecodeReplace_encode (cs : List Char) : utf8DecodeReplace (utf8Encode cs) = cs := by
  induction cs with
  | nil => rfl
  | cons c cs ih =>
      show utf8DecodeReplace (utf8Char c ++ utf8Encode cs) = c :: cs
      rw [utf8DecodeReplace_char, ih]

/-- Every byte of a text is one. -/
theorem utf8Encode_byte (cs : List Char) : ∀ b ∈ utf8Encode cs, b < 256 := by
  intro b hb
  obtain ⟨c, -, hbc⟩ := List.mem_flatMap.mp hb
  have hscalar := toNat_isScalar c
  simp only [utf8Char] at hbc
  split_ifs at hbc <;> simp only [List.mem_cons, List.not_mem_nil, or_false] at hbc <;> omega

theorem utf8Encode_lt {cs : List Char} (h : ∀ c ∈ cs, c.toNat < 128) :
    ∀ b ∈ utf8Encode cs, b < 256 := by
  intro b hb
  obtain ⟨c, hc, hbc⟩ := List.mem_flatMap.mp hb
  have hlt := h c hc
  simp only [utf8Char, if_pos hlt, List.mem_singleton] at hbc
  omega

/-! ### base64url -/

/-- The digit for a value below 64. -/
def b64Char (n : Nat) : Char :=
  if n < 26 then Char.ofNat (65 + n)
  else if n < 52 then Char.ofNat (71 + n)
  else if n < 62 then Char.ofNat (n - 4)
  else if n = 62 then '-' else '_'

/-- The value of a base64 digit, in either alphabet. -/
def b64Val (c : Char) : Option Nat :=
  let n := c.toNat
  if 65 ≤ n ∧ n ≤ 90 then some (n - 65)
  else if 97 ≤ n ∧ n ≤ 122 then some (n - 71)
  else if 48 ≤ n ∧ n ≤ 57 then some (n + 4)
  else if c = '-' ∨ c = '+' then some 62
  else if c = '_' ∨ c = '/' then some 63
  else none

/-- `base64.urlsafe_b64encode(raw)` -/
def urlsafeB64encode : List Nat → List Char
  | [] => []
  | [a] => [b64Char (a / 4), b64Char (a % 4 * 16), '=', '=']
  | [a, b] => [b64Char (a / 4), b64Char (a % 4 * 16 + b / 16), b64Char (b % 16 * 4), '=']
  | a :: b :: c :: rest =>
      b64Char (a / 4) :: b64Char (a % 4 * 16 + b / 16) :: b64Char (b % 16 * 4 + c / 64)
        :: b64Char (c % 64) :: urlsafeB64encode rest

/-- The decoder between two characters. -/
structure B64State where
  /-- Digits of the current group. -/
  quad : Nat
  /-- Bits left over from the last digit. -/
  left : Nat
  pads : Nat
  /-- Bytes so far, newest first. -/
  out : List Nat
  /-- A complete padding was seen. -/
  stop : Bool

/-- One character of `binascii.a2b_base64`. -/
def b64Step (s : B64State) (c : Char) : B64State :=
  if s.stop then s
  else if c = '=' then
    if 2 ≤ s.quad then { s with pads := s.pads + 1, stop := decide (4 ≤ s.quad + s.pads + 1) }
    else s
  else match b64Val c with
    | none => s
    | some v =>
        match s.quad with
        | 0 => { s with quad := 1, left := v, pads := 0 }
        | 1 => { s with quad := 2, left := v % 16, pads := 0, out := (s.left * 4 + v / 16) :: s.out }
        | 2 => { s with quad := 3, left := v % 4, pads := 0, out := (s.left * 16 + v / 4) :: s.out }
        | _ => { s with quad := 0, left := 0, pads := 0, out := (s.left * 64 + v) :: s.out }

/-- `base64.urlsafe_b64decode(text)`, `none` where it raises (`binascii.Error`, or
`ValueError` for a character outside ASCII). -/
def urlsafeB64decode (cs : List Char) : Option (List Nat) :=
  if cs.all fun c => c.toNat < 128 then
    let s := cs.foldl b64Step ⟨0, 0, 0, [], false⟩
    if s.stop || s.quad == 0 then some s.out.reverse else none
  else none

/-- `s.rstrip("=")` -/
def rstripPad (cs : List Char) : List Char := (cs.reverse.dropWhile (· == '=')).reverse

/-- `"=" * (-len(s) % 4)` -/
def padding (cs : List Char) : List Char := List.replicate ((4 - cs.length % 4) % 4) '='

theorem b64Val_b64Char {n : Nat} (h : n < 64) : b64Val (b64Char n) = some n := by
  revert n
  decide

theorem b64Char_spec {n : Nat} (h : n < 64) :
    b64Char n ≠ '=' ∧ (b64Char n).toNat < 128 ∧
      ((b64Char n).isAlphanum ∨ b64Char n = '-' ∨ b64Char n = '_') := by
  revert n
  decide

/-- Without its padding the encoding of a text is one digit list; `urlsafeB64encode` is that
list with the padding put back. -/
def digits64 : List Nat → List Char
  | [] => []
  | [a] => [b64Char (a / 4), b64Char (a % 4 * 16)]
  | [a, b] => [b64Char (a / 4), b64Char (a % 4 * 16 + b / 16), b64Char (b % 16 * 4)]
  | a :: b :: c :: rest =>
      b64Char (a / 4) :: b64Char (a % 4 * 16 + b / 16) :: b64Char (b % 16 * 4 + c / 64)
        :: b64Char (c % 64) :: digits64 rest

theorem urlsafeB64encode_eq : ∀ bs : List Nat,
    urlsafeB64encode bs = digits64 bs ++ padding (digits64 bs)
  | [] => rfl
  | [_] => rfl
  | [_, _] => rfl
  | a :: b :: c :: rest => by
      have hlen : padding (digits64 (a :: b :: c :: rest)) = padding (digits64 rest) := by
        simp [padding, digits64, Nat.add_assoc]
      rw [hlen, urlsafeB64encode, digits64, urlsafeB64encode_eq rest]
      rfl

theorem mem_digits64 : ∀ (bs : List Nat), (∀ b ∈ bs, b < 256) → ∀ c ∈ digits64 bs,
    ∃ n, n < 64 ∧ c = b64Char n
  | [], _, c, hc => by simp [digits64] at hc
  | [a], h, c, hc => by
      have ha : a < 256 := h a (by simp)
      simp only [digits64, List.mem_cons, List.not_mem_nil, or_false] at hc
      rcases hc with rfl | rfl
      · exact ⟨_, by omega, rfl⟩
      · exact ⟨_, by omega, rfl⟩
  | [a, b], h, c, hc => by
      have ha : a < 256 := h a (by simp)
      have hb : b < 256 := h b (by simp)
      simp only [digits64, List.mem_cons, List.not_mem_nil, or_false] at hc
      rcases hc with rfl | rfl | rfl
      · exact ⟨_, by omega, rfl⟩
      · exact ⟨_, by omega, rfl⟩
      · exact ⟨_, by omega, rfl⟩
  | a :: b :: e :: rest, h, c, hc => by
      have ha : a < 256 := h a (by simp)
      have hb : b < 256 := h b (by simp)
      have he : e < 256 := h e (by simp)
      simp only [digits64, List.mem_cons] at hc
      rcases hc with rfl | rfl | rfl | rfl | hc
      · exact ⟨_, by omega, rfl⟩
      · exact ⟨_, by omega, rfl⟩
      · exact ⟨_, by omega, rfl⟩
      · exact ⟨_, by omega, rfl⟩
      · exact mem_digits64 rest (fun x hx => h x (by simp [hx])) c hc

/-- Stripping the padding leaves the digits. -/
theorem rstripPad_encode {bs : List Nat} (h : ∀ b ∈ bs, b < 256) :
    rstripPad (urlsafeB64encode bs) = digits64 bs := by
  have hne : ∀ c ∈ (digits64 bs).reverse, (c == '=') = false := by
    intro c hc
    obtain ⟨n, hn, rfl⟩ := mem_digits64 bs h c (List.mem_reverse.mp hc)
    simpa using (b64Char_spec hn).1
  have hdrop : ∀ (k : Nat) (l : List Char), (∀ c ∈ l, (c == '=') = false) →
      (List.replicate k '=' ++ l).dropWhile (· == '=') = l := by
    intro k l hl
    induction k with
    | zero =>
        rcases l with _ | ⟨c, l⟩
        · rfl
        · simp [hl c (by simp)]
    | succ k ih => simpa [List.replicate_succ] using ih
  rw [rstripPad, urlsafeB64encode_eq, padding, List.reverse_append, List.reverse_replicate,
    hdrop _ _ hne, List.reverse_reverse]

/-! ### Round trip -/

section

variable {n left pads : Nat} {out : List Nat}

theorem b64Step_first (hn : n < 64) :
    b64Step ⟨0, left, pads, out, false⟩ (b64Char n) = ⟨1, n, 0, out, false⟩ := by
  simp [b64Step, (b64Char_spec hn).1, b64Val_b64Char hn]

theorem b64Step_second (hn : n < 64) :
    b64Step ⟨1, left, pads, out, false⟩ (b64Char n)
      = ⟨2, n % 16, 0, (left * 4 + n / 16) :: out, false⟩ := by
  simp [b64Step, (b64Char_spec hn).1, b64Val_b64Char hn]

theorem b64Step_third (hn : n < 64) :
    b64Step ⟨2, left, pads, out, false⟩ (b64Char n)
      = ⟨3, n % 4, 0, (left * 16 + n / 4) :: out, false⟩ := by
  simp [b64Step, (b64Char_spec hn).1, b64Val_b64Char hn]

theorem b64Step_fourth (hn : n < 64) :
    b64Step ⟨3, left, pads, out, false⟩ (b64Char n)
      = ⟨0, 0, 0, (left * 64 + n) :: out, false⟩ := by
  simp [b64Step, (b64Char_spec hn).1, b64Val_b64Char hn]

end

/-- The decoder over a whole encoding, from between two groups. -/
theorem foldl_encode : ∀ (bs : List Nat), (∀ b ∈ bs, b < 256) → ∀ out : List Nat,
    let s := (urlsafeB64encode bs).foldl b64Step ⟨0, 0, 0, out, false⟩
    s.out = bs.reverse ++ out ∧ (s.stop = true ∨ s.quad = 0)
  | [], _, out => by simp [urlsafeB64encode]
  | [a], h, out => by
      have ha : a < 256 := h a (by simp)
      simp only [urlsafeB64encode, List.foldl_cons, List.foldl_nil]
      rw [b64Step_first (by omega), b64Step_second (by omega)]
      refine ⟨?_, Or.inl rfl⟩
      simp [b64Step]
      omega
  | [a, b], h, out => by
      have ha : a < 256 := h a (by simp)
      have hb : b < 256 := h b (by simp)
      simp only [urlsafeB64encode, List.foldl_cons, List.foldl_nil]
      rw [b64Step_first (by omega), b64Step_second (by omega), b64Step_third (by omega)]
      refine ⟨?_, Or.inl rfl⟩
      simp [b64Step]
      omega
  | a :: b :: c :: rest, h, out => by
      have ha : a < 256 := h a (by simp)
      have hb : b < 256 := h b (by simp)
      have hc : c < 256 := h c (by simp)
      have hrest : ∀ x ∈ rest, x < 256 := fun x hx => h x (by simp [hx])
      simp only [urlsafeB64encode, List.foldl_cons]
      rw [b64Step_first (by omega), b64Step_second (by omega), b64Step_third (by omega),
        b64Step_fourth (by omega)]
      have h₁ : a / 4 * 4 + (a % 4 * 16 + b / 16) / 16 = a := by omega
      have h₂ : (a % 4 * 16 + b / 16) % 16 * 16 + (b % 16 * 4 + c / 64) / 4 = b := by omega
      have h₃ : (b % 16 * 4 + c / 64) % 4 * 64 + c % 64 = c := by omega
      have ih := foldl_encode rest hrest (c :: b :: a :: out)
      simpa only [h₁, h₂, h₃, List.reverse_cons, List.append_assoc, List.cons_append,
        List.nil_append] using ih

/-- **Decoding an encoding, with its padding stripped and put back.** -/
theorem urlsafeB64decode_encode {bs : List Nat} (h : ∀ b ∈ bs, b < 256) :
    let text := rstripPad (urlsafeB64encode bs)
    urlsafeB64decode (text ++ padding text) = some bs := by
  intro text
  have htext : text ++ padding text = urlsafeB64encode bs := by
    show rstripPad _ ++ padding (rstripPad _) = _
    rw [rstripPad_encode h, ← urlsafeB64encode_eq]
  have hascii : (urlsafeB64encode bs).all (fun c => c.toNat < 128) = true := by
    rw [urlsafeB64encode_eq, List.all_append, Bool.and_eq_true]
    constructor
    · rw [List.all_eq_true]
      intro c hc
      obtain ⟨n, hn, rfl⟩ := mem_digits64 bs h c hc
      simpa using (b64Char_spec hn).2.1
    · simp [padding, List.all_replicate]
  obtain ⟨hout, hstop⟩ := foldl_encode bs h []
  rw [htext, urlsafeB64decode, if_pos hascii]
  simp only [hout, List.append_nil, List.reverse_reverse]
  rw [if_pos]
  rcases hstop with hs | hq
  · simp [hs]
  · simp [hq]

end Py
