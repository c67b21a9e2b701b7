/-
Numbers as text, the way Python reads and writes them.

`int(s, 16)` and `f"{n:x}"` have no length limit; `int(s)` and `str(n)` refuse
anything longer than `maxStrDigits` decimal digits.  Both directions are one fold
over the digits, so the round trips are a single induction on the number.
-/
import Mathlib.Data.Nat.Digits.Defs
import Mathlib.Data.List.Basic
import Mathlib.Data.List.Induction

namespace Py

/-! ### Digits -/

/-- The value of a hexadecimal digit of either case. -/
def hexVal (c : Char) : Option Nat :=
  if 48 ≤ c.toNat ∧ c.toNat ≤ 57 then some (c.toNat - 48)
  else if 97 ≤ c.toNat ∧ c.toNat ≤ 102 then some (c.toNat - 87)
  else if 65 ≤ c.toNat ∧ c.toNat ≤ 70 then some (c.toNat - 55)
  else none

/-- `[0-9a-fA-F]` -/
def isHex (c : Char) : Bool := (hexVal c).isSome

/-- `[0-9]` -/
def isDecimal (c : Char) : Bool := 48 ≤ c.toNat && c.toNat ≤ 57

/-- A digit string read most significant digit first. -/
def foldDigits (b acc : Nat) (cs : List Char) : Nat :=
  cs.foldl (fun acc c => b * acc + (hexVal c).getD 0) acc

@[simp] theorem foldDigits_nil (b acc : Nat) : foldDigits b acc [] = acc := rfl

@[simp] theorem foldDigits_cons (b acc : Nat) (c : Char) (cs : List Char) :
    foldDigits b acc (c :: cs) = foldDigits b (b * acc + (hexVal c).getD 0) cs := rfl

theorem foldDigits_append (b acc : Nat) (cs ds : List Char) :
    foldDigits b acc (cs ++ ds) = foldDigits b (foldDigits b acc cs) ds := by
  simp [foldDigits, List.foldl_append]

/-- Digits in base `b` make a number below that power of `b`. -/
theorem foldDigits_lt {b : Nat} (cs : List Char) (h : ∀ c ∈ cs, (hexVal c).getD 0 < b) :
    ∀ acc, foldDigits b acc cs < (acc + 1) * b ^ cs.length := by
  induction cs with
  | nil => intro acc; simp
  | cons c cs ih =>
      intro acc
      have hc := h c (by simp)
      have hrest := ih (fun x hx => h x (List.mem_cons_of_mem _ hx)) (b * acc + (hexVal c).getD 0)
      have hstep : b * acc + (hexVal c).getD 0 + 1 ≤ b * (acc + 1) := by
        rw [Nat.mul_succ]
        omega
      rw [foldDigits_cons, List.length_cons, Nat.pow_succ]
      calc foldDigits b (b * acc + (hexVal c).getD 0) cs
          < (b * acc + (hexVal c).getD 0 + 1) * b ^ cs.length := hrest
        _ ≤ (b * (acc + 1)) * b ^ cs.length := Nat.mul_le_mul_right _ hstep
        _ = (acc + 1) * (b ^ cs.length * b) := by
            rw [Nat.mul_comm b (acc + 1), Nat.mul_assoc, Nat.mul_comm b (b ^ cs.length)]

theorem hexVal_digitChar {d : Nat} (h : d < 16) : hexVal d.digitChar = some d := by
  revert d
  decide

theorem isHex_digitChar {d : Nat} (h : d < 16) : isHex d.digitChar = true := by
  simp [isHex, hexVal_digitChar h]

theorem isDecimal_digitChar {d : Nat} (h : d < 10) : isDecimal d.digitChar = true := by
  revert d
  decide

/-- Writing a number and reading it back. -/
theorem foldDigits_toDigits {b : Nat} (hb : 1 < b) (hb16 : b ≤ 16) (n : Nat) :
    foldDigits b 0 (Nat.toDigits b n) = n := by
  induction n using Nat.strong_induction_on with
  | _ n ih =>
      rw [Nat.toDigits_eq_if hb]
      by_cases hlt : n < b
      · rw [if_pos hlt]
        simp [hexVal_digitChar (Nat.lt_of_lt_of_le hlt hb16)]
      · rw [if_neg hlt, foldDigits_append, ih (n / b) (Nat.div_lt_self (by omega) hb)]
        have hmod : n % b < 16 := Nat.lt_of_lt_of_le (Nat.mod_lt n (by omega)) hb16
        simp only [foldDigits_cons, hexVal_digitChar hmod, Option.getD_some, foldDigits_nil]
        exact Nat.div_add_mod n b

/-- A decimal digit is that of its value. -/
theorem eq_digitChar_of_isDecimal {c : Char} (h : isDecimal c = true) :
    ∃ d < 10, c = d.digitChar := by
  simp only [isDecimal, Bool.and_eq_true, decide_eq_true_eq] at h
  refine ⟨c.toNat - 48, by omega, ?_⟩
  have hchars : ∀ d < 10, d.digitChar = Char.ofNat (48 + d) := by decide
  rw [hchars _ (by omega), Nat.add_sub_cancel' h.1, Char.ofNat_toNat]

/-- Every digit of a number is a digit of its base. -/
theorem forall_mem_toDigits {b : Nat} (hb : 1 < b) {P : Char → Prop}
    (hP : ∀ d, d < b → P d.digitChar) (n : Nat) : ∀ c ∈ Nat.toDigits b n, P c := by
  induction n using Nat.strong_induction_on with
  | _ n ih =>
      intro c hc
      rw [Nat.toDigits_eq_if hb] at hc
      by_cases hlt : n < b
      · rw [if_pos hlt] at hc
        rw [List.mem_singleton.mp hc]
        exact hP n hlt
      · rw [if_neg hlt] at hc
        rcases List.mem_append.mp hc with hc | hc
        · exact ih (n / b) (Nat.div_lt_self (by omega) hb) c hc
        · rw [List.mem_singleton.mp hc]
          exact hP _ (Nat.mod_lt n (by omega))

theorem isHex_of_mem_toDigits {n : Nat} {c : Char} (h : c ∈ Nat.toDigits 16 n) :
    isHex c = true :=
  forall_mem_toDigits (by decide) (P := fun c => isHex c = true)
    (fun _ hd => isHex_digitChar hd) n c h

theorem isDecimal_of_mem_toDigits {n : Nat} {c : Char} (h : c ∈ Nat.toDigits 10 n) :
    isDecimal c = true :=
  forall_mem_toDigits (by decide) (P := fun c => isDecimal c = true)
    (fun _ hd => isDecimal_digitChar hd) n c h

/-- The first digit is a zero only for zero itself. -/
theorem head_toDigits_eq_zero {b : Nat} (hb : 1 < b) {n : Nat} :
    (Nat.toDigits b n).head? = some '0' → n = 0 := by
  induction n using Nat.strong_induction_on with
  | _ n ih =>
      intro h
      rw [Nat.toDigits_eq_if hb] at h
      by_cases hlt : n < b
      · rw [if_pos hlt] at h
        simpa using h
      · rw [if_neg hlt, List.head?_append_of_ne_nil _ Nat.toDigits_ne_nil] at h
        have hq := ih (n / b) (Nat.div_lt_self (by omega) hb) h
        have := Nat.div_pos (Nat.le_of_not_lt hlt) (by omega : 0 < b)
        omega

/-- Digits without a leading zero are those that are printed. -/
theorem toDigits_foldDigits {b : Nat} (hb : 1 < b) (hb16 : b ≤ 16) {cs : List Char} (hne : cs ≠ [])
    (hcs : ∀ c ∈ cs, ∃ d < b, c = d.digitChar) (hhead : cs.head? = some '0' → cs = ['0']) :
    Nat.toDigits b (foldDigits b 0 cs) = cs := by
  induction cs using List.reverseRecOn with
  | nil => exact absurd rfl hne
  | append_singleton cs c ih =>
      obtain ⟨d, hd, rfl⟩ := hcs c (by simp)
      rw [foldDigits_append, foldDigits_cons, foldDigits_nil, hexVal_digitChar (by omega),
        Option.getD_some]
      by_cases hcs0 : cs = []
      · rw [hcs0, foldDigits_nil, Nat.mul_zero, Nat.zero_add, Nat.toDigits_of_lt_base hd,
          List.nil_append]
      · have hhead' : cs.head? ≠ some '0' := by
          intro h
          have hall := hhead (by rw [List.head?_append_of_ne_nil _ hcs0, h])
          have hlen := congrArg List.length hall
          rw [List.length_append, List.length_singleton, List.length_singleton] at hlen
          exact hcs0 (List.length_eq_zero_iff.mp (by omega))
        have hrest := ih hcs0 (fun x hx => hcs x (by simp [hx])) fun h => absurd h hhead'
        have hpos : 0 < foldDigits b 0 cs := by
          refine Nat.pos_of_ne_zero fun hzero => hhead' ?_
          rw [hzero, Nat.toDigits_zero] at hrest
          rw [← hrest]
          rfl
        rw [← Nat.toDigits_append_toDigits hb hpos hd, hrest, Nat.toDigits_of_lt_base hd]

/-- As many digits make as many numbers. -/
theorem foldDigits_injective {b : Nat} (hb16 : b ≤ 16) {cs ds : List Char}
    (hlen : cs.length = ds.length) (hcs : ∀ c ∈ cs, ∃ d < b, c = d.digitChar)
    (hds : ∀ c ∈ ds, ∃ d < b, c = d.digitChar)
    (h : foldDigits b 0 cs = foldDigits b 0 ds) : cs = ds := by
  induction cs using List.reverseRecOn generalizing ds with
  | nil => exact (List.length_eq_zero_iff.mp hlen.symm).symm
  | append_singleton cs c ih =>
      rcases List.eq_nil_or_concat' ds with rfl | ⟨ds, d, rfl⟩
      · simp at hlen
      · rw [List.length_append, List.length_append, List.length_singleton,
          List.length_singleton, Nat.add_right_cancel_iff] at hlen
        obtain ⟨x, hx, rfl⟩ := hcs c (by simp)
        obtain ⟨y, hy, rfl⟩ := hds d (by simp)
        rw [foldDigits_append, foldDigits_append, foldDigits_cons, foldDigits_cons, foldDigits_nil,
          foldDigits_nil, hexVal_digitChar (by omega), hexVal_digitChar (by omega),
          Option.getD_some, Option.getD_some] at h
        have hlast : x = y := by
          have hmod := congrArg (· % b) h
          simpa [Nat.mul_add_mod, Nat.mod_eq_of_lt hx, Nat.mod_eq_of_lt hy] using hmod
        rw [hlast, Nat.add_right_cancel_iff] at h
        have hinit := Nat.eq_of_mul_eq_mul_left (Nat.lt_of_le_of_lt (Nat.zero_le x) hx) h
        rw [ih hlen (fun c hc => hcs c (by simp [hc])) (fun c hc => hds c (by simp [hc])) hinit, hlast]

/-! ### `int` and `str` on decimal text -/

/-- `sys.get_int_max_str_digits()`: the interpreter's limit on decimal text. -/
@[irreducible] def maxStrDigits : Nat := 4300

theorem maxStrDigits_pos : 0 < maxStrDigits := by
  unfold maxStrDigits
  decide

/-- `str(n)` raises `ValueError` past the limit. -/
def strFits (n : Int) : Bool := n.natAbs < 10 ^ maxStrDigits

theorem strFits_iff {n : Int} : strFits n = true ↔ n.natAbs < 10 ^ maxStrDigits :=
  decide_eq_true_iff

theorem strFits_of_le {m n : Int} (h : strFits n = true) (hm : 0 ≤ m) (hle : m ≤ n) :
    strFits m = true := by
  rw [strFits_iff] at h ⊢
  omega

/-- The digits `str(n)` prints. -/
def intText (n : Int) : List Char :=
  if n < 0 then '-' :: Nat.toDigits 10 n.natAbs else Nat.toDigits 10 n.natAbs

/-- Code points of the zeros of the Unicode decimal digit ranges. -/
def decimalZeros : List Nat :=
  [0x30, 0x660, 0x6f0, 0x7c0, 0x966, 0x9e6, 0xa66, 0xae6, 0xb66, 0xbe6, 0xc66, 0xce6, 0xd66,
   0xde6, 0xe50, 0xed0, 0xf20, 0x1040, 0x1090, 0x17e0, 0x1810, 0x1946, 0x19d0, 0x1a80, 0x1a90,
   0x1b50, 0x1bb0, 0x1c40, 0x1c50, 0xa620, 0xa8d0, 0xa900, 0xa9d0, 0xa9f0, 0xaa50, 0xabf0,
   0xff10, 0x104a0, 0x10d30, 0x11066, 0x110f0, 0x11136, 0x111d0, 0x112f0, 0x11450, 0x114d0,
   0x11650, 0x116c0, 0x11730, 0x118e0, 0x11950, 0x11c50, 0x11d50, 0x11da0, 0x11f50, 0x16a60,
   0x16ac0, 0x16b50, 0x1d7ce, 0x1d7d8, 0x1d7e2, 0x1d7ec, 0x1d7f6, 0x1e140, 0x1e2f0, 0x1e4f0,
   0x1e950, 0x1fbf0]

/-- The value of a Unicode decimal digit. -/
def decimalVal (c : Char) : Option Nat :=
  (decimalZeros.find? fun z => z ≤ c.toNat && c.toNat ≤ z + 9).map fun z => c.toNat - z

/-- `str.isspace` on one character. -/
def isSpace (c : Char) : Bool :=
  (9 ≤ c.toNat && c.toNat ≤ 13) || (28 ≤ c.toNat && c.toNat ≤ 32)
    || c.toNat == 0x85 || c.toNat == 0xa0 || c.toNat == 0x1680
    || (0x2000 ≤ c.toNat && c.toNat ≤ 0x200a)
    || c.toNat == 0x2028 || c.toNat == 0x2029 || c.toNat == 0x202f || c.toNat == 0x205f
    || c.toNat == 0x3000

/-- Take off what is blank at both ends. -/
def stripBy (blank : Char → Bool) (cs : List Char) : List Char :=
  ((cs.dropWhile blank).reverse.dropWhile blank).reverse

/-- `s.strip()` -/
def strip (cs : List Char) : List Char := stripBy isSpace cs

/-- What `int` and `float` take for a blank: not the four separators that `isspace` counts in. -/
def isNumberSpace (c : Char) : Bool := isSpace c && !(28 ≤ c.toNat && c.toNat ≤ 31)

/-- Digits with single underscores between them: their values, or `none`. -/
def digitRun : List Char → Option (List Nat)
  | [] => none
  | [c] => (decimalVal c).map fun d => [d]
  | c :: '_' :: cs => do
      let d ← decimalVal c
      let ds ← digitRun cs
      pure (d :: ds)
  | c :: cs => do
      let d ← decimalVal c
      let ds ← digitRun cs
      pure (d :: ds)

/-- `int(s)` on text, `none` where it raises `ValueError`. -/
def int? (s : String) : Option Int := do
  let (neg, cs) := match stripBy isNumberSpace s.toList with
    | '-' :: cs => (true, cs)
    | '+' :: cs => (false, cs)
    | cs => (false, cs)
  let ds ← digitRun cs
  if ds.length ≤ maxStrDigits then
    let n : Nat := ds.foldl (fun acc d => 10 * acc + d) 0
    pure (if neg then -(n : Int) else n)
  else none

/-- Whether a decimal float literal is rounded to infinity: it is at least half a unit above
the largest double. -/
def floatOverflows (lit : String) : Bool :=
  let cs := lit.toList
  let mantissa := cs.takeWhile fun c => c != 'e' && c != 'E'
  let exponent := (cs.drop mantissa.length).drop 1
  let digits := foldDigits 10 0 (mantissa.filter isDecimal)
  let power := foldDigits 10 0 (exponent.filter isDecimal)
  let fraction := ((mantissa.dropWhile fun c => c != '.').drop 1).length
  let scale : Int := (if exponent.head? = some '-' then -(power : Int) else power) - fraction
  if 0 ≤ scale then 2 ^ 1024 - 2 ^ 970 ≤ digits * 10 ^ scale.toNat
  else (2 ^ 1024 - 2 ^ 970) * 10 ^ (-scale).toNat ≤ digits

end Py
