/-
Arithmetic of `float`.

A double is kept as the number it stands for, so a sum is the exact sum rounded once, to 53
significant bits and halves to even.  A number that is not whole is printed rounded to three
digits after the point, in as few digits as denote the double nearest to that.
-/
import Mathlib.Algebra.Order.Field.Basic
import Mathlib.Data.List.TakeWhile
import ExecRestApi.Lib.DecimalText
import ExecRestApi.Lib.Floats
import ExecRestApi.Lib.FloatText

namespace Py

/-! ### Rounding -/

/-- How many of the least positive doubles make one. -/
def unitsPerOne : Nat := 2 ^ 1074

/-- The double nearest to `num / den`, counted in the least positive double. -/
def nearestUnits (num den : Nat) : Nat :=
  let units := num * unitsPerOne
  -- the bits below the 53 leading ones are rounded away
  let cut := Nat.log2 (units / den) - 52
  roundHalfEven units (den * 2 ^ cut) * 2 ^ cut

/-- The number of 53 significant bits that is nearest to a number, however large that is. -/
def nearest (x : ℚ) : ℚ :=
  let units : ℚ := nearestUnits x.num.natAbs x.den
  (if x < 0 then -units else units) / unitsPerOne

/-- The double nearest to a number. -/
def toDouble (x : ℚ) : Flt :=
  if |nearest x| < 2 ^ 1024 then .finite (nearest x) else .inf (decide (x < 0))

theorem lt_of_toDouble {x y : ℚ} (h : toDouble x = .finite y) : |y| < 2 ^ 1024 := by
  unfold toDouble at h
  split_ifs at h with hlt
  injection h with h
  rwa [← h]

namespace Flt

/-- The nearest double, for a number that need not be one. -/
def round : Flt → Flt
  | finite x => toDouble x
  | x => x

/-- `x + y` -/
def add : Flt → Flt → Flt
  | finite x, finite y => toDouble (x + y)
  | inf a, inf b => if a = b then inf a else nan
  | nan, _ => nan
  | _, nan => nan
  | inf a, _ => inf a
  | _, inf b => inf b

/-- `x <= y` -/
def le : Flt → Flt → Bool
  | finite x, finite y => decide (x ≤ y)
  | finite _, inf negative => !negative
  | inf negative, finite _ => negative
  | inf a, inf b => a || !b
  | _, _ => false

/-- Neither infinite nor no number. -/
def isFinite : Flt → Bool
  | finite _ => true
  | _ => false

theorem lt_of_add {x y : Flt} {z : ℚ} (h : x.add y = .finite z) : |z| < 2 ^ 1024 := by
  cases x with
  | finite a =>
      cases y with
      | finite b => exact lt_of_toDouble h
      | _ => simp [add] at h
  | inf a =>
      cases y with
      | inf b =>
          rw [add] at h
          split_ifs at h
      | _ => simp [add] at h
  | nan => simp [add] at h

/-- Only numbers have a number as their sum. -/
theorem isFinite_of_add {x y : Flt} (h : (x.add y).isFinite = true) :
    x.isFinite = true ∧ y.isFinite = true := by
  cases x with
  | finite a => cases y <;> simp_all [add, isFinite]
  | inf a =>
      cases y with
      | inf b =>
          rw [add] at h
          split_ifs at h <;> cases h
      | _ => simp [add, isFinite] at h
  | nan => simp [add, isFinite] at h

theorem le_trans {x y z : Flt} (hxy : x.le y = true) (hyz : y.le z = true) : x.le z = true := by
  cases x <;> cases y <;> cases z <;> simp_all [le]
  · exact hxy.trans hyz
  · grind

theorem le_inf {x : Flt} (hx : x.isFinite = true) : x.le (.inf false) = true := by
  cases x <;> simp_all [le, isFinite]

/-- A sum that is a number has only numbers as its terms. -/
theorem isFinite_of_foldl_add {xs : List Flt} : ∀ {acc : Flt},
    (xs.foldl add acc).isFinite = true → acc.isFinite = true ∧ ∀ x ∈ xs, x.isFinite = true := by
  induction xs with
  | nil => exact fun h => ⟨h, by simp⟩
  | cons x xs ih =>
      intro acc h
      obtain ⟨hacc, hxs⟩ := ih h
      obtain ⟨hacc, hx⟩ := isFinite_of_add hacc
      exact ⟨hacc, by simpa using ⟨hx, hxs⟩⟩

end Flt

/-- `float(s)`, `none` where it raises `ValueError`. -/
def float? (cs : List Char) : Option Flt := (floatLiteral? cs).map Flt.round

/-! ### Printing -/

/-- A positive number times a power of ten, as a whole number. -/
def scaled (x : ℚ) (k : Nat) : Nat := roundHalfEven (x.num.natAbs * 10 ^ k) x.den

/-- `round(x, 3)` of a positive number.  One with a fraction is far from too large. -/
def roundThree (x : ℚ) : ℚ := nearest ((scaled x 3 : ℚ) / 1000)

/-- Whether a double still reads as itself with so many digits after the point. -/
def readsBack (x : ℚ) (k : Nat) : Bool := decide (nearest ((scaled x k : ℚ) / 10 ^ k) = x)

/-- How many digits `repr` prints after the point of a double that is nearest to a number of
three such digits. -/
def fractionDigits (x : ℚ) : Nat := ([1, 2].find? (readsBack x)).getD 3

/-- A number of so many digits, the leading zeros among them. -/
def paddedDigits : Nat → Nat → List Char
  | 0, _ => []
  | k + 1, n => paddedDigits k (n / 10) ++ [(n % 10).digitChar]

/-- A number with so many digits after the point. -/
def pointText (k n : Nat) : List Char :=
  Nat.toDigits 10 (n / 10 ^ k) ++ ('.' :: paddedDigits k (n % 10 ^ k))

/-- `f"{round(x, 3)}"` of a number that is not whole. -/
def roundedText (x : ℚ) : List Char :=
  let rounded := roundThree |x|
  let k := fractionDigits rounded
  (if x < 0 then ['-'] else []) ++ pointText k (scaled rounded k)

/-- The number that is printed there. -/
def roundedNumber (x : ℚ) : ℚ :=
  let rounded := roundThree |x|
  let k := fractionDigits rounded
  if x < 0 then -(scaled rounded k / 10 ^ k) else scaled rounded k / 10 ^ k

example : toDouble (25351 / 1000) = .finite (222989754205995 / 8796093022208)
    ∧ roundedText (222989754205995 / 8796093022208) = "25.351".toList
    ∧ roundedText (-5 / 2000) = "-0.002".toList
    ∧ roundedText (562949953421312 + 1 / 8) = "562949953421312.1".toList := by
  decide +kernel

/-! ### What is printed is read -/

theorem toNat_of_isDecimal {c : Char} (h : isDecimal c = true) : 48 ≤ c.toNat ∧ c.toNat ≤ 57 := by
  simpa [isDecimal] using h

theorem isSpace_of_visible {c : Char} (hlow : 33 ≤ c.toNat) (hhigh : c.toNat < 127) :
    isSpace c = false := by
  simp only [isSpace, Bool.or_eq_false_iff, Bool.and_eq_false_iff, decide_eq_false_iff_not,
    beq_eq_false_iff_ne]
  omega

theorem ofDigits_map {cs : List Char} :
    ofDigits (cs.map fun c => (hexVal c).getD 0) = foldDigits 10 0 cs := by
  rw [ofDigits, List.foldl_map]
  rfl

/-- Digits and points are no word. -/
theorem lower_ne_word {cs : List Char} (hcs : ∀ c ∈ cs, c.toNat < 65) (word : String) {w : Char}
    (hw : w ∈ word.toList) (hletter : 65 ≤ w.toNat) : lower (String.ofList cs) ≠ word := by
  intro heq
  have hlist : cs.flatMap lowerChar = word.toList := by
    rw [← heq, lower, String.toList_ofList, String.toList_ofList]
  rw [← hlist, List.mem_flatMap] at hw
  obtain ⟨c, hc, hwc⟩ := hw
  have hlt := hcs c hc
  rw [lowerChar, if_neg (by omega), if_neg (by omega), if_neg (by omega),
    List.mem_singleton] at hwc
  rw [hwc] at hletter
  exact absurd hlt (by omega)

/-- A sign is taken off what begins with a digit. -/
theorem signed_digits {negative : Bool} {c : Char} (hc : isDecimal c = true) (cs : List Char) :
    signed ((if negative then ['-'] else []) ++ c :: cs) = (negative, c :: cs) := by
  have hminus : c ≠ '-' := ne_of_isDecimal hc (by decide)
  have hplus : c ≠ '+' := ne_of_isDecimal hc (by decide)
  cases negative with
  | true => rfl
  | false => simp [signed, hminus, hplus]

section

variable {whole point fraction : List Char}

theorem mem_plain (hwhole : ∀ c ∈ whole, isDecimal c = true)
    (hfraction : ∀ c ∈ fraction, isDecimal c = true)
    (hpoint : point = ['.'] ∨ point = [] ∧ fraction = []) :
    ∀ c ∈ whole ++ (point ++ fraction), 46 ≤ c.toNat ∧ c.toNat ≤ 57 := by
  have hdigit : ∀ c, isDecimal c = true → 46 ≤ c.toNat ∧ c.toNat ≤ 57 := by
    intro c hc
    have := toNat_of_isDecimal hc
    omega
  intro c hc
  simp only [List.mem_append] at hc
  rcases hc with hc | hc | hc
  · exact hdigit c (hwhole c hc)
  · rcases hpoint with rfl | ⟨rfl, -⟩
    · rw [List.mem_singleton.mp hc]
      decide
    · cases hc
  · exact hdigit c (hfraction c hc)

/-- The parts of a plain number are found again. -/
theorem takeWhile_plain (hwhole : ∀ c ∈ whole, isDecimal c = true)
    (hfraction : ∀ c ∈ fraction, isDecimal c = true)
    (hpoint : point = ['.'] ∨ point = [] ∧ fraction = []) :
    (whole ++ (point ++ fraction)).takeWhile (fun c => c != 'e' && c != 'E')
        = whole ++ (point ++ fraction) ∧
      (whole ++ (point ++ fraction)).takeWhile (fun c => c != '.') = whole ∧
      (point ++ fraction).drop 1 = fraction := by
  refine ⟨?_, ?_, ?_⟩
  · rw [List.takeWhile_eq_self_iff]
    intro c hc
    have hhigh := (mem_plain hwhole hfraction hpoint c hc).2
    simp only [bne_iff_ne, ne_eq, Bool.and_eq_true]
    refine ⟨?_, ?_⟩
    · rintro rfl
      exact absurd hhigh (by decide)
    · rintro rfl
      exact absurd hhigh (by decide)
  · rw [List.takeWhile_append_of_pos]
    · rcases hpoint with rfl | ⟨rfl, rfl⟩ <;> simp
    · intro c hc
      simpa using ne_of_isDecimal (hwhole c hc) (by decide : isDecimal '.' = false)
  · rcases hpoint with rfl | ⟨rfl, rfl⟩ <;> rfl

/-- **A plain number is read as what it says.** -/
theorem floatLiteral?_plain (negative : Bool) (hne : whole ≠ [])
    (hwhole : ∀ c ∈ whole, isDecimal c = true) (hfraction : ∀ c ∈ fraction, isDecimal c = true)
    (hpoint : point = ['.'] ∨ point = [] ∧ fraction = []) :
    floatLiteral? ((if negative then ['-'] else []) ++ (whole ++ (point ++ fraction))) =
      some (.finite (if negative then -(foldDigits 10 0 (whole ++ fraction) / 10 ^ fraction.length)
        else foldDigits 10 0 (whole ++ fraction) / 10 ^ fraction.length)) := by
  have hplain := mem_plain hwhole hfraction hpoint
  obtain ⟨hmantissa, hpart, hrest⟩ := takeWhile_plain hwhole hfraction hpoint
  have hstrip : stripBy isNumberSpace ((if negative then ['-'] else []) ++ (whole ++ (point ++ fraction)))
      = (if negative then ['-'] else []) ++ (whole ++ (point ++ fraction)) := by
    refine stripBy_of_none fun c hc => isNumberSpace_of_isSpace ?_
    rcases List.mem_append.mp hc with hc | hc
    · cases negative with
      | true =>
          rw [List.mem_singleton.mp hc]
          decide
      | false => cases hc
    · have := hplain c hc
      exact isSpace_of_visible (by omega) (by omega)
  have hsigned : signed ((if negative then ['-'] else []) ++ (whole ++ (point ++ fraction)))
      = (negative, whole ++ (point ++ fraction)) := by
    obtain ⟨c, rest, rfl⟩ := List.exists_cons_of_ne_nil hne
    exact signed_digits (hwhole c List.mem_cons_self) _
  have hlow : ∀ c ∈ whole ++ (point ++ fraction), c.toNat < 65 := by
    intro c hc
    have := hplain c hc
    omega
  have hinf := lower_ne_word hlow "inf" (w := 'i') (by decide) (by decide)
  have hinfinity := lower_ne_word hlow "infinity" (w := 'i') (by decide) (by decide)
  have hnan := lower_ne_word hlow "nan" (w := 'n') (by decide) (by decide)
  have hwholeRun : digitRun? whole = some (whole.map fun c => (hexVal c).getD 0) := by
    rw [digitRun?, if_neg hne, digitRun_digits hne hwhole]
  have hfractionRun : digitRun? fraction = some (fraction.map fun c => (hexVal c).getD 0) := by
    rw [digitRun?]
    split_ifs with hnil
    · rw [hnil]
      rfl
    · exact digitRun_digits hnil hfraction
  have hexponent : exponentOf [] = some 0 := rfl
  have hvalue : (ofDigits ((whole.map fun c => (hexVal c).getD 0)
        ++ fraction.map fun c => (hexVal c).getD 0) : ℚ)
        * 10 ^ ((0 : Int) - (fraction.map fun c => (hexVal c).getD 0).length)
      = foldDigits 10 0 (whole ++ fraction) / 10 ^ fraction.length := by
    rw [← List.map_append, ofDigits_map, List.length_map, zero_sub, zpow_neg, zpow_natCast,
      div_eq_mul_inv]
  unfold floatLiteral?
  rw [hstrip, hsigned]
  simp only [hinf, hinfinity, hnan, or_self, if_false, hmantissa, List.drop_length, hexponent,
    hpart, List.drop_left, hrest, hne, false_and, hwholeRun, hfractionRun]
  show some (Flt.finite _) = _
  rw [hvalue]

end

/-- **`float(str(n))` is `n`.** -/
theorem floatLiteral?_intText (n : Int) : floatLiteral? (intText n) = some (.finite n) := by
  have hdigits : ∀ c ∈ Nat.toDigits 10 n.natAbs, isDecimal c = true :=
    fun c hc => isDecimal_of_mem_toDigits hc
  have hread := floatLiteral?_plain (decide (n < 0))
    Nat.toDigits_ne_nil hdigits (by simp) (.inr ⟨rfl, rfl⟩)
  rw [List.append_nil, List.append_nil, foldDigits_toDigits (by decide) (by decide)] at hread
  by_cases hneg : n < 0
  · have habs : ((n.natAbs : Nat) : ℚ) = -(n : ℚ) := by
      rw [← Int.cast_natCast, Int.ofNat_natAbs_of_nonpos (Int.le_of_lt hneg), Int.cast_neg]
    simpa [intText, hneg, habs] using hread
  · have habs : ((n.natAbs : Nat) : ℚ) = (n : ℚ) := by
      rw [← Int.cast_natCast, Int.natAbs_of_nonneg (Int.not_lt.mp hneg)]
    simpa [intText, hneg, habs] using hread

@[simp] theorem length_paddedDigits (k n : Nat) : (paddedDigits k n).length = k := by
  induction k generalizing n with
  | zero => rfl
  | succ k ih => simp [paddedDigits, ih]

theorem isDecimal_of_mem_paddedDigits {k n : Nat} :
    ∀ c ∈ paddedDigits k n, isDecimal c = true := by
  induction k generalizing n with
  | zero => simp [paddedDigits]
  | succ k ih =>
      intro c hc
      rcases List.mem_append.mp hc with hc | hc
      · exact ih c hc
      · rw [List.mem_singleton.mp hc]
        exact isDecimal_digitChar (Nat.mod_lt n (by decide))

theorem foldDigits_paddedDigits (acc k n : Nat) :
    foldDigits 10 acc (paddedDigits k n) = acc * 10 ^ k + n % 10 ^ k := by
  induction k generalizing n with
  | zero => simp [paddedDigits, Nat.mod_one]
  | succ k ih =>
      have hlast : hexVal (n % 10).digitChar = some (n % 10) := hexVal_digitChar (by omega)
      rw [paddedDigits, foldDigits_append, ih, foldDigits_cons, foldDigits_nil, hlast,
        Option.getD_some, Nat.pow_succ', Nat.mod_mul]
      ring

/-- The digits on both sides of the point are those of the number. -/
theorem floatLiteral?_pointText (negative : Bool) (k n : Nat) :
    floatLiteral? ((if negative then ['-'] else []) ++ pointText k n)
      = some (.finite (if negative then -((n : ℚ) / 10 ^ k) else n / 10 ^ k)) := by
  have hread := floatLiteral?_plain negative Nat.toDigits_ne_nil
    (fun c hc => isDecimal_of_mem_toDigits (n := n / 10 ^ k) hc)
    (isDecimal_of_mem_paddedDigits (k := k) (n := n % 10 ^ k)) (.inl rfl)
  rw [foldDigits_append, foldDigits_toDigits (by decide) (by decide), foldDigits_paddedDigits,
    Nat.mod_mod, length_paddedDigits, Nat.div_add_mod'] at hread
  exact hread

theorem floatLiteral?_roundedText (x : ℚ) :
    floatLiteral? (roundedText x) = some (.finite (roundedNumber x)) := by
  have hread := floatLiteral?_pointText (decide (x < 0)) (fractionDigits (roundThree |x|))
    (scaled (roundThree |x|) (fractionDigits (roundThree |x|)))
  simpa [roundedText, roundedNumber] using hread

end Py
