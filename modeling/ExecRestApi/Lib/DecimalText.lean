/-
Decimal text read back.

`int(s)` accepts much more than `str(n)` prints: blanks around the digits, a sign,
underscores, digits of other scripts.  On a plain run of ASCII digits it is the value of
the digits, as long as there are not too many of them.
-/
import ExecRestApi.Lib.Text

namespace Py

theorem decimalVal_of_isDecimal {c : Char} (h : isDecimal c = true) :
    decimalVal c = some ((hexVal c).getD 0) := by
  simp only [isDecimal, Bool.and_eq_true, decide_eq_true_eq] at h
  have hfind : decimalZeros.find? (fun z => z ≤ c.toNat && c.toNat ≤ z + 9) = some 0x30 := by
    rw [decimalZeros, List.find?_cons_of_pos]
    simp only [Bool.and_eq_true, decide_eq_true_eq]
    omega
  rw [decimalVal, hfind, hexVal, if_pos h]
  rfl

theorem isSpace_of_isDecimal {c : Char} (h : isDecimal c = true) : isSpace c = false := by
  simp only [isDecimal, Bool.and_eq_true, decide_eq_true_eq] at h
  simp only [isSpace, Bool.or_eq_false_iff, Bool.and_eq_false_iff, decide_eq_false_iff_not,
    beq_eq_false_iff_ne]
  omega

theorem ne_of_isDecimal {c d : Char} (h : isDecimal c = true) (hd : isDecimal d = false) :
    c ≠ d := by
  intro heq
  rw [heq, hd] at h
  cases h

/-- There is nothing to strip off digits. -/
theorem strip_digits {cs : List Char} (h : ∀ c ∈ cs, isDecimal c = true) :
    stripBy isNumberSpace cs = cs :=
  stripBy_of_none fun c hc => isNumberSpace_of_isSpace (isSpace_of_isDecimal (h c hc))

/-- The values of plain digits. -/
theorem digitRun_digits {cs : List Char} (hne : cs ≠ []) (h : ∀ c ∈ cs, isDecimal c = true) :
    digitRun cs = some (cs.map fun c => (hexVal c).getD 0) := by
  induction cs with
  | nil => exact absurd rfl hne
  | cons c rest ih =>
      have hc := decimalVal_of_isDecimal (h c List.mem_cons_self)
      cases rest with
      | nil => rw [digitRun, hc, Option.map_some, List.map_cons, List.map_nil]
      | cons d rest =>
          have hd : d ≠ '_' := ne_of_isDecimal (h d (by simp)) (by decide)
          rw [digitRun.eq_4 _ _ (by nofun) (by intro cs heq; cases heq; exact hd rfl), hc,
            ih (by nofun) fun x hx => h x (List.mem_cons_of_mem _ hx)]
          rfl

/-- What `int` makes of a run of digits. -/
theorem int?_eq_ite {cs : List Char} (hne : cs ≠ []) (h : ∀ c ∈ cs, isDecimal c = true) :
    int? (String.ofList cs) =
      if cs.length ≤ maxStrDigits then some (Int.ofNat (foldDigits 10 0 cs)) else none := by
  have hfold : ∀ (l : List Char) (acc : Nat),
      (l.map fun c => (hexVal c).getD 0).foldl (fun acc d => 10 * acc + d) acc
        = foldDigits 10 acc l := by
    intro l acc
    rw [List.foldl_map]
    rfl
  have hrun := digitRun_digits hne h
  cases cs with
  | nil => exact absurd rfl hne
  | cons c rest =>
      have hminus : c ≠ '-' := ne_of_isDecimal (h c List.mem_cons_self) (by decide)
      have hplus : c ≠ '+' := ne_of_isDecimal (h c List.mem_cons_self) (by decide)
      rw [int?, String.toList_ofList, strip_digits h]
      split
      rename_i neg cs' heq
      split at heq
      · rename_i hcs
        cases hcs
        exact absurd rfl hminus
      · rename_i hcs
        cases hcs
        exact absurd rfl hplus
      · cases heq
        rw [hrun]
        show (if ((c :: rest).map fun c => (hexVal c).getD 0).length ≤ maxStrDigits then _
          else none) = _
        rw [List.length_map, hfold]
        rfl

/-- **A run of digits denotes the number they spell.** -/
theorem int?_digits {cs : List Char} (hne : cs ≠ []) (h : ∀ c ∈ cs, isDecimal c = true)
    (hlen : cs.length ≤ maxStrDigits) :
    int? (String.ofList cs) = some (Int.ofNat (foldDigits 10 0 cs)) := by
  rw [int?_eq_ite hne h, if_pos hlen]

/-- The text of a number has as many digits as the number. -/
theorem length_toDigits_le_of_strFits {n : Nat} (h : strFits n = true) :
    (Nat.toDigits 10 n).length ≤ maxStrDigits := by
  rw [Nat.length_toDigits_le_iff (by decide) maxStrDigits_pos]
  exact strFits_iff.mp h

theorem intText_natCast (n : Nat) : intText n = Nat.toDigits 10 n := by
  rw [intText, if_neg (by omega), Int.natAbs_natCast]

/-- **`int(str(n))` is `n`.** -/
theorem int?_intText {n : Nat} (h : strFits n = true) :
    int? (String.ofList (intText n)) = some (n : Int) := by
  rw [intText_natCast, int?_digits Nat.toDigits_ne_nil (fun c hc => isDecimal_of_mem_toDigits hc)
    (length_toDigits_le_of_strFits h), foldDigits_toDigits (by decide) (by decide)]
  rfl

end Py
