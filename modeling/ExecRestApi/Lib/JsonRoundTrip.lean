/-
Printing a value and loading the text gives the value back.

The decoder is a fold, so the statement is about where the fold stands after the
text of one value: it has `v` complete on the stack it started with.  A number is
the exception, since only the next character shows that it has ended; `Settles`
says that the reader behaves from here on as if it had.  The induction is on the
value, with one companion statement for the rest of an array and one for the rest
of an object.
-/
import ExecRestApi.Lib.JsonLoads
import Mathlib.Data.List.TakeWhile
import Mathlib.Data.List.Induction

namespace Py.Json

mutual

/-- A value that `json.loads` can return: distinct keys, printable integers, floats that
are float literals. -/
def Plain : Json → Prop
  | float lit => isFloatLit lit.toList = true
  | int n => strFits n = true
  | arr items => PlainItems items
  | obj fields => (fields.map Prod.fst).Nodup ∧ PlainFields fields
  | _ => True

/-- `Plain` on the items of an array. -/
def PlainItems : List Json → Prop
  | [] => True
  | v :: rest => Plain v ∧ PlainItems rest

/-- `Plain` on the fields of an object. -/
def PlainFields : List (String × Json) → Prop
  | [] => True
  | (_, v) :: rest => Plain v ∧ PlainFields rest

end

mutual

/-- How deeply containers are nested. -/
def depth : Json → Nat
  | arr items => itemsDepth items + 1
  | obj fields => fieldsDepth fields + 1
  | _ => 0

/-- `depth` over the items of an array. -/
def itemsDepth : List Json → Nat
  | [] => 0
  | v :: rest => max (depth v) (itemsDepth rest)

/-- `depth` over the fields of an object. -/
def fieldsDepth : List (String × Json) → Nat
  | [] => 0
  | (_, v) :: rest => max (depth v) (fieldsDepth rest)

end

mutual

theorem intsFit_of_plain : ∀ v : Json, Plain v → intsFit v = true
  | null, _ => rfl
  | bool _, _ => rfl
  | int _, h => h
  | float _, _ => rfl
  | str _, _ => rfl
  | arr items, h => itemsFit_of_plain items h
  | obj fields, h => fieldsFit_of_plain fields h.2

theorem itemsFit_of_plain : ∀ l : List Json, PlainItems l → itemsFit l = true
  | [], _ => rfl
  | v :: rest, h => by simp [itemsFit, intsFit_of_plain v h.1, itemsFit_of_plain rest h.2]

theorem fieldsFit_of_plain : ∀ l : List (String × Json), PlainFields l → fieldsFit l = true
  | [], _ => rfl
  | (_, v) :: rest, h => by simp [fieldsFit, intsFit_of_plain v h.1, fieldsFit_of_plain rest h.2]

end

section

variable {d : Nat}

theorem readAll_append (r : Reader) (xs ys : List Char) :
    readAll d r (xs ++ ys) = (readAll d r xs).bind fun r' => readAll d r' ys := by
  simp only [readAll, List.foldlM_append]
  rfl

theorem readAll_cons (r : Reader) (c : Char) (cs : List Char) :
    readAll d r (c :: cs) = (read d r c).bind fun r' => readAll d r' cs := rfl

@[simp] theorem readAll_nil (r : Reader) : readAll d r [] = .ok r := rfl

/-! ### Strings -/

theorem unitChar_toNat (c : Char) : unitChar c.toNat = c := by
  have hv : c.toNat.isValidChar := c.valid
  rw [unitChar, dif_pos hv]
  rfl

theorem readAll_hex4 {n : Nat} (hn : n < 65536) (isKey : Bool) (acc : List Char)
    (high : Option Nat) (σ : List Container) :
    readAll d ⟨.unicode isKey acc high 4 0, σ⟩ (hex4 n) = .ok ⟨pushUnit isKey acc high n, σ⟩ := by
  have hmod : ∀ m : Nat, m % 16 < 16 := fun m => Nat.mod_lt m (by decide)
  have hval : 16 * (16 * (16 * (n / 4096 % 16) + n / 256 % 16) + n / 16 % 16) + n % 16 = n := by
    omega
  simp [hex4, readAll_cons, read, hexVal_digitChar (hmod _), Except.bind, hval]

theorem readAll_unicode {n : Nat} (hn : n < 65536) (isKey : Bool) (acc : List Char)
    (high : Option Nat) (σ : List Container) :
    readAll d ⟨.string isKey acc high, σ⟩ ('\\' :: 'u' :: hex4 n)
      = .ok ⟨pushUnit isKey acc high n, σ⟩ :=
  readAll_hex4 hn isKey acc high σ

/-- Of a surrogate pair the first half waits and the second completes the character. -/
theorem readAll_pair {h l : Nat} (hh : 0xd800 ≤ h ∧ h ≤ 0xdbff) (hl : 0xdc00 ≤ l ∧ l ≤ 0xdfff)
    (isKey : Bool) (acc : List Char) (σ : List Container) :
    readAll d ⟨.string isKey acc none, σ⟩ ('\\' :: 'u' :: hex4 h ++ '\\' :: 'u' :: hex4 l)
      = .ok ⟨.string isKey (unitChar (joinPair h l) :: acc) none, σ⟩ := by
  have hfirst : pushUnit isKey acc none h = .string isKey acc (some h) := by
    simp only [pushUnit, if_pos hh]
  rw [readAll_append, readAll_unicode (by omega), hfirst]
  simp only [Except.bind]
  rw [readAll_unicode (by omega)]
  simp only [pushUnit, if_pos hl]

theorem joinPair_split {n : Nat} (hn : 0x10000 ≤ n) :
    joinPair (0xd800 + (n - 0x10000) / 0x400) (0xdc00 + (n - 0x10000) % 0x400) = n := by
  unfold joinPair
  omega

/-- The reader takes one printed character for the character itself. -/
theorem readAll_escapeChar (isKey : Bool) (acc : List Char) (c : Char) (σ : List Container) :
    readAll d ⟨.string isKey acc none, σ⟩ (escapeChar c)
      = .ok ⟨.string isKey (c :: acc) none, σ⟩ := by
  have hbound : c.toNat < 0xd800 ∨ 0xdfff < c.toNat ∧ c.toNat < 0x110000 := c.valid
  unfold escapeChar
  by_cases h₁ : c = '"'
  · subst h₁; rfl
  rw [if_neg h₁]
  by_cases h₂ : c = '\\'
  · subst h₂; rfl
  rw [if_neg h₂]
  by_cases h₃ : 32 ≤ c.toNat ∧ c.toNat ≤ 126
  · have hctl : ¬ c.toNat < 32 := by omega
    simp [h₃, readAll_cons, read, h₁, h₂, hctl, flush, Except.bind]
  rw [if_neg h₃]
  by_cases h₄ : c = '\n'
  · subst h₄; rfl
  rw [if_neg h₄]
  by_cases h₅ : c = '\r'
  · subst h₅; rfl
  rw [if_neg h₅]
  by_cases h₆ : c = '\t'
  · subst h₆; rfl
  rw [if_neg h₆]
  by_cases h₇ : c.toNat = 12
  · rw [if_pos h₇, show c = Char.ofNat 12 by rw [← h₇, Char.ofNat_toNat]]
    rfl
  rw [if_neg h₇]
  by_cases h₈ : c.toNat = 8
  · rw [if_pos h₈, show c = Char.ofNat 8 by rw [← h₈, Char.ofNat_toNat]]
    rfl
  rw [if_neg h₈]
  by_cases h₉ : c.toNat < 0x10000
  · have hnot : ¬ (0xd800 ≤ c.toNat ∧ c.toNat ≤ 0xdbff) := by omega
    rw [if_pos h₉, readAll_unicode h₉]
    simp only [pushUnit, if_neg hnot, unitChar_toNat]
  · rw [if_neg h₉, readAll_pair (by omega) (by omega), joinPair_split (by omega), unitChar_toNat]

theorem readAll_flatMap_escapeChar (isKey : Bool) (cs : List Char) :
    ∀ (acc : List Char) (σ : List Container),
      readAll d ⟨.string isKey acc none, σ⟩ (cs.flatMap escapeChar)
        = .ok ⟨.string isKey (cs.reverse ++ acc) none, σ⟩ := by
  induction cs with
  | nil => intro acc σ; rfl
  | cons c cs ih =>
      intro acc σ
      rw [List.flatMap_cons, readAll_append, readAll_escapeChar]
      simp only [Except.bind]
      rw [ih]
      simp

/-- A string literal read as a value. -/
theorem readAll_quote (s : String) (σ : List Container) :
    readAll d ⟨.value, σ⟩ (quote s) = .ok ⟨.done (.str s), σ⟩ := by
  rw [quote, List.cons_append, readAll_cons]
  show readAll d ⟨.string false [] none, σ⟩ (s.toList.flatMap escapeChar ++ ['"']) = _
  rw [readAll_append, readAll_flatMap_escapeChar]
  simp [Except.bind, readAll_cons, read, endString, flush]

/-- A string literal read as a key. -/
theorem readAll_quote_key (s : String) {mode : Mode} (hmode : mode = .objFirst ∨ mode = .objKey)
    (fields : List (String × Json)) (key : Option String) (σ : List Container) :
    readAll d ⟨mode, .obj fields key :: σ⟩ (quote s)
      = .ok ⟨.colon, .obj fields (some s) :: σ⟩ := by
  rw [quote, List.cons_append, readAll_cons]
  have hstart : read d ⟨mode, .obj fields key :: σ⟩ '"'
      = .ok ⟨.string true [] none, .obj fields key :: σ⟩ := by
    rcases hmode with rfl | rfl <;> rfl
  rw [hstart]
  simp only [Except.bind]
  rw [readAll_append, readAll_flatMap_escapeChar]
  simp [Except.bind, readAll_cons, read, endString, flush]

/-! ### Numbers -/

theorem readAll_digits (cs : List Char) (hcs : ∀ c ∈ cs, isDecimal c = true) :
    ∀ (acc : List Char) (σ : List Container),
      readAll d ⟨.number .digits acc, σ⟩ cs = .ok ⟨.number .digits (cs.reverse ++ acc), σ⟩ := by
  induction cs with
  | nil => intro acc σ; rfl
  | cons c cs ih =>
      intro acc σ
      have hc : isDecimal c = true := hcs c (by simp)
      have hread : read d ⟨.number .digits acc, σ⟩ c = .ok ⟨.number .digits (c :: acc), σ⟩ := by
        simp [read, NumState.next, hc]
      rw [readAll_cons, hread]
      simp only [Except.bind]
      rw [ih (fun x hx => hcs x (List.mem_cons_of_mem _ hx))]
      simp

theorem takeWhile_isDecimal {cs : List Char} (h : ∀ c ∈ cs, isDecimal c = true) :
    cs.takeWhile isDecimal = cs :=
  List.takeWhile_eq_self_iff.mpr h

theorem readInt_intText {n : Int} (h : strFits n = true) : readInt (intText n) = .ok (.int n) := by
  have hall : ∀ c ∈ Nat.toDigits 10 n.natAbs, isDecimal c = true :=
    fun c hc => isDecimal_of_mem_toDigits hc
  have hlen : (Nat.toDigits 10 n.natAbs).length ≤ maxStrDigits := by
    rw [Nat.length_toDigits_le_iff (by decide) maxStrDigits_pos]
    exact strFits_iff.mp h
  have hfold : foldDigits 10 0 (Nat.toDigits 10 n.natAbs) = n.natAbs :=
    foldDigits_toDigits (by decide) (by decide) _
  have hsplit : splitMinus (intText n) = (decide (n < 0), Nat.toDigits 10 n.natAbs) := by
    by_cases hneg : n < 0
    · simp [intText, splitMinus, hneg]
    · have hhead : (Nat.toDigits 10 n.natAbs).head? ≠ some '-' := by
        intro hh
        exact absurd (hall '-' (List.mem_of_mem_head? hh)) (by decide)
      simp [intText, splitMinus, hneg, hhead]
  simp only [readInt, hsplit, takeWhile_isDecimal hall]
  rw [if_pos hlen, hfold]
  congr 2
  by_cases hneg : n < 0
  · simp only [hneg, decide_true, if_true]
    omega
  · simp only [hneg, decide_false, Bool.false_eq_true, if_false]
    omega

/-- The reader is inside a number whose text so far is the whole of `n`. -/
theorem readAll_intText (n : Int) (σ : List Container) :
    ∃ st : NumState, (st = .zero ∨ st = .digits) ∧
      readAll d ⟨.value, σ⟩ (intText n) = .ok ⟨.number st (intText n).reverse, σ⟩ := by
  by_cases hz : n.natAbs = 0
  · have hn : n = 0 := by omega
    subst hn
    exact ⟨.zero, Or.inl rfl, rfl⟩
  refine ⟨.digits, Or.inr rfl, ?_⟩
  have hall : ∀ c ∈ Nat.toDigits 10 n.natAbs, isDecimal c = true :=
    fun c hc => isDecimal_of_mem_toDigits hc
  rcases hds : Nat.toDigits 10 n.natAbs with _ | ⟨c, cs⟩
  · exact absurd hds Nat.toDigits_ne_nil
  have hc : isDecimal c = true := hall c (by rw [hds]; simp)
  have hc0 : c ≠ '0' := by
    rintro rfl
    exact hz (head_toDigits_eq_zero (b := 10) (by decide) (by rw [hds]; rfl))
  have hcs : ∀ x ∈ cs, isDecimal x = true := fun x hx => hall x (by rw [hds]; simp [hx])
  have hrange : 48 ≤ c.toNat ∧ c.toNat ≤ 57 := by simpa [isDecimal] using hc
  have hne : ∀ x : Char, ¬ (48 ≤ x.toNat ∧ x.toNat ≤ 57) → c ≠ x := by
    rintro x hx rfl
    exact hx hrange
  by_cases hneg : n < 0
  · rw [intText, if_pos hneg, hds, readAll_cons]
    show readAll d ⟨.number .minus ['-'], σ⟩ (c :: cs) = _
    have hread : read d ⟨.number .minus ['-'], σ⟩ c = .ok ⟨.number .digits [c, '-'], σ⟩ := by
      simp [read, NumState.next, hc, hc0, hne 'I' (by decide)]
    rw [readAll_cons, hread]
    simp only [Except.bind]
    rw [readAll_digits cs hcs]
    simp
  · rw [intText, if_neg hneg, hds, readAll_cons]
    have hread : read d ⟨.value, σ⟩ c = .ok ⟨.number .digits [c], σ⟩ := by
      simp [read, isBlank, startValue, hc, hc0, hne ' ' (by decide), hne '\t' (by decide),
        hne '\n' (by decide), hne '\r' (by decide), hne '"' (by decide), hne '{' (by decide),
        hne '[' (by decide), hne 'n' (by decide), hne 't' (by decide), hne 'f' (by decide),
        hne 'N' (by decide), hne 'I' (by decide), hne '-' (by decide)]
    rw [hread]
    simp only [Except.bind]
    rw [readAll_digits cs hcs]
    simp

/-! ### Floats -/

theorem numState_append {cs : List Char} (hcs : cs ≠ []) (c : Char) :
    numState (cs ++ [c]) = numState cs >>= fun st => st.next c := by
  rcases cs with _ | ⟨a, as⟩
  · exact absurd rfl hcs
  · simp [numState, List.foldlM_append, Option.bind_assoc]

/-- A first character of a number starts one. -/
theorem read_start {c : Char} {st : NumState} (h : NumState.start c = some st)
    (σ : List Container) : read d ⟨.value, σ⟩ c = .ok ⟨.number st [c], σ⟩ := by
  unfold NumState.start at h
  split_ifs at h with hminus hzero hdec
  · subst hminus
    cases h
    rfl
  · subst hzero
    cases h
    rfl
  · cases h
    have hrange : 48 ≤ c.toNat ∧ c.toNat ≤ 57 := by simpa [isDecimal] using hdec
    have hne : ∀ x : Char, ¬ (48 ≤ x.toNat ∧ x.toNat ≤ 57) → c ≠ x := by
      rintro x hx rfl
      exact hx hrange
    simp [read, isBlank, startValue, hdec, hminus, hzero, hne ' ' (by decide),
      hne '\t' (by decide), hne '\n' (by decide), hne '\r' (by decide), hne '"' (by decide),
      hne '{' (by decide), hne '[' (by decide), hne 'n' (by decide), hne 't' (by decide),
      hne 'f' (by decide), hne 'N' (by decide), hne 'I' (by decide)]

/-- The reader inside a number stands where the text so far says. -/
theorem readAll_numState (σ : List Container) :
    ∀ (cs : List Char) (st : NumState), numState cs = some st →
      readAll d ⟨.value, σ⟩ cs = .ok ⟨.number st cs.reverse, σ⟩ := by
  intro cs
  induction cs using List.reverseRec with
  | nil => intro st h; cases h
  | append_singleton cs c ih =>
      intro st h
      by_cases hcs : cs = []
      · subst hcs
        have hstart : NumState.start c = some st := by simpa [numState] using h
        rw [List.nil_append, readAll_cons, read_start hstart]
        rfl
      · rw [numState_append hcs] at h
        obtain ⟨st₀, h₀, hnext⟩ := Option.bind_eq_some_iff.mp h
        have hI : ¬ (st₀ = .minus ∧ c = 'I') := by
          rintro ⟨rfl, rfl⟩
          revert hnext
          simp [NumState.next, isDecimal]
        rw [readAll_append, ih st₀ h₀]
        simp only [Except.bind]
        rw [readAll_cons]
        simp [read, hI, hnext, Except.bind]

/-! ### Values -/

/-- From here on the reader behaves as if `v` were complete on top of `σ`. -/
structure Settles (d : Nat) (r : Reader) (v : Json) (σ : List Container) : Prop where
  next : ∀ c, c = ',' ∨ c = ']' ∨ c = '}' → read d r c = afterValue v σ c
  finish : finish r = finish ⟨.done v, σ⟩

theorem settles_done (v : Json) (σ : List Container) : Settles d ⟨.done v, σ⟩ v σ :=
  ⟨fun _ _ => rfl, rfl⟩

/-- A number that is complete settles at the next character. -/
theorem settles_of_end {st : NumState} {acc : List Char} {v : Json}
    (hst : st = .zero ∨ st = .digits ∨ st = .fraction ∨ st = .exponentDigits)
    (hend : endNumber st acc = .ok v) (σ : List Container) :
    Settles d ⟨.number st acc, σ⟩ v σ := by
  constructor
  · intro c hc
    have hnext : st.next c = none := by
      rcases hst with rfl | rfl | rfl | rfl <;> rcases hc with rfl | rfl | rfl <;> rfl
    have hminus : ¬ (st = .minus ∧ c = 'I') := by
      rcases hst with rfl | rfl | rfl | rfl <;> simp
    simp [read, hminus, hnext, hend, Except.bind]
  · simp [Json.finish, hend, Except.bind]

theorem settles_number {n : Int} (hn : strFits n = true) {st : NumState}
    (hst : st = .zero ∨ st = .digits) (σ : List Container) :
    Settles d ⟨.number st (intText n).reverse, σ⟩ (.int n) σ := by
  rcases hst with rfl | rfl
  · exact settles_of_end (.inl rfl) (by simp [endNumber, readInt_intText hn]) σ
  · exact settles_of_end (.inr (.inl rfl)) (by simp [endNumber, readInt_intText hn]) σ

/-- After the text of a float the reader behaves as if the float were complete. -/
theorem readAll_float {lit : String} (h : isFloatLit lit.toList = true) (σ : List Container) :
    ∃ r, readAll d ⟨.value, σ⟩ lit.toList = .ok r ∧ Settles d r (.float lit) σ := by
  have hword : ∀ w : String, lit.toList = w.toList → lit = w := fun w hw => String.toList_inj.mp hw
  have hnum : ∀ st, st = .fraction ∨ st = .exponentDigits → numState lit.toList = some st →
      ∃ r, readAll d ⟨.value, σ⟩ lit.toList = .ok r ∧ Settles d r (.float lit) σ := by
    intro st hst hrun
    have hend : endNumber st lit.toList.reverse = .ok (.float lit) := by
      rcases hst with rfl | rfl <;> simp [endNumber]
    exact ⟨_, readAll_numState σ _ st hrun, settles_of_end (.inr (.inr hst)) hend σ⟩
  simp only [isFloatLit, Bool.or_eq_true, beq_iff_eq] at h
  rcases h with (((h | h) | h) | h) | h
  · cases hword "NaN" h
    exact ⟨_, rfl, settles_done _ σ⟩
  · cases hword "Infinity" h
    exact ⟨_, rfl, settles_done _ σ⟩
  · cases hword "-Infinity" h
    exact ⟨_, rfl, settles_done _ σ⟩
  · exact hnum _ (Or.inl rfl) h
  · exact hnum _ (Or.inr rfl) h

/-- The first character of a number. -/
theorem numState_head {cs : List Char} {st : NumState} (h : numState cs = some st) :
    ∃ c rest, cs = c :: rest ∧ (c = '-' ∨ isDecimal c = true) := by
  rcases cs with _ | ⟨c, rest⟩
  · cases h
  · obtain ⟨st₀, h₀, -⟩ := Option.bind_eq_some_iff.mp h
    refine ⟨c, rest, rfl, ?_⟩
    unfold NumState.start at h₀
    split_ifs at h₀ with hminus hzero hdec
    · exact Or.inl hminus
    · subst hzero
      exact Or.inr (by decide)
    · exact Or.inr hdec

theorem head_of_isDecimal {c : Char} (hc : isDecimal c = true) : isBlank c = false ∧ c ≠ ']' := by
  refine ⟨?_, ?_⟩
  · simp only [isBlank, Bool.or_eq_false_iff, beq_eq_false_iff_ne]
    refine ⟨⟨⟨?_, ?_⟩, ?_⟩, ?_⟩ <;>
      · rintro rfl
        exact absurd hc (by decide)
  · rintro rfl
    exact absurd hc (by decide)

/-- No printed value starts with a blank or a closing bracket. -/
theorem print_head : ∀ v : Json, Plain v → ∃ c cs, print v = c :: cs ∧
    isBlank c = false ∧ c ≠ ']'
  | null, _ => ⟨_, _, rfl, by decide, by decide⟩
  | bool true, _ => ⟨_, _, rfl, by decide, by decide⟩
  | bool false, _ => ⟨_, _, rfl, by decide, by decide⟩
  | str _, _ => ⟨_, _, rfl, by decide, by decide⟩
  | arr _, _ => ⟨_, _, rfl, by decide, by decide⟩
  | obj _, _ => ⟨_, _, rfl, by decide, by decide⟩
  | float lit, h => by
      have hnum : ∀ st, numState lit.toList = some st →
          ∃ c cs, print (.float lit) = c :: cs ∧ isBlank c = false ∧ c ≠ ']' := by
        intro st hst
        obtain ⟨c, cs, hcs, hc⟩ := numState_head hst
        refine ⟨c, cs, hcs, ?_⟩
        rcases hc with rfl | hc
        · exact ⟨by decide, by decide⟩
        · exact head_of_isDecimal hc
      simp only [Plain, isFloatLit, Bool.or_eq_true, beq_iff_eq] at h
      rcases h with (((h | h) | h) | h) | h
      · exact ⟨_, _, h, by decide, by decide⟩
      · exact ⟨_, _, h, by decide, by decide⟩
      · exact ⟨_, _, h, by decide, by decide⟩
      · exact hnum _ h
      · exact hnum _ h
  | int n, _ => by
      by_cases hneg : n < 0
      · exact ⟨'-', Nat.toDigits 10 n.natAbs, by rw [print, intText, if_pos hneg], by decide,
          by decide⟩
      · rcases hds : Nat.toDigits 10 n.natAbs with _ | ⟨c, cs⟩
        · exact absurd hds Nat.toDigits_ne_nil
        · have hc : isDecimal c = true := isDecimal_of_mem_toDigits (by rw [hds]; simp)
          exact ⟨c, cs, by rw [print, intText, if_neg hneg, hds], head_of_isDecimal hc⟩

/-- Just after `[` a printed value is read as anywhere else. -/
theorem readAll_arrFirst {v : Json} (hv : Plain v) (σ : List Container) (rest : List Char) :
    readAll d ⟨.arrFirst, σ⟩ (print v ++ rest) = readAll d ⟨.value, σ⟩ (print v ++ rest) := by
  obtain ⟨c, cs, hp, hblank, hclose⟩ := print_head v hv
  rw [hp, List.cons_append, readAll_cons, readAll_cons]
  simp [read, hblank, hclose]

/-! ### Containers

What one token does to a reader that is between two values.  The equations are about the rest of
the text, so that the two inductions below, on texts that fit and on texts that nest too deeply,
are both rewriting with them. -/

theorem readAll_openArr {σ : List Container} (h : σ.length < d) (cs : List Char) :
    readAll d ⟨.value, σ⟩ ('[' :: cs) = readAll d ⟨.arrFirst, .arr [] :: σ⟩ cs := by
  have hopen : read d ⟨.value, σ⟩ '[' = .ok ⟨.arrFirst, .arr [] :: σ⟩ := by
    simp [read, isBlank, startValue, h]
  rw [readAll_cons, hopen]
  rfl

theorem readAll_openObj {σ : List Container} (h : σ.length < d) (cs : List Char) :
    readAll d ⟨.value, σ⟩ ('{' :: cs) = readAll d ⟨.objFirst, .obj [] none :: σ⟩ cs := by
  have hopen : read d ⟨.value, σ⟩ '{' = .ok ⟨.objFirst, .obj [] none :: σ⟩ := by
    simp [read, isBlank, startValue, h]
  rw [readAll_cons, hopen]
  rfl

/-- A key and its colon, where a key may stand. -/
theorem readAll_key {mode : Mode} (hmode : mode = .objFirst ∨ mode = .objKey)
    (fields : List (String × Json)) (key : Option String) (σ : List Container) (k : String)
    (cs : List Char) :
    readAll d ⟨mode, .obj fields key :: σ⟩ (quote k ++ ':' :: cs)
      = readAll d ⟨.value, .obj fields (some k) :: σ⟩ cs := by
  have hcolon : read d ⟨.colon, .obj fields (some k) :: σ⟩ ':'
      = .ok ⟨.value, .obj fields (some k) :: σ⟩ := rfl
  rw [readAll_append, readAll_quote_key k hmode]
  simp only [Except.bind]
  rw [readAll_cons, hcolon]
  rfl

theorem Settles.readAll_comma_arr {r : Reader} {v : Json} {acc : List Json} {σ : List Container}
    (h : Settles d r v (.arr acc :: σ)) (cs : List Char) :
    readAll d r (',' :: cs) = readAll d ⟨.value, .arr (v :: acc) :: σ⟩ cs := by
  rw [readAll_cons, h.next ',' (by simp)]
  rfl

theorem Settles.readAll_comma_obj {r : Reader} {v : Json} {acc : List (String × Json)} {k : String}
    {σ : List Container} (h : Settles d r v (.obj acc (some k) :: σ))
    (hk : k ∉ acc.map Prod.fst) (cs : List Char) :
    readAll d r (',' :: cs) = readAll d ⟨.objKey, .obj (acc ++ [(k, v)]) none :: σ⟩ cs := by
  rw [readAll_cons, h.next ',' (by simp)]
  simp [afterValue, isBlank, Dict.setIn_of_not_mem hk, Except.bind]

/-- The key whose value is read is none of those before it. -/
theorem not_mem_of_nodup_append {acc rest : List (String × Json)} {k : String} {v : Json}
    (h : ((acc ++ (k, v) :: rest).map Prod.fst).Nodup) : k ∉ acc.map Prod.fst := by
  rw [List.map_append] at h
  intro hmem
  exact (List.nodup_append.mp h).2.2 k hmem k (by simp) rfl

mutual

/-- After the text of a value the reader has that value. -/
theorem readAll_print : ∀ (v : Json), Plain v → ∀ σ : List Container, σ.length + depth v ≤ d →
    ∃ r, readAll d ⟨.value, σ⟩ (print v) = .ok r ∧ Settles d r v σ
  | null, _, σ, _ => ⟨_, rfl, settles_done _ σ⟩
  | bool true, _, σ, _ => ⟨_, rfl, settles_done _ σ⟩
  | bool false, _, σ, _ => ⟨_, rfl, settles_done _ σ⟩
  | float _, h, σ, _ => readAll_float h σ
  | str s, _, σ, _ => ⟨_, readAll_quote s σ, settles_done _ σ⟩
  | int n, h, σ, _ => by
      obtain ⟨st, hst, hread⟩ := readAll_intText (d := d) n σ
      exact ⟨_, hread, settles_number h hst σ⟩
  | arr [], _, σ, hd => by
      refine ⟨_, ?_, settles_done _ σ⟩
      have hlt : σ.length < d := by simp [depth] at hd; omega
      simp [print, printItems, readAll_openArr hlt, readAll_cons, read, isBlank, Except.bind]
  | arr (v :: rest), h, σ, hd => by
      have hlt : σ.length < d := by simp only [depth, itemsDepth] at hd; omega
      have hdv : (Container.arr [] :: σ).length + depth v ≤ d := by
        simp only [depth, itemsDepth, List.length_cons] at hd ⊢; omega
      have hdr : σ.length + 1 + itemsDepth rest ≤ d := by
        simp only [depth, itemsDepth] at hd; omega
      obtain ⟨r, hread, hset⟩ := readAll_print v h.1 (.arr [] :: σ) hdv
      refine ⟨_, ?_, settles_done _ σ⟩
      rw [print, printItems, List.cons_append, readAll_openArr hlt, List.append_assoc,
        readAll_arrFirst h.1, readAll_append, hread]
      simp only [Except.bind]
      rw [readAll_moreItems rest h.2 σ hdr [] r v hset]
      rfl
  | obj [], _, σ, hd => by
      refine ⟨_, ?_, settles_done _ σ⟩
      have hlt : σ.length < d := by simp [depth] at hd; omega
      simp [print, printFields, readAll_openObj hlt, readAll_cons, read, isBlank, Except.bind]
  | obj ((k, v) :: rest), h, σ, hd => by
      have hlt : σ.length < d := by simp only [depth, fieldsDepth] at hd; omega
      have hdv : (Container.obj [] (some k) :: σ).length + depth v ≤ d := by
        simp only [depth, fieldsDepth, List.length_cons] at hd ⊢; omega
      have hdr : σ.length + 1 + fieldsDepth rest ≤ d := by
        simp only [depth, fieldsDepth] at hd; omega
      obtain ⟨r, hread, hset⟩ := readAll_print v h.2.1 (.obj [] (some k) :: σ) hdv
      refine ⟨_, ?_, settles_done _ σ⟩
      have hnd : (([] : List (String × Json)) ++ (k, v) :: rest).map Prod.fst |>.Nodup := h.1
      rw [print, printFields, List.cons_append, readAll_openObj hlt]
      simp only [List.append_assoc, List.cons_append]
      rw [readAll_key (Or.inl rfl), readAll_append, hread]
      simp only [Except.bind]
      rw [readAll_moreFields rest h.2.2 σ hdr [] k r v hset hnd]
      rfl

/-- The rest of an array. -/
theorem readAll_moreItems : ∀ (rest : List Json), PlainItems rest → ∀ σ : List Container,
    σ.length + 1 + itemsDepth rest ≤ d → ∀ (acc : List Json) (r : Reader) (v : Json),
      Settles d r v (.arr acc :: σ) →
      readAll d r (printMoreItems rest ++ [']'])
        = .ok ⟨.done (.arr ((v :: acc).reverse ++ rest)), σ⟩
  | [], _, σ, _, acc, r, v, hset => by
      simp [printMoreItems, readAll_cons, hset.next ']' (by simp), afterValue, isBlank, Except.bind]
  | w :: rest, h, σ, hd, acc, r, v, hset => by
      have hdw : (Container.arr (v :: acc) :: σ).length + depth w ≤ d := by
        simp only [itemsDepth, List.length_cons] at hd ⊢; omega
      have hdr : σ.length + 1 + itemsDepth rest ≤ d := by
        simp only [itemsDepth] at hd; omega
      obtain ⟨r', hread, hset'⟩ := readAll_print w h.1 (.arr (v :: acc) :: σ) hdw
      rw [printMoreItems, List.cons_append, List.cons_append, hset.readAll_comma_arr,
        List.append_assoc, readAll_append, hread]
      simp only [Except.bind]
      rw [readAll_moreItems rest h.2 σ hdr (v :: acc) r' w hset']
      simp

/-- The rest of an object. -/
theorem readAll_moreFields : ∀ (rest : List (String × Json)), PlainFields rest →
    ∀ σ : List Container, σ.length + 1 + fieldsDepth rest ≤ d →
    ∀ (acc : List (String × Json)) (k : String) (r : Reader) (v : Json),
      Settles d r v (.obj acc (some k) :: σ) → ((acc ++ (k, v) :: rest).map Prod.fst).Nodup →
      readAll d r (printMoreFields rest ++ ['}'])
        = .ok ⟨.done (.obj (acc ++ (k, v) :: rest)), σ⟩
  | [], _, σ, _, acc, k, r, v, hset, hnd => by
      simp [printMoreFields, readAll_cons, hset.next '}' (by simp), afterValue, isBlank,
        Except.bind, Dict.setIn_of_not_mem (not_mem_of_nodup_append hnd)]
  | (l, w) :: rest, h, σ, hd, acc, k, r, v, hset, hnd => by
      have hdw : (Container.obj (acc ++ [(k, v)]) (some l) :: σ).length + depth w ≤ d := by
        simp only [fieldsDepth, List.length_cons] at hd ⊢; omega
      have hdr : σ.length + 1 + fieldsDepth rest ≤ d := by
        simp only [fieldsDepth] at hd; omega
      obtain ⟨r', hread, hset'⟩ :=
        readAll_print w h.1 (.obj (acc ++ [(k, v)]) (some l) :: σ) hdw
      have hnd' : (((acc ++ [(k, v)]) ++ (l, w) :: rest).map Prod.fst).Nodup := by
        simpa using hnd
      rw [printMoreFields]
      simp only [List.cons_append, List.append_assoc]
      rw [hset.readAll_comma_obj (not_mem_of_nodup_append hnd), readAll_key (Or.inr rfl),
        readAll_append, hread]
      simp only [Except.bind]
      rw [readAll_moreFields rest h.2 σ hdr (acc ++ [(k, v)]) l r' w hset' hnd']
      simp

end

/-- **`json.loads(json.dumps(v)) == v`**, for values nested no deeper than the interpreter allows. -/
theorem loads_print {v : Json} (hv : Plain v) (hd : depth v ≤ d) : loads d (print v) = .ok v := by
  obtain ⟨r, hread, hset⟩ := readAll_print (d := d) v hv [] (by simpa using hd)
  rw [loads, hread]
  simp only [Except.bind]
  rw [hset.finish]
  rfl

end

/-! ### The nesting limit only ever turns success into failure -/

theorem read_mono {d d' : Nat} (h : d ≤ d') {r r' : Reader} {c : Char}
    (hr : read d r c = .ok r') : read d' r c = .ok r' := by
  have hopen : ∀ (σ : List Container) (x : Reader),
      (if σ.length < d then Except.ok x else .error LoadsError.recursion) = .ok r' →
      (if σ.length < d' then Except.ok x else .error LoadsError.recursion) = .ok r' := by
    intro σ x hx
    by_cases hlt : σ.length < d
    · rw [if_pos hlt] at hx
      rwa [if_pos (Nat.lt_of_lt_of_le hlt h)]
    · rw [if_neg hlt] at hx
      cases hx
  have hstart : ∀ σ, startValue d σ c = .ok r' → startValue d' σ c = .ok r' := by
    intro σ hσ
    by_cases hobj : c = '{'
    · subst hobj
      exact hopen σ _ hσ
    · by_cases harr : c = '['
      · subst harr
        exact hopen σ _ hσ
      · simp only [startValue, if_neg hobj, if_neg harr] at hσ ⊢
        exact hσ
  obtain ⟨mode, σ⟩ := r
  cases mode with
  | value =>
      simp only [read] at hr ⊢
      split_ifs at hr ⊢ with hb
      · exact hr
      · exact hstart σ hr
  | arrFirst =>
      simp only [read] at hr ⊢
      split_ifs at hr ⊢ with hb hc
      · exact hr
      · exact hr
      · exact hstart σ hr
  | _ => exact hr

theorem readAll_mono {d d' : Nat} (h : d ≤ d') :
    ∀ (cs : List Char) {r r' : Reader}, readAll d r cs = .ok r' → readAll d' r cs = .ok r' := by
  intro cs
  induction cs with
  | nil => intro r r' hr; exact hr
  | cons c cs ih =>
      intro r r' hr
      rw [readAll_cons] at hr ⊢
      cases hc : read d r c with
      | error e => rw [hc] at hr; cases hr
      | ok r₁ =>
          rw [hc] at hr
          rw [read_mono h hc]
          exact ih hr

/-- Whatever the nesting limit, loading a printed value never yields another value. -/
theorem eq_of_loads_print {d : Nat} {v w : Json} (hv : Plain v)
    (h : loads d (print v) = .ok w) : w = v := by
  have hbig : loads (max d (depth v)) (print v) = .ok w := by
    unfold loads at h ⊢
    cases hr : readAll d ⟨.value, []⟩ (print v) with
    | error e => rw [hr] at h; cases h
    | ok r =>
        rw [hr] at h
        rw [readAll_mono (Nat.le_max_left d (depth v)) _ hr]
        exact h
  rw [loads_print hv (Nat.le_max_right d (depth v))] at hbig
  cases hbig
  rfl

/-! ### The printed text is ASCII -/

/-- Every character is an ASCII one. -/
def Ascii (cs : List Char) : Prop := ∀ c ∈ cs, c.toNat < 128

theorem ascii_append {xs ys : List Char} : Ascii (xs ++ ys) ↔ Ascii xs ∧ Ascii ys := by
  simp [Ascii, or_imp, forall_and]

theorem ascii_cons {c : Char} {cs : List Char} : Ascii (c :: cs) ↔ c.toNat < 128 ∧ Ascii cs := by
  simp [Ascii]

theorem ascii_nil : Ascii [] := by simp [Ascii]

theorem digitChar_lt {d : Nat} (h : d < 16) : d.digitChar.toNat < 128 := by
  revert d
  decide

theorem ascii_hex4 (n : Nat) : Ascii (hex4 n) := by
  have hlt : ∀ m : Nat, (m % 16).digitChar.toNat < 128 :=
    fun m => digitChar_lt (Nat.mod_lt m (by decide))
  simp [hex4, ascii_cons, ascii_nil, hlt]

theorem ascii_escapeChar (c : Char) : Ascii (escapeChar c) := by
  unfold escapeChar
  split_ifs with h₁ h₂ h₃ <;> simp [ascii_cons, ascii_append, ascii_nil, ascii_hex4]
  omega

theorem ascii_quote (s : String) : Ascii (quote s) := by
  have hbody : Ascii (s.toList.flatMap escapeChar) := by
    intro x hx
    obtain ⟨c, -, hc⟩ := List.mem_flatMap.mp hx
    exact ascii_escapeChar c x hc
  simp [quote, ascii_cons, ascii_append, ascii_nil, hbody]

theorem ascii_intText (n : Int) : Ascii (intText n) := by
  have hds : Ascii (Nat.toDigits 10 n.natAbs) :=
    forall_mem_toDigits (by decide) (fun d hd => digitChar_lt (by omega)) _
  unfold intText
  split_ifs
  · exact ascii_cons.mpr ⟨by decide, hds⟩
  · exact hds

theorem ascii_numState {cs : List Char} {st : NumState} (h : numState cs = some st) :
    Ascii cs := by
  have hdec : ∀ c, isDecimal c = true → c.toNat < 128 := by
    intro c hc
    simp only [isDecimal, Bool.and_eq_true, decide_eq_true_eq] at hc
    omega
  induction cs using List.reverseRec generalizing st with
  | nil => exact ascii_nil
  | append_singleton cs c ih =>
      rw [ascii_append, ascii_cons]
      by_cases hcs : cs = []
      · subst hcs
        obtain ⟨c', rest, heq, hc⟩ := numState_head h
        cases heq
        refine ⟨ascii_nil, ?_, ascii_nil⟩
        rcases hc with rfl | hc
        · decide
        · exact hdec c hc
      · rw [numState_append hcs] at h
        obtain ⟨st₀, h₀, hnext⟩ := Option.bind_eq_some_iff.mp h
        refine ⟨ih h₀, ?_, ascii_nil⟩
        by_cases hd : isDecimal c = true
        · exact hdec c hd
        · have hc : c = '0' ∨ c = '.' ∨ c = 'e' ∨ c = 'E' ∨ c = '+' ∨ c = '-' := by
            by_contra hno
            push Not at hno
            cases st₀ <;> simp_all [NumState.next]
          rcases hc with rfl | rfl | rfl | rfl | rfl | rfl <;> decide

theorem ascii_floatLit {lit : String} (h : isFloatLit lit.toList = true) : Ascii lit.toList := by
  simp only [isFloatLit, Bool.or_eq_true, beq_iff_eq] at h
  rcases h with (((h | h) | h) | h) | h
  · rw [h]; simp [ascii_cons, ascii_nil]
  · rw [h]; simp [ascii_cons, ascii_nil]
  · rw [h]; simp [ascii_cons, ascii_nil]
  · exact ascii_numState h
  · exact ascii_numState h

mutual

theorem ascii_print : ∀ v : Json, Plain v → Ascii (print v)
  | null, _ => by simp [print, ascii_cons, ascii_nil]
  | bool true, _ => by simp [print, ascii_cons, ascii_nil]
  | bool false, _ => by simp [print, ascii_cons, ascii_nil]
  | int n, _ => ascii_intText n
  | float _, h => ascii_floatLit h
  | str s, _ => ascii_quote s
  | arr [], _ => by simp [print, printItems, ascii_cons, ascii_nil]
  | arr (v :: rest), h => by
      simp [print, printItems, ascii_cons, ascii_append, ascii_nil, ascii_print v h.1,
        ascii_printMoreItems rest h.2]
  | obj [], _ => by simp [print, printFields, ascii_cons, ascii_nil]
  | obj ((k, v) :: rest), h => by
      simp [print, printFields, ascii_cons, ascii_append, ascii_nil, ascii_quote,
        ascii_print v h.2.1, ascii_printMoreFields rest h.2.2]

theorem ascii_printMoreItems : ∀ l : List Json, PlainItems l → Ascii (printMoreItems l)
  | [], _ => ascii_nil
  | v :: rest, h => by
      simp [printMoreItems, ascii_cons, ascii_append, ascii_print v h.1,
        ascii_printMoreItems rest h.2]

theorem ascii_printMoreFields : ∀ l : List (String × Json), PlainFields l →
    Ascii (printMoreFields l)
  | [], _ => ascii_nil
  | (k, v) :: rest, h => by
      simp [printMoreFields, ascii_cons, ascii_append, ascii_quote, ascii_print v h.1,
        ascii_printMoreFields rest h.2]

end

end Py.Json
