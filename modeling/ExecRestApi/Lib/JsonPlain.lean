/-
What `json.loads` returns is plain: its objects have distinct keys, its integers can
be printed and its floats are float literals.

One character preserves this of everything the reader holds, the values on its stack
and the one it is in the middle of; a whole text preserves it by induction.
-/
import ExecRestApi.Lib.JsonRoundTrip

namespace Py.Json

theorem plainItems_iff {l : List Json} : PlainItems l ↔ ∀ v ∈ l, Plain v := by
  induction l with
  | nil => simp [PlainItems]
  | cons v rest ih => simp [PlainItems, ih]

theorem plainFields_iff {l : List (String × Json)} : PlainFields l ↔ ∀ p ∈ l, Plain p.2 := by
  induction l with
  | nil => simp [PlainFields]
  | cons p rest ih =>
      obtain ⟨k, v⟩ := p
      simp only [PlainFields, ih, List.forall_mem_cons]

/-- The fields of an object whose parts are plain. -/
def PlainObj (fields : List (String × Json)) : Prop :=
  (fields.map Prod.fst).Nodup ∧ ∀ p ∈ fields, Plain p.2

theorem plain_obj {fields : List (String × Json)} : Plain (obj fields) ↔ PlainObj fields := by
  rw [Plain, plainFields_iff, PlainObj]

theorem plain_arr {items : List Json} : Plain (arr items) ↔ ∀ v ∈ items, Plain v := by
  rw [Plain, plainItems_iff]

theorem plainObj_setIn {fields : List (String × Json)} {k : String} {v : Json}
    (h : PlainObj fields) (hv : Plain v) : PlainObj (Dict.setIn k v fields) := by
  refine ⟨((⟨fields, h.1⟩ : Dict String Json).set k v).nodup, ?_⟩
  intro p hp
  induction fields with
  | nil =>
      rw [List.mem_singleton.mp hp]
      exact hv
  | cons q rest ih =>
      obtain ⟨l, w⟩ := q
      have hrest : PlainObj rest :=
        ⟨(List.nodup_cons.mp h.1).2, fun x hx => h.2 x (List.mem_cons_of_mem _ hx)⟩
      by_cases hl : l = k
      · simp only [Dict.setIn, if_pos hl, List.mem_cons] at hp
        rcases hp with rfl | hp
        · exact hv
        · exact hrest.2 p hp
      · simp only [Dict.setIn, if_neg hl, List.mem_cons] at hp
        rcases hp with rfl | hp
        · exact h.2 _ (by simp)
        · exact ih hrest hp

/-! ### Integers -/

theorem hexVal_lt_ten {c : Char} (h : isDecimal c = true) : (hexVal c).getD 0 < 10 := by
  simp only [isDecimal, Bool.and_eq_true, decide_eq_true_eq] at h
  simp only [hexVal, if_pos h, Option.getD_some]
  omega

theorem plain_readInt {text : List Char} {v : Json} (h : readInt text = .ok v) : Plain v := by
  unfold readInt at h
  simp only at h
  split_ifs at h with hlen hneg
  all_goals
    cases h
    have hlt := foldDigits_lt ((splitMinus text).2.takeWhile isDecimal)
      (fun c hc => hexVal_lt_ten (List.mem_takeWhile_imp hc)) 0
    have hpow : (10 : Nat) ^ ((splitMinus text).2.takeWhile isDecimal).length
        ≤ 10 ^ maxStrDigits := Nat.pow_le_pow_right (by decide) hlen
    simp only [Plain, strFits_iff, Int.natAbs_neg, Int.natAbs_natCast]
    rw [Nat.zero_add, Nat.one_mul] at hlt
    exact Nat.lt_of_lt_of_le hlt hpow

/-! ### What the reader holds -/

/-- The values in an open container are plain. -/
def Container.Plain : Container → Prop
  | .arr acc => ∀ v ∈ acc, Json.Plain v
  | .obj acc _ => PlainObj acc

/-- The value being read is plain as far as it is known. -/
def Mode.Plain : Mode → Prop
  | .word _ v => Json.Plain v
  | .number st text => numState text.reverse = some st
  | .done v => Json.Plain v
  | _ => True

/-- Everything the reader holds is plain. -/
structure Reader.Plain (r : Reader) : Prop where
  mode : r.mode.Plain
  stack : ∀ c ∈ r.stack, c.Plain

theorem plain_endNumber {st : NumState} {text : List Char} {v : Json}
    (hst : numState text.reverse = some st) (h : endNumber st text = .ok v) : Plain v := by
  have hbind : ∀ x : Except LoadsError Json,
      (x.bind fun _ => (.error .decode : Except LoadsError Json)) ≠ .ok v := by
    intro x
    cases x <;> simp [Except.bind]
  unfold endNumber at h
  split at h
  · cases h
  · exact plain_readInt h
  · exact plain_readInt h
  · cases h
    simp [Plain, isFloatLit, hst]
  · cases h
    simp [Plain, isFloatLit, hst]
  · cases h
  · cases h
  · exact absurd h (hbind _)
  · exact absurd h (hbind _)
  · exact absurd h (hbind _)

section

variable {d : Nat} {σ : List Container}

theorem plain_startValue {c : Char} {r : Reader} (hσ : ∀ x ∈ σ, Container.Plain x)
    (h : startValue d σ c = .ok r) : r.Plain := by
  have hnum : ∀ st, NumState.start c = some st →
      Reader.Plain ⟨.number st [c], σ⟩ := by
    intro st hst
    refine ⟨?_, hσ⟩
    simpa [Mode.Plain, numState] using hst
  have hword : ∀ rest lit, isFloatLit lit.toList = true →
      Reader.Plain ⟨.word rest (.float lit), σ⟩ := fun rest lit hlit => ⟨hlit, hσ⟩
  unfold startValue at h
  by_cases h1 : c = '"'
  · rw [if_pos h1] at h
    cases h
    exact ⟨trivial, hσ⟩
  rw [if_neg h1] at h
  by_cases h2 : c = '{'
  · rw [if_pos h2] at h
    split_ifs at h
    cases h
    exact ⟨trivial, List.forall_mem_cons.mpr ⟨⟨by simp, by simp⟩, hσ⟩⟩
  rw [if_neg h2] at h
  by_cases h3 : c = '['
  · rw [if_pos h3] at h
    split_ifs at h
    cases h
    exact ⟨trivial, List.forall_mem_cons.mpr ⟨by simp [Container.Plain], hσ⟩⟩
  rw [if_neg h3] at h
  split_ifs at h with h4 h5 h6 h7 h8 h9 h10 h11
  · cases h; exact ⟨trivial, hσ⟩
  · cases h; exact ⟨trivial, hσ⟩
  · cases h; exact ⟨trivial, hσ⟩
  · cases h; exact hword _ _ (by decide)
  · cases h; exact hword _ _ (by decide)
  · subst h9
    cases h
    exact hnum _ rfl
  · subst h10
    cases h
    exact hnum _ rfl
  · cases h
    exact hnum _ (by simp [NumState.start, h9, h10, h11])

theorem plain_afterValue {v : Json} {c : Char} {r : Reader} (hσ : ∀ x ∈ σ, Container.Plain x)
    (hv : Plain v) (h : afterValue v σ c = .ok r) : r.Plain := by
  unfold afterValue at h
  by_cases hblank : isBlank c = true
  · rw [if_pos hblank] at h
    cases h
    exact ⟨hv, hσ⟩
  · rw [if_neg hblank] at h
    rcases σ with _ | ⟨top, rest⟩
    · cases h
    · obtain ⟨htop, hrest⟩ := List.forall_mem_cons.mp hσ
      rcases top with acc | ⟨acc, key⟩
      · have hacc : ∀ w ∈ v :: acc, Plain w := List.forall_mem_cons.mpr ⟨hv, htop⟩
        simp only at h
        split_ifs at h
        · cases h
          exact ⟨trivial, List.forall_mem_cons.mpr ⟨hacc, hrest⟩⟩
        · cases h
          exact ⟨plain_arr.mpr fun w hw => hacc w (List.mem_reverse.mp hw), hrest⟩
      · rcases key with _ | k
        · cases h
        · have hacc : PlainObj (Dict.setIn k v acc) := plainObj_setIn htop hv
          simp only at h
          split_ifs at h
          · cases h
            exact ⟨trivial, List.forall_mem_cons.mpr ⟨hacc, hrest⟩⟩
          · cases h
            exact ⟨plain_obj.mpr hacc, hrest⟩

theorem plain_endString {isKey : Bool} {acc : List Char} {r : Reader}
    (hσ : ∀ x ∈ σ, Container.Plain x) (h : endString isKey acc σ = .ok r) : r.Plain := by
  unfold endString at h
  cases isKey with
  | false =>
      cases h
      exact ⟨trivial, hσ⟩
  | true =>
      rcases σ with _ | ⟨top, rest⟩
      · cases h
      · obtain ⟨htop, hrest⟩ := List.forall_mem_cons.mp hσ
        rcases top with acc' | ⟨fields, key⟩
        · cases h
        · cases h
          exact ⟨trivial, List.forall_mem_cons.mpr ⟨htop, hrest⟩⟩

/-- One character keeps everything plain. -/
theorem plain_read {r r' : Reader} {c : Char} (hr : r.Plain) (h : read d r c = .ok r') :
    r'.Plain := by
  obtain ⟨mode, σ⟩ := r
  obtain ⟨hmode, hσ⟩ := hr
  have htail : ∀ x ∈ σ.tail, Container.Plain x := fun x hx => hσ x (List.mem_of_mem_tail hx)
  have hpush : ∀ isKey acc high u, (pushUnit isKey acc high u).Plain := by
    intro isKey acc high u
    unfold pushUnit
    split <;> split_ifs <;> trivial
  cases mode with
  | value =>
      simp only [read] at h
      split_ifs at h
      · cases h
        exact ⟨trivial, hσ⟩
      · exact plain_startValue hσ h
  | arrFirst =>
      simp only [read] at h
      split_ifs at h
      · cases h
        exact ⟨trivial, hσ⟩
      · cases h
        exact ⟨plain_arr.mpr (by simp), htail⟩
      · exact plain_startValue hσ h
  | objFirst =>
      simp only [read] at h
      split_ifs at h
      · cases h
        exact ⟨trivial, hσ⟩
      · cases h
        exact ⟨trivial, hσ⟩
      · cases h
        exact ⟨plain_obj.mpr ⟨by simp, by simp⟩, htail⟩
  | objKey =>
      simp only [read] at h
      split_ifs at h <;> cases h <;> exact ⟨trivial, hσ⟩
  | colon =>
      simp only [read] at h
      split_ifs at h <;> cases h <;> exact ⟨trivial, hσ⟩
  | string isKey acc high =>
      simp only [read] at h
      split_ifs at h
      · exact plain_endString hσ h
      · cases h
        exact ⟨trivial, hσ⟩
      · cases h
        exact ⟨trivial, hσ⟩
  | escape isKey acc high =>
      simp only [read] at h
      split_ifs at h
      · cases h
        exact ⟨trivial, hσ⟩
      · split at h <;> cases h
        exact ⟨trivial, hσ⟩
  | unicode isKey acc high left code =>
      simp only [read] at h
      split at h
      · cases h
      · split_ifs at h <;> cases h
        · exact ⟨hpush _ _ _ _, hσ⟩
        · exact ⟨trivial, hσ⟩
  | word rest v =>
      simp only [read] at h
      rcases rest with _ | ⟨w, ws⟩
      · cases h
      · simp only at h
        split_ifs at h
        all_goals
          cases h
          exact ⟨hmode, hσ⟩
  | number st text =>
      simp only [read] at h
      split_ifs at h with hI
      · cases h
        exact ⟨by simp [Mode.Plain, Plain, isFloatLit], hσ⟩
      · have htext : text.reverse ≠ [] := by
          intro hnil
          rw [Mode.Plain, hnil] at hmode
          cases hmode
        split at h
        · rename_i st' hnext
          cases h
          refine ⟨?_, hσ⟩
          rw [Mode.Plain, List.reverse_cons, numState_append htext, hmode]
          exact hnext
        · cases hend : endNumber st text with
          | error e =>
              rw [hend] at h
              cases h
          | ok v =>
              rw [hend] at h
              exact plain_afterValue hσ (plain_endNumber hmode hend) h
  | done v => exact plain_afterValue hσ hmode h

theorem plain_readAll (cs : List Char) : ∀ {r r' : Reader}, r.Plain →
    readAll d r cs = .ok r' → r'.Plain := by
  induction cs with
  | nil =>
      intro r r' hr h
      cases h
      exact hr
  | cons c cs ih =>
      intro r r' hr h
      rw [readAll_cons] at h
      cases hc : read d r c with
      | error e =>
          rw [hc] at h
          cases h
      | ok r₁ =>
          rw [hc] at h
          exact ih (plain_read hr hc) h

end

/-- **Every value `json.loads` returns is plain.** -/
theorem plain_of_loads {d : Nat} {text : List Char} {v : Json} (h : loads d text = .ok v) :
    Plain v := by
  unfold loads at h
  cases hr : readAll d ⟨.value, []⟩ text with
  | error e =>
      rw [hr] at h
      cases h
  | ok r =>
      rw [hr] at h
      have hplain : r.Plain := plain_readAll text (r := ⟨.value, []⟩) ⟨trivial, by simp⟩ hr
      have hclose : ∀ w, (if r.stack.isEmpty then Except.ok w else .error LoadsError.decode) = .ok v →
          w = v := by
        intro w hw
        split_ifs at hw
        cases hw
        rfl
      obtain ⟨mode, σ⟩ := r
      cases mode with
      | done w =>
          rw [← hclose w h]
          exact hplain.mode
      | number st t =>
          cases hend : endNumber st t with
          | error e => simp [Except.bind, finish, hend] at h
          | ok w =>
              simp only [Except.bind, finish, hend] at h
              rw [← hclose w h]
              exact plain_endNumber hplain.mode hend
      | _ => cases h

end Py.Json
