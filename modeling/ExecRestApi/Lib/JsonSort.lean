/-
`json.dumps(v, sort_keys=True)` as a canonical form.

Two values have the same text exactly if they are the same up to the order in which
their objects hold their fields: printing is injective on values with sorted keys, and
sorting forgets the order and nothing else.
-/
import ExecRestApi.Lib.JsonPlain
import Mathlib.Data.String.Basic
import Mathlib.Data.List.Sort

namespace Py.Json

/-! ### Induction over a value -/

/-- The containers' parts are smaller, wherever in the container they are. -/
@[elab_as_elim]
theorem induct {P : Json → Prop} (null : P null) (bool : ∀ b, P (bool b)) (int : ∀ n, P (int n))
    (float : ∀ lit, P (float lit)) (str : ∀ s, P (str s))
    (arr : ∀ items, (∀ v ∈ items, P v) → P (arr items))
    (obj : ∀ fields, (∀ p ∈ fields, P p.2) → P (obj fields)) : ∀ v, P v
  | .null => null
  | .bool b => bool b
  | .int n => int n
  | .float lit => float lit
  | .str s => str s
  | .arr items => arr items fun v _ => induct null bool int float str arr obj v
  | .obj fields => obj fields fun p _ => induct null bool int float str arr obj p.2
termination_by v => sizeOf v
decreasing_by
  · have := List.sizeOf_lt_of_mem ‹v ∈ items›
    simp only [Json.arr.sizeOf_spec]
    omega
  · have := List.sizeOf_lt_of_mem ‹p ∈ fields›
    obtain ⟨k, w⟩ := p
    simp only [Json.obj.sizeOf_spec, Prod.mk.sizeOf_spec] at this ⊢
    omega

/-! ### Equal up to the order of fields -/

/-- A value that Python can hold: the keys of an object are distinct, and a float is given by
a float literal. -/
inductive WellShaped : Json → Prop
  | null : WellShaped null
  | bool {b : Bool} : WellShaped (bool b)
  | int {n : Int} : WellShaped (int n)
  | float {lit : String} (h : isFloatLit lit.toList = true) : WellShaped (float lit)
  | str {s : String} : WellShaped (str s)
  | arr {items : List Json} (h : ∀ v ∈ items, WellShaped v) : WellShaped (arr items)
  | obj {fields : List (String × Json)} (hkeys : (fields.map Prod.fst).Nodup)
      (h : ∀ p ∈ fields, WellShaped p.2) : WellShaped (obj fields)

/-- Equal as JSON values: the order of the fields of an object does not count. -/
inductive Same : Json → Json → Prop
  | null : Same null null
  | bool {b : Bool} : Same (bool b) (bool b)
  | int {n : Int} : Same (int n) (int n)
  | float {lit : String} : Same (float lit) (float lit)
  | str {s : String} : Same (str s) (str s)
  | arr {as bs : List Json} (hlen : as.length = bs.length)
      (h : ∀ (i : Nat) v w, as[i]? = some v → bs[i]? = some w → Same v w) :
      Same (arr as) (arr bs)
  | obj {as bs : List (String × Json)}
      (hkeys : ∀ k, (field? as k).isSome = (field? bs k).isSome)
      (h : ∀ k v w, field? as k = some v → field? bs k = some w → Same v w) :
      Same (obj as) (obj bs)

theorem itemsFit_iff {l : List Json} : itemsFit l = true ↔ ∀ v ∈ l, intsFit v = true := by
  induction l with
  | nil => simp [itemsFit]
  | cons v rest ih => simp [itemsFit, ih]

theorem fieldsFit_iff {l : List (String × Json)} :
    fieldsFit l = true ↔ ∀ p ∈ l, intsFit p.2 = true := by
  induction l with
  | nil => simp [fieldsFit]
  | cons p rest ih =>
      obtain ⟨k, v⟩ := p
      simp only [fieldsFit, Bool.and_eq_true, ih, List.forall_mem_cons]

/-- What can be printed is plain. -/
theorem WellShaped.plain {v : Json} (h : WellShaped v) : intsFit v = true → Plain v := by
  induction h with
  | null => intro _; trivial
  | bool => intro _; trivial
  | int => intro hfit; exact hfit
  | float h => intro _; exact h
  | str => intro _; trivial
  | arr _ ih =>
      intro hfit
      exact plain_arr.mpr fun v hv => ih v hv (itemsFit_iff.mp hfit v hv)
  | obj hkeys _ ih =>
      intro hfit
      exact plain_obj.mpr ⟨hkeys, fun p hp => ih p hp (fieldsFit_iff.mp hfit p hp)⟩

/-! ### Sorting the fields -/

/-- Strictly ascending keys. -/
def Sorted (l : List (String × Json)) : Prop := l.Pairwise fun p q => p.1 < q.1

theorem insertField_perm (k : String) (v : Json) (l : List (String × Json)) :
    (insertField k v l).Perm ((k, v) :: l) := by
  induction l with
  | nil => exact .refl _
  | cons p rest ih =>
      obtain ⟨j, w⟩ := p
      rw [insertField]
      split
      · exact .refl _
      · exact (ih.cons (j, w)).trans (List.Perm.swap ..)

theorem sortFields_perm (l : List (String × Json)) :
    (sortFields l).Perm (l.map fun p => (p.1, sortKeys p.2)) := by
  induction l with
  | nil => exact .refl _
  | cons p rest ih =>
      obtain ⟨k, v⟩ := p
      rw [sortFields]
      exact (insertField_perm k (sortKeys v) _).trans (ih.cons (k, sortKeys v))

theorem sortItems_eq (l : List Json) : sortItems l = l.map sortKeys := by
  induction l with
  | nil => rfl
  | cons v rest ih => rw [sortItems, ih, List.map_cons]

theorem keys_sortFields (l : List (String × Json)) :
    ((sortFields l).map Prod.fst).Perm (l.map Prod.fst) := by
  have := (sortFields_perm l).map Prod.fst
  rwa [List.map_map] at this

theorem insertField_sorted {k : String} {v : Json} {l : List (String × Json)} (h : Sorted l)
    (hk : k ∉ l.map Prod.fst) : Sorted (insertField k v l) := by
  induction l with
  | nil => exact List.pairwise_singleton ..
  | cons p rest ih =>
      obtain ⟨j, w⟩ := p
      obtain ⟨hj, hrest⟩ := List.pairwise_cons.mp h
      rw [List.map_cons, List.mem_cons, not_or] at hk
      rw [insertField]
      split
      · rename_i hle
        have hlt : k < j := lt_of_le_of_ne hle hk.1
        refine List.pairwise_cons.mpr ⟨?_, h⟩
        intro q hq
        rcases List.mem_cons.mp hq with hq | hq
        · rw [hq]
          exact hlt
        · exact lt_trans hlt (hj q hq)
      · rename_i hle
        refine List.pairwise_cons.mpr ⟨?_, ih hrest hk.2⟩
        intro q hq
        rcases List.mem_cons.mp ((insertField_perm k v rest).mem_iff.mp hq) with hq | hq
        · rw [hq]
          exact not_le.mp hle
        · exact hj q hq

theorem sortFields_sorted {l : List (String × Json)} (h : (l.map Prod.fst).Nodup) :
    Sorted (sortFields l) := by
  induction l with
  | nil => exact List.Pairwise.nil
  | cons p rest ih =>
      obtain ⟨k, v⟩ := p
      rw [List.map_cons, List.nodup_cons] at h
      rw [sortFields]
      apply insertField_sorted (ih h.2)
      intro hk
      exact h.1 ((keys_sortFields rest).mem_iff.mp hk)

/-- A sorted list is known by what is found under each key. -/
theorem eq_of_sorted {l l' : List (String × Json)} (h : Sorted l) (h' : Sorted l')
    (hl : (l.map Prod.fst).Nodup) (hl' : (l'.map Prod.fst).Nodup)
    (hsame : ∀ k, field? l k = field? l' k) : l = l' := by
  have hmem : ∀ p, p ∈ l ↔ p ∈ l' := by
    intro p
    constructor
    · intro hp
      apply Dict.mem_of_lookupIn
      rw [← field?, ← hsame]
      exact Dict.lookupIn_of_mem hl hp
    · intro hp
      apply Dict.mem_of_lookupIn
      rw [← field?, hsame]
      exact Dict.lookupIn_of_mem hl' hp
  have hperm : l.Perm l' :=
    (List.perm_ext_iff_of_nodup (List.Nodup.of_map _ hl) (List.Nodup.of_map _ hl')).mpr hmem
  refine hperm.eq_of_pairwise ?_ h h'
  intro p q _ _ hpq hqp
  exact absurd (lt_trans hpq hqp) (lt_irrefl _)

/-- What sorting leaves under a key. -/
theorem field?_sortFields {l : List (String × Json)} (h : (l.map Prod.fst).Nodup) (k : String) :
    field? (sortFields l) k = (field? l k).map sortKeys := by
  have hsorted : ((sortFields l).map Prod.fst).Nodup := (keys_sortFields l).nodup_iff.mpr h
  rcases hv : field? l k with _ | v
  · rcases hw : field? (sortFields l) k with _ | w
    · rfl
    · have hmem := (sortFields_perm l).mem_iff.mp (Dict.mem_of_lookupIn hw)
      obtain ⟨⟨j, u⟩, hu, heq⟩ := List.mem_map.mp hmem
      injection heq with hj _
      rw [← hj] at hv
      have := Dict.lookupIn_of_mem h hu
      rw [field?] at hv
      rw [hv] at this
      cases this
  · apply Dict.lookupIn_of_mem hsorted
    rw [(sortFields_perm l).mem_iff]
    exact List.mem_map.mpr ⟨(k, v), Dict.mem_of_lookupIn hv, rfl⟩

theorem WellShaped.sortKeys {v : Json} (h : WellShaped v) : WellShaped v.sortKeys := by
  induction h with
  | null => exact .null
  | bool => exact .bool
  | int => exact .int
  | float h => exact .float h
  | str => exact .str
  | @arr items _ ih =>
      rw [Json.sortKeys, sortItems_eq]
      refine .arr ?_
      intro w hw
      obtain ⟨v, hv, heq⟩ := List.mem_map.mp hw
      rw [← heq]
      exact ih v hv
  | @obj fields hkeys _ ih =>
      rw [Json.sortKeys]
      refine .obj ((keys_sortFields fields).nodup_iff.mpr hkeys) ?_
      intro q hq
      obtain ⟨p, hp, heq⟩ := List.mem_map.mp ((sortFields_perm fields).mem_iff.mp hq)
      rw [← heq]
      exact ih p hp

/-! ### Sorting forgets the order and nothing else -/

/-- Values that differ in the order of fields alone have one sorted form. -/
theorem Same.sortKeys_eq {v w : Json} (h : Same v w) :
    WellShaped v → WellShaped w → v.sortKeys = w.sortKeys := by
  induction h with
  | null => intro _ _; rfl
  | bool => intro _ _; rfl
  | int => intro _ _; rfl
  | float => intro _ _; rfl
  | str => intro _ _; rfl
  | @arr as bs hlen _ ih =>
      intro hv hw
      cases hv with
      | arr hv =>
      cases hw with
      | arr hw =>
      rw [Json.sortKeys, Json.sortKeys, sortItems_eq, sortItems_eq]
      congr 1
      apply List.ext_getElem (by simp [hlen])
      intro i hi hi'
      rw [List.length_map] at hi hi'
      rw [List.getElem_map, List.getElem_map]
      exact ih i _ _ (List.getElem?_eq_getElem hi) (List.getElem?_eq_getElem hi')
        (hv _ (List.getElem_mem hi)) (hw _ (List.getElem_mem hi'))
  | @obj as bs hkeys _ ih =>
      intro hv hw
      cases hv with
      | obj hnd hv =>
      cases hw with
      | obj hnd' hw =>
      rw [Json.sortKeys, Json.sortKeys]
      congr 1
      refine eq_of_sorted (sortFields_sorted hnd) (sortFields_sorted hnd')
        ((keys_sortFields as).nodup_iff.mpr hnd) ((keys_sortFields bs).nodup_iff.mpr hnd') ?_
      intro k
      rw [field?_sortFields hnd, field?_sortFields hnd']
      have hk := hkeys k
      rcases ha : field? as k with _ | a <;> rcases hb : field? bs k with _ | b
      · rfl
      · rw [ha, hb] at hk
        cases hk
      · rw [ha, hb] at hk
        cases hk
      · exact congrArg some (ih k a b ha hb (hv _ (Dict.mem_of_lookupIn ha))
          (hw _ (Dict.mem_of_lookupIn hb)))

/-- Values with one sorted form differ in the order of fields alone. -/
theorem same_of_sortKeys {v : Json} : ∀ {w : Json}, WellShaped v → WellShaped w →
    v.sortKeys = w.sortKeys → Same v w := by
  induction v using induct with
  | null =>
      intro w _ _ h
      cases w <;> cases h
      exact .null
  | bool b =>
      intro w _ _ h
      cases w <;> cases h
      exact .bool
  | int n =>
      intro w _ _ h
      cases w <;> cases h
      exact .int
  | float lit =>
      intro w _ _ h
      cases w <;> cases h
      exact .float
  | str s =>
      intro w _ _ h
      cases w <;> cases h
      exact .str
  | arr as ih =>
      intro w hv hw h
      cases hw with
      | @arr bs hw =>
          cases hv with
          | arr hv =>
          rw [Json.sortKeys, Json.sortKeys, sortItems_eq, sortItems_eq] at h
          injection h with h
          refine .arr (by simpa using congrArg List.length h) ?_
          intro i a b ha hb
          have hi : (as.map Json.sortKeys)[i]? = (bs.map Json.sortKeys)[i]? := by rw [h]
          rw [List.getElem?_map, List.getElem?_map, ha, hb] at hi
          injection hi with hi
          have hmem := List.mem_of_getElem? ha
          exact ih a hmem (hv a hmem) (hw b (List.mem_of_getElem? hb)) hi
      | _ => cases h
  | obj as ih =>
      intro w hv hw h
      cases hw with
      | @obj bs hnd' hw =>
          cases hv with
          | obj hnd hv =>
          rw [Json.sortKeys, Json.sortKeys] at h
          injection h with h
          have hfield : ∀ k, (field? as k).map Json.sortKeys = (field? bs k).map Json.sortKeys := by
            intro k
            rw [← field?_sortFields hnd, ← field?_sortFields hnd', h]
          refine .obj ?_ ?_
          · intro k
            have := congrArg Option.isSome (hfield k)
            rwa [Option.isSome_map, Option.isSome_map] at this
          · intro k a b ha hb
            have hk := hfield k
            rw [ha, hb] at hk
            injection hk with hk
            have hmem := Dict.mem_of_lookupIn ha
            exact ih (k, a) hmem (hv _ hmem) (hw _ (Dict.mem_of_lookupIn hb)) hk
      | _ => cases h

/-- Printing loses nothing. -/
theorem print_injective {v w : Json} (hv : Plain v) (hw : Plain w) (h : print v = print w) :
    v = w := by
  have hload : loads (depth w) (print v) = .ok w := by
    rw [h]
    exact loads_print hw (Nat.le_refl _)
  exact (eq_of_loads_print hv hload).symm

/-- **The text with sorted keys is the same exactly for the same value.** -/
theorem dumps_sortKeys_iff {v w : Json} {cs : List Char} (hv : WellShaped v) (hw : WellShaped w)
    (hcs : v.sortKeys.dumps = some cs) : w.sortKeys.dumps = some cs ↔ Same v w := by
  have hprint : ∀ {u : Json} {cs : List Char}, WellShaped u → u.sortKeys.dumps = some cs →
      Plain u.sortKeys ∧ u.sortKeys.print = cs := by
    intro u cs hu h
    rw [dumps] at h
    split at h
    · rename_i hfit
      injection h with h
      exact ⟨hu.sortKeys.plain hfit, h⟩
    · cases h
  obtain ⟨hplain, htext⟩ := hprint hv hcs
  constructor
  · intro h
    obtain ⟨hplain', htext'⟩ := hprint hw h
    exact same_of_sortKeys hv hw (print_injective hplain hplain' (htext.trans htext'.symm))
  · intro h
    rw [← h.sortKeys_eq hv hw]
    exact hcs

end Py.Json
