/-
An insertion-ordered dictionary.

`Dict` is the association list a Python `dict` behaves like: iteration follows
insertion order, assigning to a present key keeps its place, and no key occurs
twice.  The last point is a field, so a lookup and the list of entries can never
disagree and no proof about a dictionary has to carry it along.
-/
import Mathlib.Data.List.Nodup

namespace Py

/-- A finite map in insertion order. -/
structure Dict (κ υ : Type) where
  entries : List (κ × υ)
  /-- No key occurs twice. -/
  nodup : (entries.map Prod.fst).Nodup

namespace Dict

variable {κ υ : Type}

/-- `{}` -/
def empty : Dict κ υ := ⟨[], List.nodup_nil⟩

/-- `d.values()` -/
def values (d : Dict κ υ) : List υ := d.entries.map Prod.snd

@[simp] theorem values_empty : (empty : Dict κ υ).values = [] := rfl

variable [DecidableEq κ]

/-! ### The operations on the bare list -/

/-- The value stored under a key. -/
def lookupIn (k : κ) : List (κ × υ) → Option υ
  | [] => none
  | (k', v) :: rest => if k' = k then some v else lookupIn k rest

/-- Overwrite in place, or append. -/
def setIn (k : κ) (v : υ) : List (κ × υ) → List (κ × υ)
  | [] => [(k, v)]
  | (k', v') :: rest => if k' = k then (k, v) :: rest else (k', v') :: setIn k v rest

theorem keys_setIn (k : κ) (v : υ) (l : List (κ × υ)) :
    (setIn k v l).map Prod.fst
      = if k ∈ l.map Prod.fst then l.map Prod.fst else l.map Prod.fst ++ [k] := by
  induction l with
  | nil => rfl
  | cons p rest ih =>
      obtain ⟨k', v'⟩ := p
      by_cases hk : k' = k
      · simp [setIn, hk]
      · have hk' : ¬ k = k' := fun h => hk h.symm
        simp only [setIn, if_neg hk, List.map_cons, ih, List.mem_cons, hk', false_or]
        split <;> rfl

theorem lookupIn_setIn (k k' : κ) (v : υ) (l : List (κ × υ)) :
    lookupIn k' (setIn k v l) = if k = k' then some v else lookupIn k' l := by
  induction l with
  | nil => rfl
  | cons p rest ih =>
      obtain ⟨j, w⟩ := p
      by_cases hj : j = k
      · subst hj
        by_cases hk : j = k' <;> simp [setIn, lookupIn, hk]
      · by_cases hjk : j = k'
        · subst hjk
          have hkk : ¬ k = j := fun h => hj h.symm
          simp [setIn, lookupIn, hj, hkk]
        · simp [setIn, lookupIn, hj, hjk, ih]

theorem lookupIn_filter_ne (k k' : κ) (l : List (κ × υ)) :
    lookupIn k' (l.filter fun p => p.1 ≠ k) = if k = k' then none else lookupIn k' l := by
  induction l with
  | nil => simp [lookupIn]
  | cons p rest ih =>
      obtain ⟨j, w⟩ := p
      by_cases hj : j = k
      · subst hj
        by_cases hk : j = k' <;> simp_all [lookupIn]
      · by_cases hjk : j = k'
        · subst hjk
          have hkk : ¬ k = j := fun h => hj h.symm
          simp [lookupIn, hj, hkk]
        · simp_all [lookupIn]

/-- A filter that drops a key does not see what is stored under it. -/
theorem filter_setIn {p : κ × υ → Bool} {k : κ} {v : υ} (hp : ∀ w, p (k, w) = false)
    (l : List (κ × υ)) : (setIn k v l).filter p = l.filter p := by
  induction l with
  | nil =>
      rw [setIn, List.filter_cons_of_neg]
      rw [hp]
      nofun
  | cons x rest ih =>
      obtain ⟨k', w⟩ := x
      rw [setIn]
      by_cases hk : k' = k
      · subst hk
        rw [if_pos rfl, List.filter_cons_of_neg (by rw [hp]; nofun),
          List.filter_cons_of_neg (by rw [hp]; nofun)]
      · rw [if_neg hk, List.filter_cons, List.filter_cons, ih]

theorem mem_of_lookupIn {k : κ} {v : υ} {l : List (κ × υ)} (h : lookupIn k l = some v) :
    (k, v) ∈ l := by
  induction l with
  | nil => simp [lookupIn] at h
  | cons p rest ih =>
      obtain ⟨j, w⟩ := p
      by_cases hj : j = k
      · subst hj
        simp only [lookupIn, if_pos, Option.some.injEq] at h
        simp [h]
      · simp only [lookupIn, if_neg hj] at h
        exact List.mem_cons_of_mem _ (ih h)

theorem lookupIn_of_mem {k : κ} {v : υ} {l : List (κ × υ)} (hnd : (l.map Prod.fst).Nodup)
    (h : (k, v) ∈ l) : lookupIn k l = some v := by
  induction l with
  | nil => simp at h
  | cons p rest ih =>
      obtain ⟨j, w⟩ := p
      rw [List.map_cons, List.nodup_cons] at hnd
      rcases List.mem_cons.mp h with heq | hr
      · cases heq
        simp [lookupIn]
      · have hj : j ≠ k := by
          rintro rfl
          exact hnd.1 (List.mem_map.mpr ⟨_, hr, rfl⟩)
        simp [lookupIn, hj, ih hnd.2 hr]

/-- Assign the entries of a list one after the other. -/
def setAll (acc l : List (κ × υ)) : List (κ × υ) := l.foldl (fun out p => setIn p.1 p.2 out) acc

theorem length_setIn (k : κ) (v : υ) (l : List (κ × υ)) :
    (setIn k v l).length = if k ∈ l.map Prod.fst then l.length else l.length + 1 := by
  have hkeys := congrArg List.length (keys_setIn k v l)
  rw [List.length_map] at hkeys
  rw [hkeys]
  split_ifs
  · rw [List.length_map]
  · rw [List.length_append, List.length_map]
    rfl

theorem nodup_setIn {k : κ} {v : υ} {l : List (κ × υ)} (h : (l.map Prod.fst).Nodup) :
    ((setIn k v l).map Prod.fst).Nodup := by
  rw [keys_setIn]
  split_ifs with hk
  · exact h
  · refine List.nodup_append.mpr ⟨h, List.nodup_singleton k, ?_⟩
    intro a ha b hb heq
    rw [List.mem_singleton.mp hb] at heq
    exact hk (by rwa [heq] at ha)

/-- A key that is not there comes last. -/
theorem setIn_of_not_mem {k : κ} {v : υ} {l : List (κ × υ)} (h : k ∉ l.map Prod.fst) :
    setIn k v l = l ++ [(k, v)] := by
  induction l with
  | nil => rfl
  | cons p rest ih =>
      obtain ⟨j, w⟩ := p
      rw [List.map_cons, List.mem_cons, not_or] at h
      rw [setIn, if_neg fun hj => h.1 hj.symm, ih h.2, List.cons_append]

/-- An entry that is there was there before or is the assigned one. -/
theorem mem_setIn {k : κ} {v : υ} {l : List (κ × υ)} {p : κ × υ} (h : p ∈ setIn k v l) :
    p = (k, v) ∨ p ∈ l := by
  induction l with
  | nil => exact .inl (List.mem_singleton.mp h)
  | cons q rest ih =>
      obtain ⟨j, w⟩ := q
      rw [setIn] at h
      split_ifs at h with hj
      · rcases List.mem_cons.mp h with h | h
        · exact .inl h
        · exact .inr (List.mem_cons_of_mem _ h)
      · rcases List.mem_cons.mp h with h | h
        · exact .inr (by rw [h]; exact List.mem_cons_self)
        · rcases ih h with h | h
          · exact .inl h
          · exact .inr (List.mem_cons_of_mem _ h)

theorem mem_setAll {l : List (κ × υ)} {p : κ × υ} : ∀ {acc : List (κ × υ)},
    p ∈ setAll acc l → p ∈ acc ∨ p ∈ l := by
  induction l with
  | nil => exact fun h => .inl h
  | cons q l ih =>
      intro acc h
      rcases ih (show p ∈ setAll (setIn q.1 q.2 acc) l from h) with h | h
      · rcases mem_setIn h with h | h
        · exact .inr (by rw [h]; exact List.mem_cons_self)
        · exact .inl h
      · exact .inr (List.mem_cons_of_mem _ h)

/-- If no key is assigned twice, every entry is appended. -/
theorem setAll_of_nodup {l : List (κ × υ)} : ∀ {acc : List (κ × υ)},
    ((acc ++ l).map Prod.fst).Nodup → setAll acc l = acc ++ l := by
  induction l with
  | nil => exact fun _ => (List.append_nil _).symm
  | cons p l ih =>
      intro acc h
      have hnew : p.1 ∉ acc.map Prod.fst := by
        intro hmem
        rw [List.map_append, List.nodup_append] at h
        exact h.2.2 _ hmem p.1 (by simp) rfl
      show setAll (setIn p.1 p.2 acc) l = _
      rw [setIn_of_not_mem hnew, ih (by rw [List.append_assoc]; exact h), List.append_assoc]
      rfl

/-- There are as many entries as were assigned exactly if no key was assigned twice. -/
theorem length_setAll_eq {l : List (κ × υ)} : ∀ {acc : List (κ × υ)}, (acc.map Prod.fst).Nodup →
    (setAll acc l).length ≤ acc.length + l.length ∧
      ((setAll acc l).length = acc.length + l.length → ((acc ++ l).map Prod.fst).Nodup) := by
  induction l with
  | nil =>
      intro acc hacc
      exact ⟨Nat.le_refl _, fun _ => by rwa [List.append_nil]⟩
  | cons p l ih =>
      intro acc hacc
      obtain ⟨hle, heq⟩ := ih (nodup_setIn (k := p.1) (v := p.2) hacc)
      rw [length_setIn] at hle heq
      show (setAll (setIn p.1 p.2 acc) l).length ≤ _ ∧
        ((setAll (setIn p.1 p.2 acc) l).length = _ → _)
      rw [List.length_cons]
      by_cases hmem : p.1 ∈ acc.map Prod.fst
      · rw [if_pos hmem] at hle
        exact ⟨by omega, fun h => by omega⟩
      · rw [if_neg hmem] at hle heq
        refine ⟨by omega, fun h => ?_⟩
        have hnodup := heq (by omega)
        rw [setIn_of_not_mem hmem, List.append_assoc] at hnodup
        exact hnodup

/-! ### The dictionary itself -/

/-- `d.get(k)` -/
def get? (d : Dict κ υ) (k : κ) : Option υ := lookupIn k d.entries

/-- `d[k] = v` -/
def set (d : Dict κ υ) (k : κ) (v : υ) : Dict κ υ where
  entries := setIn k v d.entries
  nodup := nodup_setIn d.nodup

/-- `d.pop(k, None)` -/
def erase (d : Dict κ υ) (k : κ) : Dict κ υ where
  entries := d.entries.filter fun p => p.1 ≠ k
  nodup := d.nodup.sublist (List.Sublist.map _ List.filter_sublist)

@[simp] theorem get?_empty (k : κ) : (empty : Dict κ υ).get? k = none := rfl

theorem get?_set (d : Dict κ υ) (k k' : κ) (v : υ) :
    (d.set k v).get? k' = if k = k' then some v else d.get? k' :=
  lookupIn_setIn k k' v d.entries

@[simp] theorem get?_set_self (d : Dict κ υ) (k : κ) (v : υ) : (d.set k v).get? k = some v := by
  simp [get?_set]

theorem get?_set_ne (d : Dict κ υ) {k k' : κ} (v : υ) (h : k ≠ k') :
    (d.set k v).get? k' = d.get? k' := by
  simp [get?_set, h]

theorem get?_erase (d : Dict κ υ) (k k' : κ) :
    (d.erase k).get? k' = if k = k' then none else d.get? k' :=
  lookupIn_filter_ne k k' d.entries

theorem get?_erase_eq_some {d : Dict κ υ} {k k' : κ} {v : υ} :
    (d.erase k).get? k' = some v ↔ k ≠ k' ∧ d.get? k' = some v := by
  rw [get?_erase]
  by_cases h : k = k'
  · simp [h]
  · simp [h]

theorem mem_entries {d : Dict κ υ} {k : κ} {v : υ} :
    (k, v) ∈ d.entries ↔ d.get? k = some v :=
  ⟨lookupIn_of_mem d.nodup, mem_of_lookupIn⟩

theorem mem_values {d : Dict κ υ} {v : υ} : v ∈ d.values ↔ ∃ k, d.get? k = some v := by
  simp only [values, List.mem_map, Prod.exists, exists_eq_right, mem_entries]

/-- Different keys hold different values. -/
theorem values_nodup {d : Dict κ υ}
    (hinj : ∀ k k' v, d.get? k = some v → d.get? k' = some v → k = k') : d.values.Nodup := by
  apply List.Nodup.map_on _ (List.Nodup.of_map _ d.nodup)
  intro a ha b hb hab
  have hkey := hinj a.1 b.1 a.2 (mem_entries.mp ha) (by
    rw [show a.2 = b.2 from hab]
    exact mem_entries.mp hb)
  exact Prod.ext hkey hab

theorem mem_values_set {d : Dict κ υ} {k : κ} {v w : υ} (hk : d.get? k = none) :
    w ∈ (d.set k v).values ↔ w = v ∨ w ∈ d.values := by
  rw [mem_values, mem_values]
  constructor
  · intro ⟨k', h⟩
    rw [get?_set] at h
    split at h
    · injection h with h
      exact .inl h.symm
    · exact .inr ⟨k', h⟩
  · intro h
    rcases h with h | ⟨k', h⟩
    · rw [h]
      exact ⟨k, get?_set_self d k v⟩
    · refine ⟨k', ?_⟩
      rw [get?_set_ne _ _ _]
      · exact h
      · intro heq
        rw [← heq, hk] at h
        cases h

theorem mem_values_erase {d : Dict κ υ} {k : κ} {v w : υ} (hk : d.get? k = some v)
    (hinj : ∀ k k' v, d.get? k = some v → d.get? k' = some v → k = k') :
    w ∈ (d.erase k).values ↔ w ≠ v ∧ w ∈ d.values := by
  rw [mem_values, mem_values]
  constructor
  · intro ⟨k', h⟩
    obtain ⟨hne, h⟩ := get?_erase_eq_some.mp h
    refine ⟨?_, k', h⟩
    intro hw
    rw [hw] at h
    exact hne (hinj k k' v hk h)
  · intro ⟨hw, k', h⟩
    refine ⟨k', get?_erase_eq_some.mpr ⟨?_, h⟩⟩
    intro heq
    rw [← heq, hk] at h
    injection h with h
    exact hw h.symm

/-- A new key comes last. -/
theorem values_set {d : Dict κ υ} {k : κ} (v : υ) (hk : d.get? k = none) :
    (d.set k v).values = d.values ++ [v] := by
  have hset : ∀ l : List (κ × υ), lookupIn k l = none → setIn k v l = l ++ [(k, v)] := by
    intro l hl
    induction l with
    | nil => rfl
    | cons p rest ih =>
        obtain ⟨j, w⟩ := p
        by_cases hj : j = k
        · simp [lookupIn, hj] at hl
        · rw [lookupIn, if_neg hj] at hl
          rw [setIn, if_neg hj, ih hl, List.cons_append]
  show (setIn k v d.entries).map Prod.snd = d.values ++ [v]
  rw [hset d.entries hk, List.map_append]
  rfl

/-- Taking out a key whose value is not counted. -/
theorem countP_values_erase {d : Dict κ υ} {k : κ} {v : υ} {p : υ → Bool}
    (hk : d.get? k = some v) (hv : p v = false) :
    (d.erase k).values.countP p = d.values.countP p := by
  have hall : ∀ q ∈ d.entries, p q.2 = true → decide (q.1 ≠ k) = true := by
    intro q hq hp
    rw [decide_eq_true_eq]
    intro hqk
    have := mem_entries.mp (show (k, q.2) ∈ d.entries by rw [← hqk]; exact hq)
    rw [hk] at this
    injection this with this
    rw [← this, hv] at hp
    cases hp
  rw [values, values, List.countP_map, List.countP_map, erase, List.countP_filter]
  apply List.countP_congr
  intro q hq
  simp only [Function.comp_apply, Bool.and_eq_true, and_iff_left_iff_imp]
  exact hall q hq

theorem entries_eq_nil {d : Dict κ υ} : d.entries = [] ↔ ∀ k, d.get? k = none := by
  constructor
  · intro h k
    rw [get?, h]
    rfl
  · intro h
    rcases hd : d.entries with _ | ⟨⟨k, v⟩, rest⟩
    · rfl
    · have := mem_entries.mp (show (k, v) ∈ d.entries by rw [hd]; exact List.mem_cons_self)
      rw [h k] at this
      cases this

end Dict

end Py
