/-
Records kept by key.

A dictionary that is updated record by record holds under each key what the records with this key
come to, whatever the others were.
-/
import Mathlib.Data.List.Dedup
import Mathlib.Data.List.Perm.Lattice
import ExecRestApi.Lib.Dict

namespace Tally

open Py

variable {κ α υ : Type} [DecidableEq κ]

/-- What was recorded under a key, in order. -/
def under (k : κ) (records : List (κ × α)) : List α :=
  records.filterMap fun p => if p.1 = k then some p.2 else none

theorem under_concat (k : κ) (records : List (κ × α)) (p : κ × α) :
    under k (records ++ [p]) = if p.1 = k then under k records ++ [p.2] else under k records := by
  rw [under, List.filterMap_append]
  split_ifs with h <;> simp [under, h]

theorem under_ne_nil {k : κ} {records : List (κ × α)} :
    under k records ≠ [] ↔ k ∈ records.map Prod.fst := by
  simp [under, List.filterMap_eq_nil_iff]

/-- Every key that was recorded holds what its records come to. -/
def Holds (f : List α → υ) (d : Dict κ υ) (records : List (κ × α)) : Prop :=
  ∀ k, d.get? k = if under k records = [] then none else some (f (under k records))

variable {f : List α → υ} {d : Dict κ υ} {records : List (κ × α)}

theorem holds_empty : Holds f (Dict.empty : Dict κ υ) [] := fun _ => rfl

/-- The value of a key, or that of no records at all. -/
theorem Holds.getD (h : Holds f d records) (k : κ) :
    (d.get? k).getD (f []) = f (under k records) := by
  rw [h k]
  split_ifs with hnil
  · rw [hnil]
    rfl
  · rfl

/-- **One more record.** -/
theorem Holds.set (h : Holds f d records) {k : κ} {a : α} {v : υ}
    (hv : v = f (under k records ++ [a])) : Holds f (d.set k v) (records ++ [(k, a)]) := by
  intro k'
  rw [Dict.get?_set, under_concat]
  by_cases hk : k = k'
  · subst hk
    simp [hv]
  · simp [hk, h k']

theorem Holds.mem_entries (h : Holds f d records) {k : κ} {v : υ} :
    (k, v) ∈ d.entries ↔ under k records ≠ [] ∧ v = f (under k records) := by
  rw [Dict.mem_entries, h k]
  split_ifs with hnil <;> simp [hnil, eq_comm]

/-- What holds of every entry, and of no records, holds of every key. -/
theorem Holds.forall_entries (h : Holds f d records) {P : υ → Prop} (hnil : P (f [])) :
    (∀ p ∈ d.entries, P p.2) ↔ ∀ k, P (f (under k records)) := by
  constructor
  · intro hall k
    by_cases hk : under k records = []
    · rwa [hk]
    · exact hall (k, _) (h.mem_entries.mpr ⟨hk, rfl⟩)
  · intro hall p hp
    rw [(h.mem_entries.mp hp).2]
    exact hall p.1

/-- There is an entry for every key that was recorded, however often. -/
theorem Holds.length_entries (h : Holds f d records) :
    d.entries.length = (records.map Prod.fst).dedup.length := by
  have hkeys : ∀ k, k ∈ d.entries.map Prod.fst ↔ k ∈ (records.map Prod.fst).dedup := by
    intro k
    rw [List.mem_dedup]
    constructor
    · intro hk
      obtain ⟨⟨k', v⟩, hmem, rfl⟩ := List.mem_map.mp hk
      exact under_ne_nil.mp (h.mem_entries.mp hmem).1
    · intro hk
      exact List.mem_map.mpr ⟨(k, f (under k records)), h.mem_entries.mpr ⟨under_ne_nil.mpr hk, rfl⟩, rfl⟩
  have hperm := (List.perm_ext_iff_of_nodup d.nodup (List.nodup_dedup _)).mpr hkeys
  rw [← hperm.length_eq, List.length_map]

end Tally
