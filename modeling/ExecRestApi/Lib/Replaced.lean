/-
One value replaced in a list, and what a traversal makes of it.

`OneReplaced` replaces an entry of a list, and `AtKey` the value of a key.  A traversal of both
lists that treats the two values alike ends alike.  Where it does not, `Stops` says how two runs
may differ: the first does not get through, and ends with an error of its own if the second does
not end with the same one.
-/
import ExecRestApi.Lib.Dict

namespace Replaced

open Py

/-- An entry is replaced by a related one. -/
inductive OneReplaced {α : Type} (R : α → α → Prop) : List α → List α → Prop where
  | head {a b : α} {rest : List α} (h : R a b) : OneReplaced R (a :: rest) (b :: rest)
  | tail {a : α} {l l' : List α} (h : OneReplaced R l l') : OneReplaced R (a :: l) (a :: l')

/-- The value of `key` is replaced by a related one. -/
inductive AtKey {κ υ : Type} (key : κ) (R : υ → υ → Prop) : List (κ × υ) → List (κ × υ) → Prop where
  | head {v w : υ} {rest : List (κ × υ)} (h : R v w) :
      AtKey key R ((key, v) :: rest) ((key, w) :: rest)
  | tail {p : κ × υ} {l l' : List (κ × υ)} (hne : p.1 ≠ key) (h : AtKey key R l l') :
      AtKey key R (p :: l) (p :: l')

section

variable {κ υ : Type} [DecidableEq κ] {key : κ} {R : υ → υ → Prop} {l l' : List (κ × υ)}

/-- The other keys keep their values. -/
theorem AtKey.lookupIn_ne (h : AtKey key R l l') {k : κ} (hk : k ≠ key) :
    Dict.lookupIn k l' = Dict.lookupIn k l := by
  induction h with
  | head h =>
      unfold Dict.lookupIn
      rw [if_neg (Ne.symm hk), if_neg (Ne.symm hk)]
  | tail hne h ih =>
      unfold Dict.lookupIn
      rw [ih]

/-- The values of the key are related. -/
theorem AtKey.lookupIn_self (h : AtKey key R l l') :
    ∃ v w, Dict.lookupIn key l = some v ∧ Dict.lookupIn key l' = some w ∧ R v w := by
  induction h with
  | head h =>
      unfold Dict.lookupIn
      rw [if_pos rfl, if_pos rfl]
      exact ⟨_, _, rfl, rfl, h⟩
  | tail hne h ih =>
      unfold Dict.lookupIn
      rw [if_neg hne, if_neg hne]
      exact ih

end

section

variable {ε α β : Type} {R : α → α → Prop} {l l' : List α}

/-- A loop that treats both values alike. -/
theorem OneReplaced.mapM_eq (h : OneReplaced R l l') {f : α → Except ε β}
    (hf : ∀ a b, R a b → f b = f a) : l'.mapM f = l.mapM f := by
  induction h with
  | head h => rw [List.mapM_cons, List.mapM_cons, hf _ _ h]
  | tail h ih => rw [List.mapM_cons, List.mapM_cons, ih]

theorem OneReplaced.foldlM_eq (h : OneReplaced R l l') {f : β → α → Except ε β}
    (hf : ∀ acc a b, R a b → f acc b = f acc a) (acc : β) : l'.foldlM f acc = l.foldlM f acc := by
  induction h generalizing acc with
  | head h => rw [List.foldlM_cons, List.foldlM_cons, hf _ _ _ h]
  | tail h ih =>
      rw [List.foldlM_cons, List.foldlM_cons]
      exact congrArg _ (funext ih)

/-- Nothing comes of `x`: it ends with the error of `y`, or with `e`. -/
def Stops (e : ε) (x y : Except ε α) : Prop := (∃ e', x = .error e' ∧ y = .error e') ∨ x = .error e

variable {e : ε}

theorem stops_self (y : Except ε α) : Stops e (.error e) y := .inr rfl

/-- What comes after it is not reached. -/
theorem Stops.bind {x y : Except ε α} (h : Stops e x y) (f : α → Except ε β) :
    Stops e (x >>= f) (y >>= f) := by
  rcases h with ⟨e', rfl, rfl⟩ | rfl
  · exact .inl ⟨e', rfl, rfl⟩
  · exact .inr rfl

/-- What comes before it is the same. -/
theorem Stops.after {x : Except ε α} {f g : α → Except ε β} (h : ∀ a, Stops e (f a) (g a)) :
    Stops e (x >>= f) (x >>= g) := by
  cases x with
  | error e' => exact .inl ⟨e', rfl, rfl⟩
  | ok a => exact h a

/-- A loop that does not get past one of the two values. -/
theorem OneReplaced.stops_mapM (h : OneReplaced R l l') {f : α → Except ε β}
    (hf : ∀ a b, R a b → Stops e (f a) (f b)) : Stops e (l.mapM f) (l'.mapM f) := by
  induction h with
  | head h =>
      rw [List.mapM_cons, List.mapM_cons]
      exact (hf _ _ h).bind _
  | tail h ih =>
      rw [List.mapM_cons, List.mapM_cons]
      exact .after fun b => ih.bind _

end

end Replaced
