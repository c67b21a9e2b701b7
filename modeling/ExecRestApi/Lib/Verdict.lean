/-
Which of a sequence of checks complains first, and how.

Code that checks its input step by step ends with the first complaint.  A complaint is
`refused` if it is the kind the caller answers, and `broken` if it is another.  `Meets x vs`
says that `x` ends the way a list `vs` of verdicts says, one for each check in the order they
are made, so that how a long computation ends is put together from its parts: `[]` for a
value, the verdicts one after the other for a sequence, and those of the items for a loop.
-/
import Mathlib.Data.List.Basic

namespace Checks

/-- What one check finds. -/
inductive Verdict where
  | fine
  | refused
  | broken
  deriving DecidableEq

/-- The first verdict that is not `fine`, if there is one. -/
def first : List Verdict → Verdict
  | [] => .fine
  | .fine :: vs => first vs
  | v :: _ => v

@[simp] theorem first_nil : first [] = .fine := rfl

@[simp] theorem first_fine (vs : List Verdict) : first (.fine :: vs) = first vs := rfl

@[simp] theorem first_refused (vs : List Verdict) : first (.refused :: vs) = .refused := rfl

@[simp] theorem first_broken (vs : List Verdict) : first (.broken :: vs) = .broken := rfl

theorem first_append (vs ws : List Verdict) :
    first (vs ++ ws) = if first vs = .fine then first ws else first vs := by
  induction vs with
  | nil => rfl
  | cons v vs ih =>
      cases v with
      | fine => exact ih
      | refused => rfl
      | broken => rfl

/-- All is fine if every check is. -/
theorem first_eq_fine {vs : List Verdict} : first vs = .fine ↔ ∀ v ∈ vs, v = .fine := by
  induction vs with
  | nil => simp
  | cons v vs ih => cases v <;> simp [ih]

/-- A complaint comes from a check. -/
theorem mem_of_first {vs : List Verdict} (h : first vs ≠ .fine) : first vs ∈ vs := by
  induction vs with
  | nil => exact absurd rfl h
  | cons v vs ih =>
      cases v with
      | fine => exact List.mem_cons_of_mem _ (ih h)
      | refused => exact List.mem_cons_self
      | broken => exact List.mem_cons_self

section

variable {ε α β : Type} (refuses : ε → Bool)

/-- How a computation ends, as a verdict. -/
def ending : Except ε α → Verdict
  | .ok _ => .fine
  | .error e => if refuses e then .refused else .broken

/-- `x` ends the way the first complaint of `vs` says. -/
def Meets (x : Except ε α) (vs : List Verdict) : Prop := ending refuses x = first vs

variable {refuses}

theorem ending_eq_broken {x : Except ε α} :
    ending refuses x = .broken ↔ ∃ e, x = .error e ∧ refuses e = false := by
  cases x with
  | ok a => simp [ending]
  | error e =>
      rw [ending]
      cases hr : refuses e <;> simp [hr]

/-- It ends with a value or a refusal unless the first complaint is of the other kind. -/
theorem Meets.ok_or_refused {x : Except ε α} {vs : List Verdict} (h : Meets refuses x vs) :
    ((∃ a, x = .ok a) ∨ ∃ e, x = .error e ∧ refuses e = true) ↔ first vs ≠ .broken := by
  rw [← h]
  cases x with
  | ok a => simp [ending]
  | error e =>
      rw [ending]
      cases hr : refuses e <;> simp_all

theorem meets_ok (a : α) : Meets refuses (.ok a : Except ε α) [] := rfl

theorem meets_pure (a : α) : Meets refuses (pure a : Except ε α) [] := rfl

theorem meets_refused {e : ε} (he : refuses e = true) :
    Meets refuses (.error e : Except ε α) [.refused] := by
  rw [Meets, ending, if_pos he]
  rfl

theorem meets_broken {e : ε} (he : refuses e = false) :
    Meets refuses (.error e : Except ε α) [.broken] := by
  rw [Meets, ending, he]
  rfl

/-- A sequence makes the checks of its first part, and if that succeeds those of the rest. -/
theorem Meets.bind {x : Except ε α} {f : α → Except ε β} {vs ws : List Verdict}
    (hx : Meets refuses x vs) (hf : ∀ a, x = .ok a → Meets refuses (f a) ws) :
    Meets refuses (x >>= f) (vs ++ ws) := by
  rw [Meets, first_append, ← hx]
  cases x with
  | ok a => exact hf a rfl
  | error e =>
      show ending refuses (.error e : Except ε β) = _
      rw [ending, ending]
      cases refuses e <;> rfl

/-- A sequence whose rest only packs what it is given. -/
theorem Meets.map {x : Except ε α} {f : α → Except ε β} {vs : List Verdict}
    (hx : Meets refuses x vs) (hf : ∀ a, ∃ b, f a = .ok b) : Meets refuses (x >>= f) vs := by
  have hpack : ∀ a, x = .ok a → Meets refuses (f a) [] := by
    intro a _
    obtain ⟨b, hb⟩ := hf a
    rw [hb]
    exact meets_ok b
  have h := hx.bind hpack
  rwa [List.append_nil] at h

/-- A loop that carries a value makes the checks of its items in order. -/
theorem meets_foldlM {σ : Type} {f : σ → α → Except ε σ} {verdicts : α → List Verdict}
    (hf : ∀ s a, Meets refuses (f s a) (verdicts a)) (as : List α) :
    ∀ s, Meets refuses (as.foldlM f s) (as.flatMap verdicts) := by
  induction as with
  | nil => exact fun s => meets_ok s
  | cons a as ih =>
      intro s
      rw [List.foldlM_cons, List.flatMap_cons]
      exact (hf s a).bind fun s' _ => ih s'

/-- So does one that collects. -/
theorem meets_mapM {f : α → Except ε β} {verdicts : α → List Verdict}
    (hf : ∀ a, Meets refuses (f a) (verdicts a)) (as : List α) :
    Meets refuses (as.mapM f) (as.flatMap verdicts) := by
  induction as with
  | nil => exact meets_pure []
  | cons a as ih =>
      rw [List.mapM_cons, List.flatMap_cons]
      exact (hf a).bind fun b _ => ih.map fun bs => ⟨b :: bs, rfl⟩

end

end Checks
