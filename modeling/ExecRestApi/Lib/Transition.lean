/-
Labelled transition systems and their runs.

A machine is a partial step function: a label that is not enabled gives `none`.
`Run step ok s ls t` is a run along the labels `ls`, all of whose steps meet the
guard `ok`, a condition on the state before the step and the label.  The rule for
runs is `Run.preserves`: what every guarded step keeps, every guarded run keeps.
-/
import Mathlib.Data.List.Basic

namespace Transition

variable {σ ℓ : Type} {step : σ → ℓ → Option σ} {ok ok' : σ → ℓ → Prop}

/-- A run from `s` to `t` whose steps all meet `ok`. -/
inductive Run (step : σ → ℓ → Option σ) (ok : σ → ℓ → Prop) : σ → List ℓ → σ → Prop where
  | nil (s : σ) : Run step ok s [] s
  | cons {s t u : σ} {l : ℓ} {ls : List ℓ} (hstep : step s l = some t) (hok : ok s l)
      (hrest : Run step ok t ls u) : Run step ok s (l :: ls) u

/-- No condition on the steps. -/
def unguarded : σ → ℓ → Prop := fun _ _ => True

/-- **What every guarded step keeps, every guarded run keeps.** -/
theorem Run.preserves {I : σ → Prop}
    (hstep : ∀ s l t, I s → ok s l → step s l = some t → I t) {s t : σ} {ls : List ℓ}
    (h : Run step ok s ls t) (hs : I s) : I t := by
  induction h with
  | nil s => exact hs
  | cons hl hok _ ih =>
      apply ih
      exact hstep _ _ _ hs hok hl

/-- A run with its history: what holds of no steps and is kept by one more holds of all of them. -/
theorem Run.records {I : List ℓ → σ → Prop}
    (hstep : ∀ ls s l t, I ls s → ok s l → step s l = some t → I (ls ++ [l]) t) {s t : σ}
    {ls : List ℓ} (h : Run step ok s ls t) {before : List ℓ} (hs : I before s) :
    I (before ++ ls) t := by
  induction h generalizing before with
  | nil s => rwa [List.append_nil]
  | cons hl hok _ ih =>
      have hnext := ih (hstep _ _ _ _ hs hok hl)
      rwa [List.append_assoc, List.singleton_append] at hnext

/-- The history of a run from its start. -/
theorem Run.recorded {I : List ℓ → σ → Prop}
    (hstep : ∀ ls s l t, I ls s → ok s l → step s l = some t → I (ls ++ [l]) t) {s t : σ}
    {ls : List ℓ} (h : Run step ok s ls t) (hs : I [] s) : I ls t :=
  h.records hstep hs

/-- A guard that implies another in the states that the guarded steps keep. -/
theorem Run.mono {I : σ → Prop} (hstep : ∀ s l t, I s → ok s l → step s l = some t → I t)
    (hok : ∀ s l, I s → ok s l → ok' s l) {s t : σ} {ls : List ℓ} (h : Run step ok s ls t)
    (hs : I s) : Run step ok' s ls t := by
  induction h with
  | nil s => exact .nil s
  | cons hl ho _ ih => exact .cons hl (hok _ _ hs ho) (ih (hstep _ _ _ hs ho hl))

/-- A run along two lists of labels is two runs. -/
theorem run_append {s u : σ} {ls ls' : List ℓ} :
    Run step ok s (ls ++ ls') u ↔ ∃ t, Run step ok s ls t ∧ Run step ok t ls' u := by
  induction ls generalizing s with
  | nil =>
      constructor
      · intro h
        exact ⟨s, .nil s, h⟩
      · intro ⟨t, h, h'⟩
        cases h
        exact h'
  | cons l ls ih =>
      constructor
      · intro h
        rcases h with _ | ⟨hl, hok, hrest⟩
        obtain ⟨t, h₁, h₂⟩ := ih.mp hrest
        exact ⟨t, .cons hl hok h₁, h₂⟩
      · intro ⟨t, h, h'⟩
        rcases h with _ | ⟨hl, hok, hrest⟩
        exact .cons hl hok (ih.mpr ⟨t, hrest, h'⟩)

theorem Run.snoc {s t u : σ} {l : ℓ} {ls : List ℓ} (h : Run step ok s ls t) (hok : ok t l)
    (hl : step t l = some u) : Run step ok s (ls ++ [l]) u :=
  run_append.mpr ⟨t, h, .cons hl hok (.nil u)⟩

/-! ### Running the machine -/

/-- Take the steps one after the other. -/
def exec (step : σ → ℓ → Option σ) : σ → List ℓ → Option σ
  | s, [] => some s
  | s, l :: ls =>
      match step s l with
      | none => none
      | some t => exec step t ls

theorem run_of_exec {s t : σ} {ls : List ℓ} (h : exec step s ls = some t) :
    Run step unguarded s ls t := by
  induction ls generalizing s with
  | nil =>
      injection h with heq
      rw [heq]
      exact .nil t
  | cons l ls ih =>
      rcases hl : step s l with _ | u
      · rw [exec, hl] at h
        cases h
      · rw [exec, hl] at h
        exact .cons hl trivial (ih h)

/-- The machine that refuses the steps `ok` does not allow. -/
def guarded (step : σ → ℓ → Option σ) (ok : σ → ℓ → Prop) [∀ s l, Decidable (ok s l)] (s : σ)
    (l : ℓ) : Option σ :=
  if ok s l then step s l else none

theorem run_of_exec_guarded [∀ s l, Decidable (ok s l)] {s t : σ} {ls : List ℓ}
    (h : exec (guarded step ok) s ls = some t) : Run step ok s ls t := by
  induction ls generalizing s with
  | nil =>
      injection h with heq
      rw [heq]
      exact .nil t
  | cons l ls ih =>
      rw [exec, guarded] at h
      by_cases hok : ok s l
      · rw [if_pos hok] at h
        rcases hl : step s l with _ | u
        · rw [hl] at h
          cases h
        · rw [hl] at h
          exact .cons hl hok (ih h)
      · rw [if_neg hok] at h
        cases h

end Transition
