/-
A machine whose runs are runs of a simpler one.

`observed step f s ls` are the labels of the simpler machine along the run from `s` that
takes `ls`; `f s l t` are those of one step.  `Run.simulates` is the rule: if every
guarded step is a run of the simpler machine between related states, so is every guarded
run.
-/
import ExecRestApi.Lib.Transition

namespace Transition

variable {σ τ ℓ ℓ' : Type} {step : σ → ℓ → Option σ} {ok : σ → ℓ → Prop}
  {step' : τ → ℓ' → Option τ} {ok' : τ → ℓ' → Prop} {f : σ → ℓ → σ → List ℓ'}

/-- What a run shows. -/
def observed (step : σ → ℓ → Option σ) (f : σ → ℓ → σ → List ℓ') : σ → List ℓ → List ℓ'
  | _, [] => []
  | s, l :: ls =>
      match step s l with
      | none => []
      | some t => f s l t ++ observed step f t ls

theorem observed_cons {s t : σ} {l : ℓ} (ls : List ℓ) (h : step s l = some t) :
    observed step f s (l :: ls) = f s l t ++ observed step f t ls := by
  rw [observed, h]

/-- **The rule of simulation.** -/
theorem Run.simulates {R : σ → τ → Prop}
    (hstep : ∀ s l t a, R s a → ok s l → step s l = some t →
      ∃ b, Run step' ok' a (f s l t) b ∧ R t b)
    {s t : σ} {ls : List ℓ} (h : Run step ok s ls t) {a : τ} (hs : R s a) :
    ∃ b, Run step' ok' a (observed step f s ls) b ∧ R t b := by
  induction h generalizing a with
  | nil s => exact ⟨a, .nil a, hs⟩
  | cons hl hok _ ih =>
      obtain ⟨b, hab, hb⟩ := hstep _ _ _ _ hs hok hl
      obtain ⟨c, hbc, hc⟩ := ih hb
      rw [observed_cons _ hl]
      exact ⟨c, run_append.mpr ⟨b, hab, hbc⟩, hc⟩

/-- The rule where the two runs are compared with all they have done. -/
theorem Run.simulates_history {R : List ℓ' → σ → τ → Prop}
    (hstep : ∀ before s l t a, R before s a → ok s l → step s l = some t →
      ∃ ls' b, Run step' ok' a ls' b ∧ R (before ++ ls') t b)
    {s t : σ} {ls : List ℓ} (h : Run step ok s ls t) {before : List ℓ'} {a : τ}
    (hs : R before s a) : ∃ ls' b, Run step' ok' a ls' b ∧ R (before ++ ls') t b := by
  induction h generalizing before a with
  | nil s => exact ⟨[], a, .nil a, by rwa [List.append_nil]⟩
  | cons hl hok _ ih =>
      obtain ⟨ls₁, b, hab, hb⟩ := hstep _ _ _ _ _ hs hok hl
      obtain ⟨ls₂, c, hbc, hc⟩ := ih hb
      exact ⟨ls₁ ++ ls₂, c, run_append.mpr ⟨b, hab, hbc⟩, by rwa [← List.append_assoc]⟩

/-- A part of a machine runs along the labels that concern it. -/
theorem Run.project {π : σ → τ} {g : ℓ → Option ℓ'}
    (hstep : ∀ s l t, ok s l → step s l = some t →
      (g l = none ∧ π t = π s) ∨ ∃ l', g l = some l' ∧ ok' (π s) l' ∧ step' (π s) l' = some (π t))
    {s t : σ} {ls : List ℓ} (h : Run step ok s ls t) :
    Run step' ok' (π s) (ls.filterMap g) (π t) := by
  induction h with
  | nil s => exact .nil (π s)
  | cons hl hok _ ih =>
      rcases hstep _ _ _ hok hl with ⟨hnone, hsame⟩ | ⟨l', hsome, hok', hl'⟩
      · rwa [List.filterMap_cons_none hnone, ← hsame]
      · rw [List.filterMap_cons_some hsome]
        exact .cons hl' hok' ih

/-- **What a run shows is bounded by a potential** that every step lowers by what it shows. -/
theorem Run.observed_le {I : σ → Prop} {φ : σ → Nat}
    (hkeep : ∀ s l t, I s → ok s l → step s l = some t → I t)
    (hstep : ∀ s l t, I s → ok s l → step s l = some t → φ t + (f s l t).length ≤ φ s)
    {s t : σ} {ls : List ℓ} (h : Run step ok s ls t) (hs : I s) :
    φ t + (observed step f s ls).length ≤ φ s := by
  induction h with
  | nil s => exact Nat.le_refl _
  | cons hl hok _ ih =>
      have hrest := ih (hkeep _ _ _ hs hok hl)
      have hone := hstep _ _ _ hs hok hl
      rw [observed_cons _ hl, List.length_append]
      omega

/-- A run whose labels meet a condition is a run under that condition. -/
theorem Run.restrict {P : ℓ → Prop} {s t : σ} {ls : List ℓ} (h : Run step ok s ls t)
    (hP : ∀ l ∈ ls, P l) : Run step (fun _ l => P l) s ls t := by
  induction h with
  | nil s => exact .nil s
  | cons hl hok _ ih =>
      refine .cons hl (hP _ List.mem_cons_self) (ih ?_)
      intro x hx
      exact hP x (List.mem_cons_of_mem _ hx)

end Transition
