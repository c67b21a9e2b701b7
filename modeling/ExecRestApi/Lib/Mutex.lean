/-
A mutual exclusion lock with a queue, as tasks of one event loop see it.

A task is outside, waits in the queue, or holds the lock.  `Consistent` says that the
lock's own fields tell the same story, in both directions: nobody holds it unnoticed,
and nobody waits without being queued.  The rules below are the moves of a task, each
of which keeps this; a task may take the lock and give it back within one move.
-/
import Mathlib.Data.List.Nodup
import Mathlib.Logic.Function.Basic

namespace Mutex

/-- Where a task stands with respect to the lock. -/
inductive Status where
  | outside
  | waiting
  | holding
  deriving DecidableEq

variable {T : Type}

/-- The lock's fields and the tasks agree. -/
structure Consistent (holder : Option T) (waiters : List T) (status : T → Status) : Prop where
  holding : ∀ t, status t = .holding ↔ holder = some t
  waiting : ∀ t, status t = .waiting ↔ t ∈ waiters
  nodup : waiters.Nodup

/-- It is the turn of `t`: the lock is free, and `t` is first in the queue or finds it empty.
`rest` is the queue behind it. -/
def Turn (holder : Option T) (waiters : List T) (status : T → Status) (t : T) (rest : List T) :
    Prop :=
  holder = none ∧ (waiters = t :: rest ∨ waiters = [] ∧ rest = [] ∧ status t = .outside)

namespace Consistent

variable {holder : Option T} {waiters rest : List T} {status : T → Status} {t : T}

theorem initial : Consistent none [] (fun _ : T => Status.outside) where
  holding := by simp
  waiting := by simp
  nodup := List.nodup_nil

theorem outside_of_free (h : Consistent none waiters status) : status t ≠ .holding := by
  intro ht
  have := (h.holding t).mp ht
  cases this

/-- Whoever else waits is behind the task whose turn it is. -/
theorem waiting_behind (h : Consistent holder waiters status)
    (hturn : Turn holder waiters status t rest) {u : T} (hu : u ≠ t) :
    status u = .waiting ↔ u ∈ rest := by
  rcases hturn.2 with hq | ⟨hq, hr, -⟩
  · rw [h.waiting u, hq]
    simp [hu]
  · rw [h.waiting u, hq, hr]

theorem rest_nodup (h : Consistent holder waiters status)
    (hturn : Turn holder waiters status t rest) : rest.Nodup ∧ t ∉ rest := by
  rcases hturn.2 with hq | ⟨-, hr, -⟩
  · have hnd := h.nodup
    rw [hq, List.nodup_cons] at hnd
    exact ⟨hnd.2, hnd.1⟩
  · rw [hr]
    exact ⟨List.nodup_nil, List.not_mem_nil⟩

variable [DecidableEq T]

/-- A task joins the queue. -/
theorem enqueue (h : Consistent holder waiters status) (ht : status t = .outside) :
    Consistent holder (waiters ++ [t]) (Function.update status t .waiting) := by
  have hnot : t ∉ waiters := by
    intro hmem
    rw [(h.waiting t).mpr hmem] at ht
    cases ht
  have hholder : holder ≠ some t := by
    intro hmem
    rw [(h.holding t).mpr hmem] at ht
    cases ht
  refine ⟨?_, ?_, ?_⟩
  · intro u
    by_cases hu : u = t
    · rw [hu]
      simp [hholder]
    · rw [Function.update_of_ne hu]
      exact h.holding u
  · intro u
    by_cases hu : u = t
    · rw [hu]
      simp
    · rw [Function.update_of_ne hu, h.waiting u]
      simp [hu]
  · exact List.nodup_append.mpr ⟨h.nodup, List.nodup_singleton t, by
      intro a ha b hb hab
      rw [List.mem_singleton] at hb
      rw [hab, hb] at ha
      exact hnot ha⟩

/-- A task whose turn it is takes the lock. -/
theorem take (h : Consistent holder waiters status)
    (hturn : Turn holder waiters status t rest) :
    Consistent (some t) rest (Function.update status t .holding) := by
  obtain ⟨hnd, hnot⟩ := h.rest_nodup hturn
  refine ⟨?_, ?_, hnd⟩
  · intro u
    by_cases hu : u = t
    · rw [hu]
      simp
    · rw [Function.update_of_ne hu, h.holding u, hturn.1]
      simp [Ne.symm hu]
  · intro u
    by_cases hu : u = t
    · rw [hu]
      simp [hnot]
    · rw [Function.update_of_ne hu]
      exact h.waiting_behind hturn hu

/-- A holder gives the lock back. -/
theorem release (h : Consistent (some t) waiters status) :
    Consistent none waiters (Function.update status t .outside) := by
  have hnot : t ∉ waiters := by
    intro hmem
    have hw := (h.waiting t).mpr hmem
    rw [(h.holding t).mpr rfl] at hw
    cases hw
  refine ⟨?_, ?_, h.nodup⟩
  · intro u
    by_cases hu : u = t
    · rw [hu]
      simp
    · rw [Function.update_of_ne hu, h.holding u]
      simp [Ne.symm hu]
  · intro u
    by_cases hu : u = t
    · rw [hu]
      simp [hnot]
    · rw [Function.update_of_ne hu]
      exact h.waiting u

/-- A task takes the lock and gives it back in one move. -/
theorem pass (h : Consistent holder waiters status)
    (hturn : Turn holder waiters status t rest) :
    Consistent none rest (Function.update status t .outside) := by
  have := (h.take hturn).release
  rwa [Function.update_idem] at this

/-- A task stays outside. -/
theorem stay (h : Consistent holder waiters status) (ht : status t = .outside) :
    Consistent holder waiters (Function.update status t .outside) := by
  rwa [← ht, Function.update_eq_self]

end Consistent

end Mutex
