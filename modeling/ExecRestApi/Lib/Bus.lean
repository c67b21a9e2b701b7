/-
A bus with topics and bounded inboxes.

A member listens to one topic at a time.  What is published goes to the inbox of every
member of the topic that has room, and is lost to the others; a member takes what is in
its inbox, first come first.
-/
import ExecRestApi.Lib.Transition
import Mathlib.Logic.Function.Basic

open Transition

@[ext] structure Bus (K T E : Type) where
  /-- What a member listens to. -/
  topic : K → Option T
  inbox : K → List E

namespace Bus

variable {K T E : Type}

/-- What happens on a bus. -/
inductive Act (K T E : Type) where
  | join (k : K) (t : T)
  | leave (k : K)
  | publish (t : T) (e : E)
  | take (k : K) (e : E)

/-- Nobody listens. -/
def quiet : Bus K T E := ⟨fun _ => none, fun _ => []⟩

/-- What a member takes. -/
def taken [DecidableEq K] (k : K) : List (Act K T E) → List E
  | [] => []
  | .take j e :: ls => if j = k then e :: taken k ls else taken k ls
  | _ :: ls => taken k ls

/-- What is published on a topic. -/
def published [DecidableEq T] (t : T) : List (Act K T E) → List E
  | [] => []
  | .publish u e :: ls => if u = t then e :: published t ls else published t ls
  | _ :: ls => published t ls

theorem taken_append [DecidableEq K] (k : K) (ls ls' : List (Act K T E)) :
    taken k (ls ++ ls') = taken k ls ++ taken k ls' := by
  induction ls with
  | nil => rfl
  | cons l ls ih =>
      cases l with
      | take j e =>
          simp only [List.cons_append, taken, ih]
          split <;> rfl
      | _ => exact ih

theorem published_append [DecidableEq T] (t : T) (ls ls' : List (Act K T E)) :
    published t (ls ++ ls') = published t ls ++ published t ls' := by
  induction ls with
  | nil => rfl
  | cons l ls ih =>
      cases l with
      | publish u e =>
          simp only [List.cons_append, published, ih]
          split <;> rfl
      | _ => exact ih

theorem taken_eq_nil [DecidableEq K] {k : K} {ls : List (Act K T E)}
    (h : ∀ e, Act.take k e ∉ ls) : taken k ls = [] := by
  induction ls with
  | nil => rfl
  | cons l ls ih =>
      have hrest := ih fun e he => h e (List.mem_cons_of_mem _ he)
      cases l with
      | take j e =>
          have hj : j ≠ k := by
            intro hj
            rw [hj] at h
            exact h e List.mem_cons_self
          rw [taken, if_neg hj, hrest]
      | _ => exact hrest

/-- The member neither joins nor leaves. -/
def Stays (k : K) : Act K T E → Prop
  | .join j _ => j ≠ k
  | .leave j => j ≠ k
  | _ => True

section

variable [DecidableEq T]

/-- Every member of the topic that has room gets the event. -/
def put (size : Nat) (b : Bus K T E) (t : T) (e : E) : Bus K T E where
  topic := b.topic
  inbox k :=
    if b.topic k = some t ∧ (b.inbox k).length < size then b.inbox k ++ [e] else b.inbox k

theorem inbox_put (size : Nat) (b : Bus K T E) (t : T) (e : E) (k : K) :
    (b.put size t e).inbox k =
      if b.topic k = some t ∧ (b.inbox k).length < size then b.inbox k ++ [e] else b.inbox k := rfl

end

variable [DecidableEq K] [DecidableEq T]

def step [DecidableEq E] (size : Nat) (b : Bus K T E) : Act K T E → Option (Bus K T E)
  | .join k t =>
      if b.topic k = none then
        some ⟨Function.update b.topic k (some t), Function.update b.inbox k []⟩
      else none
  | .leave k =>
      if b.topic k = none then none
      else some ⟨Function.update b.topic k none, Function.update b.inbox k []⟩
  | .publish t e => some (b.put size t e)
  | .take k e =>
      match b.topic k, b.inbox k with
      | some _, head :: rest =>
          if head = e then some { b with inbox := Function.update b.inbox k rest } else none
      | _, _ => none

variable {size : Nat} {b b' : Bus K T E} {k : K} {t : T}

/-- What a member has after an event of its own: it is that event's doing alone. -/
structure Delivered (size : Nat) (t : T) (k : K) (b b' : Bus K T E) (ls : List (Act K T E)) :
    Prop where
  topic : b'.topic k = some t
  /-- In order, nothing twice, nothing of another topic. -/
  sublist : (taken k ls ++ b'.inbox k).Sublist (b.inbox k ++ published t ls)
  /-- Nothing is lost while the inbox could hold all of it. -/
  complete : (b.inbox k).length + (published t ls).length ≤ size →
    taken k ls ++ b'.inbox k = b.inbox k ++ published t ls

theorem Delivered.cons {l : Act K T E} {ls : List (Act K T E)} {c : Bus K T E}
    (hstep : Delivered size t k b c [l]) (h : Delivered size t k c b' ls) :
    Delivered size t k b b' (l :: ls) := by
  have htaken : taken k (l :: ls) = taken k [l] ++ taken k ls := taken_append k [l] ls
  have hpublished : published t (l :: ls) = published t [l] ++ published t ls :=
    published_append t [l] ls
  refine ⟨h.topic, ?_, ?_⟩
  · rw [htaken, hpublished, List.append_assoc, ← List.append_assoc (b.inbox k)]
    have htail := h.sublist.append_left (taken k [l])
    rw [← List.append_assoc (taken k [l]) (c.inbox k)] at htail
    exact htail.trans (hstep.sublist.append_right _)
  · intro hsize
    rw [hpublished, List.length_append] at hsize
    have hone := hstep.complete (by omega)
    have hlength := congrArg List.length hone
    simp only [List.length_append] at hlength
    have htail := h.complete (by omega)
    rw [htaken, hpublished, List.append_assoc, htail, ← List.append_assoc, hone, List.append_assoc]

theorem delivered_put (e : E) (u : T) (ht : b.topic k = some t) :
    Delivered size t k b (b.put size u e) [.publish u e] := by
  have hmine : published t [Act.publish (K := K) u e] = if u = t then [e] else [] := by
    rw [published, published]
  have hkeep : (b.inbox k).Sublist (b.inbox k ++ if u = t then [e] else []) :=
    List.sublist_append_left ..
  refine ⟨ht, ?_, ?_⟩
  · rw [inbox_put, ht, hmine]
    by_cases hgets : some t = some u ∧ (b.inbox k).length < size
    · rw [if_pos hgets, if_pos (Option.some.inj hgets.1).symm]
      exact List.Sublist.refl _
    · rw [if_neg hgets]
      exact hkeep
  · intro hsize
    rw [inbox_put, ht, hmine]
    rw [hmine] at hsize
    by_cases hu : u = t
    · rw [if_pos hu, List.length_singleton] at hsize
      rw [if_pos ⟨congrArg some hu.symm, by omega⟩, if_pos hu]
      rfl
    · rw [if_neg fun h => hu (Option.some.inj h.1).symm, if_neg hu, List.append_nil]
      rfl

variable [DecidableEq E]

/-- What one event does for a member that stays. -/
theorem delivered_step {l : Act K T E} (h : b.step size l = some b') (hstay : Stays k l)
    (ht : b.topic k = some t) : Delivered size t k b b' [l] := by
  cases l with
  | join j u =>
      rw [step] at h
      split at h
      · injection h with h
        have hk : k ≠ j := Ne.symm hstay
        rw [← h]
        refine ⟨?_, ?_, ?_⟩ <;> simp [taken, published, Function.update_of_ne hk, ht]
      · cases h
  | leave j =>
      rw [step] at h
      split at h
      · cases h
      · injection h with h
        have hk : k ≠ j := Ne.symm hstay
        rw [← h]
        refine ⟨?_, ?_, ?_⟩ <;> simp [taken, published, Function.update_of_ne hk, ht]
  | publish u e =>
      rw [step] at h
      injection h with h
      rw [← h]
      exact delivered_put e u ht
  | take j e =>
      rw [step] at h
      split at h
      · rename_i u head rest hj hinbox
        split at h
        · rename_i heq
          injection h with h
          rw [← h]
          by_cases hk : j = k
          · rw [hk, heq] at hinbox
            refine ⟨ht, ?_, ?_⟩ <;> simp [taken, published, hk, hinbox]
          · have hne : k ≠ j := Ne.symm hk
            refine ⟨ht, ?_, ?_⟩ <;> simp [taken, published, hk, Function.update_of_ne hne]
        · cases h
      · cases h

/-- **A member that stays gets what is published on its topic, in order, and all of it if it
fits.** -/
theorem Delivered.of_run {ls : List (Act K T E)}
    (h : Run (step size) (fun _ l => Stays k l) b ls b') (ht : b.topic k = some t) :
    Delivered size t k b b' ls := by
  induction h with
  | nil b => exact ⟨ht, by simp [taken, published], by simp [taken, published]⟩
  | cons hl hok _ ih =>
      have hstep := delivered_step hl hok ht
      exact hstep.cons (ih hstep.topic)

end Bus
