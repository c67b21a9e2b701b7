/-
Coroutines that run side by side, as `asyncio.gather` runs them.

Each one is a program of its own, and replies come to them in any order.  The first one that
raises settles the outcome, and the others go on to nobody's benefit; without one the outcome
is there when the last one has returned, in the order they were given in.  `inOrder` is the
plain program that awaits them one after the other.
-/
import ExecRestApi.Lib.Prog
import ExecRestApi.Lib.Transition

namespace Interaction

open Transition

namespace Prog

variable {Op Resp ε α : Type}

/-! ### Some replies later -/

/-- Where a program stands after some replies. -/
def after (p : Prog Op Resp ε α) : List Resp → Prog Op Resp ε α
  | [] => p
  | r :: rs =>
      match p with
      | ask _ k => after (k r) rs
      | p => p

/-- What it has exchanged by then. -/
def exchanged : Prog Op Resp ε α → List Resp → List (Op × Resp)
  | ask op k, r :: rs => (op, r) :: exchanged (k r) rs
  | _, _ => []

@[simp] theorem after_nil (p : Prog Op Resp ε α) : after p [] = p := by
  rw [after]

@[simp] theorem after_ask (op : Op) (k : Resp → Prog Op Resp ε α) (r : Resp) (rs : List Resp) :
    after (ask op k) (r :: rs) = after (k r) rs := by
  rw [after]

theorem after_pure (a : α) (rs : List Resp) : after (pure a : Prog Op Resp ε α) rs = pure a := by
  cases rs <;> rfl

theorem after_throw (e : ε) (rs : List Resp) : after (throw e : Prog Op Resp ε α) rs = throw e := by
  cases rs <;> rfl

theorem after_append (p : Prog Op Resp ε α) (rs rs' : List Resp) :
    after p (rs ++ rs') = after (after p rs) rs' := by
  induction rs generalizing p with
  | nil => rw [List.nil_append, after_nil]
  | cons r rs ih =>
      cases p with
      | pure a => rw [after_pure, after_pure, after_pure]
      | throw e => rw [after_throw, after_throw, after_throw]
      | ask op k => rw [List.cons_append, after_ask, after_ask, ih]

/-- A program that has returned has run. -/
theorem runs_of_after_pure {p : Prog Op Resp ε α} {rs : List Resp} {a : α}
    (h : after p rs = pure a) : Runs p (exchanged p rs) (.ok a) := by
  induction rs generalizing p with
  | nil =>
      rw [after] at h
      rw [h]
      exact ⟨rfl, rfl⟩
  | cons r rs ih =>
      cases p with
      | pure b =>
          cases h
          exact ⟨rfl, rfl⟩
      | throw e => cases h
      | ask op k => exact ⟨r, _, rfl, ih h⟩

/-- A program that has raised has run. -/
theorem runs_of_after_throw {p : Prog Op Resp ε α} {rs : List Resp} {e : ε}
    (h : after p rs = throw e) : Runs p (exchanged p rs) (.error e) := by
  induction rs generalizing p with
  | nil =>
      rw [after] at h
      rw [h]
      exact ⟨rfl, rfl⟩
  | cons r rs ih =>
      cases p with
      | pure b => cases h
      | throw e' =>
          cases h
          exact ⟨rfl, rfl⟩
      | ask op k => exact ⟨r, _, rfl, ih h⟩

/-! ### One after the other -/

/-- Await the programs in turn. -/
def inOrder : List (Prog Op Resp ε α) → Prog Op Resp ε (List α)
  | [] => pure []
  | p :: ps => p >>= fun a => inOrder ps >>= fun as => pure (a :: as)

end Prog

/-- The children of a gather, and what it gives whoever awaits it. -/
structure Gather (Op Resp ε α : Type) where
  children : List (Prog Op Resp ε α)
  outcome : Option (Except ε (List α))

namespace Gather

variable {Op Resp ε α : Type}

/-- What the children have returned, once all of them have. -/
def returned : List (Prog Op Resp ε α) → Option (List α)
  | [] => some []
  | .pure a :: ps => (returned ps).map fun as => a :: as
  | _ :: _ => none

/-- What the first child that has raised has raised. -/
def thrown : List (Prog Op Resp ε α) → Option ε
  | [] => none
  | .throw e :: _ => some e
  | _ :: ps => thrown ps

/-- All of them have run up to where they first wait. -/
def start (ps : List (Prog Op Resp ε α)) : Gather Op Resp ε α :=
  ⟨ps, match thrown ps with
    | some e => some (.error e)
    | none => (returned ps).map .ok⟩

/-- A child has gone on to `p`. -/
def settle (outcome : Option (Except ε (List α))) (children : List (Prog Op Resp ε α))
    (p : Prog Op Resp ε α) : Option (Except ε (List α)) :=
  match outcome, p with
  | some out, _ => some out
  | none, .throw e => some (.error e)
  | none, _ => (returned children).map .ok

/-- Child `i` gets a reply. -/
def step (g : Gather Op Resp ε α) : Nat × Resp → Option (Gather Op Resp ε α)
  | (i, r) =>
      match g.children[i]? with
      | some (.ask _ k) =>
          some ⟨g.children.set i (k r), settle g.outcome (g.children.set i (k r)) (k r)⟩
      | _ => none

/-- The replies to child `i`. -/
def repliesTo (i : Nat) (ls : List (Nat × Resp)) : List Resp :=
  ls.filterMap fun l => if l.1 = i then some l.2 else none

/-- Every child after its replies. -/
def advance (f : Nat → List Resp) : List (Prog Op Resp ε α) → List (Prog Op Resp ε α)
  | [] => []
  | p :: ps => p.after (f 0) :: advance (fun i => f (i + 1)) ps

/-- What the children have exchanged, one after the other. -/
def transcript (f : Nat → List Resp) : List (Prog Op Resp ε α) → List (Op × Resp)
  | [] => []
  | p :: ps => p.exchanged (f 0) ++ transcript (fun i => f (i + 1)) ps

/-! ### What the outcome is -/

variable {g g' : Gather Op Resp ε α} {ps : List (Prog Op Resp ε α)} {ls ls' : List (Nat × Resp)}

theorem repliesTo_snoc (i j : Nat) (r : Resp) (ls : List (Nat × Resp)) :
    repliesTo i (ls ++ [(j, r)]) = if i = j then repliesTo i ls ++ [r] else repliesTo i ls := by
  rw [repliesTo, List.filterMap_append, ← repliesTo]
  by_cases h : i = j
  · rw [if_pos h, h]
    simp
  · rw [if_neg h]
    simp [Ne.symm h]

theorem advance_nil (f : Nat → List Resp) (h : ∀ i, f i = []) (ps : List (Prog Op Resp ε α)) :
    advance f ps = ps := by
  induction ps generalizing f with
  | nil => rfl
  | cons p ps ih => rw [advance, h 0, Prog.after, ih _ fun i => h (i + 1)]

/-- A reply to one child advances that child. -/
theorem advance_reply {f : Nat → List Resp} {i : Nat} {op : Op} {k : Resp → Prog Op Resp ε α}
    (h : (advance f ps)[i]? = some (.ask op k)) (r : Resp) :
    (advance f ps).set i (k r) = advance (fun j => if j = i then f j ++ [r] else f j) ps := by
  induction ps generalizing f i with
  | nil => cases h
  | cons p ps ih =>
      cases i with
      | zero =>
          rw [advance, List.getElem?_cons_zero] at h
          injection h with h
          rw [advance, advance, List.set_cons_zero, if_pos rfl, Prog.after_append, h, Prog.after_ask,
            Prog.after_nil]
          simp
      | succ i =>
          rw [advance, List.getElem?_cons_succ] at h
          rw [advance, advance, List.set_cons_succ, ih h, if_neg (Nat.succ_ne_zero i).symm]
          simp only [Nat.add_right_cancel_iff]

theorem not_asking_of_returned {vs : List α} (h : returned ps = some vs) {p : Prog Op Resp ε α}
    (hp : p ∈ ps) : ∃ a, p = .pure a := by
  induction ps generalizing vs with
  | nil => cases hp
  | cons q ps ih =>
      cases q with
      | pure a =>
          obtain ⟨as, has, -⟩ := Option.map_eq_some_iff.mp h
          rcases List.mem_cons.mp hp with rfl | hp
          · exact ⟨a, rfl⟩
          · exact ih has hp
      | _ => cases h

theorem thrown_eq_some {e : ε} (h : thrown ps = some e) : Prog.throw e ∈ ps := by
  induction ps with
  | nil => cases h
  | cons p ps ih =>
      cases p with
      | throw e' =>
          cases h
          exact List.mem_cons_self
      | _ => exact List.mem_cons_of_mem _ (ih h)

theorem thrown_eq_none (h : thrown ps = none) (e : ε) : Prog.throw e ∉ ps := by
  induction ps with
  | nil => exact List.not_mem_nil
  | cons p ps ih =>
      cases p with
      | throw e' => cases h
      | _ =>
          rw [List.mem_cons, not_or]
          exact ⟨by rintro ⟨⟩, ih h⟩

/-- What a gather has made of its children. -/
structure Right (ps : List (Prog Op Resp ε α)) (ls : List (Nat × Resp)) (g : Gather Op Resp ε α) :
    Prop where
  children : g.children = advance (fun i => repliesTo i ls) ps
  ok : ∀ vs, g.outcome = some (.ok vs) → returned g.children = some vs
  error : ∀ e, g.outcome = some (.error e) → Prog.throw e ∈ g.children
  waiting : g.outcome = none → (∀ e, Prog.throw e ∉ g.children) ∧ returned g.children = none

theorem right_start (ps : List (Prog Op Resp ε α)) : Right ps [] (start ps) := by
  refine ⟨(advance_nil _ (fun _ => rfl) ps).symm, ?_, ?_, ?_⟩
  all_goals rw [start]; dsimp only; cases hthrown : thrown ps
  · intro vs h
    obtain ⟨as, has, heq⟩ := Option.map_eq_some_iff.mp h
    cases heq
    exact has
  · intro vs h
    cases h
  · intro e h
    obtain ⟨as, -, heq⟩ := Option.map_eq_some_iff.mp h
    cases heq
  · intro e h
    cases h
    exact thrown_eq_some hthrown
  · intro h
    exact ⟨thrown_eq_none hthrown, Option.map_eq_none_iff.mp h⟩
  · intro h
    cases h

theorem mem_set_of_mem {β : Type} {l : List β} {i : Nat} {x y z : β} (hx : x ∈ l)
    (hy : l[i]? = some y) (hne : x ≠ y) : x ∈ l.set i z := by
  obtain ⟨j, hj, hget⟩ := List.getElem_of_mem hx
  have hij : i ≠ j := by
    rintro rfl
    rw [List.getElem?_eq_getElem hj, hget] at hy
    exact hne (Option.some.inj hy)
  rw [List.mem_iff_getElem?]
  exact ⟨j, by rw [List.getElem?_set_ne hij, List.getElem?_eq_getElem hj, hget]⟩

/-- **A reply keeps the account.** -/
theorem Right.step {l : Nat × Resp} (h : Right ps ls g) (hs : g.step l = some g') :
    Right ps (ls ++ [l]) g' := by
  obtain ⟨i, r⟩ := l
  rw [Gather.step] at hs
  split at hs
  · rename_i op k hi
    injection hs with hs
    have hmem : k r ∈ g.children.set i (k r) := by
      obtain ⟨hlt, -⟩ := List.getElem?_eq_some_iff.mp hi
      exact List.mem_set hlt (k r)
    have hchildren : g'.children = g.children.set i (k r) := by rw [← hs]
    have houtcome : g'.outcome = settle g.outcome (g.children.set i (k r)) (k r) := by rw [← hs]
    refine ⟨?_, ?_, ?_, ?_⟩
    · rw [hchildren, h.children, advance_reply (by rw [← h.children]; exact hi)]
      simp only [repliesTo_snoc]
    all_goals rw [hchildren, houtcome]; rcases hout : g.outcome with _ | e | vs
    · -- nothing was settled, and all have returned
      intro vs hsettle
      rw [settle.eq_def] at hsettle
      cases hkr : k r with
      | throw e =>
          rw [hkr] at hsettle
          cases hsettle
      | _ =>
          rw [hkr] at hsettle
          obtain ⟨as, has, heq⟩ := Option.map_eq_some_iff.mp hsettle
          cases heq
          exact has
    · intro vs hsettle
      cases hsettle
    · -- nobody waits any more
      obtain ⟨a, ha⟩ := not_asking_of_returned (h.ok vs hout) (List.mem_of_getElem? hi)
      cases ha
    · intro e hsettle
      rw [settle.eq_def] at hsettle
      cases hkr : k r with
      | throw e' =>
          rw [hkr] at hsettle hmem
          cases hsettle
          exact hmem
      | _ =>
          rw [hkr] at hsettle
          obtain ⟨as, -, heq⟩ := Option.map_eq_some_iff.mp hsettle
          cases heq
    · intro e' hsettle
      cases hsettle
      exact mem_set_of_mem (h.error e hout) hi (by rintro ⟨⟩)
    · obtain ⟨a, ha⟩ := not_asking_of_returned (h.ok vs hout) (List.mem_of_getElem? hi)
      cases ha
    · intro hsettle
      rw [settle.eq_def] at hsettle
      have hno : ∀ e, k r ≠ .throw e := by
        intro e hkr
        rw [hkr] at hsettle
        cases hsettle
      refine ⟨fun e hthrow => ?_, ?_⟩
      · rcases List.mem_or_eq_of_mem_set hthrow with hold | hnew
        · exact (h.waiting hout).1 e hold
        · exact hno e hnew.symm
      · cases hkr : k r with
        | throw e => exact absurd hkr (hno e)
        | _ =>
            rw [hkr] at hsettle
            exact Option.map_eq_none_iff.mp hsettle
    · intro hsettle
      cases hsettle
    · intro hsettle
      cases hsettle
  · cases hs

theorem right_of_run (h : Run step unguarded (start ps) ls g) : Right ps ls g :=
  h.recorded (fun _ _ _ _ hI _ hs => hI.step hs) (right_start ps)

theorem asking_of_not_returned (hthrow : ∀ e, Prog.throw e ∉ ps) (hreturned : returned ps = none) :
    ∃ (i : Nat) (op : Op) (k : Resp → Prog Op Resp ε α), ps[i]? = some (.ask op k) := by
  induction ps with
  | nil => cases hreturned
  | cons p ps ih =>
      cases p with
      | pure a =>
          obtain ⟨i, op, k, hi⟩ := ih (fun e he => hthrow e (List.mem_cons_of_mem _ he))
            (Option.map_eq_none_iff.mp hreturned)
          exact ⟨i + 1, op, k, hi⟩
      | throw e => exact absurd List.mem_cons_self (hthrow e)
      | ask op k => exact ⟨0, op, k, rfl⟩

/-- **Without an outcome somebody still waits**, and can be answered. -/
theorem step_of_waiting (h : Run step unguarded (start ps) ls g) (hout : g.outcome = none) :
    ∃ i, ∀ r, (g.step (i, r)).isSome = true := by
  obtain ⟨hthrow, hreturned⟩ := (right_of_run h).waiting hout
  obtain ⟨i, op, k, hi⟩ := asking_of_not_returned hthrow hreturned
  refine ⟨i, fun r => ?_⟩
  rw [step, hi]
  rfl

/-! ### The order of the replies -/

theorem runs_inOrder {f : Nat → List Resp} {vs : List α} (h : returned (advance f ps) = some vs) :
    Prog.Runs (Prog.inOrder ps) (transcript f ps) (.ok vs) := by
  induction ps generalizing f vs with
  | nil =>
      cases h
      exact ⟨rfl, rfl⟩
  | cons p ps ih =>
      rw [advance] at h
      cases hp : p.after (f 0) with
      | pure a =>
          rw [hp] at h
          obtain ⟨as, has, rfl⟩ := Option.map_eq_some_iff.mp h
          refine Prog.runs_bind_ok.mpr ⟨_, _, a, rfl, Prog.runs_of_after_pure hp, ?_⟩
          exact Prog.runs_bind_ok.mpr ⟨_, [], as, (List.append_nil _).symm, ih has, rfl, rfl⟩
      | throw e =>
          rw [hp] at h
          cases h
      | ask op k =>
          rw [hp] at h
          cases h

theorem runs_of_thrown {f : Nat → List Resp} {e : ε} (h : Prog.throw e ∈ advance f ps) :
    ∃ i p, ps[i]? = some p ∧ Prog.Runs p (p.exchanged (f i)) (.error e) := by
  induction ps generalizing f with
  | nil => cases h
  | cons p ps ih =>
      rcases List.mem_cons.mp h with h | h
      · exact ⟨0, p, rfl, Prog.runs_of_after_throw h.symm⟩
      · obtain ⟨i, q, hq, hruns⟩ := ih h
        exact ⟨i + 1, q, hq, hruns⟩

/-- **Returning all is what awaiting one after the other does**, with the same replies. -/
theorem inOrder_of_run (h : Run step unguarded (start ps) ls g) {vs : List α}
    (hout : g.outcome = some (.ok vs)) :
    Prog.Runs (Prog.inOrder ps) (transcript (fun i => repliesTo i ls) ps) (.ok vs) := by
  have hright := right_of_run h
  have hreturned := hright.ok vs hout
  rw [hright.children] at hreturned
  exact runs_inOrder hreturned

/-- **Once all have returned, that is the outcome.** -/
theorem outcome_of_returned (h : Run step unguarded (start ps) ls g) {vs : List α}
    (hvs : returned (advance (fun i => repliesTo i ls) ps) = some vs) :
    g.outcome = some (.ok vs) := by
  have hright := right_of_run h
  rw [← hright.children] at hvs
  rcases hout : g.outcome with _ | e | vs'
  · rw [(hright.waiting hout).2] at hvs
    cases hvs
  · obtain ⟨a, ha⟩ := not_asking_of_returned hvs (hright.error e hout)
    cases ha
  · rw [hright.ok vs' hout] at hvs
    rw [Option.some.inj hvs]

/-- **What is raised is what one of the children has raised.** -/
theorem raised_of_run (h : Run step unguarded (start ps) ls g) {e : ε}
    (hout : g.outcome = some (.error e)) :
    ∃ i p, ps[i]? = some p ∧ Prog.Runs p (p.exchanged (repliesTo i ls)) (.error e) := by
  have hright := right_of_run h
  have hthrow := hright.error e hout
  rw [hright.children] at hthrow
  exact runs_of_thrown hthrow

/-- **The order of the replies does not matter**, except for which of several errors is raised. -/
theorem outcome_of_same_replies (h : Run step unguarded (start ps) ls g)
    (h' : Run step unguarded (start ps) ls' g') (hsame : ∀ i, repliesTo i ls = repliesTo i ls') :
    g.outcome = g'.outcome ∨ ∃ e e', g.outcome = some (.error e) ∧ g'.outcome = some (.error e') := by
  have hright := right_of_run h
  have hright' := right_of_run h'
  have hchildren : g'.children = g.children := by
    rw [hright.children, hright'.children]
    simp only [hsame]
  have hclash : ∀ {vs : List α} {e : ε}, returned g.children = some vs → Prog.throw e ∉ g.children := by
    intro vs e hvs hthrow
    obtain ⟨a, ha⟩ := not_asking_of_returned hvs hthrow
    cases ha
  have hok' := hright'.ok
  have herror' := hright'.error
  have hwaiting' := hright'.waiting
  rw [hchildren] at hok' herror' hwaiting'
  rcases hout : g.outcome with _ | e | vs <;> rcases hout' : g'.outcome with _ | e' | vs'
  · exact .inl rfl
  · exact absurd (herror' e' hout') ((hright.waiting hout).1 e')
  · have hnone := (hright.waiting hout).2
    rw [hok' vs' hout'] at hnone
    cases hnone
  · exact absurd (hright.error e hout) ((hwaiting' hout').1 e)
  · exact .inr ⟨e, e', rfl, rfl⟩
  · exact absurd (hright.error e hout) (hclash (hok' vs' hout'))
  · have hnone := (hwaiting' hout').2
    rw [hright.ok vs hout] at hnone
    cases hnone
  · exact absurd (herror' e' hout') (hclash (hright.ok vs hout))
  · have hvs := hok' vs' hout'
    rw [hright.ok vs hout] at hvs
    injection hvs with hvs
    exact .inl (by rw [hvs])

end Gather

end Interaction
