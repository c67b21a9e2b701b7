/-
Programs that talk to the outside.

A coroutine is a tree: it returns, raises, or issues one operation and goes on
with whatever comes back.  Nothing here says what the outside does.  `Runs p tr out`
says that `p`, having exchanged exactly the operations and replies of `tr`, ends
with `out`, so an assumption about the outside is a predicate on the trace, and
"for every behaviour of the outside" is "for every trace".
-/
import Mathlib.Data.List.Basic

namespace Interaction

/-- A coroutine with operations `Op`, replies `Resp` and exceptions `ε`. -/
inductive Prog (Op Resp ε α : Type) : Type where
  /-- `return a` -/
  | pure (a : α)
  /-- `raise e` -/
  | throw (e : ε)
  /-- Issue `op`, suspend, and go on with the reply. -/
  | ask (op : Op) (k : Resp → Prog Op Resp ε α)

namespace Prog

variable {Op Resp ε α β : Type}

/-- Sequencing. -/
def bind (p : Prog Op Resp ε α) (f : α → Prog Op Resp ε β) : Prog Op Resp ε β :=
  match p with
  | pure a => f a
  | throw e => throw e
  | ask op k => ask op fun r => bind (k r) f

/-- `try: p  except e: h e` -/
def catchAll (p : Prog Op Resp ε α) (h : ε → Prog Op Resp ε α) : Prog Op Resp ε α :=
  match p with
  | pure a => pure a
  | throw e => h e
  | ask op k => ask op fun r => catchAll (k r) h

/-- A computation that issues nothing. -/
def ofExcept : Except ε α → Prog Op Resp ε α
  | .ok a => pure a
  | .error e => throw e

instance : Monad (Prog Op Resp ε) where
  pure := pure
  bind := bind

instance : MonadLift (Except ε) (Prog Op Resp ε) := ⟨ofExcept⟩

@[simp] theorem bind_pure (a : α) (f : α → Prog Op Resp ε β) :
    ((pure a : Prog Op Resp ε α) >>= f) = f a := rfl

@[simp] theorem bind_throw (e : ε) (f : α → Prog Op Resp ε β) :
    ((throw e : Prog Op Resp ε α) >>= f) = throw e := rfl

@[simp] theorem bind_ask (op : Op) (k : Resp → Prog Op Resp ε α) (f : α → Prog Op Resp ε β) :
    (ask op k >>= f) = ask op fun r => k r >>= f := rfl

/-- What comes after a step is what comes after its parts. -/
theorem bind_assoc (p : Prog Op Resp ε α) (f : α → Prog Op Resp ε β) (g : β → Prog Op Resp ε γ) :
    (p >>= f) >>= g = p >>= fun a => f a >>= g := by
  induction p with
  | pure a => rfl
  | throw e => rfl
  | ask op k ih => exact congrArg (ask op) (funext ih)

@[simp] theorem ofExcept_ok (a : α) : (ofExcept (.ok a) : Prog Op Resp ε α) = pure a := rfl

@[simp] theorem ofExcept_error (e : ε) :
    (ofExcept (.error e) : Prog Op Resp ε α) = throw e := rfl

/-! ### Complete runs -/

/-- `p` exchanges exactly `tr` and ends with `out`. -/
def Runs : Prog Op Resp ε α → List (Op × Resp) → Except ε α → Prop
  | pure a, tr, out => tr = [] ∧ out = .ok a
  | throw e, tr, out => tr = [] ∧ out = .error e
  | ask op k, tr, out => ∃ r rest, tr = (op, r) :: rest ∧ Runs (k r) rest out

@[simp] theorem runs_pure {a : α} {tr : List (Op × Resp)} {out : Except ε α} :
    Runs (pure a) tr out ↔ tr = [] ∧ out = .ok a := Iff.rfl

@[simp] theorem runs_throw {e : ε} {tr : List (Op × Resp)} {out : Except ε α} :
    Runs (throw e) tr out ↔ tr = [] ∧ out = .error e := Iff.rfl

theorem runs_ask {op : Op} {k : Resp → Prog Op Resp ε α} {tr : List (Op × Resp)}
    {out : Except ε α} :
    Runs (ask op k) tr out ↔ ∃ r rest, tr = (op, r) :: rest ∧ Runs (k r) rest out := Iff.rfl

theorem runs_ofExcept {x : Except ε α} {tr : List (Op × Resp)} {out : Except ε α} :
    Runs (ofExcept x) tr out ↔ tr = [] ∧ out = x := by
  cases x <;> simp

/-- A sequence is its first part, if that raises, or both parts. -/
theorem runs_bind {p : Prog Op Resp ε α} {f : α → Prog Op Resp ε β} {tr : List (Op × Resp)}
    {out : Except ε β} :
    Runs (p >>= f) tr out ↔
      (∃ e, Runs p tr (.error e) ∧ out = .error e) ∨
        ∃ tr₁ tr₂ a, tr = tr₁ ++ tr₂ ∧ Runs p tr₁ (.ok a) ∧ Runs (f a) tr₂ out := by
  induction p generalizing tr with
  | pure a =>
      constructor
      · intro h
        exact .inr ⟨[], tr, a, rfl, ⟨rfl, rfl⟩, h⟩
      · rintro (⟨e, ⟨-, he⟩, -⟩ | ⟨tr₁, tr₂, a', rfl, ⟨rfl, ha⟩, h⟩)
        · cases he
        · cases ha
          exact h
  | throw e =>
      constructor
      · intro ⟨htr, hout⟩
        exact .inl ⟨e, ⟨htr, rfl⟩, hout⟩
      · rintro (⟨e', ⟨rfl, he⟩, rfl⟩ | ⟨tr₁, tr₂, a', rfl, ⟨-, ha⟩, -⟩)
        · cases he
          exact ⟨rfl, rfl⟩
        · cases ha
  | ask op k ih =>
      rw [bind_ask, runs_ask]
      constructor
      · rintro ⟨r, rest, rfl, h⟩
        rcases (ih r).mp h with ⟨e, hp, hout⟩ | ⟨tr₁, tr₂, a, rfl, h₁, h₂⟩
        · exact .inl ⟨e, ⟨r, rest, rfl, hp⟩, hout⟩
        · exact .inr ⟨(op, r) :: tr₁, tr₂, a, rfl, ⟨r, tr₁, rfl, h₁⟩, h₂⟩
      · rintro (⟨e, ⟨r, rest, rfl, hp⟩, hout⟩ | ⟨_, tr₂, a, rfl, ⟨r, tr₁, rfl, h₁⟩, h₂⟩)
        · exact ⟨r, rest, rfl, (ih r).mpr (.inl ⟨e, hp, hout⟩)⟩
        · exact ⟨r, tr₁ ++ tr₂, rfl, (ih r).mpr (.inr ⟨tr₁, tr₂, a, rfl, h₁, h₂⟩)⟩

/-- A sequence that succeeds is a first part that succeeds and a second that does. -/
theorem runs_bind_ok {p : Prog Op Resp ε α} {f : α → Prog Op Resp ε β}
    {tr : List (Op × Resp)} {b : β} :
    Runs (p >>= f) tr (.ok b) ↔
      ∃ tr₁ tr₂ a, tr = tr₁ ++ tr₂ ∧ Runs p tr₁ (.ok a) ∧ Runs (f a) tr₂ (.ok b) := by
  rw [runs_bind]
  constructor
  · intro h
    rcases h with ⟨e, -, he⟩ | h
    · cases he
    · exact h
  · exact .inr

/-- A computation that issues nothing adds nothing to the trace. -/
theorem runs_lift_bind_ok {x : Except ε α} {f : α → Prog Op Resp ε β} {tr : List (Op × Resp)}
    {b : β} :
    Runs ((liftM x : Prog Op Resp ε α) >>= f) tr (.ok b) ↔ ∃ a, x = .ok a ∧ Runs (f a) tr (.ok b) := by
  rw [show (liftM x : Prog Op Resp ε α) = ofExcept x from rfl]
  cases x with
  | error e => simp
  | ok a => simp

/-- A computation that issues nothing and succeeds can be skipped. -/
theorem runs_lift_bind_of_ok {x : Except ε α} {a : α} (hx : x = .ok a) {f : α → Prog Op Resp ε β}
    {tr : List (Op × Resp)} {out : Except ε β} :
    Runs ((liftM x : Prog Op Resp ε α) >>= f) tr out ↔ Runs (f a) tr out := by
  rw [hx]
  rfl

/-- What is exchanged determines how the run ends. -/
theorem Runs.deterministic {p : Prog Op Resp ε α} {tr : List (Op × Resp)}
    {out out' : Except ε α} (h : Runs p tr out) (h' : Runs p tr out') : out = out' := by
  induction p generalizing tr with
  | pure a => rw [h.2, h'.2]
  | throw e => rw [h.2, h'.2]
  | ask op k ih =>
      obtain ⟨r, rest, rfl, hr⟩ := h
      obtain ⟨r', rest', heq, hr'⟩ := h'
      cases heq
      exact ih r hr hr'

/-- No run is a proper beginning of another. -/
theorem Runs.prefix_free {p : Prog Op Resp ε α} {tr tr' more more' : List (Op × Resp)}
    {out out' : Except ε α} (h : Runs p tr out) (h' : Runs p tr' out')
    (heq : tr ++ more = tr' ++ more') : tr = tr' := by
  induction p generalizing tr tr' with
  | pure a => rw [h.1, h'.1]
  | throw e => rw [h.1, h'.1]
  | ask op k ih =>
      obtain ⟨r, rest, rfl, hr⟩ := h
      obtain ⟨r', rest', rfl, hr'⟩ := h'
      rw [List.cons_append, List.cons_append] at heq
      injection heq with hhead htail
      cases hhead
      rw [ih r hr hr' htail]

/-- Feed a list of replies to `p`; `none` when they run out or are left over. -/
def feed : Prog Op Resp ε α → List Resp → Option (List (Op × Resp) × Except ε α)
  | pure a, [] => some ([], .ok a)
  | throw e, [] => some ([], .error e)
  | ask op k, r :: rs => (feed (k r) rs).map fun x => ((op, r) :: x.1, x.2)
  | _, _ => none

theorem runs_of_feed {p : Prog Op Resp ε α} (rs : List Resp) {tr : List (Op × Resp)}
    {out : Except ε α} (h : feed p rs = some (tr, out)) : Runs p tr out := by
  induction p generalizing rs tr with
  | pure a => cases rs <;> simp_all [feed]
  | throw e => cases rs <;> simp_all [feed]
  | ask op k ih =>
      rcases rs with _ | ⟨r, rs⟩
      · simp [feed] at h
      · simp only [feed, Option.map_eq_some_iff, Prod.mk.injEq, Prod.exists] at h
        obtain ⟨tr', out', hf, rfl, rfl⟩ := h
        exact ⟨r, tr', rfl, ih r _ hf⟩

/-! ### Every behaviour of the outside has its run -/

/-- The replies of a trace are those `answer` gives, each after what was exchanged before it. -/
def Answered (answer : List (Op × Resp) → Op → Resp) :
    List (Op × Resp) → List (Op × Resp) → Prop
  | _, [] => True
  | past, (op, r) :: rest => r = answer past op ∧ Answered answer (past ++ [(op, r)]) rest

/-- A program ends whatever it is answered. -/
theorem exists_run (answer : List (Op × Resp) → Op → Resp) (p : Prog Op Resp ε α) :
    ∀ past, ∃ tr out, Runs p tr out ∧ Answered answer past tr := by
  induction p with
  | pure a => exact fun past => ⟨[], .ok a, ⟨rfl, rfl⟩, trivial⟩
  | throw e => exact fun past => ⟨[], .error e, ⟨rfl, rfl⟩, trivial⟩
  | ask op k ih =>
      intro past
      obtain ⟨tr, out, hruns, htr⟩ := ih (answer past op) (past ++ [(op, answer past op)])
      exact ⟨(op, answer past op) :: tr, out, ⟨_, tr, rfl, hruns⟩, rfl, htr⟩

/-! ### What a program may ask -/

/-- Whatever the outside answers, `p` issues only operations that `P` holds of. -/
def Asks (P : Op → Prop) (p : Prog Op Resp ε α) : Prop :=
  ∀ tr out, Runs p tr out → ∀ x ∈ tr, P x.1

theorem asks_pure {P : Op → Prop} (a : α) : Asks P (pure a : Prog Op Resp ε α) := by
  intro tr out h x hx
  rw [h.1] at hx
  cases hx

theorem asks_throw {P : Op → Prop} (e : ε) : Asks P (throw e : Prog Op Resp ε α) := by
  intro tr out h x hx
  rw [h.1] at hx
  cases hx

theorem asks_ofExcept {P : Op → Prop} (x : Except ε α) :
    Asks P (ofExcept x : Prog Op Resp ε α) := by
  cases x with
  | ok a => exact asks_pure a
  | error e => exact asks_throw e

theorem asks_ask {P : Op → Prop} {op : Op} {k : Resp → Prog Op Resp ε α} (hop : P op)
    (hk : ∀ r, Asks P (k r)) : Asks P (ask op k) := by
  intro tr out h x hx
  obtain ⟨r, rest, rfl, h⟩ := h
  rcases List.mem_cons.mp hx with rfl | hx
  · exact hop
  · exact hk r rest out h x hx

theorem asks_bind {P : Op → Prop} {p : Prog Op Resp ε α} {f : α → Prog Op Resp ε β}
    (hp : Asks P p) (hf : ∀ a, Asks P (f a)) : Asks P (p >>= f) := by
  intro tr out h x hx
  rcases runs_bind.mp h with ⟨e, h, -⟩ | ⟨tr₁, tr₂, a, rfl, h₁, h₂⟩
  · exact hp tr _ h x hx
  · rcases List.mem_append.mp hx with hx | hx
    · exact hp tr₁ _ h₁ x hx
    · exact hf a tr₂ out h₂ x hx

/-- What follows a computation that issues nothing. -/
theorem asks_lift_bind {P : Op → Prop} (x : Except ε α) {f : α → Prog Op Resp ε β}
    (hf : ∀ a, Asks P (f a)) : Asks P ((liftM x : Prog Op Resp ε α) >>= f) :=
  asks_bind (asks_ofExcept x) hf

theorem Asks.op {P : Op → Prop} {op : Op} {k : Resp → Prog Op Resp ε α} (h : Asks P (ask op k))
    (r : Resp) : P op := by
  obtain ⟨tr, out, hr, -⟩ := exists_run (fun _ _ => r) (k r) []
  exact h _ out ⟨r, tr, rfl, hr⟩ (op, r) List.mem_cons_self

theorem Asks.reply {P : Op → Prop} {op : Op} {k : Resp → Prog Op Resp ε α} (h : Asks P (ask op k))
    (r : Resp) : Asks P (k r) :=
  fun tr out hr x hx => h ((op, r) :: tr) out ⟨r, tr, rfl, hr⟩ x (List.mem_cons_of_mem _ hx)

/-! ### Programs that do the same -/

/-- `p` and `q` issue the same operations and end in ways that `R` relates. -/
def Agrees (R : α → β → Prop) : Prog Op Resp ε α → Prog Op Resp ε β → Prop
  | pure a, pure b => R a b
  | throw e, throw e' => e = e'
  | ask op k, ask op' k' => op = op' ∧ ∀ r, Agrees R (k r) (k' r)
  | _, _ => False

/-- Two ends that `R` relates. -/
def SameEnd (R : α → β → Prop) : Except ε α → Except ε β → Prop
  | .ok a, .ok b => R a b
  | .error e, .error e' => e = e'
  | _, _ => False

theorem SameEnd.symm {R : α → β → Prop} {out : Except ε β} {out' : Except ε α}
    (h : SameEnd (fun b a => R a b) out out') : SameEnd R out' out := by
  cases out <;> cases out' <;> first | exact h | exact Eq.symm h

theorem agrees_refl {R : α → α → Prop} (hR : ∀ a, R a a) (p : Prog Op Resp ε α) : Agrees R p p := by
  induction p with
  | pure a => exact hR a
  | throw e => rfl
  | ask op k ih => exact ⟨rfl, ih⟩

theorem Agrees.symm {R : α → β → Prop} {p : Prog Op Resp ε α} {q : Prog Op Resp ε β}
    (h : Agrees R p q) : Agrees (fun b a => R a b) q p := by
  induction p generalizing q with
  | pure a => cases q <;> exact h
  | throw e => cases q <;> first | exact Eq.symm h | exact h.elim
  | ask op k ih =>
      cases q with
      | ask op' k' => exact ⟨h.1.symm, fun r => ih r (h.2 r)⟩
      | _ => exact h.elim

theorem agrees_bind {γ δ : Type} {R : α → β → Prop} {S : γ → δ → Prop} {p : Prog Op Resp ε α}
    {q : Prog Op Resp ε β} {f : α → Prog Op Resp ε γ} {g : β → Prog Op Resp ε δ}
    (h : Agrees R p q) (hfg : ∀ a b, R a b → Agrees S (f a) (g b)) :
    Agrees S (p >>= f) (q >>= g) := by
  induction p generalizing q with
  | pure a =>
      cases q with
      | pure b => exact hfg a b h
      | _ => exact h.elim
  | throw e => cases q <;> first | exact h | exact h.elim
  | ask op k ih =>
      cases q with
      | ask op' k' => exact ⟨h.1, fun r => ih r (h.2 r)⟩
      | _ => exact h.elim

/-- The same first part. -/
theorem agrees_bind_left {γ δ : Type} {S : γ → δ → Prop} (p : Prog Op Resp ε α)
    {f : α → Prog Op Resp ε γ} {g : α → Prog Op Resp ε δ} (hfg : ∀ a, Agrees S (f a) (g a)) :
    Agrees S (p >>= f) (p >>= g) := by
  refine agrees_bind (agrees_refl (fun _ => rfl) p) fun a b hab => ?_
  rw [← hab]
  exact hfg a

/-- A run of one is a run of the other. -/
theorem Agrees.runs {R : α → β → Prop} {p : Prog Op Resp ε α} {q : Prog Op Resp ε β}
    (h : Agrees R p q) {tr : List (Op × Resp)} {out : Except ε α} (hp : Runs p tr out) :
    ∃ out', Runs q tr out' ∧ SameEnd R out out' := by
  induction p generalizing q tr with
  | pure a =>
      obtain ⟨rfl, rfl⟩ := hp
      cases q with
      | pure b => exact ⟨.ok b, ⟨rfl, rfl⟩, h⟩
      | _ => exact h.elim
  | throw e =>
      obtain ⟨rfl, rfl⟩ := hp
      cases q with
      | throw e' => exact ⟨.error e', ⟨rfl, rfl⟩, h⟩
      | _ => exact h.elim
  | ask op k ih =>
      obtain ⟨r, rest, rfl, hp⟩ := hp
      cases q with
      | ask op' k' =>
          obtain ⟨rfl, hk⟩ := h
          obtain ⟨out', hq, hsame⟩ := ih r (hk r) hp
          exact ⟨out', ⟨r, rest, rfl, hq⟩, hsame⟩
      | _ => exact h.elim

end Prog

end Interaction
