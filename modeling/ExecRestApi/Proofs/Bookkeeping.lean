/-
The books of the subscription manager: who is on which consumer list, which slots there
are, and what the gauges say.

The invariant of `Proofs/ManagerInvariant.lean` ties streams and consumer lists together.
What is added here is that no list in `_slots` runs empty, that the gauges are up to date,
and that a call stays with the key of its own arguments, which is the same for two calls
exactly if their arguments are equal as JSON values.

`Books` is kept by every step whose answers to `eth_subscribe` are strings (`Books.step`), and
`books_right` reads the invariant off at the end of a run: who is on which list, how many slots
there are, and what has been published about them.
-/
import ExecRestApi.Lib.JsonSort
import ExecRestApi.Proofs.ManagerInvariant

namespace ExecRestApi

open Py Transition

/-! ### The key of a call

The key holds the text of the arguments with the fields of every object sorted.  That the text
can be read back makes it one value up to the order of fields, and that a call keeps its key
follows from what each step does to the phases.
-/

/-- One text, one value up to the order of fields. -/
theorem canonicalize_eq_iff {params params' : Json} {text : String} (hp : params.WellShaped)
    (hp' : params'.WellShaped) (h : canonicalize params = .ok text) :
    canonicalize params' = .ok text ↔ params.Same params' := by
  have hdumps : ∀ {v : Json}, canonicalize v = .ok text ↔ v.sortKeys.dumps = some text.toList := by
    intro v
    rw [canonicalize]
    rcases v.sortKeys.dumps with _ | cs
    · constructor <;> intro h <;> cases h
    · constructor
      · intro h
        injection h with h
        rw [← h, String.toList_ofList]
      · intro h
        injection h with h
        show Except.ok (String.ofList cs) = _
        rw [h, String.ofList_toList]
  rw [hdumps]
  exact Json.dumps_sortKeys_iff hp hp' (hdumps.mp h)

namespace Manager

/-- The key a call works with. -/
def keyOf : Phase → Option SlotKey
  | .acquiring key _ => some key
  | .subscribing key _ => some key
  | .streaming key _ => some key
  | .removing key _ => some key
  | _ => none

/-- The call `k` was made, with these arguments. -/
def Called (m : Manager) (k : Nat) (kind : StreamKind) (params : Json) : Prop :=
  m.phase k ≠ .fresh ∧
    ∀ key, keyOf (m.phase k) = some key → key.1 = kind ∧ canonicalize params = .ok key.2

/-- From one phase to the next a call keeps its key or gives it up. -/
def KeepsKey (p p' : Phase) : Prop :=
  p' = p ∨ p ≠ .fresh ∧ p' ≠ .fresh ∧ (keyOf p' = none ∨ keyOf p' = keyOf p)

/-- A call at the lock has its key, unless it is only just being made. -/
theorem AtLock.keeps {m : Manager} {op : Op} {k : Nat} {rest : List Task} {p : Phase}
    (h : AtLock m op k rest p) (hp : lockStatus p = .waiting) :
    (∃ kind params, op = .subscribe k kind params)
      ∨ m.phase k ≠ .fresh ∧ keyOf (m.phase k) = keyOf p := by
  rcases h.2 with ⟨-, -, hk⟩ | ⟨-, -, happ⟩
  · refine .inr ⟨?_, by rw [hk]⟩
    intro hfresh
    rw [← hk, hfresh] at hp
    cases hp
  · cases happ with
    | subscribe _ _ => exact .inl ⟨_, _, rfl⟩
    | aclose hk =>
        refine .inr ⟨?_, by rw [hk]; rfl⟩
        rw [hk]
        nofun

/-- A step that is not the call itself keeps the key of a call. -/
theorem keepsKey_of_effect {connected : Bool} {m m' : Manager} {op : Op}
    (h : Effect connected m op m') (j : Nat) :
    (∃ kind params, op = .subscribe j kind params) ∨ KeepsKey (m.phase j) (m'.phase j) := by
  -- one call moves on, to a phase without a key or with the one it had
  have hmove : ∀ {k : Nat} {p : Phase}, m'.phase = Function.update m.phase k p → p ≠ .fresh →
      ((∃ kind params, op = .subscribe k kind params)
        ∨ m.phase k ≠ .fresh ∧ (keyOf p = none ∨ keyOf p = keyOf (m.phase k))) →
      (∃ kind params, op = .subscribe j kind params) ∨ KeepsKey (m.phase j) (m'.phase j) := by
    intro k p hphase hp hk
    rw [hphase]
    by_cases hj : j = k
    · rw [hj, Function.update_self]
      rcases hk with hk | hk
      · exact .inl hk
      · exact .inr (.inr ⟨hk.1, hp, hk.2⟩)
    · rw [Function.update_of_ne hj]
      exact .inr (.inl rfl)
  have hlocked : ∀ {k : Nat} {rest : List Task} {p p' : Phase}, AtLock m op k rest p →
      lockStatus p = .waiting → m'.phase = Function.update m.phase k p' → p' ≠ .fresh →
      keyOf p' = none ∨ keyOf p' = keyOf p →
      (∃ kind params, op = .subscribe j kind params) ∨ KeepsKey (m.phase j) (m'.phase j) := by
    intro k rest p p' hk hwait hphase hp' hkey
    refine hmove hphase hp' ?_
    rcases hk.keeps hwait with hcall | ⟨hfresh, hsame⟩
    · exact .inl hcall
    · rw [← hsame] at hkey
      exact .inr ⟨hfresh, hkey⟩
  cases h with
  | closedAgain => exact .inr (.inl rfl)
  | ignored => exact .inr (.inl rfl)
  | refused hk => exact hmove rfl nofun (.inl ⟨_, _, rfl⟩)
  | unsubscribed hk => exact hmove rfl nofun (.inr ⟨by rw [hk]; nofun, .inl rfl⟩)
  | waiting hk =>
      cases hk with
      | subscribe _ _ => exact hmove rfl nofun (.inl ⟨_, _, rfl⟩)
      | aclose hk => exact hmove rfl nofun (.inr ⟨by rw [hk]; nofun, .inr (by rw [hk]; rfl)⟩)
  | joined hk _ => exact hlocked hk rfl rfl nofun (.inr rfl)
  | asked hk _ _ => exact hlocked hk rfl rfl nofun (.inr rfl)
  | turnedAway hk => exact hlocked hk rfl rfl nofun (.inl rfl)
  | gone hk _ => exact hlocked hk rfl rfl nofun (.inl rfl)
  | left hk _ _ => exact hlocked hk rfl rfl nofun (.inl rfl)
  | ended hk _ _ hp =>
      rcases afterEnd_cases hp with hp | hp
      · exact hlocked hk rfl rfl (by rw [hp]; nofun) (.inl (by rw [hp]; rfl))
      · exact hlocked hk rfl rfl (by rw [hp]; nofun) (.inl (by rw [hp]; rfl))
  | created hk _ => exact hmove rfl nofun (.inr ⟨by rw [hk]; nofun, .inr (by rw [hk]; rfl)⟩)
  | createdUnhashable hk _ => exact hmove rfl nofun (.inr ⟨by rw [hk]; nofun, .inl rfl⟩)
  | unanswered hk => exact hmove rfl nofun (.inr ⟨by rw [hk]; nofun, .inl rfl⟩)
  | reconnectWaiting _ => exact .inr (.inl rfl)
  | reconnectStarted _ => exact .inr (.inl rfl)
  | notRenewed _ => exact .inr (.inl rfl)
  | renewed _ _ => exact .inr (.inl rfl)
  | renewedUnhashable _ _ => exact .inr (.inl rfl)
  | dispatched _ _ => exact .inr (.inl rfl)
  | read _ _ => exact .inr (.inl rfl)

/-- The step that is the call gives it the key of its arguments. -/
theorem called_of_subscribe {connected : Bool} {m m' : Manager} {k : Nat} {kind : StreamKind}
    {params : Json} (h : Effect connected m (.subscribe k kind params) m') :
    Called m' k kind params := by
  have hset : ∀ {p : Phase}, m'.phase = Function.update m.phase k p → p ≠ .fresh →
      (∀ key, keyOf p = some key → key.1 = kind ∧ canonicalize params = .ok key.2) →
      Called m' k kind params := by
    intro p hphase hp hkey
    rw [Called, hphase, Function.update_self]
    exact ⟨hp, hkey⟩
  have hlocked : ∀ {j : Nat} {rest : List Task} {p : Phase},
      AtLock m (.subscribe k kind params) j rest p →
      j = k ∧ ∃ text, p = .acquiring (kind, text) params ∧ canonicalize params = .ok text := by
    intro j rest p hat
    rcases hat.2 with ⟨hop, -, -⟩ | ⟨-, -, happ⟩
    · cases hop
    · cases happ with
      | subscribe _ htext => exact ⟨rfl, _, rfl, htext⟩
  cases h with
  | refused hk => exact hset rfl nofun nofun
  | waiting hk =>
      cases hk with
      | subscribe _ htext =>
          refine hset rfl nofun ?_
          intro key hkey
          cases hkey
          exact ⟨rfl, htext⟩
  | joined hk _ =>
      obtain ⟨rfl, text, hp, htext⟩ := hlocked hk
      cases hp
      refine hset rfl nofun ?_
      intro key hkey
      cases hkey
      exact ⟨rfl, htext⟩
  | asked hk _ _ =>
      obtain ⟨rfl, text, hp, htext⟩ := hlocked hk
      cases hp
      refine hset rfl nofun ?_
      intro key hkey
      cases hkey
      exact ⟨rfl, htext⟩
  | turnedAway hk =>
      obtain ⟨rfl, -⟩ := hlocked hk
      exact hset rfl nofun nofun
  | gone hk _ =>
      obtain ⟨-, text, hp, -⟩ := hlocked hk
      cases hp
  | left hk _ _ =>
      obtain ⟨-, text, hp, -⟩ := hlocked hk
      cases hp
  | ended hk _ _ _ =>
      obtain ⟨-, text, hp, -⟩ := hlocked hk
      cases hp
  | reconnectStarted hturn => rcases hturn.2 with ⟨hop, -⟩ | ⟨hop, -⟩ <;> cases hop

theorem Called.keep {m m' : Manager} {k : Nat} {kind : StreamKind} {params : Json}
    (h : Called m k kind params) (hkeep : KeepsKey (m.phase k) (m'.phase k)) :
    Called m' k kind params := by
  rcases hkeep with hsame | ⟨-, hfresh, hkey⟩
  · rw [Called, hsame]
    exact h
  · refine ⟨hfresh, ?_⟩
    intro key hk
    rcases hkey with hnone | hsame
    · rw [hnone] at hk
      cases hk
    · rw [hsame] at hk
      exact h.2 key hk

/-! ### The books

Three things happen to a slot: a consumer is put on its list or taken off it, its last consumer
goes and it is taken out, or it is made for its first one.  There is one lemma for each, and a
frame lemma for the steps that touch none of it.
-/

/-- A successful `eth_subscribe` returned a string. -/
def StringAnswers (m : Manager) : Bool × Op → Prop
  | (_, .answer t (.ok v)) =>
      ∀ kind params, m.awaits t = some (subscribeCall kind params) → ∃ id, v = .str id
  | _ => True

/-- What the slots and the gauges satisfy beyond `WellFormed`. -/
structure Books (m : Manager) : Prop where
  wellFormed : m.WellFormed
  occupied : m.Occupied
  named : ∀ key r, m.slots.get? key = some r → ∃ id, (m.slot r).subscriptionId = .str id
  unlisted : ∀ k e, m.phase k = .failed e → ∀ r, k ∉ (m.slot r).consumers
  gauge : ∀ kind v, m.gauge kind = some v → v = countKind m.slots m.slot kind

theorem countKind_congr {slots : Dict SlotKey SlotRef} {slot slot' : SlotRef → Slot}
    (h : ∀ r, (slot' r).kind = (slot r).kind) (kind : StreamKind) :
    countKind slots slot' kind = countKind slots slot kind := by
  rw [countKind, countKind]
  congr 1
  funext r
  rw [h r]

/-- Other fields of a slot leave the kinds alone. -/
theorem kind_update (slot : SlotRef → Slot) {r : SlotRef} {s : Slot} (hs : s.kind = (slot r).kind)
    (q : SlotRef) : (Function.update slot r s q).kind = (slot q).kind := by
  by_cases hq : q = r
  · rw [hq, Function.update_self, hs]
  · rw [Function.update_of_ne hq]

/-- A step that leaves `_slots`, the ids and the gauges alone. -/
theorem Books.frame {m m' : Manager} (h : m.Books) (hwf : m'.WellFormed) (hocc : m'.Occupied)
    (hslots : m'.slots = m.slots)
    (hid : ∀ key r, m.slots.get? key = some r → (m'.slot r).subscriptionId = (m.slot r).subscriptionId
      ∨ ∃ id, (m'.slot r).subscriptionId = .str id)
    (hkind : ∀ r, (m'.slot r).kind = (m.slot r).kind) (hgauge : m'.gauge = m.gauge)
    (hfail : ∀ k e, m'.phase k = .failed e → ∀ r, k ∉ (m'.slot r).consumers) : m'.Books := by
  refine ⟨hwf, hocc, ?_, hfail, ?_⟩
  · intro key r hr
    rw [hslots] at hr
    rcases hid key r hr with hsame | hnew
    · rw [hsame]
      exact h.named key r hr
    · exact hnew
  · intro kind v hv
    rw [hgauge] at hv
    rw [hslots, countKind_congr hkind]
    exact h.gauge kind v hv

/-- A call that fails was on no list. -/
theorem Books.unlisted_update {m : Manager} (h : m.Books) {k : Nat} {p : Phase}
    (hk : homeOf (m.phase k) = none) :
    ∀ j e, Function.update m.phase k p j = .failed e → ∀ r, j ∉ (m.slot r).consumers := by
  intro j e hj r
  by_cases hjk : j = k
  · rw [hjk]
    by_cases hfail : ∃ e, m.phase k = .failed e
    · obtain ⟨e', he'⟩ := hfail
      exact h.unlisted k e' he' r
    · apply h.wellFormed.members.not_mem hk
      intro e' he'
      exact hfail ⟨e', he'⟩
  · rw [Function.update_of_ne hjk] at hj
    exact h.unlisted j e hj r

/-- A call that does not fail. -/
theorem Books.unlisted_of_ne {m : Manager} (h : m.Books) {k : Nat} {p : Phase}
    (hp : ∀ e, p ≠ .failed e) {slot : SlotRef → Slot}
    (hslot : ∀ r, ∀ j ∈ (slot r).consumers, j = k ∨ j ∈ (m.slot r).consumers) :
    ∀ j e, Function.update m.phase k p j = .failed e → ∀ r, j ∉ (slot r).consumers := by
  intro j e hj r hmem
  by_cases hjk : j = k
  · rw [hjk, Function.update_self] at hj
    exact hp e hj
  · rw [Function.update_of_ne hjk] at hj
    rcases hslot r j hmem with heq | hin
    · exact hjk heq
    · exact h.unlisted j e hj r hin

/-- One slot has another list of consumers. -/
theorem Books.list {m m' : Manager} (h : m.Books) (hwf : m'.WellFormed) (hocc : m'.Occupied) {k : Nat} {p : Phase}
    (hslots : m'.slots = m.slots) (r : SlotRef) (ks : List Nat)
    (hslot : m'.slot = Function.update m.slot r { m.slot r with consumers := ks })
    (hgauge : m'.gauge = m.gauge)
    (hp : ∀ e, p ≠ .failed e) (hphase : m'.phase = Function.update m.phase k p)
    (hks : ∀ j ∈ ks, j = k ∨ j ∈ (m.slot r).consumers) : m'.Books := by
  refine h.frame hwf hocc hslots ?_ ?_ hgauge ?_
  · intro key q _
    rw [hslot]
    by_cases hqr : q = r
    · rw [hqr, Function.update_self]
      exact .inl rfl
    · rw [Function.update_of_ne hqr]
      exact .inl rfl
  · rw [hslot]
    exact kind_update m.slot rfl
  · rw [hphase]
    refine h.unlisted_of_ne hp ?_
    intro q j hj
    rw [hslot] at hj
    by_cases hqr : q = r
    · rw [hqr, Function.update_self] at hj
      rw [hqr]
      exact hks j hj
    · rw [Function.update_of_ne hqr] at hj
      exact .inr hj

/-- A slot that lost its last consumer is taken out. -/
theorem Books.end {m m' : Manager} (h : m.Books) (hwf : m'.WellFormed) (hocc : m'.Occupied)
    {k : Nat} {key : SlotKey} {r : SlotRef} {p : Phase} (hk : homeOf (m.phase k) = some (key, r))
    (hp : ∀ e, p ≠ .failed e)
    (hphase : m'.phase = Function.update m.phase k p) (hslots : m'.slots = m.slots.erase key)
    (hslot : m'.slot = Function.update m.slot r { m.slot r with consumers := [] })
    (hgauge : m'.gauge = gaugeAfterEnd m key r) : m'.Books := by
  obtain ⟨hkey, -⟩ := h.wellFormed.members.home k key r hk
  have hother : ∀ key' q, m'.slots.get? key' = some q →
      m.slots.get? key' = some q ∧ m'.slot q = m.slot q := by
    intro key' q hq
    rw [hslots] at hq
    obtain ⟨hne, hq⟩ := Dict.get?_erase_eq_some.mp hq
    refine ⟨hq, ?_⟩
    rw [hslot, Function.update_of_ne]
    intro hqr
    rw [hqr] at hq
    exact hne (h.wellFormed.members.inj key key' r hkey hq)
  have hkind : ∀ q, (m'.slot q).kind = (m.slot q).kind := by
    rw [hslot]
    exact kind_update m.slot rfl
  refine ⟨hwf, hocc, ?_, ?_, ?_⟩
  · intro key' q hq
    obtain ⟨hold, hsame⟩ := hother key' q hq
    rw [hsame]
    exact h.named key' q hold
  · rw [hphase]
    refine h.unlisted_of_ne hp ?_
    intro q j hj
    rw [hslot] at hj
    by_cases hq : q = r
    · rw [hq, Function.update_self] at hj
      cases hj
    · rw [Function.update_of_ne hq] at hj
      exact .inr hj
  · intro kind v hv
    obtain ⟨id, hid⟩ := h.named key r hkey
    rw [hgauge, gaugeAfterEnd, if_pos (by rw [hid]; rfl)] at hv
    by_cases hkr : kind = (m.slot r).kind
    · rw [hkr, Function.update_self] at hv
      injection hv with hv
      rw [← hv, hslots, hslot, hkr]
    · rw [Function.update_of_ne hkr] at hv
      rw [h.gauge kind v hv, countKind_congr hkind, hslots, countKind, countKind]
      refine (Dict.countP_values_erase hkey ?_).symm
      rw [decide_eq_false_iff_not]
      exact fun heq => hkr heq.symm

/-- A new slot with one consumer. -/
theorem Books.create {m m' : Manager} (h : m.Books) (hwf : m'.WellFormed) (hocc : m'.Occupied)
    {k : Nat} {key : SlotKey} {params : Json} {id : String} (hk : m.phase k = .subscribing key params)
    (hphase : m'.phase = Function.update m.phase k (.streaming key m.nextSlot))
    (hslots : m'.slots = m.slots.set key m.nextSlot)
    (hslot : m'.slot = Function.update m.slot m.nextSlot ⟨key.1, params, .str id, [k]⟩)
    (hgauge : m'.gauge = gaugeAfterStart m key ⟨key.1, params, .str id, [k]⟩) : m'.Books := by
  have hkey := h.wellFormed.progress.subscribing k key params hk
  have hother : ∀ key' q, m'.slots.get? key' = some q →
      q = m.nextSlot ∨ m.slots.get? key' = some q ∧ m'.slot q = m.slot q := by
    intro key' q hq
    rw [hslots, Dict.get?_set] at hq
    split at hq
    · injection hq with hq
      exact .inl hq.symm
    · refine .inr ⟨hq, ?_⟩
      have hne : q ≠ m.nextSlot := Nat.ne_of_lt (h.wellFormed.members.exist key' q hq)
      rw [hslot, Function.update_of_ne hne]
  have hnew : m'.slot m.nextSlot = ⟨key.1, params, .str id, [k]⟩ := by
    rw [hslot, Function.update_self]
  refine ⟨hwf, hocc, ?_, ?_, ?_⟩
  · intro key' q hq
    rcases hother key' q hq with heq | ⟨hold, hsame⟩
    · rw [heq, hnew]
      exact ⟨id, rfl⟩
    · rw [hsame]
      exact h.named key' q hold
  · rw [hphase]
    refine h.unlisted_of_ne (by intro e he; cases he) ?_
    intro q j hj
    by_cases hq : q = m.nextSlot
    · rw [hq, hnew] at hj
      exact .inl (List.mem_singleton.mp hj)
    · rw [hslot, Function.update_of_ne hq] at hj
      exact .inr hj
  · intro kind v hv
    rw [hgauge, gaugeAfterStart] at hv
    by_cases hkind : kind = key.1
    · rw [hkind, Function.update_self] at hv
      injection hv with hv
      rw [← hv, hslots, hslot, hkind]
    · rw [Function.update_of_ne hkind] at hv
      have hcount : (m.slots.values.countP fun q => decide ((m'.slot q).kind = kind))
          = m.slots.values.countP fun q => decide ((m.slot q).kind = kind) := by
        apply List.countP_congr
        intro q hq
        obtain ⟨key', hq⟩ := Dict.mem_values.mp hq
        have hne : q ≠ m.nextSlot := Nat.ne_of_lt (h.wellFormed.members.exist key' q hq)
        rw [hslot, Function.update_of_ne hne]
      have hzero : ([m.nextSlot].countP fun q => decide ((m'.slot q).kind = kind)) = 0 := by
        rw [List.countP_cons, List.countP_nil, hnew, if_neg]
        rw [decide_eq_true_eq]
        exact fun heq => hkind heq.symm
      rw [h.gauge kind v hv, countKind, countKind, hslots, Dict.values_set _ hkey,
        List.countP_append, hcount, hzero, Nat.add_zero]

/-- **Every step with string answers keeps the books.** -/
theorem Books.step {m m' : Manager} {e : Bool × Op} (h : m.Books) (hok : StringAnswers m e)
    (hs : m.step e = some m') : m'.Books := by
  have hwf := h.wellFormed.step hs
  have hocc := h.occupied.step h.wellFormed hs
  obtain ⟨connected, op⟩ := e
  cases effect_of_step h.wellFormed.locks hs with
  | closedAgain => exact h
  | ignored => exact h
  | refused hk =>
      exact h.frame hwf hocc rfl (fun _ _ _ => .inl rfl) (fun _ => rfl) rfl
        (h.unlisted_update (by rw [hk]; rfl))
  | unsubscribed hk =>
      exact h.frame hwf hocc rfl (fun _ _ _ => .inl rfl) (fun _ => rfl) rfl
        (h.unlisted_of_ne (by intro e he; cases he) fun r j hj => .inr hj)
  | waiting hk =>
      refine h.frame hwf hocc rfl (fun _ _ _ => .inl rfl) (fun _ => rfl) rfl
        (h.unlisted_of_ne ?_ fun r j hj => .inr hj)
      cases hk <;> exact fun _ => nofun
  | @joined _ k key params r rest hk hr =>
      refine h.list hwf hocc rfl r ((m.slot r).consumers ++ [k]) rfl rfl (by intro e he; cases he)
        rfl ?_
      intro j hj
      rcases List.mem_append.mp hj with hj | hj
      · exact .inr hj
      · exact .inl (List.mem_singleton.mp hj)
  | asked hk hr hc =>
      exact h.frame hwf hocc rfl (fun _ _ _ => .inl rfl) (fun _ => rfl) rfl
        (h.unlisted_of_ne (by intro e he; cases he) fun r j hj => .inr hj)
  | turnedAway hk =>
      exact h.frame hwf hocc rfl (fun _ _ _ => .inl rfl) (fun _ => rfl) rfl
        (h.unlisted_update (hk.before rfl).2.1)
  | gone hk hmem =>
      exact h.frame hwf hocc rfl (fun _ _ _ => .inl rfl) (fun _ => rfl) rfl
        (h.unlisted_of_ne (by intro e he; cases he) fun r j hj => .inr hj)
  | @left _ k key r rest hk hmem hne =>
      refine h.list hwf hocc rfl r ((m.slot r).consumers.erase k) rfl rfl
        (by intro e he; cases he) rfl ?_
      intro j hj
      exact .inr (List.mem_of_mem_erase hj)
  | @ended _ k key r rest p hk hmem hnil hp =>
      refine h.end hwf hocc (hk.before rfl).2.1 ?_ rfl rfl rfl rfl
      rcases afterEnd_cases hp with hp | hp <;> rw [hp] <;> exact fun _ => nofun
  | @created k key params subId hk hsub =>
      obtain ⟨id, hid⟩ := hok key.1 params (awaits_subscribing hk)
      rw [hid] at hwf hocc ⊢
      exact h.create hwf hocc hk rfl rfl rfl rfl
  | @createdUnhashable k key params subId hk hsub =>
      obtain ⟨id, hid⟩ := hok key.1 params (awaits_subscribing hk)
      rw [hid] at hsub
      cases hsub
  | unanswered hk =>
      exact h.frame hwf hocc rfl (fun _ _ _ => .inl rfl) (fun _ => rfl) rfl
        (h.unlisted_update (by rw [hk]; rfl))
  | reconnectWaiting _ =>
      exact h.frame hwf hocc rfl (fun _ _ _ => .inl rfl) (fun _ => rfl) rfl h.unlisted
  | reconnectStarted _ =>
      exact h.frame hwf hocc rfl (fun _ _ _ => .inl rfl) (fun _ => rfl) rfl h.unlisted
  | notRenewed _ =>
      exact h.frame hwf hocc rfl (fun _ _ _ => .inl rfl) (fun _ => rfl) rfl h.unlisted
  | @renewed r rest newId hrc hid =>
      obtain ⟨id, hnew⟩ := hok (m.slot r).kind (m.slot r).params (awaits_resubscribing hrc)
      refine h.frame hwf hocc rfl ?_ (kind_update m.slot rfl) rfl ?_
      · intro key q hq
        show (Function.update m.slot r { m.slot r with subscriptionId := newId } q).subscriptionId
          = (m.slot q).subscriptionId ∨ ∃ id, (Function.update m.slot r
            { m.slot r with subscriptionId := newId } q).subscriptionId = .str id
        by_cases hqr : q = r
        · rw [hqr, Function.update_self]
          exact .inr ⟨id, hnew⟩
        · rw [Function.update_of_ne hqr]
          exact .inl rfl
      · intro k e hk q
        show k ∉ (Function.update m.slot r { m.slot r with subscriptionId := newId } q).consumers
        rw [consumers_renew]
        exact h.unlisted k e hk q
  | @renewedUnhashable r rest newId hrc hid =>
      obtain ⟨id, hnew⟩ := hok (m.slot r).kind (m.slot r).params (awaits_resubscribing hrc)
      rw [hnew] at hid
      cases hid
  | dispatched _ _ =>
      exact h.frame hwf hocc rfl (fun _ _ _ => .inl rfl) (fun _ => rfl) rfl h.unlisted
  | read _ _ =>
      exact h.frame hwf hocc rfl (fun _ _ _ => .inl rfl) (fun _ => rfl) rfl h.unlisted

/-! ### Runs -/

theorem books_init : init.Books := by
  refine ⟨wellFormed_init, occupied_init, ?_, ?_, ?_⟩
  · intro key r hr
    cases hr
  · intro k e hk
    cases hk
  · intro kind v hv
    cases hv

theorem books_of_run {ls : List (Bool × Op)} {m m' : Manager}
    (h : Run Manager.step StringAnswers m ls m') (hm : m.Books) : m'.Books :=
  h.preserves (fun _ _ _ hb hok hs => hb.step hok hs) hm

/-- A call keeps the key of its arguments over a run. -/
theorem called_of_run {ls : List (Bool × Op)} {m m' : Manager} {k : Nat} {kind : StreamKind}
    {params : Json} (h : Run Manager.step StringAnswers m ls m') (hm : m.Books)
    (hcall : Called m k kind params) : Called m' k kind params := by
  induction h with
  | nil m => exact hcall
  | @cons m t u e ls hs hok _ ih =>
      obtain ⟨connected, op⟩ := e
      refine ih (hm.step hok hs) ?_
      have heff := effect_of_step hm.wellFormed.locks hs
      rcases keepsKey_of_effect heff k with ⟨kind', params', hop⟩ | hkeep
      · -- a second call with the number `k` is not enabled
        rw [hop, step] at hs
        split at hs
        · rename_i hfresh
          exact absurd hfresh hcall.1
        · cases hs
      · exact hcall.keep hkeep

/-- Every call in a run has the key of its arguments in the end. -/
theorem called_of_mem {ls : List (Bool × Op)} {m m' : Manager} {c : Bool} {k : Nat}
    {kind : StreamKind} {params : Json} (h : Run Manager.step StringAnswers m ls m') (hm : m.Books)
    (hmem : (c, Op.subscribe k kind params) ∈ ls) : Called m' k kind params := by
  obtain ⟨ls₁, ls₂, rfl⟩ := List.append_of_mem hmem
  obtain ⟨t, h₁, h₂⟩ := run_append.mp h
  have ht := books_of_run h₁ hm
  cases h₂ with
  | cons hs hok hrest =>
      have hcall := called_of_subscribe (effect_of_step ht.wellFormed.locks hs)
      exact called_of_run hrest (ht.step hok hs) hcall

/-- A call that is under way was made. -/
theorem exists_call {ls : List (Bool × Op)} {m m' : Manager} {k : Nat}
    (h : Run Manager.step StringAnswers m ls m') (hm : m.Books) (hk : m'.phase k ≠ .fresh) :
    m.phase k ≠ .fresh ∨ ∃ c kind params, (c, Op.subscribe k kind params) ∈ ls := by
  induction h with
  | nil m => exact .inl hk
  | @cons m t u e ls hs hok _ ih =>
      obtain ⟨connected, op⟩ := e
      rcases ih (hm.step hok hs) hk with ht | ⟨c, kind, params, hmem⟩
      · rcases keepsKey_of_effect (effect_of_step hm.wellFormed.locks hs) k with
          ⟨kind, params, hop⟩ | hsame | ⟨hfresh, -, -⟩
        · exact .inr ⟨connected, kind, params, by rw [hop]; exact List.mem_cons_self⟩
        · rw [hsame] at ht
          exact .inl ht
        · exact .inl hfresh
      · exact .inr ⟨c, kind, params, List.mem_cons_of_mem _ hmem⟩

/-- The slot an open stream belongs to, and the call that opened it. -/
theorem home_of_streaming {ls : List (Bool × Op)} {m : Manager} {k : Nat} {key : SlotKey}
    {r : SlotRef} (h : Run Manager.step StringAnswers init ls m) (hk : m.phase k = .streaming key r) :
    m.slots.get? key = some r ∧ (m.slot r).consumers.count k = 1
      ∧ (∀ q, k ∈ (m.slot q).consumers → q = r)
      ∧ ∃ c kind params, (c, Op.subscribe k kind params) ∈ ls
        ∧ key.1 = kind ∧ canonicalize params = .ok key.2 := by
  have hm := (books_of_run h books_init).wellFormed.members
  have hhome : homeOf (m.phase k) = some (key, r) := by
    rw [hk]
    rfl
  obtain ⟨hkey, hmem⟩ := hm.home k key r hhome
  refine ⟨hkey, List.count_eq_one_of_mem (hm.nodup r) hmem, ?_, ?_⟩
  · intro q hq
    rcases hm.member k q hq with ⟨key', hq'⟩ | ⟨e, he⟩
    · rw [hhome] at hq'
      cases hq'
      rfl
    · rw [hk] at he
      cases he
  · rcases exists_call h books_init (by rw [hk]; nofun) with hfresh | ⟨c, kind, params, hcall⟩
    · exact absurd rfl hfresh
    · have hcalled := called_of_mem h books_init hcall
      obtain ⟨hkind, htext⟩ := hcalled.2 key (by rw [hk]; rfl)
      exact ⟨c, kind, params, hcall, hkind, htext⟩

/-- Two open streams share a slot exactly if they were asked for the same thing. -/
theorem share_iff {ls : List (Bool × Op)} {m : Manager} {k k' : Nat} {key key' : SlotKey}
    {r r' : SlotRef} {c c' : Bool} {kind kind' : StreamKind} {params params' : Json}
    (h : Run Manager.step StringAnswers init ls m) (hk : m.phase k = .streaming key r)
    (hk' : m.phase k' = .streaming key' r') (hcall : (c, Op.subscribe k kind params) ∈ ls)
    (hcall' : (c', Op.subscribe k' kind' params') ∈ ls) (hp : params.WellShaped)
    (hp' : params'.WellShaped) : r = r' ↔ kind = kind' ∧ params.Same params' := by
  have hm := (books_of_run h books_init).wellFormed.members
  have hslot := (hm.home k key r (by rw [hk]; rfl)).1
  have hslot' := (hm.home k' key' r' (by rw [hk']; rfl)).1
  obtain ⟨hkind, htext⟩ := (called_of_mem h books_init hcall).2 key (by rw [hk]; rfl)
  obtain ⟨hkind', htext'⟩ := (called_of_mem h books_init hcall').2 key' (by rw [hk']; rfl)
  constructor
  · intro hr
    rw [hr] at hslot
    have hkeys := hm.inj key key' r' hslot hslot'
    refine ⟨by rw [← hkind, ← hkind', hkeys], ?_⟩
    rw [← hkeys] at htext'
    exact (canonicalize_eq_iff hp hp' htext).mp htext'
  · intro ⟨hkinds, hsame⟩
    have htext₂ := (canonicalize_eq_iff hp hp' htext).mpr hsame
    rw [htext'] at htext₂
    injection htext₂ with htext₂
    have hkeys : key = key' := Prod.ext (by rw [hkind, hkind', hkinds]) htext₂.symm
    rw [hkeys, hslot'] at hslot
    injection hslot with hslot
    exact hslot.symm

/-- Once no stream is in its slot any more, there is no slot. -/
theorem Books.slots_empty {m : Manager} (h : m.Books)
    (hclosed : ∀ k key r, m.phase k ≠ .streaming key r ∧ m.phase k ≠ .removing key r) :
    m.slots.entries = [] := by
  apply Dict.entries_eq_nil.mpr
  intro key
  rcases hr : m.slots.get? key with _ | r
  · rfl
  · obtain ⟨k, hk⟩ := List.exists_mem_of_ne_nil _ (h.occupied key r hr)
    rcases h.wellFormed.members.member k r hk with ⟨key', hhome⟩ | ⟨e, he⟩
    · rcases hp : m.phase k with _ | _ | _ | _ | ⟨key₀, r₀⟩ | ⟨key₀, r₀⟩ | _ | _
      case streaming => exact absurd hp (hclosed k key₀ r₀).1
      case removing => exact absurd hp (hclosed k key₀ r₀).2
      all_goals
        rw [hp] at hhome
        cases hhome
    · exact absurd hk (h.unlisted k e he r)

/-- **The books are right in every state a run can reach.**  An open stream is on exactly one
list, once, in the slot under the key of its arguments; a closed one is on none; no slot is
without a consumer; two streams share a slot exactly if kind and parameters are equal; the
gauges count the slots; and when all streams are closed there are no slots. -/
theorem books_right {ls : List (Bool × Op)} {m : Manager}
    (h : Run Manager.step StringAnswers init ls m) :
    (∀ k key r, m.phase k = .streaming key r →
      m.slots.get? key = some r ∧ (m.slot r).consumers.count k = 1
        ∧ (∀ q, k ∈ (m.slot q).consumers → q = r)
        ∧ ∃ c kind params, (c, Op.subscribe k kind params) ∈ ls
          ∧ key.1 = kind ∧ canonicalize params = .ok key.2)
      ∧ (∀ k, m.phase k = .closed → ∀ r, k ∉ (m.slot r).consumers)
      ∧ (∀ key r, m.slots.get? key = some r → (m.slot r).consumers ≠ [])
      ∧ (∀ k k' key key' r r' c c' kind kind' params params', m.phase k = .streaming key r →
          m.phase k' = .streaming key' r' → (c, Op.subscribe k kind params) ∈ ls →
          (c', Op.subscribe k' kind' params') ∈ ls → params.WellShaped → params'.WellShaped →
          (r = r' ↔ kind = kind' ∧ params.Same params'))
      ∧ (∀ kind v, m.gauge kind = some v → v = countKind m.slots m.slot kind)
      ∧ ((∀ k key r, m.phase k ≠ .streaming key r ∧ m.phase k ≠ .removing key r) →
          m.slots.entries = []) := by
  have hm := books_of_run h books_init
  refine ⟨?_, ?_, hm.occupied, ?_, hm.gauge, hm.slots_empty⟩
  · intro k key r hk
    exact home_of_streaming h hk
  · intro k hk r
    apply hm.wellFormed.members.not_mem (by rw [hk]; rfl)
    rw [hk]
    nofun
  · intro k k' key key' r r' c c' kind kind' params params' hk hk' hcall hcall' hp hp'
    exact share_iff h hk hk' hcall hcall' hp hp'

/-- One filter, with its fields in two orders. -/
def filterAB : Json := .obj [("address", .str "0xa"), ("topics", .arr [])]

def filterBA : Json := .obj [("topics", .arr []), ("address", .str "0xa")]

/-- Both ask for it; the second joins the slot of the first. -/
def askTwice : List (Bool × Op) :=
  [(true, .subscribe 0 .logs filterAB), (true, .answer (.consumer 0) (.ok (.str "0x1"))),
    (true, .subscribe 1 .logs filterBA)]

theorem books_right_shared : filterAB.Same filterBA
    ∧ ((exec Manager.step init askTwice).getD init).gauge .logs = some 1
    ∧ countKind ((exec Manager.step init askTwice).getD init).slots
      ((exec Manager.step init askTwice).getD init).slot .logs = 1 := by
  have hrun : Run Manager.step StringAnswers init askTwice
      ((exec Manager.step init askTwice).getD init) :=
    .cons rfl trivial (.cons rfl (fun _ _ _ => ⟨_, rfl⟩) (.cons rfl trivial (.nil _)))
  obtain ⟨-, -, -, hshare, hgauge, -⟩ := books_right hrun
  have hshaped : ∀ fields : List (String × Json), (fields.map Prod.fst).Nodup →
      (∀ p ∈ fields, p.2 = .str "0xa" ∨ p.2 = .arr []) → (Json.obj fields).WellShaped := by
    intro fields hkeys hvalues
    refine .obj hkeys ?_
    intro p hp
    rcases hvalues p hp with h | h
    · rw [h]
      exact .str
    · rw [h]
      exact .arr nofun
  refine ⟨?_, rfl, (hgauge .logs 1 rfl).symm⟩
  refine ((hshare 0 1 _ _ 0 0 true true .logs .logs filterAB filterBA rfl rfl ?_ ?_ ?_ ?_).mp rfl).2
  · exact List.mem_cons_self
  · exact List.mem_cons_of_mem _ (List.mem_cons_of_mem _ List.mem_cons_self)
  · exact hshaped _ (by decide) (by decide)
  · exact hshaped _ (by decide) (by decide)

end Manager

end ExecRestApi
