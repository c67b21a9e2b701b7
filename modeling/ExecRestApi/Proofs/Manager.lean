/-
What one step of the subscription manager can do.

`Effect` lists the outcomes of a step, each with the state it leads to and with what
was true when it was taken; `effect_of_step` is the only place that looks into the
operations.  Every invariant of the manager is proved by cases on it.

The operations are long because each goes through several branches under the lock, and a branch
may hand the lock on, which starts the next task in the same step.  `Effect` has these put
together: a constructor is one thing that can have happened, from the lock being taken to its
being given on.
-/
import ExecRestApi.Lib.Mutex
import ExecRestApi.Lib.Transition
import ExecRestApi.Model.Subscriptions

namespace ExecRestApi

open Py

namespace Manager

/-! ### Frames

A step changes phases and slots one at a time.
-/

@[simp] theorem setPhase_phase (m : Manager) (k : Nat) (p : Phase) :
    (m.setPhase k p).phase = Function.update m.phase k p := rfl

@[simp] theorem setSlot_phase (m : Manager) (r : SlotRef) (s : Slot) :
    (m.setSlot r s).phase = m.phase := rfl

@[simp] theorem setPhase_slot (m : Manager) (k : Nat) (p : Phase) :
    (m.setPhase k p).slot = m.slot := rfl

@[simp] theorem setSlot_slot (m : Manager) (r : SlotRef) (s : Slot) :
    (m.setSlot r s).slot = Function.update m.slot r s := rfl

/-! ### The loop of on_reconnect

The loop goes from slot to slot and stops at the first request it can make.  What it does on
its way, to slots whose request is refused at once, is part of the same step.
-/

/-- The slots whose request fails within the segment: all that are left, on a closed socket. -/
def refusedAtOnce (connected : Bool) (rs : List SlotRef) : List SlotRef :=
  if connected then [] else rs

/-- Where the loop over the slots `rs` stops. -/
def stopsAt : Bool → List SlotRef → Reconnecting
  | true, r :: rest => .resubscribing r rest
  | _, _ => .idle

/-- Who holds the lock when the loop over the slots `rs` stops. -/
def heldBy : Bool → List SlotRef → Option Task
  | true, _ :: _ => some .reconnect
  | _, _ => none

/-- The queues once the consumers of the slots `rs` have been told of the gap. -/
def gapped (slot : SlotRef → Slot) (queue : Nat → List StreamEvent) :
    List SlotRef → Nat → List StreamEvent
  | [] => queue
  | r :: rs => gapped slot (enqueueAll queue .gap (slot r).consumers) rs

theorem resubscribe_eq {connected : Bool} {m : Manager} (rs : List SlotRef)
    (hlock : m.lock = some .reconnect) :
    resubscribe connected m rs = { m with
      queue := gapped m.slot m.queue (refusedAtOnce connected rs)
      reconnecting := stopsAt connected rs
      lock := heldBy connected rs } := by
  induction rs generalizing m with
  | nil => cases connected <;> rfl
  | cons r rest ih =>
      cases connected with
      | true =>
          show { m with reconnecting := Reconnecting.resubscribing r rest } = _
          rw [show heldBy true (r :: rest) = m.lock from hlock.symm]
          rfl
      | false =>
          have := ih (m := m.broadcast r .gap) hlock
          simp only [resubscribe, Bool.false_eq_true, if_false, this]
          cases rest <;> rfl

/-- What is put on the queues depends on the consumers of the slots alone. -/
theorem gapped_congr {slot slot' : SlotRef → Slot} {queue : Nat → List StreamEvent}
    (h : ∀ r, (slot' r).consumers = (slot r).consumers) (rs : List SlotRef) :
    gapped slot' queue rs = gapped slot queue rs := by
  induction rs generalizing queue with
  | nil => rfl
  | cons r rs ih => rw [gapped, gapped, h r, ih]

/-- A new subscription id leaves the consumers of every slot alone. -/
theorem consumers_renew (m : Manager) (r : SlotRef) (newId : Json) (q : SlotRef) :
    (Function.update m.slot r { m.slot r with subscriptionId := newId } q).consumers
      = (m.slot q).consumers := by
  by_cases hq : q = r
  · rw [hq, Function.update_self]
  · rw [Function.update_of_ne hq]

/-- A new list of consumers leaves the rest of all slots alone. -/
theorem slot_consumers (slot : SlotRef → Slot) (r : SlotRef) (ks : List Nat) (q : SlotRef) :
    (Function.update slot r { slot r with consumers := ks } q).kind = (slot q).kind
      ∧ (Function.update slot r { slot r with consumers := ks } q).params = (slot q).params
      ∧ (Function.update slot r { slot r with consumers := ks } q).subscriptionId
        = (slot q).subscriptionId := by
  by_cases hq : q = r
  · rw [hq, Function.update_self]
    exact ⟨rfl, rfl, rfl⟩
  · rw [Function.update_of_ne hq]
    exact ⟨rfl, rfl, rfl⟩

theorem subscriptionId_consumers (slot : SlotRef → Slot) (r : SlotRef) (ks : List Nat) (q : SlotRef) :
    (Function.update slot r { slot r with consumers := ks } q).subscriptionId
      = (slot q).subscriptionId :=
  (slot_consumers slot r ks q).2.2

/-! ### Where the tasks stand with respect to the lock

The phase of a task says whether it holds the lock, waits for it, or has nothing to do with it.
The fields of the lock say it again, and `LockConsistent` is that the two agree.
-/

/-- What a phase says about the lock. -/
def lockStatus : Phase → Mutex.Status
  | .acquiring _ _ => .waiting
  | .removing _ _ => .waiting
  | .subscribing _ _ => .holding
  | _ => .outside

/-- What the progress of `on_reconnect` says about the lock. -/
def reconnectStatus : Reconnecting → Mutex.Status
  | .acquiring => .waiting
  | .resubscribing _ _ => .holding
  | _ => .outside

/-- The status of every task. -/
def status (phase : Nat → Phase) (reconnecting : Reconnecting) : Task → Mutex.Status
  | .consumer k => lockStatus (phase k)
  | .reconnect => reconnectStatus reconnecting

/-- The lock's fields and the phases of the tasks agree. -/
def LockConsistent (m : Manager) : Prop :=
  Mutex.Consistent m.lock m.waiters (status m.phase m.reconnecting)

/-- A call that asks for a subscription holds the lock. -/
theorem LockConsistent.subscribing {m : Manager} (h : m.LockConsistent) {k : Nat} {key : SlotKey}
    {params : Json} (hk : m.phase k = .subscribing key params) : m.lock = some (.consumer k) :=
  (h.holding (.consumer k)).mp (by rw [status, hk]; rfl)

/-- So does `on_reconnect`. -/
theorem LockConsistent.resubscribing {m : Manager} (h : m.LockConsistent) {r : SlotRef}
    {rest : List SlotRef} (hrc : m.reconnecting = .resubscribing r rest) :
    m.lock = some .reconnect :=
  (h.holding .reconnect).mp (by rw [status, hrc]; rfl)

theorem awaits_subscribing {m : Manager} {k : Nat} {key : SlotKey} {params : Json}
    (hk : m.phase k = .subscribing key params) :
    m.awaits (.consumer k) = some (subscribeCall key.1 params) := by
  rw [awaits, hk]

theorem awaits_unsubscribing {m : Manager} {k : Nat} {subId : Json}
    (hk : m.phase k = .unsubscribing subId) :
    m.awaits (.consumer k) = some (unsubscribeCall subId) := by
  rw [awaits, hk]

theorem awaits_resubscribing {m : Manager} {r : SlotRef} {rest : List SlotRef}
    (hrc : m.reconnecting = .resubscribing r rest) :
    m.awaits .reconnect = some (subscribeCall (m.slot r).kind (m.slot r).params) := by
  rw [awaits, hrc]

/-- A call that awaits an answer has asked for it. -/
theorem phase_of_awaits {m : Manager} {k : Nat} {call : RpcCall}
    (h : m.awaits (.consumer k) = some call) :
    (∃ key params, m.phase k = .subscribing key params ∧ call = subscribeCall key.1 params) ∨
      ∃ subId, m.phase k = .unsubscribing subId ∧ call = unsubscribeCall subId := by
  rw [awaits] at h
  split at h
  · rename_i key params hk
    injection h with h
    exact .inl ⟨key, params, hk, h.symm⟩
  · rename_i subId hk
    injection h with h
    exact .inr ⟨subId, hk, h.symm⟩
  · cases h

/-- So has `on_reconnect`. -/
theorem reconnecting_of_awaits {m : Manager} {call : RpcCall}
    (h : m.awaits .reconnect = some call) : ∃ r rest, m.reconnecting = .resubscribing r rest ∧
      call = subscribeCall (m.slot r).kind (m.slot r).params := by
  rw [awaits] at h
  split at h
  · rename_i r rest hrc
    injection h with h
    exact ⟨r, rest, hrc, h.symm⟩
  · cases h

theorem status_update (phase : Nat → Phase) (rc : Reconnecting) (k : Nat) (p : Phase) :
    status (Function.update phase k p) rc
      = Function.update (status phase rc) (.consumer k) (lockStatus p) := by
  funext t
  cases t with
  | reconnect => rfl
  | consumer j =>
      by_cases hj : j = k
      · rw [hj]
        simp [status]
      · have hne : Task.consumer j ≠ Task.consumer k := by
          intro h
          injection h with h
          exact hj h
        rw [Function.update_of_ne hne]
        simp [status, hj]

theorem status_reconnect (phase : Nat → Phase) (rc rc' : Reconnecting) :
    status phase rc' = Function.update (status phase rc) .reconnect (reconnectStatus rc') := by
  funext t
  cases t with
  | reconnect => simp [status]
  | consumer j => rfl

/-! ### The outcomes of a step -/

/-- How a call comes to the lock in the step itself: the phase it then has. -/
inductive Approach (m : Manager) : Op → Nat → Phase → Prop where
  | subscribe {k : Nat} {kind : StreamKind} {params : Json} {text : String}
      (hk : m.phase k = .fresh) (htext : canonicalize params = .ok text) :
      Approach m (.subscribe k kind params) k (.acquiring (kind, text) params)
  | aclose {k : Nat} {key : SlotKey} {r : SlotRef} (hk : m.phase k = .streaming key r) :
      Approach m (.aclose k) k (.removing key r)

/-- It is the turn of a call to take the lock; `p` is its phase and `rest` the queue behind it. -/
def AtLock (m : Manager) (op : Op) (k : Nat) (rest : List Task) (p : Phase) : Prop :=
  m.lock = none ∧
    (op = .grant ∧ m.waiters = .consumer k :: rest ∧ m.phase k = p
      ∨ m.waiters = [] ∧ rest = [] ∧ Approach m op k p)

/-- It is the turn of `on_reconnect` to take the lock. -/
def ReconnectAtLock (m : Manager) (op : Op) (rest : List Task) : Prop :=
  m.lock = none ∧
    (op = .grant ∧ m.waiters = .reconnect :: rest ∧ m.reconnecting = .acquiring
      ∨ op = .onReconnect ∧ m.waiters = [] ∧ rest = []
        ∧ reconnectStatus m.reconnecting = .outside)

/-- The slots whose request fails in the segment in which `on_reconnect` gets the lock. -/
def refusedAtStart (m : Manager) : Bool × Op → List SlotRef
  | (connected, .onReconnect) =>
      if m.lock = none ∧ m.waiters = [] then refusedAtOnce connected m.slots.values else []
  | (connected, .grant) =>
      match m.lock, m.waiters with
      | none, .reconnect :: _ => refusedAtOnce connected m.slots.values
      | _, _ => []
  | _ => []

theorem refusedAtStart_eq {connected : Bool} {m : Manager} {op : Op} {rest : List Task}
    (hturn : ReconnectAtLock m op rest) :
    m.refusedAtStart (connected, op) = refusedAtOnce connected m.slots.values := by
  rcases hturn.2 with ⟨hop, hw, -⟩ | ⟨hop, hw, -, -⟩
  · simp only [refusedAtStart, hop, hturn.1, hw]
  · simp only [refusedAtStart, hop, hturn.1, hw, and_self, if_true]

/-! ### Ids as keys

The upstream may answer with any JSON value, and the routing map has it as a key.  Of numbers
two spellings of one value are one key, as in a dictionary of the source.
-/

/-- The key of a number is a number. -/
theorem numberKey_cases (lit : String) :
    (∃ n, numberKey lit = .int n) ∨ ∃ text, numberKey lit = .float text := by
  unfold numberKey
  split
  · split
    · exact .inl ⟨_, rfl⟩
    · exact .inr ⟨_, rfl⟩
  · exact .inr ⟨_, rfl⟩
  · exact .inr ⟨_, rfl⟩

theorem dictKey_eq_str {v : Json} {x : String} (h : dictKey v = .str x) : v = .str x := by
  cases v with
  | bool b => cases h
  | float lit =>
      rw [dictKey] at h
      rcases numberKey_cases lit with ⟨n, hkey⟩ | ⟨text, hkey⟩ <;> rw [hkey] at h <;> cases h
  | _ => exact h

@[simp] theorem isHashable_dictKey (v : Json) : (dictKey v).isHashable = v.isHashable := by
  cases v with
  | float lit =>
      rw [dictKey]
      rcases numberKey_cases lit with ⟨n, hkey⟩ | ⟨text, hkey⟩ <;> rw [hkey] <;> rfl
  | _ => rfl

/-- `_slot_by_subscription_id` once the id of a slot that ended is taken out. -/
def forget (bySubId : Dict Json SlotRef) (subId : Json) : Dict Json SlotRef :=
  if subId = .null ∨ subId.isHashable = false then bySubId else bySubId.erase (dictKey subId)

theorem get?_of_forget {bySubId : Dict Json SlotRef} {subId id : Json} {r : SlotRef}
    (h : (forget bySubId subId).get? id = some r) : bySubId.get? id = some r := by
  rw [forget] at h
  split at h
  · exact h
  · exact (Dict.get?_erase_eq_some.mp h).2

/-- Where the `aclose` of the last consumer goes on. -/
def afterEnd (connected : Bool) (subId : Json) : Phase :=
  if subId ≠ .null ∧ subId.isHashable = true ∧ connected = true then .unsubscribing subId
  else .closed

theorem afterEnd_cases {p : Phase} {connected : Bool} {subId : Json}
    (hp : p = afterEnd connected subId) : p = .closed ∨ p = .unsubscribing subId := by
  rw [afterEnd] at hp
  split at hp
  · exact .inr hp
  · exact .inl hp

theorem connected_or_closed {p : Phase} {connected : Bool} {subId : Json}
    (hp : p = afterEnd connected subId) : connected = true ∨ p = .closed := by
  rw [afterEnd] at hp
  split at hp
  · rename_i hasked
    exact .inl hasked.2.2
  · exact .inr hp

/-- The gauges once the slot `r` that lost its last consumer is taken out. -/
def gaugeAfterEnd (m : Manager) (key : SlotKey) (r : SlotRef) : StreamKind → Option Nat :=
  if (m.slot r).subscriptionId.isHashable then
    Function.update m.gauge (m.slot r).kind (some (countKind (m.slots.erase key)
      (Function.update m.slot r { m.slot r with consumers := [] }) (m.slot r).kind))
  else m.gauge

/-- The gauges once the slot `s` is put in. -/
def gaugeAfterStart (m : Manager) (key : SlotKey) (s : Slot) : StreamKind → Option Nat :=
  Function.update m.gauge key.1 (some (countKind (m.slots.set key m.nextSlot)
    (Function.update m.slot m.nextSlot s) key.1))

/-- The subscription a notification names, and what it carries. -/
def notified (payload : Json) : Option (String × Json) :=
  match dictGet payload "params" with
  | .ok (.obj fields) =>
      match Json.field? fields "subscription" with
      | some (.str s) => some (s, (Json.field? fields "result").getD .null)
      | _ => none
  | _ => none

/-- The manager once a notification has been dispatched. -/
def afterNotification (m : Manager) (payload : Json) : Manager :=
  match notified payload with
  | none => m
  | some (s, result) =>
      match m.bySubId.get? (.str s) with
      | none => m
      | some r => m.broadcast r (.event result)

theorem afterNotification_of_notified {m : Manager} {payload result : Json} {x : String}
    {r : SlotRef} (hn : notified payload = some (x, result))
    (hr : m.bySubId.get? (.str x) = some r) :
    m.afterNotification payload = m.broadcast r (.event result) := by
  rw [afterNotification, hn]
  dsimp only
  rw [hr]

theorem step_onNotification (connected : Bool) (m : Manager) (payload : Json) :
    m.step (connected, .onNotification payload) = some (m.afterNotification payload) := by
  rw [step, onNotification, afterNotification, notified]
  rcases dictGet payload "params" with e | params
  · rfl
  · cases params with
    | obj fields =>
        have hparams : (if (Json.obj fields).isFalsy then Json.obj [] else .obj fields)
            = .obj fields := by
          cases fields <;> rfl
        simp only [bind, Except.bind, hparams, dictGet]
        rcases Json.field? fields "subscription" with _ | subId
        · rfl
        · cases subId with
          | str s =>
              dsimp only [Option.getD_some]
              rcases m.bySubId.get? (.str s) with _ | r <;> rfl
          | _ => rfl
    | _ =>
        -- no dictionary: a falsy value counts as an empty one, any other one raises
        simp only [bind, Except.bind]
        generalize hfalsy : Json.isFalsy _ = falsy
        cases falsy <;> rfl

/-- What a step can do. -/
inductive Effect (connected : Bool) (m : Manager) : Op → Manager → Prop where
  | closedAgain {k : Nat} : Effect connected m (.aclose k) m
  | ignored {payload : Json} : Effect connected m (.onNotification payload) m
  | refused {k : Nat} {kind : StreamKind} {params : Json} {e : Exc} (hk : m.phase k = .fresh) :
      Effect connected m (.subscribe k kind params) (m.setPhase k (.failed e))
  | unsubscribed {k : Nat} {subId : Json} {outcome : Except Exc Json}
      (hk : m.phase k = .unsubscribing subId) :
      Effect connected m (.answer (.consumer k) outcome) (m.setPhase k .closed)
  | waiting {op : Op} {k : Nat} {p : Phase} (hk : Approach m op k p) :
      Effect connected m op { m.setPhase k p with waiters := m.waiters ++ [.consumer k] }
  | joined {op : Op} {k : Nat} {key : SlotKey} {params : Json} {r : SlotRef} {rest : List Task}
      (hk : AtLock m op k rest (.acquiring key params)) (hr : m.slots.get? key = some r) :
      Effect connected m op
        { (m.setSlot r { m.slot r with consumers := (m.slot r).consumers ++ [k] }).setPhase k
            (.streaming key r) with
          lock := none, waiters := rest }
  | asked {op : Op} {k : Nat} {key : SlotKey} {params : Json} {rest : List Task}
      (hk : AtLock m op k rest (.acquiring key params)) (hr : m.slots.get? key = none)
      (hc : connected = true) :
      Effect connected m op
        { m.setPhase k (.subscribing key params) with
          lock := some (.consumer k), waiters := rest }
  | turnedAway {op : Op} {k : Nat} {key : SlotKey} {params : Json} {rest : List Task} {e : Exc}
      (hk : AtLock m op k rest (.acquiring key params)) :
      Effect connected m op { m.setPhase k (.failed e) with lock := none, waiters := rest }
  | gone {op : Op} {k : Nat} {key : SlotKey} {r : SlotRef} {rest : List Task}
      (hk : AtLock m op k rest (.removing key r)) (hmem : k ∉ (m.slot r).consumers) :
      Effect connected m op { m.setPhase k .closed with lock := none, waiters := rest }
  | left {op : Op} {k : Nat} {key : SlotKey} {r : SlotRef} {rest : List Task}
      (hk : AtLock m op k rest (.removing key r)) (hmem : k ∈ (m.slot r).consumers)
      (hne : (m.slot r).consumers.erase k ≠ []) :
      Effect connected m op
        { (m.setSlot r { m.slot r with consumers := (m.slot r).consumers.erase k }).setPhase k
            .closed with
          lock := none, waiters := rest }
  | ended {op : Op} {k : Nat} {key : SlotKey} {r : SlotRef} {rest : List Task} {p : Phase}
      (hk : AtLock m op k rest (.removing key r)) (hmem : k ∈ (m.slot r).consumers)
      (hnil : (m.slot r).consumers.erase k = [])
      (hp : p = afterEnd connected (m.slot r).subscriptionId) :
      Effect connected m op
        { (m.setSlot r { m.slot r with consumers := [] }).setPhase k p with
          slots := m.slots.erase key, bySubId := forget m.bySubId (m.slot r).subscriptionId,
          gauge := gaugeAfterEnd m key r, lock := none, waiters := rest }
  | created {k : Nat} {key : SlotKey} {params subId : Json}
      (hk : m.phase k = .subscribing key params) (hsub : subId.isHashable = true) :
      Effect connected m (.answer (.consumer k) (.ok subId))
        { (m.setSlot m.nextSlot ⟨key.1, params, subId, [k]⟩).setPhase k
            (.streaming key m.nextSlot) with
          nextSlot := m.nextSlot + 1, slots := m.slots.set key m.nextSlot,
          bySubId := m.bySubId.set (dictKey subId) m.nextSlot,
          gauge := gaugeAfterStart m key ⟨key.1, params, subId, [k]⟩, lock := none }
  | createdUnhashable {k : Nat} {key : SlotKey} {params subId : Json}
      (hk : m.phase k = .subscribing key params) (hsub : subId.isHashable = false) :
      Effect connected m (.answer (.consumer k) (.ok subId))
        { (m.setSlot m.nextSlot ⟨key.1, params, subId, [k]⟩).setPhase k (.failed .typeError) with
          nextSlot := m.nextSlot + 1, slots := m.slots.set key m.nextSlot, lock := none }
  | unanswered {k : Nat} {key : SlotKey} {params : Json} {e e' : Exc}
      (hk : m.phase k = .subscribing key params) :
      Effect connected m (.answer (.consumer k) (.error e))
        { m.setPhase k (.failed e') with lock := none }
  | reconnectWaiting (hrc : reconnectStatus m.reconnecting = .outside) :
      Effect connected m .onReconnect
        { m with reconnecting := .acquiring, waiters := m.waiters ++ [.reconnect] }
  | reconnectStarted {op : Op} {rest : List Task} (hturn : ReconnectAtLock m op rest) :
      Effect connected m op { m with
        bySubId := .empty
        queue := gapped m.slot m.queue (refusedAtOnce connected m.slots.values)
        reconnecting := stopsAt connected m.slots.values
        lock := heldBy connected m.slots.values
        waiters := rest }
  | notRenewed {r : SlotRef} {rest : List SlotRef} {e : Exc}
      (hrc : m.reconnecting = .resubscribing r rest) :
      Effect connected m (.answer .reconnect (.error e)) { m with
        queue := gapped m.slot m.queue (r :: refusedAtOnce connected rest)
        reconnecting := stopsAt connected rest
        lock := heldBy connected rest }
  | renewed {r : SlotRef} {rest : List SlotRef} {newId : Json}
      (hrc : m.reconnecting = .resubscribing r rest) (hid : newId.isHashable = true) :
      Effect connected m (.answer .reconnect (.ok newId))
        { m.setSlot r { m.slot r with subscriptionId := newId } with
          bySubId := m.bySubId.set (dictKey newId) r
          queue := gapped m.slot m.queue (r :: refusedAtOnce connected rest)
          reconnecting := stopsAt connected rest
          lock := heldBy connected rest }
  | renewedUnhashable {r : SlotRef} {rest : List SlotRef} {newId : Json}
      (hrc : m.reconnecting = .resubscribing r rest) (hid : newId.isHashable = false) :
      Effect connected m (.answer .reconnect (.ok newId))
        { m.setSlot r { m.slot r with subscriptionId := newId } with
          reconnecting := .raised .typeError, lock := none }
  | dispatched {payload result : Json} {s : String} {r : SlotRef}
      (hn : notified payload = some (s, result)) (hr : m.bySubId.get? (.str s) = some r) :
      Effect connected m (.onNotification payload) (m.broadcast r (.event result))
  | read {k : Nat} {key : SlotKey} {r : SlotRef} {ev : StreamEvent} {more : List StreamEvent}
      (hk : m.phase k = .streaming key r) (hq : m.queue k = ev :: more) :
      Effect connected m (.read k ev) { m with queue := Function.update m.queue k more }

/-! ### Each operation has one of the outcomes

The lemmas go through the operations in the order of the source, and end with the steps that
begin a call and those that give a task its turn.
-/

section

variable {connected : Bool} {m : Manager} {op : Op} {k : Nat} {rest : List Task}

/-- A manager just before the task `t` does its part under the lock. -/
private def entering (m : Manager) (t : Task) (phase : Nat → Phase) (rest : List Task) : Manager :=
  { m with phase := phase, lock := some t, waiters := rest }

theorem effect_lockedSubscribe {key : SlotKey} {params : Json} {phase : Nat → Phase}
    (hphase : ∀ p, Function.update phase k p = Function.update m.phase k p)
    (hk : AtLock m op k rest (.acquiring key params)) :
    Effect connected m op
      (lockedSubscribe connected (entering m (.consumer k) phase rest) k key params) := by
  rw [lockedSubscribe]
  rcases hr : (entering m (.consumer k) phase rest).slots.get? key with _ | r
  · cases connected with
    | true =>
        have : Effect true m op _ := .asked hk hr rfl
        rwa [setPhase, ← hphase] at this
    | false =>
        have : Effect false m op _ :=
          .turnedAway (e := .subscriptionUnavailable "ws not connected") hk
        rwa [setPhase, ← hphase] at this
  · have : Effect connected m op _ := .joined hk hr
    rwa [setPhase, setSlot_phase, ← hphase] at this

/-- What becomes of a slot that loses its last consumer. -/
theorem lockedRemove_last {m : Manager} {k : Nat} {key : SlotKey} {r : SlotRef}
    (hmem : k ∈ (m.slot r).consumers) (hnil : (m.slot r).consumers.erase k = []) :
    lockedRemove connected m k key r =
      { (m.setSlot r { m.slot r with consumers := [] }).setPhase k
          (afterEnd connected (m.slot r).subscriptionId) with
        slots := m.slots.erase key, bySubId := forget m.bySubId (m.slot r).subscriptionId,
        gauge := gaugeAfterEnd m key r, lock := none } := by
  rw [lockedRemove, if_pos hmem]
  simp only [hnil, ne_eq, not_true_eq_false, if_false]
  by_cases hnull : (m.slot r).subscriptionId = .null
  · have hid : (m.slot r).subscriptionId.isHashable = true := by rw [hnull]; rfl
    rw [if_pos hnull, afterEnd, if_neg (by simp [hnull]), forget, if_pos (.inl hnull),
      gaugeAfterEnd, if_pos hid]
    rfl
  · rw [if_neg hnull]
    by_cases hid : (m.slot r).subscriptionId.isHashable = true
    · have hkeep : ¬((m.slot r).subscriptionId = .null
          ∨ (m.slot r).subscriptionId.isHashable = false) := by
        simp [hnull, hid]
      have hafter : (if connected then .unsubscribing (m.slot r).subscriptionId else .closed)
          = afterEnd connected (m.slot r).subscriptionId := by
        cases connected <;> simp [afterEnd, hnull, hid]
      rw [if_pos hid, hafter, forget, if_neg hkeep, gaugeAfterEnd, if_pos hid]
      rfl
    · rw [if_neg hid, afterEnd, if_neg (by simp [hid]), forget, if_pos (.inr (by simpa using hid)),
        gaugeAfterEnd, if_neg hid]
      rfl

theorem effect_lockedRemove {key : SlotKey} {r : SlotRef} {phase : Nat → Phase}
    (hphase : ∀ p, Function.update phase k p = Function.update m.phase k p)
    (hk : AtLock m op k rest (.removing key r)) :
    Effect connected m op
      (lockedRemove connected (entering m (.consumer k) phase rest) k key r) := by
  by_cases hmem : k ∈ (m.slot r).consumers
  · by_cases hnil : (m.slot r).consumers.erase k = []
    · have : Effect connected m op _ := .ended hk hmem hnil rfl
      rw [setPhase, setSlot_phase, ← hphase] at this
      have hlast := @lockedRemove_last connected (entering m (.consumer k) phase rest) k key r hmem
        hnil
      rw [hlast]
      exact this
    · have : Effect connected m op _ := .left hk hmem hnil
      rw [setPhase, setSlot_phase, ← hphase] at this
      rw [lockedRemove, if_pos (show k ∈ ((entering m (.consumer k) phase rest).slot r).consumers
        from hmem)]
      simp only [entering, ne_eq, hnil, not_false_eq_true, if_true]
      exact this
  · have : Effect connected m op _ := .gone hk hmem
    rw [setPhase, ← hphase] at this
    rw [lockedRemove, if_neg (show k ∉ ((entering m (.consumer k) phase rest).slot r).consumers
      from hmem)]
    exact this

/-- A call that comes to the lock in the step either takes it or queues up. -/
theorem effect_of_approach {p : Phase} (hk : Approach m op k p) :
    Effect connected m op ((m.setPhase k p).acquire connected (.consumer k)) := by
  rw [acquire, show (m.setPhase k p).lock = m.lock from rfl,
    show (m.setPhase k p).waiters = m.waiters from rfl]
  by_cases hfree : m.lock = none ∧ m.waiters = []
  · rw [if_pos hfree]
    have hat : AtLock m op k [] p := ⟨hfree.1, .inr ⟨hfree.2, rfl, hk⟩⟩
    rw [hfree.2]
    show Effect connected m op
      (locked connected (entering m (.consumer k) (Function.update m.phase k p) []) (.consumer k))
    rw [locked, show (entering m (.consumer k) (Function.update m.phase k p) []).phase k = p from
      Function.update_self ..]
    cases hk with
    | subscribe => exact effect_lockedSubscribe (fun p => Function.update_idem ..) hat
    | aclose => exact effect_lockedRemove (fun p => Function.update_idem ..) hat
  · rw [if_neg hfree]
    exact .waiting hk

theorem effect_lockedReconnect (hturn : ReconnectAtLock m op rest) (rc : Reconnecting) :
    Effect connected m op
      (lockedReconnect connected
        { m with reconnecting := rc, lock := some .reconnect, waiters := rest }) := by
  rw [lockedReconnect, resubscribe_eq _ rfl]
  exact .reconnectStarted hturn

theorem effect_subscribed {key : SlotKey} {params : Json} (hk : m.phase k = .subscribing key params)
    (outcome : Except Exc Json) :
    Effect connected m (.answer (.consumer k) outcome) (m.subscribed k key params outcome) := by
  rcases outcome with e | subId
  · rw [subscribed.eq_def]
    split
    · rename_i h
      cases h
    · exact .unanswered hk
    · exact .unanswered hk
  · rw [subscribed]
    dsimp only
    by_cases hsub : subId.isHashable = true
    · rw [if_pos hsub]
      exact .created hk hsub
    · rw [if_neg hsub]
      exact .createdUnhashable hk (by simpa using hsub)

theorem effect_resubscribed {r : SlotRef} {rs : List SlotRef}
    (hrc : m.reconnecting = .resubscribing r rs) (hlock : m.lock = some .reconnect)
    (outcome : Except Exc Json) :
    Effect connected m (.answer .reconnect outcome)
      (m.resubscribed connected r rs outcome) := by
  rcases outcome with e | newId
  · rw [resubscribed, resubscribe_eq _ (show (m.broadcast r .gap).lock = _ from hlock)]
    exact .notRenewed hrc
  · rw [resubscribed]
    dsimp only
    by_cases hid : newId.isHashable = true
    · rw [if_pos hid, resubscribe_eq _ (by exact hlock)]
      have : Effect connected m (.answer .reconnect (.ok newId)) _ := .renewed hrc hid
      rw [← gapped_congr (consumers_renew m r newId)] at this
      exact this
    · rw [if_neg hid]
      exact .renewedUnhashable hrc (by simpa using hid)

/-- The step in which `on_reconnect` gets the lock. -/
theorem step_of_start (hturn : ReconnectAtLock m op rest) :
    m.step (connected, op) = some { m with
      bySubId := .empty
      queue := gapped m.slot m.queue (refusedAtOnce connected m.slots.values)
      reconnecting := stopsAt connected m.slots.values
      lock := heldBy connected m.slots.values
      waiters := rest } := by
  have hlocked : ∀ rc, locked connected
      { m with reconnecting := rc, lock := some .reconnect, waiters := rest } .reconnect = { m with
        bySubId := .empty
        queue := gapped m.slot m.queue (refusedAtOnce connected m.slots.values)
        reconnecting := stopsAt connected m.slots.values
        lock := heldBy connected m.slots.values
        waiters := rest } := by
    intro rc
    rw [locked, lockedReconnect, resubscribe_eq _ rfl]
  rcases hturn.2 with ⟨hop, hw, hrc⟩ | ⟨hop, hw, hrest, hrc⟩
  · rw [hop, step, hturn.1, hw]
    exact congrArg some (hlocked m.reconnecting)
  · have hacq : { m with reconnecting := .acquiring }.acquire connected .reconnect
        = locked connected
          { m with reconnecting := .acquiring, lock := some .reconnect, waiters := rest }
          .reconnect := by
      rw [acquire, if_pos ⟨hturn.1, hw⟩, hrest, ← hw]
    rw [hop, step]
    rcases h : m.reconnecting with _ | _ | _ | e
    · exact congrArg some (hacq.trans (hlocked _))
    · rw [h] at hrc
      cases hrc
    · rw [h] at hrc
      cases hrc
    · exact congrArg some (hacq.trans (hlocked _))

/-- A call whose turn it is does its part under the lock. -/
theorem step_of_turn {p : Phase} (hk : AtLock m op k rest p)
    (hc : ∀ kind params, op = .subscribe k kind params → connected = true) :
    m.step (connected, op) = some (locked connected { m with
      phase := Function.update m.phase k p
      lock := some (.consumer k)
      waiters := rest } (.consumer k)) := by
  rcases hk.2 with ⟨hop, hw, hp⟩ | ⟨hw, hrest, happ⟩
  · rw [hop, step, hk.1, hw, ← hp, Function.update_eq_self]
  · have hacq : (m.setPhase k p).acquire connected (.consumer k) = locked connected { m with
        phase := Function.update m.phase k p
        lock := some (.consumer k)
        waiters := rest } (.consumer k) := by
      rw [acquire, if_pos ⟨hk.1, hw⟩, hrest, ← hw]
      rfl
    rw [← hacq]
    cases happ with
    | @subscribe _ kind params text hfresh htext =>
        rw [step, hfresh, subscribe, if_pos (hc kind params rfl), htext]
    | aclose hstreaming => rw [step, hstreaming]

/-- **Every step has one of the outcomes.** -/
theorem effect_of_step {m' : Manager} (hm : m.LockConsistent)
    (h : m.step (connected, op) = some m') : Effect connected m op m' := by
  cases op with
  | subscribe k kind params =>
      rw [step] at h
      split at h
      · rename_i hk
        injection h with h
        rw [← h, subscribe]
        cases connected with
        | false => exact .refused hk
        | true =>
            rcases htext : canonicalize params with e | text
            · exact .refused hk
            · exact effect_of_approach (.subscribe hk htext)
      · cases h
  | aclose k =>
      rw [step] at h
      split at h
      · rename_i key r hk
        injection h with h
        rw [← h]
        exact effect_of_approach (.aclose hk)
      all_goals
        cases h
        try exact .closedAgain
  | onReconnect =>
      have hstart : reconnectStatus m.reconnecting = .outside →
          Effect connected m .onReconnect
            ({ m with reconnecting := .acquiring }.acquire connected .reconnect) := by
        intro hrc
        rw [acquire]
        by_cases hfree : m.lock = none ∧ m.waiters = []
        · rw [if_pos hfree, locked]
          have : Effect connected m .onReconnect _ := effect_lockedReconnect
            (show ReconnectAtLock m .onReconnect [] from
              ⟨hfree.1, .inr ⟨rfl, hfree.2, rfl, hrc⟩⟩) .acquiring
          rwa [← hfree.2] at this
        · rw [if_neg hfree]
          exact .reconnectWaiting hrc
      rw [step] at h
      split at h
      · rename_i hrc
        injection h with h
        rw [← h]
        exact hstart (by rw [hrc]; rfl)
      · rename_i hrc
        injection h with h
        rw [← h]
        exact hstart (by rw [hrc]; rfl)
      · cases h
  | onNotification payload =>
      rw [step_onNotification] at h
      injection h with h
      rw [← h, afterNotification]
      rcases hn : notified payload with _ | ⟨s, result⟩
      · exact .ignored
      · dsimp only
        rcases hr : m.bySubId.get? (.str s) with _ | r
        · exact .ignored
        · exact .dispatched hn hr
  | grant =>
      rw [step] at h
      split at h
      · rename_i t ts hlock hw
        injection h with h
        rw [← h]
        have hwait := (hm.waiting t).mpr (by rw [hw]; exact List.mem_cons_self)
        cases t with
        | reconnect =>
            have hrc : m.reconnecting = .acquiring := by
              rcases hrc : m.reconnecting <;> simp_all [status, reconnectStatus]
            rw [locked]
            exact effect_lockedReconnect ⟨hlock, .inl ⟨rfl, hw, hrc⟩⟩ m.reconnecting
        | consumer k =>
            show Effect connected m .grant
              (locked connected (entering m (.consumer k) m.phase ts) (.consumer k))
            rw [locked, show (entering m (.consumer k) m.phase ts).phase k = m.phase k from rfl]
            rcases hk : m.phase k with _ | ⟨key, params⟩ | _ | _ | _ | ⟨key, r⟩ | _ | _
            case acquiring =>
              exact effect_lockedSubscribe (fun p => rfl) ⟨hlock, .inl ⟨rfl, hw, hk⟩⟩
            case removing =>
              exact effect_lockedRemove (fun p => rfl) ⟨hlock, .inl ⟨rfl, hw, hk⟩⟩
            all_goals
              rw [status, hk] at hwait
              cases hwait
      · cases h
  | answer t outcome =>
      cases t with
      | reconnect =>
          rw [step, answered] at h
          split at h
          · rename_i r rest hrc
            injection h with h
            rw [← h]
            exact effect_resubscribed hrc (hm.resubscribing hrc) outcome
          · cases h
      | consumer k =>
          rw [step, answered] at h
          split at h
          · rename_i key params hk
            injection h with h
            rw [← h]
            exact effect_subscribed hk outcome
          · rename_i subId hk
            injection h with h
            rw [← h]
            exact .unsubscribed hk
          · cases h
  | read k ev =>
      rw [step] at h
      split at h
      · rename_i key r head more hk hq
        split at h
        · rename_i heq
          injection h with h
          rw [← h]
          exact .read hk (by rw [hq, heq])
        · cases h
      · cases h

end

end Manager

end ExecRestApi
