/-
The subscription multiplexer (`subscriptions.py`).

A task runs from one `await` to the next without another task in between, so each
such segment is one step on the shared state.  A `subscribe` call, its queue and the
stream it returns carry one number; `phase` says where that call stands.  Slots are
objects two dictionaries point at, so they live in a heap and the dictionaries hold
references.

`connected` is what `self._ws.connected` reads during the segment: `request` raises
at once on a closed socket and otherwise suspends until its answer comes.
-/
import ExecRestApi.Model.Upstream
import Mathlib.Logic.Function.Basic

namespace ExecRestApi

open Py

/-- `StreamKind` -/
inductive StreamKind where
  | newHeads
  | logs
  | newPendingTransactions
  | syncing
  deriving DecidableEq

/-- The literal the upstream knows a kind by. -/
def StreamKind.literal : StreamKind → String
  | newHeads => "newHeads"
  | logs => "logs"
  | newPendingTransactions => "newPendingTransactions"
  | syncing => "syncing"

/-- `StreamEvent`; `gap` is the sentinel `GAP`. -/
inductive StreamEvent where
  | event (payload : Json)
  | gap
  deriving DecidableEq

/-- `_canonicalize` -/
def canonicalize (params : Json) : Except Exc String :=
  match params.sortKeys.dumps with
  | some cs => .ok (String.ofList cs)
  | none => .error .valueError

/-- `_params_to_subscribe_args` -/
def paramsToSubscribeArgs (kind : StreamKind) (params : Json) : List Json :=
  if params = .null then [.str kind.literal] else [.str kind.literal, params]

/-- The request for a subscription. -/
def subscribeCall (kind : StreamKind) (params : Json) : RpcCall :=
  ⟨"eth_subscribe", paramsToSubscribeArgs kind params⟩

/-- The request that ends one. -/
def unsubscribeCall (subId : Json) : RpcCall := ⟨"eth_unsubscribe", [subId]⟩

/-- A number as a dictionary key: as an integer if it is one, else as a fraction.  `NaN` is a key
for the object itself only; of two ids that are `NaN` nothing is said here. -/
def numberKey (lit : String) : Json :=
  match float? lit.toList with
  | some (.finite x) =>
      if x.den = 1 then .int x.num else .float (toString x.num ++ "/" ++ toString x.den)
  | some (.inf negative) => .float (if negative then "-Infinity" else "Infinity")
  | _ => .float lit

/-- What a value is as a dictionary key: `True`, `1` and `1.0` are one key. -/
def dictKey : Json → Json
  | .bool b => .int (if b then 1 else 0)
  | .float lit => numberKey lit
  | v => v

example : dictKey (.float "1e2") = dictKey (.int 100) := by decide +kernel

/-- The key of a slot in `_slots`. -/
abbrev SlotKey := StreamKind × String

/-- The identity of a `_Slot`. -/
abbrev SlotRef := Nat

/-- `_Slot`.  `None` as its subscription id is `null`. -/
structure Slot where
  kind : StreamKind
  params : Json
  subscriptionId : Json
  consumers : List Nat

/-- `asyncio.Queue(maxsize=1024)` -/
def queueSize : Nat := 1024

/-- The tasks that take the manager's lock. -/
inductive Task where
  /-- A `subscribe` call, and later the `aclose` of its stream. -/
  | consumer (k : Nat)
  /-- `on_reconnect` -/
  | reconnect
  deriving DecidableEq

/-- Where a `subscribe` call, and then its stream, stands. -/
inductive Phase where
  /-- not called -/
  | fresh
  /-- awaits the lock -/
  | acquiring (key : SlotKey) (params : Json)
  /-- holds the lock and awaits the answer to `eth_subscribe` -/
  | subscribing (key : SlotKey) (params : Json)
  /-- has raised -/
  | failed (e : Exc)
  /-- has returned its stream -/
  | streaming (key : SlotKey) (slot : SlotRef)
  /-- `aclose` awaits the lock -/
  | removing (key : SlotKey) (slot : SlotRef)
  /-- `aclose` awaits the answer to `eth_unsubscribe` -/
  | unsubscribing (subId : Json)
  /-- `aclose` has returned -/
  | closed
  deriving DecidableEq

/-- Where `on_reconnect` stands.  The task of the socket awaits it, so there is one call
at a time. -/
inductive Reconnecting where
  | idle
  /-- awaits the lock -/
  | acquiring
  /-- holds the lock and awaits the answer for `slot`, with the slots of `rest` still to do -/
  | resubscribing (slot : SlotRef) (rest : List SlotRef)
  /-- has raised -/
  | raised (e : Exc)
  deriving DecidableEq

/-- `SubscriptionManager`: its fields, its lock, its slots and queues, its tasks. -/
structure Manager where
  /-- `_slots` -/
  slots : Dict SlotKey SlotRef
  /-- `_slot_by_subscription_id` -/
  bySubId : Dict Json SlotRef
  /-- The slot objects; those from `nextSlot` on do not exist yet. -/
  slot : SlotRef → Slot
  nextSlot : SlotRef
  queue : Nat → List StreamEvent
  phase : Nat → Phase
  reconnecting : Reconnecting
  /-- The `upstream_subscriptions` gauge of a kind, once it has been published. -/
  gauge : StreamKind → Option Nat
  /-- Who holds `_lock`. -/
  lock : Option Task
  /-- Who awaits `_lock`, first come first. -/
  waiters : List Task

namespace Manager

/-- `SubscriptionManager(ws=...)` -/
def init : Manager where
  slots := .empty
  bySubId := .empty
  slot := fun _ => ⟨.newHeads, .null, .null, []⟩
  nextSlot := 0
  queue := fun _ => []
  phase := fun _ => .fresh
  reconnecting := .idle
  gauge := fun _ => none
  lock := none
  waiters := []

def setPhase (m : Manager) (k : Nat) (p : Phase) : Manager :=
  { m with phase := Function.update m.phase k p }

def setSlot (m : Manager) (r : SlotRef) (s : Slot) : Manager :=
  { m with slot := Function.update m.slot r s }

/-- `sum(1 for slot in self._slots.values() if slot.kind == kind)` -/
def countKind (slots : Dict SlotKey SlotRef) (slot : SlotRef → Slot) (kind : StreamKind) : Nat :=
  slots.values.countP fun r => decide ((slot r).kind = kind)

/-- `_publish_gauge` -/
def publishGauge (m : Manager) (kind : StreamKind) : Manager :=
  { m with gauge := Function.update m.gauge kind (some (countKind m.slots m.slot kind)) }

/-- Leaving `async with self._lock`. -/
def release (m : Manager) : Manager := { m with lock := none }

/-- `_enqueue`: a full queue drops the event. -/
def enqueue (queue : Nat → List StreamEvent) (ev : StreamEvent) (k : Nat) :
    Nat → List StreamEvent :=
  if (queue k).length < queueSize then Function.update queue k (queue k ++ [ev]) else queue

/-- `for q in consumers: self._enqueue(q, ev, kind)` -/
def enqueueAll (queue : Nat → List StreamEvent) (ev : StreamEvent) :
    List Nat → Nat → List StreamEvent
  | [] => queue
  | k :: ks => enqueueAll (enqueue queue ev k) ev ks

/-- `enqueueAll` for the consumers of a slot. -/
def broadcast (m : Manager) (r : SlotRef) (ev : StreamEvent) : Manager :=
  { m with queue := enqueueAll m.queue ev (m.slot r).consumers }

/-! ### on_notification -/

def onNotification (m : Manager) (payload : Json) : Except Exc Manager := do
  let params ← dictGet payload "params"
  let params := if params.isFalsy then .obj [] else params
  let subId ← dictGet params "subscription"
  match subId with
  | .str s =>
      match m.bySubId.get? (.str s) with
      | none => pure m
      | some r => do
          let result ← dictGet params "result"
          pure (m.broadcast r (.event result))
  | _ => pure m

/-! ### on_reconnect -/

/-- The `for` loop over the slots, up to its next `await`. -/
def resubscribe (connected : Bool) (m : Manager) : List SlotRef → Manager
  | [] => { m with reconnecting := .idle }.release
  | r :: rest =>
      if connected then { m with reconnecting := .resubscribing r rest }
      else resubscribe connected (m.broadcast r .gap) rest

/-- `on_reconnect` once it has the lock. -/
def lockedReconnect (connected : Bool) (m : Manager) : Manager :=
  resubscribe connected { m with bySubId := .empty } m.slots.values

/-- `on_reconnect` once a re-subscribe request has ended. -/
def resubscribed (connected : Bool) (m : Manager) (r : SlotRef) (rest : List SlotRef) :
    Except Exc Json → Manager
  | .error _ => resubscribe connected (m.broadcast r .gap) rest
  | .ok newId =>
      let m := m.setSlot r { m.slot r with subscriptionId := newId }
      if newId.isHashable then
        let m := { m with bySubId := m.bySubId.set (dictKey newId) r }
        resubscribe connected (m.broadcast r .gap) rest
      else { m with reconnecting := .raised .typeError }.release

/-! ### subscribe -/

/-- `subscribe` once it has the lock. -/
def lockedSubscribe (connected : Bool) (m : Manager) (k : Nat) (key : SlotKey) (params : Json) :
    Manager :=
  match m.slots.get? key with
  | some r =>
      ((m.setSlot r { m.slot r with consumers := (m.slot r).consumers ++ [k] }).setPhase k
        (.streaming key r)).release
  | none =>
      if connected then m.setPhase k (.subscribing key params)
      else (m.setPhase k (.failed (.subscriptionUnavailable "ws not connected"))).release

/-- `subscribe` once its request has ended. -/
def subscribed (m : Manager) (k : Nat) (key : SlotKey) (params : Json) :
    Except Exc Json → Manager
  | .ok subId =>
      let r := m.nextSlot
      let m := { m.setSlot r ⟨key.1, params, subId, [k]⟩ with
        nextSlot := r + 1, slots := m.slots.set key r }
      if subId.isHashable then
        let m := { m with bySubId := m.bySubId.set (dictKey subId) r }.publishGauge key.1
        (m.setPhase k (.streaming key r)).release
      else (m.setPhase k (.failed .typeError)).release
  | .error (.upstreamWsClosed msg) =>
      (m.setPhase k (.failed (.subscriptionUnavailable msg))).release
  | .error e => (m.setPhase k (.failed e)).release

/-! ### _remove_consumer -/

/-- `_remove_consumer` once it has the lock. -/
def lockedRemove (connected : Bool) (m : Manager) (k : Nat) (key : SlotKey) (r : SlotRef) :
    Manager :=
  let slot := m.slot r
  if k ∈ slot.consumers then
    let left := slot.consumers.erase k
    let m := m.setSlot r { slot with consumers := left }
    if left ≠ [] then (m.setPhase k .closed).release
    else
      let subId := slot.subscriptionId
      let m := { m with slots := m.slots.erase key }
      if subId = .null then ((m.publishGauge slot.kind).setPhase k .closed).release
      else if subId.isHashable then
        let m := { m with bySubId := m.bySubId.erase (dictKey subId) }.publishGauge slot.kind
        (m.setPhase k (if connected then .unsubscribing subId else .closed)).release
      else (m.setPhase k .closed).release
  else (m.setPhase k .closed).release

/-! ### The lock -/

/-- What a task does once it holds the lock. -/
def locked (connected : Bool) (m : Manager) : Task → Manager
  | .reconnect => m.lockedReconnect connected
  | .consumer k =>
      match m.phase k with
      | .acquiring key params => m.lockedSubscribe connected k key params
      | .removing key r => m.lockedRemove connected k key r
      | _ => m

/-- `async with self._lock`: a free lock nobody awaits is taken at once. -/
def acquire (connected : Bool) (m : Manager) (t : Task) : Manager :=
  if m.lock = none ∧ m.waiters = [] then { m with lock := some t }.locked connected t
  else { m with waiters := m.waiters ++ [t] }

/-! ### The operations -/

/-- `subscribe`, up to its first `await`. -/
def subscribe (connected : Bool) (m : Manager) (k : Nat) (kind : StreamKind) (params : Json) :
    Manager :=
  if connected then
    match canonicalize params with
    | .error e => m.setPhase k (.failed e)
    | .ok text => (m.setPhase k (.acquiring (kind, text) params)).acquire connected (.consumer k)
  else m.setPhase k (.failed (.subscriptionUnavailable "upstream WS not connected"))

/-- What happens to the manager. -/
inductive Op where
  | subscribe (k : Nat) (kind : StreamKind) (params : Json)
  | aclose (k : Nat)
  | onReconnect
  | onNotification (payload : Json)
  /-- The first waiter gets the released lock. -/
  | grant
  /-- The request a task awaits has ended. -/
  | answer (t : Task) (outcome : Except Exc Json)
  /-- The owner of a stream takes the next event off its queue. -/
  | read (k : Nat) (ev : StreamEvent)

/-- The request a task awaits. -/
def awaits (m : Manager) : Task → Option RpcCall
  | .reconnect =>
      match m.reconnecting with
      | .resubscribing r _ => some (subscribeCall (m.slot r).kind (m.slot r).params)
      | _ => none
  | .consumer k =>
      match m.phase k with
      | .subscribing key params => some (subscribeCall key.1 params)
      | .unsubscribing subId => some (unsubscribeCall subId)
      | _ => none

/-- The request of a task has ended. -/
def answered (connected : Bool) (m : Manager) (outcome : Except Exc Json) : Task → Option Manager
  | .reconnect =>
      match m.reconnecting with
      | .resubscribing r rest => some (m.resubscribed connected r rest outcome)
      | _ => none
  | .consumer k =>
      match m.phase k with
      | .subscribing key params => some (m.subscribed k key params outcome)
      | .unsubscribing _ => some (m.setPhase k .closed)
      | _ => none

/-- One step; the label says whether the socket is connected during it. -/
def step (m : Manager) : Bool × Op → Option Manager
  | (connected, .subscribe k kind params) =>
      match m.phase k with
      | .fresh => some (m.subscribe connected k kind params)
      | _ => none
  | (connected, .aclose k) =>
      match m.phase k with
      | .streaming key r => some ((m.setPhase k (.removing key r)).acquire connected (.consumer k))
      -- `_closed` is set: the call returns at once
      | .removing _ _ => some m
      | .unsubscribing _ => some m
      | .closed => some m
      | _ => none
  | (connected, .onReconnect) =>
      match m.reconnecting with
      | .idle => some ({ m with reconnecting := .acquiring }.acquire connected .reconnect)
      | .raised _ => some ({ m with reconnecting := .acquiring }.acquire connected .reconnect)
      | _ => none
  | (_, .onNotification payload) =>
      match m.onNotification payload with
      | .ok m' => some m'
      -- `_dispatch` logs what the callback raises
      | .error _ => some m
  | (connected, .grant) =>
      match m.lock, m.waiters with
      | none, t :: ts => some ({ m with lock := some t, waiters := ts }.locked connected t)
      | _, _ => none
  | (connected, .answer t outcome) => m.answered connected outcome t
  | (_, .read k ev) =>
      match m.phase k, m.queue k with
      | .streaming _ _, head :: rest =>
          if head = ev then some { m with queue := Function.update m.queue k rest } else none
      | _, _ => none

end Manager

end ExecRestApi
