/-
The subscription manager on the upstream socket, wired as `__main__` does it
(`ws.on_notification` and `ws.on_reconnect` are the manager's methods).

A task of the manager that comes to an `await self._ws.request(...)` issues a call and
waits for it; `_run_forever` awaits `on_reconnect` on every connection but the first.
Requests are written in the segment that makes them and reach the upstream in order, any
time later.  The frames the upstream sends on a connection come in order, and only
`_read_loop` takes them.

The last four fields are what an observer sees and the service does not: the request each id
was used for, the requests on their way to the upstream, what the upstream knows of the open
connection, and the answer each call of `subscribe` got.
-/
import ExecRestApi.Model.Subscriptions
import ExecRestApi.Model.UpstreamWs

namespace ExecRestApi

open Py

/-- A subscription at the upstream: the id of the request it answers, its own id, and what was
asked for. -/
structure Opened where
  rid : Int
  subId : Json
  call : RpcCall
  deriving DecidableEq

/-- What the upstream knows of the open connection. -/
structure Node where
  /-- Requests received and not answered. -/
  received : List (Int × RpcCall)
  /-- Subscriptions opened. -/
  opened : List Opened
  /-- Subscriptions that have not ended. -/
  alive : List Opened
  /-- The ids given so far, on any connection. -/
  given : List Json

/-- The manager, the socket, and who waits for what. -/
structure Service where
  mgr : Manager
  ws : UpstreamWs
  /-- The call of `request` a task awaits. -/
  awaiting : Task → Option Nat
  nextCall : Nat
  /-- Frames sent on the connection that `_read_loop` has not taken. -/
  inbox : List Frame
  asked : Int → Option RpcCall
  /-- Requests written on the connection that the upstream has not received. -/
  wire : List (Int × RpcCall)
  node : Node
  /-- The socket and the id of the answer that a call of `subscribe` returned with. -/
  granted : Nat → Option (Nat × Json)

namespace Node

def init : Node := ⟨[], [], [], []⟩

/-- A new connection knows nothing of the one before. -/
def connect (n : Node) : Node := { n with received := [], opened := [], alive := [] }

/-- No subscription outlives its connection. -/
def lose (n : Node) : Node := { n with alive := [] }

/-- The upstream receives a request; an `eth_unsubscribe` ends the subscription it names. -/
def receive (n : Node) (rid : Int) (call : RpcCall) : Node :=
  { n with
    received := n.received ++ [(rid, call)]
    alive := if call.method = "eth_unsubscribe" then
        n.alive.filter fun o => ¬ o.subId ∈ call.params
      else n.alive }

/-- The upstream sends a frame; a result for an `eth_subscribe` opens a subscription. -/
def send (n : Node) : Frame → Node
  | .reply rid answer =>
      match n.received.find? fun p => p.1 = rid with
      | none => n
      | some (_, call) =>
          let n := { n with received := n.received.filter fun p => p.1 ≠ rid }
          match answer with
          | .result v =>
              if call.method = "eth_subscribe" then
                { n with
                  opened := n.opened ++ [⟨rid, v, call⟩]
                  alive := n.alive ++ [⟨rid, v, call⟩]
                  given := n.given ++ [v] }
              else n
          | _ => n
  | _ => n

end Node

namespace Service

def init : Service where
  mgr := Manager.init
  ws := UpstreamWs.init
  awaiting := fun _ => none
  nextCall := 0
  inbox := []
  asked := fun _ => none
  wire := []
  node := .init
  granted := fun _ => none

/-! ### A segment of the manager -/

/-- The task that runs in a step of the manager. -/
def runs (m : Manager) : Manager.Op → Option Task
  | .subscribe k _ _ => some (.consumer k)
  | .aclose k => some (.consumer k)
  | .onReconnect => some .reconnect
  | .grant => m.waiters.head?
  | .answer t _ => some t
  | .onNotification _ => none
  | .read _ _ => none

/-- The task that ran has come to an `await self._ws.request(...)`. -/
def issue (s : Service) (t : Task) : Service :=
  match s.awaiting t, s.mgr.awaits t with
  | none, some call =>
      { s with
        ws := s.ws.request s.nextCall
        awaiting := Function.update s.awaiting t (some s.nextCall)
        nextCall := s.nextCall + 1
        asked := Function.update s.asked s.ws.nextId (some call)
        wire := s.wire ++ [(s.ws.nextId, call)] }
  | _, _ => s

/-- `on_reconnect` is over, and `_run_forever` runs on. -/
def settle (s : Service) : Service :=
  match s.ws.runner, s.mgr.reconnecting with
  | .reconnecting, .idle => { s with ws := s.ws.reconnected true }
  | .reconnecting, .raised _ => { s with ws := s.ws.reconnected false }
  | _, _ => s

/-- One step of the manager and what follows in the same segment. -/
def manage (s : Service) (op : Manager.Op) : Option Service :=
  match s.mgr.step (s.ws.connected, op) with
  | none => none
  | some mgr =>
      match runs s.mgr op with
      | none => some { s with mgr := mgr }
      | some t => some ({ s with mgr := mgr }.issue t).settle

/-- What the calls of `subscribe` have got, once the task `t` has its answer. -/
def grantedAfter (s : Service) (t : Task) (socket : Nat) (outcome : Except Exc Json) :
    Nat → Option (Nat × Json) :=
  match t, s.mgr.awaits t, outcome with
  | .consumer k, some call, .ok v =>
      if call.method = "eth_subscribe" then Function.update s.granted k (some (socket, v))
      else s.granted
  | _, _, _ => s.granted

/-- The call a task awaits has ended; the task runs on. -/
def answer (s : Service) (t : Task) (c : Nat) (socket : Nat) (rid : Int)
    (outcome : Except Exc Json) : Option Service :=
  { s with
    ws := s.ws.finish c rid outcome
    awaiting := Function.update s.awaiting t none
    granted := s.grantedAfter t socket outcome }.manage (.answer t outcome)

/-- A new connection. -/
def newConnection (s : Service) : Service :=
  { s with ws := s.ws.connect, inbox := [], wire := [], node := s.node.connect }

/-! ### The steps -/

/-- What happens to the service. -/
inductive Op where
  /-- A client calls `subscribe`. -/
  | subscribe (k : Nat) (kind : StreamKind) (params : Json)
  /-- A client calls `aclose`. -/
  | aclose (k : Nat)
  /-- A stream reads from its queue. -/
  | read (k : Nat) (ev : StreamEvent)
  /-- The first waiter gets the lock. -/
  | grant
  /-- `send_str` has returned for the request a task awaits. -/
  | sent (t : Task)
  /-- `send_str` raises; a request the upstream has not received is lost. -/
  | sendFailed (t : Task) (e : Exc)
  /-- The upstream receives a request. -/
  | receive
  /-- The 30 seconds of the request a task awaits are over. -/
  | expire (t : Task)
  /-- The future a task awaits is done, and the task runs on. -/
  | resume (t : Task)
  | connect
  /-- The connection is lost; nobody here knows yet. -/
  | drop
  /-- `receive` or the heartbeat finds that it is lost. -/
  | notice
  | leave
  /-- The upstream sends a frame. -/
  | arrive (frame : Frame)
  /-- `_read_loop` takes a frame. -/
  | deliver

/-- One step. -/
def step (s : Service) : Op → Option Service
  | .subscribe k kind params => s.manage (.subscribe k kind params)
  | .aclose k => s.manage (.aclose k)
  | .read k ev => s.manage (.read k ev)
  | .grant => s.manage .grant
  | .sent t =>
      match s.awaiting t with
      | none => none
      | some c =>
          match s.ws.call c with
          | .sending g rid f => some { s with ws := s.ws.setCall c (.waiting g rid f) }
          | _ => none
  | .sendFailed t e =>
      match s.awaiting t with
      | none => none
      | some c =>
          match s.ws.call c with
          | .sending g rid _ =>
              if UpstreamWs.raisedBySend e then
                { s with wire := s.wire.filter fun p => p.1 ≠ rid }.answer t c g rid (.error e)
              else none
          | _ => none
  | .receive =>
      match s.wire with
      | [] => none
      | (rid, call) :: rest =>
          if s.ws.connected ∧ s.ws.lost = none then
            some { s with wire := rest, node := s.node.receive rid call }
          else none
  | .expire t =>
      match s.awaiting t with
      | none => none
      | some c =>
          match s.ws.call c with
          | .waiting _ _ f => some { s with ws := s.ws.setFuture f .cancelled }
          | _ => none
  | .resume t =>
      match s.awaiting t with
      | none => none
      | some c =>
          match s.ws.call c with
          | .waiting g rid f =>
              match UpstreamWs.Future.outcome (s.ws.future f) with
              | some outcome => s.answer t c g rid outcome
              | none => none
          | _ => none
  | .connect =>
      if s.ws.runner = .away then
        if s.ws.connectedEvent then s.newConnection.manage .onReconnect else some s.newConnection
      else none
  -- what the socket still has to hand out is the inbox
  | .drop =>
      if s.ws.socket.isSome ∧ s.ws.lost = none then
        some { s with ws := { s.ws with lost := some [] }, node := s.node.lose }
      else none
  | .notice =>
      if s.ws.lost.isSome then some { s with ws := { s.ws with closed := true } } else none
  | .leave =>
      if s.ws.runner = .reading ∧ s.ws.closed = true then some { s with ws := s.ws.disconnected }
      else none
  | .arrive frame =>
      if s.ws.connected ∧ s.ws.lost = none then
        some { s with inbox := s.inbox ++ [frame], node := s.node.send frame }
      else none
  | .deliver =>
      match s.inbox with
      | [] => none
      | frame :: rest =>
          if s.ws.isReading then
            match frame with
            | .notification payload =>
                { s with inbox := rest }.manage (.onNotification payload)
            | _ => some { s with ws := s.ws.dispatch frame, inbox := rest }
          else none

end Service

end ExecRestApi
