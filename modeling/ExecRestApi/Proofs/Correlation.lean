/-
Which response reaches which call of `request`.

A `Traced` state keeps two things beside the socket: the responses received for the ids in
`_pending`, so that "the first one" can be said, and the next id at the latest loss of the
connection, so that the requests before the loss can be told from those after it.

A connection may be lost in silence.  Nothing has closed the socket then, requests are still
written to it, and what the connection had brought is still there to take.  `Stranded` is a call
that waits for an answer which cannot come any more, and `Lost` says what becomes of it: it is
stranded until it has raised `UpstreamWsClosed`.  The one way out is its time limit, which may be
over before the runner leaves the socket; while `on_reconnect` is awaited the runner does not look
at the socket at all, and `closed_unnoticed` is a run in which it is.

`Answered` is the invariant of the responses, `Lost` that of the calls without one, and
`correlation` reads both off at the end of a run.
-/
import ExecRestApi.Lib.Transition
import ExecRestApi.Proofs.UpstreamWs

namespace ExecRestApi

open Py Transition

/-- A response a call can take. -/
def Answer.wellFormed : Answer → Bool
  | .raises _ => false
  | _ => true

namespace UpstreamWs

/-! ### Calls whose connection has dropped

A connection may drop in silence: nothing has closed the socket yet, and frames that came
before may still be there to take.  A call under way then has lost its connection if no answer
of its own is among them.  Requests that begin later, on the dead socket, are told apart by
their ids; once the socket is closed it is over for every call. -/

/-- What `_run_forever` gives to the calls it leaves behind. -/
def closedExc : Exc := .upstreamWsClosed "ws disconnected"

/-- No answer for an id is left to take. -/
def Silent (depth : Nat) (rid : Int) (unread : List String) : Prop :=
  ∀ raw ∈ unread, ∀ answer, readFrame depth raw = .reply rid answer → answer.wellFormed = false

/-- The connection has dropped before the answer for an id came.  Ids from `lostAt` on were
given out after the loss. -/
def Down (s : UpstreamWs) (depth : Nat) (lostAt rid : Int) : Prop :=
  s.closed = true ∨ ∃ unread, s.lost = some unread ∧ rid < lostAt ∧ Silent depth rid unread

/-- A call that waits for an answer that cannot come: its future waits for the runner to leave
the socket, or holds `UpstreamWsClosed` already. -/
def Stranded (s : UpstreamWs) (depth : Nat) (lostAt : Int) (c : Nat) (rid : Int) : Prop :=
  ∃ g f, s.call c = .waiting g rid f
    ∧ (s.future f = .pending ∧ s.Down depth lostAt rid
      ∨ s.future f = .exception closedExc ∧ s.socket ≠ some g)

/-- A call that was stranded: it still is, or has raised `UpstreamWsClosed`. -/
def Lost (s : UpstreamWs) (depth : Nat) (lostAt : Int) (c : Nat) (rid : Int) : Prop :=
  s.Stranded depth lostAt c rid ∨ s.call c = .raised (some rid) closedExc

/-- The next id at the latest loss of a connection. -/
def lostAtAfter (s : UpstreamWs) (lostAt : Int) : Op → Int
  | .drop _ => s.nextId
  | _ => lostAt

section

variable {s : UpstreamWs} {depth : Nat} {lostAt : Int} {c : Nat} {rid : Int}

/-- A step of another call, which has another future. -/
theorem Lost.other {s' : UpstreamWs} (h : s.Lost depth lostAt c rid)
    (hcall : s'.call c = s.call c) (hsocket : s'.socket = s.socket)
    (hlost : s'.lost = s.lost) (hclosed : s'.closed = s.closed)
    (hfuture : ∀ g f, s.call c = .waiting g rid f → s'.future f = s.future f) :
    s'.Lost depth lostAt c rid := by
  rcases h with ⟨g, f, hc, hf⟩ | hc
  · refine .inl ⟨g, f, by rw [hcall]; exact hc, ?_⟩
    rw [hfuture g f hc, Down, hclosed, hlost, hsocket]
    exact hf
  · exact .inr (by rw [hcall]; exact hc)

theorem Lost.ne_fresh (h : s.Lost depth lostAt c rid) {j : Nat} (hj : s.call j = .fresh) :
    c ≠ j := by
  intro heq
  rw [← heq] at hj
  rcases h with ⟨g, f, hc, -⟩ | hc <;> rw [hj] at hc <;> cases hc

theorem Lost.ne_sending (h : s.Lost depth lostAt c rid) {j g : Nat} {rid' : Int} {f : Nat}
    (hj : s.call j = .sending g rid' f) : c ≠ j := by
  intro heq
  rw [← heq] at hj
  rcases h with ⟨g, f, hc, -⟩ | hc <;> rw [hj] at hc <;> cases hc

theorem Lost.request (h : s.Lost depth lostAt c rid) (hcorr : s.Correlated) {j : Nat}
    (hj : s.call j = .fresh) : (s.request j).Lost depth lostAt c rid := by
  have hcj := h.ne_fresh hj
  rw [UpstreamWs.request]
  split
  · refine h.other (Function.update_of_ne hcj ..) rfl rfl rfl ?_
    intro g f hc
    have hlt := hcorr.futureBound c g rid f (by rw [hc]; rfl)
    exact Function.update_of_ne (Nat.ne_of_lt hlt) ..
  · exact h.other (Function.update_of_ne hcj ..) rfl rfl rfl fun _ _ _ => rfl

/-- A future that is done stays as it is. -/
theorem dispatch_future_of_done {f : Nat} (hdone : s.future f ≠ .pending) (frame : Frame) :
    (s.dispatch frame).future f = s.future f := by
  have hset : ∀ f' x, s.future f' = .pending → (s.setFuture f' x).future f = s.future f := by
    intro f' x hf'
    apply Function.update_of_ne
    intro heq
    rw [heq] at hdone
    exact hdone hf'
  rw [UpstreamWs.dispatch.eq_def]
  split
  · rfl
  · rfl
  · rfl
  · split
    · rfl
    · split
      · rename_i hf'
        split
        · exact hset _ _ hf'
        · exact hset _ _ hf'
        · rfl
      · rfl

/-- A future waits on through every frame that is no answer under its id. -/
theorem Correlated.dispatch_future (hcorr : s.Correlated) {g f : Nat}
    (hc : s.call c = .waiting g rid f) (hf : s.future f = .pending) {frame : Frame}
    (hno : ∀ answer, frame = .reply rid answer → answer.wellFormed = false) :
    (s.dispatch frame).future f = .pending := by
  cases frame with
  | ignored => exact hf
  | notification payload => exact hf
  | breaks e => exact hf
  | reply rid' answer =>
      rw [UpstreamWs.dispatch]
      split
      · exact hf
      · rename_i f' hget
        split
        · have hset : ∀ x, answer.wellFormed = true → (s.setFuture f' x).future f = .pending := by
            intro x hwell
            have hne : f ≠ f' := by
              intro heq
              obtain ⟨j, g', hj⟩ := hcorr.entry rid' f' hget
              rw [← heq] at hj
              have hjc := hcorr.futureInj j c g' g rid' rid f hj (by rw [hc]; rfl)
              rw [hjc, hc] at hj
              cases hj
              rw [hno answer rfl] at hwell
              cases hwell
            show Function.update s.future f' x f = .pending
            rw [Function.update_of_ne hne]
            exact hf
          cases answer with
          | result v => exact hset _ rfl
          | error e => exact hset _ rfl
          | raises e => exact hf
        · exact hf

/-- A lost call gets nothing from the frames that are still taken: those of a lost connection
are no answers to it, those of a later one find its future done. -/
theorem Lost.deliver (h : s.Lost depth lostAt c rid) (hcorr : s.Correlated)
    (hreading : s.isReading = true) {raw : String} {lost : Option (List String)}
    (hraw : s.unreadAfter raw = some lost) :
    ({ s.dispatch (readFrame depth raw) with lost := lost } : UpstreamWs).Lost depth lostAt c rid := by
  obtain ⟨hcall, -, hsocket, -⟩ := dispatch_frame s (readFrame depth raw)
  rcases h with ⟨g, f, hc, ⟨hf, hclosed | ⟨unread, hunread, hlt, hsilent⟩⟩ | ⟨hf, hgone⟩⟩ | hc
  · rw [isReading, hclosed, Bool.not_true, Bool.and_false] at hreading
    cases hreading
  · rw [unreadAfter, hunread] at hraw
    cases unread with
    | nil => cases hraw
    | cons next rest =>
        dsimp only at hraw
        split at hraw
        · rename_i hnext
          cases hraw
          have hhead := hsilent next List.mem_cons_self
          rw [hnext] at hhead
          refine .inl ⟨g, f, by rw [hcall]; exact hc, .inl ⟨?_, .inr ⟨rest, rfl, hlt, ?_⟩⟩⟩
          · exact hcorr.dispatch_future hc hf hhead
          · exact fun raw' hmem => hsilent raw' (List.mem_cons_of_mem _ hmem)
        · cases hraw
  · refine .inl ⟨g, f, by rw [hcall]; exact hc, .inr ⟨?_, ?_⟩⟩
    · rw [dispatch_future_of_done (by rw [hf]; simp)]
      exact hf
    · show (s.dispatch (readFrame depth raw)).socket ≠ some g
      rw [hsocket]
      exact hgone
  · exact .inr (by rw [hcall]; exact hc)

/-- **A lost call stays lost until it has raised `UpstreamWsClosed`**, unless it is stranded and
its 30 seconds run out. -/
theorem Lost.step {s' : UpstreamWs} {op : Op} (h : s.Lost depth lostAt c rid)
    (hcorr : s.Correlated)
    (hok : ∀ j, op = .expire j → ∀ rid, ¬ s.Stranded depth lostAt j rid)
    (hs : s.step depth op = some s') : s'.Lost depth (s.lostAtAfter lostAt op) c rid := by
  cases effect_of_step hs with
  | requested hj => exact h.request hcorr hj
  | sent hj =>
      exact h.other (Function.update_of_ne (h.ne_sending hj) ..) rfl rfl rfl fun _ _ _ => rfl
  | sendFailed hj _ =>
      exact h.other (Function.update_of_ne (h.ne_sending hj) ..) rfl rfl rfl fun _ _ _ => rfl
  | @expired j g rid' f hj =>
      refine h.other rfl rfl rfl rfl ?_
      intro g' f' hc
      apply Function.update_of_ne
      intro hff
      -- the future is its own: it would be the call itself that expires
      have hjc := hcorr.futureInj c j g' g rid rid' f (by rw [hc, hff]; rfl) (by rw [hj]; rfl)
      rcases h with hstranded | hraised
      · rw [hjc] at hstranded
        exact hok j rfl rid hstranded
      · rw [hraised] at hc
        cases hc
  | @resumed j g rid' f outcome hj hf =>
      by_cases hcj : c = j
      · rw [← hcj] at hj ⊢
        rcases h with ⟨g', f', hc, hlost⟩ | hc
        · rw [hj] at hc
          cases hc
          rcases hlost with ⟨hpending, -⟩ | ⟨hexc, -⟩
          · rw [hpending] at hf
            cases hf
          · rw [hexc] at hf
            cases hf
            exact .inr (finish_call ..)
        · rw [hj] at hc
          cases hc
      · exact h.other (Function.update_of_ne hcj ..) rfl rfl rfl fun _ _ _ => rfl
  | connected haway =>
      rcases h with ⟨g, f, hc, ⟨hf, -⟩ | ⟨hf, -⟩⟩ | hc
      · have := (hcorr.own c g rid f (by rw [hc]; rfl) hf).2
        rw [hcorr.away haway] at this
        cases this
      · refine .inl ⟨g, f, hc, .inr ⟨hf, ?_⟩⟩
        have hlt := hcorr.callBound c g rid f (by rw [hc]; rfl)
        intro heq
        injection heq with heq
        exact absurd heq (Nat.ne_of_gt hlt)
      · exact .inr hc
  | reconnected _ =>
      rcases h with ⟨g, f, hc, ⟨hf, hclosed | hlost⟩ | hf⟩ | hc
      · refine .inl ⟨g, f, hc, .inl ⟨hf, .inl ?_⟩⟩
        rw [UpstreamWs.reconnected, hclosed, Bool.true_or]
      · exact .inl ⟨g, f, hc, .inl ⟨hf, .inr hlost⟩⟩
      · exact .inl ⟨g, f, hc, .inr hf⟩
      · exact .inr hc
  | delivered hreading hraw => exact h.deliver hcorr hreading hraw
  | dropped _ hnone =>
      rcases h with ⟨g, f, hc, ⟨hf, hclosed | ⟨unread, hunread, -⟩⟩ | hf⟩ | hc
      · exact .inl ⟨g, f, hc, .inl ⟨hf, .inl hclosed⟩⟩
      · rw [hnone] at hunread
        cases hunread
      · exact .inl ⟨g, f, hc, .inr hf⟩
      · exact .inr hc
  | noticed _ =>
      rcases h with ⟨g, f, hc, ⟨hf, -⟩ | hf⟩ | hc
      · exact .inl ⟨g, f, hc, .inl ⟨hf, .inl rfl⟩⟩
      · exact .inl ⟨g, f, hc, .inr hf⟩
      · exact .inr hc
  | left _ _ =>
      rcases h with ⟨g, f, hc, ⟨hf, -⟩ | ⟨hf, -⟩⟩ | hc
      · refine .inl ⟨g, f, hc, .inr ⟨?_, nofun⟩⟩
        have hmem : f ∈ s.pending.values :=
          Dict.mem_values.mpr ⟨rid, (hcorr.own c g rid f (by rw [hc]; rfl) hf).1⟩
        rw [disconnected_future, if_pos ⟨hmem, hf⟩]
        rfl
      · refine .inl ⟨g, f, hc, .inr ⟨?_, nofun⟩⟩
        rw [disconnected_future, if_neg (by rw [hf]; simp)]
        exact hf
      · exact .inr hc

end

end UpstreamWs

/-! ### The responses received -/

/-- The socket with the well-formed responses received for the ids in `_pending`, and the next
id at the latest loss of a connection. -/
structure Traced where
  ws : UpstreamWs
  received : List (Int × Answer)
  lostAt : Int

namespace Traced

open UpstreamWs

def init : Traced := ⟨UpstreamWs.init, [], 1⟩

/-- The responses received once a frame has been dispatched. -/
def receivedAfter (s : Traced) : Frame → List (Int × Answer)
  | .reply rid answer =>
      if answer.wellFormed ∧ (s.ws.pending.get? rid).isSome then s.received ++ [(rid, answer)]
      else s.received
  | _ => s.received

/-- One step. -/
def step (depth : Nat) (s : Traced) (op : UpstreamWs.Op) : Option Traced :=
  (s.ws.step depth op).map fun ws =>
    ⟨ws, match op with
      | .deliver raw => s.receivedAfter (readFrame depth raw)
      | _ => s.received, s.ws.lostAtAfter s.lostAt op⟩

/-- No call times out that waits for an answer its connection dropped before. -/
def Timely (depth : Nat) (s : Traced) (op : UpstreamWs.Op) : Prop :=
  ∀ c, op = .expire c → ∀ rid, ¬ s.ws.Stranded depth s.lostAt c rid

/-- The first response received for an id. -/
def first (received : List (Int × Answer)) (rid : Int) : Option Answer :=
  (received.find? fun p => p.1 = rid).map Prod.snd

theorem first_append (received : List (Int × Answer)) (rid : Int) (p : Int × Answer) :
    first (received ++ [p]) rid
      = match first received rid with
        | some a => some a
        | none => if p.1 = rid then some p.2 else none := by
  rw [first, first, List.find?_append]
  rcases hq : received.find? fun q => decide (q.1 = rid) with _ | q
  · rw [hq]
    by_cases hp : p.1 = rid
    · simp [hp]
    · simp [hp]
  · rw [hq]
    rfl

/-- The response a future holds. -/
def held : Future → Option Answer
  | .result v => some (.result v)
  | .exception (.upstreamWsJsonRpcError code message data) =>
      some (.error (.upstreamWsJsonRpcError code message data))
  | _ => none

/-- The response a call has ended with. -/
def taken : Call → Option (Int × Answer)
  | .returned rid v => some (rid, .result v)
  | .raised (some rid) (.upstreamWsJsonRpcError code message data) =>
      some (rid, .error (.upstreamWsJsonRpcError code message data))
  | _ => none

/-- A failure to send is no response. -/
theorem taken_of_raisedBySend {e : Exc} (he : raisedBySend e = true) (rid : Int) :
    taken (.raised (some rid) e) = none := by
  cases e <;> first | rfl | cases he

/-- Every response that a future holds or a call ended with is the first for its id. -/
structure Answered (s : Traced) : Prop where
  correlated : s.ws.Correlated
  bound : ∀ rid, s.ws.nextId ≤ rid → first s.received rid = none
  untouched : ∀ c g rid f, (s.ws.call c).inFlight = some (g, rid, f) → s.ws.future f = .pending →
    first s.received rid = none
  holds : ∀ c g rid f a, (s.ws.call c).inFlight = some (g, rid, f) → held (s.ws.future f) = some a →
    first s.received rid = some a
  takes : ∀ c rid a, taken (s.ws.call c) = some (rid, a) → first s.received rid = some a

section

variable {s s' : Traced} {lostAt : Int}

/-- A step without a new call or a new response. -/
theorem Answered.frame (h : s.Answered) (hcorr : s'.ws.Correlated)
    (hrec : s'.received = s.received) (hnext : s'.ws.nextId = s.ws.nextId)
    (hfly : ∀ c x, (s'.ws.call c).inFlight = some x → (s.ws.call c).inFlight = some x)
    (hpending : ∀ f, s'.ws.future f = .pending → s.ws.future f = .pending)
    (hheld : ∀ f a, held (s'.ws.future f) = some a → held (s.ws.future f) = some a)
    (htaken : ∀ c rid a, taken (s'.ws.call c) = some (rid, a) →
      taken (s.ws.call c) = some (rid, a)
        ∨ ∃ g f, (s.ws.call c).inFlight = some (g, rid, f) ∧ held (s.ws.future f) = some a) :
    s'.Answered := by
  refine ⟨hcorr, ?_, ?_, ?_, ?_⟩
  · intro rid hrid
    rw [hrec]
    rw [hnext] at hrid
    exact h.bound rid hrid
  · intro c g rid f hc hf
    rw [hrec]
    exact h.untouched c g rid f (hfly c _ hc) (hpending f hf)
  · intro c g rid f a hc hf
    rw [hrec]
    exact h.holds c g rid f a (hfly c _ hc) (hheld f a hf)
  · intro c rid a hc
    rw [hrec]
    rcases htaken c rid a hc with hold | ⟨g, f, hfc, hf⟩
    · exact h.takes c rid a hold
    · exact h.holds c g rid f a hfc hf

/-- A step that touches no call and no future that is not done. -/
theorem Answered.idle (h : s.Answered) (hcorr : s'.ws.Correlated)
    (hrec : s'.received = s.received) (hnext : s'.ws.nextId = s.ws.nextId)
    (hcall : s'.ws.call = s.ws.call) (hpending : ∀ f, s'.ws.future f = .pending → s.ws.future f = .pending)
    (hheld : ∀ f a, held (s'.ws.future f) = some a → held (s.ws.future f) = some a) :
    s'.Answered := by
  refine h.frame hcorr hrec hnext ?_ hpending hheld ?_
  · intro c x hx
    rwa [hcall] at hx
  · intro c rid a hc
    rw [hcall] at hc
    exact .inl hc

/-- A future is done without a response. -/
theorem held_update {future : Nat → Future} {f : Nat} {x : Future} (hx : x ≠ .pending)
    (hheld : held x = none) :
    (∀ f', Function.update future f x f' = .pending → future f' = .pending)
      ∧ ∀ f' a, held (Function.update future f x f') = some a → held (future f') = some a := by
  constructor
  · intro f' hf
    by_cases hff : f' = f
    · rw [hff, Function.update_self] at hf
      exact absurd hf hx
    · rwa [Function.update_of_ne hff] at hf
  · intro f' a hf
    by_cases hff : f' = f
    · rw [hff, Function.update_self, hheld] at hf
      cases hf
    · rwa [Function.update_of_ne hff] at hf

/-- A call ends with what its future held, or without a response. -/
theorem Answered.finish (h : s.Answered) {c g : Nat} {rid : Int} {f : Nat} {outcome : Except Exc Json}
    (hc : (s.ws.call c).inFlight = some (g, rid, f))
    (hout : ∀ a, taken ((s.ws.finish c rid outcome).call c) = some (rid, a) →
      held (s.ws.future f) = some a) : Answered ⟨s.ws.finish c rid outcome, s.received, lostAt⟩ := by
  have hself := finish_call s.ws c rid outcome
  have hother : ∀ j, j ≠ c → (s.ws.finish c rid outcome).call j = s.ws.call j := by
    intro j hj
    exact Function.update_of_ne hj ..
  refine h.frame (h.correlated.finish hc outcome) rfl rfl ?_ (fun _ hf => hf) (fun _ _ hf => hf) ?_
  · intro j x hx
    by_cases hj : j = c
    · replace hx : ((s.ws.finish c rid outcome).call j).inFlight = some x := hx
      rw [hj, hself] at hx
      cases outcome <;> cases hx
    · rwa [← hother j hj]
  · intro j r a ha
    replace ha : taken ((s.ws.finish c rid outcome).call j) = some (r, a) := ha
    by_cases hj : j = c
    · rw [hj] at ha
      have hr : r = rid := by
        rw [hself] at ha
        cases outcome with
        | ok v =>
            injection ha with ha
            injection ha with hr _
            exact hr.symm
        | error e =>
            cases e <;> cases ha
            rfl
      rw [hr] at ha ⊢
      rw [hj]
      exact .inr ⟨g, f, hc, hout a ha⟩
    · rw [hother j hj] at ha
      exact .inl ha

/-- A call starts under an id that no response has come for. -/
theorem Answered.request (h : s.Answered) {c : Nat} (hc : s.ws.call c = .fresh) :
    Answered ⟨s.ws.request c, s.received, lostAt⟩ := by
  have hcorr := h.correlated.request hc
  have hnotaken : ∀ (x : Call) (call : Nat → Call), taken x = none →
      ∀ j rid a, taken (Function.update call c x j) = some (rid, a) →
        taken (call j) = some (rid, a) := by
    intro x call hx j rid a ha
    by_cases hj : j = c
    · rw [hj, Function.update_self, hx] at ha
      cases ha
    · rwa [Function.update_of_ne hj] at ha
  rw [UpstreamWs.request] at hcorr ⊢
  split at hcorr
  · rename_i g hg hclosed
    have hfly : ∀ j g' rid f, (Function.update s.ws.call c
        (.sending g s.ws.nextId s.ws.nextFuture) j).inFlight = some (g', rid, f) →
        rid = s.ws.nextId ∧ f = s.ws.nextFuture
          ∨ (s.ws.call j).inFlight = some (g', rid, f) ∧ f ≠ s.ws.nextFuture := by
      intro j g' rid f hj
      by_cases hjc : j = c
      · rw [hjc, Function.update_self] at hj
        cases hj
        exact .inl ⟨rfl, rfl⟩
      · rw [Function.update_of_ne hjc] at hj
        exact .inr ⟨hj, Nat.ne_of_lt (h.correlated.futureBound j g' rid f hj)⟩
    refine ⟨hcorr, ?_, ?_, ?_, ?_⟩
    · intro rid hrid
      replace hrid : s.ws.nextId + 1 ≤ rid := hrid
      exact h.bound rid (by omega)
    · intro j g' rid f hj hf
      replace hf : Function.update s.ws.future s.ws.nextFuture .pending f = .pending := hf
      rcases hfly j g' rid f hj with ⟨hrid, -⟩ | ⟨hold, hne⟩
      · rw [hrid]
        exact h.bound _ (Int.le_refl _)
      · rw [Function.update_of_ne hne] at hf
        exact h.untouched j g' rid f hold hf
    · intro j g' rid f a hj hf
      replace hf : held (Function.update s.ws.future s.ws.nextFuture .pending f) = some a := hf
      rcases hfly j g' rid f hj with ⟨-, hff⟩ | ⟨hold, hne⟩
      · rw [hff, Function.update_self] at hf
        cases hf
      · rw [Function.update_of_ne hne] at hf
        exact h.holds j g' rid f a hold hf
    · intro j rid a ha
      exact h.takes j rid a (hnotaken _ s.ws.call rfl j rid a ha)
  · refine h.frame hcorr rfl rfl ?_ (fun _ hf => hf) (fun _ _ hf => hf) ?_
    · intro j x hx
      replace hx : (Function.update s.ws.call c _ j).inFlight = some x := hx
      by_cases hj : j = c
      · rw [hj, Function.update_self] at hx
        cases hx
      · rwa [Function.update_of_ne hj] at hx
    · intro j rid a ha
      exact .inl (hnotaken _ s.ws.call rfl j rid a ha)

/-- What was first stays first. -/
theorem first_mono {received : List (Int × Answer)} {rid : Int} {a : Answer} (p : Int × Answer)
    (h : first received rid = some a) : first (received ++ [p]) rid = some a := by
  rw [first_append, h]

/-- A response comes for an id in `_pending`.  It is the first if the future was not done. -/
theorem Answered.receive (h : s.Answered) {c g : Nat} {rid : Int} {f : Nat}
    (hc : (s.ws.call c).inFlight = some (g, rid, f)) (answer : Answer) {x : Future}
    (hx : x ≠ .pending)
    (hold : s.ws.future f = .pending ∧ (∀ a, held x = some a → a = answer) ∨ s.ws.future f = x) :
    Answered ⟨s.ws.setFuture f x, s.received ++ [(rid, answer)], s.lostAt⟩ := by
  have hself : (s.ws.setFuture f x).future f = x := Function.update_self ..
  have hother : ∀ f', f' ≠ f → (s.ws.setFuture f x).future f' = s.ws.future f' := by
    intro f' hf
    exact Function.update_of_ne hf ..
  have hridc := Call.rid_of_inFlight hc
  refine ⟨h.correlated.setFuture f hx, ?_, ?_, ?_, ?_⟩
  · intro rid' hrid
    have hlt := h.correlated.ridBound c rid hridc
    replace hrid : s.ws.nextId ≤ rid' := hrid
    rw [first_append, h.bound rid' hrid]
    exact if_neg (by show rid ≠ rid'; omega)
  · intro j g' rid' f' hj hf
    replace hj : (s.ws.call j).inFlight = some (g', rid', f') := hj
    have hff : f' ≠ f := by
      intro heq
      rw [heq, hself] at hf
      exact hx hf
    rw [hother f' hff] at hf
    rw [first_append, h.untouched j g' rid' f' hj hf]
    apply if_neg
    intro heq
    replace heq : rid = rid' := heq
    have hjc := h.correlated.ridInj j c rid' (Call.rid_of_inFlight hj) (by rw [← heq]; exact hridc)
    rw [hjc, hc] at hj
    cases hj
    exact hff rfl
  · intro j g' rid' f' a hj ha
    replace hj : (s.ws.call j).inFlight = some (g', rid', f') := hj
    by_cases hff : f' = f
    · rw [hff] at hj ha
      have hjc := h.correlated.futureInj j c g' g rid' rid f hj hc
      rw [hjc, hc] at hj
      cases hj
      rcases hold with ⟨hpending, hanswer⟩ | hsame
      · rw [hself] at ha
        rw [first_append, h.untouched c g rid f hc hpending, hanswer a ha]
        exact if_pos rfl
      · rw [hself, ← hsame] at ha
        exact first_mono _ (h.holds c g rid f a hc ha)
    · rw [hother f' hff] at ha
      exact first_mono _ (h.holds j g' rid' f' a hj ha)
  · intro j rid' a ha
    exact first_mono _ (h.takes j rid' a ha)

theorem Answered.deliver (h : s.Answered) (frame : Frame) :
    Answered ⟨s.ws.dispatch frame, s.receivedAfter frame, s.lostAt⟩ := by
  have hsame : ∀ b, Answered ⟨{ s.ws with closed := b }, s.received, s.lostAt⟩ := by
    intro b
    exact h.idle (h.correlated.setRunner id) rfl rfl rfl (fun _ hf => hf) fun _ _ hf => hf
  cases frame with
  | ignored => exact h
  | notification payload => exact h
  | breaks e => exact hsame true
  | reply rid answer =>
      rw [UpstreamWs.dispatch, receivedAfter]
      rcases hget : s.ws.pending.get? rid with _ | f
      · rw [if_neg (by simp)]
        exact h
      · obtain ⟨c, g, hc⟩ := h.correlated.entry rid f hget
        dsimp only
        split
        · rename_i hpending
          cases answer with
          | result v =>
              rw [if_pos ⟨rfl, rfl⟩]
              refine h.receive hc _ nofun (.inl ⟨hpending, ?_⟩)
              intro a ha
              cases ha
              rfl
          | error e =>
              rw [if_pos ⟨rfl, rfl⟩]
              refine h.receive hc _ nofun (.inl ⟨hpending, ?_⟩)
              intro a ha
              cases e <;> cases ha
              rfl
          | raises e =>
              rw [if_neg (by simp [Answer.wellFormed])]
              exact hsame true
        · rename_i hdone
          have hkeep : s.ws.setFuture f (s.ws.future f) = s.ws := by
            rw [setFuture, Function.update_eq_self]
          split
          · have := h.receive hc answer hdone (.inr rfl)
            rwa [hkeep] at this
          · exact h

/-- **Every step keeps the responses in order.** -/
theorem Answered.step {depth : Nat} {op : UpstreamWs.Op} (h : s.Answered)
    (hs : s.step depth op = some s') : s'.Answered := by
  obtain ⟨ws, hws, heq⟩ := Option.map_eq_some_iff.mp hs
  have hcorr := h.correlated.step hws
  cases effect_of_step hws with
  | requested hc =>
      rw [← heq]
      exact h.request hc
  | @sent c g rid f hc =>
      rw [← heq]
      refine h.frame hcorr rfl rfl ?_ (fun _ hf => hf) (fun _ _ hf => hf) ?_
      · intro j x hx
        replace hx : (Function.update s.ws.call c (.waiting g rid f) j).inFlight = some x := hx
        by_cases hj : j = c
        · rw [hj, Function.update_self] at hx
          rw [hj, hc]
          exact hx
        · rwa [Function.update_of_ne hj] at hx
      · intro j rid' a ha
        replace ha : taken (Function.update s.ws.call c (.waiting g rid f) j) = some (rid', a) := ha
        by_cases hj : j = c
        · rw [hj, Function.update_self] at ha
          cases ha
        · rw [Function.update_of_ne hj] at ha
          exact .inl ha
  | sendFailed hc he =>
      rw [← heq]
      refine h.finish (by rw [hc]; rfl) ?_
      intro a ha
      rw [finish_call, ending, taken_of_raisedBySend he] at ha
      cases ha
  | @expired c g rid f hc =>
      rw [← heq]
      obtain ⟨hpending, hheld⟩ := @held_update s.ws.future f .cancelled nofun rfl
      exact h.idle hcorr rfl rfl rfl hpending hheld
  | @resumed c g rid f outcome hc hf =>
      rw [← heq]
      refine h.finish (by rw [hc]; rfl) ?_
      intro a ha
      rw [finish_call] at ha
      rcases hfut : s.ws.future f with _ | v | e | _
      · rw [hfut] at hf
        cases hf
      · rw [hfut] at hf
        cases hf
        cases ha
        rfl
      · rw [hfut] at hf
        cases hf
        cases e <;> cases ha
        rfl
      · rw [hfut] at hf
        cases hf
        cases ha
  | connected _ =>
      rw [← heq]
      exact h.idle hcorr rfl rfl rfl (fun _ hf => hf) fun _ _ hf => hf
  | reconnected _ =>
      rw [← heq]
      exact h.idle hcorr rfl rfl rfl (fun _ hf => hf) fun _ _ hf => hf
  | delivered _ _ =>
      rw [← heq]
      exact (h.deliver _).idle hcorr rfl rfl rfl (fun _ hf => hf) fun _ _ hf => hf
  | dropped _ _ =>
      rw [← heq]
      exact h.idle hcorr rfl rfl rfl (fun _ hf => hf) fun _ _ hf => hf
  | noticed _ =>
      rw [← heq]
      exact h.idle hcorr rfl rfl rfl (fun _ hf => hf) fun _ _ hf => hf
  | left _ _ =>
      rw [← heq]
      refine h.idle hcorr rfl rfl rfl ?_ ?_
      · intro f hf
        replace hf : s.ws.disconnected.future f = .pending := hf
        rw [disconnected_future] at hf
        split at hf
        · cases hf
        · exact hf
      · intro f a hf
        replace hf : held (s.ws.disconnected.future f) = some a := hf
        rw [disconnected_future] at hf
        split at hf
        · cases hf
        · exact hf

end

theorem answered_init : init.Answered := by
  refine ⟨correlated_init, ?_, ?_, ?_, ?_⟩
  · intro rid _
    rfl
  · intro c g rid f hc
    cases hc
  · intro c g rid f a hc
    cases hc
  · intro c rid a hc
    cases hc

theorem answered_of_run {depth : Nat} {ok : Traced → UpstreamWs.Op → Prop} {s s' : Traced}
    {ls : List UpstreamWs.Op} (h : Run (Traced.step depth) ok s ls s') (hs : s.Answered) :
    s'.Answered :=
  h.preserves (fun _ _ _ hi _ hstep => hi.step hstep) hs

/-- From here on, every call that waits for an answer its connection dropped before ends with
`UpstreamWsClosed` only. -/
def FailsOnClose (depth : Nat) (ok : Traced → UpstreamWs.Op → Prop) (s : Traced) : Prop :=
  ∀ c g rid f, s.ws.call c = .waiting g rid f → s.ws.future f = .pending →
    s.ws.Down depth s.lostAt rid →
      ∀ ls t, Run (Traced.step depth) ok s ls t → t.ws.Lost depth t.lostAt c rid

theorem failsOnClose {depth : Nat} {s : Traced} (hs : s.Answered) :
    FailsOnClose depth (Timely depth) s := by
  intro c g rid f hc hf hdown ls t hrun
  have hlost : s.ws.Lost depth s.lostAt c rid := .inl ⟨g, f, hc, .inl ⟨hf, hdown⟩⟩
  have hboth : t.Answered ∧ t.ws.Lost depth t.lostAt c rid := by
    refine hrun.preserves (I := fun s => s.Answered ∧ s.ws.Lost depth s.lostAt c rid) ?_ ⟨hs, hlost⟩
    intro u op u' hu hok hstep
    obtain ⟨ws, hws, heq⟩ := Option.map_eq_some_iff.mp hstep
    refine ⟨hu.1.step hstep, ?_⟩
    rw [← heq]
    exact hu.2.step hu.1.correlated hok hws
  exact hboth.2

/-- **Requests and responses are correlated, as long as no call times out once its connection has
dropped.**  No two calls share an id; what a call returns or raises is the first response
received for its id; a call whose future is not done has its own entry in `_pending`, one that
is over has none; and a call that waits when its connection drops ends with `UpstreamWsClosed`
only. -/
theorem correlation {depth : Nat} {ls : List UpstreamWs.Op} {s : Traced}
    (h : Run (Traced.step depth) (Timely depth) init ls s) :
    (∀ c c' rid, (s.ws.call c).rid = some rid → (s.ws.call c').rid = some rid → c = c')
      ∧ (∀ c rid v, s.ws.call c = .returned rid v → first s.received rid = some (.result v))
      ∧ (∀ c rid code message data,
          s.ws.call c = .raised (some rid) (.upstreamWsJsonRpcError code message data) →
          first s.received rid = some (.error (.upstreamWsJsonRpcError code message data)))
      ∧ (∀ c g rid f, (s.ws.call c).inFlight = some (g, rid, f) → s.ws.future f = .pending →
          s.ws.pending.get? rid = some f)
      ∧ (∀ c rid, (s.ws.call c).rid = some rid → (s.ws.call c).inFlight = none →
          s.ws.pending.get? rid = none)
      ∧ FailsOnClose depth (Timely depth) s := by
  have hs := answered_of_run h answered_init
  refine ⟨hs.correlated.ridInj, ?_, ?_, ?_, ?_, failsOnClose hs⟩
  · intro c rid v hc
    exact hs.takes c rid _ (by rw [hc]; rfl)
  · intro c rid code message data hc
    exact hs.takes c rid _ (by rw [hc]; rfl)
  · intro c g rid f hc hf
    exact (hs.correlated.own c g rid f hc hf).1
  · intro c rid hrid hnone
    rcases hget : s.ws.pending.get? rid with _ | f
    · rfl
    · obtain ⟨j, g, hj⟩ := hs.correlated.entry rid f hget
      have := hs.correlated.ridInj j c rid (Call.rid_of_inFlight hj) hrid
      rw [this, hnone] at hj
      cases hj

/-- A request has been sent. -/
def asking : Traced :=
  (exec (Traced.step 9) init [.connect, .request 0, .sent 0]).getD init

theorem correlation_once : ∃ s : Traced, s.ws.call 0 = .returned 1 (.str "0xa")
    ∧ first s.received 1 = some (.result (.str "0xa")) ∧ s.ws.pending.get? 1 = none := by
  have hframe : readFrame 9 "\x7b\"id\": 1, \"result\": \"0xa\"\x7d"
      = .reply 1 (.result (.str "0xa")) := by
    decide +kernel
  let s₁ : Traced :=
    ⟨asking.ws.setFuture 0 (.result (.str "0xa")), [(1, .result (.str "0xa"))], 1⟩
  have hdeliver : asking.step 9 (.deliver "\x7b\"id\": 1, \"result\": \"0xa\"\x7d")
      = some s₁ := by
    show some (Traced.mk { asking.ws.dispatch (readFrame 9 _) with lost := none }
      (asking.receivedAfter (readFrame 9 _)) 1) = some s₁
    rw [hframe]
    rfl
  have htimely : ∀ s op, (∀ c, op ≠ .expire c) → Timely 9 s op := by
    intro s op hop c heq
    exact absurd heq (hop c)
  have hrun : Run (Traced.step 9) (Timely 9) init
      [.connect, .request 0, .sent 0, .deliver "\x7b\"id\": 1, \"result\": \"0xa\"\x7d",
        .resume 0] ⟨s₁.ws.finish 0 1 (.ok (.str "0xa")), s₁.received, 1⟩ :=
    .cons rfl (htimely _ _ nofun) (.cons rfl (htimely _ _ nofun) (.cons rfl (htimely _ _ nofun)
      (.cons hdeliver (htimely _ _ nofun) (.cons rfl (htimely _ _ nofun) (.nil _)))))
  obtain ⟨-, hreturned, -, -, hover, -⟩ := correlation hrun
  exact ⟨_, rfl, hreturned 0 1 _ rfl, hover 0 1 rfl rfl⟩

/-- A connection is lost while `on_reconnect` is awaited: nobody reads from the socket, so nobody
leaves it, and a request times out instead. -/
theorem closed_unnoticed : ¬ ∀ (ls : List UpstreamWs.Op) (s : Traced),
    Run (Traced.step 1000) unguarded init ls s → FailsOnClose 1000 unguarded s := by
  intro h
  have hopen : Run (Traced.step 1000) unguarded init
      [.connect, .drop [], .notice, .leave, .connect, .request 0, .sent 0, .drop []] _ :=
    run_of_exec rfl
  have hlost := h _ _ hopen 0 1 1 0 rfl rfl (.inr ⟨[], rfl, by decide, by simp [Silent]⟩)
    [.expire 0, .resume 0] _ (run_of_exec rfl)
  rcases hlost with ⟨g, f, hc, -⟩ | hc <;> cases hc

end Traced

end ExecRestApi
