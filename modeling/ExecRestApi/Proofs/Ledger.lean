/-
The requests of the service and what the upstream makes of them.

`Ledger` follows a request from the task that writes it to the frame that answers it, as
long as the upstream is `Honest`: every id is on its way, received or answered, never two of
these, and what the future of a task holds is what the upstream opened for it.

It is used for what nobody sees while it happens: that a subscription which the upstream has
opened is known to a task, or that an answer which comes too late leaves one behind.  `Honest`
asks of the upstream that it answers what it was asked, once, with ids of its own; nothing is
asked of the order in which it does.

The lemmas follow the steps of the service.  A frame is taken, dispatched, or lost with its
connection, and a call that ends takes its id with it.
-/
import ExecRestApi.Proofs.Service

namespace ExecRestApi

open Py Transition

namespace Node

/-- The subscription an answer opens. -/
def opens (rid : Int) (call : RpcCall) : Answer → List Opened
  | .result v => if call.method = "eth_subscribe" then [⟨rid, v, call⟩] else []
  | _ => []

theorem mem_opens {rid : Int} {call : RpcCall} {answer : Answer} {o : Opened}
    (h : o ∈ opens rid call answer) : o.rid = rid ∧ o.call = call ∧ call.method = "eth_subscribe"
      ∧ answer = .result o.subId := by
  cases answer with
  | result v =>
      rw [opens] at h
      split at h
      · rename_i hmethod
        rw [List.mem_singleton.mp h]
        exact ⟨rfl, rfl, hmethod, rfl⟩
      · cases h
  | error e => cases h
  | raises e => cases h

/-- Nothing the upstream opened on the connection is forgotten. -/
theorem opened_send (n : Node) (frame : Frame) {o : Opened} (ho : o ∈ n.opened) :
    o ∈ (n.send frame).opened := by
  rw [send.eq_def]
  split
  · split
    · exact ho
    · dsimp only
      split
      · split
        · exact List.mem_append_left _ ho
        · exact ho
      · exact ho
  · exact ho

/-- What the upstream does when it answers a request it has received. -/
theorem send_reply {n : Node} {rid : Int} {call : RpcCall} (answer : Answer)
    (h : (n.received.find? fun p => p.1 = rid) = some (rid, call)) :
    n.send (.reply rid answer) =
      { received := n.received.filter fun p => p.1 ≠ rid
        opened := n.opened ++ opens rid call answer
        alive := n.alive ++ opens rid call answer
        given := n.given ++ (opens rid call answer).map Opened.subId } := by
  rw [send, h]
  dsimp only
  cases answer with
  | result v =>
      dsimp only
      rw [opens]
      split
      · rfl
      · simp
  | error e => simp [opens]
  | raises e => simp [opens]

end Node

namespace Service

/-- The upstream answers requests it has received, each once, and an `eth_subscribe` with an id
it has not given before. -/
def Honest (s : Service) : Op → Prop
  | .arrive (.reply rid answer) =>
      ∃ p ∈ s.node.received, p.1 = rid ∧ ∀ o ∈ Node.opens rid p.2 answer,
        ∃ x, o.subId = .str x ∧ o.subId ∉ s.node.given
  | _ => True

/-- The requests that the upstream has not answered. -/
def requests (s : Service) : List (Int × RpcCall) := s.wire ++ s.node.received

/-- What holds of the requests and their answers. -/
structure Ledger (s : Service) : Prop where
  asked : ∀ p ∈ s.requests, s.asked p.1 = some p.2 ∧ p.1 < s.ws.nextId
  once : (s.requests.map Prod.fst).Nodup
  replied : ∀ rid answer, .reply rid answer ∈ s.inbox → rid < s.ws.nextId
    ∧ rid ∉ s.requests.map Prod.fst
    ∧ ∀ call, s.asked rid = some call → ∀ o ∈ Node.opens rid call answer, o ∈ s.node.opened
  opened : ∀ o ∈ s.node.opened, o.rid < s.ws.nextId ∧ o.rid ∉ s.requests.map Prod.fst
    ∧ s.asked o.rid = some o.call ∧ o.call.method = "eth_subscribe"
    ∧ (∃ x, o.subId = .str x) ∧ o.subId ∈ s.node.given
  distinct : ∀ o ∈ s.node.opened, ∀ o' ∈ s.node.opened, o.subId = o'.subId ∨ o.rid = o'.rid →
    o = o'
  answered : ∀ c g rid f v call, (s.ws.call c).inFlight = some (g, rid, f) →
    s.ws.future f = .result v → s.ws.socket = some g → s.asked rid = some call →
    call.method = "eth_subscribe" → ⟨rid, v, call⟩ ∈ s.node.opened
  alive : ∀ o ∈ s.node.alive, o ∈ s.node.opened

section

variable {s s' : Service}

/-- What is still to be answered stays or shrinks, and so do the calls under way. -/
theorem Ledger.shrink (h : Ledger s) (hrequests : (s'.requests.map Prod.fst).Nodup)
    (hsub : ∀ p ∈ s'.requests, p ∈ s.requests) (hasked : s'.asked = s.asked)
    (hnext : s'.ws.nextId = s.ws.nextId) (hinbox : ∀ frame ∈ s'.inbox, frame ∈ s.inbox)
    (hopened : s'.node.opened = s.node.opened) (hgiven : s'.node.given = s.node.given)
    (halive : ∀ o ∈ s'.node.alive, o ∈ s.node.alive)
    (hanswered : ∀ c g rid f v call, (s'.ws.call c).inFlight = some (g, rid, f) →
      s'.ws.future f = .result v → s'.ws.socket = some g → s.asked rid = some call →
      call.method = "eth_subscribe" → ⟨rid, v, call⟩ ∈ s.node.opened) : Ledger s' := by
  have hnot : ∀ {rid : Int}, rid ∉ s.requests.map Prod.fst → rid ∉ s'.requests.map Prod.fst := by
    intro rid hrid hmem
    obtain ⟨p, hp, heq⟩ := List.mem_map.mp hmem
    exact hrid (List.mem_map.mpr ⟨p, hsub p hp, heq⟩)
  refine ⟨?_, hrequests, ?_, ?_, ?_, ?_, ?_⟩
  · intro p hp
    rw [hasked, hnext]
    exact h.asked p (hsub p hp)
  · intro rid answer hr
    obtain ⟨hlt, hfree, hopens⟩ := h.replied rid answer (hinbox _ hr)
    rw [hasked, hnext, hopened]
    exact ⟨hlt, hnot hfree, hopens⟩
  · intro o ho
    rw [hopened] at ho
    obtain ⟨hlt, hfree, hrest⟩ := h.opened o ho
    rw [hasked, hnext, hgiven]
    exact ⟨hlt, hnot hfree, hrest⟩
  · rw [hopened]
    exact h.distinct
  · rw [hasked, hopened]
    exact hanswered
  · intro o ho
    rw [hopened]
    exact h.alive o (halive o ho)

/-- A call under way after a segment was under way before or has just been issued. -/
theorem Managed.fly_cases {op : Manager.Op} (h : Ready s op) (hm : Managed s op s') {c g f : Nat}
    {rid : Int} (hc : (s'.ws.call c).inFlight = some (g, rid, f)) :
    (s.ws.call c).inFlight = some (g, rid, f) ∧ s'.ws.future f = s.ws.future f
        ∧ s'.asked rid = s.asked rid
      ∨ s'.ws.future f = .pending := by
  rcases hm.calls with ⟨hq, -⟩ | ⟨t, call, g', -, hi⟩
  · rw [hq.calls] at hc
    rw [hq.future, hq.asked]
    exact .inl ⟨hc, rfl, rfl⟩
  · by_cases hcn : c = s.nextCall
    · rw [hcn, hi.call.1] at hc
      cases hc
      exact .inr hi.call.2.1
    · rw [hi.calls, Function.update_of_ne hcn] at hc
      obtain ⟨-, hfut, hask⟩ := hm.call_eq h hc
      exact .inl ⟨hc, hfut, hask⟩

/-- A segment of the manager writes at most one request. -/
theorem Ledger.managed (h : Ledger s) {op : Manager.Op} (hready : Ready s op)
    (hm : Managed s op s') : Ledger s' := by
  have hanswered : ∀ c g rid f v call, (s'.ws.call c).inFlight = some (g, rid, f) →
      s'.ws.future f = .result v → s'.ws.socket = some g → s'.asked rid = some call →
      call.method = "eth_subscribe" → ⟨rid, v, call⟩ ∈ s.node.opened := by
    intro c g rid f v call hc hf hg hasked hmethod
    rw [hm.same.socket] at hg
    rcases hm.fly_cases hready hc with ⟨hc', hfut, hask⟩ | hpending
    · rw [hfut] at hf
      rw [hask] at hasked
      exact h.answered c g rid f v call hc' hf hg hasked hmethod
    · rw [hpending] at hf
      cases hf
  rcases hm.calls with ⟨hq, -⟩ | ⟨t, call, g, -, hi⟩
  · have hrequests : s'.requests = s.requests := by
      rw [requests, requests, hq.wire, hm.node]
    rw [hq.asked] at hanswered
    refine h.shrink ?_ ?_ hq.asked hq.nextId ?_ ?_ ?_ ?_ hanswered
    · rw [hrequests]
      exact h.once
    · rw [hrequests]
      exact fun _ => id
    · rw [hm.inbox]
      exact fun _ => id
    · rw [hm.node]
    · rw [hm.node]
    · rw [hm.node]
      exact fun _ => id
  · have hmem : ∀ p, p ∈ s'.requests ↔ p ∈ s.requests ∨ p = (s.ws.nextId, call) := by
      intro p
      rw [requests, requests, hi.wire, hm.node]
      simp only [List.mem_append, List.mem_singleton]
      tauto
    -- the new id is above all ids in use
    have hasked : ∀ {rid : Int}, rid < s.ws.nextId → s'.asked rid = s.asked rid := by
      intro rid hlt
      rw [hi.asked, Function.update_of_ne (by omega)]
    have hfree : ∀ {rid : Int}, rid < s.ws.nextId → rid ∉ s.requests.map Prod.fst →
        rid ∉ s'.requests.map Prod.fst := by
      intro rid hlt hnot hin
      obtain ⟨p, hp, heq⟩ := List.mem_map.mp hin
      rcases (hmem p).mp hp with hp | hp
      · exact hnot (List.mem_map.mpr ⟨p, hp, heq⟩)
      · rw [hp] at heq
        dsimp only at heq
        omega
    refine ⟨?_, ?_, ?_, ?_, ?_, ?_, ?_⟩
    · intro p hp
      rw [hi.nextId]
      rcases (hmem p).mp hp with hp | hp
      · obtain ⟨hask, hlt⟩ := h.asked p hp
        rw [hasked hlt]
        exact ⟨hask, by omega⟩
      · rw [hp, hi.asked, Function.update_self]
        exact ⟨rfl, by omega⟩
    · have hperm : (s'.requests.map Prod.fst).Perm (s.ws.nextId :: s.requests.map Prod.fst) := by
        rw [requests, requests, hi.wire, hm.node]
        simp only [List.append_assoc, List.map_append, List.map_cons, List.singleton_append]
        exact List.perm_middle
      refine hperm.nodup_iff.mpr (List.nodup_cons.mpr ⟨?_, h.once⟩)
      intro hin
      obtain ⟨p, hp, heq⟩ := List.mem_map.mp hin
      have hlt := (h.asked p hp).2
      omega
    · intro rid answer hr
      rw [hm.inbox] at hr
      obtain ⟨hlt, hnot, hopens⟩ := h.replied rid answer hr
      rw [hi.nextId, hasked hlt, hm.node]
      exact ⟨by omega, hfree hlt hnot, hopens⟩
    · intro o ho
      rw [hm.node] at ho
      obtain ⟨hlt, hnot, hrest⟩ := h.opened o ho
      rw [hi.nextId, hasked hlt, hm.node]
      exact ⟨by omega, hfree hlt hnot, hrest⟩
    · rw [hm.node]
      exact h.distinct
    · rw [hm.node]
      exact hanswered
    · rw [hm.node]
      exact h.alive

/-- A call ends. -/
theorem Ledger.finish (h : Ledger s) (t : Task) (c : Nat) (rid : Int)
    (outcome : Except Exc Json) {wire : List (Int × RpcCall)} (hwire : wire.Sublist s.wire)
    (granted : Nat → Option (Nat × Json)) :
    Ledger { s with
        wire := wire
        ws := s.ws.finish c rid outcome
        awaiting := Function.update s.awaiting t none
        granted := granted } := by
  refine h.shrink ?_ ?_ rfl rfl (fun _ => id) rfl rfl (fun _ => id) ?_
  · have hsub : (wire ++ s.node.received).Sublist s.requests := List.Sublist.append hwire (.refl _)
    exact h.once.sublist (hsub.map Prod.fst)
  · intro p hp
    rcases List.mem_append.mp hp with hp | hp
    · exact List.mem_append_left _ (hwire.subset hp)
    · exact List.mem_append_right _ hp
  · intro c' g' rid' f' v call hfly' hf hg hasked hmethod
    replace hfly' : (Function.update s.ws.call c _ c').inFlight = some (g', rid', f') := hfly'
    by_cases hcc : c' = c
    · rw [hcc, Function.update_self] at hfly'
      cases outcome <;> cases hfly'
    · rw [Function.update_of_ne hcc] at hfly'
      exact h.answered c' g' rid' f' v call hfly' hf hg hasked hmethod

/-- A call ends and its task goes on. -/
theorem Ledger.answer (h : Ledger s) (hsound : Sound s) (wire : List (Int × RpcCall))
    {t : Task} {c g f : Nat} {rid : Int}
    (hc : s.awaiting t = some c) (hfly : (s.ws.call c).inFlight = some (g, rid, f))
    {outcome : Except Exc Json} (hwire : wire.Sublist s.wire)
    (hs : { s with wire := wire }.answer t c g rid outcome = some s') : Ledger s' := by
  have hready := hsound.ready_answer hc hfly outcome wire
    ({ s with wire := wire }.grantedAfter t g outcome)
  exact (h.finish t c rid outcome hwire _).managed hready (hready.managed hs)

/-- A frame is taken. -/
theorem Ledger.take (h : Ledger s) {frame : Frame} {rest : List Frame}
    (hi : s.inbox = frame :: rest) : Ledger { s with inbox := rest } := by
  refine h.shrink h.once (fun _ => id) rfl rfl ?_ rfl rfl (fun _ => id) h.answered
  intro frame' hframe'
  rw [hi]
  exact List.mem_cons_of_mem _ hframe'

theorem Ledger.newConnection (hsound : Sound s) : Ledger s.newConnection := by
  refine ⟨?_, List.nodup_nil, ?_, ?_, ?_, ?_, ?_⟩
  · intro p hp
    cases hp
  · intro rid answer hr
    cases hr
  · intro o ho
    cases ho
  · intro o ho
    cases ho
  · -- no call is on the new socket
    intro c g rid f v call hfly _ hg
    have hlt := hsound.corr.callBound c g rid f hfly
    injection hg with hg
    omega
  · intro o ho
    cases ho

/-- A frame arrives that answers nothing. -/
theorem Ledger.arrive (h : Ledger s) {frame : Frame} (hframe : ∀ rid answer, frame ≠ .reply rid answer) :
    Ledger { s with inbox := s.inbox ++ [frame] } := by
  refine ⟨h.asked, h.once, ?_, h.opened, h.distinct, h.answered, h.alive⟩
  intro rid answer hr
  rcases List.mem_append.mp hr with hr | hr
  · exact h.replied rid answer hr
  · exact absurd (List.mem_singleton.mp hr).symm (hframe rid answer)

/-- What the upstream finds under the id of a request it has received. -/
theorem Ledger.find_received (h : Ledger s) {p : Int × RpcCall} (hp : p ∈ s.node.received) :
    (s.node.received.find? fun q => q.1 = p.1) = some p := by
  rcases hfind : s.node.received.find? fun q => q.1 = p.1 with _ | q
  · have := List.find?_eq_none.mp hfind p hp
    simp at this
  · have hq := List.mem_of_find?_eq_some hfind
    have hrid : q.1 = p.1 := by simpa using List.find?_some hfind
    have hask := (h.asked q (List.mem_append_right _ hq)).1
    rw [hrid, (h.asked p (List.mem_append_right _ hp)).1] at hask
    injection hask with hcall
    rw [hfind, Prod.ext hrid hcall.symm]

/-- The upstream answers a request. -/
theorem Ledger.reply (h : Ledger s) {rid : Int} {answer : Answer}
    (hok : Honest s (.arrive (.reply rid answer))) :
    Ledger { s with
      inbox := s.inbox ++ [.reply rid answer]
      node := s.node.send (.reply rid answer) } := by
  obtain ⟨⟨rid', call⟩, hp, hrid, hfresh⟩ := hok
  dsimp only at hrid hfresh
  rw [hrid] at hp
  have hrequest : (rid, call) ∈ s.requests := List.mem_append_right _ hp
  obtain ⟨hask, hlt⟩ := h.asked _ hrequest
  have hin : rid ∈ s.requests.map Prod.fst := List.mem_map.mpr ⟨_, hrequest, rfl⟩
  have hsub : (s.wire ++ s.node.received.filter fun p => decide (p.1 ≠ rid)).Sublist s.requests :=
    List.Sublist.append (.refl _) List.filter_sublist
  have hnot : ∀ {r : Int}, r ∉ s.requests.map Prod.fst →
      r ∉ (s.wire ++ s.node.received.filter fun p => decide (p.1 ≠ rid)).map Prod.fst :=
    fun hr hmem => hr ((hsub.map Prod.fst).subset hmem)
  have hgone : rid ∉ (s.wire ++ s.node.received.filter fun p => decide (p.1 ≠ rid)).map Prod.fst := by
    intro hmem
    obtain ⟨q, hq, hqr⟩ := List.mem_map.mp hmem
    rcases List.mem_append.mp hq with hq | hq
    · have hdisj := h.once
      rw [requests, List.map_append] at hdisj
      exact (List.nodup_append.mp hdisj).2.2 _ (List.mem_map.mpr ⟨q, hq, rfl⟩) _
        (List.mem_map.mpr ⟨_, hp, rfl⟩) hqr
    · have := List.of_mem_filter hq
      simp [hqr] at this
  rw [Node.send_reply answer (h.find_received hp)]
  refine ⟨?_, ?_, ?_, ?_, ?_, ?_, ?_⟩
  · intro p hp
    exact h.asked p (hsub.subset hp)
  · exact h.once.sublist (hsub.map Prod.fst)
  · intro r a hr
    rcases List.mem_append.mp hr with hr | hr
    · obtain ⟨hlt', hfree, hopens⟩ := h.replied r a hr
      refine ⟨hlt', hnot hfree, ?_⟩
      intro call' hask' o ho
      exact List.mem_append_left _ (hopens call' hask' o ho)
    · cases List.mem_singleton.mp hr
      refine ⟨hlt, hgone, ?_⟩
      intro call' hask' o ho
      replace hask' : s.asked rid = some call' := hask'
      rw [hask] at hask'
      injection hask' with hcall
      rw [← hcall] at ho
      exact List.mem_append_right _ ho
  · intro o ho
    rcases List.mem_append.mp ho with ho | ho
    · obtain ⟨hlt', hfree, hask', hmethod, hstr, hgiven⟩ := h.opened o ho
      exact ⟨hlt', hnot hfree, hask', hmethod, hstr, List.mem_append_left _ hgiven⟩
    · obtain ⟨hr, hc, hmethod, -⟩ := Node.mem_opens ho
      obtain ⟨x, hx, -⟩ := hfresh o ho
      rw [hr, hc]
      exact ⟨hlt, hgone, hask, hmethod, ⟨x, hx⟩,
        List.mem_append_right _ (List.mem_map.mpr ⟨o, ho, rfl⟩)⟩
  · -- a new subscription differs from the old ones in its id and in its request
    have hnew : ∀ o ∈ s.node.opened, ∀ o' ∈ Node.opens rid call answer,
        ¬(o.subId = o'.subId ∨ o.rid = o'.rid) := by
      intro o ho o' ho' heq
      rcases heq with heq | heq
      · obtain ⟨x, -, hno⟩ := hfresh o' ho'
        rw [← heq] at hno
        exact hno (h.opened o ho).2.2.2.2.2
      · rw [(Node.mem_opens ho').1] at heq
        have := (h.opened o ho).2.1
        rw [heq] at this
        exact this hin
    intro o ho o' ho' heq
    rcases List.mem_append.mp ho with ho | ho <;> rcases List.mem_append.mp ho' with ho' | ho'
    · exact h.distinct o ho o' ho' heq
    · exact absurd heq (hnew o ho o' ho')
    · exact absurd (heq.imp Eq.symm Eq.symm) (hnew o' ho' o ho)
    · obtain ⟨hr, hc, -, ha⟩ := Node.mem_opens ho
      obtain ⟨hr', hc', -, ha'⟩ := Node.mem_opens ho'
      rw [ha] at ha'
      injection ha' with hid
      cases o
      cases o'
      dsimp only at hr hc hr' hc' hid
      rw [hr, hc, hr', hc', hid]
  · intro c g r f v call' hfly hf hg hask' hmethod
    exact List.mem_append_left _ (h.answered c g r f v call' hfly hf hg hask' hmethod)
  · intro o ho
    rcases List.mem_append.mp ho with ho | ho
    · exact List.mem_append_left _ (h.alive o ho)
    · exact List.mem_append_right _ ho

/-- Only a response touches a future, and only one that is not done. -/
theorem dispatch_cases (ws : UpstreamWs) (frame : Frame) (f : Nat) :
    (ws.dispatch frame).future f = ws.future f
      ∨ ∃ rid answer, frame = .reply rid answer ∧ ws.pending.get? rid = some f
        ∧ ws.future f = .pending
        ∧ (∀ v, answer = .result v → (ws.dispatch frame).future f = .result v)
        ∧ ∀ v, (ws.dispatch frame).future f = .result v → answer = .result v := by
  rw [UpstreamWs.dispatch.eq_def]
  split
  · exact .inl rfl
  · exact .inl rfl
  · exact .inl rfl
  · rename_i rid answer
    split
    · exact .inl rfl
    · rename_i f' hf'
      split
      · rename_i hpending
        by_cases hff : f = f'
        · rw [hff]
          cases answer with
          | result v' =>
              refine .inr ⟨rid, _, rfl, hf', hpending, ?_, ?_⟩
              · intro v hv
                show Function.update ws.future f' _ f' = _
                rw [Function.update_self]
                injection hv with hv
                rw [hv]
              · intro v hv
                replace hv : Function.update ws.future f' (.result v') f' = .result v := hv
                rw [Function.update_self] at hv
                injection hv with hv
                rw [hv]
          | error e =>
              refine .inr ⟨rid, _, rfl, hf', hpending, (fun _ hv => by cases hv), ?_⟩
              intro v hv
              replace hv : Function.update ws.future f' (.exception e) f' = .result v := hv
              rw [Function.update_self] at hv
              cases hv
          | raises e => exact .inl rfl
        · left
          split
          · exact Function.update_of_ne hff ..
          · exact Function.update_of_ne hff ..
          · rfl
      · exact .inl rfl

theorem Ledger.dispatch (h : Ledger s) (hcorr : s.ws.Correlated) {frame : Frame}
    {rest : List Frame} (hi : s.inbox = frame :: rest) :
    Ledger { s with ws := s.ws.dispatch frame, inbox := rest } := by
  obtain ⟨hcalls, -, hsocket, -, hnext, -⟩ := UpstreamWs.dispatch_frame s.ws frame
  refine h.shrink h.once (fun _ => id) rfl hnext ?_ rfl rfl (fun _ => id) ?_
  · intro frame' hframe'
    rw [hi]
    exact List.mem_cons_of_mem _ hframe'
  · intro c g rid f v call hfly hf hg hasked hmethod
    replace hfly : ((s.ws.dispatch frame).call c).inFlight = some (g, rid, f) := hfly
    replace hg : (s.ws.dispatch frame).socket = some g := hg
    rw [hcalls] at hfly
    rw [hsocket] at hg
    replace hf : (s.ws.dispatch frame).future f = .result v := hf
    rcases dispatch_cases s.ws frame f with heq | ⟨rid', answer, hframe, hget, -, -, hresult⟩
    · rw [heq] at hf
      exact h.answered c g rid f v call hfly hf hg hasked hmethod
    · obtain ⟨c', g', hfly'⟩ := hcorr.entry rid' f hget
      have hcc := hcorr.futureInj c c' g g' rid rid' f hfly hfly'
      rw [← hcc, hfly] at hfly'
      cases hfly'
      rw [hresult v hf] at hframe
      have hopens := (h.replied rid (.result v) (by rw [hi, hframe]; exact List.mem_cons_self)).2.2
        call hasked
      apply hopens
      rw [Node.opens, if_pos hmethod]
      exact List.mem_singleton.mpr rfl

/-- **Every step of the service and an honest upstream keeps the ledger.** -/
theorem Ledger.step (h : Ledger s) (hsound : Sound s) {op : Op} (hok : Honest s op)
    (hs : s.step op = some s') : Ledger s' := by
  cases effect_of_step hs with
  | managed hop hs =>
      have hready := hsound.ready hop.plain.1 hop.plain.2
      exact h.managed hready (hready.managed hs)
  | @sent t c g f rid hc hcall =>
      refine h.shrink h.once (fun _ => id) rfl rfl (fun _ => id) rfl rfl (fun _ => id) ?_
      intro c' g' rid' f' v call hfly hf hg hasked hmethod
      refine h.answered c' g' rid' f' v call ?_ hf hg hasked hmethod
      replace hfly : (Function.update s.ws.call c _ c').inFlight = some (g', rid', f') := hfly
      by_cases hcc : c' = c
      · rw [hcc, Function.update_self] at hfly
        rw [hcc, hcall]
        exact hfly
      · rwa [Function.update_of_ne hcc] at hfly
  | sendFailed hc hcall hs =>
      exact h.answer hsound _ hc (by rw [hcall]; rfl) List.filter_sublist hs
  | @received rid call rest hw hconn =>
      have hperm : (rest ++ (s.node.received ++ [(rid, call)])).Perm s.requests := by
        rw [requests, hw, List.cons_append, ← List.append_assoc]
        exact List.perm_append_singleton ..
      refine h.shrink ?_ ?_ rfl rfl (fun _ => id) rfl rfl ?_ h.answered
      · exact (hperm.map Prod.fst).nodup_iff.mpr h.once
      · intro p hp
        exact hperm.mem_iff.mp hp
      · intro o ho
        replace ho : o ∈ if call.method = "eth_unsubscribe" then
            s.node.alive.filter fun o => ¬ o.subId ∈ call.params else s.node.alive := ho
        split at ho
        · exact List.mem_of_mem_filter ho
        · exact ho
  | @expired t c g f rid hc hcall =>
      refine h.shrink h.once (fun _ => id) rfl rfl (fun _ => id) rfl rfl (fun _ => id) ?_
      intro c' g' rid' f' v call hfly hf hg hasked hmethod
      refine h.answered c' g' rid' f' v call hfly ?_ hg hasked hmethod
      replace hf : Function.update s.ws.future f .cancelled f' = .result v := hf
      by_cases hff : f' = f
      · rw [hff, Function.update_self] at hf
        cases hf
      · rwa [Function.update_of_ne hff] at hf
  | resumed hc hcall _ hs =>
      exact h.answer hsound s.wire hc (by rw [hcall]; rfl) (.refl _) hs
  | connected haway hev => exact Ledger.newConnection hsound
  | reconnected haway hev hs =>
      have hready := (hsound.newConnection haway).2 hev
      exact (Ledger.newConnection hsound).managed hready (hready.managed hs)
  | dropped =>
      exact h.shrink h.once (fun _ => id) rfl rfl (fun _ => id) rfl rfl (fun _ ho => nomatch ho)
        h.answered
  | noticed =>
      exact h.shrink h.once (fun _ => id) rfl rfl (fun _ => id) rfl rfl (fun _ => id) h.answered
  | left _ _ =>
      refine h.shrink h.once (fun _ => id) rfl rfl (fun _ => id) rfl rfl (fun _ => id) ?_
      intro c g rid f v call _ _ hg
      cases hg
  | @arrived frame hconn =>
      cases frame with
      | reply rid answer => exact h.reply hok
      | ignored => exact h.arrive nofun
      | notification payload => exact h.arrive nofun
      | breaks e => exact h.arrive nofun
  | @notified payload rest _ hi hr hs =>
      have hready := hsound.ready_notification rest payload
      exact (h.take hi).managed hready (hready.managed hs)
  | delivered hi _ _ => exact h.dispatch hsound.corr hi

theorem ledger_init : Ledger init := by
  refine ⟨?_, List.nodup_nil, ?_, ?_, ?_, ?_, ?_⟩
  · intro p hp
    cases hp
  · intro rid answer hr
    cases hr
  · intro o ho
    cases ho
  · intro o ho
    cases ho
  · intro c g rid f v call hfly
    cases hfly
  · intro o ho
    cases ho

end

end Service

end ExecRestApi
