/-
The boundary between the replay and the live loop of `/streams/blocks`.

The queue of a stream fills from the moment it has subscribed, and the replay reads the
head later.  A block announced in between is written twice, unless the replay has nothing
to write or announces a gap instead (`Covered`).  In a run in which every head that is
read is covered, the numbers of the blocks written go up strictly.

`Ascends` says so of what is left of a replay, and `Ready` of a connection: `last` is the
number written last, and whatever may be written from now on has a larger one.
-/
import ExecRestApi.Model.Feed
import ExecRestApi.Proofs.BlocksResume

namespace ExecRestApi

open Py Interaction Transition

/-! ### Numbers of blocks -/

/-- A block frame made of a payload has the number of the payload. -/
theorem headerNumber_of_frameOf {v : Json} {frame : SseFrame} (h : frameOf (blockEvent v) = .ok frame) :
    ∃ k : Nat, headerNumber v = .ok k ∧ frame.blockNumber? = some (k : Int) := by
  obtain ⟨raw, number, id, fields, hraw, hnumber, -, rfl⟩ := frameOf_blockEvent h
  exact ⟨number, bind_eq_ok.mpr ⟨raw, hraw, hnumber⟩, rfl⟩

theorem hexToInt_hex {j : Int} {k : Nat} (h : hexToInt (.str (hex j)) = .ok k) : j = k := by
  by_cases hneg : j < 0
  · rw [hexToInt, hex, if_pos hneg] at h
    have hnot : hexRe (String.ofList ('-' :: '0' :: 'x' :: Nat.toDigits 16 j.natAbs)).toList
        = false := by
      rw [String.toList_ofList]
      rfl
    rw [if_neg (ne_true_of_eq_false hnot)] at h
    cases h
  · obtain ⟨m, rfl⟩ := Int.eq_ofNat_of_zero_le (Int.not_lt.mp hneg)
    rw [hex_natCast, hexToInt_toHex] at h
    cases h
    rfl

/-! ### What is left of a replay

The induction is over the program.  A replay that asks for its head writes larger numbers than
the last, in order, as long as the upstream names a block by the number it was asked for
(`Fair`).
-/

/-- What a replay is told, where a head it reads is at most `B`, or gives it nothing to write. -/
def Fair (window n B : Int) (c : RpcCall) (v : Json) : Prop :=
  (c.method = "eth_blockNumber" →
      ∀ H, hexToInt v = .ok H → (H : Int) ≤ n ∨ window < H - n ∨ (H : Int) ≤ B)
    ∧ ∀ h, c = ⟨"eth_getBlockByNumber", [.str h, .bool true]⟩ →
        v = .null ∨ headerNumber v = hexToInt (.str h)

/-- The blocks that are still to be written have numbers after `last` and up to `B`, and go up. -/
def Ascends (fair : RpcCall → Json → Prop) (B : Int) : Int → Replay Unit → Prop
  | _, .pure _ => True
  | _, .throw _ => True
  | last, .ask (.call c) k =>
      (∀ v, fair c v → Ascends fair B last (k (.ok v))) ∧ ∀ e, Ascends fair B last (k (.error e))
  | last, .ask (.write frame) k =>
      match frame.blockNumber? with
      | none => ∀ r, Ascends fair B last (k r)
      | some j => last < j ∧ j ≤ B ∧ (∀ v, Ascends fair B j (k (.ok v)))
          ∧ ∀ e, Ascends fair B last (k (.error e))

section

variable {window n B last : Int}

/-- The loop over a range of blocks. -/
theorem ascends_range (left : Nat) {j last : Int} (hlast : last < j) (hB : j + left ≤ B + 1) :
    Ascends (Fair window n B) B last (replayRange j left) := by
  induction left generalizing j last with
  | zero => trivial
  | succ left ih =>
      refine ⟨fun v hfair => ?_, fun e => trivial⟩
      show Ascends _ B last (if v = .null then replayRange (j + 1) left
        else replayFrame (blockEvent v) >>= fun _ => replayRange (j + 1) left)
      by_cases hv : v = .null
      · rw [if_pos hv]
        apply ih
        · omega
        · omega
      · rw [if_neg hv, replayFrame_eq]
        cases hframe : frameOf (blockEvent v) with
        | error e => trivial
        | ok frame =>
            obtain ⟨k, hk, hnumber⟩ := headerNumber_of_frameOf hframe
            have hj : j = k := by
              rcases hfair.2 (hex j) rfl with hnull | hsame
              · exact absurd hnull hv
              · rw [hk] at hsame
                exact hexToInt_hex hsame.symm
            show Ascends _ B last (.ask (.write frame) _)
            rw [Ascends, hnumber]
            refine ⟨by omega, by omega, fun w => ?_, fun e => trivial⟩
            subst hj
            apply ih
            · omega
            · omega

/-- A replay of blocks. -/
theorem ascends_blocks {id : String} (hid : int? id = some n) (hlast : last ≤ n) :
    Ascends (Fair window n B) B last (replayBlocks window id) := by
  rw [replayBlocks, hid]
  refine ⟨fun v hfair => ?_, fun e => trivial⟩
  show Ascends _ B last (Prog.ofExcept (hexToInt v) >>= _)
  cases hv : hexToInt v with
  | error e => trivial
  | ok H =>
      show Ascends _ B last (if (H : Int) ≤ n then pure ()
        else if window < H - n then replayFrame (.ok (gapParts (n + 1) H))
        else replayRange (n + 1) ((H : Int) - n).toNat)
      by_cases hle : (H : Int) ≤ n
      · rw [if_pos hle]
        trivial
      rw [if_neg hle]
      by_cases hgap : window < (H : Int) - n
      · rw [if_pos hgap, replayFrame_eq]
        cases hframe : frameOf (.ok (gapParts (n + 1) H)) with
        | error e => trivial
        | ok frame =>
            rw [frameOf_gapParts hframe]
            intro r
            cases r with
            | ok w => trivial
            | error e => trivial
      · rw [if_neg hgap]
        apply ascends_range
        · omega
        · rcases hfair.1 rfl H hv with h | h | h
          · exact absurd h hle
          · exact absurd h hgap
          · omega

end

/-! ### The queue

The blocks announced since the stream has subscribed wait on its queue, those that found it
full left out.  That leaves the order as it is.
-/

/-- The events of a queue are blocks with numbers after `lo` and up to `hi`, going up. -/
def Queued (lo hi : Nat) (queue : List StreamEvent) : Prop :=
  ∃ ks : List Nat, List.Forall₂ (fun ev k => ∃ p, ev = .event p ∧ headerNumber p = .ok k) queue ks
    ∧ ks.Pairwise (· < ·) ∧ ∀ k ∈ ks, lo < k ∧ k ≤ hi

theorem queued_nil (lo hi : Nat) : Queued lo hi [] := ⟨[], .nil, .nil, nofun⟩

/-- A block that is announced has the largest number so far. -/
theorem Queued.put {lo hi : Nat} {queue : List StreamEvent} {payload : Json}
    (h : Queued lo hi queue) (hlo : lo ≤ hi) (hp : headerNumber payload = .ok (hi + 1)) :
    Queued lo (hi + 1) (Feed.put queue (.event payload)) := by
  obtain ⟨ks, hall, hup, hks⟩ := h
  unfold Feed.put
  by_cases hroom : queue.length < queueSize
  · rw [if_pos hroom]
    refine ⟨ks ++ [hi + 1], List.rel_append hall (.cons ⟨payload, rfl, hp⟩ .nil), ?_, ?_⟩
    · refine List.pairwise_append.mpr ⟨hup, List.pairwise_singleton _ _, ?_⟩
      intro k hk x hx
      rw [List.mem_singleton.mp hx]
      exact Nat.lt_succ_of_le (hks k hk).2
    · intro k hk
      rcases List.mem_append.mp hk with hk | hk
      · exact ⟨(hks k hk).1, Nat.le_succ_of_le (hks k hk).2⟩
      · rw [List.mem_singleton.mp hk]
        exact ⟨Nat.lt_succ_of_le hlo, Nat.le_refl _⟩
  · rw [if_neg hroom]
    exact ⟨ks, hall, hup, fun k hk => ⟨(hks k hk).1, Nat.le_succ_of_le (hks k hk).2⟩⟩

/-- The event at the front has a number below those of the others. -/
theorem Queued.tail {lo hi : Nat} {queue : List StreamEvent} {ev : StreamEvent}
    (h : Queued lo hi queue) (hev : queue.head? = some ev) :
    ∃ p k, ev = .event p ∧ headerNumber p = .ok k ∧ lo < k ∧ k ≤ hi ∧ Queued k hi queue.tail := by
  obtain ⟨ks, hall, hup, hks⟩ := h
  cases hall with
  | nil => cases hev
  | @cons first k rest ks' hfirst hrest =>
      cases hev
      obtain ⟨p, rfl, hp⟩ := hfirst
      obtain ⟨hk, hup'⟩ := List.pairwise_cons.mp hup
      refine ⟨p, k, rfl, hp, (hks k List.mem_cons_self).1, (hks k List.mem_cons_self).2, ?_⟩
      exact ⟨ks', hrest, hup', fun x hx => ⟨hk x hx, (hks x (List.mem_cons_of_mem _ hx)).2⟩⟩

/-! ### A connection

There is one case for each place the stream can stand at.  What may still be written is what is
left of the replay, then what waits on the queue, then what will be announced; `Ready` says
that each of these is above the one before it.
-/

/-- The number of the block a step has written. -/
def FeedStep.number? (l : FeedStep) : Option Int := l.frame?.bind SseFrame.blockNumber?

namespace Feed

/-- A head that is read gives the replay nothing to write, is announced as a gap, or was announced
as a block before the stream subscribed. -/
def Covered (window n : Int) (f : Feed) : FeedStep → Prop
  | .stream (.returned (.io (.call c)) (.ok v)) =>
      c.method = "eth_blockNumber" →
        ∀ H, hexToInt v = .ok H → (H : Int) ≤ n ∨ window < H - n ∨ H ≤ f.since
  | _ => True

/-- The queue holds blocks after `last`, and only such are still to be announced. -/
def Pending (f : Feed) (last : Int) : Prop :=
  ∃ lo : Nat, last ≤ lo ∧ lo ≤ f.announced ∧ Queued lo f.announced f.queue

/-- The queue holds what was announced since the subscription, and `last` came before. -/
def Fresh (f : Feed) (last : Int) : Prop :=
  last ≤ f.since ∧ f.since ≤ f.announced ∧ Queued f.since f.announced f.queue

/-- A frame about to be written is no block, or a block after `last` and before the others. -/
def Sending (f : Feed) (last : Int) (frame : SseFrame) : Prop :=
  match frame.blockNumber? with
  | none => f.Pending last
  | some k => last < k ∧ f.Pending k

/-- Whatever is written from here on has a number above `last`. -/
def Ready (window n : Int) (f : Feed) (last : Int) : Prop :=
  match f.at_ with
  | .subscribing => last ≤ n ∧ last < 0
  | .preparing => last ≤ n ∧ f.Fresh last
  | .retrying => last ≤ n ∧ f.Fresh last
  | .replaying op k => f.Fresh last ∧ Ascends (Fair window n f.since) f.since last (.ask op k)
  | .resuming => False
  | .listening _ => f.Pending last
  | .writing _ frame => f.Sending last frame
  | .closing _ => True
  | .left _ => True

section

variable {window n last : Int} {f : Feed}

theorem Fresh.pending (h : f.Fresh last) : f.Pending last := ⟨f.since, h.1, h.2.1, h.2.2⟩

theorem sending_of_none {frame : SseFrame} (hframe : frame.blockNumber? = none) (h : f.Pending last) :
    f.Sending last frame := by
  rw [Sending, hframe]
  exact h

theorem sending_of_some {frame : SseFrame} {k : Int} (hframe : frame.blockNumber? = some k)
    (hlt : last < k) (h : f.Pending k) : f.Sending last frame := by
  rw [Sending, hframe]
  exact ⟨hlt, h⟩

theorem Fresh.announce (h : f.Fresh last) {payload : Json}
    (hp : headerNumber payload = .ok (f.announced + 1)) :
    Fresh { f with announced := f.announced + 1, queue := put f.queue (.event payload) } last :=
  ⟨h.1, Nat.le_succ_of_le h.2.1, h.2.2.put h.2.1 hp⟩

theorem Pending.announce (h : f.Pending last) {payload : Json}
    (hp : headerNumber payload = .ok (f.announced + 1)) :
    Pending { f with announced := f.announced + 1, queue := put f.queue (.event payload) } last := by
  obtain ⟨lo, hlast, hlo, hqueue⟩ := h
  exact ⟨lo, hlast, Nat.le_succ_of_le hlo, hqueue.put hlo hp⟩

/-- An announcement keeps a connection ready. -/
theorem Ready.announce (h : f.Ready window n last) {payload : Json}
    (hp : headerNumber payload = .ok (f.announced + 1)) :
    Ready window n { f with
      announced := f.announced + 1
      queue := if joined f.at_ then put f.queue (.event payload) else f.queue } last := by
  obtain ⟨a, head, announced, since, queue⟩ := f
  cases a with
  | subscribing => exact h
  | preparing => exact ⟨h.1, h.2.announce hp⟩
  | retrying => exact ⟨h.1, h.2.announce hp⟩
  | replaying op k => exact ⟨h.1.announce hp, h.2⟩
  | resuming => exact h
  | listening finished => exact Pending.announce h hp
  | closing out => trivial
  | left out => trivial
  | writing finished frame =>
      replace h : Sending _ last frame := h
      show Sending _ last frame
      cases hframe : frame.blockNumber? with
      | none =>
          rw [Sending, hframe] at h
          exact sending_of_none hframe (Pending.announce h hp)
      | some k =>
          rw [Sending, hframe] at h
          exact sending_of_some hframe h.1 (Pending.announce h.2 hp)

/-- Going on with a replay. -/
theorem ready_enter (hfresh : f.Fresh last) {p : Replay Unit}
    (hp : Ascends (Fair window n f.since) f.since last p) :
    Ready window n { f with at_ := Stream.enter p } last := by
  cases p with
  | pure a => exact hfresh.pending
  | throw e => exact hfresh.pending
  | ask op k => exact ⟨hfresh, hp⟩

/-- A chunk that is not a block. -/
theorem ready_deliver {finished full : Bool} {frame : SseFrame} (hframe : frame.blockNumber? = none)
    (h : f.Pending last) :
    Ready window n { f with at_ := Stream.deliver finished full frame } last := by
  cases full with
  | true => trivial
  | false => exact sending_of_none (f := { f with at_ := .writing finished frame }) hframe h

theorem ready_failed (r : Raised) : Ready window n { f with at_ := Stream.failed r } last := by
  obtain ⟨out, hout⟩ : ∃ out, Stream.failed r = .closing out := by
    unfold Stream.failed
    split
    · exact ⟨_, rfl⟩
    · exact ⟨_, rfl⟩
  rw [hout]
  trivial

/-- A turn of the live loop with the block `k`. -/
theorem ready_turn {s : Stream} (hs : s.formatter = blockEvent) {full : Bool} {p : Json} {k : Nat}
    (hk : headerNumber p = .ok k) (hlast : last < k)
    (h : f.Pending k) :
    Ready window n { f with at_ := s.turn full (.event p) } last := by
  have hbefore : f.Pending last := by
    obtain ⟨lo, hlo, hle, hqueue⟩ := h
    exact ⟨lo, by omega, hle, hqueue⟩
  unfold Stream.turn
  rw [hs]
  simp only
  cases hevent : blockEvent p with
  | error e => exact ready_deliver rfl hbefore
  | ok parts =>
      simp only
      cases hrender : renderParts parts with
      | error e => exact ready_failed _
      | ok frame =>
          have hframe : frameOf (blockEvent p) = .ok frame := by
            rw [hevent]
            exact hrender
          obtain ⟨k', hk', hnumber⟩ := headerNumber_of_frameOf hframe
          rw [hk] at hk'
          cases hk'
          cases full with
          | true => trivial
          | false =>
              exact sending_of_some (f := { f with at_ := .writing false frame }) hnumber
                (by omega) h

/-! ### One step

A block is announced, an `await` ends, or the loop wakes.  Only one of these needs the
condition: the end of `eth_blockNumber`, where the replay learns up to which block it has to
write.
-/

/-- What a step has written, and what may still be written after it. -/
def Onward (window n : Int) (f' : Feed) (last : Int) (l : FeedStep) : Prop :=
  match l.number? with
  | none => f'.Ready window n last
  | some k => last < k ∧ f'.Ready window n k

/-- A step of the replay. -/
theorem onward_replaying {id : String} {op : StreamIo} {k : Reply → Replay Unit}
    {r : Except Raised Json} (hat : f.at_ = .replaying op k) (h : f.Ready window n last)
    (hhonest : f.Honest (.stream (.returned (.io op) r)))
    (hcovered : f.Covered window n (.stream (.returned (.io op) r))) :
    Onward window n { f with at_ := (Stream.blocks window (some id)).resume (.replaying op k) r }
      last (.stream (.returned (.io op) r)) := by
  unfold Ready at h
  rw [hat] at h
  obtain ⟨hfresh, hascends⟩ := h
  cases op with
  | call c =>
      cases r with
      | ok v =>
          have hfair : Fair window n f.since c v := by
            refine ⟨fun hmethod H hH => ?_, hhonest.2⟩
            have := hcovered hmethod H hH
            omega
          exact ready_enter hfresh (hascends.1 v hfair)
      | error e =>
          cases e with
          | exception e => exact ready_enter hfresh (hascends.2 e)
          | cancelled => exact trivial
  | write frame =>
      rw [Ascends] at hascends
      cases hnumber : frame.blockNumber? with
      | none =>
          rw [hnumber] at hascends
          cases r with
          | ok v =>
              have hnone : FeedStep.number? (.stream (.returned (.io (.write frame)) (.ok v))) = none :=
                hnumber
              rw [Onward, hnone]
              exact ready_enter hfresh (hascends (.ok v))
          | error e =>
              cases e with
              | exception e => exact ready_enter hfresh (hascends (.error e))
              | cancelled => exact trivial
      | some j =>
          rw [hnumber] at hascends
          obtain ⟨hlt, hle, hok, herror⟩ := hascends
          cases r with
          | ok v =>
              have hsome : FeedStep.number? (.stream (.returned (.io (.write frame)) (.ok v)))
                  = some j := hnumber
              rw [Onward, hsome]
              exact ⟨hlt, ready_enter ⟨hle, hfresh.2⟩ (hok v)⟩
          | error e =>
              cases e with
              | exception e => exact ready_enter hfresh (herror e)
              | cancelled => exact trivial

/-- A step of the live loop that takes the next chunk. -/
theorem onward_woke {id : String} {finished full : Bool} {w : Wake}
    (hat : f.at_ = .listening finished) (h : f.Ready window n last)
    (hhonest : f.Honest (.stream (.woke w full))) :
    Ready window n { f with
      at_ := (Stream.blocks window (some id)).wake finished full w
      queue := f.queueAfter (.woke w full) } last := by
  unfold Ready at h
  rw [hat] at h
  cases w with
  | timeout now => exact ready_deliver rfl h
  | ended => trivial
  | raised r => exact ready_failed r
  | item ev =>
      cases finished with
      | true => trivial
      | false =>
          obtain ⟨lo, hlast, hle, hqueue⟩ := h
          obtain ⟨p, k, rfl, hk, hlo, hhi, htail⟩ := hqueue.tail hhonest
          have hpending : Pending { f with queue := f.queue.tail } k := ⟨k, le_refl _, hhi, htail⟩
          exact ready_turn (f := { f with queue := f.queue.tail }) rfl hk (by omega) hpending

/-- The end of a write of the live loop. -/
theorem onward_writing {id : String} {finished : Bool} {frame : SseFrame} {r : Except Raised Json}
    (hat : f.at_ = .writing finished frame) (h : f.Ready window n last) :
    Onward window n { f with at_ := (Stream.blocks window (some id)).resume (.writing finished frame) r }
      last (.stream (.returned (.io (.write frame)) r)) := by
  unfold Ready at h
  rw [hat] at h
  replace h : f.Sending last frame := h
  cases r with
  | error e => exact ready_failed e
  | ok v =>
      have hnumber : FeedStep.number? (.stream (.returned (.io (.write frame)) (.ok v)))
          = frame.blockNumber? := rfl
      rw [Onward, hnumber]
      cases hframe : frame.blockNumber? with
      | none =>
          rw [Sending, hframe] at h
          exact h
      | some k =>
          rw [Sending, hframe] at h
          exact h

/-- **One step writes a block above the last one, or none, and leaves only larger ones to be
written.** -/
theorem Ready.step {id : String} {f' : Feed} {l : FeedStep} (hid : int? id = some n)
    (h : f.Ready window n last) (hhonest : f.Honest l) (hcovered : f.Covered window n l)
    (hs : Feed.step (Stream.blocks window (some id)) f l = some f') : Onward window n f' last l := by
  cases l with
  | mine =>
      cases hs
      exact h
  | announce payload =>
      cases hs
      exact h.announce hhonest.2
  | stream m =>
      obtain ⟨a, ha, rfl⟩ := Option.map_eq_some_iff.mp hs
      cases m with
      | woke w full =>
          obtain ⟨finished, hat, rfl⟩ := Stream.step_woke ha
          exact onward_woke hat h hhonest
      | returned op r =>
          obtain ⟨haw, rfl⟩ := Stream.step_returned ha
          cases hat : f.at_ with
          | subscribing =>
              rw [hat] at haw
              cases haw
              unfold Ready at h
              rw [hat] at h
              cases r with
              | error e => exact trivial
              | ok v =>
                  refine ⟨h.1, ?_, Nat.le_refl _, queued_nil _ _⟩
                  show last ≤ (f.announced : Int)
                  omega
          | preparing =>
              rw [hat] at haw
              cases haw
              unfold Ready at h
              rw [hat] at h
              cases r with
              | error e => exact trivial
              | ok v => exact h
          | retrying =>
              rw [hat] at haw
              cases haw
              unfold Ready at h
              rw [hat] at h
              cases r with
              | error e => exact trivial
              | ok v => exact ready_enter h.2 (ascends_blocks hid h.1)
          | replaying op' k =>
              rw [hat] at haw
              cases haw
              exact onward_replaying hat h hhonest hcovered
          | resuming =>
              unfold Ready at h
              rw [hat] at h
              exact False.elim h
          | listening finished =>
              rw [hat] at haw
              cases haw
          | writing finished frame =>
              rw [hat] at haw
              cases haw
              exact onward_writing hat h
          | closing out =>
              rw [hat] at haw
              cases haw
              cases r with
              | error e => exact trivial
              | ok v => exact trivial
          | left out =>
              rw [hat] at haw
              cases haw

end

/-! ### Runs

A resumed stream is `Ready` with the last id it was sent before, so what it writes continues
the numbers of the connection before it.
-/

/-- The numbers of the blocks a run has written, in order. -/
def numbersOf (ls : List FeedStep) : List Int := ls.filterMap FeedStep.number?

/-- **Whatever a run writes has numbers above the last one before it, and they go up.** -/
theorem Ready.run {window n last : Int} {id : String} {f f' : Feed} {ls : List FeedStep}
    (hid : int? id = some n)
    (h : Run (Feed.step (Stream.blocks window (some id)))
      (fun f l => f.Honest l ∧ f.Covered window n l) f ls f')
    (hf : f.Ready window n last) :
    (numbersOf ls).Pairwise (· < ·) ∧ ∀ k ∈ numbersOf ls, last < k := by
  induction h generalizing last with
  | nil f => exact ⟨.nil, nofun⟩
  | @cons f g f' l ls hs hok _ ih =>
      have honward := hf.step hid hok.1 hok.2 hs
      unfold Onward at honward
      cases hnumber : l.number? with
      | none =>
          rw [hnumber] at honward
          have hcons : numbersOf (l :: ls) = numbersOf ls := List.filterMap_cons_none hnumber
          rw [hcons]
          exact ih honward
      | some k =>
          rw [hnumber] at honward
          have hcons : numbersOf (l :: ls) = k :: numbersOf ls := List.filterMap_cons_some hnumber
          obtain ⟨hup, habove⟩ := ih honward.2
          rw [hcons]
          refine ⟨List.pairwise_cons.mpr ⟨habove, hup⟩, ?_⟩
          intro j hj
          rcases List.mem_cons.mp hj with rfl | hj
          · exact honward.1
          · exact lt_trans honward.1 (habove j hj)

/-- **No block is written twice.**  Where every head a resumed stream reads is covered, the numbers
of the blocks written on its connection go up strictly. -/
theorem strictly_increasing {window n : Int} {id : String} {head announced : Nat} {f : Feed}
    {ls : List FeedStep} (hid : int? id = some n)
    (h : Run (Feed.step (Stream.blocks window (some id)))
      (fun f l => f.Honest l ∧ f.Covered window n l) (init head announced) ls f) :
    (numbersOf ls).Pairwise (· < ·) := by
  have hready : (init head announced).Ready window n (min n (-1)) := by
    show min n (-1) ≤ n ∧ min n (-1) < 0
    omega
  exact (Ready.run hid h hready).1

/-! ### Two connections

The same head is read by two connections that differ in one step: in the one block 6 is
announced before the head is read, in the other after.
-/

/-- A step of the stream is a step of the connection. -/
theorem step_stream {s : Stream} {f : Feed} {m : Moment} {a : At} (h : s.step f.at_ m = some a) :
    Feed.step s f (.stream m)
      = some { f with at_ := a, queue := f.queueAfter m, since := f.sinceAfter m } := by
  rw [Feed.step, h]
  rfl

/-- A replay runs on a connection while nothing else happens. -/
theorem run_replay {s : Stream} {ok : Feed → FeedStep → Prop} {f : Feed} (p : Replay Unit)
    {tr : ReplayTrace} {out : Except Exc Unit} (h : Prog.Runs p tr out)
    (hok : ∀ x ∈ tr, ∀ a, ok { f with at_ := a } (.stream (toMoment x))) :
    Run (Feed.step s) ok { f with at_ := Stream.enter p } (tr.map fun x => .stream (toMoment x))
      { f with at_ := .listening false } := by
  induction p generalizing tr with
  | pure a =>
      rw [h.1]
      exact .nil _
  | throw e =>
      rw [h.1]
      exact .nil _
  | ask op k ih =>
      obtain ⟨r, rest, rfl, h⟩ := h
      have hstep : Feed.step s { f with at_ := Stream.enter (.ask op k) } (.stream (toMoment (op, r)))
          = some { f with at_ := Stream.enter (k r) } := by
        have hs : s.step (Stream.enter (.ask op k)) (toMoment (op, r)) = some (Stream.enter (k r)) := by
          cases r with
          | ok v => exact Stream.step_of_awaiting rfl
          | error e => exact Stream.step_of_awaiting rfl
        exact step_stream hs
      exact .cons hstep (hok _ List.mem_cons_self _)
        (ih r h fun x hx => hok x (List.mem_cons_of_mem _ hx))

/-- Opening the response. -/
def opens : List FeedStep :=
  [.stream (.returned .prepare (.ok .null)), .stream (.returned (.io (.write (.retry 5000))) (.ok .null))]

/-- The exchanges of a replay that writes block 6. -/
def replaysSix : ReplayTrace :=
  Stream.asksSix (Stream.bareBlock "0x6" "0xb6") ++ Stream.writesSix

/-- Block `number` is taken off the queue and written. -/
def goesLive (number : Int) (id raw hash : String) : List FeedStep :=
  [.stream (.woke (.item (.event (Stream.bareBlock raw hash))) false),
    .stream (.returned (.io (.write (Stream.bareFrame number id hash))) (.ok .null))]

/-- Block 6 is announced after the subscription, and then replayed. -/
def writesTwice : List FeedStep :=
  .stream (.returned (.subscribe .newHeads .null) (.ok .null)) :: .mine
    :: .announce (Stream.bareBlock "0x6" "0xb6") :: opens
    ++ (replaysSix.map fun x => .stream (toMoment x)) ++ goesLive 6 "6" "0x6" "0xb6"

/-- Block 6 was announced before the subscription, and block 7 comes after the replay. -/
def writesOnce : List FeedStep :=
  .stream (.returned (.subscribe .newHeads .null) (.ok .null)) :: opens
    ++ (replaysSix.map fun x => .stream (toMoment x))
    ++ .mine :: .announce (Stream.bareBlock "0x7" "0xb7") :: goesLive 7 "7" "0x7" "0xb7"

theorem runs_replaysSix : Prog.Runs (replayBlocks 10 "5") replaysSix (.ok ()) :=
  Prog.runs_of_feed [.ok (.str "0x6"), .ok (Stream.bareBlock "0x6" "0xb6"), .ok .null]
    (by decide +kernel)

/-- What the upstream says about the head and block 6 is honest once block 6 is there. -/
theorem honest_replaysSix {f : Feed} (hhead : 6 ≤ f.head) :
    ∀ x ∈ replaysSix, f.Honest (.stream (toMoment x)) := by
  intro x hx
  simp only [replaysSix, Stream.asksSix, Stream.writesSix, List.cons_append, List.nil_append,
    List.mem_cons, List.not_mem_nil, or_false] at hx
  rcases hx with rfl | rfl | rfl
  · refine ⟨fun _ => ⟨6, rfl, hhead⟩, fun h heq => ?_⟩
    injection heq with hmethod
    exact absurd hmethod (by decide)
  · refine ⟨fun hmethod => absurd hmethod (by decide), fun h heq => .inr ?_⟩
    injection heq with _ hparams
    injection hparams with hh
    injection hh with hh
    rw [← hh]
    decide +kernel
  · exact trivial

/-- A block that is taken off the queue is written by the live loop. -/
theorem step_bareBlock {window : Int} {leid : Option String} {f : Feed} {number : Int}
    {id raw hash : String} (hat : f.at_ = .listening false)
    (hevent : blockEvent (Stream.bareBlock raw hash)
      = .ok ("block", some id, Stream.bareHeader number hash))
    (hrender : renderParts ("block", some id, Stream.bareHeader number hash)
      = .ok (Stream.bareFrame number id hash)) :
    Feed.step (Stream.blocks window leid) f
        (.stream (.woke (.item (.event (Stream.bareBlock raw hash))) false))
      = some { f with at_ := .writing false (Stream.bareFrame number id hash), queue := f.queue.tail } := by
  have hturn : (Stream.blocks window leid).turn false (.event (Stream.bareBlock raw hash))
      = .writing false (Stream.bareFrame number id hash) := by
    unfold Stream.turn
    simp only [Stream.blocks, hevent, hrender]
    rfl
  have hstep : (Stream.blocks window leid).step (.listening false)
      (.woke (.item (.event (Stream.bareBlock raw hash))) false)
        = some (.writing false (Stream.bareFrame number id hash)) := by
    simp only [Stream.step, Stream.wake, Bool.false_eq_true, if_false, hturn]
  rw [← hat] at hstep
  exact step_stream hstep

/-- The stream of the two connections. -/
def resumed : Stream := Stream.blocks 10 (some "5")

theorem int?_five : int? "5" = some 5 := by decide +kernel

theorem opensResponse {ok : Feed → FeedStep → Prop} {f : Feed}
    (hok : ∀ l ∈ opens, ∀ g, ok g l) :
    Run (Feed.step resumed) ok { f with at_ := .preparing } opens
      { f with at_ := Stream.enter (replayBlocks 10 "5") } := by
  have hprepare : Feed.step resumed { f with at_ := .preparing }
      (.stream (.returned .prepare (.ok .null))) = some { f with at_ := .retrying } := by
    have hs : resumed.step .preparing (.returned .prepare (.ok .null)) = some .retrying :=
      Stream.step_of_awaiting rfl
    exact step_stream hs
  have hretry : Feed.step resumed { f with at_ := .retrying }
      (.stream (.returned (.io (.write (.retry 5000))) (.ok .null)))
        = some { f with at_ := Stream.enter (replayBlocks 10 "5") } := by
    have hs : resumed.step .retrying (.returned (.io (.write (.retry 5000))) (.ok .null))
        = some (Stream.enter (replayBlocks 10 "5")) :=
      Stream.step_of_awaiting rfl
    exact step_stream hs
  exact .cons hprepare (hok _ List.mem_cons_self _)
    (.cons hretry (hok _ (List.mem_cons_of_mem _ List.mem_cons_self) _) (.nil _))

/-- The replay of block 6 from a response just opened. -/
theorem replays {ok : Feed → FeedStep → Prop} {f : Feed}
    (hopens : ∀ l ∈ opens, ∀ g, ok g l)
    (hok : ∀ x ∈ replaysSix, ∀ a, ok { f with at_ := a } (.stream (toMoment x))) :
    Run (Feed.step resumed) ok { f with at_ := .preparing }
      (opens ++ replaysSix.map fun x => .stream (toMoment x)) { f with at_ := .listening false } :=
  run_append.mpr ⟨_, opensResponse hopens, run_replay _ runs_replaysSix hok⟩

/-- The live write of a block at the front of the queue. -/
theorem writes {ok : Feed → FeedStep → Prop} {f : Feed} {number : Int} {id raw hash : String}
    (hevent : blockEvent (Stream.bareBlock raw hash)
      = .ok ("block", some id, Stream.bareHeader number hash))
    (hrender : renderParts ("block", some id, Stream.bareHeader number hash)
      = .ok (Stream.bareFrame number id hash))
    (hqueue : f.queue = [.event (Stream.bareBlock raw hash)])
    (hwoke : ∀ g : Feed, g.queue = f.queue →
      ok g (.stream (.woke (.item (.event (Stream.bareBlock raw hash))) false)))
    (hwrite : ∀ g, ok g (.stream (.returned (.io (.write (Stream.bareFrame number id hash)))
      (.ok .null)))) :
    Run (Feed.step resumed) ok { f with at_ := .listening false } (goesLive number id raw hash)
      { f with at_ := .listening false, queue := [] } := by
  have hfirst := @step_bareBlock 10 (some "5") { f with at_ := .listening false } _ _ _ _ rfl hevent hrender
  have htail : ({ f with at_ := At.listening false } : Feed).queue.tail = [] := by
    rw [hqueue]
    rfl
  rw [htail] at hfirst
  refine .cons hfirst (hwoke _ rfl) (.cons (t := { f with at_ := .listening false, queue := [] }) ?_
    (hwrite _) (.nil _))
  exact step_stream (Stream.step_of_awaiting rfl)

/-- Block 6 was announced before the stream subscribed, and is written once. -/
theorem strictly_increasing_once : (numbersOf writesOnce).Pairwise (· < ·) := by
  let ok : Feed → FeedStep → Prop := fun f l => f.Honest l ∧ f.Covered 10 5 l
  have hopens : ∀ l ∈ opens, ∀ g, ok g l := by
    intro l hl g
    simp only [opens, List.mem_cons, List.not_mem_nil, or_false] at hl
    rcases hl with rfl | rfl
    · exact ⟨trivial, trivial⟩
    · exact ⟨trivial, trivial⟩
  -- the stream subscribes when block 6 has been announced
  let start : Feed := ⟨.preparing, 6, 6, 6, []⟩
  have hsubscribe : Feed.step resumed (init 6 6)
      (.stream (.returned (.subscribe .newHeads .null) (.ok .null))) = some start :=
    step_stream (Stream.step_of_awaiting rfl)
  have hreplays : Run (Feed.step resumed) ok start
      (opens ++ replaysSix.map fun x => .stream (toMoment x)) { start with at_ := .listening false } := by
    refine replays (f := start) hopens fun x hx a => ⟨honest_replaysSix (Nat.le_refl 6) x hx, ?_⟩
    simp only [replaysSix, Stream.asksSix, Stream.writesSix, List.cons_append, List.nil_append,
      List.mem_cons, List.not_mem_nil, or_false] at hx
    rcases hx with rfl | rfl | rfl
    · intro _ H hH
      cases hH
      exact .inr (.inr (Nat.le_refl 6))
    · intro hmethod
      exact absurd hmethod (by decide)
    · exact trivial
  -- then block 7 comes
  let filled : Feed := ⟨.listening false, 7, 7, 6, [.event (Stream.bareBlock "0x7" "0xb7")]⟩
  have hlive : Run (Feed.step resumed) ok filled (goesLive 7 "7" "0x7" "0xb7")
      { filled with queue := [] } := by
    refine writes (f := filled) (by decide +kernel) (by decide +kernel) rfl ?_ ?_
    · intro g hg
      exact ⟨by rw [Honest, hg]; rfl, trivial⟩
    · exact fun g => ⟨trivial, trivial⟩
  have hannounce : Run (Feed.step resumed) ok { start with at_ := .listening false }
      (.mine :: .announce (Stream.bareBlock "0x7" "0xb7") :: goesLive 7 "7" "0x7" "0xb7")
      { filled with queue := [] } :=
    .cons rfl ⟨trivial, trivial⟩
      (.cons rfl ⟨⟨by decide, by decide +kernel⟩, trivial⟩ hlive)
  have hrun : Run (Feed.step resumed) ok (init 6 6) writesOnce { filled with queue := [] } :=
    .cons hsubscribe ⟨trivial, trivial⟩ (run_append.mpr ⟨_, hreplays, hannounce⟩)
  exact strictly_increasing int?_five hrun

/-- Block 6 was announced after the stream subscribed, and is written twice. -/
theorem not_strictly_increasing :
    ¬ ∀ (window n : Int) (id : String) (head announced : Nat) (f : Feed) (ls : List FeedStep),
      int? id = some n → announced ≤ head →
      Run (Feed.step (Stream.blocks window (some id))) Honest (init head announced) ls f →
      (numbersOf ls).Pairwise (· < ·) := by
  intro h
  have hopens : ∀ l ∈ opens, ∀ g, Honest g l := by
    intro l hl g
    simp only [opens, List.mem_cons, List.not_mem_nil, or_false] at hl
    rcases hl with rfl | rfl
    · exact trivial
    · exact trivial
  let filled : Feed := ⟨.preparing, 6, 6, 5, [.event (Stream.bareBlock "0x6" "0xb6")]⟩
  have hsubscribe : Feed.step resumed (init 5 5)
      (.stream (.returned (.subscribe .newHeads .null) (.ok .null)))
        = some ⟨.preparing, 5, 5, 5, []⟩ :=
    step_stream (Stream.step_of_awaiting rfl)
  have hreplays : Run (Feed.step resumed) Honest filled
      (opens ++ replaysSix.map fun x => .stream (toMoment x)) { filled with at_ := .listening false } :=
    replays (f := filled) hopens fun x hx a => honest_replaysSix (Nat.le_refl 6) x hx
  have hlive : Run (Feed.step resumed) Honest { filled with at_ := .listening false }
      (goesLive 6 "6" "0x6" "0xb6") { filled with at_ := .listening false, queue := [] } := by
    refine writes (f := filled) (by decide +kernel) (by decide +kernel) rfl ?_ ?_
    · intro g hg
      rw [Honest, hg]
      rfl
    · exact fun g => trivial
  have hrun : Run (Feed.step resumed) Honest (init 5 5) writesTwice
      { filled with at_ := .listening false, queue := [] } :=
    .cons hsubscribe trivial (.cons rfl trivial
      (.cons rfl ⟨by decide, by decide +kernel⟩ (run_append.mpr ⟨_, hreplays, hlive⟩)))
  have hup := h 10 5 "5" 5 5 _ _ int?_five (Nat.le_refl 5) hrun
  have hnumbers : numbersOf writesTwice = [6, 6] := by decide +kernel
  rw [hnumbers] at hup
  exact absurd hup (by decide)

end Feed

end ExecRestApi
