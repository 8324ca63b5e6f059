import Libp2pNym.Lib.Run
import Libp2pNym.Message.Equiv.Codec
import Libp2pNym.Mixnet.Basic

/-!
# What the mixnet task does with outbound messages

`always_lossless_iff`: with a sink that does not fail, the frames that the sink has accepted, the
message that `check_outbound` holds and the messages in the channel are at every time what was sent,
in order, iff `check_inbound` is never done while `check_outbound` has a message that the sink has
not accepted.

`check_outbound` by itself loses nothing: after every poll of it, what was taken from the channel
was accepted or is held (`Keeps.checkOutbound`).  A message goes when the future that holds it is
dropped (`Keeps.renew_iff`), and `cancels` says when that happens.
-/

namespace Libp2pNym

open StepRun

variable {P R : Type}

/-! ### One poll of `check_outbound` -/

namespace OutboundHalf

/-- The message that was taken from the channel and that the sink has not accepted. -/
def held (s : OutboundHalf P R) : List (OutboundMessage P R) :=
  match s.future with
  | .sending m => [m]
  | .receiving => []
  | .flushing => []

/-- What was taken from the channel was accepted by the sink or is held. -/
def Keeps (w : NymClient R) (t : ThirdParty P R) (s : OutboundHalf P R) : Prop :=
  ∃ ms, s.sink = ms.map (nymPacket w t) ∧ ms ++ s.held = s.outboundRx.got

/-- The message `m` was taken from the channel. -/
def took (s : OutboundHalf P R) (m : OutboundMessage P R) (rest : List (OutboundMessage P R)) :
    OutboundHalf P R :=
  { s with outboundRx := { s.outboundRx with got := s.outboundRx.got ++ [m], queue := rest } }

/-- A poll leaves `check_outbound` with a message that the sink has not accepted: it has one already
or there is one in the channel, and the sink is not ready. -/
def blocks (s : OutboundHalf P R) (pollReady : SinkPoll) : Bool :=
  pollReady == .pending &&
    match s.future with
    | .sending _ => true
    | .receiving => !s.outboundRx.queue.isEmpty
    | .flushing => false

section

variable {w : NymClient R} {t : ThirdParty P R} {s : OutboundHalf P R}

theorem flushSink_fst (s : OutboundHalf P R) (pollFlush : SinkPoll) :
    (s.flushSink pollFlush).1 = s := by
  cases pollFlush <;> rfl

theorem keeps_writeBytes {ms : List (OutboundMessage P R)} {m : OutboundMessage P R}
    (hsink : s.sink = ms.map (nymPacket w t)) (hgot : ms ++ [m] = s.outboundRx.got)
    (pollReady pollFlush : SinkPoll) : (s.writeBytes w t m pollReady pollFlush).1.Keeps w t := by
  cases pollReady with
  | pending => exact ⟨ms, hsink, hgot⟩
  | failed => exact ⟨ms, hsink, hgot⟩
  | ready =>
    show (flushSink _ pollFlush).1.Keeps w t
    rw [flushSink_fst]
    refine ⟨ms ++ [m], ?_, (List.append_nil _).trans hgot⟩
    rw [List.map_append, hsink]
    rfl

/-- What a poll of `check_outbound` does, by where it stands. -/
theorem checkOutbound_cases (w : NymClient R) (t : ThirdParty P R) (s : OutboundHalf P R)
    (pollReady pollFlush : SinkPoll) :
    (s.future = .receiving ∧ s.outboundRx.queue = [] ∧
      (s.checkOutbound w t pollReady pollFlush).1 = s) ∨
    (∃ m q, s.future = .receiving ∧ s.outboundRx.queue = m :: q ∧
      s.checkOutbound w t pollReady pollFlush = (s.took m q).writeBytes w t m pollReady pollFlush) ∨
    (∃ m, s.future = .sending m ∧
      s.checkOutbound w t pollReady pollFlush = s.writeBytes w t m pollReady pollFlush) ∨
    (s.future = .flushing ∧ s.checkOutbound w t pollReady pollFlush = s.flushSink pollFlush) := by
  obtain ⟨rx, sink, future⟩ := s
  cases future with
  | receiving =>
    cases hqueue : rx.queue with
    | nil =>
      refine Or.inl ⟨rfl, rfl, ?_⟩
      simp only [checkOutbound, Chan.pollRecv_of_nil hqueue]
      cases rx.txAlive <;> rfl
    | cons m q =>
      refine Or.inr (Or.inl ⟨m, q, rfl, rfl, ?_⟩)
      simp only [checkOutbound, Chan.pollRecv_of_cons hqueue]
      rfl
  | sending m => exact Or.inr (Or.inr (Or.inl ⟨m, rfl, rfl⟩))
  | flushing => exact Or.inr (Or.inr (Or.inr ⟨rfl, rfl⟩))

/-- **A poll of `check_outbound` loses nothing**, whatever the sink answers. -/
theorem Keeps.checkOutbound (h : s.Keeps w t) (pollReady pollFlush : SinkPoll) :
    (s.checkOutbound w t pollReady pollFlush).1.Keeps w t := by
  have hkeeps := h
  obtain ⟨ms, hsink, hgot⟩ := h
  rcases s.checkOutbound_cases w t pollReady pollFlush with
    ⟨-, -, heq⟩ | ⟨m, q, hfuture, -, heq⟩ | ⟨m, hfuture, heq⟩ | ⟨-, heq⟩
  · rw [heq]
    exact hkeeps
  · rw [heq]
    have hsink' : (s.took m q).sink = ms.map (nymPacket w t) := hsink
    refine keeps_writeBytes hsink' ?_ pollReady pollFlush
    rw [held, hfuture, List.append_nil] at hgot
    rw [hgot]
    rfl
  · rw [heq]
    rw [held, hfuture] at hgot
    exact keeps_writeBytes hsink hgot pollReady pollFlush
  · rw [heq, flushSink_fst]
    exact hkeeps

theorem log_checkOutbound (s : OutboundHalf P R) (pollReady pollFlush : SinkPoll) :
    (s.checkOutbound w t pollReady pollFlush).1.outboundRx.log = s.outboundRx.log := by
  have hwrite : ∀ (s : OutboundHalf P R) (m : OutboundMessage P R),
      (s.writeBytes w t m pollReady pollFlush).1.outboundRx = s.outboundRx := by
    intro s m
    cases pollReady with
    | pending => rfl
    | failed => rfl
    | ready =>
      show (flushSink _ pollFlush).1.outboundRx = _
      rw [flushSink_fst]
  rcases s.checkOutbound_cases w t pollReady pollFlush with
    ⟨-, -, heq⟩ | ⟨m, q, -, hqueue, heq⟩ | ⟨m, -, heq⟩ | ⟨-, heq⟩
  · rw [heq]
  · rw [heq, hwrite]
    simp [Chan.log, hqueue, took]
  · rw [heq, hwrite]
  · rw [heq, flushSink_fst]

/-- **Dropping the future** loses what it holds. -/
theorem Keeps.renew_iff (h : s.Keeps w t) : s.renew.Keeps w t ↔ s.held = [] := by
  obtain ⟨ms, hsink, hgot⟩ := h
  constructor
  · rintro ⟨ms', hsink', hgot'⟩
    -- the sink has accepted as many frames as messages were taken
    have hlen : ms'.length = ms.length := by
      rw [← List.length_map (f := nymPacket w t), ← hsink', ← List.length_map (f := nymPacket w t),
        ← hsink]
      rfl
    have hgot₁ := congrArg List.length hgot
    have hgot₂ := congrArg List.length hgot'
    have hrx : s.renew.outboundRx.got.length = s.outboundRx.got.length := rfl
    have hheld : s.renew.held.length = 0 := rfl
    rw [List.length_append] at hgot₁ hgot₂
    exact List.length_eq_zero_iff.mp (by omega)
  · intro hheld
    rw [hheld] at hgot
    exact ⟨ms, hsink, hgot⟩

/-- What a poll leaves in the hands of `check_outbound` when the sink does not fail; and then it is
pending. -/
theorem held_checkOutbound (s : OutboundHalf P R) {pollReady : SinkPoll}
    (hready : pollReady ≠ .failed) (pollFlush : SinkPoll) :
    ((s.checkOutbound w t pollReady pollFlush).1.held = [] ↔ s.blocks pollReady = false) ∧
      (s.blocks pollReady = true → (s.checkOutbound w t pollReady pollFlush).2 = .pending) := by
  have hwrite : ∀ (s : OutboundHalf P R) (m : OutboundMessage P R),
      ((s.writeBytes w t m pollReady pollFlush).1.held = [] ↔ (pollReady == .pending) = false) ∧
        ((pollReady == .pending) = true →
          (s.writeBytes w t m pollReady pollFlush).2 = .pending) := by
    intro s m
    cases pollReady with
    | pending => exact ⟨⟨nofun, nofun⟩, fun _ => rfl⟩
    | failed => exact absurd rfl hready
    | ready =>
      refine ⟨⟨fun _ => rfl, fun _ => ?_⟩, nofun⟩
      show (flushSink _ pollFlush).1.held = _
      rw [flushSink_fst]
      rfl
  unfold blocks
  rcases s.checkOutbound_cases w t pollReady pollFlush with
    ⟨hfuture, hqueue, heq⟩ | ⟨m, q, hfuture, hqueue, heq⟩ | ⟨m, hfuture, heq⟩ | ⟨hfuture, heq⟩
  · rw [heq, held, hfuture, hqueue]
    simp
  · rw [heq, hfuture, hqueue]
    simpa using hwrite _ m
  · rw [heq, hfuture]
    simpa using hwrite s m
  · rw [heq, hfuture, flushSink_fst, held, hfuture]
    simp

end

end OutboundHalf

/-! ### One poll of the task -/

/-- A poll of `check_inbound` ends it. -/
def InboundHalf.completes (w : NymClient R) (t : ThirdParty P R) (s : InboundHalf P R) : Bool :=
  match s.checkInbound w t with
  | .ok (_, .ready _) => true
  | .ok (_, .pending) => false
  | .error _ => false

namespace MixnetTask

/-- The poll ends `check_inbound` while `check_outbound` has a message that the sink has not
accepted: it has it already, or it is polled first and is left with it. -/
def cancels (w : NymClient R) (t : ThirdParty P R) (s : MixnetTask P R) : Op P R → Bool
  | .poll .left _ _ => s.inbound.completes w t && !s.outbound.held.isEmpty
  | .poll .right pollReady _ => s.inbound.completes w t && s.outbound.blocks pollReady
  | _ => false

/-- The message that was put on the channel with the operation. -/
def sentAt : Op P R → Answer → List (OutboundMessage P R)
  | .send m, .sent => [m]
  | _, _ => []

/-- What was sent on `outbound_tx`, in order. -/
def sent (ops : List (Op P R)) (as : List Answer) : List (OutboundMessage P R) :=
  (ops.zip as).flatMap fun x => sentAt x.1 x.2

/-- The frames that the sink has accepted, then the message that is held, then the messages in the
channel are the messages that were sent. -/
def Lossless (w : NymClient R) (t : ThirdParty P R) (ops : List (Op P R)) (as : List Answer)
    (s : MixnetTask P R) : Prop :=
  ∃ ms, s.outbound.sink = ms.map (nymPacket w t) ∧
    ms ++ s.outbound.held ++ s.outbound.outboundRx.queue = sent ops as

section

variable {w : NymClient R} {t : ThirdParty P R} {s s' : MixnetTask P R}

theorem completes_of_ready {i i' : InboundHalf P R} {r : Except Error Unit}
    (h : i.checkInbound w t = .ok (i', .ready r)) : i.completes w t = true := by
  rw [InboundHalf.completes, h]

theorem completes_of_pending {i i' : InboundHalf P R}
    (h : i.checkInbound w t = .ok (i', .pending)) : i.completes w t = false := by
  rw [InboundHalf.completes, h]

theorem ready_of_completes {i : InboundHalf P R} (h : i.completes w t = true) :
    ∃ i' r, i.checkInbound w t = .ok (i', .ready r) := by
  unfold InboundHalf.completes at h
  split at h
  · rename_i i' r hi
    exact ⟨i', r, hi⟩
  · cases h
  · cases h

theorem poll_cases {order : Select.Order} {pollReady pollFlush : SinkPoll}
    {r : Select.Outcome (Except Error Unit) (Except Error Unit)}
    (h : s.poll w t order pollReady pollFlush = .ok (s', r)) :
    Select.select (InboundHalf.checkInbound w t)
      (fun s => .ok (OutboundHalf.checkOutbound w t pollReady pollFlush s)) id OutboundHalf.renew
      order
      s.inbound s.outbound = .ok ((s'.inbound, s'.outbound), r) := by
  unfold poll at h
  split at h
  · cases h
  · rename_i heq
    cases h
    exact heq

/-- A poll that does not cancel keeps what was taken, and one that cancels does not. -/
theorem keeps_poll (hk : s.outbound.Keeps w t) {order : Select.Order}
    {pollReady pollFlush : SinkPoll} {r : Select.Outcome (Except Error Unit) (Except Error Unit)}
    (h : s.poll w t order pollReady pollFlush = .ok (s', r)) (hready : pollReady ≠ .failed) :
    s'.outbound.Keeps w t ↔ s.cancels w t (.poll order pollReady pollFlush) = false := by
  have hpolled := hk.checkOutbound pollReady pollFlush
  obtain ⟨hheld, hpending⟩ := s.outbound.held_checkOutbound (w := w) (t := t) hready pollFlush
  rcases Select.select_cases (poll_cases h) with
    ⟨a, i, o, rfl, hl, -, ho, ⟨rfl, rfl⟩ | ⟨rfl, hr⟩⟩ | ⟨b, i, o, rfl, hr, -, ho, hl⟩ |
    ⟨rfl, hl, hr⟩
  · -- `check_outbound` was not polled
    rw [ho, hk.renew_iff, cancels, completes_of_ready hl]
    simp
  · -- `check_outbound` was polled first
    rw [Except.ok.inj hr] at hpolled hheld
    rw [ho, hpolled.renew_iff, hheld, cancels, completes_of_ready hl]
    simp
  · -- `check_outbound` is done, and what is done holds nothing
    rw [Except.ok.inj hr] at hpolled hheld hpending
    have hblocks : s.outbound.blocks pollReady = false := by
      rw [Bool.eq_false_iff]
      intro hb
      cases hpending hb
    rw [ho, hpolled.renew_iff, hheld]
    refine iff_of_true hblocks ?_
    rcases hl with ⟨rfl, -⟩ | ⟨rfl, hl⟩
    · rw [cancels, hblocks, Bool.and_false]
    · rw [cancels, completes_of_pending hl, Bool.false_and]
  · rw [Except.ok.inj hr] at hpolled
    refine iff_of_true hpolled ?_
    cases order <;> rw [cancels, completes_of_pending hl, Bool.false_and]

/-- A poll that cancels comes to an end. -/
theorem step_of_cancels {o : Op P R} (h : s.cancels w t o = true) :
    ∃ s' a, s.step w t o = .ok (s', a) := by
  cases o with
  | poll order pollReady pollFlush =>
    have hpoll : ∃ s' r, s.poll w t order pollReady pollFlush = .ok (s', r) := by
      cases order with
      | left =>
        obtain ⟨i, r, hi⟩ := ready_of_completes (Bool.and_eq_true_iff.mp h).1
        refine ⟨⟨id i, s.outbound.renew⟩, .left r, ?_⟩
        rw [poll, Select.select_of_left hi (Or.inl ⟨rfl, rfl⟩)]
      | right =>
        obtain ⟨hc, hb⟩ := Bool.and_eq_true_iff.mp h
        obtain ⟨i, r, hi⟩ := ready_of_completes hc
        have hready : pollReady ≠ .failed := by
          rintro rfl
          cases hb
        have hpending := (s.outbound.held_checkOutbound (w := w) (t := t) hready pollFlush).2 hb
        refine ⟨⟨id i, (s.outbound.checkOutbound w t pollReady pollFlush).1.renew⟩, .left r, ?_⟩
        have hpair : s.outbound.checkOutbound w t pollReady pollFlush
            = ((s.outbound.checkOutbound w t pollReady pollFlush).1, .pending) :=
          Prod.ext rfl hpending
        rw [poll, Select.select_of_left hi (Or.inr ⟨rfl, congrArg Except.ok hpair⟩)]
    obtain ⟨s', r, hpoll⟩ := hpoll
    exact ⟨s', .poll r, by simp only [step, hpoll]⟩
  | _ => cases h

/-- An operation is a poll, or it changes nothing on the outbound side but the channel, which it
adds to what was sent. -/
theorem step_cases {o : Op P R} {a : Answer} (h : s.step w t o = .ok (s', a)) :
    (∃ order pollReady pollFlush r, o = .poll order pollReady pollFlush ∧ a = .poll r ∧
      s.poll w t order pollReady pollFlush = .ok (s', r)) ∨
    (s.cancels w t o = false ∧ s'.outbound.sink = s.outbound.sink ∧
      s'.outbound.future = s.outbound.future ∧
      s'.outbound.outboundRx.got = s.outbound.outboundRx.got ∧
      s'.outbound.outboundRx.queue = s.outbound.outboundRx.queue ++ sentAt o a) := by
  have hnil := (List.append_nil s.outbound.outboundRx.queue).symm
  cases o with
  | send m =>
    right
    simp only [step] at h
    split at h
    · split at h
      · cases h
        exact ⟨rfl, rfl, rfl, rfl, hnil⟩
      · rename_i rx hrx
        obtain ⟨-, rfl⟩ := Chan.send_eq_some_iff.mp hrx
        cases h
        exact ⟨rfl, rfl, rfl, rfl, rfl⟩
    · cases h
      exact ⟨rfl, rfl, rfl, rfl, hnil⟩
  | frame res =>
    right
    simp only [step] at h
    split at h
    · split at h <;> cases h <;> exact ⟨rfl, rfl, rfl, rfl, hnil⟩
    · cases h
      exact ⟨rfl, rfl, rfl, rfl, hnil⟩
  | poll order pollReady pollFlush =>
    left
    simp only [step] at h
    split at h
    · cases h
    · rename_i s₁ r hpoll
      cases h
      exact ⟨order, pollReady, pollFlush, r, rfl, rfl, hpoll⟩
  | dropOutboundTx | endStream | dropInboundRx | dropNotifyRx =>
    cases h
    exact Or.inr ⟨rfl, rfl, rfl, rfl, hnil⟩

/-! ### Runs -/

/-- **An operation keeps what was taken iff it does not cancel.** -/
theorem keeps_step {o : Op P R} {a : Answer} (hk : s.outbound.Keeps w t)
    (h : s.step w t o = .ok (s', a))
    (hsink : ∀ order pollFlush, o ≠ .poll order .failed pollFlush) :
    s'.outbound.Keeps w t ↔ s.cancels w t o = false := by
  rcases step_cases h with
    ⟨order, pollReady, pollFlush, r, rfl, rfl, hpoll⟩ | ⟨hc, hsame, hfuture, hgot, -⟩
  · refine keeps_poll hk hpoll ?_
    rintro rfl
    exact hsink order pollFlush rfl
  · refine iff_of_true ?_ hc
    obtain ⟨ms, hms, hall⟩ := hk
    have hheld : s'.outbound.held = s.outbound.held := by
      rw [OutboundHalf.held, OutboundHalf.held, hfuture]
    exact ⟨ms, hsame.trans hms, by rw [hheld, hgot, hall]⟩

/-- The log of the channel grows by what is sent. -/
theorem log_step {o : Op P R} {a : Answer} (h : s.step w t o = .ok (s', a)) :
    s'.outbound.outboundRx.log = s.outbound.outboundRx.log ++ sentAt o a := by
  rcases step_cases h with
    ⟨order, pollReady, pollFlush, r, rfl, rfl, hpoll⟩ | ⟨-, -, -, hgot, hqueue⟩
  · have hlog := s.outbound.log_checkOutbound (w := w) (t := t) pollReady pollFlush
    show _ = _ ++ []
    rw [List.append_nil]
    rcases Select.select_cases (poll_cases hpoll) with
      ⟨b, i, o, rfl, -, -, ho, ⟨rfl, rfl⟩ | ⟨rfl, hr⟩⟩ | ⟨b, i, o, rfl, hr, -, ho, -⟩ | ⟨rfl, -, hr⟩
    · rw [ho]
      rfl
    · rw [Except.ok.inj hr] at hlog
      rw [ho]
      exact hlog
    · rw [Except.ok.inj hr] at hlog
      rw [ho]
      exact hlog
    · rw [Except.ok.inj hr] at hlog
      exact hlog
  · rw [Chan.log, hgot, hqueue, ← List.append_assoc, Chan.log]

variable {notify : Bool} {ops : List (Op P R)} {as : List Answer}

theorem log_run (h : run (step w t) (new notify) ops = .ok (s, as)) :
    s.outbound.outboundRx.log = sent ops as := by
  refine run_induction (I := fun ops as s => s.outbound.outboundRx.log = sent ops as) rfl ?_ h
  intro xs es m o s' a hr ih hs
  rw [log_step hs, ih]
  exact (flatMap_zip_snoc _ (length_answers hr) o a).symm

theorem lossless_iff_keeps (h : run (step w t) (new notify) ops = .ok (s, as)) :
    Lossless w t ops as s ↔ s.outbound.Keeps w t := by
  unfold Lossless OutboundHalf.Keeps
  rw [← log_run h, Chan.log]
  simp only [List.append_left_inj]

/-- **No outbound message is lost iff none is cancelled**: with a sink that does not fail, the
frames that the sink has accepted, the message that `check_outbound` holds and the messages in the
channel are at every time of the run what was sent on `outbound_tx`, in order, iff no poll of the
run ends `check_inbound` while `check_outbound` has a message that the sink has not accepted. -/
theorem always_lossless_iff (hsink : ∀ order pollFlush, .poll order .failed pollFlush ∉ ops) :
    Always (Lossless w t) (step w t) (new notify) ops ↔
      Along (fun s o => s.cancels w t o = false) (step w t) (new notify) ops := by
  constructor
  · intro hall
    refine along_of_forall fun xs o hxs m es hr => ?_
    have hk := (lossless_iff_keeps hr).mp (hall xs ((List.prefix_append xs [o]).trans hxs) m es hr)
    rw [Bool.eq_false_iff]
    intro hc
    obtain ⟨s', a, hs⟩ := step_of_cancels hc
    have hr' := run_snoc_iff.mpr ⟨m, es, a, hr, hs, rfl⟩
    have hk' := (lossless_iff_keeps hr').mp (hall _ hxs s' _ hr')
    rw [keeps_step hk hs ?_, hc] at hk'
    · cases hk'
    · rintro order pollFlush rfl
      exact hsink order pollFlush (hxs.subset (List.mem_append_right _ (List.mem_singleton_self _)))
  · rintro halong xs ⟨ys, rfl⟩ s es hr
    rw [lossless_iff_keeps hr]
    refine run_induction_along (I := fun os _ s => os ⊆ xs ++ ys → s.outbound.Keeps w t)
      (fun _ => ⟨[], rfl, rfl⟩) ?_ halong.of_append hr (List.subset_append_left _ _)
    intro zs es m o s' a hr ih hc hs hsub
    refine (keeps_step (ih fun x hx => hsub (List.mem_append_left _ hx)) hs ?_).mpr hc
    rintro order pollFlush rfl
    exact hsink order pollFlush (hsub (List.mem_append_right _ (List.mem_singleton_self _)))

end

/-! ### A message that is cancelled -/

/-- A Nym client that writes the address before the message, and takes every response for a message.
-/
def sampleClient : NymClient RawRecipient where
  serialize
    | .send recipient message _ => recipient.val ++ message
  deserialize bytes := .ok (.received bytes)

/-- A message of the transport. -/
def sampleOutbound (b : UInt8) : OutboundMessage RawPeerId RawRecipient where
  message := .connectionResponse { peerId := .fill b, id := ⟨.fill b⟩, recipient := none }
  recipient := .fill 9

/-- Two messages are sent; frames come in while `check_outbound` waits for a message, and while it
flushes. -/
def sampleFlushed : List (Op RawPeerId RawRecipient) :=
  [.frame (.ok .other), .poll .left .pending .pending, .send (sampleOutbound 1),
    .send (sampleOutbound 2), .poll .right .pending .pending, .poll .left .ready .pending,
    .frame (.ok .other), .poll .left .pending .pending, .poll .right .ready .ready]

/-- Both are accepted. -/
theorem lossless_sampleFlushed :
    Always (Lossless sampleClient .raw) (step sampleClient .raw) (new false) sampleFlushed ∧
      ∃ s as, run (step sampleClient .raw) (new false) sampleFlushed = .ok (s, as) ∧
        s.outbound.sink = [nymPacket sampleClient .raw (sampleOutbound 1),
          nymPacket sampleClient .raw (sampleOutbound 2)] := by
  refine ⟨(always_lossless_iff fun order pollFlush => ?_).mpr (along_of_count rfl), _, _, rfl, rfl⟩
  simp [sampleFlushed]

/-- A frame comes in while the first message is flushed, and another one while the second waits for
the sink, which still has to write the first. -/
def sampleCancelled : List (Op RawPeerId RawRecipient) :=
  [.send (sampleOutbound 1), .send (sampleOutbound 2), .poll .left .ready .pending,
    .frame (.ok .other), .poll .left .pending .pending, .poll .left .pending .pending,
    .frame (.ok .other), .poll .right .pending .pending]

/-- The second message is neither accepted nor held nor in the channel. -/
theorem not_lossless_sampleCancelled :
    ∃ s as, run (step sampleClient .raw) (new false) sampleCancelled = .ok (s, as) ∧
      sent sampleCancelled as = [sampleOutbound 1, sampleOutbound 2] ∧
      s.outbound.sink = [nymPacket sampleClient .raw (sampleOutbound 1)] ∧ s.outbound.held = [] ∧
      s.outbound.outboundRx.queue = [] ∧ ¬ Lossless sampleClient .raw sampleCancelled as s := by
  have hstate : ∃ s as, run (step sampleClient .raw) (new false) sampleCancelled = .ok (s, as) ∧
      sent sampleCancelled as = [sampleOutbound 1, sampleOutbound 2] ∧
      s.outbound.sink = [nymPacket sampleClient .raw (sampleOutbound 1)] ∧ s.outbound.held = [] ∧
      s.outbound.outboundRx.queue = [] := ⟨_, _, rfl, rfl, rfl, rfl, rfl⟩
  obtain ⟨s, as, hrun, hsent, hsink, hheld, hqueue⟩ := hstate
  refine ⟨s, as, hrun, hsent, hsink, hheld, hqueue, ?_⟩
  rintro ⟨ms, hms, hall⟩
  -- one message was accepted, and two were sent
  have hone : ms.length = 1 := by
    rw [← List.length_map (f := nymPacket sampleClient .raw), ← hms, hsink, List.length_singleton]
  rw [hheld, hqueue, hsent, List.append_nil, List.append_nil] at hall
  rw [hall] at hone
  cases hone

end MixnetTask

end Libp2pNym
