import Libp2pNym.Mixnet.Equiv.Inbound
import Libp2pNym.Mixnet.Setup

/-!
# What `initialize_mixnet` does with the websocket

`setup_run`: our address is that of the first frame that `get_self_address` does not skip, and the
task relays the messages of the frames after that one, and of no other.  What came before our
address is lost, also a message for the transport.  On the websocket the request for our address
comes first, and then frames for messages of the transport, in the order in which they were sent.
-/

namespace Libp2pNym

open StepRun

variable {P R : Type}

/-! ### Reading our address -/

/-- What a frame is to `get_self_address`. -/
inductive Reply (R : Type) where
  | skipped
  | address (recipient : R)
  | failed (e : Error)
  deriving DecidableEq

def readReply (w : NymSetup R) : Except Unit WsMessage → Reply R
  | .error _ => .failed .websocketStreamError
  | .ok msg =>
    match selfAddressIn w msg, parseNymMessage w.toNymClient msg with
    | some recipient, _ => .address recipient
    | none, .error e => .failed e
    | none, .ok (.error text) => .failed (.nymMessageError text)
    | none, .ok (.received _) => .skipped
    | none, .ok .other => .skipped

/-- A message that brings our address can be parsed. -/
theorem parseNymMessage_of_selfAddressIn {w : NymSetup R} {msg : WsMessage} {recipient : R}
    (h : selfAddressIn w msg = some recipient) :
    parseNymMessage w.toNymClient msg = .ok .other := by
  cases msg with
  | text str =>
    rw [parseNymMessage, w.selfAddress_other str recipient h]
    rfl
  | binary bytes =>
    rw [parseNymMessage, w.selfAddress_other bytes recipient h]
    rfl
  | other => cases h

namespace Setup

/-- The frames `taken` were read, and `rest` is left. -/
def read (s : Setup) (taken rest : List (Except Unit WsMessage)) : Setup :=
  { s with stream := { s.stream with got := s.stream.got ++ taken, queue := rest } }

section

variable {w : NymSetup R} {s : Setup}

theorem readAddress_of_nil {fuel : ℕ} (h : s.stream.queue = []) : readAddress w (fuel + 1) s
    = (s, if s.stream.txAlive then .pending else .ready (.error .recvError)) := by
  rw [readAddress, Chan.pollRecv_of_nil h]
  cases s.stream.txAlive <;> rfl

theorem readAddress_of_cons {fuel : ℕ} {res : Except Unit WsMessage}
    {rest : List (Except Unit WsMessage)} (h : s.stream.queue = res :: rest) :
    readAddress w (fuel + 1) s =
      match readReply w res with
      | .skipped => readAddress w fuel (s.read [res] rest)
      | .address recipient => (s.read [res] rest, .ready (.ok recipient))
      | .failed e => (s.read [res] rest, .ready (.error e)) := by
  rw [readAddress, Chan.pollRecv_of_cons h]
  cases res with
  | error e => rfl
  | ok msg =>
    dsimp only [readReply]
    cases ha : selfAddressIn w msg with
    | some recipient =>
      rw [parseNymMessage_of_selfAddressIn ha]
      rfl
    | none =>
      cases parseNymMessage w.toNymClient msg with
      | error e => rfl
      | ok response => cases response <;> rfl

/-- **The loop of `get_self_address`** skips frames up to the first that is no such, and all of them
if there is none. -/
theorem readAddress_cases {fuel : ℕ} (hfuel : s.stream.queue.length < fuel) :
    ∃ skipped rest, s.stream.queue = skipped ++ rest ∧
      (∀ res ∈ skipped, readReply w res = .skipped) ∧
      (rest = [] ∧ readAddress w fuel s
          = (s.read skipped [], if s.stream.txAlive then .pending else .ready (.error .recvError)) ∨
        ∃ res rest', rest = res :: rest' ∧
          ((∃ recipient, readReply w res = .address recipient ∧ readAddress w fuel s
              = (s.read (skipped ++ [res]) rest', .ready (.ok recipient))) ∨
            ∃ e, readReply w res = .failed e ∧ readAddress w fuel s
              = (s.read (skipped ++ [res]) rest', .ready (.error e)))) := by
  induction fuel generalizing s with
  | zero => exact absurd hfuel (Nat.not_lt_zero _)
  | succ fuel ih =>
    cases hq : s.stream.queue with
    | nil =>
      refine ⟨[], [], rfl, fun _ h => absurd h List.not_mem_nil, Or.inl ⟨rfl, ?_⟩⟩
      rw [readAddress_of_nil hq, read, List.append_nil, ← hq]
    | cons res rest =>
      rw [readAddress_of_cons hq]
      -- the loop ends at the frame, or it goes on with the frame skipped
      cases hres : readReply w res with
      | address recipient =>
        exact ⟨[], res :: rest, rfl, fun _ h => absurd h List.not_mem_nil,
          Or.inr ⟨res, rest, rfl, Or.inl ⟨recipient, hres, rfl⟩⟩⟩
      | failed e =>
        exact ⟨[], res :: rest, rfl, fun _ h => absurd h List.not_mem_nil,
          Or.inr ⟨res, rest, rfl, Or.inr ⟨e, hres, rfl⟩⟩⟩
      | skipped =>
        rw [hq, List.length_cons] at hfuel
        have hlen : (s.read [res] rest).stream.queue.length < fuel :=
          Nat.lt_of_succ_lt_succ hfuel
        have hread : ∀ taken rest', (s.read [res] rest).read taken rest'
            = s.read (res :: taken) rest' := by
          intro taken rest'
          simp only [read, List.append_assoc, List.singleton_append]
        obtain ⟨skipped, rest', hqueue, hskip, hcases⟩ := ih hlen
        simp only [hread] at hcases
        refine ⟨res :: skipped, rest', congrArg (res :: ·) hqueue, ?_, hcases⟩
        intro res' hmem
        rcases List.mem_cons.mp hmem with rfl | hmem
        · exact hres
        · exact hskip res' hmem

/-- While `get_self_address` waits: all frames that were read were skipped, and the request was
written once the sink has taken it. -/
structure Reads (w : NymSetup R) (s : Setup) : Prop where
  skipped : ∀ res ∈ s.stream.got, readReply w res = .skipped
  request : s.sink = if s.future = .sending then [] else [w.selfAddressRequest]

/-- Why `get_self_address` fails at the frames `log`: the sink does, the websocket ends, or the
first frame that is not skipped is to blame. -/
inductive Fails (w : NymSetup R) (log : List (Except Unit WsMessage)) (ended sinkFailed : Prop) :
    Error → Prop
  | sink : sinkFailed → Fails w log ended sinkFailed .websocketStreamError
  | ended : ended → (∀ res ∈ log, readReply w res = .skipped) →
      Fails w log ended sinkFailed .recvError
  | reply (skipped : List (Except Unit WsMessage)) (res : Except Unit WsMessage)
      (rest : List (Except Unit WsMessage)) (e : Error) : log = skipped ++ res :: rest →
      (∀ res ∈ skipped, readReply w res = .skipped) → readReply w res = .failed e →
      Fails w log ended sinkFailed e

theorem Fails.mono {w : NymSetup R} {log : List (Except Unit WsMessage)} {p p' q q' : Prop}
    {e : Error} (h : Fails w log p q e) (hp : p → p') (hq : q → q') : Fails w log p' q' e := by
  cases h with
  | sink h => exact .sink (hq h)
  | ended h hskip => exact .ended (hp h) hskip
  | reply skipped res rest e hlog hskip hres => exact .reply skipped res rest e hlog hskip hres

/-- What a poll of `get_self_address` has come to. -/
def Polled (w : NymSetup R) (s : Setup) (pollReady pollFlush : SinkPoll) (s' : Setup) :
    Poll (Except Error R) → Prop
  | .pending => s'.Reads w ∧ (pollReady = .ready → pollFlush = .ready → s'.stream.queue = [])
  | .ready (.ok recipient) => s'.sink = [w.selfAddressRequest] ∧
      ∃ skipped res, s'.stream.got = skipped ++ [res] ∧
        (∀ res ∈ skipped, readReply w res = .skipped) ∧ readReply w res = .address recipient
  | .ready (.error e) => Fails w s.stream.log (s.stream.txAlive = false)
      (pollReady = .failed ∨ pollFlush = .failed) e

theorem polled_readAddress (pollReady pollFlush : SinkPoll) (h : s.Reads w)
    (hread : s.future = .reading) :
    (readAddress w (s.stream.queue.length + 1) s).1.stream.log = s.stream.log ∧
      (readAddress w (s.stream.queue.length + 1) s).1.stream.txAlive = s.stream.txAlive ∧
      s.Polled w pollReady pollFlush (readAddress w (s.stream.queue.length + 1) s).1
        (readAddress w (s.stream.queue.length + 1) s).2 := by
  have hsink : s.sink = [w.selfAddressRequest] := by
    rw [h.request, hread]
    rfl
  have hgot : ∀ {skipped : List (Except Unit WsMessage)},
      (∀ res ∈ skipped, readReply w res = .skipped) →
      ∀ res ∈ s.stream.got ++ skipped, readReply w res = .skipped := by
    intro skipped hskip res hmem
    rcases List.mem_append.mp hmem with hmem | hmem
    · exact h.skipped res hmem
    · exact hskip res hmem
  obtain ⟨skipped, rest, hqueue, hskip, ⟨rfl, heq⟩ | ⟨res, rest', rfl, hcases⟩⟩ :=
    readAddress_cases (w := w) (Nat.lt_succ_self s.stream.queue.length)
  · -- all frames were skipped: it waits, or the websocket has ended
    have hlog : (s.read skipped []).stream.log = s.stream.log := by
      rw [Chan.log, Chan.log, hqueue, List.append_nil]
      exact List.append_nil _
    rw [heq]
    refine ⟨hlog, rfl, ?_⟩
    dsimp only
    split
    · exact ⟨⟨hgot hskip, h.request⟩, fun _ _ => rfl⟩
    · rename_i htx
      refine .ended (Bool.not_eq_true _ ▸ htx) ?_
      rw [Chan.log, hqueue, List.append_nil]
      exact hgot hskip
  · -- a frame was not skipped: it brings the address, or it is to blame
    have hlog : (s.read (skipped ++ [res]) rest').stream.log = s.stream.log := by
      simp only [Chan.log, read, hqueue, List.append_assoc, List.singleton_append]
    rcases hcases with ⟨recipient, hres, heq⟩ | ⟨e, hres, heq⟩
    · rw [heq]
      exact ⟨hlog, rfl, hsink, s.stream.got ++ skipped, res, (List.append_assoc ..).symm,
        hgot hskip, hres⟩
    · rw [heq]
      refine ⟨hlog, rfl, .reply (s.stream.got ++ skipped) res rest' e ?_ (hgot hskip) hres⟩
      rw [Chan.log, hqueue, List.append_assoc]

theorem polled_flushRequest (pollReady pollFlush : SinkPoll)
    (hskip : ∀ res ∈ s.stream.got, readReply w res = .skipped)
    (hsink : s.sink = [w.selfAddressRequest]) :
    (s.flushRequest w pollFlush).1.stream.log = s.stream.log ∧
      (s.flushRequest w pollFlush).1.stream.txAlive = s.stream.txAlive ∧
      s.Polled w pollReady pollFlush (s.flushRequest w pollFlush).1
        (s.flushRequest w pollFlush).2 := by
  cases pollFlush with
  | pending => exact ⟨rfl, rfl, ⟨hskip, hsink⟩, fun _ h => by cases h⟩
  | failed => exact ⟨rfl, rfl, .sink (Or.inr rfl)⟩
  | ready =>
    have hreads : { s with future := .reading }.Reads w := ⟨hskip, hsink⟩
    exact polled_readAddress pollReady .ready hreads rfl

/-- **A poll of `get_self_address`**, whatever the sink answers. -/
theorem polled_getSelfAddress (pollReady pollFlush : SinkPoll) (h : s.Reads w) :
    (s.getSelfAddress w pollReady pollFlush).1.stream.log = s.stream.log ∧
      (s.getSelfAddress w pollReady pollFlush).1.stream.txAlive = s.stream.txAlive ∧
      s.Polled w pollReady pollFlush (s.getSelfAddress w pollReady pollFlush).1
        (s.getSelfAddress w pollReady pollFlush).2 := by
  have hrequest := h.request
  unfold getSelfAddress
  cases hfuture : s.future with
  | reading => exact polled_readAddress pollReady pollFlush h hfuture
  | flushing =>
    rw [hfuture] at hrequest
    exact polled_flushRequest pollReady pollFlush h.skipped hrequest
  | sending =>
    rw [hfuture] at hrequest
    cases pollReady with
    | pending => exact ⟨rfl, rfl, h, fun hready => by cases hready⟩
    | failed => exact ⟨rfl, rfl, .sink (Or.inl rfl)⟩
    | ready =>
      -- the sink takes the request, and the future goes on to flush it
      have hsink : s.sink ++ [w.selfAddressRequest] = [w.selfAddressRequest] := by
        rw [hrequest]
        rfl
      exact polled_flushRequest (s := { s with sink := s.sink ++ [w.selfAddressRequest] })
        .ready pollFlush h.skipped hsink

end

end Setup

/-! ### Writing to the websocket -/

namespace OutboundHalf

/-- After the frames `pre`, the sink has accepted frames for messages that were taken from the
channel, in order; the message that is held is to follow. -/
def Writes (w : NymClient R) (t : ThirdParty P R) (pre : List Bytes) (s : OutboundHalf P R) :
    Prop :=
  ∃ ms, s.sink = pre ++ ms.map (nymPacket w t) ∧ (ms ++ s.held).Sublist s.outboundRx.got

section

variable {w : NymClient R} {t : ThirdParty P R} {pre : List Bytes} {s : OutboundHalf P R}

theorem writes_writeBytes {ms : List (OutboundMessage P R)} {m : OutboundMessage P R}
    (hsink : s.sink = pre ++ ms.map (nymPacket w t)) (hgot : (ms ++ [m]).Sublist s.outboundRx.got)
    (pollReady pollFlush : SinkPoll) :
    (s.writeBytes w t m pollReady pollFlush).1.Writes w t pre := by
  cases pollReady with
  | pending => exact ⟨ms, hsink, hgot⟩
  | failed => exact ⟨ms, hsink, hgot⟩
  | ready =>
    show (flushSink _ pollFlush).1.Writes w t pre
    rw [flushSink_fst]
    refine ⟨ms ++ [m], ?_, (List.append_nil (ms ++ [m])).symm ▸ hgot⟩
    rw [List.map_append, ← List.append_assoc, ← hsink]
    rfl

theorem Writes.checkOutbound (h : s.Writes w t pre) (pollReady pollFlush : SinkPoll) :
    (s.checkOutbound w t pollReady pollFlush).1.Writes w t pre := by
  have hwrites := h
  obtain ⟨ms, hsink, hgot⟩ := h
  rcases s.checkOutbound_cases w t pollReady pollFlush with
    ⟨-, -, heq⟩ | ⟨m, q, hfuture, -, heq⟩ | ⟨m, hfuture, heq⟩ | ⟨-, heq⟩
  · rw [heq]
    exact hwrites
  · rw [heq]
    have hsink' : (s.took m q).sink = pre ++ ms.map (nymPacket w t) := hsink
    rw [held, hfuture, List.append_nil] at hgot
    exact writes_writeBytes hsink' (hgot.append (List.Sublist.refl [m])) pollReady pollFlush
  · rw [heq]
    rw [held, hfuture] at hgot
    exact writes_writeBytes hsink hgot pollReady pollFlush
  · rw [heq, flushSink_fst]
    exact hwrites

/-- Dropping the future leaves a gap at most. -/
theorem Writes.renew (h : s.Writes w t pre) : s.renew.Writes w t pre := by
  obtain ⟨ms, hsink, hgot⟩ := h
  refine ⟨ms, hsink, ?_⟩
  have hheld : s.renew.held = [] := rfl
  rw [hheld, List.append_nil]
  exact (List.sublist_append_left ms s.held).trans hgot

end

end OutboundHalf

namespace MixnetTask

variable {w : NymClient R} {t : ThirdParty P R} {pre : List Bytes} {s s' : MixnetTask P R}

theorem writes_poll (h : s.outbound.Writes w t pre) {order : Select.Order}
    {pollReady pollFlush : SinkPoll} {r : Select.Outcome (Except Error Unit) (Except Error Unit)}
    (hp : s.poll w t order pollReady pollFlush = .ok (s', r)) : s'.outbound.Writes w t pre := by
  have hpolled := h.checkOutbound pollReady pollFlush
  -- the outbound future is kept only when neither half was done
  rcases Select.select_cases (poll_cases hp) with
    ⟨b, i, o, rfl, -, -, ho, ⟨rfl, rfl⟩ | ⟨rfl, hr⟩⟩ | ⟨b, i, o, rfl, hr, -, ho, -⟩ | ⟨rfl, -, hr⟩
  · rw [ho]
    exact h.renew
  · rw [Except.ok.inj hr] at hpolled
    rw [ho]
    exact hpolled.renew
  · rw [Except.ok.inj hr] at hpolled
    rw [ho]
    exact hpolled.renew
  · rw [Except.ok.inj hr] at hpolled
    exact hpolled

/-- **What the task writes** are frames for messages of the transport, in order. -/
theorem writes_step (h : s.outbound.Writes w t pre) {o : Op P R} {a : Answer}
    (hs : s.step w t o = .ok (s', a)) : s'.outbound.Writes w t pre := by
  rcases step_cases hs with
    ⟨order, pollReady, pollFlush, r, rfl, rfl, hpoll⟩ | ⟨-, hsame, hfuture, hgot, -⟩
  · exact writes_poll h hpoll
  · obtain ⟨ms, hsink, hsub⟩ := h
    refine ⟨ms, hsame.trans hsink, ?_⟩
    rw [OutboundHalf.held, hfuture, hgot]
    exact hsub

end MixnetTask

/-! ### Runs -/

namespace Mixnet

/-- The frame that comes with the operation. -/
def framedAt : Op P R → Answer R → List (Except Unit WsMessage)
  | .frame res, .done => [res]
  | .task o, .task a => MixnetTask.framedAt o a
  | _, _ => []

/-- The frames that have come from the websocket, in order. -/
def framed (ops : List (Op P R)) (as : List (Answer R)) : List (Except Unit WsMessage) :=
  (ops.zip as).flatMap fun v => framedAt v.1 v.2

/-- The message that was put on the channel with the operation. -/
def sentAt : Op P R → Answer R → List (OutboundMessage P R)
  | .task o, .task a => MixnetTask.sentAt o a
  | _, _ => []

/-- What the transport has sent, in order. -/
def sent (ops : List (Op P R)) (as : List (Answer R)) : List (OutboundMessage P R) :=
  (ops.zip as).flatMap fun v => sentAt v.1 v.2

/-- A poll of `initialize_mixnet` at which the sink fails. -/
def SinkFailed (ops : List (Op P R)) : Prop :=
  ∃ pollReady pollFlush, .poll pollReady pollFlush ∈ ops ∧
    (pollReady = .failed ∨ pollFlush = .failed)

theorem SinkFailed.mono {ops : List (Op P R)} (h : SinkFailed ops) (ops' : List (Op P R)) :
    SinkFailed (ops ++ ops') := by
  obtain ⟨pollReady, pollFlush, hmem, hfail⟩ := h
  exact ⟨pollReady, pollFlush, List.mem_append_left _ hmem, hfail⟩

/-- What has become of the websocket in a run. -/
def Follows (w : NymSetup R) (t : ThirdParty P R) (ops : List (Op P R)) (as : List (Answer R)) :
    Mixnet P R → Prop
  | .starting s => s.stream.log = framed ops as ∧ s.Reads w
  | .running recipient task => ∃ skipped res taken, ∃ ms : List (OutboundMessage P R),
      (∀ res ∈ skipped, readReply w res = .skipped) ∧ readReply w res = .address recipient ∧
      task.inbound.stream.log = framed ops as ∧
      task.inbound.stream.got = skipped ++ res :: taken ∧
      task.inbound.inboundTx.log = taken.filterMap (decodeFrame w.toNymClient t) ∧
      task.outbound.outboundRx.log = sent ops as ∧
      task.outbound.sink = w.selfAddressRequest :: ms.map (nymPacket w.toNymClient t) ∧
      ms.Sublist (sent ops as)
  | .failed e => Setup.Fails w (framed ops as) (.endStream ∈ ops) (SinkFailed ops) e

/-- `Follows`, and what every operation needs besides. -/
def Inv (w : NymSetup R) (t : ThirdParty P R) (notify : Bool) (ops : List (Op P R))
    (as : List (Answer R)) : Mixnet P R → Prop
  | .starting s => s.stream.log = framed ops as ∧ s.Reads w ∧
      (s.stream.txAlive = false → .endStream ∈ ops) ∧ sent ops as = []
  | .running recipient task => ∃ skipped res,
      (∀ res ∈ skipped, readReply w res = .skipped) ∧ readReply w res = .address recipient ∧
      task.inbound.stream.log = framed ops as ∧
      task.inbound.Relays w.toNymClient t (skipped ++ [res]) ∧
      (task.inbound.notifyInboundTx = none ↔ notify = false) ∧
      task.outbound.outboundRx.log = sent ops as ∧
      task.outbound.Writes w.toNymClient t [w.selfAddressRequest]
  | .failed e => Setup.Fails w (framed ops as) (.endStream ∈ ops) (SinkFailed ops) e

section

variable {w : NymSetup R} {t : ThirdParty P R} {notify : Bool} {ops : List (Op P R)}
  {as : List (Answer R)} {m : Mixnet P R}

theorem framed_snoc (hlen : as.length = ops.length) (o : Op P R) (a : Answer R) :
    framed (ops ++ [o]) (as ++ [a]) = framed ops as ++ framedAt o a :=
  flatMap_zip_snoc _ hlen o a

theorem sent_snoc (hlen : as.length = ops.length) (o : Op P R) (a : Answer R) :
    sent (ops ++ [o]) (as ++ [a]) = sent ops as ++ sentAt o a :=
  flatMap_zip_snoc _ hlen o a

theorem Inv.follows (h : m.Inv w t notify ops as) : m.Follows w t ops as := by
  cases m with
  | starting s => exact ⟨h.1, h.2.1⟩
  | running recipient task =>
    obtain ⟨skipped, res, hskip, hres, hlog, hrel, -, hsent, ms, hsink, hsub⟩ := h
    obtain ⟨taken, hgot, hpassed, -⟩ := hrel.passed
    rw [List.append_assoc, List.singleton_append] at hgot
    refine ⟨skipped, res, taken, ms, hskip, hres, hlog, hgot, hpassed, hsent, hsink, ?_⟩
    rw [← hsent]
    exact (List.sublist_append_left ms _).trans (hsub.trans (List.sublist_append_left _ _))
  | failed e => exact h

theorem relays_spawn {s : Setup} {pre : List (Except Unit WsMessage)} (hgot : s.stream.got = pre)
    (notify : Bool) : (spawn s notify : MixnetTask P R).inbound.Relays w.toNymClient t pre where
  isOpen.inbound := rfl
  isOpen.notify tx htx := by
    cases notify <;> cases htx
    rfl
  passed := by
    refine ⟨[], hgot.trans (List.append_nil _).symm, rfl, fun tx htx => ?_⟩
    cases notify <;> cases htx
    rfl

/-- An operation that is skipped. -/
theorem Inv.skip (h : m.Inv w t notify ops as) (hlen : as.length = ops.length) (o : Op P R) :
    m.Inv w t notify (ops ++ [o]) (as ++ [.skip]) := by
  have hframed : framed (ops ++ [o]) (as ++ [.skip]) = framed ops as := by
    rw [framed_snoc hlen]
    cases o <;> exact List.append_nil _
  have hsent : sent (ops ++ [o]) (as ++ [.skip]) = sent ops as := by
    rw [sent_snoc hlen]
    cases o <;> exact List.append_nil _
  cases m with
  | starting s =>
    obtain ⟨hlog, hreads, htx, hnone⟩ := h
    exact ⟨hlog.trans hframed.symm, hreads, fun h => List.mem_append_left _ (htx h),
      hsent.trans hnone⟩
  | running recipient task =>
    obtain ⟨skipped, res, hskip, hres, hlog, hrel, hn, hout, hwrites⟩ := h
    exact ⟨skipped, res, hskip, hres, hlog.trans hframed.symm, hrel, hn, hout.trans hsent.symm,
      hwrites⟩
  | failed e =>
    show Setup.Fails w (framed (ops ++ [o]) (as ++ [.skip])) _ _ e
    rw [hframed]
    exact h.mono (List.mem_append_left _) fun hfail => hfail.mono [o]

/-- A poll of `initialize_mixnet`. -/
theorem Inv.poll {s : Setup} (h : (starting s : Mixnet P R).Inv w t notify ops as)
    (hlen : as.length = ops.length) (pollReady pollFlush : SinkPoll) :
    ∃ m' a, (starting s : Mixnet P R).step w t notify (.poll pollReady pollFlush) = .ok (m', a) ∧
      m'.Inv w t notify (ops ++ [.poll pollReady pollFlush]) (as ++ [a]) := by
  obtain ⟨hlog, hreads, htx, hnone⟩ := h
  have hframed : ∀ r, framed (ops ++ [.poll pollReady pollFlush]) (as ++ [.poll r])
      = framed ops as := by
    intro r
    rw [framed_snoc hlen]
    exact List.append_nil _
  have hsent : ∀ r, sent (ops ++ [.poll pollReady pollFlush]) (as ++ [.poll r]) = sent ops as := by
    intro r
    rw [sent_snoc hlen]
    exact List.append_nil _
  obtain ⟨hlog', htx', hpolled⟩ := Setup.polled_getSelfAddress pollReady pollFlush hreads
  rw [hlog] at hlog'
  simp only [step]
  generalize s.getSelfAddress w pollReady pollFlush = v at hlog' htx' hpolled ⊢
  obtain ⟨s', r⟩ := v
  dsimp only at hlog' htx' hpolled ⊢
  cases r with
  | pending =>
    refine ⟨_, _, rfl, hlog'.trans (hframed _).symm, hpolled.1, ?_, (hsent _).trans hnone⟩
    intro hdead
    exact List.mem_append_left _ (htx (htx'.symm.trans hdead))
  | ready r =>
    cases r with
    | ok recipient =>
      obtain ⟨hsink, skipped, res, hgot, hskip, hres⟩ := hpolled
      refine ⟨_, _, rfl, skipped, res, hskip, hres, hlog'.trans (hframed _).symm, ?_, ?_, ?_, ?_⟩
      · exact relays_spawn hgot notify
      · cases notify <;> simp [spawn]
      · exact ((hsent _).trans hnone).symm
      · exact ⟨[], hsink, List.nil_sublist _⟩
    | error e =>
      refine ⟨_, _, rfl, ?_⟩
      show Setup.Fails w (framed _ _) _ _ e
      rw [hframed, ← hlog]
      refine Setup.Fails.mono hpolled (fun hdead => List.mem_append_left _ (htx hdead)) ?_
      intro hfail
      exact ⟨pollReady, pollFlush, List.mem_append_right _ (List.mem_singleton_self _), hfail⟩

/-- **Every operation keeps the invariant**, while the transport takes messages and who is to be
notified is there. -/
theorem Inv.step (ht : t.Canonical) (h : m.Inv w t notify ops as) (hlen : as.length = ops.length)
    {o : Op P R} (hrx : o ≠ .task .dropInboundRx)
    (hnotify : notify = true → o ≠ .task .dropNotifyRx) :
    ∃ m' a, m.step w t notify o = .ok (m', a) ∧ m'.Inv w t notify (ops ++ [o]) (as ++ [a]) := by
  cases m with
  | failed e => exact ⟨_, _, rfl, h.skip hlen o⟩
  | starting s =>
    cases o with
    | frame res =>
      simp only [Mixnet.step]
      split
      · split
        · exact ⟨_, _, rfl, h.skip hlen _⟩
        · rename_i stream hsend
          obtain ⟨-, rfl⟩ := Chan.send_eq_some_iff.mp hsend
          obtain ⟨hlog, hreads, htx, hnone⟩ := h
          refine ⟨_, _, rfl, ?_, ⟨hreads.skipped, hreads.request⟩,
            fun h => List.mem_append_left _ (htx h), ?_⟩
          · rw [framed_snoc hlen, ← hlog]
            exact (List.append_assoc ..).symm
          · rw [sent_snoc hlen, hnone]
            rfl
      · exact ⟨_, _, rfl, h.skip hlen _⟩
    | endStream =>
      obtain ⟨hlog, hreads, -, hnone⟩ := h
      refine ⟨_, _, rfl, ?_, ⟨hreads.skipped, hreads.request⟩, fun _ => ?_, ?_⟩
      · rw [framed_snoc hlen, ← hlog]
        exact (List.append_nil _).symm
      · exact List.mem_append_right _ (List.mem_singleton_self _)
      · rw [sent_snoc hlen, hnone]
        rfl
    | poll pollReady pollFlush => exact h.poll hlen pollReady pollFlush
    | task o => exact ⟨_, _, rfl, h.skip hlen _⟩
  | running recipient task =>
    cases o with
    | frame res => exact ⟨_, _, rfl, h.skip hlen _⟩
    | endStream => exact ⟨_, _, rfl, h.skip hlen _⟩
    | poll pollReady pollFlush => exact ⟨_, _, rfl, h.skip hlen _⟩
    | task o =>
      obtain ⟨skipped, res, hskip, hres, hlog, hrel, hn, hout, hwrites⟩ := h
      -- who is to be notified, if anybody, is there
      have hthere : task.inbound.notifyInboundTx = none ∨ o ≠ .dropNotifyRx := by
        rw [hn]
        cases notify with
        | false => exact Or.inl rfl
        | true => exact Or.inr fun heq => hnotify rfl (congrArg Op.task heq)
      obtain ⟨task', a, hs, hrel', hlog', hn'⟩ :=
        MixnetTask.relays_step ht hrel (fun heq => hrx (congrArg Op.task heq)) hthere
      refine ⟨.running recipient task', .task a, ?_, skipped, res, hskip, hres, ?_, hrel',
        hn'.trans hn, ?_, MixnetTask.writes_step hwrites hs⟩
      · simp only [Mixnet.step, hs]
      · rw [framed_snoc hlen, hlog', hlog]
        rfl
      · rw [sent_snoc hlen, MixnetTask.log_step hs, hout]
        rfl

/-- **Our address, and then the messages.**  For any frames and any schedule, with the transport
there, `initialize_mixnet` and its task never panic.  While `get_self_address` waits, it has skipped
every frame that it has read; it fails at the first frame that says so, at the end of the websocket,
or with the sink.  Once the task runs, its address is that of the first frame that was not skipped,
and it has relayed the messages of the frames that it has taken since, in order; it has written the
request for the address, and then frames for messages that the transport has sent, in order. -/
theorem setup_run (ht : t.Canonical) (hrx : .task .dropInboundRx ∉ ops)
    (hnotify : notify = true → .task .dropNotifyRx ∉ ops) :
    ∃ m as, run (step w t notify) new ops = .ok (m, as) ∧ m.Follows w t ops as := by
  have hmain : ∃ m as, run (step w t notify) new ops = .ok (m, as) ∧ m.Inv w t notify ops as := by
    -- the run is not known to succeed, so the induction is from its end
    induction ops using List.reverseRecOn with
    | nil =>
      refine ⟨_, _, rfl, rfl, ⟨?_, rfl⟩, (fun h => by cases h), rfl⟩
      exact fun res hmem => absurd hmem List.not_mem_nil
    | append_singleton xs o ih =>
      obtain ⟨m, es, hr, hi⟩ := ih (fun h => hrx (List.mem_append_left _ h))
        fun h hmem => hnotify h (List.mem_append_left _ hmem)
      have hlast := List.mem_append_right xs (List.mem_singleton_self o)
      obtain ⟨m', a, hs, hi'⟩ := hi.step ht (length_answers hr) (fun heq => hrx (heq ▸ hlast))
        fun h heq => hnotify h (heq ▸ hlast)
      exact ⟨m', es ++ [a], run_snoc_iff.mpr ⟨m, es, a, hr, hs, rfl⟩, hi'⟩
  obtain ⟨m, as, hr, hi⟩ := hmain
  exact ⟨m, as, hr, hi.follows⟩

end

/-- A Nym client that marks its address by a byte that no message starts with. -/
def sampleSetup : NymSetup RawRecipient where
  serialize := MixnetTask.sampleClient.serialize
  deserialize bytes := .ok (if bytes.head? = some 255 then .other else .received bytes)
  selfAddressRequest := [255]
  selfAddress bytes := if bytes.head? = some 255 then some (.fill 9) else none
  selfAddress_other bytes recipient h := by
    split at h
    · rename_i hhead
      rw [if_pos hhead]
    · cases h

/-- A message comes before our address, and one after it. -/
def sampleStart : List (Op RawPeerId RawRecipient) :=
  [.frame (.ok (.binary (Message.toBytes .raw sampleRequest))), .poll .ready .pending,
    .frame (.ok (.text [255])), .poll .pending .ready,
    .task (.frame (.ok (.binary (Message.toBytes .raw sampleRequest)))),
    .task (.send (MixnetTask.sampleOutbound 1)), .task (.poll .right .ready .pending)]

set_option maxRecDepth 1024 in
/-- The first message is lost, the second is relayed. -/
theorem setup_sampleStart : ∃ recipient task as,
    run (step sampleSetup .raw false) new sampleStart = .ok (.running recipient task, as) ∧
      (running recipient task : Mixnet RawPeerId RawRecipient).Follows sampleSetup .raw sampleStart
        as ∧
      recipient = .fill 9 ∧ task.inbound.inboundTx.log = [⟨sampleRequest⟩] ∧
      task.outbound.sink
        = [[255], nymPacket sampleSetup.toNymClient .raw (MixnetTask.sampleOutbound 1)] := by
  have hstate : ∃ task as, run (step sampleSetup .raw false) new sampleStart
      = .ok (.running (.fill 9) task, as) ∧ task.inbound.inboundTx.log = [⟨sampleRequest⟩] ∧
      task.outbound.sink
        = [[255], nymPacket sampleSetup.toNymClient .raw (MixnetTask.sampleOutbound 1)] :=
    ⟨_, _, rfl, rfl, rfl⟩
  obtain ⟨task, as, hrun, hlog, hsink⟩ := hstate
  have hmain : ∃ m as, run (step sampleSetup .raw false) new sampleStart = .ok (m, as) ∧
      m.Follows sampleSetup .raw sampleStart as :=
    setup_run ThirdParty.raw_canonical (by simp [sampleStart]) (fun h => by cases h)
  obtain ⟨m, as', hrun', hfollows⟩ := hmain
  rw [hrun] at hrun'
  cases hrun'
  exact ⟨_, task, as, hrun, hfollows, rfl, hlog, hsink⟩

end Mixnet

end Libp2pNym
