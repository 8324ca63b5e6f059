import Libp2pNym.Message.Equiv.Language
import Libp2pNym.Mixnet.Equiv.Outbound

/-!
# What the mixnet task does with inbound frames

`relays_run`: the task passes on to the transport exactly the messages of the frames that it has
taken, in order, whatever the frames are and however its polls are scheduled.  Unlike
`check_outbound`, `check_inbound` holds nothing when it is dropped: a poll of it leaves the frame in
the websocket or is done with it (`checkInbound_cases`).
-/

namespace Libp2pNym

open StepRun

variable {P R : Type}

/-- The message for the transport in what a frame brings, if there is one. -/
def decodeResponse (t : ThirdParty P R) : ServerResponse → Option (InboundMessage P R)
  | .received bytes => (parseMessageData t bytes).toOption
  | .error _ => none
  | .other => none

/-- The message for the transport in a frame, if there is one. -/
def decodeFrame (w : NymClient R) (t : ThirdParty P R) :
    Except Unit WsMessage → Option (InboundMessage P R)
  | .ok msg => (parseNymMessage w msg).toOption.bind (decodeResponse t)
  | .error _ => none

/-! ### One poll of `check_inbound` -/

namespace InboundHalf

/-- The transport takes messages, and who is to be notified is there. -/
structure Open (s : InboundHalf P R) : Prop where
  inbound : s.inboundTx.rxAlive = true
  notify : ∀ tx, s.notifyInboundTx = some tx → tx.rxAlive = true

/-- The frame was taken, and its message was passed on. -/
def relayed (w : NymClient R) (t : ThirdParty P R) (s : InboundHalf P R)
    (res : Except Unit WsMessage) (rest : List (Except Unit WsMessage)) : InboundHalf P R where
  stream := { s.stream with got := s.stream.got ++ [res], queue := rest }
  inboundTx :=
    { s.inboundTx with queue := s.inboundTx.queue ++ (decodeFrame w t res).toList }
  notifyInboundTx := s.notifyInboundTx.map fun tx => { tx with queue := tx.queue ++ [()] }

section

variable {w : NymClient R} {t : ThirdParty P R} {s s' : InboundHalf P R}

/-- A message that the websocket brings is passed on if it can be decoded. -/
theorem handleInbound_cases (ht : t.Canonical) (hrx : s.inboundTx.rxAlive = true)
    (msg : WsMessage) :
    (decodeFrame w t (.ok msg) = none ∧ ∃ e, s.handleInbound w t msg = .ok (s, .error e)) ∨
    ∃ data, decodeFrame w t (.ok msg) = some data ∧ s.handleInbound w t msg = .ok
      ({ s with inboundTx := { s.inboundTx with queue := s.inboundTx.queue ++ [data] } },
        .ok ()) := by
  have hdecode : decodeFrame w t (.ok msg)
      = (parseNymMessage w msg).toOption.bind (decodeResponse t) := rfl
  rw [hdecode, handleInbound]
  cases parseNymMessage w msg with
  | error e => exact Or.inl ⟨rfl, _, rfl⟩
  | ok response =>
    cases response with
    | error text => exact Or.inl ⟨rfl, _, rfl⟩
    | other => exact Or.inl ⟨rfl, _, rfl⟩
    | received bytes =>
      rcases parseMessageData_settles ht bytes with ⟨e, he⟩ | ⟨data, hd, -⟩
      · left
        simp [decodeResponse, Except.toOption, he]
      · right
        simp [decodeResponse, Except.toOption, hd, Chan.send_of_alive hrx]

/-- **A poll of `check_inbound`** takes the oldest frame and is done with it, or takes none. -/
theorem checkInbound_cases (ht : t.Canonical) (ho : s.Open) :
    (s.stream.queue = [] ∧ ∃ r, s.checkInbound w t = .ok (s, r)) ∨
    ∃ res rest r, s.stream.queue = res :: rest ∧
      s.checkInbound w t = .ok (s.relayed w t res rest, .ready r) := by
  cases hq : s.stream.queue with
  | nil =>
    left
    refine ⟨rfl, ?_⟩
    rw [checkInbound, Chan.pollRecv_of_nil hq]
    cases s.stream.txAlive <;> exact ⟨_, rfl⟩
  | cons res rest =>
    right
    have hnotify : notify { s with
          stream := { s.stream with got := s.stream.got ++ [res], queue := rest } }
        = some { s with
            stream := { s.stream with got := s.stream.got ++ [res], queue := rest }
            notifyInboundTx :=
              s.notifyInboundTx.map fun tx => { tx with queue := tx.queue ++ [()] } } := by
      unfold notify
      cases hn : s.notifyInboundTx with
      | none => rfl
      | some tx => simp only [Chan.send_of_alive (ho.notify tx hn), Option.map_some]
    rw [checkInbound, Chan.pollRecv_of_cons hq]
    simp only [hnotify]
    -- the transport is notified before the frame is looked at, so also of one that is dropped
    cases res with
    | error e =>
      refine ⟨.error e, rest, .error .websocketStreamError, rfl, ?_⟩
      simp [relayed, decodeFrame]
    | ok msg =>
      rcases handleInbound_cases (w := w) ht (s := { s with
          stream := { s.stream with got := s.stream.got ++ [.ok msg], queue := rest }
          notifyInboundTx :=
            s.notifyInboundTx.map fun tx => { tx with queue := tx.queue ++ [()] } }) ho.inbound msg
        with ⟨hd, e, hr⟩ | ⟨data, hd, hr⟩
      · refine ⟨.ok msg, rest, .error e, rfl, ?_⟩
        simp [relayed, hd, hr]
      · refine ⟨.ok msg, rest, .ok (), rfl, ?_⟩
        simp [relayed, hd, hr]

/-- The frames `pre` were taken by others.  The messages of the frames that were taken since are
what was passed on, and each of these frames was notified. -/
structure Relays (w : NymClient R) (t : ThirdParty P R) (pre : List (Except Unit WsMessage))
    (s : InboundHalf P R) : Prop where
  isOpen : s.Open
  passed : ∃ taken, s.stream.got = pre ++ taken ∧
    s.inboundTx.log = taken.filterMap (decodeFrame w t) ∧
    ∀ tx, s.notifyInboundTx = some tx → tx.log.length = taken.length

theorem Relays.relayed {pre : List (Except Unit WsMessage)} (h : s.Relays w t pre)
    (res : Except Unit WsMessage) (rest : List (Except Unit WsMessage)) :
    (s.relayed w t res rest).Relays w t pre where
  isOpen.inbound := h.isOpen.inbound
  isOpen.notify tx htx := by
    obtain ⟨tx₀, htx₀, rfl⟩ := Option.map_eq_some_iff.mp htx
    exact h.isOpen.notify tx₀ htx₀
  passed := by
    obtain ⟨taken, hgot, hlog, hlen⟩ := h.passed
    refine ⟨taken ++ [res], ?_, ?_, fun tx htx => ?_⟩
    · show s.stream.got ++ [res] = _
      rw [hgot, List.append_assoc]
    · show s.inboundTx.got ++ (s.inboundTx.queue ++ _) = (taken ++ [res]).filterMap _
      rw [List.filterMap_append, ← hlog, ← List.append_assoc]
      cases hd : decodeFrame w t res <;> simp [hd, Chan.log]
    · obtain ⟨tx₀, htx₀, rfl⟩ := Option.map_eq_some_iff.mp htx
      have htx := hlen tx₀ htx₀
      simp only [Chan.log, List.length_append, List.length_singleton] at htx ⊢
      omega

theorem log_relayed {res : Except Unit WsMessage} {rest : List (Except Unit WsMessage)}
    (hq : s.stream.queue = res :: rest) : (s.relayed w t res rest).stream.log = s.stream.log := by
  show (s.stream.got ++ [res]) ++ rest = s.stream.got ++ s.stream.queue
  rw [hq, List.append_assoc, List.singleton_append]

end

end InboundHalf

/-! ### The task -/

namespace MixnetTask

/-- The frame that comes with the operation. -/
def framedAt : Op P R → Answer → List (Except Unit WsMessage)
  | .frame res, .done => [res]
  | _, _ => []

/-- The frames that have come from the websocket, in order. -/
def framed (ops : List (Op P R)) (as : List Answer) : List (Except Unit WsMessage) :=
  (ops.zip as).flatMap fun v => framedAt v.1 v.2

section

variable {w : NymClient R} {t : ThirdParty P R} {s : MixnetTask P R}
  {pre : List (Except Unit WsMessage)}

/-- **A poll of the task** does not panic, and takes the oldest frame or none, whatever it polls
first and whatever the sink answers. -/
theorem inbound_poll (ht : t.Canonical) (ho : s.inbound.Open) (order : Select.Order)
    (pollReady pollFlush : SinkPoll) : ∃ s' r, s.poll w t order pollReady pollFlush = .ok (s', r) ∧
      (s'.inbound = s.inbound ∨ ∃ res rest, s.inbound.stream.queue = res :: rest ∧
        s'.inbound = s.inbound.relayed w t res rest) := by
  have hcheck : ∃ i a, s.inbound.checkInbound w t = .ok (i, a) ∧
      (i = s.inbound ∨ ∃ res rest, s.inbound.stream.queue = res :: rest ∧
        i = s.inbound.relayed w t res rest) := by
    rcases InboundHalf.checkInbound_cases ht ho with ⟨-, r, hr⟩ | ⟨res, rest, r, hq, hr⟩
    · exact ⟨_, _, hr, Or.inl rfl⟩
    · exact ⟨_, _, hr, Or.inr ⟨res, rest, hq, rfl⟩⟩
  obtain ⟨i, a, hi, hcases⟩ := hcheck
  have hisOk : ∃ v, Select.select (InboundHalf.checkInbound w t)
      (fun s => .ok (OutboundHalf.checkOutbound w t pollReady pollFlush s)) id OutboundHalf.renew
      order s.inbound s.outbound = .ok v :=
    Select.select_isOk ⟨_, hi⟩ ⟨_, rfl⟩
  obtain ⟨⟨⟨i', o'⟩, r⟩, hsel⟩ := hisOk
  have hpoll : s.poll w t order pollReady pollFlush = .ok (⟨i', o'⟩, r) := by
    rw [poll, hsel]
  refine ⟨_, r, hpoll, ?_⟩
  -- the inbound half is polled unless the outbound one was first and done
  rcases Select.select_cases hsel with
    ⟨b, i₁, o₁, -, hl, rfl, -, -⟩ | ⟨b, i₁, o₁, -, -, rfl, -, ⟨-, rfl⟩ | ⟨-, hl⟩⟩ | ⟨-, hl, -⟩
  · rw [hi] at hl
    cases hl
    exact hcases
  · exact Or.inl rfl
  · rw [hi] at hl
    cases hl
    exact hcases
  · rw [hi] at hl
    cases hl
    exact hcases

theorem relays_poll (ht : t.Canonical) (h : s.inbound.Relays w t pre) (order : Select.Order)
    (pollReady pollFlush : SinkPoll) : ∃ s' r, s.poll w t order pollReady pollFlush = .ok (s', r) ∧
      s'.inbound.Relays w t pre ∧ s'.inbound.stream.log = s.inbound.stream.log ∧
      (s'.inbound.notifyInboundTx = none ↔ s.inbound.notifyInboundTx = none) := by
  obtain ⟨s', r, hpoll, heq | ⟨res, rest, hq, heq⟩⟩ :=
    inbound_poll (w := w) ht h.isOpen order pollReady pollFlush
  · refine ⟨s', r, hpoll, ?_⟩
    rw [heq]
    exact ⟨h, rfl, Iff.rfl⟩
  · refine ⟨s', r, hpoll, ?_⟩
    rw [heq]
    exact ⟨h.relayed res rest, InboundHalf.log_relayed hq, Option.map_eq_none_iff⟩

/-- An operation, while the transport takes messages and who is to be notified is there. -/
theorem relays_step (ht : t.Canonical) (h : s.inbound.Relays w t pre) {o : Op P R}
    (hrx : o ≠ .dropInboundRx) (hnotify : s.inbound.notifyInboundTx = none ∨ o ≠ .dropNotifyRx) :
    ∃ s' a, s.step w t o = .ok (s', a) ∧ s'.inbound.Relays w t pre ∧
      s'.inbound.stream.log = s.inbound.stream.log ++ framedAt o a ∧
      (s'.inbound.notifyInboundTx = none ↔ s.inbound.notifyInboundTx = none) := by
  have hnil := (List.append_nil s.inbound.stream.log).symm
  cases o with
  | send m =>
    simp only [step]
    split
    · split <;> exact ⟨_, _, rfl, h, hnil, Iff.rfl⟩
    · exact ⟨_, _, rfl, h, hnil, Iff.rfl⟩
  | dropOutboundTx => exact ⟨_, _, rfl, h, hnil, Iff.rfl⟩
  | frame res =>
    simp only [step]
    split
    · split
      · exact ⟨_, _, rfl, h, hnil, Iff.rfl⟩
      · rename_i stream hsend
        obtain ⟨-, rfl⟩ := Chan.send_eq_some_iff.mp hsend
        refine ⟨_, _, rfl, ⟨⟨h.isOpen.inbound, h.isOpen.notify⟩, h.passed⟩, ?_, Iff.rfl⟩
        exact (List.append_assoc ..).symm
    · exact ⟨_, _, rfl, h, hnil, Iff.rfl⟩
  | endStream =>
    exact ⟨_, _, rfl, ⟨⟨h.isOpen.inbound, h.isOpen.notify⟩, h.passed⟩, hnil, Iff.rfl⟩
  | dropInboundRx => exact absurd rfl hrx
  | dropNotifyRx =>
    have hnone := hnotify.resolve_right fun h => h rfl
    have hmap : s.inbound.notifyInboundTx.map Chan.dropRx = none := by rw [hnone, Option.map_none]
    obtain ⟨taken, hgot, hlog, -⟩ := h.passed
    refine ⟨_, _, rfl, ⟨⟨h.isOpen.inbound, ?_⟩, taken, hgot, hlog, ?_⟩, hnil,
      Option.map_eq_none_iff⟩
    · intro tx htx
      rw [show _ = none from hmap] at htx
      cases htx
    · intro tx htx
      rw [show _ = none from hmap] at htx
      cases htx
  | poll order pollReady pollFlush =>
    obtain ⟨s', r, hr, hrel, hlog, hn⟩ := relays_poll ht h order pollReady pollFlush
    refine ⟨s', .poll r, ?_, hrel, hlog.trans hnil, hn⟩
    simp only [step, hr]

theorem relays_new (notify : Bool) : (new notify : MixnetTask P R).inbound.Relays w t [] where
  isOpen.inbound := rfl
  isOpen.notify tx htx := by
    cases notify <;> cases htx
    rfl
  passed := by
    refine ⟨[], rfl, rfl, fun tx htx => ?_⟩
    cases notify <;> cases htx
    rfl

/-- **Every frame that was taken is relayed.**  For any frames and any schedule, with the transport
there and, if the task notifies, the receiver of its notifications: the task never panics; the
frames that it has taken and those that wait are the ones that have come, in order; and what it has
put into the channel to the transport are the messages of the frames that it has taken, in order.  A
frame that cannot be read or decoded is skipped. -/
theorem relays_run (ht : t.Canonical) {notify : Bool} {ops : List (Op P R)}
    (hrx : .dropInboundRx ∉ ops) (hnotify : notify = true → .dropNotifyRx ∉ ops) :
    ∃ s as, run (step w t) (new notify) ops = .ok (s, as) ∧
      s.inbound.stream.log = framed ops as ∧
      s.inbound.inboundTx.log = s.inbound.stream.got.filterMap (decodeFrame w t) ∧
      ∀ tx, s.inbound.notifyInboundTx = some tx → tx.log.length = s.inbound.stream.got.length := by
  have hmain : ∃ s as, run (step w t) (new notify) ops = .ok (s, as) ∧ s.inbound.Relays w t [] ∧
      s.inbound.stream.log = framed ops as ∧
      (s.inbound.notifyInboundTx = none ↔ notify = false) := by
    -- the run is not known to succeed, so the induction is from its end
    induction ops using List.reverseRecOn with
    | nil =>
      refine ⟨_, _, rfl, relays_new notify, rfl, ?_⟩
      cases notify <;> simp [new]
    | append_singleton xs o ih =>
      obtain ⟨m, es, hr, hrel, hlog, hn⟩ := ih (fun h => hrx (List.mem_append_left _ h))
        fun h hmem => hnotify h (List.mem_append_left _ hmem)
      have hlast := List.mem_append_right xs (List.mem_singleton_self o)
      have hthere : m.inbound.notifyInboundTx = none ∨ o ≠ .dropNotifyRx := by
        rw [hn]
        cases notify with
        | false => exact Or.inl rfl
        | true => exact Or.inr fun heq => hnotify rfl (heq ▸ hlast)
      obtain ⟨s', a, hs, hrel', hlog', hn'⟩ :=
        relays_step ht hrel (fun heq => hrx (heq ▸ hlast)) hthere
      refine ⟨s', es ++ [a], run_snoc_iff.mpr ⟨m, es, a, hr, hs, rfl⟩, hrel', ?_, hn'.trans hn⟩
      rw [hlog', hlog]
      exact (flatMap_zip_snoc _ (length_answers hr) o a).symm
  obtain ⟨s, as, hr, hrel, hlog, -⟩ := hmain
  obtain ⟨taken, hgot, hpassed, hnotified⟩ := hrel.passed
  rw [List.nil_append] at hgot
  subst hgot
  exact ⟨s, as, hr, hlog, hpassed, hnotified⟩

end

/-- Frames of all kinds come, the last while a message is sent. -/
def sampleFrames : List (Op RawPeerId RawRecipient) :=
  [.frame (.ok (.binary (Message.toBytes .raw sampleRequest))), .frame (.error ()),
    .poll .right .pending .pending, .send (sampleOutbound 1), .poll .left .pending .pending,
    .frame (.ok (.text [5])), .poll .right .ready .pending,
    .frame (.ok (.binary (Message.toBytes .raw sampleRequest))), .poll .right .ready .pending]

set_option maxRecDepth 4000 in
/-- All four frames are taken and notified, and two of them are relayed. -/
theorem relays_sampleFrames :
    ∃ s as tx, run (step sampleClient .raw) (new true) sampleFrames = .ok (s, as) ∧
      (framed sampleFrames as).length = 4 ∧ s.inbound.stream.queue = [] ∧
      s.inbound.stream.got.filterMap (decodeFrame sampleClient .raw)
        = [⟨sampleRequest⟩, ⟨sampleRequest⟩] ∧
      s.inbound.notifyInboundTx = some tx ∧ tx.log.length = 4 := by
  have hstate : ∃ s as tx, run (step sampleClient .raw) (new true) sampleFrames = .ok (s, as) ∧
      (framed sampleFrames as).length = 4 ∧ s.inbound.stream.queue = [] ∧
      s.inbound.inboundTx.log = [⟨sampleRequest⟩, ⟨sampleRequest⟩] ∧
      s.inbound.notifyInboundTx = some tx := ⟨_, _, _, rfl, rfl, rfl, rfl, rfl⟩
  obtain ⟨s, as, tx, hrun, hframed, hqueue, hrelayed, htx⟩ := hstate
  have hrx : .dropInboundRx ∉ sampleFrames := by simp [sampleFrames]
  obtain ⟨s', as', hrun', hlog, hpassed, hnotified⟩ :=
    relays_run ThirdParty.raw_canonical hrx fun _ => (by simp [sampleFrames])
  obtain ⟨rfl, rfl⟩ : s = s' ∧ as = as' := Prod.mk.inj (Except.ok.inj (hrun.symm.trans hrun'))
  have hgot : s.inbound.stream.got.length = 4 := by
    rw [← hframed, ← hlog, Chan.log, hqueue, List.append_nil]
  exact ⟨s, as, tx, hrun, hframed, hqueue, hpassed.symm.trans hrelayed, htx,
    (hnotified tx htx).trans hgot⟩

end MixnetTask

end Libp2pNym
