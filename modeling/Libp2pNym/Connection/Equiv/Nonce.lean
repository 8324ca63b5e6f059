import Libp2pNym.Connection.Equiv.Step
import Libp2pNym.Lib.Run
import Libp2pNym.Message.Equiv.Codec

/-!
# The nonces a connection sends

`step_outbox`: an operation sends some messages, each with the next nonce of the shared counter,
unless it is a `RefusedClose`, the `poll_close` of a substream that is already closed, which draws
a nonce and sends nothing.

`always_noncesExact_iff`: along every run of fewer than `2^64 - 1` messages the nonces sent so far
are `1, ..., k` and the counter is `k + 1` throughout, iff no step of the run is a refused close.
-/

namespace Libp2pNym

open StepRun

variable {P R : Type}

namespace Outbox

/-- The nonces of the transport messages that were put on the channel, in order. -/
def sentNonces (o : Outbox P R) : List UInt64 :=
  o.outboundTx.log.filterMap fun m => m.message.transport?.map TransportMessage.nonce

/-- The messages were sent one after another. -/
def emitAll (o : Outbox P R) (recipient : R) (id : ConnectionId) (msgs : List SubstreamMessage) :
    Outbox P R :=
  msgs.foldl (fun o msg => o.emit recipient id msg) o

theorem emitAll_append (o : Outbox P R) (recipient : R) (id : ConnectionId)
    (msgs msgs' : List SubstreamMessage) :
    o.emitAll recipient id (msgs ++ msgs')
      = (o.emitAll recipient id msgs).emitAll recipient id msgs' :=
  List.foldl_append

theorem sentNonces_emit (o : Outbox P R) (recipient : R) (id : ConnectionId)
    (msg : SubstreamMessage) :
    (o.emit recipient id msg).sentNonces = o.sentNonces ++ [o.messageNonce] := by
  simp [sentNonces, log_emit, Message.transport?]

theorem alive_emitAll {o : Outbox P R} (h : o.Alive) (recipient : R) (id : ConnectionId)
    (msgs : List SubstreamMessage) : (o.emitAll recipient id msgs).Alive := by
  induction msgs generalizing o with
  | nil => exact h
  | cons msg msgs ih => exact ih (o := o.emit recipient id msg) h

/-- The nonces are consecutive from 1 on, and the counter is the next one, as 64-bit numbers. -/
structure Consecutive (o : Outbox P R) : Prop where
  nonces : o.sentNonces = (List.range o.sentNonces.length).map fun i => UInt64.ofNat (i + 1)
  counter : o.messageNonce = UInt64.ofNat (o.sentNonces.length + 1)

theorem Consecutive.emit {o : Outbox P R} (h : o.Consecutive) (recipient : R)
    (id : ConnectionId) (msg : SubstreamMessage) : (o.emit recipient id msg).Consecutive := by
  have hs := sentNonces_emit o recipient id msg
  have hlen : (o.emit recipient id msg).sentNonces.length = o.sentNonces.length + 1 := by
    rw [hs, List.length_append, List.length_singleton]
  constructor
  · rw [hlen, hs, List.range_succ, List.map_append, ← h.nonces, List.map_singleton, ← h.counter]
  · rw [hlen, UInt64.ofNat_add, ← h.counter]
    rfl

theorem Consecutive.emitAll {o : Outbox P R} (h : o.Consecutive) (recipient : R)
    (id : ConnectionId) (msgs : List SubstreamMessage) :
    (o.emitAll recipient id msgs).Consecutive := by
  induction msgs generalizing o with
  | nil => exact h
  | cons msg msgs ih => exact ih (h.emit recipient id msg)

end Outbox

namespace Endpoint

/-! ### What an operation puts on the outbound channel -/

/-- `e'` belongs to the same connection as `e` and has sent some more messages. -/
def Emits (e e' : Endpoint P R) : Prop :=
  e'.conn.id = e.conn.id ∧ e'.conn.remoteRecipient = e.conn.remoteRecipient ∧
    ∃ msgs, e'.outbox = e.outbox.emitAll e.conn.remoteRecipient e.conn.id msgs

theorem Emits.refl (e : Endpoint P R) : e.Emits e := ⟨rfl, rfl, [], rfl⟩

theorem Emits.trans {e₁ e₂ e₃ : Endpoint P R} (h : e₁.Emits e₂) (h' : e₂.Emits e₃) :
    e₁.Emits e₃ := by
  obtain ⟨h1, h2, msgs, h3⟩ := h
  obtain ⟨h1', h2', msgs', h3'⟩ := h'
  refine ⟨h1'.trans h1, h2'.trans h2, msgs ++ msgs', ?_⟩
  rw [h3', h3, h1, h2, Outbox.emitAll_append]

theorem Emits.alive {e e' : Endpoint P R} (h : e.Emits e') (ha : e.outbox.Alive) :
    e'.outbox.Alive := by
  obtain ⟨-, -, msgs, h3⟩ := h
  rw [h3]
  exact Outbox.alive_emitAll ha _ _ _

theorem emits_handles {e e' : Endpoint P R} {s : SubstreamId} {ty : SubstreamMessageType}
    {r : Except Error Unit} (ha : e.outbox.Alive) (hh : Handles e s ty e' r) : e.Emits e' := by
  cases hh with
  | openExists h hs => exact .refl e
  | openAccepted hs ha => exact ⟨rfl, rfl, [⟨s, .openResponse⟩], rfl⟩
  | openUnanswered hs hn => exact absurd ha hn
  | openResponse => exact ⟨rfl, rfl, [], rfl⟩
  | closeUnknown hs => exact .refl e
  | closed h sub hs hsub halive => exact ⟨rfl, rfl, [], rfl⟩
  | data h d hs => exact ⟨rfl, rfl, [], rfl⟩

theorem emits_pollLoop {fuel : ℕ} {e e' : Endpoint P R}
    {r : Poll (Except Error StreamMuxerEvent)} (hw : e.Wf) (ha : e.outbox.Alive)
    (h : pollLoop fuel e = .ok (e', r)) : e.Emits e' := by
  refine (pollLoop_induction (I := fun e₁ => e₁.Wf ∧ e.Emits e₁) ?_ ⟨hw, .refl e⟩ h).2
  intro e₁ msg rest e₂ r₁ hi hq hm
  obtain ⟨hw₁, hem⟩ := hi
  have hh := handles_of_handleMessage (hw₁.took msg rest) hm
  have htook : e₁.Emits (e₁.took msg rest) := ⟨rfl, rfl, [], rfl⟩
  have ha₁ := (hem.trans htook).alive ha
  exact ⟨wf_handles (hw₁.took msg rest) hh, (hem.trans htook).trans (emits_handles ha₁ hh)⟩

/-- `poll_close` on a substream whose closed flag is already set. -/
def RefusedClose (e : Endpoint P R) (o : Op) : Prop :=
  ∃ h sub, o = .close h ∧ e.held h = some sub ∧ sub.closed = true

/-- **What an operation does to the outbox**: it sends some messages with the next nonces, or, if it
is a refused close, draws a nonce for nothing. -/
theorem step_outbox {e e' : Endpoint P R} (hw : e.Wf) (ha : e.outbox.Alive) {o : Op} {a : Answer}
    (hst : e.step o = .ok (e', a)) :
    (¬ e.RefusedClose o ∧ e.Emits e') ∨ (e.RefusedClose o ∧ e'.outbox = e.outbox.draw) := by
  have hne : (∀ h, o ≠ .close h) → ¬ e.RefusedClose o := by
    rintro ho ⟨h, sub, heq, -⟩
    exact ho h heq
  cases steps_of_step hw hst with
  | skip o =>
    by_cases hr : e.RefusedClose o
    · -- the substream is there, so the operation is not skipped
      obtain ⟨k, sub, rfl, hh, hc⟩ := hr
      simp only [step, hh] at hst
      injection hst with hst
      cases congrArg Prod.snd hst
    · exact Or.inl ⟨hr, .refl e⟩
  | receive msg ha => exact Or.inl ⟨hne (by simp), rfl, rfl, [], rfl⟩
  | poll e' r hal hp => exact Or.inl ⟨hne (by simp), emits_pollLoop hw ha hp⟩
  | yielded h rest ha hq => exact Or.inl ⟨hne (by simp), rfl, rfl, [], rfl⟩
  | notYielded hq => exact Or.inl ⟨hne (by simp), .refl e⟩
  | requested s ha hs ho => exact Or.inl ⟨hne (by simp), rfl, rfl, [⟨s, .openRequest⟩], rfl⟩
  | requestExists s h ha hs ho =>
    exact Or.inl ⟨hne (by simp), rfl, rfl, [⟨s, .openRequest⟩], rfl⟩
  | requestUnsent s hal ho => exact absurd ha ho
  | closeReported s rest hq => exact Or.inl ⟨hne (by simp), rfl, rfl, [], rfl⟩
  | closeNotReported hq => exact Or.inl ⟨hne (by simp), .refl e⟩
  | read h sub buf hh => exact Or.inl ⟨hne (by simp), rfl, rfl, [], rfl⟩
  | writeRefused h sub buf hh => exact Or.inl ⟨hne (by simp), rfl, rfl, [], rfl⟩
  | written h sub buf hh hc hn ho =>
    exact Or.inl ⟨hne (by simp), rfl, rfl, [⟨sub.substreamId, .data buf⟩], rfl⟩
  | writeUnsent h sub buf hh ho => exact absurd ha ho
  | flushed h sub hh => exact Or.inl ⟨hne (by simp), rfl, rfl, [], rfl⟩
  | closeRefused h sub hh hc => exact Or.inr ⟨⟨h, sub, rfl, hh, hc⟩, rfl⟩
  | closedLocally h sub hh hc ho =>
    refine Or.inl ⟨?_, rfl, rfl, [⟨sub.substreamId, .close⟩], rfl⟩
    rintro ⟨h', sub', heq, hh', hc'⟩
    cases heq
    rw [hh] at hh'
    cases hh'
    rw [hc] at hc'
    cases hc'
  | closeUnsent h sub hh hc ho => exact absurd ha ho
  | dropped h sub hh => exact Or.inl ⟨hne (by simp), rfl, rfl, [], rfl⟩
  | connectionDropped ha => exact Or.inl ⟨hne (by simp), rfl, rfl, [], rfl⟩

/-- No operation takes the mixnet's receiver away. -/
theorem alive_step {e e' : Endpoint P R} (hw : e.Wf) (ha : e.outbox.Alive) {o : Op} {a : Answer}
    (hst : e.step o = .ok (e', a)) : e'.outbox.Alive := by
  rcases step_outbox hw ha hst with ⟨-, hem⟩ | ⟨-, hd⟩
  · exact hem.alive ha
  · rw [hd]
    exact ha

/-! ### Runs -/

/-- The nonces put on the outbound channel are exactly `1, ..., k`, each once and in order, and the
shared counter is `k + 1`. -/
def NoncesExact (e : Endpoint P R) : Prop :=
  e.outbox.sentNonces.map UInt64.toNat = List.range' 1 e.outbox.sentNonces.length ∧
    e.outbox.messageNonce.toNat = e.outbox.sentNonces.length + 1

/-- Well formed, with the mixnet's receiver there. -/
theorem wf_alive_run (peerId : P) (remoteRecipient : R) (id : ConnectionId) {ops : List Op}
    {e : Endpoint P R} {as : List Answer} :
    run step (new peerId remoteRecipient id Chan.new) ops = .ok (e, as) →
      e.Wf ∧ e.outbox.Alive := by
  refine run_induction (I := fun _ _ (e : Endpoint P R) => e.Wf ∧ e.outbox.Alive)
    ⟨wf_new _ _ _ _, rfl⟩ ?_
  intro xs es m o t e _ hi hs
  exact ⟨wf_step hi.1 hs, alive_step hi.1 hi.2 hs⟩

theorem noncesExact_of_consecutive {e : Endpoint P R} (h : e.outbox.Consecutive)
    (hlen : e.outbox.sentNonces.length < 2 ^ 64 - 1) : e.NoncesExact := by
  constructor
  · rw [h.nonces, List.map_map, List.length_map, List.length_range, List.range'_eq_map_range]
    refine List.map_congr_left fun i hi => ?_
    rw [List.mem_range] at hi
    simp only [Function.comp, UInt64.toNat_ofNat']
    omega
  · rw [h.counter, UInt64.toNat_ofNat']
    omega

/-- **The nonces are exact precisely in the runs without a refused close.**  For every connection
and every run of operations on it and on its substreams that sends fewer than `2^64 - 1` messages,
the nonces are exact after every part of the run iff no step is a `poll_close` of a substream whose
closed flag is already set. -/
theorem always_noncesExact_iff (peerId : P) (remoteRecipient : R) (id : ConnectionId)
    (ops : List Op)
    (hlen : Always (fun _ _ e => e.outbox.sentNonces.length < 2 ^ 64 - 1) step
      (new peerId remoteRecipient id Chan.new) ops) :
    Always (fun _ _ e => e.NoncesExact) step (new peerId remoteRecipient id Chan.new) ops ↔
      Along (fun e o => ¬ e.RefusedClose o) step (new peerId remoteRecipient id Chan.new) ops := by
  constructor
  · intro hall
    clear hlen
    induction ops using List.reverseRecOn with
    | nil => trivial
    | append_singleton xs o ih =>
      refine along_append_singleton.mpr ⟨ih hall.of_append, fun m es hr hrc => ?_⟩
      obtain ⟨hw, ha⟩ := wf_alive_run _ _ _ hr
      obtain ⟨k, sub, rfl, hh, hc⟩ := hrc
      obtain ⟨⟨t, a⟩, hs⟩ := step_isOk_of_ne_poll (e := m) (o := .close k) (by simp)
      have hbefore := (hall xs (List.prefix_append xs _) m es hr).2
      have hafter := (hall.snoc hr hs).2
      rcases step_outbox hw ha hs with ⟨hn, -⟩ | ⟨-, hd⟩
      · exact hn ⟨k, sub, rfl, hh, hc⟩
      · -- nothing was sent, but the counter has moved
        rw [hd] at hafter
        have hsame : m.outbox.draw.sentNonces = m.outbox.sentNonces := rfl
        have hnext : m.outbox.draw.messageNonce = m.outbox.messageNonce + 1 := rfl
        rw [hsame, hnext, UInt64.toNat_add, hbefore] at hafter
        simp only [UInt64.reduceToNat] at hafter
        omega
  · intro hal xs hxs t es hr
    have hbound := hlen xs hxs t es hr
    obtain ⟨ys, rfl⟩ := hxs
    refine noncesExact_of_consecutive ?_ hbound
    refine run_induction_along (I := fun _ _ e => e.outbox.Consecutive) ⟨rfl, rfl⟩ ?_
      hal.of_append hr
    intro xs es m o t a hr ih hP hs
    obtain ⟨hw, ha⟩ := wf_alive_run _ _ _ hr
    rcases step_outbox hw ha hs with ⟨-, hem⟩ | ⟨hrc, -⟩
    · obtain ⟨-, -, msgs, ho⟩ := hem
      rw [ho]
      exact ih.emitAll _ _ _
    · exact absurd hrc hP

/-- A new connection between two nodes. -/
def sample : Endpoint RawPeerId RawRecipient := new (.fill 7) (.fill 9) ⟨.fill 1⟩ Chan.new

/-- A substream is opened, written to and closed. -/
def sampleOps : List Op := [.pollOutbound ⟨.fill 2⟩, .write 0 [1], .close 0]

/-- A substream is opened and closed twice before a second one is opened. -/
def sampleDoubleClose : List Op :=
  [.pollOutbound ⟨.fill 2⟩, .close 0, .close 0, .pollOutbound ⟨.fill 3⟩]

theorem always_noncesExact_sampleOps :
    Always (fun _ _ e => e.NoncesExact) step sample sampleOps := by
  refine (always_noncesExact_iff _ _ _ sampleOps ?_).mpr ?_
  · intro xs hxs t es hr
    rw [← List.mem_inits] at hxs
    simp only [sampleOps, List.inits, List.map_cons, List.map_nil, List.mem_cons,
      List.not_mem_nil, or_false] at hxs
    rcases hxs with rfl | rfl | rfl | rfl
    all_goals
      cases hr
      decide
  · have hnot : ∀ {e : Endpoint RawPeerId RawRecipient} {o : Op}, (∀ h, o ≠ .close h) →
        ¬ e.RefusedClose o := by
      rintro e o ho ⟨h, sub, heq, -⟩
      exact ho h heq
    refine ⟨hnot (by simp), fun _ _ hs => ?_⟩
    cases hs
    refine ⟨hnot (by simp), fun _ _ hs => ?_⟩
    cases hs
    refine ⟨?_, fun _ _ _ => trivial⟩
    rintro ⟨h, sub, heq, hh, hc⟩
    cases heq
    cases hh
    cases hc

/-- After the second close the next nonce is 4, and 3 is never sent. -/
theorem not_noncesExact_sampleDoubleClose :
    ∃ t es, run step sample sampleDoubleClose = .ok (t, es) ∧
      es = [.pollOutbound (.ready (.ok 0)), .close (.ready (.ok ())),
        .close (.ready (.error streamClosed)), .pollOutbound (.ready (.ok 1))] ∧
      t.outbox.sentNonces = [1, 2, 4] ∧ t.outbox.messageNonce = 5 ∧ ¬ t.NoncesExact := by
  refine ⟨_, _, rfl, rfl, by decide, by decide, ?_⟩
  rintro ⟨-, hcounter⟩
  revert hcounter
  decide

end Endpoint

end Libp2pNym
