import Libp2pNym.Transport.Equiv.Panic

/-!
# What a failed message leaves behind

The checks of `handle_connection_request` and `handle_connection_response` come before the first
change of the transport, but their last step can still fail, and so can the last step of
`handle_transport_message`, after `try_push` has moved the queue.  `Strands n msg` says when that
happens: a response for a dial whose future is gone, a transport message in order without a
connection to take it, or a request that cannot be answered.  `untouched_of_failed_iff`: a message
that is refused leaves the transport and all channels as they were iff it is none of these.
-/

namespace Libp2pNym.Node

open StepRun

variable {P R : Type}

/-- The maps and queues of the transport, its outbound channel and the channels to all connections
are the same. -/
def Untouched (n n' : Node P R) : Prop :=
  n'.transport = n.transport ∧ ∀ h, n'.inbound h = n.inbound h

/-- Handling the message fails in its last step. -/
def Strands (n : Node P R) : Message P R → Prop
  | .connectionRequest msg => msg.recipient ≠ none ∧ n.transport.connections msg.id = none ∧
      (n.queueOf msg.id).nextExpectedNonce = 0 ∧ ¬ n.Mixnet
  | .connectionResponse msg => ∃ pending, n.transport.pendingDials msg.id = some pending ∧
      n.transport.connections msg.id = none ∧ (n.queueOf msg.id).nextExpectedNonce = 0 ∧
      ∀ dial, n.dials pending.connectionTx = some dial → dial.connectionRx.rxAlive = false
  | .transportMessage msg => msg.nonce = (n.queueOf msg.id).nextExpectedNonce ∧
      ∀ h, n.transport.connections msg.id = some h → (n.inbound h).rxAlive = false

theorem tryPush_eq_some_iff {q : MessageQueue} {msg : TransportMessage} :
    (q.tryPush msg).1 = some msg ↔ msg.nonce = q.nextExpectedNonce := by
  unfold MessageQueue.tryPush
  split
  · rename_i heq
    exact ⟨fun _ => heq, fun _ => rfl⟩
  · rename_i hne
    refine ⟨fun h => ?_, fun heq => absurd heq hne⟩
    split at h <;> cases h

/-- A message that is refused and does not fail in its last step changes nothing. -/
theorem untouched_of_handled {n n' : Node P R} {msg : Message P R} {err : Error}
    (hh : Handled n msg n' (.error err)) (hs : ¬ n.Strands msg) : n.Untouched n' := by
  cases hh with
  | noRecipient msg hr => exact ⟨rfl, fun _ => rfl⟩
  | idExists msg recipient h hr hc => exact ⟨rfl, fun _ => rfl⟩
  | unanswered msg recipient hr hc hq ha =>
    exact absurd ⟨by rw [hr]; exact Option.some_ne_none recipient, hc, hq, ha⟩ hs
  | alreadyEstablished msg h hc => exact ⟨rfl, fun _ => rfl⟩
  | noDial msg hc hp => exact ⟨rfl, fun _ => rfl⟩
  | unresolved msg pending hc hp hq hd => exact absurd ⟨pending, hp, hc, hq, hd⟩ hs
  | noConnection msg hq hc =>
    refine absurd ⟨tryPush_eq_some_iff.mp hq, fun h hh => ?_⟩ hs
    rw [hc] at hh
    cases hh
  | gone msg h hq hc ha =>
    refine absurd ⟨tryPush_eq_some_iff.mp hq, fun k hk => ?_⟩ hs
    rw [hc] at hk
    cases hk
    exact ha

/-- A message that fails in its last step does not panic. -/
theorem Strands.not_clashes {n : Node P R} {msg : Message P R} (hs : n.Strands msg) :
    ¬ n.Clashes msg := by
  cases msg with
  | connectionRequest msg => exact fun hcl => hcl.2.2 hs.2.2.1
  | connectionResponse msg =>
    obtain ⟨-, -, -, hq, -⟩ := hs
    exact fun hcl => hcl.2.2 hq
  | transportMessage msg => exact id

/-- The queue that was moved is not the queue that was there. -/
theorem setQueue_tryPush_ne {n : Node P R} {msg : TransportMessage}
    (hq : ((n.queueOf msg.id).tryPush msg).1 = some msg) :
    (n.setQueue msg.id ((n.queueOf msg.id).tryPush msg).2).transport ≠ n.transport := by
  intro heq
  have hsame : (n.setQueue msg.id ((n.queueOf msg.id).tryPush msg).2).queueOf msg.id
      = n.queueOf msg.id :=
    congrArg (fun t => (t.messageQueues msg.id).getD MessageQueue.new) heq
  rw [queueOf_setQueue, if_pos rfl] at hsame
  have hnext := congrArg MessageQueue.nextExpectedNonce hsame
  rw [MessageQueue.tryPush, if_pos (tryPush_eq_some_iff.mp hq)] at hnext
  have hone : (n.queueOf msg.id).nextExpectedNonce + 1 = (n.queueOf msg.id).nextExpectedNonce :=
      hnext
  have : (1 : UInt64) = 0 := by
    rwa [UInt64.add_eq_left] at hone
  revert this
  decide

/-- A message that fails in its last step is refused, and the transport is no longer what it was. -/
theorem Strands.failed {n : Node P R} {msg : Message P R} (hs : n.Strands msg) :
    ∃ n' err, n.handleInbound msg = .ok (n', .error err) ∧ ¬ n.Untouched n' := by
  -- a connection that was not there before
  have hnew : ∀ {n' : Node P R} {id : ConnectionId} {h : ℕ}, n.transport.connections id = none →
      n'.transport.connections id = some h → ¬ n.Untouched n' := by
    rintro n' id h hnone hsome ⟨heq, -⟩
    rw [heq, hnone] at hsome
    cases hsome
  rcases handleInbound_cases n msg with ⟨-, n', r, hm, hh⟩ | ⟨hcl, -⟩
  · cases hh with
    | noRecipient msg hr => exact absurd hr hs.1
    | idExists msg recipient h hr hc => exact absurd (hc.symm.trans hs.2.1) (Option.some_ne_none h)
    | accepted msg recipient hr hc hq ha => exact absurd ha hs.2.2.2
    | unanswered msg recipient hr hc hq ha =>
      exact ⟨_, _, hm, hnew hc (KeyMap.insert_self ..)⟩
    | alreadyEstablished msg h hc =>
      obtain ⟨-, -, hnone, -, -⟩ := hs
      exact absurd (hc.symm.trans hnone) (Option.some_ne_none h)
    | noDial msg hc hp =>
      obtain ⟨pending, hp', -⟩ := hs
      exact absurd (hp'.symm.trans hp) (Option.some_ne_none pending)
    | resolved msg pending dial hc hp hq hd ha =>
      obtain ⟨pending', hp', -, -, hd'⟩ := hs
      rw [hp] at hp'
      cases hp'
      rw [hd' dial hd] at ha
      cases ha
    | unresolved msg pending hc hp hq hd =>
      exact ⟨_, _, hm, hnew hc (KeyMap.insert_self ..)⟩
    | queued msg hq =>
      rw [tryPush_eq_some_iff.mpr hs.1] at hq
      cases hq
    | noConnection msg hq hc => exact ⟨_, _, hm, fun hu => setQueue_tryPush_ne hq hu.1⟩
    | gone msg h hq hc ha => exact ⟨_, _, hm, fun hu => setQueue_tryPush_ne hq hu.1⟩
    | forwarded msg h e hq hc he ha =>
      have hdead := hs.2 h hc
      rw [inbound_of_some he, ha] at hdead
      cases hdead
  · exact absurd hcl hs.not_clashes

/-- **When a failed message leaves the transport as it was.**  In every state and for every message:
if handling it returns an error, then all maps and queues of the transport, its outbound channel and
the channels to its connections are what they were, iff the message is not one that fails in its
last step. -/
theorem untouched_of_failed_iff (n : Node P R) (msg : Message P R) :
    (∀ n' err, n.handleInbound msg = .ok (n', .error err) → n.Untouched n') ↔ ¬ n.Strands msg := by
  constructor
  · intro hall hs
    obtain ⟨n', err, hm, hne⟩ := hs.failed
    exact hne (hall n' err hm)
  · intro hs n' err hm
    rcases handleInbound_cases n msg with ⟨-, n₁, r, hm₁, hh⟩ | ⟨-, hp⟩
    · rw [hm] at hm₁
      cases hm₁
      exact untouched_of_handled hh hs
    · rw [hm] at hp
      cases hp

/-- A dial whose future has timed out before the response comes. -/
def sampleLateResponse : List (Op RawPeerId RawRecipient) :=
  [.dial (.fill 10) ⟨.fill 1⟩, .pollDial 0 false, .pollDial 0 true]

/-- The response is refused, but the connection is filed and the dial is gone. -/
theorem touched_sampleLateResponse :
    ∃ n as n', run step sample sampleLateResponse = .ok (n, as) ∧
      n.handleInbound (.connectionResponse ⟨.fill 8, ⟨.fill 1⟩, none⟩)
        = .ok (n', .error .connectionSendError) ∧
      n.transport.connections ⟨.fill 1⟩ = none ∧ n'.transport.connections ⟨.fill 1⟩ = some 0 ∧
      (n.transport.pendingDials ⟨.fill 1⟩).isSome = true ∧
      (n'.transport.pendingDials ⟨.fill 1⟩).isSome = false ∧ ¬ n.Untouched n' := by
  refine ⟨_, _, _, rfl, rfl, rfl, rfl, rfl, rfl, fun hu => ?_⟩
  have hc := congrArg (fun t => t.connections ⟨.fill 1⟩) hu.1
  cases hc

end Libp2pNym.Node
