import Libp2pNym.Queue.Equiv.Reassembly
import Libp2pNym.Transport.Basic

/-!
# What a transport can do

`Handled n msg n' r` lists what handling an inbound message can do, and `Clashes n msg` says when it
panics instead: a connection message comes for an id without a connection whose queue has moved on.
`Steps n o n' a` lists what an operation can do.
-/

namespace Libp2pNym.Node

variable {P R : Type}

/-! ### The states after the parts of an operation -/

/-- The queue of a connection; there is an empty one if none was created. -/
def queueOf (n : Node P R) (id : ConnectionId) : MessageQueue :=
  (n.transport.messageQueues id).getD MessageQueue.new

/-- The queue once the connection message is there. -/
def opened (n : Node P R) (id : ConnectionId) : MessageQueue :=
  { n.queueOf id with nextExpectedNonce := (n.queueOf id).nextExpectedNonce + 1 }

/-- A connection was created and filed under its id. -/
def created (n : Node P R) (peerId : P) (recipient : R) (id : ConnectionId) : Node P R :=
  { (n.createConnectionTypes peerId recipient id).1 with
    transport.connections := n.transport.connections.insert id n.nextConn }

/-- A connection was created, and what was queued for it and is in order was sent to it. -/
def connected (n : Node P R) (peerId : P) (recipient : R) (id : ConnectionId) : Node P R :=
  ((n.created peerId recipient id).forwardAll id n.nextConn (n.opened id)).1

/-- The answer to a connection request. -/
def response (n : Node P R) (recipient : R) (id : ConnectionId) : OutboundMessage P R where
  message := .connectionResponse { peerId := n.transport.peerId, recipient := none, id := id }
  recipient := recipient

/-- The connection request was answered. -/
def responded (n : Node P R) (recipient : R) (id : ConnectionId) : Node P R :=
  { n with transport.outboundTx :=
      { n.transport.outboundTx with
        queue := n.transport.outboundTx.queue ++ [n.response recipient id] } }

/-- The pending dial was taken for its response. -/
def claimed (n : Node P R) (id : ConnectionId) : Node P R :=
  { n with transport.pendingDials := n.transport.pendingDials.remove id }

/-- The connection was put into the channel of the dial. -/
def resolved (n : Node P R) (d : ℕ) (h : ℕ) : Node P R :=
  { n with dials := n.dials.modify d fun dial =>
      { dial with connectionRx := { dial.connectionRx with slot := .sent h } } }

/-! ### Forwarding to a connection that is there -/

theorem forwardQueued_of_alive {fuel : ℕ} {queue : MessageQueue} {rx : Chan SubstreamMessage}
    (ha : rx.rxAlive = true) : (forwardQueued fuel queue rx).2.2 = .ok () := by
  induction fuel generalizing queue rx with
  | zero => rfl
  | succ fuel ih =>
    unfold forwardQueued
    split
    · rfl
    · simp only [Chan.send, ha, ↓reduceIte]
      exact ih rfl

/-- Forwarding takes nothing from the channel and does not drop it. -/
theorem forwardQueued_frame (fuel : ℕ) (queue : MessageQueue) (rx : Chan SubstreamMessage) :
    (forwardQueued fuel queue rx).2.1.got = rx.got ∧
      (forwardQueued fuel queue rx).2.1.rxAlive = rx.rxAlive := by
  induction fuel generalizing queue rx with
  | zero => exact ⟨rfl, rfl⟩
  | succ fuel ih =>
    unfold forwardQueued
    split
    · exact ⟨rfl, rfl⟩
    · split
      · exact ⟨rfl, rfl⟩
      · rename_i rx' hsend
        unfold Chan.send at hsend
        split at hsend
        · cases hsend
          exact ih _ _
        · cases hsend

theorem setInbound_self {n : Node P R} {h : ℕ} {e : Endpoint P R} (he : n.conns h = some e) :
    n.setInbound h e.conn.inboundRx = n := by
  unfold setInbound
  rw [KeyMap.modify_eq_insert _ _ he]
  rw [KeyMap.insert_eq_self _ he]

theorem inbound_of_some {n : Node P R} {h : ℕ} {e : Endpoint P R} (he : n.conns h = some e) :
    n.inbound h = e.conn.inboundRx := by
  simp only [inbound, he]

theorem forwardAll_of_alive {n : Node P R} {h : ℕ} {e : Endpoint P R} (he : n.conns h = some e)
    (ha : e.conn.inboundRx.rxAlive = true) (id : ConnectionId) (queue : MessageQueue) :
    n.forwardAll id h queue = ((n.forwardAll id h queue).1, .ok ()) := by
  have hr : (n.forwardAll id h queue).2 = .ok () := by
    unfold forwardAll
    rw [inbound_of_some he]
    exact forwardQueued_of_alive ha
  rw [← hr]

/-- An empty queue has nothing to forward. -/
theorem forwardAll_empty {n : Node P R} {h : ℕ} {e : Endpoint P R} (he : n.conns h = some e)
    (id : ConnectionId) {queue : MessageQueue} (hq : queue.queue = BTreeSet.empty) :
    n.forwardAll id h queue = (n.setQueue id queue, .ok ()) := by
  have hpop : queue.pop = (none, queue) := by
    unfold MessageQueue.pop
    rw [hq]
    rfl
  unfold forwardAll forwardQueued
  rw [hpop, inbound_of_some he]
  dsimp only
  rw [setInbound_self he]

/-- `handle_message_queue_on_connection_initiation` panics exactly on a queue that has moved on. -/
theorem handleMessageQueue_eq {n : Node P R} {id : ConnectionId} {h : ℕ} {e : Endpoint P R}
    (hc : n.transport.connections id = some h) (he : n.conns h = some e)
    (ha : e.conn.inboundRx.rxAlive = true) :
    n.handleMessageQueueOnConnectionInitiation id =
      if (n.queueOf id).nextExpectedNonce = 0 then .ok ((n.forwardAll id h (n.opened id)).1, .ok ())
      else .error .connectionMessageReceivedTwice := by
  unfold handleMessageQueueOnConnectionInitiation
  rw [hc]
  dsimp only
  cases hq : n.transport.messageQueues id with
  | some queue =>
    have hqueue : n.queueOf id = queue := by simp only [queueOf, hq, Option.getD_some]
    have hopened : n.opened id
        = { queue with nextExpectedNonce := queue.nextExpectedNonce + 1 } := by
      rw [opened, hqueue]
    rw [hqueue, hopened]
    by_cases h0 : queue.nextExpectedNonce = 0
    · rw [if_pos h0, ← forwardAll_of_alive he ha]
      simp only [MessageQueue.setConnectionMessageReceived, h0, ne_eq, not_true_eq_false,
        ↓reduceIte]
    · rw [if_neg h0]
      simp only [MessageQueue.setConnectionMessageReceived, h0, ne_eq, not_false_eq_true,
        ↓reduceIte]
  | none =>
    have hqueue : n.queueOf id = MessageQueue.new := by simp only [queueOf, hq, Option.getD_none]
    have h0 : MessageQueue.new.nextExpectedNonce = 0 := rfl
    have hempty : (n.opened id).queue = BTreeSet.empty := by
      rw [opened, hqueue]
      rfl
    rw [hqueue, if_pos h0, forwardAll_empty he id hempty, opened, hqueue]
    rfl

/-! ### Handling an inbound message -/

/-- The mixnet's receiver of the outbound messages is there. -/
def Mixnet (n : Node P R) : Prop := n.transport.outboundTx.rxAlive = true

/-- What handling an inbound message can do. -/
inductive Handled (n : Node P R) :
    Message P R → Node P R → Except Error (InboundTransportEvent P) → Prop
  | noRecipient (msg : ConnectionMessage P R) (hr : msg.recipient = none) :
    Handled n (.connectionRequest msg) n (.error .noneRecipientInConnectionRequest)
  | idExists (msg : ConnectionMessage P R) (recipient : R) (h : ℕ)
      (hr : msg.recipient = some recipient) (hc : n.transport.connections msg.id = some h) :
    Handled n (.connectionRequest msg) n (.error .connectionIDExists)
  | accepted (msg : ConnectionMessage P R) (recipient : R) (hr : msg.recipient = some recipient)
      (hc : n.transport.connections msg.id = none)
      (hq : (n.queueOf msg.id).nextExpectedNonce = 0) (ha : n.Mixnet) :
    Handled n (.connectionRequest msg)
      ((n.connected msg.peerId recipient msg.id).responded recipient msg.id)
      (.ok (.connectionRequest ⟨⟨.sent (msg.peerId, n.nextConn), true⟩⟩))
  | unanswered (msg : ConnectionMessage P R) (recipient : R) (hr : msg.recipient = some recipient)
      (hc : n.transport.connections msg.id = none)
      (hq : (n.queueOf msg.id).nextExpectedNonce = 0) (ha : ¬ n.Mixnet) :
    Handled n (.connectionRequest msg)
      ((n.connected msg.peerId recipient msg.id).dropConn n.nextConn)
      (.error (.outboundSendError sendErrorText))
  | alreadyEstablished (msg : ConnectionMessage P R) (h : ℕ)
      (hc : n.transport.connections msg.id = some h) :
    Handled n (.connectionResponse msg) n (.error .connectionAlreadyEstablished)
  | noDial (msg : ConnectionMessage P R) (hc : n.transport.connections msg.id = none)
      (hp : n.transport.pendingDials msg.id = none) :
    Handled n (.connectionResponse msg) n (.error .noConnectionForResponse)
  | resolved (msg : ConnectionMessage P R) (pending : PendingConnection R) (dial : Dial P R)
      (hc : n.transport.connections msg.id = none)
      (hp : n.transport.pendingDials msg.id = some pending)
      (hq : (n.queueOf msg.id).nextExpectedNonce = 0)
      (hd : n.dials pending.connectionTx = some dial) (ha : dial.connectionRx.rxAlive = true) :
    Handled n (.connectionResponse msg)
      (((n.claimed msg.id).connected msg.peerId pending.remoteRecipient msg.id).resolved
        pending.connectionTx n.nextConn) (.ok .connectionResponse)
  | unresolved (msg : ConnectionMessage P R) (pending : PendingConnection R)
      (hc : n.transport.connections msg.id = none)
      (hp : n.transport.pendingDials msg.id = some pending)
      (hq : (n.queueOf msg.id).nextExpectedNonce = 0)
      (hd : ∀ dial, n.dials pending.connectionTx = some dial →
        dial.connectionRx.rxAlive = false) :
    Handled n (.connectionResponse msg)
      (((n.claimed msg.id).connected msg.peerId pending.remoteRecipient msg.id).dropConn n.nextConn)
      (.error .connectionSendError)
  | queued (msg : TransportMessage) (hq : ((n.queueOf msg.id).tryPush msg).1 = none) :
    Handled n (.transportMessage msg) (n.setQueue msg.id ((n.queueOf msg.id).tryPush msg).2)
      (.ok .transportMessage)
  | noConnection (msg : TransportMessage) (hq : ((n.queueOf msg.id).tryPush msg).1 = some msg)
      (hc : n.transport.connections msg.id = none) :
    Handled n (.transportMessage msg) (n.setQueue msg.id ((n.queueOf msg.id).tryPush msg).2)
      (.error .noConnectionForTransportMessage)
  | gone (msg : TransportMessage) (h : ℕ) (hq : ((n.queueOf msg.id).tryPush msg).1 = some msg)
      (hc : n.transport.connections msg.id = some h) (ha : (n.inbound h).rxAlive = false) :
    Handled n (.transportMessage msg) (n.setQueue msg.id ((n.queueOf msg.id).tryPush msg).2)
      (.error (.inboundSendError sendErrorText))
  | forwarded (msg : TransportMessage) (h : ℕ) (e : Endpoint P R)
      (hq : ((n.queueOf msg.id).tryPush msg).1 = some msg)
      (hc : n.transport.connections msg.id = some h) (he : n.conns h = some e)
      (ha : e.conn.inboundRx.rxAlive = true) :
    Handled n (.transportMessage msg)
      ((n.setInbound h { e.conn.inboundRx with
        queue := e.conn.inboundRx.queue ++ [msg.message] }).forwardAll msg.id h
          ((n.queueOf msg.id).tryPush msg).2).1
      (.ok .transportMessage)

/-- A connection message that establishes a connection, but whose queue has moved on. -/
def Clashes (n : Node P R) : Message P R → Prop
  | .connectionRequest msg => msg.recipient ≠ none ∧ n.transport.connections msg.id = none ∧
      (n.queueOf msg.id).nextExpectedNonce ≠ 0
  | .connectionResponse msg => n.transport.pendingDials msg.id ≠ none ∧
      n.transport.connections msg.id = none ∧ (n.queueOf msg.id).nextExpectedNonce ≠ 0
  | .transportMessage _ => False

theorem handleMessageQueue_created (n : Node P R) (peerId : P) (recipient : R) (id : ConnectionId) :
    (n.created peerId recipient id).handleMessageQueueOnConnectionInitiation id =
      if (n.queueOf id).nextExpectedNonce = 0 then .ok (n.connected peerId recipient id, .ok ())
      else .error .connectionMessageReceivedTwice := by
  have hc : (n.created peerId recipient id).transport.connections id = some n.nextConn :=
    KeyMap.insert_self ..
  have he : (n.created peerId recipient id).conns n.nextConn
      = some (Endpoint.new peerId recipient id n.transport.outboundTx.cloneTx) :=
    KeyMap.insert_self ..
  exact handleMessageQueue_eq hc he rfl

/-- A request with a recipient for an id without a connection. -/
theorem handleConnectionRequest_of_none {n : Node P R} {msg : ConnectionMessage P R} {recipient : R}
    (hr : msg.recipient = some recipient) (hc : n.transport.connections msg.id = none) :
    n.handleConnectionRequest msg =
      if (n.queueOf msg.id).nextExpectedNonce = 0 then
        match n.transport.outboundTx.send (n.response recipient msg.id) with
        | none => .ok ((n.connected msg.peerId recipient msg.id).dropConn n.nextConn,
            .error (.outboundSendError sendErrorText))
        | some tx =>
          .ok ({ n.connected msg.peerId recipient msg.id with transport.outboundTx := tx },
            .ok n.nextConn)
      else .error .connectionMessageReceivedTwice := by
  have hinit := handleMessageQueue_created n msg.peerId recipient msg.id
  simp only [created, createConnectionTypes] at hinit
  simp only [handleConnectionRequest, createConnectionTypes, hr, hc, Option.isSome_none,
    Bool.false_eq_true, ↓reduceIte]
  rw [hinit]
  by_cases hq : (n.queueOf msg.id).nextExpectedNonce = 0
  · rw [if_pos hq, if_pos hq]
    rfl
  · rw [if_neg hq, if_neg hq]

/-- A response for an id without a connection and with a pending dial. -/
theorem handleConnectionResponse_of_some {n : Node P R} {msg : ConnectionMessage P R}
    {pending : PendingConnection R} (hc : n.transport.connections msg.id = none)
    (hp : n.transport.pendingDials msg.id = some pending) :
    n.handleConnectionResponse msg =
      if (n.queueOf msg.id).nextExpectedNonce = 0 then
        match (n.dials pending.connectionTx).bind fun d => d.connectionRx.send n.nextConn with
        | none => .ok (((n.claimed msg.id).connected msg.peerId pending.remoteRecipient
            msg.id).dropConn n.nextConn, .error .connectionSendError)
        | some rx =>
          .ok ({ (n.claimed msg.id).connected msg.peerId pending.remoteRecipient msg.id with
            dials := n.dials.modify pending.connectionTx fun d => { d with connectionRx := rx } },
            .ok ())
      else .error .connectionMessageReceivedTwice := by
  have hinit :=
    handleMessageQueue_created (n.claimed msg.id) msg.peerId pending.remoteRecipient msg.id
  have hqueue : (n.claimed msg.id).queueOf msg.id = n.queueOf msg.id := rfl
  rw [hqueue] at hinit
  simp only [created, createConnectionTypes, claimed] at hinit
  simp only [handleConnectionResponse, createConnectionTypes, hc, hp, Option.isSome_none,
    Bool.false_eq_true, ↓reduceIte]
  rw [hinit]
  by_cases hq : (n.queueOf msg.id).nextExpectedNonce = 0
  · rw [if_pos hq, if_pos hq]
    rfl
  · rw [if_neg hq, if_neg hq]

theorem handleInbound_request (n : Node P R) (msg : ConnectionMessage P R) :
    (¬ n.Clashes (.connectionRequest msg) ∧ ∃ n' r,
      n.handleInbound (.connectionRequest msg) = .ok (n', r) ∧
        Handled n (.connectionRequest msg) n' r) ∨
    (n.Clashes (.connectionRequest msg) ∧
      n.handleInbound (.connectionRequest msg) = .error .connectionMessageReceivedTwice) := by
  unfold handleInbound
  cases hr : msg.recipient with
  | none =>
    refine Or.inl ⟨fun hcl => hcl.1 hr, _, _, ?_, .noRecipient msg hr⟩
    simp only [handleConnectionRequest, hr]
  | some recipient =>
    cases hc : n.transport.connections msg.id with
    | some h =>
      refine Or.inl ⟨fun hcl => ?_, _, _, ?_, .idExists msg recipient h hr hc⟩
      · rw [hcl.2.1] at hc
        cases hc
      · simp only [handleConnectionRequest, hr, hc, Option.isSome_some, ↓reduceIte]
    | none =>
      dsimp only
      rw [handleConnectionRequest_of_none hr hc]
      by_cases hq : (n.queueOf msg.id).nextExpectedNonce = 0
      · left
        refine ⟨fun hcl => hcl.2.2 hq, ?_⟩
        rw [if_pos hq]
        by_cases ha : n.Mixnet
        · rw [Chan.send_of_alive ha]
          exact ⟨_, _, rfl, .accepted msg recipient hr hc hq ha⟩
        · have ha' : n.transport.outboundTx.rxAlive = false := by simpa [Mixnet] using ha
          rw [Chan.send_of_not_alive ha']
          exact ⟨_, _, rfl, .unanswered msg recipient hr hc hq ha⟩
      · rw [if_neg hq]
        exact Or.inr ⟨⟨by simp [hr], hc, hq⟩, rfl⟩

theorem handleInbound_response (n : Node P R) (msg : ConnectionMessage P R) :
    (¬ n.Clashes (.connectionResponse msg) ∧ ∃ n' r,
      n.handleInbound (.connectionResponse msg) = .ok (n', r) ∧
        Handled n (.connectionResponse msg) n' r) ∨
    (n.Clashes (.connectionResponse msg) ∧
      n.handleInbound (.connectionResponse msg) = .error .connectionMessageReceivedTwice) := by
  unfold handleInbound
  cases hc : n.transport.connections msg.id with
  | some h =>
    refine Or.inl ⟨fun hcl => ?_, _, _, ?_, .alreadyEstablished msg h hc⟩
    · rw [hcl.2.1] at hc
      cases hc
    · simp only [handleConnectionResponse, hc, Option.isSome_some, ↓reduceIte]
  | none =>
    cases hp : n.transport.pendingDials msg.id with
    | none =>
      refine Or.inl ⟨fun hcl => hcl.1 hp, _, _, ?_, .noDial msg hc hp⟩
      simp only [handleConnectionResponse, hc, hp, Option.isSome_none, Bool.false_eq_true,
        ↓reduceIte]
    | some pending =>
      dsimp only
      rw [handleConnectionResponse_of_some hc hp]
      by_cases hq : (n.queueOf msg.id).nextExpectedNonce = 0
      · left
        refine ⟨fun hcl => hcl.2.2 hq, ?_⟩
        rw [if_pos hq]
        by_cases hd : ∃ dial, n.dials pending.connectionTx = some dial ∧
            dial.connectionRx.rxAlive = true
        · obtain ⟨dial, hdial, ha⟩ := hd
          rw [hdial, Option.bind_some, Oneshot.send_of_alive ha]
          refine ⟨_, _, rfl, ?_⟩
          have hres := Handled.resolved msg pending dial hc hp hq hdial ha
          have hdials : ((n.claimed msg.id).connected msg.peerId pending.remoteRecipient
              msg.id).dials = n.dials := rfl
          rw [resolved, hdials, KeyMap.modify_eq_insert _ _ hdial] at hres
          dsimp only
          rw [KeyMap.modify_eq_insert _ _ hdial]
          exact hres
        · push Not at hd
          have hnone : ((n.dials pending.connectionTx).bind fun d =>
              d.connectionRx.send n.nextConn) = none := by
            cases hdial : n.dials pending.connectionTx with
            | none => rfl
            | some dial =>
              exact if_neg (hd dial hdial)
          rw [hnone]
          refine ⟨_, _, rfl, .unresolved msg pending hc hp hq fun dial hdial => ?_⟩
          simpa using hd dial hdial
      · rw [if_neg hq]
        exact Or.inr ⟨⟨by simp [hp], hc, hq⟩, rfl⟩

/-- `tryPush` hands out nothing but the message it was given. -/
theorem tryPush_some {q : MessageQueue} {msg msg' : TransportMessage}
    (h : (q.tryPush msg).1 = some msg') : msg' = msg := by
  unfold MessageQueue.tryPush at h
  split at h
  · cases h
    rfl
  · split at h <;> cases h

theorem handleInbound_transport (n : Node P R) (msg : TransportMessage) :
    ∃ n' r, n.handleInbound (.transportMessage msg) = .ok (n', r) ∧
      Handled n (.transportMessage msg) n' r := by
  have hq : (n.transport.messageQueues msg.id).getD MessageQueue.new = n.queueOf msg.id := rfl
  simp only [handleInbound, handleTransportMessage, hq]
  cases hpush : ((n.queueOf msg.id).tryPush msg) with
  | mk out queue =>
    cases out with
    | none =>
      have h := Handled.queued (n := n) msg (by rw [hpush])
      rw [hpush] at h
      exact ⟨_, _, rfl, h⟩
    | some msg' =>
      have hout : ((n.queueOf msg.id).tryPush msg).1 = some msg' := by rw [hpush]
      obtain rfl := tryPush_some hout
      dsimp only
      cases hc : n.transport.connections msg'.id with
      | none =>
        have h := Handled.noConnection msg' hout hc
        rw [hpush] at h
        exact ⟨_, _, rfl, h⟩
      | some k =>
        dsimp only
        by_cases ha : (n.inbound k).rxAlive = true
        · obtain ⟨e, he⟩ : ∃ e, n.conns k = some e := by
            unfold inbound at ha
            cases he : n.conns k with
            | none =>
              rw [he] at ha
              cases ha
            | some e => exact ⟨e, rfl⟩
          rw [inbound_of_some he] at ha ⊢
          have h := Handled.forwarded msg' k e hout hc he ha
          rw [hpush] at h
          rw [Chan.send_of_alive ha]
          dsimp only
          have he' : (n.setInbound k { e.conn.inboundRx with
              queue := e.conn.inboundRx.queue ++ [msg'.message] }).conns k
              = some { e with conn.inboundRx := { e.conn.inboundRx with
                queue := e.conn.inboundRx.queue ++ [msg'.message] } } := by
            unfold setInbound
            dsimp only
            rw [KeyMap.modify_eq_insert _ _ he, KeyMap.insert_self]
          rw [forwardAll_of_alive he' ha]
          exact ⟨_, _, rfl, h⟩
        · rw [Bool.not_eq_true] at ha
          have h := Handled.gone msg' k hout hc ha
          rw [hpush] at h
          rw [Chan.send_of_not_alive ha]
          exact ⟨_, _, rfl, h⟩

/-- **Handling a message** does one of the things `Handled` lists, or panics if the message clashes
with the queue of its connection. -/
theorem handleInbound_cases (n : Node P R) (msg : Message P R) :
    (¬ n.Clashes msg ∧ ∃ n' r, n.handleInbound msg = .ok (n', r) ∧ Handled n msg n' r) ∨
    (n.Clashes msg ∧ n.handleInbound msg = .error .connectionMessageReceivedTwice) := by
  cases msg with
  | connectionRequest msg => exact handleInbound_request n msg
  | connectionResponse msg => exact handleInbound_response n msg
  | transportMessage msg => exact Or.inl ⟨id, handleInbound_transport n msg⟩

/-! ### Operations -/

theorem dials_dropPending_of_none {n : Node P R} {id : ConnectionId}
    (hp : n.transport.pendingDials id = none) : (n.dropPending id).dials = n.dials := by
  simp only [dropPending, hp]

theorem dials_dropPending_of_some {n : Node P R} {id : ConnectionId} {pending : PendingConnection R}
    (hp : n.transport.pendingDials id = some pending) : (n.dropPending id).dials
      = n.dials.modify pending.connectionTx fun d =>
        { d with connectionRx := d.connectionRx.dropTx } := by
  simp only [dropPending, hp]

/-- The request of the dial was sent. -/
def requested (n : Node P R) (d : ℕ) (dial : Dial P R) (request : OutboundMessage P R) : Node P R :=
  { n with
    transport.outboundTx := { n.transport.outboundTx with
      queue := n.transport.outboundTx.queue ++ [request] }
    dials := n.dials.insert d { dial with request := none } }

/-- The request of the dial was taken from it, and not sent. -/
def withdrawn (n : Node P R) (d : ℕ) (dial : Dial P R) : Node P R :=
  { n with dials := n.dials.insert d { dial with request := none } }

/-- What an operation can do. -/
inductive Steps (n : Node P R) : Op P R → Node P R → Answer P → Prop
  | skip (o : Op P R) (ho : ∀ msg, o ≠ .inbound msg) : Steps n o n .skip
  | inbound (msg : Message P R) (n' : Node P R) (r : Except Error (InboundTransportEvent P))
      (hh : Handled n msg n' r) : Steps n (.inbound msg) n' (.inbound r)
  | dialed (recipient : R) (id : ConnectionId) :
    Steps n (.dial recipient id) (n.dial recipient id).1 (.dial n.nextDial)
  | unsent (d : ℕ) (elapsed : Bool) (dial : Dial P R) (request : OutboundMessage P R)
      (hd : n.dials d = some dial) (hrx : dial.connectionRx.rxAlive = true)
      (hr : dial.request = some request) (ha : ¬ n.Mixnet) :
    Steps n (.pollDial d elapsed) ((n.withdrawn d dial).dropDial d dial)
      (.pollDial (.ready (.error (.outboundSendError sendErrorText))))
  | sent (d : ℕ) (elapsed : Bool) (dial : Dial P R) (request : OutboundMessage P R)
      (hd : n.dials d = some dial) (hrx : dial.connectionRx.rxAlive = true)
      (hr : dial.request = some request) (ha : n.Mixnet) :
    Steps n (.pollDial d elapsed)
      ((n.requested d dial request).awaitDial d { dial with request := none } elapsed).1
      (.pollDial
        ((n.requested d dial request).awaitDial d { dial with request := none } elapsed).2)
  | awaited (d : ℕ) (elapsed : Bool) (dial : Dial P R) (hd : n.dials d = some dial)
      (hrx : dial.connectionRx.rxAlive = true) (hr : dial.request = none) :
    Steps n (.pollDial d elapsed) (n.awaitDial d dial elapsed).1
      (.pollDial (n.awaitDial d dial elapsed).2)
  | dialDropped (d : ℕ) (dial : Dial P R) (hd : n.dials d = some dial)
      (hrx : dial.connectionRx.rxAlive = true) :
    Steps n (.dropDial d) (n.dropDial d dial) .done
  | connDropped (h : ℕ) : Steps n (.dropConn h) (n.dropConn h) .done

theorem waiting_eq_some_iff {n : Node P R} {d : ℕ} {dial : Dial P R} :
    n.waiting d = some dial ↔ n.dials d = some dial ∧ dial.connectionRx.rxAlive = true := by
  unfold waiting
  cases hd : n.dials d with
  | none => simp
  | some dial' =>
    dsimp only
    split_ifs with ha
    · constructor
      · intro h
        cases h
        exact ⟨rfl, ha⟩
      · intro h
        exact h.1
    · constructor
      · intro h
        cases h
      · intro h
        cases h.1
        exact absurd h.2 ha

/-- An operation that does not panic does one of the things `Steps` lists. -/
theorem steps_of_step {n n' : Node P R} {o : Op P R} {a : Answer P}
    (h : n.step o = .ok (n', a)) : Steps n o n' a := by
  cases o with
  | inbound msg =>
    simp only [step] at h
    rcases handleInbound_cases n msg with ⟨-, n₁, r, hm, hh⟩ | ⟨-, hm⟩
    · rw [hm] at h
      cases h
      exact .inbound msg _ _ hh
    · rw [hm] at h
      cases h
  | dial recipient id =>
    cases h
    exact .dialed recipient id
  | pollDial d elapsed =>
    simp only [step] at h
    split at h
    · cases h
      exact .skip _ nofun
    · rename_i dial hw
      obtain ⟨hd, hrx⟩ := waiting_eq_some_iff.mp hw
      cases h
      unfold pollDial
      cases hr : dial.request with
      | none => exact .awaited d elapsed dial hd hrx hr
      | some request =>
        dsimp only
        by_cases ha : n.Mixnet
        · rw [Chan.send_of_alive ha]
          exact .sent d elapsed dial request hd hrx hr ha
        · have ha' : n.transport.outboundTx.rxAlive = false := by simpa [Mixnet] using ha
          rw [Chan.send_of_not_alive ha']
          exact .unsent d elapsed dial request hd hrx hr ha
  | dropDial d =>
    simp only [step] at h
    split at h
    · cases h
      exact .skip _ nofun
    · rename_i dial hw
      obtain ⟨hd, hrx⟩ := waiting_eq_some_iff.mp hw
      cases h
      exact .dialDropped d dial hd hrx
  | dropConn h' =>
    cases h
    exact .connDropped h'

/-- Only an inbound message can panic, and exactly when it clashes with the queue of its connection.
-/
theorem step_isOk_iff (n : Node P R) (o : Op P R) :
    (∃ r, n.step o = .ok r) ↔ ∀ msg, o = .inbound msg → ¬ n.Clashes msg := by
  cases o with
  | inbound msg =>
    rcases handleInbound_cases n msg with ⟨hcl, n', r, hm, -⟩ | ⟨hcl, hm⟩
    · refine ⟨fun _ msg' heq => ?_, fun _ => ⟨(n', .inbound r), ?_⟩⟩
      · cases heq
        exact hcl
      · simp only [step, hm]
    · refine ⟨fun ⟨r, hr⟩ => ?_, fun h => absurd hcl (h msg rfl)⟩
      simp only [step, hm] at hr
      cases hr
  | dial recipient id => exact ⟨fun _ _ h => (by cases h), fun _ => ⟨_, rfl⟩⟩
  | pollDial d elapsed =>
    refine ⟨fun _ _ h => (by cases h), fun _ => ?_⟩
    simp only [step]
    split <;> exact ⟨_, rfl⟩
  | dropDial d =>
    refine ⟨fun _ _ h => (by cases h), fun _ => ?_⟩
    simp only [step]
    split <;> exact ⟨_, rfl⟩
  | dropConn h => exact ⟨fun _ _ h => (by cases h), fun _ => ⟨_, rfl⟩⟩

end Libp2pNym.Node
