import Libp2pNym.Connection.Basic
import Libp2pNym.Queue.Basic

/-!
# The transport

`NymTransport` of `transport.rs`: the handling of inbound mixnet messages, and dialing.

As with a connection and its substreams, the channels between a transport, the connections it has
created and the futures of its dials are kept at the receiving end, and a sending half is the handle
of the object there.  A `Node` is a transport together with every connection it has created and with
every dial it was asked for.  Multiaddresses, listeners, keys, timers and wakers are left out:
`dial` takes the Nym address it has to parse from the multiaddress, and the id that
`ConnectionId::generate` returns.
-/

namespace Libp2pNym

variable {P R : Type}

/-- A connection that's been initiated, but not completed. -/
structure PendingConnection (R : Type) where
  remoteRecipient : R
  /-- The dial at the receiving end. -/
  connectionTx : ℕ

/-- The future that `dial` returns. -/
structure Dial (P R : Type) where
  /-- The connection request, until the first poll of the future sends it. -/
  request : Option (OutboundMessage P R)
  /-- The connection, once it was established. -/
  connectionRx : Oneshot ℕ

structure NymTransport (P R : Type) where
  /-- Our Nym address. -/
  selfAddress : R
  /-- The peer id of our keypair. -/
  peerId : P
  /-- Established connections, each with the channel which sends messages received from the mixnet
  to the corresponding `Connection`. -/
  connections : KeyMap ConnectionId ℕ
  /-- Outbound pending dials. -/
  pendingDials : KeyMap ConnectionId (PendingConnection R)
  /-- Connection message queues. -/
  messageQueues : KeyMap ConnectionId MessageQueue
  /-- Outbound mixnet messages. -/
  outboundTx : Chan (OutboundMessage P R)

/-- A transport with its connections and its dials. -/
structure Node (P R : Type) where
  transport : NymTransport P R
  conns : KeyMap ℕ (Endpoint P R)
  /-- The handle of the next connection. -/
  nextConn : ℕ
  dials : KeyMap ℕ (Dial P R)
  /-- The handle of the next dial. -/
  nextDial : ℕ

/-- A transport listener upgrade: it only contains the channel for receiving the connection. -/
structure Upgrade (P : Type) where
  connectionTx : Oneshot (P × ℕ)
  deriving DecidableEq

/-- An inbound event from the mixnet. -/
inductive InboundTransportEvent (P : Type) where
  | connectionRequest (upgrade : Upgrade P)
  | connectionResponse
  | transportMessage
  deriving DecidableEq

/-- The queued messages that can be processed now are sent to the connection, at most `fuel` of
them.  A message that cannot be sent is lost. -/
def forwardQueued : ℕ → MessageQueue → Chan SubstreamMessage →
    MessageQueue × Chan SubstreamMessage × Except Error Unit
  | 0, queue, rx => (queue, rx, .ok ())
  | fuel + 1, queue, rx =>
    match queue.pop with
    | (none, queue) => (queue, rx, .ok ())
    | (some msg, queue) =>
      match rx.send msg.message with
      | none => (queue, rx, .error (.inboundSendError sendErrorText))
      | some rx => forwardQueued fuel queue rx

namespace Node

/-- A new transport on the given channel to the mixnet. -/
def new (selfAddress : R) (peerId : P) (outboundTx : Chan (OutboundMessage P R)) : Node P R where
  transport :=
    { selfAddress := selfAddress
      peerId := peerId
      connections := KeyMap.empty
      pendingDials := KeyMap.empty
      messageQueues := KeyMap.empty
      outboundTx := outboundTx }
  conns := KeyMap.empty
  nextConn := 0
  dials := KeyMap.empty
  nextDial := 0

/-- The channel to the connection with the handle `h`. -/
def inbound (n : Node P R) (h : ℕ) : Chan SubstreamMessage :=
  match n.conns h with
  | some e => e.conn.inboundRx
  | none => Chan.new.dropRx

/-- The channel to the connection after something was sent on it. -/
def setInbound (n : Node P R) (h : ℕ) (rx : Chan SubstreamMessage) : Node P R :=
  { n with conns := n.conns.modify h fun e => { e with conn.inboundRx := rx } }

/-- The connection with the handle `h` is dropped. -/
def dropConn (n : Node P R) (h : ℕ) : Node P R :=
  { n with conns := n.conns.modify h Endpoint.dropConnection }

def setQueue (n : Node P R) (id : ConnectionId) (queue : MessageQueue) : Node P R :=
  { n with transport.messageQueues := n.transport.messageQueues.insert id queue }

/-- `while let Some(msg) = queue.pop()`: the queue has as many messages to pop as it holds. -/
def forwardAll (n : Node P R) (id : ConnectionId) (h : ℕ) (queue : MessageQueue) :
    Node P R × Except Error Unit :=
  match forwardQueued (queue.size + 1) queue (n.inbound h) with
  | (queue, rx, r) => ((n.setInbound h rx).setQueue id queue, r)

def handleMessageQueueOnConnectionInitiation (n : Node P R) (id : ConnectionId) :
    Except Panic (Node P R × Except Error Unit) :=
  match n.transport.connections id with
  | none => .ok (n, .error .noConnectionForTransportMessage)
  | some h =>
    match n.transport.messageQueues id with
    | some queue =>
      -- update expected nonce
      match queue.setConnectionMessageReceived with
      | .error p => .error p
      | .ok queue => .ok (n.forwardAll id h queue)
    | none =>
      -- no queue exists for this connection, create one
      match MessageQueue.new.setConnectionMessageReceived with
      | .error p => .error p
      | .ok queue => .ok (n.setQueue id queue, .ok ())

/-- The connection, and the handle of it that stands for both its halves. -/
def createConnectionTypes (n : Node P R) (remotePeerId : P) (recipient : R) (id : ConnectionId) :
    Node P R × ℕ :=
  ({ n with
      conns := n.conns.insert n.nextConn
        (Endpoint.new remotePeerId recipient id n.transport.outboundTx.cloneTx)
      nextConn := n.nextConn + 1 },
    n.nextConn)

/-- Resolves the pending connection corresponding to the response (if there is one) into a
connection.  On an early return the connection and the sender to the dial are dropped. -/
def handleConnectionResponse (n : Node P R) (msg : ConnectionMessage P R) :
    Except Panic (Node P R × Except Error Unit) :=
  if (n.transport.connections msg.id).isSome then .ok (n, .error .connectionAlreadyEstablished)
  else
    match n.transport.pendingDials msg.id with
    | none => .ok (n, .error .noConnectionForResponse)
    | some pendingConn =>
      let n := { n with transport.pendingDials := n.transport.pendingDials.remove msg.id }
      -- resolve connection and put into the dial's channel
      let (n, conn) := n.createConnectionTypes msg.peerId pendingConn.remoteRecipient msg.id
      let n := { n with transport.connections := n.transport.connections.insert msg.id conn }
      match n.handleMessageQueueOnConnectionInitiation msg.id with
      | .error p => .error p
      | .ok (n, .error err) =>
        .ok ({ n.dropConn conn with dials := n.dials.modify pendingConn.connectionTx fun d =>
          { d with connectionRx := d.connectionRx.dropTx } }, .error err)
      | .ok (n, .ok ()) =>
        match (n.dials pendingConn.connectionTx).bind fun d => d.connectionRx.send conn with
        | none => .ok (n.dropConn conn, .error .connectionSendError)
        | some rx =>
          .ok ({ n with dials := n.dials.modify pendingConn.connectionTx fun d =>
            { d with connectionRx := rx } }, .ok ())

/-- Handles an incoming connection request, sends back a connection response, and finally completes
the upgrade into a connection.  On an early return the connection is dropped. -/
def handleConnectionRequest (n : Node P R) (msg : ConnectionMessage P R) :
    Except Panic (Node P R × Except Error ℕ) :=
  match msg.recipient with
  | none => .ok (n, .error .noneRecipientInConnectionRequest)
  | some recipient =>
    -- ensure we don't already have a conn with the same id
    if (n.transport.connections msg.id).isSome then .ok (n, .error .connectionIDExists)
    else
      let (n, conn) := n.createConnectionTypes msg.peerId recipient msg.id
      let n := { n with transport.connections := n.transport.connections.insert msg.id conn }
      match n.handleMessageQueueOnConnectionInitiation msg.id with
      | .error p => .error p
      | .ok (n, .error err) => .ok (n.dropConn conn, .error err)
      | .ok (n, .ok ()) =>
        let resp : ConnectionMessage P R :=
          { peerId := n.transport.peerId, recipient := none, id := msg.id }
        match n.transport.outboundTx.send
            { message := .connectionResponse resp, recipient := recipient } with
        | none => .ok (n.dropConn conn, .error (.outboundSendError sendErrorText))
        | some tx => .ok ({ n with transport.outboundTx := tx }, .ok conn)

def handleTransportMessage (n : Node P R) (msg : TransportMessage) : Node P R × Except Error Unit :=
  -- if no queue exists for this connection, create one
  let queue := (n.transport.messageQueues msg.id).getD MessageQueue.new
  match queue.tryPush msg with
  | (none, queue) =>
    -- don't push the message yet, it's been queued
    (n.setQueue msg.id queue, .ok ())
  | (some msg, queue) =>
    match n.transport.connections msg.id with
    | none => (n.setQueue msg.id queue, .error .noConnectionForTransportMessage)
    | some h =>
      -- send original message
      match (n.inbound h).send msg.message with
      | none => (n.setQueue msg.id queue, .error (.inboundSendError sendErrorText))
      | some rx =>
        -- try to pop queued messages and send them on inbound channel
        (n.setInbound h rx).forwardAll msg.id h queue

/-- Handles an inbound message from the mixnet. -/
def handleInbound (n : Node P R) (msg : Message P R) :
    Except Panic (Node P R × Except Error (InboundTransportEvent P)) :=
  match msg with
  | .connectionRequest inner =>
    match n.handleConnectionRequest inner with
    | .error p => .error p
    | .ok (n, .error err) => .ok (n, .error err)
    | .ok (n, .ok conn) =>
      match Oneshot.new.send (inner.peerId, conn) with
      | none => .ok (n.dropConn conn, .error .connectionSendError)
      | some rx => .ok (n, .ok (.connectionRequest { connectionTx := rx }))
  | .connectionResponse msg =>
    match n.handleConnectionResponse msg with
    | .error p => .error p
    | .ok (n, .error err) => .ok (n, .error err)
    | .ok (n, .ok ()) => .ok (n, .ok .connectionResponse)
  | .transportMessage msg =>
    match n.handleTransportMessage msg with
    | (n, .error err) => .ok (n, .error err)
    | (n, .ok ()) => .ok (n, .ok .transportMessage)

/-- Dropping the pending connection of the id, if there is one, drops the sender to its dial. -/
def dropPending (n : Node P R) (id : ConnectionId) : Node P R :=
  { n with dials :=
      match n.transport.pendingDials id with
      | none => n.dials
      | some pendingConn => n.dials.modify pendingConn.connectionTx fun d =>
        { d with connectionRx := d.connectionRx.dropTx } }

/-- `dial` of the given address, where `id` is what `ConnectionId::generate` returned. -/
def dial (n : Node P R) (recipient : R) (id : ConnectionId) : Node P R × ℕ :=
  let msg : ConnectionMessage P R :=
    { peerId := n.transport.peerId, recipient := some n.transport.selfAddress, id := id }
  -- a pending conn with the same id is replaced
  let n := n.dropPending id
  ({ n with
      -- create pending conn structs and store
      transport.pendingDials := n.transport.pendingDials.insert id
        { remoteRecipient := recipient, connectionTx := n.nextDial }
      -- the future puts the request into the outbound message channel
      dials := n.dials.insert n.nextDial
        { request := some { message := .connectionRequest msg, recipient := recipient }
          connectionRx := Oneshot.new }
      nextDial := n.nextDial + 1 },
    n.nextDial)

/-! ### The transport as a system -/

/-- The dial after its future has ended: the receiver is gone. -/
def endDial (n : Node P R) (d : ℕ) : Node P R :=
  { n with dials := n.dials.modify d fun dial =>
      { dial with connectionRx := dial.connectionRx.dropRx } }

/-- A poll of the dial's future waits for the connection until the handshake timeout. -/
def awaitDial (n : Node P R) (d : ℕ) (dial : Dial P R) (elapsed : Bool) :
    Node P R × Poll (Except Error (P × ℕ)) :=
  match dial.connectionRx.slot with
  | .sent h =>
    match n.conns h with
    | some e => (n.endDial d, .ready (.ok (e.conn.peerId, h)))
    | none => (n.endDial d, .ready (.error .oneshotRecvError))
  | .closed => (n.endDial d, .ready (.error .oneshotRecvError))
  | .empty =>
    if elapsed then (n.endDial d, .ready (.error .dialTimeout)) else (n, .pending)

/-- Dropping the future of the dial drops the connection that waits in its channel, if there is
one. -/
def dropDial (n : Node P R) (d : ℕ) (dial : Dial P R) : Node P R :=
  match dial.connectionRx.slot with
  | .sent h => (n.dropConn h).endDial d
  | .closed => n.endDial d
  | .empty => n.endDial d

/-- A poll of the future of the dial; the first one sends the connection request.  If that fails,
the future ends without having looked into its channel. -/
def pollDial (n : Node P R) (d : ℕ) (dial : Dial P R) (elapsed : Bool) :
    Node P R × Poll (Except Error (P × ℕ)) :=
  match dial.request with
  | none => n.awaitDial d dial elapsed
  | some request =>
    let n := { n with dials := n.dials.insert d { dial with request := none } }
    match n.transport.outboundTx.send request with
    | none => (n.dropDial d dial, .ready (.error (.outboundSendError sendErrorText)))
    | some tx =>
      { n with transport.outboundTx := tx }.awaitDial d { dial with request := none } elapsed

/-- The future of the dial has neither ended nor been dropped. -/
def waiting (n : Node P R) (d : ℕ) : Option (Dial P R) :=
  match n.dials d with
  | none => none
  | some dial => if dial.connectionRx.rxAlive then some dial else none

/-- What can happen at a transport: a message comes from the mixnet, an address is dialed, the
future of a dial is polled, with its timeout elapsed or not, or dropped, or a connection is dropped.
-/
inductive Op (P R : Type) where
  | inbound (msg : Message P R)
  | dial (recipient : R) (id : ConnectionId)
  | pollDial (d : ℕ) (elapsed : Bool)
  | dropDial (d : ℕ)
  | dropConn (h : ℕ)

/-- What an operation answers. -/
inductive Answer (P : Type) where
  | skip
  | done
  | inbound (r : Except Error (InboundTransportEvent P))
  | dial (d : ℕ)
  | pollDial (r : Poll (Except Error (P × ℕ)))

/-- One operation at the transport. -/
def step (n : Node P R) : Op P R → Except Panic (Node P R × Answer P)
  | .inbound msg =>
    match n.handleInbound msg with
    | .error p => .error p
    | .ok (n, r) => .ok (n, .inbound r)
  | .dial recipient id =>
    let r := n.dial recipient id
    .ok (r.1, .dial r.2)
  | .pollDial d elapsed =>
    match n.waiting d with
    | none => .ok (n, .skip)
    | some dial =>
      let r := n.pollDial d dial elapsed
      .ok (r.1, .pollDial r.2)
  | .dropDial d =>
    match n.waiting d with
    | none => .ok (n, .skip)
    | some dial => .ok (n.dropDial d dial, .done)
  | .dropConn h => .ok (n.dropConn h, .done)

end Node

end Libp2pNym
