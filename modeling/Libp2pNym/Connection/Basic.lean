import Libp2pNym.Lib.KeyMap
import Libp2pNym.Substream.Basic
import Mathlib.Data.Finset.Basic

/-!
# Connections

`Connection` of `connection.rs` with its `StreamMuxer` functions.

A connection and the substreams it has created are linked by channels: the connection holds the
sending halves, each substream its receiving halves.  Here a substream is an object with a handle,
its receivers carry the channels, and a sending half is the handle of the substream at the other
end; handles are numbers, in the order of creation.  An `Endpoint` is a connection together with
every substream it has ever created and with what they all share, the nonce counter and their clone
of the channel to the mixnet.  Dropped objects stay there with their receivers marked as dropped.
-/

namespace Libp2pNym

variable {P R : Type}

/-- The result of a connection setup process, with stream multiplexing built in. -/
structure Connection (P R : Type) where
  peerId : P
  remoteRecipient : R
  id : ConnectionId
  /-- Inbound messages from the transport. -/
  inboundRx : Chan SubstreamMessage
  /-- Outbound substreams whose response has not been received. -/
  pendingSubstreams : Finset SubstreamId
  /-- Substream id to the substream's `inbound_tx` channel. -/
  substreamInboundTxs : KeyMap SubstreamId ℕ
  /-- Substream id to the substream's `close_tx` channel. -/
  substreamCloseTxs : KeyMap SubstreamId ℕ
  /-- Inbound substream open requests, both halves; used in `pollInbound`. -/
  inboundOpen : Chan ℕ
  /-- Closed substream ids, both halves; used in `pollClose`. -/
  closeIds : Chan SubstreamId

/-- A connection, every substream it has created, and what they share. -/
structure Endpoint (P R : Type) where
  conn : Connection P R
  substreams : KeyMap ℕ (Substream R)
  /-- The handle of the next substream. -/
  next : ℕ
  outbox : Outbox P R

/-- The events of a `StreamMuxer`. -/
inductive StreamMuxerEvent where
  | addressChange
  deriving DecidableEq, Repr

def Connection.new (peerId : P) (remoteRecipient : R) (id : ConnectionId)
    (inboundRx : Chan SubstreamMessage) : Connection P R where
  peerId := peerId
  remoteRecipient := remoteRecipient
  id := id
  inboundRx := inboundRx
  pendingSubstreams := ∅
  substreamInboundTxs := KeyMap.empty
  substreamCloseTxs := KeyMap.empty
  inboundOpen := Chan.new
  closeIds := Chan.new

namespace Endpoint

/-- A new connection over the given channel to the mixnet: its counter starts at 1. -/
def new (peerId : P) (remoteRecipient : R) (id : ConnectionId)
    (outboundTx : Chan (OutboundMessage P R)) : Endpoint P R where
  conn := Connection.new peerId remoteRecipient id Chan.new
  substreams := KeyMap.empty
  next := 0
  outbox := { messageNonce := 1, outboundTx := outboundTx }

/-- Creates a new substream instance with the given id. -/
def newSubstream (e : Endpoint P R) (id : SubstreamId) : Endpoint P R × Except Error ℕ :=
  -- check we don't already have a substream with this id
  if (e.conn.substreamInboundTxs id).isSome then (e, .error (.substreamIdExists id))
  else
    ({ e with
        conn.substreamInboundTxs := e.conn.substreamInboundTxs.insert id e.next
        conn.substreamCloseTxs := e.conn.substreamCloseTxs.insert id e.next
        substreams := e.substreams.insert e.next
          (.new e.conn.remoteRecipient e.conn.id id Chan.new Oneshot.new)
        next := e.next + 1 },
      .ok e.next)

/-- Draw a nonce and send a message of the given type for the substream over the connection. -/
def sendMessage (e : Endpoint P R) (substreamId : SubstreamId) (ty : SubstreamMessageType) :
    Endpoint P R × Except Error Unit :=
  let (nonce, o) := e.outbox.fetchAdd
  match o.send e.conn.remoteRecipient
      { nonce := nonce, id := e.conn.id,
        message := { substreamId := substreamId, messageType := ty } } with
  | none => ({ e with outbox := o }, .error (.outboundSendError sendErrorText))
  | some o => ({ e with outbox := o }, .ok ())

/-- `new_outbound_substream`, where `substreamId` is what `SubstreamId::generate` returned. -/
def newOutboundSubstream (e : Endpoint P R) (substreamId : SubstreamId) :
    Endpoint P R × Except Error ℕ :=
  match e.sendMessage substreamId .openRequest with
  | (e, .error err) => (e, .error err)
  | (e, .ok ()) =>
    match e.newSubstream substreamId with
    | (e, .ok h) =>
      ({ e with conn.pendingSubstreams := insert substreamId e.conn.pendingSubstreams }, .ok h)
    | (e, .error err) => (e, .error err)

/-- `handle_close` removes the inbound sender of the substream with the handle `h`, which drops it.
-/
def dropInboundTx (e : Endpoint P R) (substreamId : SubstreamId) (h : ℕ) : Endpoint P R :=
  { e with
    conn.substreamInboundTxs := e.conn.substreamInboundTxs.remove substreamId
    substreams := e.substreams.modify h fun s => { s with inboundRx := s.inboundRx.dropTx } }

/-- The rest of `handle_close`, after the inbound sender is gone. -/
def notifyClosed (e : Endpoint P R) (substreamId : SubstreamId) :
    Except Panic (Endpoint P R × Except Error Unit) :=
  -- notify substream that it's closed
  match e.conn.substreamCloseTxs substreamId with
  | none => .error .unwrapNone
  | some h =>
    match e.substreams h with
    | none => .error .unwrapErr
    | some s =>
      match s.closeRx.send () with
      | none => .error .unwrapErr
      | some closeRx =>
        let e := { e with
          conn.substreamCloseTxs := e.conn.substreamCloseTxs.remove substreamId
          substreams := e.substreams.insert h { s with closeRx := closeRx } }
        -- notify `pollClose` that the substream is closed
        match e.conn.closeIds.send substreamId with
        | none => .ok (e, .error (.inboundSendError sendErrorText))
        | some closeIds => .ok ({ e with conn.closeIds := closeIds }, .ok ())

/-- `handle_close`: the inbound sender is removed and dropped before the close signal is sent. -/
def handleClose (e : Endpoint P R) (substreamId : SubstreamId) :
    Except Panic (Endpoint P R × Except Error Unit) :=
  match e.conn.substreamInboundTxs substreamId with
  | none => .ok (e, .error (.substreamIdDoesNotExist substreamId))
  | some h => (e.dropInboundTx substreamId h).notifyClosed substreamId

/-- `inbound_tx.send(data).ok()`: a substream that is gone takes nothing. -/
def sendData (e : Endpoint P R) (h : ℕ) (data : Bytes) : Endpoint P R :=
  { e with substreams := e.substreams.modify h fun s =>
      match s.inboundRx.send data with
      | some rx => { s with inboundRx := rx }
      | none => s }

/-- The body of the loop of `poll`: one message off the inbound channel. -/
def handleMessage (e : Endpoint P R) (msg : SubstreamMessage) :
    Except Panic (Endpoint P R × Except Error Unit) :=
  match msg.messageType with
  | .openRequest =>
    -- create a new substream with the given id
    match e.newSubstream msg.substreamId with
    | (e, .error err) => .ok (e, .error err)
    | (e, .ok h) =>
      -- send the response to the remote peer; on an early return the new substream is dropped
      match e.sendMessage msg.substreamId .openResponse with
      | (e, .error err) =>
        .ok ({ e with substreams := e.substreams.modify h Substream.drop }, .error err)
      | (e, .ok ()) =>
        -- send the substream to our own channel to be returned in `pollInbound`
        match e.conn.inboundOpen.send h with
        | none => .ok ({ e with substreams := e.substreams.modify h Substream.drop },
            .error (.inboundSendError sendErrorText))
        | some inboundOpen => .ok ({ e with conn.inboundOpen := inboundOpen }, .ok ())
  | .openResponse =>
    .ok ({ e with conn.pendingSubstreams := e.conn.pendingSubstreams.erase msg.substreamId },
      .ok ())
  | .close => e.handleClose msg.substreamId
  | .data data =>
    match e.conn.substreamInboundTxs msg.substreamId with
    | none => .error .noSubstreamChannel
    | some h => .ok (e.sendData h data, .ok ())

/-- The loop of `poll`, for at most `fuel` messages. -/
def pollLoop : ℕ → Endpoint P R →
    Except Panic (Endpoint P R × Poll (Except Error StreamMuxerEvent))
  | 0, e => .ok (e, .pending)
  | fuel + 1, e =>
    match e.conn.inboundRx.pollRecv with
    | (.ready (some msg), rx) =>
      match { e with conn.inboundRx := rx }.handleMessage msg with
      | .error p => .error p
      | .ok (e, .error err) => .ok (e, .ready (.error err))
      | .ok (e, .ok ()) => pollLoop fuel e
    | (_, rx) => .ok ({ e with conn.inboundRx := rx }, .pending)

/-- `StreamMuxer::poll`.  No message is added to the inbound channel while the loop runs, so there
are as many to take as there were at the start. -/
def poll (e : Endpoint P R) : Except Panic (Endpoint P R × Poll (Except Error StreamMuxerEvent)) :=
  pollLoop (e.conn.inboundRx.queue.length + 1) e

/-- `StreamMuxer::poll_inbound` -/
def pollInbound (e : Endpoint P R) : Endpoint P R × Poll (Except Error ℕ) :=
  match e.conn.inboundOpen.pollRecv with
  | (.ready (some h), rx) => ({ e with conn.inboundOpen := rx }, .ready (.ok h))
  | (_, rx) => ({ e with conn.inboundOpen := rx }, .pending)

/-- `StreamMuxer::poll_outbound` -/
def pollOutbound (e : Endpoint P R) (substreamId : SubstreamId) :
    Endpoint P R × Poll (Except Error ℕ) :=
  let r := e.newOutboundSubstream substreamId
  (r.1, .ready r.2)

/-- `StreamMuxer::poll_close` -/
def pollClose (e : Endpoint P R) : Endpoint P R × Poll (Except Error Unit) :=
  match e.conn.closeIds.pollRecv with
  | (.ready (some _), rx) => ({ e with conn.closeIds := rx }, .ready (.ok ()))
  | (_, rx) => ({ e with conn.closeIds := rx }, .pending)

/-! ### The connection and its substreams as a system -/

/-- What can happen at an endpoint: the transport forwards a message, the muxer polls the
connection, the application uses or drops a substream it was handed, or the connection itself is
dropped. -/
inductive Op where
  | receive (msg : SubstreamMessage)
  | poll
  | pollInbound
  | pollOutbound (substreamId : SubstreamId)
  | pollClose
  | read (h : ℕ) (buf : Bytes)
  | write (h : ℕ) (buf : Bytes)
  | flush (h : ℕ)
  | close (h : ℕ)
  | dropSubstream (h : ℕ)
  | dropConnection

/-- What an operation answers; `skip` if the object it is for does not exist or is dropped. -/
inductive Answer where
  | skip
  | done
  | poll (r : Poll (Except Error StreamMuxerEvent))
  | pollInbound (r : Poll (Except Error ℕ))
  | pollOutbound (r : Poll (Except Error ℕ))
  | pollClose (r : Poll (Except Error Unit))
  | read (buf : Bytes) (r : Poll (Except IoError ℕ))
  | write (r : Poll (Except IoError ℕ))
  | flush (r : Poll (Except IoError Unit))
  | close (r : Poll (Except IoError Unit))
  deriving DecidableEq

/-- The messages the endpoint has sent, in order. -/
def sent (e : Endpoint P R) : List SubstreamMessage := e.outbox.sentMessages

/-- The connection has not been dropped. -/
def Alive (e : Endpoint P R) : Prop := e.conn.inboundRx.rxAlive = true

instance (e : Endpoint P R) : Decidable e.Alive :=
  inferInstanceAs (Decidable (_ = true))

/-- The substream the application holds under the handle: it was handed out and not dropped. -/
def held (e : Endpoint P R) (h : ℕ) : Option (Substream R) :=
  match e.substreams h with
  | none => none
  | some s => if s.inboundRx.rxAlive ∧ h ∉ e.conn.inboundOpen.queue then some s else none

/-- What dropping the connection does to one of its substreams: the senders it is registered with
go, and the substream too if it was never handed out. -/
def afterDrop (e : Endpoint P R) (h : ℕ) (s : Substream R) : Substream R :=
  let s := { s with
    inboundRx := if e.conn.substreamInboundTxs s.substreamId = some h then s.inboundRx.dropTx
      else s.inboundRx
    closeRx := if e.conn.substreamCloseTxs s.substreamId = some h then s.closeRx.dropTx
      else s.closeRx }
  if h ∈ e.conn.inboundOpen.queue then s.drop else s

/-- Dropping the connection drops its receiver, all its senders, and the substreams that were
never handed out. -/
def dropConnection (e : Endpoint P R) : Endpoint P R :=
  { e with
    conn.inboundRx := e.conn.inboundRx.dropRx
    conn.substreamInboundTxs := KeyMap.empty
    conn.substreamCloseTxs := KeyMap.empty
    conn.inboundOpen := { e.conn.inboundOpen with queue := [] }
    substreams := fun h => (e.substreams h).map (e.afterDrop h) }

/-- Put a substream back after an operation on it. -/
def put (e : Endpoint P R) (h : ℕ) (s : Substream R) : Endpoint P R :=
  { e with substreams := e.substreams.insert h s }

/-- One operation at the endpoint. -/
def step (e : Endpoint P R) : Op → Except Panic (Endpoint P R × Answer)
  | .receive msg =>
    match e.conn.inboundRx.send msg with
    | none => .ok (e, .skip)
    | some rx => .ok ({ e with conn.inboundRx := rx }, .done)
  | .poll =>
    if e.Alive then
      match e.poll with
      | .error p => .error p
      | .ok (e, r) => .ok (e, .poll r)
    else .ok (e, .skip)
  | .pollInbound =>
    if e.Alive then
      let r := e.pollInbound
      .ok (r.1, .pollInbound r.2)
    else .ok (e, .skip)
  | .pollOutbound substreamId =>
    if e.Alive then
      let r := e.pollOutbound substreamId
      .ok (r.1, .pollOutbound r.2)
    else .ok (e, .skip)
  | .pollClose =>
    if e.Alive then
      let r := e.pollClose
      .ok (r.1, .pollClose r.2)
    else .ok (e, .skip)
  | .read h buf =>
    match e.held h with
    | none => .ok (e, .skip)
    | some s =>
      let r := s.pollRead buf
      .ok (e.put h r.1, .read r.2.1 r.2.2)
  | .write h buf =>
    match e.held h with
    | none => .ok (e, .skip)
    | some s =>
      let r := s.pollWrite e.outbox buf
      .ok ({ e.put h r.1 with outbox := r.2.1 }, .write r.2.2)
  | .flush h =>
    match e.held h with
    | none => .ok (e, .skip)
    | some s =>
      let r := s.pollFlush
      .ok (e.put h r.1, .flush r.2)
  | .close h =>
    match e.held h with
    | none => .ok (e, .skip)
    | some s =>
      let r := s.pollClose e.outbox
      .ok ({ e.put h r.1 with outbox := r.2.1 }, .close r.2.2)
  | .dropSubstream h =>
    match e.held h with
    | none => .ok (e, .skip)
    | some s => .ok (e.put h s.drop, .done)
  | .dropConnection =>
    if e.Alive then .ok (e.dropConnection, .done) else .ok (e, .skip)

end Endpoint

end Libp2pNym
