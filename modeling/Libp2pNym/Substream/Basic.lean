import Libp2pNym.Lib.Channel
import Libp2pNym.Message.Basic

/-!
# Substreams

`Substream` of `substream.rs`, with its `AsyncRead` and `AsyncWrite` functions.  What a substream
shares with its connection and with the other substreams of it, the nonce counter and the channel
to the mixnet, is an `Outbox` that every function takes and gives back.  Wakers are left out.
-/

namespace Libp2pNym

variable {P R : Type}

/-- `std::io::ErrorKind`, as far as it is used. -/
inductive ErrorKind where
  | other
  deriving DecidableEq, Repr

/-- `std::io::Error` -/
structure IoError where
  kind : ErrorKind
  message : String
  deriving DecidableEq, Repr

/-- The error of every operation on a closed substream. -/
def streamClosed : IoError := ⟨.other, "stream closed"⟩

/-- The nonce counter of a connection, shared by its substreams, and the channel to the mixnet. -/
structure Outbox (P R : Type) where
  /-- The next nonce that should be used when sending a message over the connection. -/
  messageNonce : UInt64
  outboundTx : Chan (OutboundMessage P R)

/-- `message_nonce.fetch_add(1, SeqCst)`: the old value, and the counter after it. -/
def Outbox.fetchAdd (o : Outbox P R) : UInt64 × Outbox P R :=
  (o.messageNonce, { o with messageNonce := o.messageNonce + 1 })

/-- `outbound_tx.send(OutboundMessage { .. })` -/
def Outbox.send (o : Outbox P R) (recipient : R) (msg : TransportMessage) :
    Option (Outbox P R) :=
  match o.outboundTx.send { message := .transportMessage msg, recipient := recipient } with
  | some tx => some { o with outboundTx := tx }
  | none => none

/-- The substream messages that were put on the channel, in order. -/
def Outbox.sentMessages (o : Outbox P R) : List SubstreamMessage :=
  o.outboundTx.log.filterMap fun m => m.message.transport?.map TransportMessage.message

structure Substream (R : Type) where
  remoteRecipient : R
  connectionId : ConnectionId
  substreamId : SubstreamId
  /-- Inbound messages; the sending half is in the corresponding `Connection`. -/
  inboundRx : Chan Bytes
  /-- Used to signal when the substream is closed. -/
  closeRx : Oneshot Unit
  closed : Bool
  /-- Data that has been written to the stream, but not yet read by the application. -/
  unreadData : Bytes
  deriving DecidableEq

namespace Substream

def new (remoteRecipient : R) (connectionId : ConnectionId) (substreamId : SubstreamId)
    (inboundRx : Chan Bytes) (closeRx : Oneshot Unit) : Substream R where
  remoteRecipient := remoteRecipient
  connectionId := connectionId
  substreamId := substreamId
  inboundRx := inboundRx
  closeRx := closeRx
  closed := false
  unreadData := []

def checkClosed (s : Substream R) : Except IoError Unit × Substream R :=
  -- the receiver answers with an error if the sender was dropped, or if the channel is empty
  let receivedClosed := s.closeRx.tryRecv
  let s := { s with closeRx := receivedClosed.2 }
  if s.closed then (.error streamClosed, s)
  else if receivedClosed.1.isSome then (.error streamClosed, { s with closed := true })
  else (.ok (), s)

/-- `buf[off..off + src.len()].copy_from_slice(src)` -/
def overwrite (buf : Bytes) (off : ℕ) (src : Bytes) : Bytes :=
  buf.take off ++ src ++ buf.drop (off + src.length)

/-- Write any previously unread data to the buffer: the substream with what is left, the buffer,
and how much of it was filled. -/
def fillFromUnread (s : Substream R) (buf : Bytes) : Substream R × Bytes × ℕ :=
  if 0 < s.unreadData.length then
    let copyLen := min s.unreadData.length buf.length
    ({ s with unreadData := s.unreadData.drop copyLen },
      overwrite buf 0 (s.unreadData.take copyLen), copyLen)
  else (s, buf, 0)

/-- `poll_read`: the substream after the call, the caller's buffer and the answer. -/
def pollRead (s : Substream R) (buf : Bytes) : Substream R × Bytes × Poll (Except IoError ℕ) :=
  match s.checkClosed with
  | (.error e, s) => (s, buf, .ready (.error e))
  | (.ok (), s) =>
    let (inboundRxData, inboundRx) := s.inboundRx.pollRecv
    let (s, buf, filledLen) := { s with inboundRx := inboundRx }.fillFromUnread buf
    match inboundRxData with
    | .ready (some data) =>
      if filledLen = buf.length then
        -- we've filled the buffer, so we'll have to save the rest for later
        ({ s with unreadData := s.unreadData ++ data }, buf, .ready (.ok filledLen))
      else
        let remainingLen := buf.length - filledLen
        -- we have more data than buffer room remaining, save the extra for later
        let s := if remainingLen < data.length then
            { s with unreadData := s.unreadData ++ data.drop remainingLen }
          else s
        let copied := min remainingLen data.length
        (s, overwrite buf filledLen (data.take copied), .ready (.ok copied))
    | _ => if 0 < filledLen then (s, buf, .ready (.ok filledLen)) else (s, buf, .pending)

/-- `poll_write` -/
def pollWrite (s : Substream R) (o : Outbox P R) (buf : Bytes) :
    Substream R × Outbox P R × Poll (Except IoError ℕ) :=
  match s.checkClosed with
  | (.error e, s) => (s, o, .ready (.error e))
  | (.ok (), s) =>
    let (nonce, o) := o.fetchAdd
    match o.send s.remoteRecipient
        { nonce := nonce, id := s.connectionId, message := .newWithData s.substreamId buf } with
    | none =>
      (s, o, .ready (.error ⟨.other, "poll_write outbound_tx error: " ++ sendErrorText⟩))
    | some o => (s, o, .ready (.ok buf.length))

/-- `poll_flush` -/
def pollFlush (s : Substream R) : Substream R × Poll (Except IoError Unit) :=
  match s.checkClosed with
  | (.error e, s) => (s, .ready (.error e))
  | (.ok (), s) => (s, .ready (.ok ()))

/-- `poll_close`: the nonce is drawn before the closed flag is looked at, and the close signal of
the remote is not looked at. -/
def pollClose (s : Substream R) (o : Outbox P R) :
    Substream R × Outbox P R × Poll (Except IoError Unit) :=
  let (nonce, o) := o.fetchAdd
  if s.closed then (s, o, .ready (.error streamClosed))
  else
    let s := { s with closed := true }
    match o.send s.remoteRecipient
        { nonce := nonce, id := s.connectionId, message := .newClose s.substreamId } with
    | none =>
      (s, o, .ready (.error ⟨.other, "poll_close outbound_rx error: " ++ sendErrorText⟩))
    | some o => (s, o, .ready (.ok ()))

/-- Dropping a substream drops both its receivers. -/
def drop (s : Substream R) : Substream R :=
  { s with inboundRx := s.inboundRx.dropRx, closeRx := s.closeRx.dropRx }

end Substream

end Libp2pNym
