import Libp2pNym.Lib.Select
import Libp2pNym.Message.Codec

/-!
# The mixnet task

The task that `initialize_mixnet` of `mixnet.rs` spawns.  Its loop selects between `check_inbound`,
which takes one frame from the websocket and passes its message on to the transport, and
`check_outbound`, which takes one message of the transport and writes it to the websocket.  As soon
as one of the two is done, the other is dropped and both are made anew.

The websocket and the requests and responses of the Nym client belong to other crates.  The sink
takes a frame after any number of polls, and a `send` that is dropped before that drops its frame.
-/

namespace Libp2pNym

variable {P R : Type}

/-- A websocket message; `other` is a ping, a pong, a close or a raw frame. -/
inductive WsMessage where
  | text (str : Bytes)
  | binary (bytes : Bytes)
  | other
  deriving DecidableEq, Repr

/-- The request to the Nym client that the task makes. -/
inductive ClientRequest (R : Type) where
  | send (recipient : R) (message : Bytes) (connectionId : Option UInt64)
  deriving DecidableEq

/-- A response of the Nym client; `other` is one that the task does not expect. -/
inductive ServerResponse where
  | received (message : Bytes)
  | error (text : String)
  | other
  deriving DecidableEq, Repr

/-- What the task uses of the crate of the Nym client. -/
structure NymClient (R : Type) where
  /-- `ClientRequest::serialize` -/
  serialize : ClientRequest R → Bytes
  /-- `ServerResponse::deserialize` -/
  deserialize : Bytes → Except String ServerResponse

/-- What the sink of the websocket answers to `poll_ready`, or to `poll_flush`. -/
inductive SinkPoll where
  | pending
  | ready
  | failed
  deriving DecidableEq, Repr

/-! ### Inbound -/

/-- What `check_inbound` works on: the frames of the websocket, where an error stands for one that
could not be read, and the channels to the transport. -/
structure InboundHalf (P R : Type) where
  stream : Chan (Except Unit WsMessage)
  inboundTx : Chan (InboundMessage P R)
  notifyInboundTx : Option (Chan Unit)

def parseNymMessage (w : NymClient R) (msg : WsMessage) : Except Error ServerResponse :=
  match msg with
  | .text str => (w.deserialize str).mapError .nymMessageError
  | .binary bytes => (w.deserialize bytes).mapError .nymMessageError
  | .other => .error .unknownNymMessage

namespace InboundHalf

def handleInbound (w : NymClient R) (t : ThirdParty P R) (s : InboundHalf P R) (msg : WsMessage) :
    Except Panic (InboundHalf P R × Except Error Unit) :=
  match parseNymMessage w msg with
  | .error e => .ok (s, .error e)
  | .ok (.error text) => .ok (s, .error (.nymMessageError text))
  | .ok .other => .ok (s, .error .unexpectedNymMessage)
  | .ok (.received bytes) =>
    match parseMessageData t bytes with
    | .error (.panic p) => .error p
    | .error (.err e) => .ok (s, .error e)
    | .ok data =>
      match s.inboundTx.send data with
      | none => .ok (s, .error (.inboundSendError sendErrorText))
      | some tx => .ok ({ s with inboundTx := tx }, .ok ())

/-- The receiver of the notifications is told that a frame has come, if there is one. -/
def notify (s : InboundHalf P R) : Option (InboundHalf P R) :=
  match s.notifyInboundTx with
  | none => some s
  | some tx => (tx.send ()).map fun tx => { s with notifyInboundTx := some tx }

/-- A poll of `check_inbound`: it waits for a frame only. -/
def checkInbound (w : NymClient R) (t : ThirdParty P R) (s : InboundHalf P R) :
    Except Panic (InboundHalf P R × Poll (Except Error Unit)) :=
  match s.stream.pollRecv with
  | (.pending, _) => .ok (s, .pending)
  | (.ready none, stream) =>
    .ok ({ s with stream := stream }, .ready (.error .websocketStreamReadNone))
  | (.ready (some res), stream) =>
    match notify { s with stream := stream } with
    | none => .ok ({ s with stream := stream }, .ready (.error (.inboundSendError sendErrorText)))
    | some s =>
      match res with
      | .error _ => .ok (s, .ready (.error .websocketStreamError))
      | .ok msg =>
        match s.handleInbound w t msg with
        | .error p => .error p
        | .ok (s, r) => .ok (s, .ready r)

end InboundHalf

/-! ### Outbound -/

/-- Where `check_outbound` stands: at `recv`, at the `send` of a message that the sink has not
accepted yet, or at the flush after it. -/
inductive CheckOutbound (P R : Type) where
  | receiving
  | sending (message : OutboundMessage P R)
  | flushing
  deriving DecidableEq

/-- What `check_outbound` works on: the messages of the transport and the frames that the sink of
the websocket has accepted. -/
structure OutboundHalf (P R : Type) where
  outboundRx : Chan (OutboundMessage P R)
  sink : List Bytes
  future : CheckOutbound P R

/-- The frame for a message. -/
def nymPacket (w : NymClient R) (t : ThirdParty P R) (m : OutboundMessage P R) : Bytes :=
  w.serialize (.send m.recipient (m.message.toBytes t) none)

namespace OutboundHalf

/-- The sink is flushed. -/
def flushSink (s : OutboundHalf P R) (pollFlush : SinkPoll) :
    OutboundHalf P R × Poll (Except Error Unit) :=
  match pollFlush with
  | .pending => (s, .pending)
  | .failed => (s, .ready (.error .websocketStreamError))
  | .ready => (s, .ready (.ok ()))

/-- A poll of `write_bytes`: the sink accepts the frame when it is ready, and is flushed then. -/
def writeBytes (w : NymClient R) (t : ThirdParty P R) (s : OutboundHalf P R)
    (m : OutboundMessage P R) (pollReady pollFlush : SinkPoll) :
    OutboundHalf P R × Poll (Except Error Unit) :=
  match pollReady with
  | .pending => ({ s with future := .sending m }, .pending)
  | .failed => ({ s with future := .sending m }, .ready (.error .websocketStreamError))
  | .ready =>
    { s with sink := s.sink ++ [nymPacket w t m], future := .flushing }.flushSink pollFlush

/-- A poll of `check_outbound`. -/
def checkOutbound (w : NymClient R) (t : ThirdParty P R) (pollReady pollFlush : SinkPoll)
    (s : OutboundHalf P R) : OutboundHalf P R × Poll (Except Error Unit) :=
  match s.future with
  | .receiving =>
    match s.outboundRx.pollRecv with
    | (.pending, _) => (s, .pending)
    | (.ready none, rx) => ({ s with outboundRx := rx }, .ready (.error .recvError))
    | (.ready (some m), rx) => { s with outboundRx := rx }.writeBytes w t m pollReady pollFlush
  | .sending m => s.writeBytes w t m pollReady pollFlush
  | .flushing => s.flushSink pollFlush

/-- A new `check_outbound`, whatever became of the last one. -/
def renew (s : OutboundHalf P R) : OutboundHalf P R := { s with future := .receiving }

end OutboundHalf

/-! ### The task -/

structure MixnetTask (P R : Type) where
  inbound : InboundHalf P R
  outbound : OutboundHalf P R

namespace MixnetTask

/-- The task when its loop starts; `notify` says whether there is a receiver for the notifications.
-/
def new (notify : Bool) : MixnetTask P R where
  inbound :=
    { stream := Chan.new
      inboundTx := Chan.new
      notifyInboundTx := if notify then some Chan.new else none }
  outbound :=
    { outboundRx := Chan.new
      sink := []
      future := .receiving }

/-- One poll of the `select!` in the loop. -/
def poll (w : NymClient R) (t : ThirdParty P R) (s : MixnetTask P R) (order : Select.Order)
    (pollReady pollFlush : SinkPoll) :
    Except Panic (MixnetTask P R × Select.Outcome (Except Error Unit) (Except Error Unit)) :=
  match Select.select (InboundHalf.checkInbound w t)
      (fun s => .ok (OutboundHalf.checkOutbound w t pollReady pollFlush s)) id OutboundHalf.renew
      order s.inbound
      s.outbound with
  | .error p => .error p
  | .ok ((inbound, outbound), r) => .ok (⟨inbound, outbound⟩, r)

/-- What can happen at the task: the transport sends a message or drops its last sender, a frame
comes from the websocket or the websocket ends, one of the receivers of the task goes, or the task
is polled, in an order that `select!` draws and with what the sink answers. -/
inductive Op (P R : Type) where
  | send (m : OutboundMessage P R)
  | dropOutboundTx
  | frame (res : Except Unit WsMessage)
  | endStream
  | dropInboundRx
  | dropNotifyRx
  | poll (order : Select.Order) (pollReady pollFlush : SinkPoll)

/-- What an operation answers. -/
inductive Answer where
  | skip
  | sent
  | done
  | poll (r : Select.Outcome (Except Error Unit) (Except Error Unit))

/-- One operation. -/
def step (w : NymClient R) (t : ThirdParty P R) (s : MixnetTask P R) :
    Op P R → Except Panic (MixnetTask P R × Answer)
  | .send m =>
    if s.outbound.outboundRx.txAlive then
      match s.outbound.outboundRx.send m with
      | none => .ok (s, .skip)
      | some rx => .ok ({ s with outbound.outboundRx := rx }, .sent)
    else .ok (s, .skip)
  | .dropOutboundTx =>
    .ok ({ s with outbound.outboundRx := s.outbound.outboundRx.dropTx }, .done)
  | .frame res =>
    if s.inbound.stream.txAlive then
      match s.inbound.stream.send res with
      | none => .ok (s, .skip)
      | some stream => .ok ({ s with inbound.stream := stream }, .done)
    else .ok (s, .skip)
  | .endStream => .ok ({ s with inbound.stream := s.inbound.stream.dropTx }, .done)
  | .dropInboundRx => .ok ({ s with inbound.inboundTx := s.inbound.inboundTx.dropRx }, .done)
  | .dropNotifyRx =>
    .ok ({ s with inbound.notifyInboundTx := s.inbound.notifyInboundTx.map Chan.dropRx }, .done)
  | .poll order pollReady pollFlush =>
    match s.poll w t order pollReady pollFlush with
    | .error p => .error p
    | .ok (s, r) => .ok (s, .poll r)

end MixnetTask

end Libp2pNym
