import Libp2pNym.Mixnet.Setup
import Libp2pNym.Transport.Listener

/-!
# The whole program on many hosts

Every host runs `NymTransport::new`, and then the transport with its connections and the mixnet
task, which share two channels: the inbound messages go from the task to the transport, and the
outbound messages from the transport and its connections to the task.  Each side keeps its own view
of a channel, and an operation at one side is followed by the other.

The Nym clients and the mixnet are between the websockets of the hosts.  A frame that a host has
written is carried to the host that it is for, at any time, in any order and any number of times, or
never.  Other frames come too, but none that pretends to be a message or the address of another.
-/

namespace Libp2pNym

variable {P R : Type}

/-- The Nym clients on the other side of the websockets. -/
structure Gateway (R : Type) extends NymSetup R where
  /-- `ClientRequest::deserialize`, for a request to send a message. -/
  request : Bytes → Option (R × Bytes)
  /-- The websocket message for a `ServerResponse::Received`. -/
  response : Bytes → WsMessage
  request_serialize : ∀ recipient message connectionId,
    request (serialize (.send recipient message connectionId)) = some (recipient, message)
  request_selfAddress : request selfAddressRequest = none
  parse_response : ∀ message,
    parseNymMessage toNymClient (response message) = .ok (.received message)

/-- Why `NymTransport::new` fails. -/
inductive StartError where
  | mixnet (e : Error)
  | address (e : AddressError)
  deriving DecidableEq

/-- A frame comes over a websocket that has not ended. -/
def websocketFrame (stream : Chan (Except Unit WsMessage)) (res : Except Unit WsMessage) :
    Chan (Except Unit WsMessage) :=
  if stream.txAlive then { stream with queue := stream.queue ++ [res] } else stream

/-! ### One host -/

/-- A host: `NymTransport::new` waits for our address; the transport and the mixnet task run; or
`NymTransport::new` has failed. -/
inductive Host (P R : Type) where
  | starting (s : Setup)
  | running (listener : Listener P R) (task : MixnetTask P R)
  | failed (e : StartError)

/-- The other side has moved on the channels: `rx` is what the inbound one has come to, and `ms` was
sent on the outbound one. -/
def MixnetTask.follow (task : MixnetTask P R) (rx : Chan (InboundMessage P R))
    (ms : List (OutboundMessage P R)) : MixnetTask P R where
  inbound := { task.inbound with inboundTx := rx }
  outbound :=
    { task.outbound with
      outboundRx :=
        { task.outbound.outboundRx with queue := task.outbound.outboundRx.queue ++ ms } }

namespace Host

/-- A host with a websocket that has just been opened. -/
def new : Host P R :=
  .starting
    { stream := Chan.new
      sink := []
      future := .sending }

/-- The frames that a running host has written to its websocket. -/
def sink : Host P R → List Bytes
  | .starting s => s.sink
  | .running _ task => task.outbound.sink
  | .failed _ => []

/-- What can happen at a host: a frame comes, or the websocket ends; `NymTransport::new` is polled,
with what the sink answers and the id for a listener; the application uses its transport, or a
connection that it was given; or the mixnet task is polled. -/
inductive Op (P R : Type) where
  | frame (res : Except Unit WsMessage)
  | endStream
  | start (pollReady pollFlush : SinkPoll) (listenerId : ℕ)
  | app (o : Listener.Op P R)
  | conn (h : ℕ) (o : Endpoint.Op)
  | task (order : Select.Order) (pollReady pollFlush : SinkPoll)

/-- What an operation answers. -/
inductive Answer (P : Type) where
  | skip
  | done
  | start (r : Poll (Except StartError Unit))
  | app (a : Listener.Answer P)
  | conn (r : Endpoint.Answer)
  | task (r : Select.Outcome (Except Error Unit) (Except Error Unit))

/-- A poll of `NymTransport::new`. -/
def start (g : Gateway R) (f : AddressFormat R) (peerId : P) (s : Setup)
    (pollReady pollFlush : SinkPoll) (listenerId : ℕ) :
    Host P R × Poll (Except StartError Unit) :=
  match s.getSelfAddress g.toNymSetup pollReady pollFlush with
  | (s, .pending) => (.starting s, .pending)
  | (_, .ready (.error e)) => (.failed (.mixnet e), .ready (.error (.mixnet e)))
  | (s, .ready (.ok recipient)) =>
    let task : MixnetTask P R := Mixnet.spawn s false
    match Listener.newMaybeWithNotifyInbound f peerId recipient task.inbound.inboundTx
        task.outbound.outboundRx.cloneTx listenerId with
    | .error e => (.failed (.address e), .ready (.error (.address e)))
    | .ok listener => (.running listener task, .ready (.ok ()))

/-- The application uses its transport, and what the transport has sent goes to the task. -/
def app (f : AddressFormat R) (l : Listener P R) (task : MixnetTask P R) (o : Listener.Op P R) :
    Except Panic (Host P R × Answer P) :=
  match l.step f o with
  | .error p => .error p
  | .ok (l', a) =>
    .ok (.running l' (task.follow l'.inboundStream
      (l'.node.transport.outboundTx.log.drop l.node.transport.outboundTx.log.length)), .app a)

/-- The application uses a connection that it was given, and what the connection has sent goes to
the task. -/
def conn (l : Listener P R) (task : MixnetTask P R) (h : ℕ) (o : Endpoint.Op) :
    Except Panic (Host P R × Answer P) :=
  match l.node.conns h with
  | none => .ok (.running l task, .skip)
  | some e =>
    if h ∈ l.taken then
      match e.step o with
      | .error p => .error p
      | .ok (e', r) =>
        .ok (.running { l with node := { l.node with conns := l.node.conns.insert h e' } }
          (task.follow l.inboundStream
            (e'.outbox.outboundTx.log.drop e.outbox.outboundTx.log.length)), .conn r)
    else .ok (.running l task, .skip)

/-- A poll of the task, and what it has passed on is in the channel of the transport. -/
def pollTask (g : Gateway R) (t : ThirdParty P R) (l : Listener P R) (task : MixnetTask P R)
    (order : Select.Order) (pollReady pollFlush : SinkPoll) :
    Except Panic (Host P R × Answer P) :=
  match task.poll g.toNymClient t order pollReady pollFlush with
  | .error p => .error p
  | .ok (task, r) =>
    .ok (.running { l with inboundStream := task.inbound.inboundTx } task, .task r)

/-- One operation; inbound messages come only from the task, and messages for a connection only from
its transport. -/
def step (g : Gateway R) (t : ThirdParty P R) (f : AddressFormat R) (peerId : P) :
    Host P R → Op P R → Except Panic (Host P R × Answer P)
  | .starting s, .frame res =>
    .ok (.starting { s with stream := websocketFrame s.stream res }, .done)
  | .starting s, .endStream => .ok (.starting { s with stream := s.stream.dropTx }, .done)
  | .starting s, .start pollReady pollFlush listenerId =>
    let r := start g f peerId s pollReady pollFlush listenerId
    .ok (r.1, .start r.2)
  | .running l task, .frame res =>
    .ok (.running l { task with inbound.stream := websocketFrame task.inbound.stream res }, .done)
  | .running l task, .endStream =>
    .ok (.running l { task with inbound.stream := task.inbound.stream.dropTx }, .done)
  | .running l task, .app (.arrive _) => .ok (.running l task, .skip)
  | .running l task, .app .endInbound => .ok (.running l task, .skip)
  | .running l task, .app o => app f l task o
  | .running l task, .conn _ (.receive _) => .ok (.running l task, .skip)
  | .running l task, .conn h o => conn l task h o
  | .running l task, .task order pollReady pollFlush =>
    pollTask g t l task order pollReady pollFlush
  | s, _ => .ok (s, .skip)

end Host

/-! ### Many hosts -/

/-- The hosts, by the addresses of their Nym clients. -/
abbrev Stack (P R : Type) := R → Host P R

namespace Stack

def new : Stack P R := fun _ => Host.new

/-- An operation at the host with the address `a`, or the mixnet carries the frame at the place `i`
of what this host has written. -/
inductive Op (P R : Type) where
  | host (a : R) (o : Host.Op P R)
  | carry (a : R) (i : ℕ)

variable [DecidableEq R]

/-- The frame is no message, and no address but that of the host. -/
def harmless (g : Gateway R) (a : R) : Except Unit WsMessage → Bool
  | .error _ => true
  | .ok msg =>
    (match parseNymMessage g.toNymClient msg with
      | .ok (.received _) => false
      | .ok (.error _) => true
      | .ok .other => true
      | .error _ => true) &&
    match selfAddressIn g.toNymSetup msg with
    | some recipient => recipient = a
    | none => true

/-- The operation at the host with the address `a`. -/
def stepHost (g : Gateway R) (t : ThirdParty P R) (f : AddressFormat R) (peerIds : R → P)
    (s : Stack P R) (a : R) (o : Host.Op P R) : Except Panic (Stack P R × Host.Answer P) :=
  match (s a).step g t f (peerIds a) o with
  | .error p => .error p
  | .ok (h, r) => .ok (Function.update s a h, r)

/-- One operation. -/
def step (g : Gateway R) (t : ThirdParty P R) (f : AddressFormat R) (peerIds : R → P)
    (s : Stack P R) : Op P R → Except Panic (Stack P R × Host.Answer P)
  | .host a (.frame res) =>
    if harmless g a res then s.stepHost g t f peerIds a (.frame res) else .ok (s, .skip)
  | .host a o => s.stepHost g t f peerIds a o
  | .carry a i =>
    match (s a).sink[i]? with
    | none => .ok (s, .skip)
    | some frame =>
      match g.request frame with
      | none => .ok (s, .skip)
      | some (recipient, message) =>
        s.stepHost g t f peerIds recipient (.frame (.ok (g.response message)))

end Stack

end Libp2pNym
