import Libp2pNym.Message.Codec
import Libp2pNym.Transport.Basic

/-!
# Transports on a mixnet

Any number of transports, one for each Nym address, on a mixnet that carries what they send.  The
mixnet delivers any message that was put on the outbound channel of a transport or of one of its
connections, at any time, in any order and any number of times, or never: a message is named by the
transport and the channel it was sent on and by its place there.  On the way it is encoded with
`Message::to_bytes` and decoded with `parse_message_data`; what cannot be decoded is lost.
-/

namespace Libp2pNym

variable {P R : Type}

/-- The transports, by their Nym addresses. -/
abbrev Network (P R : Type) := R → Node P R

namespace Network

/-- A new transport at every address. -/
def new (peerIds : R → P) : Network P R := fun a => Node.new a (peerIds a) Chan.new

/-- An operation at the transport with the address `a`, or at its connection with the handle `h`, or
the delivery of the message at the place `i` on the channel of one of these. -/
inductive Op (P R : Type) where
  | node (a : R) (o : Node.Op P R)
  | conn (a : R) (h : ℕ) (o : Endpoint.Op)
  | deliver (a : R) (h : Option ℕ) (i : ℕ)

/-- What an operation answers; `lost` if the message could not be decoded. -/
inductive Answer (P : Type) where
  | skip
  | node (r : Node.Answer P)
  | conn (r : Endpoint.Answer)
  | lost (e : Error)

/-- What the transport, or its connection with the handle `h`, has sent. -/
def sentFrom (n : Node P R) : Option ℕ → List (OutboundMessage P R)
  | none => n.transport.outboundTx.log
  | some h =>
    match n.conns h with
    | none => []
    | some e => e.outbox.outboundTx.log

variable [DecidableEq R]

/-- The operation at the transport with the address `a`. -/
def stepNode (net : Network P R) (a : R) (o : Node.Op P R) :
    Except Panic (Network P R × Answer P) :=
  match (net a).step o with
  | .error p => .error p
  | .ok (n, r) => .ok (Function.update net a n, .node r)

/-- The operation at the connection with the handle `h` of the transport with the address `a`. -/
def stepConn (net : Network P R) (a : R) (h : ℕ) (o : Endpoint.Op) :
    Except Panic (Network P R × Answer P) :=
  match (net a).conns h with
  | none => .ok (net, .skip)
  | some e =>
    match e.step o with
    | .error p => .error p
    | .ok (e, r) =>
      .ok (Function.update net a { net a with conns := (net a).conns.insert h e }, .conn r)

/-- One operation; messages come only by delivery. -/
def step (t : ThirdParty P R) (net : Network P R) : Op P R → Except Panic (Network P R × Answer P)
  | .node _ (.inbound _) => .ok (net, .skip)
  | .node a o => net.stepNode a o
  | .conn _ _ (.receive _) => .ok (net, .skip)
  | .conn a h o => net.stepConn a h o
  | .deliver a h i =>
    match (sentFrom (net a) h)[i]? with
    | none => .ok (net, .skip)
    | some m =>
      match parseMessageData t (m.message.toBytes t) with
      | .error (.panic p) => .error p
      | .error (.err e) => .ok (net, .lost e)
      | .ok inbound => net.stepNode m.recipient (.inbound inbound.message)

/-- The connection ids that `ConnectionId::generate` has returned in a run. -/
def dialed (ops : List (Op P R)) : List ConnectionId :=
  ops.filterMap fun o =>
    match o with
    | .node _ (.dial _ id) => some id
    | _ => none

/-- The substream ids that `SubstreamId::generate` has returned in a run. -/
def generated (ops : List (Op P R)) : List SubstreamId :=
  ops.filterMap fun o =>
    match o with
    | .conn _ _ (.pollOutbound s) => some s
    | _ => none

end Network

end Libp2pNym
