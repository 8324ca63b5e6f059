import Libp2pNym.Error

/-!
# The messages of the crate

The types of `message.rs`.  `PeerId` and `Recipient` belong to other crates and stay type
parameters `P` and `R`.
-/

namespace Libp2pNym

abbrev Bytes := List UInt8

variable {P R : Type}

/-- A `ConnectionMessage` is exchanged to open a new connection. -/
structure ConnectionMessage (P R : Type) where
  peerId : P
  id : ConnectionId
  /-- The sender's Nym address; only required if this is a `ConnectionRequest`. -/
  recipient : Option R
  deriving DecidableEq

inductive SubstreamMessageType where
  | openRequest
  | openResponse
  | close
  | data (message : Bytes)
  deriving DecidableEq, Repr

/-- The type byte on the wire. -/
def SubstreamMessageType.toU8 : SubstreamMessageType → UInt8
  | .openRequest => 0
  | .openResponse => 1
  | .close => 2
  | .data _ => 3

/-- A message sent over a substream. -/
structure SubstreamMessage where
  substreamId : SubstreamId
  messageType : SubstreamMessageType
  deriving DecidableEq, Repr

namespace SubstreamMessage

def newWithData (substreamId : SubstreamId) (message : Bytes) : SubstreamMessage where
  substreamId := substreamId
  messageType := .data message

def newClose (substreamId : SubstreamId) : SubstreamMessage where
  substreamId := substreamId
  messageType := .close

end SubstreamMessage

/-- A `TransportMessage` is sent over a connection after establishment.  Its `nonce` increments by
1 for every one sent over a connection, and the first has nonce 1.  The crate compares two of them
by the nonce alone; that order is the key of the queue, and equality here is structural. -/
structure TransportMessage where
  nonce : UInt64
  message : SubstreamMessage
  id : ConnectionId
  deriving DecidableEq, Repr

inductive Message (P R : Type) where
  | connectionRequest (msg : ConnectionMessage P R)
  | connectionResponse (msg : ConnectionMessage P R)
  | transportMessage (msg : TransportMessage)
  deriving DecidableEq

/-- The transport message inside, if it is one. -/
def Message.transport? : Message P R → Option TransportMessage
  | .transportMessage msg => some msg
  | .connectionRequest _ => none
  | .connectionResponse _ => none

/-- An inbound mixnet message. -/
structure InboundMessage (P R : Type) where
  message : Message P R
  deriving DecidableEq

/-- An outbound mixnet message. -/
structure OutboundMessage (P R : Type) where
  message : Message P R
  recipient : R
  deriving DecidableEq

end Libp2pNym
