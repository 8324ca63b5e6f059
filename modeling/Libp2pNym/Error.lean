import Mathlib.Tactic.Common

/-!
# Errors and panics

`Error` has the variants of the crate's error type that the modelled functions return.  A panic is
not an error: it unwinds the task that called the function, so it is kept apart as `Panic`, with
one constructor for each place of the crate that can panic.
-/

namespace Libp2pNym

/-- The places where the crate panics. -/
inductive Panic where
  /-- A slice or an index beyond the end of the bytes. -/
  | sliceIndex
  /-- `copy_from_slice` between slices of different lengths. -/
  | copyFromSlice
  /-- `MessageQueue::set_connection_message_received` on a queue that has seen one. -/
  | connectionMessageReceivedTwice
  /-- `expect("must have a substream channel for substream")` in `Connection::poll`. -/
  | noSubstreamChannel
  /-- `Option::unwrap` on `None`. -/
  | unwrapNone
  /-- `Result::unwrap` on `Err`. -/
  | unwrapErr
  deriving DecidableEq, Repr

/-- What `SendError` of a channel prints. -/
def sendErrorText : String := "channel closed"

/-- A 32-byte array, as `[u8; 32]`. -/
structure Bytes32 where
  bytes : List UInt8
  length_eq : bytes.length = 32
  deriving DecidableEq, Repr

/-- A unique, randomly generated per-connection id. -/
structure ConnectionId where
  raw : Bytes32
  deriving DecidableEq, Repr

/-- A unique, randomly generated per-substream id. -/
structure SubstreamId where
  raw : Bytes32
  deriving DecidableEq, Repr

/-- The errors the modelled functions return. -/
inductive Error where
  | websocketStreamError
  | websocketStreamReadNone
  | nymMessageError (text : String)
  | unexpectedNymMessage
  | unknownNymMessage
  | invalidMessageBytes
  | noConnectionForResponse
  | connectionAlreadyEstablished
  | noneRecipientInConnectionRequest
  | connectionIDExists
  | noConnectionForTransportMessage
  | connectionMessageBytesTooShort
  | connectionMessageBytesNoRecipient
  | connectionMessageBytesNoPeerId
  | invalidPeerIdBytes
  | invalidRecipientBytes
  | invalidRecipientPrefixByte
  | transportMessageBytesTooShort
  | invalidNonce
  | invalidSubstreamMessageBytes
  | invalidSubstreamMessageType
  | substreamIdExists (id : SubstreamId)
  | substreamIdDoesNotExist (id : SubstreamId)
  | outboundSendError (text : String)
  | inboundSendError (text : String)
  | connectionSendError
  | oneshotRecvError
  | recvError
  | dialTimeout
  deriving DecidableEq, Repr

/-- How a pure function of the crate can leave early: by a panic, or by returning an error. -/
inductive Fault where
  | panic (p : Panic)
  | err (e : Error)
  deriving DecidableEq, Repr

/-- The result of a pure function of the crate that may return an error or panic. -/
abbrev Result (α : Type) := Except Fault α

end Libp2pNym
