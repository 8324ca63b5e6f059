import Libp2pNym.Message.Basic
import Libp2pNym.Lib.BigEndian

/-!
# The wire format

`to_bytes` and `try_from_bytes` of `message.rs`.  Slicing and indexing panic out of range, as in
Rust, so a decoder that forgets a length check shows up as `Fault.panic` and not as an error.

The encodings of `PeerId` and `Recipient` are the business of other crates; `ThirdParty` collects
the functions the codec calls.
-/

namespace Libp2pNym

open BigEndian

variable {P R : Type}

/-- What the codec uses of the crates that define `PeerId` and `Recipient`. -/
structure ThirdParty (P R : Type) where
  /-- `PeerId::to_bytes` -/
  peerIdToBytes : P → Bytes
  /-- `PeerId::from_bytes` -/
  peerIdFromBytes : Bytes → Option P
  /-- `Recipient::LEN` -/
  recipientLen : ℕ
  /-- `Recipient::to_bytes` -/
  recipientToBytes : R → Bytes
  /-- `Recipient::try_from_bytes`, on an array of length `LEN` -/
  recipientTryFromBytes : Bytes → Option R

/-- The encodings of the other crates round trip, a recipient takes `LEN` bytes and a peer id at
least one. -/
structure ThirdParty.RoundTrips (t : ThirdParty P R) : Prop where
  recipient_length : ∀ r, (t.recipientToBytes r).length = t.recipientLen
  recipient_inv : ∀ r, t.recipientTryFromBytes (t.recipientToBytes r) = some r
  peerId_inv : ∀ p, t.peerIdFromBytes (t.peerIdToBytes p) = some p
  peerId_ne_nil : ∀ p, t.peerIdToBytes p ≠ []

def connectionIdLength : ℕ := 32

def substreamIdLength : ℕ := 32

/-- Length of a `u64`. -/
def nonceBytesLen : ℕ := 8

def minConnectionMessageLen : ℕ := connectionIdLength + nonceBytesLen

/-! ### Slices -/

/-- `&bytes[lo..hi]` -/
def slice (bytes : Bytes) (lo hi : ℕ) : Result Bytes :=
  if lo ≤ hi ∧ hi ≤ bytes.length then .ok ((bytes.drop lo).take (hi - lo))
  else .error (.panic .sliceIndex)

/-- `&bytes[lo..]` -/
def sliceFrom (bytes : Bytes) (lo : ℕ) : Result Bytes :=
  if lo ≤ bytes.length then .ok (bytes.drop lo) else .error (.panic .sliceIndex)

/-- `bytes[i]` -/
def index (bytes : Bytes) (i : ℕ) : Result UInt8 :=
  match bytes[i]? with
  | some b => .ok b
  | none => .error (.panic .sliceIndex)

/-- `let mut id = [0u8; 32]; id[..].copy_from_slice(bytes)` -/
def Bytes32.copyFromSlice (bytes : Bytes) : Result Bytes32 :=
  if h : bytes.length = 32 then .ok ⟨bytes, h⟩ else .error (.panic .copyFromSlice)

def ConnectionId.fromBytes (bytes : Bytes) : Result ConnectionId := do
  let id ← Bytes32.copyFromSlice (← slice bytes 0 connectionIdLength)
  return ⟨id⟩

def SubstreamId.fromBytes (bytes : Bytes) : Result SubstreamId := do
  let id ← Bytes32.copyFromSlice (← slice bytes 0 substreamIdLength)
  return ⟨id⟩

/-- `map_err(f)?` on an optional result of another crate. -/
def orErr {α : Type} (e : Error) : Option α → Result α
  | some a => .ok a
  | none => .error (.err e)

/-! ### Encoding -/

def ConnectionMessage.toBytes (t : ThirdParty P R) (msg : ConnectionMessage P R) : Bytes :=
  msg.id.raw.bytes
    ++ (match msg.recipient with
        | some recipient => [1] ++ t.recipientToBytes recipient
        | none => [0])
    ++ t.peerIdToBytes msg.peerId

def SubstreamMessage.toBytes (msg : SubstreamMessage) : Bytes :=
  msg.substreamId.raw.bytes ++ [msg.messageType.toU8]
    ++ (match msg.messageType with
        | .data message => message
        | _ => [])

def TransportMessage.toBytes (msg : TransportMessage) : Bytes :=
  beBytes nonceBytesLen msg.nonce.toNat ++ msg.id.raw.bytes ++ msg.message.toBytes

def Message.toBytes (t : ThirdParty P R) : Message P R → Bytes
  | .connectionRequest msg => [0] ++ msg.toBytes t
  | .connectionResponse msg => [1] ++ msg.toBytes t
  | .transportMessage msg => [2] ++ msg.toBytes

/-! ### Decoding -/

def ConnectionMessage.tryFromBytes (t : ThirdParty P R) (bytes : Bytes) :
    Result (ConnectionMessage P R) := do
  if bytes.length < connectionIdLength + 1 then
    throw (.err .connectionMessageBytesTooShort)
  let id ← ConnectionId.fromBytes (← slice bytes 0 connectionIdLength)
  let recipient ← (do
    match ← index bytes connectionIdLength with
    | 0 => return none
    | 1 =>
      if bytes.length < connectionIdLength + 1 + t.recipientLen then
        throw (.err .connectionMessageBytesNoRecipient)
      let recipientBytes ←
        slice bytes (connectionIdLength + 1) (connectionIdLength + 1 + t.recipientLen)
      let recipient ← orErr .invalidRecipientBytes (t.recipientTryFromBytes recipientBytes)
      return some recipient
    | _ => throw (.err .invalidRecipientPrefixByte) : Result (Option R))
  let peerId ← (do
    match recipient with
    | some _ =>
      if bytes.length < connectionIdLength + t.recipientLen + 2 then
        throw (.err .connectionMessageBytesNoPeerId)
      orErr .invalidPeerIdBytes
        (t.peerIdFromBytes (← sliceFrom bytes (connectionIdLength + 1 + t.recipientLen)))
    | none =>
      if bytes.length < connectionIdLength + 2 then
        throw (.err .connectionMessageBytesNoPeerId)
      orErr .invalidPeerIdBytes
        (t.peerIdFromBytes (← sliceFrom bytes (connectionIdLength + 1))) : Result P)
  return { peerId := peerId, recipient := recipient, id := id }

def SubstreamMessage.tryFromBytes (bytes : Bytes) : Result SubstreamMessage := do
  if bytes.length < substreamIdLength + 1 then
    throw (.err .invalidSubstreamMessageBytes)
  let substreamId ← SubstreamId.fromBytes (← slice bytes 0 substreamIdLength)
  let messageType ← (do
    match ← index bytes substreamIdLength with
    | 0 => return .openRequest
    | 1 => return .openResponse
    | 2 => return .close
    | 3 =>
      if bytes.length < substreamIdLength + 2 then
        throw (.err .invalidSubstreamMessageBytes)
      return .data (← sliceFrom bytes (substreamIdLength + 1))
    | _ => throw (.err .invalidSubstreamMessageType) : Result SubstreamMessageType)
  return { substreamId := substreamId, messageType := messageType }

def TransportMessage.tryFromBytes (bytes : Bytes) : Result TransportMessage := do
  if bytes.length < minConnectionMessageLen + 1 then
    throw (.err .transportMessageBytesTooShort)
  let nonceBytes ← slice bytes 0 nonceBytesLen
  -- `try_into` to `[u8; 8]`, whose failure is `InvalidNonce`
  if nonceBytes.length ≠ nonceBytesLen then
    throw (.err .invalidNonce)
  let id ← ConnectionId.fromBytes (← slice bytes nonceBytesLen minConnectionMessageLen)
  let message ← SubstreamMessage.tryFromBytes (← sliceFrom bytes minConnectionMessageLen)
  return { nonce := UInt64.ofNat (ofBeBytes nonceBytes), message := message, id := id }

def Message.tryFromBytes (t : ThirdParty P R) (bytes : Bytes) : Result (Message P R) := do
  if bytes.length < 2 then
    throw (.err .invalidMessageBytes)
  match ← index bytes 0 with
  | 0 => return .connectionRequest (← ConnectionMessage.tryFromBytes t (← sliceFrom bytes 1))
  | 1 => return .connectionResponse (← ConnectionMessage.tryFromBytes t (← sliceFrom bytes 1))
  | 2 => return .transportMessage (← TransportMessage.tryFromBytes (← sliceFrom bytes 1))
  | _ => throw (.err .invalidMessageBytes)

def parseMessageData (t : ThirdParty P R) (data : Bytes) : Result (InboundMessage P R) := do
  if data.length < 2 then
    throw (.err .invalidMessageBytes)
  let msg ← Message.tryFromBytes t data
  return ⟨msg⟩

end Libp2pNym
