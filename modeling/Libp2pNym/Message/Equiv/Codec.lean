import Libp2pNym.Message.Codec

/-!
# Decoding undoes encoding

`parseMessageData_toBytes_iff`: for every message `m`, `parse_message_data(m.to_bytes())` is `m`
again iff `m` does not carry a `Data` message with an empty payload.  The encoder of such a message
writes the substream id and the type byte and nothing after them, while the decoder asks a `Data`
message for at least one byte more.

Each level of the format has its own lemma (`SubstreamMessage.tryFromBytes_toBytes`,
`TransportMessage.tryFromBytes_toBytes`, `ConnectionMessage.tryFromBytes_toBytes`); they rest on
what slicing does to an append.
-/

namespace Libp2pNym

open BigEndian

variable {P R : Type}

/-! ### Slices of an append -/

theorem slice_append_left {a b : Bytes} {n : ℕ} (h : a.length = n) :
    slice (a ++ b) 0 n = .ok a := by
  subst h
  simp [slice]

theorem slice_append_middle {a b c : Bytes} {n m : ℕ} (ha : a.length = n)
    (hb : n + b.length = m) : slice (a ++ (b ++ c)) n m = .ok b := by
  subst ha hb
  simp [slice]

theorem sliceFrom_append {a b : Bytes} {n : ℕ} (h : a.length = n) :
    sliceFrom (a ++ b) n = .ok b := by
  subst h
  simp [sliceFrom]

theorem index_append {a b : Bytes} {x : UInt8} {n : ℕ} (h : a.length = n) :
    index (a ++ (x :: b)) n = .ok x := by
  subst h
  simp [index]

theorem ConnectionId.fromBytes_bytes (id : ConnectionId) :
    ConnectionId.fromBytes id.raw.bytes = .ok id := by
  have h := id.raw.length_eq
  have hs : slice id.raw.bytes 0 connectionIdLength = .ok id.raw.bytes := by
    have := slice_append_left (b := []) h
    rwa [List.append_nil] at this
  simp only [ConnectionId.fromBytes, hs, bind, Except.bind, Bytes32.copyFromSlice, h, ↓reduceDIte,
    pure, Except.pure]

theorem SubstreamId.fromBytes_bytes (id : SubstreamId) :
    SubstreamId.fromBytes id.raw.bytes = .ok id := by
  have h := id.raw.length_eq
  have hs : slice id.raw.bytes 0 substreamIdLength = .ok id.raw.bytes := by
    have := slice_append_left (b := []) h
    rwa [List.append_nil] at this
  simp only [SubstreamId.fromBytes, hs, bind, Except.bind, Bytes32.copyFromSlice, h, ↓reduceDIte,
    pure, Except.pure]

/-! ### The levels of the format -/

/-- The meaning of the type byte and what follows it. -/
def SubstreamMessageType.ofTail (b : UInt8) (rest : Bytes) : Result SubstreamMessageType :=
  if b = 0 then .ok .openRequest
  else if b = 1 then .ok .openResponse
  else if b = 2 then .ok .close
  else if b = 3 then
    if rest = [] then .error (.err .invalidSubstreamMessageBytes) else .ok (.data rest)
  else .error (.err .invalidSubstreamMessageType)

/-- The decoder reads the id, the type byte and the rest off any long enough input. -/
theorem SubstreamMessage.tryFromBytes_append (sid : SubstreamId) (b : UInt8) (rest : Bytes) :
    SubstreamMessage.tryFromBytes (sid.raw.bytes ++ b :: rest) =
      (SubstreamMessageType.ofTail b rest).map fun ty => ⟨sid, ty⟩ := by
  have hid := sid.raw.length_eq
  have hlen : (sid.raw.bytes ++ b :: rest).length = 33 + rest.length := by
    rw [List.length_append, hid, List.length_cons]
    omega
  have hlong : ¬ (sid.raw.bytes ++ b :: rest).length < substreamIdLength + 1 := by
    rw [hlen, substreamIdLength]
    omega
  have hshort : (sid.raw.bytes ++ b :: rest).length < substreamIdLength + 2 ↔ rest = [] := by
    rw [hlen, substreamIdLength, ← List.length_eq_zero_iff]
    omega
  have hrest : sliceFrom (sid.raw.bytes ++ b :: rest) (substreamIdLength + 1) = .ok rest := by
    rw [List.append_cons]
    exact sliceFrom_append (by rw [List.length_append, hid]; rfl)
  have hslice : slice (sid.raw.bytes ++ b :: rest) 0 substreamIdLength = .ok sid.raw.bytes :=
    slice_append_left hid
  have hindex : index (sid.raw.bytes ++ b :: rest) substreamIdLength = .ok b := index_append hid
  unfold SubstreamMessage.tryFromBytes SubstreamMessageType.ofTail
  simp only [bind, Except.bind, throw, throwThe, MonadExceptOf.throw, pure, Except.pure, hlong,
    ↓reduceIte, hslice, SubstreamId.fromBytes_bytes, hindex, hshort, hrest]
  by_cases h0 : b = 0
  · subst h0; rfl
  by_cases h1 : b = 1
  · subst h1; rfl
  by_cases h2 : b = 2
  · subst h2; rfl
  by_cases h3 : b = 3
  · subst h3
    by_cases hr : rest = []
    · simp [hr, Except.map]
    · simp [hr, Except.map]
  · simp [h0, h1, h2, h3, Except.map]

/-- The payload of a `Data` message is empty. -/
def SubstreamMessage.EmptyData (msg : SubstreamMessage) : Prop := msg.messageType = .data []

instance (msg : SubstreamMessage) : Decidable msg.EmptyData :=
  inferInstanceAs (Decidable (msg.messageType = .data []))

/-- The payload that follows the type byte. -/
def SubstreamMessage.tail (msg : SubstreamMessage) : Bytes :=
  match msg.messageType with
  | .data message => message
  | _ => []

theorem SubstreamMessage.toBytes_eq (msg : SubstreamMessage) :
    msg.toBytes = msg.substreamId.raw.bytes ++ msg.messageType.toU8 :: msg.tail := by
  obtain ⟨sid, ty⟩ := msg
  cases ty <;> simp [SubstreamMessage.toBytes, SubstreamMessage.tail]

theorem SubstreamMessage.tryFromBytes_toBytes (msg : SubstreamMessage) :
    SubstreamMessage.tryFromBytes msg.toBytes =
      if msg.EmptyData then .error (.err .invalidSubstreamMessageBytes) else .ok msg := by
  obtain ⟨sid, ty⟩ := msg
  rw [SubstreamMessage.toBytes_eq, SubstreamMessage.tryFromBytes_append]
  cases ty with
  | openRequest => rfl
  | openResponse => rfl
  | close => rfl
  | data message =>
    by_cases hm : message = []
    · subst hm
      rfl
    · simp [SubstreamMessageType.ofTail, SubstreamMessageType.toU8, SubstreamMessage.tail,
        SubstreamMessage.EmptyData, hm, Except.map]

theorem ofNat_ofBeBytes_toNat (n : UInt64) :
    UInt64.ofNat (ofBeBytes (beBytes nonceBytesLen n.toNat)) = n := by
  have hlt : n.toNat < 256 ^ nonceBytesLen := n.toNat_lt
  rw [ofBeBytes_beBytes, Nat.mod_eq_of_lt hlt, UInt64.ofNat_toNat]

/-- The decoder reads the nonce and the id, and leaves the rest to the substream message. -/
theorem TransportMessage.tryFromBytes_append (nonce : UInt64) (id : ConnectionId) (rest : Bytes)
    (hrest : rest ≠ []) :
    TransportMessage.tryFromBytes (beBytes nonceBytesLen nonce.toNat ++ id.raw.bytes ++ rest) =
      (SubstreamMessage.tryFromBytes rest).map fun m => ⟨nonce, m, id⟩ := by
  have hid := id.raw.length_eq
  have hpos := List.length_pos_iff.mpr hrest
  have hn := length_beBytes nonceBytesLen nonce.toNat
  set nb := beBytes nonceBytesLen nonce.toNat with hnb
  have hnonce : UInt64.ofNat (ofBeBytes nb) = nonce := ofNat_ofBeBytes_toNat nonce
  have hlong : ¬ (nb ++ id.raw.bytes ++ rest).length < minConnectionMessageLen + 1 := by
    simp only [List.length_append, hn, hid, minConnectionMessageLen, connectionIdLength,
      nonceBytesLen]
    omega
  have h1 : slice (nb ++ id.raw.bytes ++ rest) 0 nonceBytesLen = .ok nb := by
    rw [List.append_assoc]
    exact slice_append_left hn
  have h2 : slice (nb ++ id.raw.bytes ++ rest) nonceBytesLen minConnectionMessageLen
      = .ok id.raw.bytes := by
    rw [List.append_assoc]
    exact slice_append_middle hn (by rw [hid]; rfl)
  have h3 : sliceFrom (nb ++ id.raw.bytes ++ rest) minConnectionMessageLen = .ok rest :=
    sliceFrom_append (by rw [List.length_append, hn, hid]; rfl)
  unfold TransportMessage.tryFromBytes
  simp only [bind, Except.bind, pure, Except.pure, hlong,
    ↓reduceIte, h1, hn, ne_eq, not_true_eq_false, h2, ConnectionId.fromBytes_bytes, h3, hnonce]
  cases SubstreamMessage.tryFromBytes rest with
  | error e => rfl
  | ok m => rfl

theorem TransportMessage.tryFromBytes_toBytes (msg : TransportMessage) :
    TransportMessage.tryFromBytes msg.toBytes =
      if msg.message.EmptyData then .error (.err .invalidSubstreamMessageBytes) else .ok msg := by
  obtain ⟨nonce, m, id⟩ := msg
  have hne : m.toBytes ≠ [] := by
    rw [SubstreamMessage.toBytes_eq]
    simp
  rw [TransportMessage.toBytes, TransportMessage.tryFromBytes_append nonce id _ hne,
    SubstreamMessage.tryFromBytes_toBytes]
  split <;> rfl

/-- What follows the id of a connection message: the prefix byte, a recipient if it is 1, and the
peer id. -/
def ConnectionMessage.ofTail (t : ThirdParty P R) (id : ConnectionId) (b : UInt8) (rest : Bytes) :
    Result (ConnectionMessage P R) :=
  if b = 0 then
    if rest = [] then .error (.err .connectionMessageBytesNoPeerId)
    else (orErr .invalidPeerIdBytes (t.peerIdFromBytes rest)).map fun p => ⟨p, id, none⟩
  else if b = 1 then
    if rest.length < t.recipientLen then .error (.err .connectionMessageBytesNoRecipient)
    else
      match t.recipientTryFromBytes (rest.take t.recipientLen) with
      | none => .error (.err .invalidRecipientBytes)
      | some r =>
        if rest.length < t.recipientLen + 1 then .error (.err .connectionMessageBytesNoPeerId)
        else (orErr .invalidPeerIdBytes (t.peerIdFromBytes (rest.drop t.recipientLen))).map
          fun p => ⟨p, id, some r⟩
  else .error (.err .invalidRecipientPrefixByte)

/-- The decoder of a connection message reads the id and then its tail. -/
theorem ConnectionMessage.tryFromBytes_append (t : ThirdParty P R) (id : ConnectionId) (b : UInt8)
    (rest : Bytes) : ConnectionMessage.tryFromBytes t (id.raw.bytes ++ b :: rest)
      = ConnectionMessage.ofTail t id b rest := by
  have hid := id.raw.length_eq
  have hlen : (id.raw.bytes ++ b :: rest).length = 33 + rest.length := by
    rw [List.length_append, hid, List.length_cons]
    omega
  have hlong : ¬ (id.raw.bytes ++ b :: rest).length < connectionIdLength + 1 := by
    rw [hlen, connectionIdLength]
    omega
  have hslice : slice (id.raw.bytes ++ b :: rest) 0 connectionIdLength = .ok id.raw.bytes :=
    slice_append_left hid
  have hindex : index (id.raw.bytes ++ b :: rest) connectionIdLength = .ok b := index_append hid
  have hone : (id.raw.bytes ++ [b]).length = connectionIdLength + 1 := by
    rw [List.length_append, hid]
    rfl
  have hrest : sliceFrom (id.raw.bytes ++ b :: rest) (connectionIdLength + 1) = .ok rest := by
    rw [List.append_cons]
    exact sliceFrom_append hone
  have hshort : (id.raw.bytes ++ b :: rest).length < connectionIdLength + 2 ↔ rest = [] := by
    rw [hlen, connectionIdLength, ← List.length_eq_zero_iff]
    omega
  have hrecipient : (id.raw.bytes ++ b :: rest).length < connectionIdLength + 1 + t.recipientLen ↔
      rest.length < t.recipientLen := by
    rw [hlen, connectionIdLength]
    omega
  have hpeer : (id.raw.bytes ++ b :: rest).length < connectionIdLength + t.recipientLen + 2 ↔
      rest.length < t.recipientLen + 1 := by
    rw [hlen, connectionIdLength]
    omega
  unfold ConnectionMessage.tryFromBytes ConnectionMessage.ofTail
  simp only [bind, Except.bind, pure, Except.pure, throw, throwThe, MonadExceptOf.throw, hlong,
    ↓reduceIte, hslice, ConnectionId.fromBytes_bytes, hindex]
  by_cases h0 : b = 0
  · subst h0
    simp only [↓reduceIte, hshort, hrest]
    by_cases hr : rest = []
    · simp only [hr, ↓reduceIte]
    · simp only [hr, ↓reduceIte]
      cases t.peerIdFromBytes rest <;> rfl
  by_cases h1 : b = 1
  · subst h1
    simp only [h0, ↓reduceIte, hrecipient]
    by_cases hr : rest.length < t.recipientLen
    · simp only [hr, ↓reduceIte]
    · -- the recipient and the peer id split the rest
      have hle : t.recipientLen ≤ rest.length := by omega
      have htake : (rest.take t.recipientLen).length = t.recipientLen := by
        rw [List.length_take]
        omega
      have hrec : slice (id.raw.bytes ++ 1 :: rest) (connectionIdLength + 1)
          (connectionIdLength + 1 + t.recipientLen) = .ok (rest.take t.recipientLen) := by
        rw [List.append_cons]
        nth_rewrite 1 [← List.take_append_drop t.recipientLen rest]
        exact slice_append_middle hone (by rw [htake])
      have hpb : sliceFrom (id.raw.bytes ++ 1 :: rest) (connectionIdLength + 1 + t.recipientLen)
          = .ok (rest.drop t.recipientLen) := by
        rw [List.append_cons]
        nth_rewrite 1 [← List.take_append_drop t.recipientLen rest]
        rw [← List.append_assoc]
        exact sliceFrom_append (by rw [List.length_append, hone, htake])
      simp only [hr, ↓reduceIte, hrec]
      cases t.recipientTryFromBytes (rest.take t.recipientLen) with
      | none => rfl
      | some r =>
        simp only [orErr, hpeer, hpb]
        by_cases hp : rest.length < t.recipientLen + 1
        · simp only [hp, ↓reduceIte]
        · simp only [hp, ↓reduceIte]
          cases t.peerIdFromBytes (rest.drop t.recipientLen) <;> rfl
  · simp only [h0, h1, ↓reduceIte]

/-- The bytes after the id of a connection message: the prefix byte, and what follows it. -/
theorem ConnectionMessage.toBytes_eq (t : ThirdParty P R) (peerId : P) (id : ConnectionId)
    (recipient : Option R) : ConnectionMessage.toBytes t ⟨peerId, id, recipient⟩
      = match recipient with
        | none => id.raw.bytes ++ 0 :: t.peerIdToBytes peerId
        | some r => id.raw.bytes ++ 1 :: (t.recipientToBytes r ++ t.peerIdToBytes peerId) := by
  cases recipient <;> simp [ConnectionMessage.toBytes]

/-- A connection message decodes to itself, whether or not it names a recipient. -/
theorem ConnectionMessage.tryFromBytes_toBytes {t : ThirdParty P R} (ht : t.RoundTrips)
    (msg : ConnectionMessage P R) :
    ConnectionMessage.tryFromBytes t (msg.toBytes t) = .ok msg := by
  obtain ⟨peerId, id, recipient⟩ := msg
  have hp := ht.peerId_inv peerId
  have hpos := List.length_pos_iff.mpr (ht.peerId_ne_nil peerId)
  rw [ConnectionMessage.toBytes_eq]
  cases recipient with
  | none =>
    dsimp only
    rw [ConnectionMessage.tryFromBytes_append, ConnectionMessage.ofTail, if_pos rfl,
      if_neg (ht.peerId_ne_nil peerId), hp]
    rfl
  | some r =>
    have hrl := ht.recipient_length r
    have hlen : (t.recipientToBytes r ++ t.peerIdToBytes peerId).length
        = t.recipientLen + (t.peerIdToBytes peerId).length := by
      rw [List.length_append, hrl]
    dsimp only
    rw [ConnectionMessage.tryFromBytes_append, ConnectionMessage.ofTail, if_neg (by decide),
      if_pos rfl,
      if_neg (by omega), List.take_left' hrl, List.drop_left' hrl, ht.recipient_inv, hp]
    dsimp only
    rw [if_neg (by omega)]
    rfl

/-! ### The whole format -/

/-- A `TransportMessage` that carries a `Data` message with an empty payload. -/
def Message.EmptyData : Message P R → Prop
  | .transportMessage msg => msg.message.EmptyData
  | .connectionRequest _ => False
  | .connectionResponse _ => False

/-- The first byte says which decoder takes the rest. -/
theorem parseMessageData_cons (t : ThirdParty P R) (b : UInt8) {rest : Bytes} (hrest : rest ≠ []) :
    parseMessageData t (b :: rest) =
      if b = 0 then (ConnectionMessage.tryFromBytes t rest).map fun msg => ⟨.connectionRequest msg⟩
      else if b = 1 then
        (ConnectionMessage.tryFromBytes t rest).map fun msg => ⟨.connectionResponse msg⟩
      else if b = 2 then
        (TransportMessage.tryFromBytes rest).map fun msg => ⟨.transportMessage msg⟩
      else .error (.err .invalidMessageBytes) := by
  have hlen : ¬ (b :: rest).length < 2 := by
    have := List.length_pos_iff.mpr hrest
    rw [List.length_cons]
    omega
  have hindex : index (b :: rest) 0 = .ok b := rfl
  have hslice : sliceFrom (b :: rest) 1 = .ok rest := by simp [sliceFrom]
  unfold parseMessageData Message.tryFromBytes
  simp only [bind, Except.bind, pure, Except.pure, throw, throwThe, MonadExceptOf.throw, hlen,
    ↓reduceIte, hindex, hslice]
  by_cases h0 : b = 0
  · subst h0
    cases ConnectionMessage.tryFromBytes t rest <;> rfl
  by_cases h1 : b = 1
  · subst h1
    cases ConnectionMessage.tryFromBytes t rest <;> rfl
  by_cases h2 : b = 2
  · subst h2
    cases TransportMessage.tryFromBytes rest <;> rfl
  · simp only [h0, h1, h2, ↓reduceIte]

/-- What is decoded from an encoding is the message itself, or the decoder refuses it. -/
theorem parseMessageData_toBytes {t : ThirdParty P R} (ht : t.RoundTrips) (m : Message P R) :
    (¬ m.EmptyData ∧ parseMessageData t (m.toBytes t) = .ok ⟨m⟩) ∨
    (m.EmptyData ∧
      parseMessageData t (m.toBytes t) = .error (.err .invalidSubstreamMessageBytes)) := by
  have hconn : ∀ msg : ConnectionMessage P R, msg.toBytes t ≠ [] := by
    intro msg h
    have := congrArg List.length h
    simp [ConnectionMessage.toBytes, msg.id.raw.length_eq] at this
  cases m with
  | connectionRequest msg =>
    refine Or.inl ⟨id, (parseMessageData_cons t 0 (hconn msg)).trans ?_⟩
    rw [if_pos rfl, ConnectionMessage.tryFromBytes_toBytes ht]
    rfl
  | connectionResponse msg =>
    refine Or.inl ⟨id, (parseMessageData_cons t 1 (hconn msg)).trans ?_⟩
    rw [if_neg (by decide), if_pos rfl, ConnectionMessage.tryFromBytes_toBytes ht]
    rfl
  | transportMessage msg =>
    have hne : msg.toBytes ≠ [] := by
      intro h
      have := congrArg List.length h
      simp [TransportMessage.toBytes, msg.id.raw.length_eq] at this
    have hcons := parseMessageData_cons t 2 hne
    rw [if_neg (by decide), if_neg (by decide), if_pos rfl,
      TransportMessage.tryFromBytes_toBytes] at hcons
    by_cases he : msg.message.EmptyData
    · rw [if_pos he] at hcons
      exact Or.inr ⟨he, hcons⟩
    · rw [if_neg he] at hcons
      exact Or.inl ⟨he, hcons⟩

/-- **Decoding undoes encoding exactly off the empty `Data` messages.** -/
theorem parseMessageData_toBytes_iff {t : ThirdParty P R} (ht : t.RoundTrips) (m : Message P R) :
    parseMessageData t (m.toBytes t) = .ok ⟨m⟩ ↔ ¬ m.EmptyData := by
  rcases parseMessageData_toBytes ht m with ⟨hne, h⟩ | ⟨he, h⟩
  · exact ⟨fun _ => hne, fun _ => h⟩
  · rw [h]
    exact ⟨fun hc => (by cases hc), fun hn => absurd he hn⟩

/-! ### Peer ids and recipients that are their own bytes -/

abbrev RawPeerId := { b : Bytes // b ≠ [] }

abbrev RawRecipient := { b : Bytes // b.length = 96 }

/-- The other crates' encodings on values that are kept as their bytes; a recipient is a client
identity key, an encryption key and a gateway identity key of 32 bytes each. -/
def ThirdParty.raw : ThirdParty RawPeerId RawRecipient where
  peerIdToBytes p := p.val
  peerIdFromBytes b := if h : b ≠ [] then some ⟨b, h⟩ else none
  recipientLen := 96
  recipientToBytes r := r.val
  recipientTryFromBytes b := if h : b.length = 96 then some ⟨b, h⟩ else none

theorem ThirdParty.raw_roundTrips : ThirdParty.raw.RoundTrips where
  recipient_length r := r.property
  recipient_inv r := dif_pos r.property
  peerId_inv p := dif_pos p.property
  peerId_ne_nil p := p.property

/-- `[b; 32]` -/
def Bytes32.fill (b : UInt8) : Bytes32 where
  bytes := List.replicate 32 b
  length_eq := List.length_replicate

/-- The recipient whose 96 bytes are all `b`. -/
def RawRecipient.fill (b : UInt8) : RawRecipient := ⟨List.replicate 96 b, List.length_replicate⟩

/-- The peer id that wraps an Ed25519 public key of bytes `b`. -/
def RawPeerId.fill (b : UInt8) : RawPeerId :=
  ⟨[0, 36, 8, 1, 18, 32] ++ List.replicate 32 b, by simp⟩

/-- A connection request that names its sender, as `dial` builds it. -/
def sampleRequest : Message RawPeerId RawRecipient :=
  .connectionRequest
    { peerId := RawPeerId.fill 7, id := ⟨Bytes32.fill 1⟩, recipient := some (RawRecipient.fill 9) }

/-- What `poll_write` sends when it is called with an empty buffer. -/
def sampleEmptyData : Message RawPeerId RawRecipient :=
  .transportMessage
    { nonce := 2, message := .newWithData ⟨Bytes32.fill 2⟩ [], id := ⟨Bytes32.fill 1⟩ }

theorem parseMessageData_sampleRequest :
    parseMessageData .raw (sampleRequest.toBytes .raw) = .ok ⟨sampleRequest⟩ :=
  (parseMessageData_toBytes_iff ThirdParty.raw_roundTrips sampleRequest).mpr id

theorem parseMessageData_sampleEmptyData :
    parseMessageData .raw (sampleEmptyData.toBytes .raw)
        = .error (.err .invalidSubstreamMessageBytes) ∧
      ¬ ∀ m : Message RawPeerId RawRecipient, parseMessageData .raw (m.toBytes .raw) = .ok ⟨m⟩ := by
  have h : parseMessageData .raw (sampleEmptyData.toBytes .raw)
      = .error (.err .invalidSubstreamMessageBytes) := by decide
  refine ⟨h, fun hall => ?_⟩
  have := hall sampleEmptyData
  rw [h] at this
  cases this

end Libp2pNym
