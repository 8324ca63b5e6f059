import Libp2pNym.Message.Equiv.Codec

/-!
# What the decoder accepts

`parseMessageData_iff`: `parse_message_data` panics on no input, and it accepts a byte string as the
message `m` iff the bytes are `m.to_bytes()`, followed by anything at all where the type of the
message leaves the rest unread.  So no input stands for two messages.

At each level the decoder is followed over every byte string: a string that is too short is refused,
and any other one is an id (and a nonce) in front of the rest (`exists_id_append`).
-/

namespace Libp2pNym

open BigEndian

variable {P R : Type}

/-- The other crates decode nothing but what they encode. -/
structure ThirdParty.Canonical (t : ThirdParty P R) : Prop extends t.RoundTrips where
  recipient_only : ∀ b r, b.length = t.recipientLen → t.recipientTryFromBytes b = some r →
    b = t.recipientToBytes r
  peerId_only : ∀ b p, t.peerIdFromBytes b = some p → b = t.peerIdToBytes p

/-- The decoder refuses the input, or decodes it to a value with the property `Q`. -/
def Settles {α : Type} (r : Result α) (Q : α → Prop) : Prop :=
  (∃ e, r = .error (.err e)) ∨ ∃ a, r = .ok a ∧ Q a

/-! ### The levels of the format -/

/-- A string longer than an id starts with one. -/
theorem exists_id_append {bytes : Bytes} (h : 33 ≤ bytes.length) :
    ∃ (id : Bytes32) (b : UInt8) (rest : Bytes), bytes = id.bytes ++ b :: rest := by
  have hlen : (bytes.take 32).length = 32 := by
    rw [List.length_take]
    omega
  obtain ⟨b, rest, hdrop⟩ : ∃ b rest, bytes.drop 32 = b :: rest := by
    apply List.exists_cons_of_ne_nil
    intro hnil
    have := congrArg List.length hnil
    rw [List.length_drop, List.length_nil] at this
    omega
  refine ⟨⟨bytes.take 32, hlen⟩, b, rest, ?_⟩
  rw [← hdrop, List.take_append_drop]

/-- The decoder leaves what follows the message unread. -/
def SubstreamMessage.IgnoresTail (msg : SubstreamMessage) : Prop :=
  msg.messageType = .openRequest ∨ msg.messageType = .openResponse ∨ msg.messageType = .close

/-- The bytes are the message, and what follows it is empty or left unread. -/
def SubstreamMessage.Heads (msg : SubstreamMessage) (bytes : Bytes) : Prop :=
  ¬ msg.EmptyData ∧ ∃ tail, bytes = msg.toBytes ++ tail ∧ (tail ≠ [] → msg.IgnoresTail)

theorem SubstreamMessage.tryFromBytes_settles (bytes : Bytes) :
    Settles (SubstreamMessage.tryFromBytes bytes) fun msg => msg.Heads bytes := by
  by_cases hlen : bytes.length < substreamIdLength + 1
  · left
    unfold SubstreamMessage.tryFromBytes
    simp only [bind, Except.bind, throw, throwThe, MonadExceptOf.throw, hlen, ↓reduceIte]
    exact ⟨_, rfl⟩
  · have hlen' : 33 ≤ bytes.length := by
      rw [substreamIdLength] at hlen
      omega
    obtain ⟨id, b, rest, rfl⟩ := exists_id_append hlen'
    rw [SubstreamMessage.tryFromBytes_append ⟨id⟩]
    have hunread : ∀ (ty : SubstreamMessageType),
        (⟨⟨id⟩, ty⟩ : SubstreamMessage).IgnoresTail →
        (⟨⟨id⟩, ty⟩ : SubstreamMessage).Heads (id.bytes ++ ty.toU8 :: rest) := by
      intro ty hty
      rcases hty with rfl | rfl | rfl <;>
        exact ⟨SubstreamMessageType.noConfusion, rest, by simp [SubstreamMessage.toBytes],
          fun _ => by simp [SubstreamMessage.IgnoresTail]⟩
    unfold SubstreamMessageType.ofTail
    split
    · rename_i h0
      subst h0
      exact Or.inr ⟨_, rfl, hunread .openRequest (Or.inl rfl)⟩
    split
    · rename_i h1
      subst h1
      exact Or.inr ⟨_, rfl, hunread .openResponse (Or.inr (Or.inl rfl))⟩
    split
    · rename_i h2
      subst h2
      exact Or.inr ⟨_, rfl, hunread .close (Or.inr (Or.inr rfl))⟩
    split
    · rename_i h3
      subst h3
      split
      · exact Or.inl ⟨_, rfl⟩
      · rename_i hrest
        refine Or.inr ⟨_, rfl, fun he => hrest (SubstreamMessageType.data.inj he), [], ?_, ?_⟩
        · simp [SubstreamMessage.toBytes, SubstreamMessageType.toU8]
        · exact fun h => absurd rfl h
    · exact Or.inl ⟨_, rfl⟩

theorem SubstreamMessage.tryFromBytes_of_heads {msg : SubstreamMessage} {bytes : Bytes}
    (h : msg.Heads bytes) : SubstreamMessage.tryFromBytes bytes = .ok msg := by
  obtain ⟨hne, tail, rfl, htail⟩ := h
  by_cases h0 : tail = []
  · subst h0
    rw [List.append_nil, SubstreamMessage.tryFromBytes_toBytes, if_neg hne]
  · obtain ⟨sid, ty⟩ := msg
    have hunread : ∀ ty : SubstreamMessageType, SubstreamMessageType.ofTail ty.toU8 tail = .ok ty →
        SubstreamMessage.tryFromBytes (sid.raw.bytes ++ ty.toU8 :: tail) = .ok ⟨sid, ty⟩ := by
      intro ty hof
      rw [SubstreamMessage.tryFromBytes_append, hof]
      rfl
    rw [SubstreamMessage.toBytes_eq, List.append_assoc]
    rcases htail h0 with h | h | h
    · cases h
      exact hunread .openRequest rfl
    · cases h
      exact hunread .openResponse rfl
    · cases h
      exact hunread .close rfl

/-- The bytes are the transport message, and what follows it is empty or left unread. -/
def TransportMessage.Heads (msg : TransportMessage) (bytes : Bytes) : Prop :=
  ∃ rest, msg.message.Heads rest ∧
    bytes = beBytes nonceBytesLen msg.nonce.toNat ++ msg.id.raw.bytes ++ rest

theorem TransportMessage.tryFromBytes_settles (bytes : Bytes) :
    Settles (TransportMessage.tryFromBytes bytes) fun msg => msg.Heads bytes := by
  by_cases hlen : bytes.length < minConnectionMessageLen + 1
  · left
    unfold TransportMessage.tryFromBytes
    simp only [bind, Except.bind, throw, throwThe, MonadExceptOf.throw, hlen, ↓reduceIte]
    exact ⟨_, rfl⟩
  · -- the first eight bytes are the nonce they stand for
    have hlen' : 41 ≤ bytes.length := by
      rw [minConnectionMessageLen, connectionIdLength, nonceBytesLen] at hlen
      omega
    have htake : (bytes.take 8).length = 8 := by
      rw [List.length_take]
      omega
    have hdrop : 33 ≤ (bytes.drop 8).length := by
      rw [List.length_drop]
      omega
    obtain ⟨id, b, rest, hid⟩ := exists_id_append hdrop
    have hlt := ofBeBytes_lt (bytes.take 8)
    rw [htake] at hlt
    have hnonce : (UInt64.ofNat (ofBeBytes (bytes.take 8))).toNat = ofBeBytes (bytes.take 8) :=
      UInt64.toNat_ofNat_of_lt' hlt
    have hbe : beBytes nonceBytesLen (UInt64.ofNat (ofBeBytes (bytes.take 8))).toNat
        = bytes.take 8 := by
      have := beBytes_ofBeBytes (bytes.take 8)
      rw [htake] at this
      rw [hnonce]
      exact this
    have hbytes : bytes = beBytes nonceBytesLen (UInt64.ofNat (ofBeBytes (bytes.take 8))).toNat
        ++ (⟨id⟩ : ConnectionId).raw.bytes ++ b :: rest := by
      rw [hbe, List.append_assoc, ← hid, List.take_append_drop]
    rw [hbytes, TransportMessage.tryFromBytes_append _ ⟨id⟩ _ (List.cons_ne_nil _ _), ← hbytes]
    rcases SubstreamMessage.tryFromBytes_settles (b :: rest) with ⟨e, he⟩ | ⟨msg, hm, hheads⟩
    · rw [he]
      exact Or.inl ⟨e, rfl⟩
    · rw [hm]
      exact Or.inr ⟨_, rfl, b :: rest, hheads, hbytes⟩

theorem TransportMessage.tryFromBytes_of_heads {msg : TransportMessage} {bytes : Bytes}
    (h : msg.Heads bytes) : TransportMessage.tryFromBytes bytes = .ok msg := by
  obtain ⟨rest, hheads, rfl⟩ := h
  have hrest : rest ≠ [] := by
    obtain ⟨-, tail, rfl, -⟩ := hheads
    rw [SubstreamMessage.toBytes_eq]
    simp
  rw [TransportMessage.tryFromBytes_append _ _ _ hrest,
    SubstreamMessage.tryFromBytes_of_heads hheads]
  rfl

/-- A connection message is decoded from its own encoding only. -/
theorem ConnectionMessage.tryFromBytes_settles {t : ThirdParty P R} (ht : t.Canonical)
    (bytes : Bytes) :
    Settles (ConnectionMessage.tryFromBytes t bytes) fun msg => bytes = msg.toBytes t := by
  by_cases hlen : bytes.length < connectionIdLength + 1
  · left
    unfold ConnectionMessage.tryFromBytes
    simp only [bind, Except.bind, throw, throwThe, MonadExceptOf.throw, hlen, ↓reduceIte]
    exact ⟨_, rfl⟩
  · have hlen' : 33 ≤ bytes.length := by
      rw [connectionIdLength] at hlen
      omega
    obtain ⟨id, b, rest, rfl⟩ := exists_id_append hlen'
    rw [ConnectionMessage.tryFromBytes_append t ⟨id⟩]
    -- the peer id is all that is left
    have hpeer : ∀ (rest' : Bytes) (recipient : Option R), (∀ p, rest' = t.peerIdToBytes p →
        id.bytes ++ b :: rest = ConnectionMessage.toBytes t ⟨p, ⟨id⟩, recipient⟩) →
        Settles ((orErr .invalidPeerIdBytes (t.peerIdFromBytes rest')).map
          fun p => (⟨p, ⟨id⟩, recipient⟩ : ConnectionMessage P R))
          fun msg => id.bytes ++ b :: rest = msg.toBytes t := by
      intro rest' recipient heq
      cases hp : t.peerIdFromBytes rest' with
      | none => exact Or.inl ⟨_, rfl⟩
      | some p => exact Or.inr ⟨_, rfl, heq p (ht.peerId_only rest' p hp)⟩
    unfold ConnectionMessage.ofTail
    split
    · rename_i h0
      split
      · exact Or.inl ⟨_, rfl⟩
      · apply hpeer
        rintro p rfl
        rw [ConnectionMessage.toBytes_eq, h0]
    split
    · rename_i h1
      split
      · exact Or.inl ⟨_, rfl⟩
      · rename_i hle
        split
        · exact Or.inl ⟨_, rfl⟩
        · rename_i r hr
          split
          · exact Or.inl ⟨_, rfl⟩
          · have htake : (rest.take t.recipientLen).length = t.recipientLen := by
              rw [List.length_take]
              omega
            have hrec := ht.recipient_only _ r htake hr
            apply hpeer
            intro p hp
            rw [ConnectionMessage.toBytes_eq, h1]
            dsimp only
            rw [← hrec, ← hp, List.take_append_drop]
    · exact Or.inl ⟨_, rfl⟩

/-! ### The whole format -/

/-- The decoder leaves what follows the message unread: it carries an `OpenRequest`, an
`OpenResponse` or a `Close`. -/
def Message.IgnoresTail : Message P R → Prop
  | .transportMessage msg => msg.message.IgnoresTail
  | .connectionRequest _ => False
  | .connectionResponse _ => False

/-- The bytes encode the message, which is not an empty `Data` message, and what follows the
encoding is empty or left unread. -/
def Message.Encodes (t : ThirdParty P R) (m : Message P R) (bytes : Bytes) : Prop :=
  ¬ m.EmptyData ∧ ∃ tail, bytes = m.toBytes t ++ tail ∧ (tail ≠ [] → m.IgnoresTail)

theorem TransportMessage.heads_iff {msg : TransportMessage} {bytes : Bytes} :
    msg.Heads bytes ↔ ¬ msg.message.EmptyData ∧ ∃ tail, bytes = msg.toBytes ++ tail ∧
      (tail ≠ [] → msg.message.IgnoresTail) := by
  unfold TransportMessage.Heads SubstreamMessage.Heads TransportMessage.toBytes
  constructor
  · rintro ⟨rest, ⟨hne, tail, rfl, htail⟩, rfl⟩
    exact ⟨hne, tail, (List.append_assoc _ _ _).symm, htail⟩
  · rintro ⟨hne, tail, rfl, htail⟩
    exact ⟨_, ⟨hne, tail, rfl, htail⟩, List.append_assoc _ _ _⟩

theorem Settles.map {α β : Type} {r : Result α} {Q : α → Prop} {Q' : β → Prop} (h : Settles r Q)
    (f : α → β) (hf : ∀ a, Q a → Q' (f a)) : Settles (r.map f) Q' := by
  rcases h with ⟨e, rfl⟩ | ⟨a, rfl, ha⟩
  · exact Or.inl ⟨e, rfl⟩
  · exact Or.inr ⟨f a, rfl, hf a ha⟩

/-- Every byte string is refused, or it encodes the message it is decoded to. -/
theorem parseMessageData_settles {t : ThirdParty P R} (ht : t.Canonical) (bytes : Bytes) :
    Settles (parseMessageData t bytes) fun inbound => inbound.message.Encodes t bytes := by
  by_cases hlen : bytes.length < 2
  · left
    unfold parseMessageData
    simp only [bind, Except.bind, throw, throwThe, MonadExceptOf.throw, hlen, ↓reduceIte]
    exact ⟨_, rfl⟩
  · obtain ⟨b, rest, rfl⟩ : ∃ b rest, bytes = b :: rest := by
      apply List.exists_cons_of_ne_nil
      rintro rfl
      exact hlen (by decide)
    have hrest : rest ≠ [] := by
      rintro rfl
      exact hlen Nat.one_lt_two
    rw [parseMessageData_cons t b hrest]
    split
    · rename_i h0
      apply (ConnectionMessage.tryFromBytes_settles ht rest).map
      rintro msg rfl
      exact ⟨id, [], by rw [h0, List.append_nil]; rfl, fun h => absurd rfl h⟩
    split
    · rename_i h1
      apply (ConnectionMessage.tryFromBytes_settles ht rest).map
      rintro msg rfl
      exact ⟨id, [], by rw [h1, List.append_nil]; rfl, fun h => absurd rfl h⟩
    split
    · rename_i h2
      apply (TransportMessage.tryFromBytes_settles rest).map
      intro msg hheads
      obtain ⟨hne, tail, rfl, htail⟩ := TransportMessage.heads_iff.mp hheads
      exact ⟨hne, tail, by rw [h2]; rfl, htail⟩
    · exact Or.inl ⟨_, rfl⟩

theorem parseMessageData_of_encodes {t : ThirdParty P R} (ht : t.RoundTrips) {m : Message P R}
    {bytes : Bytes} (h : m.Encodes t bytes) : parseMessageData t bytes = .ok ⟨m⟩ := by
  obtain ⟨hne, tail, rfl, htail⟩ := h
  by_cases h0 : tail = []
  · subst h0
    rw [List.append_nil]
    rcases parseMessageData_toBytes ht m with ⟨-, hp⟩ | ⟨he, -⟩
    · exact hp
    · exact absurd he hne
  · have hty := htail h0
    cases m with
    | connectionRequest msg => exact hty.elim
    | connectionResponse msg => exact hty.elim
    | transportMessage msg =>
      have hheads : msg.Heads (msg.toBytes ++ tail) :=
        TransportMessage.heads_iff.mpr ⟨hne, tail, rfl, htail⟩
      have hrest : msg.toBytes ++ tail ≠ [] := fun h => h0 (List.append_eq_nil_iff.mp h).2
      show parseMessageData t (2 :: (msg.toBytes ++ tail)) = _
      rw [parseMessageData_cons t 2 hrest, if_neg (by decide), if_neg (by decide), if_pos rfl,
        TransportMessage.tryFromBytes_of_heads hheads]
      rfl

/-- **The decoder accepts one language, and reads it in one way.**  It panics on no input; it
accepts the bytes as `m` iff they encode `m`; what it accepts starts with the encoding of `m`, which
decodes to `m` again; and no bytes encode two messages. -/
theorem parseMessageData_iff {t : ThirdParty P R} (ht : t.Canonical) (bytes : Bytes) :
    (∀ p, parseMessageData t bytes ≠ .error (.panic p)) ∧
    (∀ m, parseMessageData t bytes = .ok ⟨m⟩ ↔ m.Encodes t bytes) ∧
    (∀ m, parseMessageData t bytes = .ok ⟨m⟩ →
      m.toBytes t <+: bytes ∧ parseMessageData t (m.toBytes t) = .ok ⟨m⟩) ∧
    ∀ m m' : Message P R, m.Encodes t bytes → m'.Encodes t bytes → m = m' := by
  have hiff : ∀ m, parseMessageData t bytes = .ok ⟨m⟩ ↔ m.Encodes t bytes := by
    intro m
    refine ⟨fun h => ?_, parseMessageData_of_encodes ht.toRoundTrips⟩
    rcases parseMessageData_settles ht bytes with ⟨e, he⟩ | ⟨inbound, hok, henc⟩
    · rw [he] at h
      cases h
    · rw [hok] at h
      cases h
      exact henc
  refine ⟨fun p h => ?_, hiff, fun m h => ?_, fun m m' h h' => ?_⟩
  · rcases parseMessageData_settles ht bytes with ⟨e, he⟩ | ⟨inbound, hok, -⟩
    · rw [he] at h
      cases h
    · rw [hok] at h
      cases h
  · obtain ⟨hne, tail, rfl, -⟩ := (hiff m).mp h
    refine ⟨List.prefix_append _ _, parseMessageData_of_encodes ht.toRoundTrips ?_⟩
    exact ⟨hne, [], (List.append_nil _).symm, fun h => absurd rfl h⟩
  · have hok := (hiff m).mpr h
    rw [(hiff m').mpr h'] at hok
    cases hok
    rfl

theorem ThirdParty.raw_canonical : ThirdParty.raw.Canonical where
  toRoundTrips := ThirdParty.raw_roundTrips
  recipient_only b r hlen h := by
    have h' : (if hb : b.length = 96 then some (⟨b, hb⟩ : RawRecipient) else none) = some r := h
    split at h'
    · cases h'
      rfl
    · cases h'
  peerId_only b p h := by
    have h' : (if hb : b ≠ [] then some (⟨b, hb⟩ : RawPeerId) else none) = some p := h
    split at h'
    · cases h'
      rfl
    · cases h'

/-- A `Close` with a byte behind it is still that `Close`. -/
theorem parseMessageData_sampleTrailing :
    parseMessageData .raw ((Message.transportMessage ⟨2, .newClose ⟨.fill 2⟩, ⟨.fill 1⟩⟩ :
        Message RawPeerId RawRecipient).toBytes .raw ++ [9])
      = .ok ⟨.transportMessage ⟨2, .newClose ⟨.fill 2⟩, ⟨.fill 1⟩⟩⟩ :=
  ((parseMessageData_iff ThirdParty.raw_canonical _).2.1 _).mpr
    ⟨SubstreamMessageType.noConfusion, [9], rfl, fun _ => Or.inr (Or.inr rfl)⟩

end Libp2pNym
