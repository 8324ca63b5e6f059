import Libp2pNym.Transport.Equiv.Moves

/-!
# What a transport sends

The connection messages of a transport are the requests of its dials, each of which the future of
the dial holds until it is first polled, and the responses to the requests that come.  `asks_steps`
and `signals_steps` follow a message back through one operation.
-/

namespace Libp2pNym.Node

variable {P R : Type} {n n' : Node P R} {o : Op P R} {a : Answer P}

/-- The address, the peer id and the channel to the mixnet stay. -/
theorem identity_steps (hs : Steps n o n' a) :
    n'.transport.selfAddress = n.transport.selfAddress ∧
      n'.transport.peerId = n.transport.peerId ∧
      n'.transport.outboundTx.cloneTx = n.transport.outboundTx.cloneTx := by
  cases hs with
  | inbound msg n' r hh => cases hh <;> exact ⟨rfl, rfl, rfl⟩
  | sent d elapsed dial request hd hrx hr ha =>
    obtain ⟨heq, -⟩ :=
      (n.requested d dial request).awaitDial_frame d { dial with request := none } elapsed
    rw [heq]
    exact ⟨rfl, rfl, rfl⟩
  | awaited d elapsed dial hd hrx hr =>
    rw [(n.awaitDial_frame d dial elapsed).1]
    exact ⟨rfl, rfl, rfl⟩
  | unsent d elapsed dial request hd hrx hr ha =>
    rw [((n.withdrawn d dial).dropDial_frame d dial).1]
    exact ⟨rfl, rfl, rfl⟩
  | dialDropped d dial hd hrx =>
    rw [(n.dropDial_frame d dial).1]
    exact ⟨rfl, rfl, rfl⟩
  | _ => exact ⟨rfl, rfl, rfl⟩

/-! ### Pending dials -/

/-- A pending dial was pending before, or it is the one that is made now. -/
theorem pendingDials_steps (hs : Steps n o n' a) {c : ConnectionId} {p : PendingConnection R}
    (hp : n'.transport.pendingDials c = some p) :
    n.transport.pendingDials c = some p ∨ o = .dial p.remoteRecipient c := by
  have hclaimed : ∀ {id}, n.transport.pendingDials.remove id c = some p →
      n.transport.pendingDials c = some p := fun hp => (KeyMap.remove_eq_some_iff.mp hp).2
  cases hs with
  | inbound msg n' r hh =>
    cases hh with
    | resolved msg pending dial hc hp₀ hq hd ha => exact Or.inl (hclaimed hp)
    | unresolved msg pending hc hp₀ hq hd => exact Or.inl (hclaimed hp)
    | _ => exact Or.inl hp
  | dialed recipient id =>
    rcases KeyMap.insert_eq_some_iff.mp hp with ⟨rfl, rfl⟩ | ⟨-, hp⟩
    · exact Or.inr rfl
    · exact Or.inl hp
  | sent d elapsed dial request hd hrx hr ha =>
    obtain ⟨heq, -⟩ :=
      (n.requested d dial request).awaitDial_frame d { dial with request := none } elapsed
    rw [heq] at hp
    exact Or.inl hp
  | awaited d elapsed dial hd hrx hr =>
    rw [(n.awaitDial_frame d dial elapsed).1] at hp
    exact Or.inl hp
  | unsent d elapsed dial request hd hrx hr ha =>
    rw [((n.withdrawn d dial).dropDial_frame d dial).1] at hp
    exact Or.inl hp
  | dialDropped d dial hd hrx =>
    rw [(n.dropDial_frame d dial).1] at hp
    exact Or.inl hp
  | _ => exact Or.inl hp

/-- A connection that was established by a response has used up its pending dial. -/
theorem claimed_of_response {msg : ConnectionMessage P R}
    (hs : Steps n (.inbound (.connectionResponse msg)) n' a)
    (hc : n.transport.connections msg.id = none) (hc' : n'.transport.connections msg.id ≠ none) :
    n'.transport.pendingDials msg.id = none := by
  cases hs with
  | skip _ ho => exact absurd rfl (ho _)
  | inbound _ _ r hh =>
    cases hh with
    | alreadyEstablished _ h hc₁ => exact absurd hc hc'
    | noDial _ hc₁ hp => exact hp
    | resolved _ pending dial hc₁ hp hq hd ha => exact KeyMap.remove_self ..
    | unresolved _ pending hc₁ hp hq hd => exact KeyMap.remove_self ..

/-! ### Requests -/

/-- The future of a dial has the message still to send. -/
def Asks (n : Node P R) (m : OutboundMessage P R) : Prop :=
  ∃ d dial, n.dials d = some dial ∧ dial.request = some m

variable {m : OutboundMessage P R}

/-- A dial was changed and keeps its request. -/
theorem Asks.of_modify {d : ℕ} {f : Dial P R → Dial P R} (hdials : n'.dials = n.dials.modify d f)
    (hf : ∀ dial, (f dial).request = dial.request) (h : n'.Asks m) : n.Asks m := by
  obtain ⟨k, dial, hk, hm⟩ := h
  rw [hdials, KeyMap.modify_apply] at hk
  split at hk
  · obtain ⟨dial', hd', rfl⟩ := Option.map_eq_some_iff.mp hk
    exact ⟨d, dial', hd', (hf dial').symm.trans hm⟩
  · exact ⟨k, dial, hk, hm⟩

theorem Asks.of_endDial {d : ℕ} (h : (n.endDial d).Asks m) : n.Asks m := by
  refine h.of_modify rfl fun dial => ?_
  rfl

theorem Asks.of_awaitDial {d : ℕ} {dial : Dial P R} {elapsed : Bool}
    (h : (n.awaitDial d dial elapsed).1.Asks m) : n.Asks m := by
  unfold awaitDial at h
  split at h
  · split at h <;> exact h.of_endDial
  · exact h.of_endDial
  · split at h
    · exact h.of_endDial
    · exact h

theorem Asks.of_dropDial {d : ℕ} {dial : Dial P R} (h : (n.dropDial d dial).Asks m) :
    n.Asks m := by
  unfold dropDial at h
  split at h <;> exact h.of_endDial

theorem Asks.of_dropPending {id : ConnectionId} (h : (n.dropPending id).Asks m) : n.Asks m := by
  cases hp : n.transport.pendingDials id with
  | none =>
    obtain ⟨k, dial, hk, hm⟩ := h
    exact ⟨k, dial, dials_dropPending_of_none hp ▸ hk, hm⟩
  | some pending =>
    refine h.of_modify (dials_dropPending_of_some hp) fun dial => ?_
    rfl

/-- The request of a dial was taken to be sent. -/
theorem Asks.of_taken {d : ℕ} {dial : Dial P R}
    (hdials : n'.dials = n.dials.insert d { dial with request := none }) (h : n'.Asks m) :
    n.Asks m := by
  obtain ⟨k, dial', hk, hm⟩ := h
  rw [hdials] at hk
  rcases KeyMap.insert_eq_some_iff.mp hk with ⟨-, rfl⟩ | ⟨-, hk⟩
  · cases hm
  · exact ⟨k, dial', hk, hm⟩

/-- The request that the future of a dial is to send was there before, or it is that of the dial
made now. -/
theorem asks_steps (hs : Steps n o n' a) (h : n'.Asks m) :
    n.Asks m ∨ ∃ recipient id, o = .dial recipient id ∧ m =
      { message := .connectionRequest
          { peerId := n.transport.peerId, id := id, recipient := some n.transport.selfAddress }
        recipient := recipient } := by
  cases hs with
  | skip _ _ => exact Or.inl h
  | inbound msg n' r hh =>
    left
    cases hh with
    | resolved msg pending dial hc hp hq hd ha =>
      refine h.of_modify rfl fun dial => ?_
      rfl
    | _ => exact h
  | dialed recipient id =>
    obtain ⟨k, dial, hk, hm⟩ := h
    rcases KeyMap.insert_eq_some_iff.mp hk with ⟨-, rfl⟩ | ⟨-, hk⟩
    · cases hm
      exact Or.inr ⟨recipient, id, rfl, rfl⟩
    · have hasks : (n.dropPending id).Asks m := ⟨k, dial, hk, hm⟩
      exact Or.inl hasks.of_dropPending
  | unsent d elapsed dial request hd hrx hr ha => exact Or.inl (h.of_dropDial.of_taken rfl)
  | sent d elapsed dial request hd hrx hr ha => exact Or.inl (h.of_awaitDial.of_taken rfl)
  | awaited d elapsed dial hd hrx hr => exact Or.inl h.of_awaitDial
  | dialDropped d dial hd hrx => exact Or.inl h.of_dropDial
  | connDropped k => exact Or.inl h

/-! ### Messages -/

/-- A connection message of the transport was sent before, or it is the request of a future, or it
answers the request that has come, for which there is a connection now. -/
theorem signals_steps (hp : n.Placed) (hs : Steps n o n' a)
    (hm : m ∈ n'.transport.outboundTx.log) :
    m ∈ n.transport.outboundTx.log ∨ n.Asks m ∨
      ∃ req recipient e, o = .inbound (.connectionRequest req) ∧ req.recipient = some recipient ∧
        m = n.response recipient req.id ∧ n'.endAt req.id = some e ∧
        e.conn.remoteRecipient = recipient ∧ e.conn.peerId = req.peerId := by
  have hsent : ∀ {tx : Chan (OutboundMessage P R)} {m₁ : OutboundMessage P R},
      tx = { n.transport.outboundTx with queue := n.transport.outboundTx.queue ++ [m₁] } →
      m ∈ tx.log → m ∈ n.transport.outboundTx.log ∨ m = m₁ := by
    rintro tx m₁ rfl hm
    rw [Chan.log, ← List.append_assoc, List.mem_append, List.mem_singleton] at hm
    exact hm
  cases hs with
  | inbound msg n' r hh =>
    cases hh with
    | accepted msg recipient hr hc hq ha =>
      rcases hsent rfl hm with hm | hm
      · exact Or.inl hm
      · refine Or.inr (Or.inr ⟨msg, recipient, n.firstEnd msg.peerId recipient msg.id, rfl, hr, hm,
          ?_, rfl, rfl⟩)
        show (n.connected msg.peerId recipient msg.id).endAt msg.id = _
        rw [hp.endAt_connected, if_pos rfl]
    | _ => exact Or.inl hm
  | sent d elapsed dial request hd hrx hr ha =>
    obtain ⟨heq, -⟩ :=
      (n.requested d dial request).awaitDial_frame d { dial with request := none } elapsed
    rw [heq] at hm
    rcases hsent rfl hm with hm | rfl
    · exact Or.inl hm
    · exact Or.inr (Or.inl ⟨d, dial, hd, hr⟩)
  | awaited d elapsed dial hd hrx hr =>
    rw [(n.awaitDial_frame d dial elapsed).1] at hm
    exact Or.inl hm
  | unsent d elapsed dial request hd hrx hr ha =>
    rw [((n.withdrawn d dial).dropDial_frame d dial).1] at hm
    exact Or.inl hm
  | dialDropped d dial hd hrx =>
    rw [(n.dropDial_frame d dial).1] at hm
    exact Or.inl hm
  | _ => exact Or.inl hm

end Libp2pNym.Node
