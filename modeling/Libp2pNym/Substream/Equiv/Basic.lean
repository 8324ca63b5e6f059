import Libp2pNym.Substream.Basic

/-!
# What the functions of a substream can do

`Stays s s'` is what a read, a write or a flush can make of a substream; `pollWrite_cases` and
`pollClose_cases` say when a message goes out and when a nonce is drawn without one.
-/

namespace Libp2pNym

variable {P R : Type}

/-! ### The outbox -/

/-- The channel to the mixnet still has its receiver. -/
def Outbox.Alive (o : Outbox P R) : Prop := o.outboundTx.rxAlive = true

/-- A nonce was drawn and no message sent. -/
def Outbox.draw (o : Outbox P R) : Outbox P R := { o with messageNonce := o.messageNonce + 1 }

/-- A message was sent with the next nonce. -/
def Outbox.emit (o : Outbox P R) (recipient : R) (id : ConnectionId) (msg : SubstreamMessage) :
    Outbox P R where
  messageNonce := o.messageNonce + 1
  outboundTx := { o.outboundTx with queue := o.outboundTx.queue ++
    [{ message := .transportMessage { nonce := o.messageNonce, message := msg, id := id },
       recipient := recipient }] }

theorem Outbox.send_fetchAdd_of_alive {o : Outbox P R} (h : o.Alive) (recipient : R)
    (id : ConnectionId) (msg : SubstreamMessage) :
    o.fetchAdd.2.send recipient { nonce := o.fetchAdd.1, message := msg, id := id }
      = some (o.emit recipient id msg) := by
  have h' : o.outboundTx.rxAlive = true := h
  simp only [Outbox.fetchAdd, Outbox.send, Chan.send, h', ↓reduceIte, Outbox.emit]

theorem Outbox.send_fetchAdd_of_not_alive {o : Outbox P R} (h : ¬ o.Alive) (recipient : R)
    (msg : TransportMessage) : o.fetchAdd.2.send recipient msg = none := by
  have h' : o.outboundTx.rxAlive = false := by simpa [Outbox.Alive] using h
  simp only [Outbox.fetchAdd, Outbox.send, Chan.send, h', Bool.false_eq_true, ↓reduceIte]

theorem Outbox.log_emit (o : Outbox P R) (recipient : R) (id : ConnectionId)
    (msg : SubstreamMessage) : (o.emit recipient id msg).outboundTx.log = o.outboundTx.log ++
      [{ message := .transportMessage { nonce := o.messageNonce, message := msg, id := id },
         recipient := recipient }] := by
  simp only [emit, Chan.log, List.append_assoc]

theorem Outbox.sentMessages_emit (o : Outbox P R) (recipient : R) (id : ConnectionId)
    (msg : SubstreamMessage) :
    (o.emit recipient id msg).sentMessages = o.sentMessages ++ [msg] := by
  simp [sentMessages, log_emit, Message.transport?]

/-! ### What a substream function can do to its substream -/

/-- `s'` is what a read, a write or a flush can make of `s`: the ids, the history of the inbound
channel and the two ends of it stay, the close signal can be taken, and the substream can only be
found closed if it was closed or the signal was there. -/
structure Substream.Stays (s s' : Substream R) : Prop where
  remoteRecipient : s'.remoteRecipient = s.remoteRecipient
  connectionId : s'.connectionId = s.connectionId
  substreamId : s'.substreamId = s.substreamId
  log : s'.inboundRx.log = s.inboundRx.log
  rxAlive : s'.inboundRx.rxAlive = s.inboundRx.rxAlive
  txAlive : s'.inboundRx.txAlive = s.inboundRx.txAlive
  signalRx : s'.closeRx.rxAlive = s.closeRx.rxAlive
  signal : s.closeRx.slot ≠ .sent () → s'.closeRx = s.closeRx ∧ s'.closed = s.closed
  closed : s.closed = true → s'.closed = true

namespace Substream

theorem stays_checkClosed (s : Substream R) : s.Stays s.checkClosed.2 := by
  obtain ⟨r, cid, sid, inb, ⟨slot, rx⟩, closed, unread⟩ := s
  cases slot <;> cases closed <;> constructor <;> simp [checkClosed, Oneshot.tryRecv]

/-- `checkClosed` refuses a substream that is closed or has the close signal waiting, and leaves
any other as it is. -/
theorem checkClosed_cases (s : Substream R) :
    ((s.closed = true ∨ s.closeRx.slot = .sent ()) ∧ s.checkClosed.1 = .error streamClosed ∧
      s.checkClosed.2.closed = true) ∨
    (s.checkClosed = (.ok (), s) ∧ s.closed = false ∧ s.closeRx.slot ≠ .sent ()) := by
  obtain ⟨r, cid, sid, inb, ⟨slot, rx⟩, closed, unread⟩ := s
  cases slot <;> cases closed <;> simp [checkClosed, Oneshot.tryRecv]

theorem stays_fillFromUnread (s : Substream R) (buf : Bytes) :
    s.Stays (s.fillFromUnread buf).1 := by
  unfold fillFromUnread
  split <;> constructor <;> simp

theorem Stays.trans {s₁ s₂ s₃ : Substream R} (h : s₁.Stays s₂) (h' : s₂.Stays s₃)
    (hs : s₁.closeRx.slot ≠ .sent () → s₂.closeRx.slot ≠ .sent ()) : s₁.Stays s₃ where
  remoteRecipient := h'.remoteRecipient.trans h.remoteRecipient
  connectionId := h'.connectionId.trans h.connectionId
  substreamId := h'.substreamId.trans h.substreamId
  log := h'.log.trans h.log
  rxAlive := h'.rxAlive.trans h.rxAlive
  txAlive := h'.txAlive.trans h.txAlive
  signalRx := h'.signalRx.trans h.signalRx
  signal hne := ⟨(h'.signal (hs hne)).1.trans (h.signal hne).1,
    (h'.signal (hs hne)).2.trans (h.signal hne).2⟩
  closed hc := h'.closed (h.closed hc)

theorem stays_pollRead (s : Substream R) (buf : Bytes) : s.Stays (s.pollRead buf).1 := by
  rcases checkClosed_cases s with ⟨-, he, -⟩ | ⟨hok, -, hns⟩
  · have hc := stays_checkClosed s
    unfold pollRead
    generalize s.checkClosed = r at he hc ⊢
    obtain ⟨a, s'⟩ := r
    dsimp only at he hc
    subst he
    exact hc
  · -- the inbound channel is read, and the rest only moves unread data
    have hrecv : s.Stays { s with inboundRx := s.inboundRx.pollRecv.2 } := by
      constructor <;> try simp
      all_goals
        unfold Chan.pollRecv
        split
        · rfl
        · split <;> rfl
    have hfill := hrecv.trans
      (stays_fillFromUnread { s with inboundRx := s.inboundRx.pollRecv.2 } buf) id
    unfold pollRead
    rw [hok]
    dsimp only
    generalize fillFromUnread { s with inboundRx := s.inboundRx.pollRecv.2 } buf = f at hfill ⊢
    obtain ⟨s', b', k⟩ := f
    dsimp only at hfill ⊢
    have hunread : ∀ u, s.Stays { s' with unreadData := u } := fun u =>
      ⟨hfill.remoteRecipient, hfill.connectionId, hfill.substreamId, hfill.log, hfill.rxAlive,
        hfill.txAlive, hfill.signalRx, hfill.signal, hfill.closed⟩
    split
    · split
      · exact hunread _
      · dsimp only
        split
        · exact hunread _
        · exact hfill
    · split
      · exact hfill
      · exact hfill

theorem stays_pollFlush (s : Substream R) : s.Stays s.pollFlush.1 := by
  have hc := stays_checkClosed s
  unfold pollFlush
  generalize s.checkClosed = r at hc ⊢
  obtain ⟨a, s'⟩ := r
  cases a with
  | error err => exact hc
  | ok u => exact hc

/-- Reads, writes and flushes are refused: the closed flag is set or the remote's close signal is
there. -/
def Refuses (s : Substream R) : Prop := s.closed = true ∨ s.closeRx.slot = .sent ()

theorem checkClosed_of_refuses {s : Substream R} (h : s.Refuses) :
    s.checkClosed.1 = .error streamClosed ∧ s.checkClosed.2.closed = true := by
  rcases checkClosed_cases s with ⟨-, he, hc⟩ | ⟨-, hc, hs⟩
  · exact ⟨he, hc⟩
  · rcases h with h | h
    · rw [hc] at h
      cases h
    · exact absurd h hs

/-- A substream that does not refuse is left as it is. -/
theorem checkClosed_of_not_refuses {s : Substream R} (h : ¬ s.Refuses) :
    s.checkClosed = (.ok (), s) := by
  rcases checkClosed_cases s with ⟨hr, -, -⟩ | ⟨hok, -, -⟩
  · exact absurd hr h
  · exact hok

/-- A substream that refuses is refused its read and stays as it was, the signal apart. -/
theorem pollRead_of_refuses {s : Substream R} (h : s.Refuses) (buf : Bytes) :
    s.pollRead buf = (s.checkClosed.2, buf, .ready (.error streamClosed)) := by
  have he := (checkClosed_of_refuses h).1
  unfold pollRead
  generalize s.checkClosed = r at he ⊢
  obtain ⟨a, s'⟩ := r
  dsimp only at he
  subst he
  rfl

theorem refuses_of_stays {s s' : Substream R} (hst : s.Stays s') (h : s'.Refuses) : s.Refuses := by
  by_contra hn
  unfold Refuses at hn
  push Not at hn
  obtain ⟨h1, h2⟩ := hst.signal hn.2
  rcases h with h | h
  · exact hn.1 (h2.symm.trans h)
  · rw [h1] at h
    exact hn.2 h

/-- A read answers that the stream is closed only on a substream that refuses. -/
theorem refuses_of_pollRead {s : Substream R} {buf : Bytes}
    (h : (s.pollRead buf).2.2 = .ready (.error streamClosed)) : s.Refuses := by
  rcases checkClosed_cases s with ⟨hr, -⟩ | ⟨hok, -, -⟩
  · exact hr
  · unfold pollRead at h
    rw [hok] at h
    dsimp only at h
    split at h
    · split at h <;> cases h
    · split at h <;> cases h

theorem pollFlush_of_refuses {s : Substream R} (h : s.Refuses) :
    s.pollFlush = (s.checkClosed.2, .ready (.error streamClosed)) := by
  have he := (checkClosed_of_refuses h).1
  unfold pollFlush
  generalize s.checkClosed = r at he ⊢
  obtain ⟨a, s'⟩ := r
  dsimp only at he
  subst he
  rfl

/-- `poll_write` is refused when the substream is closed; otherwise it draws a nonce and, if the
mixnet is there, sends the buffer. -/
theorem pollWrite_cases (s : Substream R) (o : Outbox P R) (buf : Bytes) :
    (s.pollWrite o buf = (s.checkClosed.2, o, .ready (.error streamClosed)) ∧
      s.checkClosed.2.closed = true) ∨
    (s.closed = false ∧ s.closeRx.slot ≠ .sent () ∧
      ((o.Alive ∧ s.pollWrite o buf = (s, o.emit s.remoteRecipient s.connectionId
          (.newWithData s.substreamId buf), .ready (.ok buf.length))) ∨
        (¬ o.Alive ∧ s.pollWrite o buf = (s, o.draw,
          .ready (.error ⟨.other, "poll_write outbound_tx error: " ++ sendErrorText⟩))))) := by
  rcases checkClosed_cases s with ⟨-, he, hcl⟩ | ⟨hok, hcl, hns⟩
  · refine Or.inl ⟨?_, hcl⟩
    unfold pollWrite
    generalize s.checkClosed = r at he
    obtain ⟨a, s'⟩ := r
    dsimp only at he
    subst he
    rfl
  · refine Or.inr ⟨hcl, hns, ?_⟩
    unfold pollWrite
    rw [hok]
    by_cases ha : o.Alive
    · refine Or.inl ⟨ha, ?_⟩
      have := Outbox.send_fetchAdd_of_alive ha s.remoteRecipient s.connectionId
        (.newWithData s.substreamId buf)
      dsimp only
      rw [this]
    · refine Or.inr ⟨ha, ?_⟩
      dsimp only
      rw [Outbox.send_fetchAdd_of_not_alive ha]
      rfl

/-- `poll_close` always draws a nonce; it sends the close message iff the substream was not closed
and the mixnet is there. -/
theorem pollClose_cases (s : Substream R) (o : Outbox P R) :
    (s.closed = true ∧ s.pollClose o = (s, o.draw, .ready (.error streamClosed))) ∨
    (s.closed = false ∧ o.Alive ∧ s.pollClose o = ({ s with closed := true },
        o.emit s.remoteRecipient s.connectionId (.newClose s.substreamId), .ready (.ok ()))) ∨
    (s.closed = false ∧ ¬ o.Alive ∧ s.pollClose o = ({ s with closed := true }, o.draw,
        .ready (.error ⟨.other, "poll_close outbound_rx error: " ++ sendErrorText⟩))) := by
  unfold pollClose
  cases hc : s.closed with
  | true =>
    left
    exact ⟨rfl, rfl⟩
  | false =>
    right
    by_cases ha : o.Alive
    · refine Or.inl ⟨rfl, ha, ?_⟩
      have := Outbox.send_fetchAdd_of_alive ha s.remoteRecipient s.connectionId
        (.newClose s.substreamId)
      dsimp only
      rw [this]
      rfl
    · refine Or.inr ⟨rfl, ha, ?_⟩
      dsimp only
      rw [Outbox.send_fetchAdd_of_not_alive ha]
      rfl

end Substream

end Libp2pNym
