import Libp2pNym.Connection.Equiv.Poll
import Libp2pNym.Substream.Equiv.Read

/-!
# Reads of a substream whose sender is gone

Once the connection no longer holds the sender of a substream, nothing can arrive any more.
`read_orphan_iff`: a read then answers at once iff the connection is still there (it has handled the
close of the substream and sent the signal), or the substream refuses, or something is left to read.
So the reads that stay pending are those of a substream that was open and empty when its connection
was dropped: `poll_read` does not tell the end of its channel from an empty one.

The invariant is `Signalled`: while the connection is there, a substream without a sender has been
told so.
-/

namespace Libp2pNym

open StepRun

variable {P R : Type}

namespace Substream

/-- A read stays pending when nothing was left unread and the channel is empty, whether or not it
still has a sender. -/
theorem pollRead_eq_pending_iff {s : Substream R} (ha : s.inboundRx.rxAlive = true) {buf : Bytes}
    (hb : buf ≠ []) : (s.pollRead buf).2.2 = .pending ↔
      ¬ s.Refuses ∧ s.unreadData = [] ∧ s.inboundRx.queue = [] := by
  have hlen : 0 < buf.length := List.length_pos_iff.mpr hb
  by_cases hr : s.Refuses
  · rw [pollRead_of_refuses hr]
    exact ⟨fun h => (by cases h), fun h => absurd hr h.1⟩
  · have ho : s.IsOpen := by
      unfold Refuses at hr
      push Not at hr
      exact ⟨Bool.eq_false_iff.mpr hr.1, hr.2, ha⟩
    cases hq : s.inboundRx.queue with
    | cons data queue =>
      rw [pollRead_of_cons ho hq]
      refine ⟨fun h => ?_, fun h => (by cases h.2.2)⟩
      dsimp only at h
      split at h <;> cases h
    | nil =>
      rw [pollRead_of_nil ho hq, (fillFromUnread_spec s buf).2.2.1]
      dsimp only
      split
      · rename_i hpos
        refine ⟨fun h => (by cases h), fun h => ?_⟩
        rw [h.2.1, List.length_nil] at hpos
        omega
      · refine ⟨fun _ => ⟨hr, ?_, rfl⟩, fun _ => rfl⟩
        rw [← List.length_eq_zero_iff]
        omega

theorem refuses_pollRead {s : Substream R} (h : s.Refuses) (buf : Bytes) :
    (s.pollRead buf).1.Refuses := by
  rw [pollRead_of_refuses h]
  exact Or.inl (checkClosed_of_refuses h).2

theorem refuses_pollFlush {s : Substream R} (h : s.Refuses) : s.pollFlush.1.Refuses := by
  rw [pollFlush_of_refuses h]
  exact Or.inl (checkClosed_of_refuses h).2

end Substream

namespace Endpoint

/-- While the connection is there, every substream that it holds no sender of refuses: it was
closed, or the close signal was sent to it. -/
def Signalled (e : Endpoint P R) : Prop :=
  e.Alive → ∀ h sub, e.substreams h = some sub → (∀ s, e.conn.substreamInboundTxs s ≠ some h) →
    sub.Refuses

theorem Signalled.congr {e e' : Endpoint P R} (hs : e.Signalled) (hal : e'.Alive → e.Alive)
    (htxs : e'.conn.substreamInboundTxs = e.conn.substreamInboundTxs)
    (hsubs : e'.substreams = e.substreams) : e'.Signalled := by
  intro ha h sub hsub hgone
  rw [hsubs] at hsub
  rw [htxs] at hgone
  exact hs (hal ha) h sub hsub hgone

/-- Putting back a substream that refuses if it did. -/
theorem Signalled.put {e : Endpoint P R} (hs : e.Signalled) {h : ℕ} {sub sub' : Substream R}
    (hsub : e.substreams h = some sub) (hr : sub.Refuses → sub'.Refuses) :
    (e.put h sub').Signalled := by
  intro ha k sub₁ hk hgone
  rcases KeyMap.insert_eq_some_iff.mp hk with ⟨rfl, rfl⟩ | ⟨-, hk⟩
  · exact hr (hs ha k sub hsub hgone)
  · exact hs ha k sub₁ hk hgone

theorem Signalled.opened {e : Endpoint P R} (hs : e.Signalled) {s : SubstreamId}
    (hn : e.conn.substreamInboundTxs s = none) : (e.opened s).Signalled := by
  intro ha h sub hsub hgone
  rcases KeyMap.insert_eq_some_iff.mp hsub with ⟨rfl, -⟩ | ⟨-, hsub'⟩
  · -- the new substream has a sender
    exact absurd (KeyMap.insert_self ..) (hgone s)
  · refine hs ha h sub hsub' fun s' hs' => hgone s' ?_
    have hne : s' ≠ s := by
      rintro rfl
      rw [hn] at hs'
      cases hs'
    exact (KeyMap.insert_of_ne _ _ hne).trans hs'

theorem signalled_handles {e e' : Endpoint P R} (hw : e.Wf) (hs : e.Signalled) {s : SubstreamId}
    {ty : SubstreamMessageType} {r : Except Error Unit} (hh : Handles e s ty e' r) :
    e'.Signalled := by
  cases hh with
  | openExists h hreg => exact hs
  | openAccepted hn ha => exact (hs.opened hn).congr id rfl rfl
  | openUnanswered hn ha =>
    have hnew : (e.opened s).substreams e.next
        = some (.new e.conn.remoteRecipient e.conn.id s Chan.new Oneshot.new) :=
      KeyMap.insert_self ..
    have hdrop : ((e.opened s).put e.next (Substream.drop
        (.new e.conn.remoteRecipient e.conn.id s Chan.new Oneshot.new))).Signalled :=
      (hs.opened hn).put hnew id
    exact hdrop.congr id rfl (KeyMap.modify_eq_insert _ Substream.drop hnew)
  | openResponse => exact hs.congr id rfl rfl
  | closeUnknown hn => exact hs
  | closed h sub hreg hsub halive =>
    intro ha k sub' hk hgone
    rcases KeyMap.insert_eq_some_iff.mp hk with ⟨-, rfl⟩ | ⟨hne, hk'⟩
    · exact Or.inr rfl
    · refine hs ha k sub' hk' fun s' hs' => hgone s' ?_
      -- only the closed substream has lost its sender
      have hss : s' ≠ s := by
        rintro rfl
        rw [hreg] at hs'
        cases hs'
        exact hne rfl
      exact (KeyMap.remove_of_ne _ hss).trans hs'
  | data h d hreg =>
    obtain ⟨sub, hsub, -⟩ := hw.registered s h hreg
    rw [sendData_eq_put hsub]
    exact hs.put hsub id

theorem signalled_pollLoop {fuel : ℕ} {e e' : Endpoint P R}
    {r : Poll (Except Error StreamMuxerEvent)} (hw : e.Wf) (hs : e.Signalled)
    (h : pollLoop fuel e = .ok (e', r)) : e'.Signalled := by
  refine (pollLoop_induction (I := fun e => e.Wf ∧ e.Signalled) ?_ ⟨hw, hs⟩ h).2
  rintro e msg rest e' r ⟨hw, hs⟩ - hm
  have hw₁ := hw.took msg rest
  have hh := handles_of_handleMessage hw₁ hm
  have hs₁ : (e.took msg rest).Signalled := hs.congr id rfl rfl
  exact ⟨wf_handles hw₁ hh, signalled_handles hw₁ hs₁ hh⟩

theorem signalled_steps {e e' : Endpoint P R} (hw : e.Wf) (hs : e.Signalled) {o : Op} {a : Answer}
    (h : Steps e o e' a) : e'.Signalled := by
  cases h with
  | skip o => exact hs
  | receive msg ha => exact hs.congr id rfl rfl
  | poll e' r ha hp => exact signalled_pollLoop hw hs hp
  | yielded h rest ha hq => exact hs.congr id rfl rfl
  | notYielded hq => exact hs
  | requested s ha hn ho =>
    have he : (e.emitted s .openRequest).Signalled := hs.congr id rfl rfl
    exact (he.opened hn).congr id rfl rfl
  | requestExists s h ha hreg ho => exact hs.congr id rfl rfl
  | requestUnsent s ha ho => exact hs.congr id rfl rfl
  | closeReported s rest hq => exact hs.congr id rfl rfl
  | closeNotReported hq => exact hs
  | read h sub buf hh =>
    exact hs.put (held_eq_some_iff.mp hh).1 fun hr => Substream.refuses_pollRead hr buf
  | writeRefused h sub buf hh =>
    exact hs.put (held_eq_some_iff.mp hh).1 fun hr => Or.inl (Substream.checkClosed_of_refuses hr).2
  | written h sub buf hh hc hn ho => exact hs.congr id rfl rfl
  | writeUnsent h sub buf hh ho => exact hs.congr id rfl rfl
  | flushed h sub hh =>
    exact hs.put (held_eq_some_iff.mp hh).1 fun hr => Substream.refuses_pollFlush hr
  | closeRefused h sub hh hc => exact hs.congr id rfl rfl
  | closedLocally h sub hh hc ho =>
    have hput : (e.put h { sub with closed := true }).Signalled :=
      hs.put (held_eq_some_iff.mp hh).1 fun _ => Or.inl rfl
    exact hput.congr id rfl rfl
  | closeUnsent h sub hh hc ho =>
    have hput : (e.put h { sub with closed := true }).Signalled :=
      hs.put (held_eq_some_iff.mp hh).1 fun _ => Or.inl rfl
    exact hput.congr id rfl rfl
  | dropped h sub hh =>
    have hput : (e.put h sub.drop).Signalled := hs.put (held_eq_some_iff.mp hh).1 id
    exact hput
  | connectionDropped ha => exact fun ha' => (by cases ha')

theorem signalled_run (peerId : P) (remoteRecipient : R) (id : ConnectionId)
    (outboundTx : Chan (OutboundMessage P R)) {ops : List Op} {e : Endpoint P R} {as : List Answer}
    (hrun : run step (new peerId remoteRecipient id outboundTx) ops = .ok (e, as)) :
    e.Signalled := by
  have hw := wf_new peerId remoteRecipient id outboundTx
  refine run_induction (I := fun _ _ (e : Endpoint P R) => e.Signalled) ?_ ?_ hrun
  · intro _ h sub hs
    cases hs
  · intro xs as m o t a hr ih hs
    have hwm := wf_run hw hr
    exact signalled_steps hwm ih (steps_of_step hwm hs)

/-- **When a read of a substream without a sender answers.**  In every state of every run, for every
substream that the application holds and whose sender the connection does not hold (any more), a
read with room in its buffer returns iff the connection was not dropped, or the substream refuses,
or something is left to read. -/
theorem read_orphan_iff (peerId : P) (remoteRecipient : R) (id : ConnectionId)
    (outboundTx : Chan (OutboundMessage P R)) {ops : List Op} {e : Endpoint P R} {as : List Answer}
    (hrun : run step (new peerId remoteRecipient id outboundTx) ops = .ok (e, as)) {h : ℕ}
    {sub : Substream R} (hh : e.held h = some sub)
    (hgone : ∀ s, e.conn.substreamInboundTxs s ≠ some h) {buf : Bytes} (hb : buf ≠ []) :
    (∃ r, (sub.pollRead buf).2.2 = .ready r) ↔
      e.Alive ∨ sub.closed = true ∨ sub.closeRx.slot = .sent () ∨ sub.unreadData ≠ [] ∨
        sub.inboundRx.queue ≠ [] := by
  obtain ⟨hsub, hrx, -⟩ := held_eq_some_iff.mp hh
  have hpend := Substream.pollRead_eq_pending_iff hrx hb
  have hready : (∃ r, (sub.pollRead buf).2.2 = .ready r) ↔ (sub.pollRead buf).2.2 ≠ .pending := by
    cases (sub.pollRead buf).2.2 with
    | ready r => exact ⟨fun _ => (fun hn => (by cases hn)), fun _ => ⟨r, rfl⟩⟩
    | pending => exact ⟨fun ⟨r, hr⟩ => (by cases hr), fun hn => absurd rfl hn⟩
  rw [hready, Ne, hpend]
  constructor
  · intro hn
    by_contra hcon
    push Not at hcon
    obtain ⟨-, hc, hs, hu, hq⟩ := hcon
    refine hn ⟨fun hr => ?_, hu, hq⟩
    exact hr.elim hc hs
  · rintro (ha | hc | hs | hu | hq) ⟨hr, hu', hq'⟩
    · exact hr (signalled_run peerId remoteRecipient id outboundTx hrun ha h sub hsub hgone)
    · exact hr (Or.inl hc)
    · exact hr (Or.inr hs)
    · exact hu hu'
    · exact hq hq'

/-- A substream is opened, and the remote closes it. -/
def sampleRemoteClose : List Op := [.pollOutbound ⟨.fill 2⟩, .receive ⟨⟨.fill 2⟩, .close⟩, .poll]

/-- The connection is still there, so the read answers. -/
theorem read_orphan_sampleRemoteClose :
    ∃ e as sub, run step sample sampleRemoteClose = .ok (e, as) ∧ e.held 0 = some sub ∧
      ∃ r, (sub.pollRead [0]).2.2 = .ready r := by
  have hstate : ∃ e as sub, run step sample sampleRemoteClose = .ok (e, as) ∧ e.held 0 = some sub ∧
      e.conn.substreamInboundTxs
        = (KeyMap.empty.insert ⟨.fill 2⟩ 0).remove (⟨.fill 2⟩ : SubstreamId) ∧ e.Alive :=
    ⟨_, _, _, rfl, rfl, rfl, rfl⟩
  obtain ⟨e, as, sub, hrun, hh, htxs, ha⟩ := hstate
  refine ⟨e, as, sub, hrun, hh, ?_⟩
  refine (read_orphan_iff _ _ _ _ hrun hh (fun s hs => ?_) (List.cons_ne_nil 0 [])).mpr (Or.inl ha)
  rw [htxs] at hs
  obtain ⟨hne, hs⟩ := KeyMap.remove_eq_some_iff.mp hs
  rw [KeyMap.insert_of_ne _ _ hne] at hs
  cases hs

/-- A substream is opened, and its connection is dropped. -/
def sampleOrphan : List Op := [.pollOutbound ⟨.fill 2⟩, .dropConnection, .read 0 [0]]

/-- No sender is left, and the read is pending all the same, as is every later one. -/
theorem read_pending_sampleOrphan :
    ∃ e as sub, run step sample sampleOrphan = .ok (e, as) ∧
      as.getLast? = some (.read [0] .pending) ∧
      e.held 0 = some sub ∧ (∀ s, e.conn.substreamInboundTxs s ≠ some 0) ∧
      sub.inboundRx.txAlive = false ∧ (sub.pollRead [0]).2.2 = .pending :=
  ⟨_, _, _, rfl, rfl, rfl, fun _ hs => (by cases hs), rfl, rfl⟩

end Endpoint

end Libp2pNym
