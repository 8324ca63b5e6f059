import Libp2pNym.Connection.Equiv.Step

/-!
# What an operation does to a substream

`Touch e o e' k sub sub'` lists what the operation `o` can make of the substream `sub` with the
handle `k`, other than by reading from it.  The invariants that speak of one substream at a time are
proved from it (`touches_handles`, `touches_steps`).
-/

namespace Libp2pNym.Endpoint

variable {P R : Type}

/-- The remote's close was handled: the sender of the substream is gone, and the signal is sent. -/
def signalled (sub : Substream R) : Substream R :=
  { sub with
    inboundRx := sub.inboundRx.dropTx
    closeRx := { sub.closeRx with slot := .sent () } }

/-- What becomes of the substream `sub` with the handle `k`. -/
inductive Touch (e : Endpoint P R) (o : Op) (e' : Endpoint P R) (k : ℕ) (sub : Substream R) :
    Substream R → Prop
  | same : Touch e o e' k sub sub
  | received (d : Bytes) : Touch e o e' k sub (receivedData sub d)
  | signalled (s : SubstreamId) (hs : e.conn.substreamInboundTxs s = some k)
      (hs' : e'.conn.substreamInboundTxs s = none) : Touch e o e' k sub (signalled sub)
  | checked : Touch e o e' k sub sub.checkClosed.2
  | closed (ho : o = .close k) : Touch e o e' k sub { sub with closed := true }
  | dropped : Touch e o e' k sub sub.drop
  | orphaned (hs' : ∀ s, e'.conn.substreamInboundTxs s = none) :
    Touch e o e' k sub (e.afterDrop k sub)

/-- The substreams that there were are touched in one of these ways, new ones have nothing to read,
and no other sender was registered. -/
structure Touches (e : Endpoint P R) (o : Op) (e' : Endpoint P R) : Prop where
  kept : ∀ k sub, e.substreams k = some sub →
    ∃ sub', e'.substreams k = some sub' ∧ Touch e o e' k sub sub'
  fresh : ∀ k sub', e.substreams k = none → e'.substreams k = some sub' →
    sub'.unreadData = [] ∧ sub'.inboundRx.got = [] ∧ sub'.inboundRx.txAlive = true
  registered : ∀ s k, e'.conn.substreamInboundTxs s = some k →
    e.conn.substreamInboundTxs s = some k ∨ e.substreams k = none

section

variable {e e' : Endpoint P R} {o : Op}

/-- Nothing is touched. -/
theorem Touches.of_eq (hsubs : e'.substreams = e.substreams)
    (htxs : e'.conn.substreamInboundTxs = e.conn.substreamInboundTxs) : Touches e o e' where
  kept k sub hk := ⟨sub, hsubs ▸ hk, .same⟩
  fresh k sub' hk hk' := by
    rw [hsubs, hk] at hk'
    cases hk'
  registered s k hs := Or.inl (htxs ▸ hs)

/-- One substream is touched. -/
theorem Touches.insert {h : ℕ} {sub sub' : Substream R} (hsub : e.substreams h = some sub)
    (hsubs : e'.substreams = e.substreams.insert h sub')
    (htxs : ∀ s k, e'.conn.substreamInboundTxs s = some k →
      e.conn.substreamInboundTxs s = some k) (ht : Touch e o e' h sub sub') : Touches e o e' where
  kept k sub₁ hk := by
    by_cases hkh : k = h
    · subst hkh
      rw [hsub] at hk
      cases hk
      exact ⟨sub', by rw [hsubs, KeyMap.insert_self], ht⟩
    · exact ⟨sub₁, by rw [hsubs, KeyMap.insert_of_ne _ _ hkh, hk], .same⟩
  fresh k sub₁ hk hk' := by
    rw [hsubs] at hk'
    rcases KeyMap.insert_eq_some_iff.mp hk' with ⟨rfl, -⟩ | ⟨-, hk'⟩
    · rw [hsub] at hk
      cases hk
    · rw [hk] at hk'
      cases hk'
  registered s k hs := Or.inl (htxs s k hs)

/-- A substream is added and registered. -/
theorem Touches.add (hw : e.Wf) {s : SubstreamId} {sub' : Substream R}
    (hsubs : e'.substreams = e.substreams.insert e.next sub')
    (htxs : e'.conn.substreamInboundTxs = e.conn.substreamInboundTxs.insert s e.next)
    (hnew : sub'.unreadData = [] ∧ sub'.inboundRx.got = [] ∧ sub'.inboundRx.txAlive = true) :
    Touches e o e' where
  kept k sub hk := by
    have hne : k ≠ e.next := Nat.ne_of_lt (hw.lt_next hk)
    exact ⟨sub, by rw [hsubs, KeyMap.insert_of_ne _ _ hne, hk], .same⟩
  fresh k sub₁ hk hk' := by
    rw [hsubs] at hk'
    rcases KeyMap.insert_eq_some_iff.mp hk' with ⟨-, rfl⟩ | ⟨-, hk'⟩
    · exact hnew
    · rw [hk] at hk'
      cases hk'
  registered s' k hs := by
    rw [htxs] at hs
    rcases KeyMap.insert_eq_some_iff.mp hs with ⟨-, rfl⟩ | ⟨-, hs⟩
    · exact Or.inr (hw.fresh _ (le_refl _))
    · exact Or.inl hs

theorem touches_handles (hw : e.Wf) {s : SubstreamId} {ty : SubstreamMessageType}
    {r : Except Error Unit} (hh : Handles e s ty e' r) : Touches e o e' := by
  cases hh with
  | openExists h hs => exact Touches.of_eq rfl rfl
  | openAccepted hs ha => exact Touches.add hw rfl rfl ⟨rfl, rfl, rfl⟩
  | openUnanswered hs ha =>
    have hnew : (e.opened s).substreams e.next
        = some (.new e.conn.remoteRecipient e.conn.id s Chan.new Oneshot.new) :=
      KeyMap.insert_self ..
    have hsubs : (e.unanswered s).substreams = e.substreams.insert e.next
        (Substream.drop (.new e.conn.remoteRecipient e.conn.id s Chan.new Oneshot.new)) :=
      (KeyMap.modify_eq_insert _ Substream.drop hnew).trans (KeyMap.insert_insert ..)
    exact Touches.add hw hsubs rfl ⟨rfl, rfl, rfl⟩
  | openResponse => exact Touches.of_eq rfl rfl
  | closeUnknown hs => exact Touches.of_eq rfl rfl
  | closed h sub hs hsub halive =>
    refine Touches.insert hsub rfl (fun s' k hs' => ?_) (.signalled s hs (KeyMap.remove_self ..))
    exact (KeyMap.remove_eq_some_iff.mp hs').2
  | data h d hs =>
    obtain ⟨sub, hsub, -⟩ := hw.registered s h hs
    rw [sendData_eq_put hsub]
    exact Touches.insert hsub rfl (fun _ _ hs' => hs') (.received d)

theorem touches_dropConnection (e : Endpoint P R) : Touches e .dropConnection e.dropConnection where
  kept k sub hk := by
    refine ⟨e.afterDrop k sub, ?_, .orphaned fun _ => rfl⟩
    rw [substreams_dropConnection, hk, Option.map_some]
  fresh k sub' hk hk' := by
    rw [substreams_dropConnection, hk] at hk'
    cases hk'
  registered s k hs' := by cases hs'

/-- **An operation that takes no message and reads nothing** touches the substreams in these ways.
-/
theorem touches_steps (hw : e.Wf) {a : Answer} (hs : Steps e o e' a) (hp : o ≠ .poll)
    (hr : ∀ h buf, o ≠ .read h buf) : Touches e o e' := by
  have hput : ∀ {h sub sub' e₁}, e.held h = some sub → e₁.substreams = e.substreams.insert h sub' →
      e₁.conn.substreamInboundTxs = e.conn.substreamInboundTxs → Touch e o e₁ h sub sub' →
      Touches e o e₁ :=
    fun hh hsubs htxs => Touches.insert (held_eq_some_iff.mp hh).1 hsubs fun _ _ hs => htxs ▸ hs
  cases hs with
  | poll e' r ha h => exact absurd rfl hp
  | requested s ha hs' ho => exact Touches.add hw rfl rfl ⟨rfl, rfl, rfl⟩
  | read h sub buf hh => exact absurd rfl (hr h buf)
  | writeRefused h sub buf hh => exact hput hh rfl rfl .checked
  | flushed h sub hh =>
    have hflush : sub.pollFlush.1 = sub.checkClosed.2 := by
      unfold Substream.pollFlush
      split <;> simp [*]
    exact hput hh rfl rfl (hflush ▸ .checked)
  | closedLocally h sub hh hc ho => exact hput hh rfl rfl (.closed rfl)
  | closeUnsent h sub hh hc ho => exact hput hh rfl rfl (.closed rfl)
  | dropped h sub hh => exact hput hh rfl rfl .dropped
  | connectionDropped ha => exact touches_dropConnection e
  | _ => exact Touches.of_eq rfl rfl

end

end Libp2pNym.Endpoint
