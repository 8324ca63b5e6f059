import Libp2pNym.Connection.Equiv.Poll
import Libp2pNym.Connection.Equiv.Touch
import Libp2pNym.Connection.Waker
import Libp2pNym.Substream.Equiv.Read

/-!
# Which wake-ups are lost

`no_lost_wakeup`: in every run of a connection and its substreams whose calls do not overlap, a task
that waits has nothing to do.  The one exception is a read that waits while the application closes
the substream itself: it would be refused now, but nothing wakes it.  Where calls overlap more are
lost: a read between the two effects of `handle_close` misses the signal (`MissesSignal`).

The invariant is `Asleep`.  What an operation can do to a substream that is not read is `Rests`: as
long as the receiver was not woken, it finds what was there.
-/

namespace Libp2pNym

open StepRun

variable {P R : Type}

namespace Substream

/-- A read with a buffer of the length `n` has nothing to return, and no close signal is there. -/
structure Idle (s : Substream R) (n : ℕ) : Prop where
  queue : s.inboundRx.queue = []
  unread : n = 0 ∨ s.unreadData = []
  signal : s.closeRx.slot ≠ .sent ()

/-- From `s` to `s'` nothing was read: a receiver that was not woken finds no more than before, and
`closes` if the substream is closed now. -/
structure Rests (closes : Prop) (s s' : Substream R) : Prop where
  fed : s.inboundRx.Fed s'.inboundRx
  unread : s'.unreadData = s.unreadData
  calm : s.inboundRx.wakes s'.inboundRx = false → s.closeRx.slot ≠ .sent () →
    s'.closeRx.slot ≠ .sent () ∧ (s'.closed = true → s.closed = true ∨ closes)

section

variable {closes : Prop} {s s₁ s' : Substream R}

theorem Rests.refl (closes : Prop) (s : Substream R) : s.Rests closes s where
  fed := Chan.Fed.refl _
  unread := rfl
  calm _ hs := ⟨hs, Or.inl⟩

theorem Rests.trans (h : s.Rests closes s₁) (h' : s₁.Rests closes s') : s.Rests closes s' where
  fed := h.fed.trans h'.fed
  unread := h'.unread.trans h.unread
  calm hw hs := by
    obtain ⟨hw₁, hw'⟩ := h.fed.wakes_trans h'.fed hw
    obtain ⟨hs₁, hc₁⟩ := h.calm hw₁ hs
    obtain ⟨hs', hc'⟩ := h'.calm hw' hs₁
    exact ⟨hs', fun hc => (hc' hc).elim hc₁ Or.inr⟩

theorem rests_drop (closes : Prop) (s : Substream R) : s.Rests closes s.drop where
  fed := ⟨⟨[], (List.append_nil _).symm⟩, rfl, id⟩
  unread := rfl
  calm _ hs := ⟨hs, Or.inl⟩

/-- A read that was not woken still has nothing to return. -/
theorem Idle.rests {n : ℕ} (hi : s.Idle n) (h : s.Rests closes s')
    (hw : s.inboundRx.wakes s'.inboundRx = false) :
    s'.Idle n ∧ (s'.closed = true → s.closed = true ∨ closes) := by
  obtain ⟨hsignal, hclosed⟩ := h.calm hw hi.signal
  refine ⟨⟨?_, ?_, hsignal⟩, hclosed⟩
  · rw [h.fed.queue_eq hw, hi.queue]
  · rw [h.unread]
    exact hi.unread

theorem pollRead_of_idle {buf : Bytes} (ha : s.inboundRx.rxAlive = true) (hi : s.Idle buf.length)
    (hc : s.closed = false) : s.pollRead buf = (s, buf, .pending) := by
  have hfill : s.fillFromUnread buf = (s, buf, 0) := by
    unfold fillFromUnread
    split
    · rename_i hpos
      -- there is unread data, so the buffer has no room
      have hbuf : buf = [] := by
        refine List.length_eq_zero_iff.mp (hi.unread.resolve_right fun hnil => ?_)
        rw [hnil] at hpos
        cases hpos
      rw [hbuf]
      simp only [List.length_nil, Nat.min_zero, List.drop_zero, List.take_zero]
      rfl
    · rfl
  rw [pollRead_of_nil ⟨hc, hi.signal, ha⟩ hi.queue, hfill]
  rfl

theorem idle_of_pending {buf : Bytes} (ha : s.inboundRx.rxAlive = true)
    (h : (s.pollRead buf).2.2 = .pending) : s.Idle buf.length ∧ s.closed = false := by
  have hopen : s.IsOpen := by
    by_contra hnot
    have hr : s.Refuses := by
      unfold Refuses
      by_contra hr
      push Not at hr
      exact hnot ⟨Bool.eq_false_iff.mpr hr.1, hr.2, ha⟩
    rw [pollRead_of_refuses hr] at h
    cases h
  -- a chunk in the channel is returned at once
  cases hq : s.inboundRx.queue with
  | cons data queue =>
    rw [pollRead_of_cons hopen hq] at h
    dsimp only at h
    split at h <;> cases h
  | nil =>
    rw [pollRead_of_nil hopen hq, (fillFromUnread_spec s buf).2.2.1] at h
    dsimp only at h
    split at h
    · cases h
    · rename_i hmin
      refine ⟨⟨hq, ?_, hopen.signal⟩, hopen.closed⟩
      rw [← List.length_eq_zero_iff]
      omega

end

end Substream

namespace Endpoint

section

variable {e e' : Endpoint P R} {o : Op} {a : Answer}

/-! ### Senders -/

/-- Every registered substream has a sender. -/
def Senders (e : Endpoint P R) : Prop :=
  ∀ s k sub, e.conn.substreamInboundTxs s = some k → e.substreams k = some sub →
    sub.inboundRx.txAlive = true

theorem Touches.senders (hw : e.Wf) (hsend : e.Senders) (ht : Touches e o e') : e'.Senders := by
  intro s k sub' hs hk'
  cases hk : e.substreams k with
  | none => exact (ht.fresh k sub' hk hk').2.2
  | some sub =>
    obtain ⟨sub₁, hk₁, htouch⟩ := ht.kept k sub hk
    rw [hk'] at hk₁
    cases hk₁
    have hold : e.conn.substreamInboundTxs s = some k := by
      rcases ht.registered s k hs with hold | hnone
      · exact hold
      · rw [hk] at hnone
        cases hnone
    have htx := hsend s k sub hold hk
    cases htouch with
    | received d =>
      simp only [receivedData, Chan.send]
      split <;> exact htx
    | signalled s₁ hs₁ hs₁' =>
      -- the sender of a substream that was closed is not registered any more
      rw [hw.id_unique hold hs₁, hs₁'] at hs
      cases hs
    | checked => rw [(Substream.stays_checkClosed sub).txAlive, htx]
    | orphaned hs' =>
      rw [hs' s] at hs
      cases hs
    | _ => exact htx

theorem senders_pollLoop {fuel : ℕ} {r : Poll (Except Error StreamMuxerEvent)} (hw : e.Wf)
    (hsend : e.Senders) (h : pollLoop fuel e = .ok (e', r)) : e'.Senders := by
  refine (pollLoop_induction (I := fun e₁ => e₁.Wf ∧ e₁.Senders) ?_ ⟨hw, hsend⟩ h).2
  rintro e₁ msg rest e₂ r ⟨hw₁, hsend₁⟩ hq hm
  have hw₂ := hw₁.took msg rest
  have hh := handles_of_handleMessage hw₂ hm
  have htouches : Touches (e₁.took msg rest) .poll e₂ := touches_handles hw₂ hh
  exact ⟨wf_handles hw₂ hh, htouches.senders hw₂ hsend₁⟩

theorem senders_steps (hw : e.Wf) (hsend : e.Senders) (hs : Steps e o e' a) : e'.Senders := by
  by_cases hp : o = .poll
  · subst hp
    cases hs with
    | skip => exact hsend
    | poll _ r ha h => exact senders_pollLoop hw hsend h
  · by_cases hr : ∃ h buf, o = .read h buf
    · obtain ⟨h, buf, rfl⟩ := hr
      cases hs with
      | skip => exact hsend
      | read _ sub _ hh =>
        intro s k sub' hreg hk
        rcases KeyMap.insert_eq_some_iff.mp hk with ⟨rfl, rfl⟩ | ⟨-, hk⟩
        · rw [(sub.stays_pollRead buf).txAlive]
          exact hsend s k sub hreg (held_eq_some_iff.mp hh).1
        · exact hsend s k sub' hreg hk
    · push Not at hr
      exact (touches_steps hw hs hp hr).senders hw hsend

/-! ### What a task that was not woken finds -/

theorem Touch.rests {k : ℕ} {sub sub' : Substream R} (hsend : e.Senders)
    (hk : e.substreams k = some sub) (ht : Touch e o e' k sub sub') :
    sub.Rests (o = .close k) sub' := by
  cases ht with
  | same => exact .refl _ _
  | received d => exact ⟨Chan.fed_send _ d, rfl, fun _ hs => ⟨hs, Or.inl⟩⟩
  | signalled s hs hs' =>
    refine ⟨Chan.fed_dropTx _, rfl, fun hw => ?_⟩
    -- dropping the only sender of the substream wakes its receiver
    have htx := (Chan.wakes_eq_false_iff.mp hw).2 (hsend s k sub hs hk)
    cases htx
  | checked =>
    have hstays := Substream.stays_checkClosed sub
    rcases Substream.checkClosed_cases sub with ⟨hr, -, -⟩ | ⟨hok, -, -⟩
    · have hsame : sub.checkClosed.2.inboundRx = sub.inboundRx ∧
          sub.checkClosed.2.unreadData = sub.unreadData := by
        unfold Substream.checkClosed
        dsimp only
        split
        · exact ⟨rfl, rfl⟩
        · split <;> exact ⟨rfl, rfl⟩
      refine ⟨hsame.1 ▸ Chan.Fed.refl _, hsame.2, fun _ hs => ?_⟩
      obtain ⟨hslot, hclosed⟩ := hstays.signal hs
      rw [hslot, hclosed]
      exact ⟨hs, Or.inl⟩
    · rw [hok]
      exact .refl _ _
  | closed ho => exact ⟨Chan.Fed.refl _, rfl, fun _ hs => ⟨hs, fun _ => Or.inr ho⟩⟩
  | dropped => exact Substream.rests_drop _ _
  | orphaned hs' =>
    have hslot : ∀ (p : Prop) [Decidable p], sub.closeRx.slot ≠ .sent () →
        (if p then sub.closeRx.dropTx else sub.closeRx).slot ≠ .sent () := by
      intro p _ hs
      split_ifs
      · unfold Oneshot.dropTx
        split
        · exact hs
        · exact fun heq => by cases heq
        · exact hs
      · exact hs
    have hfed : ∀ (p : Prop) [Decidable p],
        sub.inboundRx.Fed (if p then sub.inboundRx.dropTx else sub.inboundRx) := by
      intro p _
      split_ifs
      · exact Chan.fed_dropTx _
      · exact Chan.Fed.refl _
    have hgone : sub.Rests (o = .close k) { sub with
        inboundRx := if e.conn.substreamInboundTxs sub.substreamId = some k
          then sub.inboundRx.dropTx else sub.inboundRx
        closeRx := if e.conn.substreamCloseTxs sub.substreamId = some k
          then sub.closeRx.dropTx else sub.closeRx } :=
      ⟨hfed _, rfl, fun _ hs => ⟨hslot _ hs, Or.inl⟩⟩
    unfold afterDrop
    dsimp only
    by_cases hq : k ∈ e.conn.inboundOpen.queue
    · rw [if_pos hq]
      exact hgone.trans (Substream.rests_drop _ _)
    · rw [if_neg hq]
      exact hgone

/-- Nothing was taken from the channels of the endpoint that are not polled here. -/
structure Rests (e : Endpoint P R) (o : Op) (e' : Endpoint P R) : Prop where
  subs : ∀ k sub, e.substreams k = some sub →
    ∃ sub', e'.substreams k = some sub' ∧ sub.Rests (o = .close k) sub'
  opens : e.conn.inboundOpen.Fed e'.conn.inboundOpen
  closes : e.conn.closeIds.Fed e'.conn.closeIds

theorem Touches.rests (hsend : e.Senders) (ht : Touches e o e') {k : ℕ} {sub : Substream R}
    (hk : e.substreams k = some sub) :
    ∃ sub', e'.substreams k = some sub' ∧ sub.Rests (o = .close k) sub' := by
  obtain ⟨sub', hk', htouch⟩ := ht.kept k sub hk
  exact ⟨sub', hk', htouch.rests hsend hk⟩

theorem Rests.trans {e₁ : Endpoint P R} (h : Rests e o e₁) (h' : Rests e₁ o e') : Rests e o e' where
  subs k sub hk := by
    obtain ⟨sub₁, hk₁, hr⟩ := h.subs k sub hk
    obtain ⟨sub', hk', hr'⟩ := h'.subs k sub₁ hk₁
    exact ⟨sub', hk', hr.trans hr'⟩
  opens := h.opens.trans h'.opens
  closes := h.closes.trans h'.closes

theorem rests_handles (hw : e.Wf) (hsend : e.Senders) {s : SubstreamId} {ty : SubstreamMessageType}
    {r : Except Error Unit} (hh : Handles e s ty e' r) : Rests e .poll e' := by
  refine ⟨fun k sub hk => (touches_handles hw hh).rests hsend hk, ?_, ?_⟩
  · cases hh with
    | openAccepted hs ha => exact ⟨⟨[e.next], rfl⟩, rfl, id⟩
    | _ => exact Chan.Fed.refl _
  · cases hh with
    | closed h sub hs hsub halive => exact ⟨⟨[s], rfl⟩, rfl, id⟩
    | _ => exact Chan.Fed.refl _

theorem rests_pollLoop {fuel : ℕ} {r : Poll (Except Error StreamMuxerEvent)} (hw : e.Wf)
    (hsend : e.Senders) (h : pollLoop fuel e = .ok (e', r)) : Rests e .poll e' := by
  have hrefl : Rests e .poll e :=
    ⟨fun k sub hk => ⟨sub, hk, .refl _ _⟩, Chan.Fed.refl _, Chan.Fed.refl _⟩
  refine (pollLoop_induction (I := fun e₁ => e₁.Wf ∧ e₁.Senders ∧ Rests e .poll e₁) ?_
    ⟨hw, hsend, hrefl⟩ h).2.2
  rintro e₁ msg rest e₂ r ⟨hw₁, hsend₁, hrests⟩ hq hm
  have hw₂ := hw₁.took msg rest
  have hh := handles_of_handleMessage hw₂ hm
  have htouches : Touches (e₁.took msg rest) .poll e₂ := touches_handles hw₂ hh
  have htook : Rests (e₁.took msg rest) .poll e₂ := rests_handles hw₂ hsend₁ hh
  exact ⟨wf_handles hw₂ hh, htouches.senders hw₂ hsend₁,
    hrests.trans ⟨htook.subs, htook.opens, htook.closes⟩⟩

/-- `poll` answers `Pending` only when it has taken all messages. -/
theorem queue_pollLoop {fuel : ℕ} {r : Poll (Except Error StreamMuxerEvent)} (hw : e.Wf)
    (hfuel : e.conn.inboundRx.queue.length < fuel) (h : pollLoop fuel e = .ok (e', r))
    (hr : r.isPending = true) : e'.conn.inboundRx.queue = [] := by
  induction fuel generalizing e with
  | zero => cases hfuel
  | succ fuel ih =>
    cases hq : e.conn.inboundRx.queue with
    | nil =>
      rw [pollLoop_succ_of_nil hq] at h
      cases h
      exact hq
    | cons msg rest =>
      rw [pollLoop_succ_of_cons hq] at h
      cases hm : (e.took msg rest).handleMessage msg with
      | error p =>
        rw [hm] at h
        cases h
      | ok v =>
        obtain ⟨e₁, r₁⟩ := v
        rw [hm] at h
        -- an error is returned, and is not `Pending`
        cases r₁ with
        | error err =>
          cases h
          cases hr
        | ok u =>
          have hw₁ := hw.took msg rest
          have hh := handles_of_handleMessage hw₁ hm
          refine ih (wf_handles hw₁ hh) ?_ h
          rw [queue_handles hh]
          rw [hq, List.length_cons] at hfuel
          exact Nat.lt_of_succ_lt_succ hfuel

/-! ### One operation -/

theorem inboundRx_steps (hs : Steps e o e' a) (ho : o ≠ .poll) :
    e.conn.inboundRx.Fed e'.conn.inboundRx := by
  cases hs with
  | receive msg ha => exact ⟨⟨[msg], rfl⟩, rfl, id⟩
  | poll e' r ha h => exact absurd rfl ho
  | connectionDropped ha => exact ⟨⟨[], (List.append_nil _).symm⟩, rfl, id⟩
  | _ => exact Chan.Fed.refl _

theorem inboundOpen_steps (hw : e.Wf) (hsend : e.Senders) (hs : Steps e o e' a)
    (ho : o ≠ .pollInbound) :
    e.conn.inboundOpen.Fed e'.conn.inboundOpen ∨ e'.conn.inboundOpen.queue = [] := by
  cases hs with
  | poll e' r ha h => exact Or.inl (rests_pollLoop hw hsend h).opens
  | yielded h rest ha hq => exact absurd rfl ho
  | connectionDropped ha => exact Or.inr rfl
  | _ => exact Or.inl (Chan.Fed.refl _)

theorem closeIds_steps (hw : e.Wf) (hsend : e.Senders) (hs : Steps e o e' a) (ho : o ≠ .pollClose) :
    e.conn.closeIds.Fed e'.conn.closeIds := by
  cases hs with
  | poll e' r ha h => exact (rests_pollLoop hw hsend h).closes
  | closeReported s rest hq => exact absurd rfl ho
  | _ => exact Chan.Fed.refl _

theorem substreams_steps (hw : e.Wf) (hsend : e.Senders) (hs : Steps e o e' a) {k : ℕ}
    (ho : ∀ buf, o ≠ .read k buf) {sub : Substream R} (hk : e.substreams k = some sub) :
    ∃ sub', e'.substreams k = some sub' ∧ sub.Rests (o = .close k) sub' := by
  by_cases hp : o = .poll
  · subst hp
    cases hs with
    | skip => exact ⟨sub, hk, .refl _ _⟩
    | poll _ r ha h => exact (rests_pollLoop hw hsend h).subs k sub hk
  · by_cases hr : ∃ h buf, o = .read h buf
    · obtain ⟨h, buf, rfl⟩ := hr
      have hne : k ≠ h := fun heq => ho buf (heq ▸ rfl)
      cases hs with
      | skip => exact ⟨sub, hk, .refl _ _⟩
      | read _ sub₁ _ hh => exact ⟨sub, (KeyMap.insert_of_ne _ _ hne).trans hk, .refl _ _⟩
    · push Not at hr
      exact (touches_steps hw hs hp hr).rests hsend hk

end

/-- A task that waits has nothing to do, but for the read of a substream that was closed. -/
structure Asleep (ops : List Op) (e : Endpoint P R) (w : Waits) : Prop where
  poll : w.poll = true → e.conn.inboundRx.queue = []
  inbound : w.inbound = true → e.conn.inboundOpen.queue = []
  close : w.close = true → e.conn.closeIds.queue = []
  read : ∀ k n, w.read k = some n → ∃ sub, e.substreams k = some sub ∧ sub.Idle n ∧
    (sub.closed = true → .close k ∈ ops)

section

variable {e e' : Endpoint P R} {o : Op} {a : Answer} {w : Waits} {ops : List Op}

/-- A task that waited at a channel and was not woken. -/
theorem queue_of_not_woken {α : Type} {c c' : Chan α} {b : Bool} (hc : b = true → c.queue = [])
    (hf : c.Fed c') (h : (b && !c.wakes c') = true) : c'.queue = [] := by
  rw [Bool.and_eq_true, Bool.not_eq_true'] at h
  rw [hf.queue_eq h.2, hc h.1]

theorem asleep_poll (hw : e.Wf) (ha : Asleep ops e w) (hs : Steps e o e' a)
    (h : ((w.woken e e').answered o a).poll = true) : e'.conn.inboundRx.queue = [] := by
  -- the task has polled itself, or it has waited through another operation
  by_cases ho : o = .poll
  · subst ho
    cases hs with
    | skip => exact queue_of_not_woken ha.poll (Chan.Fed.refl _) h
    | poll _ r halive hp => exact queue_pollLoop hw (Nat.lt_succ_self _) hp h
  · have hsame : ((w.woken e e').answered o a).poll = (w.woken e e').poll := by
      unfold Waits.answered
      split <;> first | rfl | exact absurd rfl ho
    exact queue_of_not_woken ha.poll (inboundRx_steps hs ho) (hsame.symm.trans h)

theorem asleep_inbound (hw : e.Wf) (hsend : e.Senders) (ha : Asleep ops e w) (hs : Steps e o e' a)
    (h : ((w.woken e e').answered o a).inbound = true) : e'.conn.inboundOpen.queue = [] := by
  by_cases ho : o = .pollInbound
  · subst ho
    cases hs with
    | skip => exact queue_of_not_woken ha.inbound (Chan.Fed.refl _) h
    | yielded k rest halive hq => cases h
    | notYielded hq => exact hq
  · have hsame : ((w.woken e e').answered o a).inbound = (w.woken e e').inbound := by
      unfold Waits.answered
      split <;> first | rfl | exact absurd rfl ho
    rcases inboundOpen_steps hw hsend hs ho with hfed | hnil
    · exact queue_of_not_woken ha.inbound hfed (hsame.symm.trans h)
    · exact hnil

theorem asleep_close (hw : e.Wf) (hsend : e.Senders) (ha : Asleep ops e w) (hs : Steps e o e' a)
    (h : ((w.woken e e').answered o a).close = true) : e'.conn.closeIds.queue = [] := by
  by_cases ho : o = .pollClose
  · subst ho
    cases hs with
    | skip => exact queue_of_not_woken ha.close (Chan.Fed.refl _) h
    | closeReported s rest hq => cases h
    | closeNotReported hq => exact hq
  · have hsame : ((w.woken e e').answered o a).close = (w.woken e e').close := by
      unfold Waits.answered
      split <;> first | rfl | exact absurd rfl ho
    exact queue_of_not_woken ha.close (closeIds_steps hw hsend hs ho) (hsame.symm.trans h)

/-- A read that waited and was not woken. -/
theorem Asleep.read_woken (ha : Asleep ops e w) {k n : ℕ}
    (hrest : ∀ sub, e.substreams k = some sub →
      ∃ sub', e'.substreams k = some sub' ∧ sub.Rests (o = .close k) sub')
    (h : (w.woken e e').read k = some n) : ∃ sub, e'.substreams k = some sub ∧ sub.Idle n ∧
      (sub.closed = true → .close k ∈ ops ++ [o]) := by
  simp only [Waits.woken] at h
  split at h
  · rename_i sub sub' hk hk'
    split at h
    · cases h
    · rename_i hwakes
      obtain ⟨sub₀, hk₀, hidle, hclosed⟩ := ha.read k n h
      rw [hk] at hk₀
      cases hk₀
      obtain ⟨sub₁, hk₁, hrests⟩ := hrest sub hk
      rw [hk'] at hk₁
      cases hk₁
      obtain ⟨hidle', hclosed'⟩ := hidle.rests hrests (Bool.eq_false_iff.mpr hwakes)
      refine ⟨sub', hk', hidle', fun hc => ?_⟩
      -- it was closed before, or this operation is the close
      rcases hclosed' hc with hc | rfl
      · exact List.mem_append_left _ (hclosed hc)
      · exact List.mem_append_right _ (List.mem_singleton_self _)
  · cases h

theorem asleep_read (hw : e.Wf) (hsend : e.Senders) (ha : Asleep ops e w) (hs : Steps e o e' a)
    {k n : ℕ} (h : ((w.woken e e').answered o a).read k = some n) :
    ∃ sub, e'.substreams k = some sub ∧ sub.Idle n ∧
      (sub.closed = true → .close k ∈ ops ++ [o]) := by
  -- the task has read itself, or it has waited through another operation
  by_cases ho : ∃ buf, o = .read k buf
  · obtain ⟨buf, rfl⟩ := ho
    cases hs with
    | skip =>
      -- the substream was dropped, and nothing has changed
      exact ha.read_woken (fun sub hk => ⟨sub, hk, .refl _ _⟩) h
    | read _ sub _ hh =>
      obtain ⟨hk, halive, -⟩ := held_eq_some_iff.mp hh
      have hread : (if (sub.pollRead buf).2.2.isPending then some buf.length else none)
          = some n := by
        have hself := h
        simp only [Waits.answered, Function.update_self] at hself
        exact hself
      split at hread
      · rename_i hpending
        cases hread
        have hp : (sub.pollRead buf).2.2 = .pending := by
          cases hr : (sub.pollRead buf).2.2 with
          | ready r =>
            rw [hr] at hpending
            cases hpending
          | pending => rfl
        obtain ⟨hidle, hopen⟩ := Substream.idle_of_pending halive hp
        rw [Substream.pollRead_of_idle halive hidle hopen]
        refine ⟨sub, KeyMap.insert_self .., hidle, fun hc => ?_⟩
        rw [hopen] at hc
        cases hc
      · cases hread
  · push Not at ho
    have hsame : ((w.woken e e').answered o a).read k = (w.woken e e').read k := by
      unfold Waits.answered
      split
      · rfl
      · rfl
      · rfl
      · rename_i j buf _ r
        have hne : k ≠ j := fun heq => ho buf (heq ▸ rfl)
        exact Function.update_of_ne hne ..
      · rfl
    exact ha.read_woken (fun sub => substreams_steps hw hsend hs ho) (hsame.symm.trans h)

/-- **One operation**: the tasks that wait after it have nothing to do. -/
theorem asleep_steps (hw : e.Wf) (hsend : e.Senders) (ha : Asleep ops e w) (hs : Steps e o e' a) :
    Asleep (ops ++ [o]) e' ((w.woken e e').answered o a) where
  poll h := asleep_poll hw ha hs h
  inbound h := asleep_inbound hw hsend ha hs h
  close h := asleep_close hw hsend ha hs h
  read _ _ h := asleep_read hw hsend ha hs h

/-! ### Between the two effects of `handle_close` -/

/-- Another task reads from the substream after `handle_close` has dropped the inbound sender, which
wakes the reader, and before it sends the signal: the read waits, and the signal wakes nobody,
though the read would be refused now. -/
def MissesSignal (e : Endpoint P R) (s : SubstreamId) (k : ℕ) (buf : Bytes) : Prop :=
  (e.dropInboundTx s k).step (.read k buf) = .ok (e.dropInboundTx s k, .read buf .pending) ∧
  ∃ e' sub sub', (e.dropInboundTx s k).notifyClosed s = .ok (e', .ok ()) ∧
    (e.dropInboundTx s k).substreams k = some sub ∧ e'.substreams k = some sub' ∧
    sub.inboundRx.wakes sub'.inboundRx = false ∧
    (sub'.pollRead buf).2.2 = .ready (.error streamClosed)

theorem missesSignal_of_pending (hw : e.Wf) {s : SubstreamId} {k : ℕ} {sub : Substream R}
    {buf : Bytes} (hs : e.conn.substreamInboundTxs s = some k) (hh : e.held k = some sub)
    (hp : (sub.pollRead buf).2.2 = .pending) : e.MissesSignal s k buf := by
  obtain ⟨hk, halive, hnew⟩ := held_eq_some_iff.mp hh
  obtain ⟨hidle, hopen⟩ := Substream.idle_of_pending halive hp
  have hk₁ : (e.dropInboundTx s k).substreams k
      = some { sub with inboundRx := sub.inboundRx.dropTx } := by
    show e.substreams.modify k _ k = _
    rw [KeyMap.modify_eq_insert _ _ hk, KeyMap.insert_self]
  have hh₁ := held_eq_some_iff.mpr ⟨hk₁, halive, hnew⟩
  have hidle₁ : Substream.Idle { sub with inboundRx := sub.inboundRx.dropTx } buf.length :=
    ⟨hidle.queue, hidle.unread, hidle.signal⟩
  -- the loop of the read ends where the sender is gone, as it does on an empty queue
  have hread : Substream.pollRead { sub with inboundRx := sub.inboundRx.dropTx } buf
      = ({ sub with inboundRx := sub.inboundRx.dropTx }, buf, .pending) :=
    Substream.pollRead_of_idle halive hidle₁ hopen
  refine ⟨?_, e.closedBy s k sub, _, _, ?_, hk₁, KeyMap.insert_self .., ?_, ?_⟩
  · simp only [step, hh₁, hread]
    rw [put_self hk₁]
  · rw [notifyClosed_of_some hw hs hk, if_pos ((hw.halves k sub hk).trans halive)]
  · -- the sender was gone before the signal was sent
    exact Chan.wakes_eq_false_iff.mpr ⟨Nat.le_refl _, id⟩
  · rw [Substream.pollRead_of_refuses]
    exact Or.inr rfl

/-! ### Runs -/

theorem step_of_stepWaits {s s' : Endpoint P R × Waits} (h : stepWaits s o = .ok (s', a)) :
    s.1.step o = .ok (s'.1, a) ∧ s'.2 = (s.2.woken s.1 s'.1).answered o a := by
  unfold stepWaits at h
  split at h
  · cases h
  · rename_i e₁ a₁ hs
    cases h
    exact ⟨hs, rfl⟩

theorem asleep_run {peerId : P} {remoteRecipient : R} {id : ConnectionId}
    {outboundTx : Chan (OutboundMessage P R)} {as : List Answer} {s : Endpoint P R × Waits}
    (h : run stepWaits (new peerId remoteRecipient id outboundTx, Waits.new) ops = .ok (s, as)) :
    s.1.Wf ∧ Asleep ops s.1 s.2 := by
  have h0 : Asleep [] (new peerId remoteRecipient id outboundTx) Waits.new :=
    ⟨nofun, nofun, nofun, nofun⟩
  suffices hI : s.1.Wf ∧ s.1.Senders ∧ Asleep ops s.1 s.2 from ⟨hI.1, hI.2.2⟩
  refine run_induction (I := fun ops _ (s : Endpoint P R × Waits) =>
    s.1.Wf ∧ s.1.Senders ∧ Asleep ops s.1 s.2) ?_ ?_ h
  · exact ⟨wf_new .., fun s k sub hs => (by cases hs), h0⟩
  · rintro xs es s o s' a - ⟨hw, hsend, ha⟩ hs
    obtain ⟨hstep, hwaits⟩ := step_of_stepWaits hs
    have hsteps := steps_of_step hw hstep
    rw [hwaits]
    exact ⟨wf_steps hw hsteps, senders_steps hw hsend hsteps, asleep_steps hw hsend ha hsteps⟩

/-- **Which wake-ups are lost.**  In every state of every run of a connection and its substreams
whose calls do not overlap: a task that was answered `Pending` by `poll`, `poll_inbound` or
`poll_close` and not woken since would be answered `Pending` again, with nothing changed.  So would
a task that waits for a read, with a buffer of the same length, as long as the substream is open; if
it is closed, the read would be refused, and the application has closed the substream itself, which
wakes nobody.

Where a read overlaps with the `handle_close` of its substream, more are lost, in each of these
states: a read that would wait now, and comes between the two effects, misses the signal. -/
theorem no_lost_wakeup (peerId : P) (remoteRecipient : R) (id : ConnectionId)
    (outboundTx : Chan (OutboundMessage P R)) {as : List Answer}
    (hrun : run stepWaits (new peerId remoteRecipient id outboundTx, Waits.new) ops
      = .ok ((e, w), as)) :
    (w.poll = true → e.Alive → e.step .poll = .ok (e, .poll .pending)) ∧
    (w.inbound = true → e.Alive → e.step .pollInbound = .ok (e, .pollInbound .pending)) ∧
    (w.close = true → e.Alive → e.step .pollClose = .ok (e, .pollClose .pending)) ∧
    (∀ k sub buf, w.read k = some buf.length → e.held k = some sub →
      (sub.closed = false → e.step (.read k buf) = .ok (e, .read buf .pending)) ∧
      (sub.closed = true → (sub.pollRead buf).2.2 = .ready (.error streamClosed) ∧
        .close k ∈ ops)) ∧
    ∀ s k sub buf, e.conn.substreamInboundTxs s = some k → e.held k = some sub →
      (sub.pollRead buf).2.2 = .pending → e.MissesSignal s k buf := by
  obtain ⟨hw, ha⟩ : e.Wf ∧ Asleep ops e w := asleep_run hrun
  refine ⟨fun h halive => ?_, fun h halive => ?_, fun h halive => ?_, fun k sub buf h hh => ?_,
    fun s k sub buf => missesSignal_of_pending hw⟩
  · have hpoll : e.poll = .ok (e, .pending) := pollLoop_succ_of_nil (ha.poll h) _
    simp only [step, if_pos halive, hpoll]
  · have hpoll : e.pollInbound = (e, .pending) := by
      unfold pollInbound
      rw [Chan.pollRecv_of_nil (ha.inbound h)]
      cases e.conn.inboundOpen.txAlive <;> rfl
    simp only [step, if_pos halive, hpoll]
  · have hpoll : e.pollClose = (e, .pending) := by
      unfold pollClose
      rw [Chan.pollRecv_of_nil (ha.close h)]
      cases e.conn.closeIds.txAlive <;> rfl
    simp only [step, if_pos halive, hpoll]
  · obtain ⟨hk, halive, -⟩ := held_eq_some_iff.mp hh
    obtain ⟨sub', hk', hidle, hclosed⟩ := ha.read k _ h
    rw [hk] at hk'
    cases hk'
    refine ⟨fun hc => ?_, fun hc => ⟨?_, hclosed hc⟩⟩
    · simp only [step, hh, Substream.pollRead_of_idle halive hidle hc]
      rw [put_self hk]
    · rw [Substream.pollRead_of_refuses (Or.inl hc)]

end

/-- A substream is opened, and all poll functions are asked. -/
def sampleAsleep : List Op :=
  [.pollOutbound ⟨.fill 2⟩, .poll, .pollInbound, .pollClose, .read 0 [0]]

/-- All tasks wait, and asking again changes nothing; a `Close` of the substream could be missed. -/
theorem no_lost_wakeup_sampleAsleep : ∃ e w as,
    run stepWaits (sample, Waits.new) sampleAsleep = .ok ((e, w), as) ∧
      w.read 0 = some 1 ∧ e.step .poll = .ok (e, .poll .pending) ∧
      e.step .pollInbound = .ok (e, .pollInbound .pending) ∧
      e.step .pollClose = .ok (e, .pollClose .pending) ∧
      e.step (.read 0 [0]) = .ok (e, .read [0] .pending) ∧ e.MissesSignal ⟨.fill 2⟩ 0 [0] := by
  have hstate : ∃ e w as sub, run stepWaits (sample, Waits.new) sampleAsleep = .ok ((e, w), as) ∧
      e.Alive ∧ w.poll = true ∧ w.inbound = true ∧ w.close = true ∧ w.read 0 = some 1 ∧
      e.held 0 = some sub ∧ sub.closed = false ∧ e.conn.substreamInboundTxs ⟨.fill 2⟩ = some 0 ∧
      (sub.pollRead [0]).2.2 = .pending :=
    ⟨_, _, _, _, rfl, rfl, rfl, rfl, rfl, rfl, rfl, rfl, rfl, rfl⟩
  obtain ⟨e, w, as, sub, hrun, halive, hpoll, hinbound, hclose, hread, hh, hc, hs, hp⟩ := hstate
  obtain ⟨h₁, h₂, h₃, h₄, h₅⟩ := no_lost_wakeup _ _ _ _ hrun
  exact ⟨e, w, as, hrun, hread, h₁ hpoll halive, h₂ hinbound halive, h₃ hclose halive,
    (h₄ 0 sub [0] hread hh).1 hc, h₅ _ 0 sub [0] hs hh hp⟩

-- a close of the application's own: the read would be refused, and its task still waits
example : ∃ e w as sub,
    run stepWaits (sample, Waits.new) (sampleAsleep ++ [.close 0]) = .ok ((e, w), as) ∧
      w.read 0 = some 1 ∧ e.held 0 = some sub ∧ sub.closed = true :=
  ⟨_, _, _, _, rfl, rfl, rfl, rfl⟩

end Endpoint

end Libp2pNym
