import Libp2pNym.Connection.Equiv.Poll

/-!
# Data that was received before the remote's close

`poll_read` looks at the close signal before it looks at what is still to be read.  So the data
received before the remote's close reaches the reader only if it had all been read when `poll`
handled the close.  `ClosesDrained` walks through the messages waiting for a `poll` with the ids
that have something to read, and `read_closed_drained` says that in the runs all of whose polls meet
it, a read is refused because of the remote's close only when nothing is left to read.
-/

namespace Libp2pNym

open StepRun

variable {P R : Type}

namespace Substream

/-- Nothing is left to read. -/
def Drained (s : Substream R) : Prop := s.unreadData = [] ∧ s.inboundRx.queue = []

theorem drained_checkClosed (s : Substream R) : s.checkClosed.2.Drained ↔ s.Drained := by
  unfold checkClosed
  dsimp only
  split
  · exact Iff.rfl
  · split <;> exact Iff.rfl

end Substream

namespace Endpoint

/-! ### Closes that find everything read -/

/-- Every close among the messages that unregisters an id finds it with nothing to read, or closed
by the application, where `reg` are the registered ids, `shut` those closed by the application and
`full` those with something to read; `mixnet` says that responses can be sent. -/
def ClosesDrained (mixnet : Prop) :
    Set SubstreamId → Set SubstreamId → Set SubstreamId → List SubstreamMessage → Prop
  | _, _, _, [] => True
  | reg, shut, full, msg :: rest =>
    match msg.messageType with
    | .openRequest =>
      msg.substreamId ∈ reg ∨ ¬ mixnet ∨
        ClosesDrained mixnet (insert msg.substreamId reg) shut full rest
    | .openResponse => ClosesDrained mixnet reg shut full rest
    | .close =>
      msg.substreamId ∉ reg ∨
        ((msg.substreamId ∈ full → msg.substreamId ∈ shut) ∧
          ClosesDrained mixnet (reg \ {msg.substreamId}) (shut \ {msg.substreamId})
            (full \ {msg.substreamId}) rest)
    | .data _ => ClosesDrained mixnet reg shut (insert msg.substreamId full) rest

theorem ClosesDrained.mono {mixnet : Prop} {reg shut full full' : Set SubstreamId}
    {msgs : List SubstreamMessage} (h : ClosesDrained mixnet reg shut full msgs)
    (hsub : full' ⊆ full) : ClosesDrained mixnet reg shut full' msgs := by
  induction msgs generalizing reg shut full full' with
  | nil => trivial
  | cons msg rest ih =>
    obtain ⟨s, ty⟩ := msg
    cases ty with
    | openRequest =>
      rcases h with h | h | h
      · exact Or.inl h
      · exact Or.inr (Or.inl h)
      · exact Or.inr (Or.inr (ih h hsub))
    | openResponse =>
      have h' : ClosesDrained mixnet reg shut full rest := h
      exact ih h' hsub
    | close =>
      rcases h with h | ⟨hs, h⟩
      · exact Or.inl h
      · exact Or.inr ⟨fun hm => hs (hsub hm), ih h (Set.sdiff_subset_sdiff_left hsub)⟩
    | data d =>
      have h' : ClosesDrained mixnet reg shut (insert s full) rest := h
      exact ih h' (Set.insert_subset_insert hsub)

/-- The closes among the messages, taken at the endpoint, find everything read. -/
def Drains (e : Endpoint P R) (msgs : List SubstreamMessage) : Prop :=
  ClosesDrained e.outbox.Alive e.registered (e.registeredWith fun sub => sub.closed = true)
    (e.registeredWith fun sub => ¬ sub.Drained) msgs

theorem drains_handles {e e' : Endpoint P R} (hw : e.Wf) {s : SubstreamId}
    {ty : SubstreamMessageType} (hh : Handles e s ty e' (.ok ())) {rest : List SubstreamMessage}
    (hd : e.Drains (⟨s, ty⟩ :: rest)) : e'.Drains rest := by
  cases hh with
  | openAccepted hs ha =>
    have hr : (e.accepted s).registered = insert s e.registered := registered_opened e s
    have hc : (e.accepted s).registeredWith (fun sub => sub.closed = true)
        = e.registeredWith fun sub => sub.closed = true :=
      registeredWith_opened hw hs fun _ _ hc => Bool.noConfusion hc
    have hf : (e.accepted s).registeredWith (fun sub => ¬ sub.Drained)
        = e.registeredWith fun sub => ¬ sub.Drained :=
      registeredWith_opened hw hs fun _ _ hn => hn ⟨rfl, rfl⟩
    unfold Drains
    rw [hr, hc, hf]
    rcases hd with hd | hd | hd
    · exact absurd hd (not_mem_registered_of_none hs)
    · exact absurd ha hd
    · exact hd
  | openResponse => exact hd
  | closed h sub hs hsub halive =>
    unfold Drains
    rw [registered_closedBy, registeredWith_closedBy hw sub hs, registeredWith_closedBy hw sub hs]
    rcases hd with hd | hd
    · exact absurd (mem_registered_of_some hs) hd
    · exact hd.2
  | data h d hs =>
    obtain ⟨sub, hsub, -⟩ := hw.registered s h hs
    rw [sendData_eq_put hsub]
    unfold Drains
    have hc : (e.put h (receivedData sub d)).registeredWith (fun sub => sub.closed = true)
        = e.registeredWith fun sub => sub.closed = true :=
      registeredWith_put hsub Iff.rfl
    rw [hc]
    refine ClosesDrained.mono hd ?_
    rintro s' ⟨k, sub', hs', hk, hn⟩
    have hs₁ : e.conn.substreamInboundTxs s' = some k := hs'
    by_cases hkh : k = h
    · subst hkh
      exact Or.inl (hw.id_unique hs₁ hs)
    · have hput : (e.put h (receivedData sub d)).substreams k = e.substreams k :=
        KeyMap.insert_of_ne _ _ hkh
      exact Or.inr ⟨k, sub', hs₁, hput.symm.trans hk, hn⟩

/-! ### The invariant -/

/-- What is known of a substream with the handle `h`: while it is registered the close signal has
not been sent, and unless the application has closed it, it refuses only after it was unregistered
and with nothing left to read. -/
structure Orderly (e : Endpoint P R) (closedHere : Set ℕ) (h : ℕ) (sub : Substream R) : Prop where
  signal : ∀ s, e.conn.substreamInboundTxs s = some h → sub.closeRx.slot ≠ .sent ()
  flag : ∀ s, e.conn.substreamInboundTxs s = some h → h ∉ closedHere → sub.closed = false
  drained : h ∉ closedHere → sub.Refuses → sub.Drained

/-- Every substream of the endpoint is orderly. -/
def AllOrderly (closedHere : Set ℕ) (e : Endpoint P R) : Prop :=
  ∀ h sub, e.substreams h = some sub → e.Orderly closedHere h sub

theorem AllOrderly.mono {closedHere closedHere' : Set ℕ} {e : Endpoint P R}
    (ha : AllOrderly closedHere e) (hsub : closedHere ⊆ closedHere') :
    AllOrderly closedHere' e := by
  intro h sub hs
  obtain ⟨h1, h2, h3⟩ := ha h sub hs
  exact ⟨h1, fun s hreg hn => h2 s hreg fun hm => hn (hsub hm),
    fun hn => h3 fun hm => hn (hsub hm)⟩

/-- The invariant is about the registered ids and the substreams only. -/
theorem AllOrderly.congr {closedHere : Set ℕ} {e e' : Endpoint P R} (ha : AllOrderly closedHere e)
    (htxs : e'.conn.substreamInboundTxs = e.conn.substreamInboundTxs)
    (hsubs : e'.substreams = e.substreams) : AllOrderly closedHere e' := by
  intro h sub hs
  rw [hsubs] at hs
  obtain ⟨h1, h2, h3⟩ := ha h sub hs
  rw [← htxs] at h1 h2
  exact ⟨h1, h2, h3⟩

/-- Putting back an orderly substream. -/
theorem AllOrderly.put {closedHere : Set ℕ} {e : Endpoint P R} (ha : AllOrderly closedHere e)
    {h : ℕ} {sub : Substream R} (ho : e.Orderly closedHere h sub) :
    AllOrderly closedHere (e.put h sub) := by
  intro k sub' hk
  rcases KeyMap.insert_eq_some_iff.mp hk with ⟨rfl, rfl⟩ | ⟨-, hk⟩
  · exact ⟨ho.signal, ho.flag, ho.drained⟩
  · have := ha k sub' hk
    exact ⟨this.signal, this.flag, this.drained⟩

/-- A substream that was read, written or flushed stays orderly if nothing new is to be read when it
refuses. -/
theorem Orderly.of_stays {closedHere : Set ℕ} {e : Endpoint P R} {h : ℕ} {sub sub' : Substream R}
    (ho : e.Orderly closedHere h sub) (hst : sub.Stays sub')
    (hd : sub.Refuses → sub.Drained → sub'.Drained) : e.Orderly closedHere h sub' where
  signal s hs := by
    have hne := ho.signal s hs
    rw [(hst.signal hne).1]
    exact hne
  flag s hs hn := by
    rw [(hst.signal (ho.signal s hs)).2]
    exact ho.flag s hs hn
  drained hn hr := by
    have hr' := Substream.refuses_of_stays hst hr
    exact hd hr' (ho.drained hn hr')

theorem allOrderly_opened {closedHere : Set ℕ} {e : Endpoint P R}
    (ha : AllOrderly closedHere e) (s : SubstreamId) : AllOrderly closedHere (e.opened s) := by
  intro h sub hs
  rcases KeyMap.insert_eq_some_iff.mp hs with ⟨-, rfl⟩ | ⟨hne, hs'⟩
  · refine ⟨fun _ _ hn => (by cases hn), fun _ _ _ => rfl, fun _ hr => ?_⟩
    rcases hr with hr | hr <;> cases hr
  · obtain ⟨h1, h2, h3⟩ := ha h sub hs'
    -- the new handle is the only one that was registered
    have hreg : ∀ s', (e.opened s).conn.substreamInboundTxs s' = some h →
        e.conn.substreamInboundTxs s' = some h := by
      intro s' hs'
      rcases KeyMap.insert_eq_some_iff.mp hs' with ⟨-, rfl⟩ | ⟨-, hs'⟩
      · exact absurd rfl hne
      · exact hs'
    exact ⟨fun s' hs' => h1 s' (hreg s' hs'), fun s' hs' => h2 s' (hreg s' hs'), h3⟩

theorem allOrderly_handles {closedHere : Set ℕ} {e e' : Endpoint P R} (hw : e.Wf)
    (ha : AllOrderly closedHere e) {s : SubstreamId} {ty : SubstreamMessageType}
    {r : Except Error Unit} (hh : Handles e s ty e' r) {rest : List SubstreamMessage}
    (hd : e.Drains (⟨s, ty⟩ :: rest)) : AllOrderly closedHere e' := by
  cases hh with
  | openExists h hs => exact ha
  | openAccepted hs hal => exact (allOrderly_opened ha s).congr rfl rfl
  | openUnanswered hs hal =>
    have hnew : (e.opened s).substreams e.next
        = some (.new e.conn.remoteRecipient e.conn.id s Chan.new Oneshot.new) :=
      KeyMap.insert_self ..
    have hoo := allOrderly_opened ha s
    obtain ⟨h1, h2, h3⟩ := hoo e.next _ hnew
    have hdrop : (e.opened s).Orderly closedHere e.next
        (Substream.drop (.new e.conn.remoteRecipient e.conn.id s Chan.new Oneshot.new)) :=
      ⟨h1, h2, h3⟩
    exact (hoo.put hdrop).congr rfl (KeyMap.modify_eq_insert _ Substream.drop hnew)
  | openResponse => exact ha.congr rfl rfl
  | closeUnknown hs => exact ha
  | closed h sub hs hsub halive =>
    intro k sub' hk
    rcases KeyMap.insert_eq_some_iff.mp hk with ⟨rfl, rfl⟩ | ⟨-, hk'⟩
    · -- the substream that was closed: it is no longer registered, and nothing was left to read
      have hunreg : ∀ s', (e.closedBy s k sub).conn.substreamInboundTxs s' ≠ some k := by
        intro s' hs'
        obtain ⟨hne, hs'⟩ := KeyMap.remove_eq_some_iff.mp hs'
        exact hne (hw.id_unique hs' hs)
      refine ⟨fun s' hs' => absurd hs' (hunreg s'), fun s' hs' => absurd hs' (hunreg s'),
        fun hn _ => ?_⟩
      have hflag := (ha k sub hsub).flag s hs hn
      rcases hd with hd | ⟨hd, -⟩
      · exact absurd (mem_registered_of_some hs) hd
      · by_contra hnd
        have hshut := hd ((mem_registeredWith_iff hs hsub).mpr hnd)
        rw [mem_registeredWith_iff hs hsub, hflag] at hshut
        cases hshut
    · have hreg : ∀ s', (e.closedBy s h sub).conn.substreamInboundTxs s' = some k →
          e.conn.substreamInboundTxs s' = some k :=
        fun s' hs' => (KeyMap.remove_eq_some_iff.mp hs').2
      obtain ⟨h1, h2, h3⟩ := ha k sub' hk'
      exact ⟨fun s' hs' => h1 s' (hreg s' hs'), fun s' hs' => h2 s' (hreg s' hs'), h3⟩
  | data h d hs =>
    obtain ⟨sub, hsub, -⟩ := hw.registered s h hs
    rw [sendData_eq_put hsub]
    obtain ⟨h1, h2, h3⟩ := ha h sub hsub
    refine ha.put ⟨h1, h2, fun hn hr => ?_⟩
    -- a registered substream that the application has not closed does not refuse
    rcases hr with hr | hr
    · exact absurd hr (by rw [show (receivedData sub d).closed = false from h2 s hs hn]; decide)
    · exact absurd hr (h1 s hs)

theorem allOrderly_pollLoop {closedHere : Set ℕ} {fuel : ℕ} {e e' : Endpoint P R}
    {r : Poll (Except Error StreamMuxerEvent)} (hw : e.Wf) (ha : AllOrderly closedHere e)
    (hd : e.Drains e.conn.inboundRx.queue) (h : pollLoop fuel e = .ok (e', r)) :
    AllOrderly closedHere e' := by
  refine pollLoop_rule
    (I := fun e => e.Wf ∧ AllOrderly closedHere e ∧ e.Drains e.conn.inboundRx.queue)
    (Q := fun e _ => AllOrderly closedHere e) (fun _ hi => hi.2.1) ?_ ?_ ⟨hw, ha, hd⟩ h
  · rintro e msg rest e' ⟨hw, ha, hd⟩ hq hm
    have hw₁ := hw.took msg rest
    have hh := handles_of_handleMessage hw₁ hm
    have ha₁ : AllOrderly closedHere (e.took msg rest) := ha.congr rfl rfl
    rw [hq] at hd
    refine ⟨wf_handles hw₁ hh, allOrderly_handles hw₁ ha₁ hh hd, ?_⟩
    rw [queue_handles hh]
    exact drains_handles hw₁ hh hd
  · rintro e msg rest e' err ⟨hw, ha, hd⟩ hq hm
    have hw₁ := hw.took msg rest
    have ha₁ : AllOrderly closedHere (e.took msg rest) := ha.congr rfl rfl
    rw [hq] at hd
    exact allOrderly_handles hw₁ ha₁ (handles_of_handleMessage hw₁ hm) hd

/-! ### Runs -/

/-- If the operation is a `poll` of a connection that was not dropped, the closes among the messages
that wait for it find everything read. -/
def PollDrains (e : Endpoint P R) (o : Op) : Prop :=
  o = .poll → e.Alive → e.Drains e.conn.inboundRx.queue

theorem drained_afterDrop (e : Endpoint P R) (h : ℕ) (sub : Substream R) :
    (e.afterDrop h sub).Drained ↔ sub.Drained := by
  unfold afterDrop
  dsimp only
  split
  all_goals
    split
    all_goals exact Iff.rfl

/-- Dropping the connection sends no close signal. -/
theorem refuses_of_afterDrop {e : Endpoint P R} {h : ℕ} {sub : Substream R}
    (hr : (e.afterDrop h sub).Refuses) : sub.Refuses := by
  rcases hr with hr | hr
  · rw [(afterDrop_spec e h sub).2.2.2.2.1] at hr
    exact Or.inl hr
  · by_contra hn
    unfold Substream.Refuses at hn
    push Not at hn
    have hslot : ∀ (p : Prop) [Decidable p],
        (if p then sub.closeRx.dropTx else sub.closeRx).slot ≠ .sent () := by
      intro p _
      split
      · unfold Oneshot.dropTx
        split
        · exact hn.2
        · intro heq
          cases heq
        · exact hn.2
      · exact hn.2
    unfold afterDrop at hr
    dsimp only at hr
    split at hr
    · exact hslot _ hr
    · exact hslot _ hr

theorem allOrderly_steps {closedHere : Set ℕ} {e e' : Endpoint P R} (hw : e.Wf)
    (ha : AllOrderly closedHere e) {o : Op} {a : Answer} (hd : e.PollDrains o)
    (hs : Steps e o e' a) : AllOrderly (closedHere ∪ {h | o = .close h}) e' := by
  -- what a read, a write or a flush puts back
  have hput : ∀ {h sub sub'}, e.held h = some sub → sub.Stays sub' →
      (sub.Refuses → sub.Drained → sub'.Drained) → AllOrderly closedHere (e.put h sub') :=
    fun hh hst hdr => ha.put ((ha _ _ (held_eq_some_iff.mp hh).1).of_stays hst hdr)
  have hmono := Set.subset_union_left (s := closedHere) (t := {h | o = .close h})
  -- a local close makes the handle one of those the application has closed
  have hclosed : ∀ {h sub}, o = .close h → e.held h = some sub →
      AllOrderly (closedHere ∪ {h | o = .close h}) (e.put h { sub with closed := true }) := by
    intro h sub ho hh
    have hm : h ∈ closedHere ∪ {h | o = .close h} := Or.inr ho
    refine (ha.mono hmono).put ⟨?_, fun _ _ hn => absurd hm hn, fun hn => absurd hm hn⟩
    exact (ha h sub (held_eq_some_iff.mp hh).1).signal
  cases hs with
  | skip o => exact ha.mono hmono
  | receive msg hal => exact (ha.mono hmono).congr rfl rfl
  | poll e' r hal hp => exact (allOrderly_pollLoop hw ha (hd rfl hal) hp).mono hmono
  | yielded h rest hal hq => exact (ha.mono hmono).congr rfl rfl
  | notYielded hq => exact ha.mono hmono
  | requested s hal hs ho =>
    have he : AllOrderly closedHere (e.emitted s .openRequest) := ha.congr rfl rfl
    exact ((allOrderly_opened he s).mono hmono).congr rfl rfl
  | requestExists s h hal hs ho => exact (ha.mono hmono).congr rfl rfl
  | requestUnsent s hal ho => exact (ha.mono hmono).congr rfl rfl
  | closeReported s rest hq => exact (ha.mono hmono).congr rfl rfl
  | closeNotReported hq => exact ha.mono hmono
  | read h sub buf hh =>
    refine (hput hh (sub.stays_pollRead buf) fun hr hdr => ?_).mono hmono
    rw [Substream.pollRead_of_refuses hr]
    exact sub.drained_checkClosed.mpr hdr
  | writeRefused h sub buf hh =>
    exact (hput hh sub.stays_checkClosed fun _ hdr => sub.drained_checkClosed.mpr hdr).mono hmono
  | written h sub buf hh hc hn ho => exact (ha.mono hmono).congr rfl rfl
  | writeUnsent h sub buf hh ho => exact (ha.mono hmono).congr rfl rfl
  | flushed h sub hh =>
    refine (hput hh sub.stays_pollFlush fun hr hdr => ?_).mono hmono
    rw [Substream.pollFlush_of_refuses hr]
    exact sub.drained_checkClosed.mpr hdr
  | closeRefused h sub hh hc => exact (ha.mono hmono).congr rfl rfl
  | closedLocally h sub hh hc ho => exact (hclosed rfl hh).congr rfl rfl
  | closeUnsent h sub hh hc ho => exact (hclosed rfl hh).congr rfl rfl
  | dropped h sub hh =>
    obtain ⟨h1, h2, h3⟩ := ha h sub (held_eq_some_iff.mp hh).1
    have hdrop : e.Orderly closedHere h sub.drop := ⟨h1, h2, h3⟩
    exact (ha.put hdrop).mono hmono
  | connectionDropped hal =>
    suffices hdrop : AllOrderly closedHere e.dropConnection from hdrop.mono hmono
    intro h sub' hs'
    rw [substreams_dropConnection, Option.map_eq_some_iff] at hs'
    obtain ⟨sub, hsub, rfl⟩ := hs'
    refine ⟨fun s hs => ?_, fun s hs => ?_, fun hn hr => ?_⟩
    · cases hs
    · cases hs
    · exact (drained_afterDrop e h sub).mpr ((ha h sub hsub).drained hn (refuses_of_afterDrop hr))

/-- **The remote's close takes nothing from the reader when it finds everything read.**  In every
run all of whose polls handle only closes that find nothing left to read: in every state reached, a
read of a substream that the application has not closed answers that the stream is closed only when
its unread data and its inbound channel are empty. -/
theorem read_closed_drained (peerId : P) (remoteRecipient : R) (id : ConnectionId)
    (outboundTx : Chan (OutboundMessage P R)) (ops : List Op)
    (hd : Along PollDrains step (new peerId remoteRecipient id outboundTx) ops) :
    Always (fun xs _ e => ∀ h sub buf, Op.close h ∉ xs → e.held h = some sub →
        (sub.pollRead buf).2.2 = .ready (.error streamClosed) →
        sub.unreadData = [] ∧ sub.inboundRx.queue = [])
      step (new peerId remoteRecipient id outboundTx) ops := by
  have hw := wf_new peerId remoteRecipient id outboundTx
  intro xs hxs e as hrun h sub buf hn hh hread
  obtain ⟨ys, rfl⟩ := hxs
  have ha : AllOrderly {h | Op.close h ∈ xs} e := by
    refine run_induction_along
      (I := fun xs _ (e : Endpoint P R) => AllOrderly {h | Op.close h ∈ xs} e) ?_ ?_
      hd.of_append hrun
    · intro h sub hs
      cases hs
    · intro xs as m o t a hr ih hP hs
      have hw' := wf_run hw hr
      have hset : {h | Op.close h ∈ xs ++ [o]} = {h | Op.close h ∈ xs} ∪ {h | o = .close h} := by
        ext h
        simp [eq_comm]
      rw [hset]
      exact allOrderly_steps hw' ih hP (steps_of_step hw' hs)
  exact (ha h sub (held_eq_some_iff.mp hh).1).drained hn (Substream.refuses_of_pollRead hread)

/-- A substream is opened and the remote's data is read before its close comes. -/
def sampleReadBeforeClose : List Op :=
  [.pollOutbound ⟨.fill 2⟩, .receive ⟨⟨.fill 2⟩, .data [1]⟩, .poll, .read 0 [0],
    .receive ⟨⟨.fill 2⟩, .close⟩, .poll, .read 0 [0]]

theorem pollDrains_sampleReadBeforeClose : Along PollDrains step sample sampleReadBeforeClose := by
  have hskip : ∀ {e : Endpoint RawPeerId RawRecipient} {o : Op}, o ≠ .poll → e.PollDrains o :=
    fun hne ho => absurd ho hne
  refine ⟨hskip (by simp), fun _ _ hs => ?_⟩
  cases hs
  refine ⟨hskip (by simp), fun _ _ hs => ?_⟩
  cases hs
  refine ⟨fun _ _ => trivial, fun _ _ hs => ?_⟩
  cases hs
  refine ⟨hskip (by simp), fun _ _ hs => ?_⟩
  cases hs
  refine ⟨hskip (by simp), fun _ _ hs => ?_⟩
  cases hs
  refine ⟨fun _ _ => Or.inr ⟨?_, trivial⟩, fun _ _ hs => ?_⟩
  · -- the read has taken all there was
    rintro ⟨h, sub, hreg, hsub, hn⟩
    cases hreg
    cases hsub
    exact absurd ⟨rfl, rfl⟩ hn
  · cases hs
    exact ⟨hskip (by simp), fun _ _ _ => trivial⟩

/-- The first read returns the byte, and the second is refused when nothing is left. -/
theorem read_closed_drained_sampleReadBeforeClose :
    ∃ e as sub, run step sample sampleReadBeforeClose = .ok (e, as) ∧
      as[3]? = some (.read [1] (.ready (.ok 1))) ∧
      as[6]? = some (.read [0] (.ready (.error streamClosed))) ∧ e.held 0 = some sub ∧
      (sub.pollRead [0]).2.2 = .ready (.error streamClosed) ∧
      sub.unreadData = [] ∧ sub.inboundRx.queue = [] := by
  have hstate : ∃ e as sub, run step sample sampleReadBeforeClose = .ok (e, as) ∧
      as[3]? = some (.read [1] (.ready (.ok 1))) ∧
      as[6]? = some (.read [0] (.ready (.error streamClosed))) ∧ e.held 0 = some sub ∧
      (sub.pollRead [0]).2.2 = .ready (.error streamClosed) :=
    ⟨_, _, _, rfl, rfl, rfl, rfl, rfl⟩
  obtain ⟨e, as, sub, hrun, hfirst, hlast, hh, hread⟩ := hstate
  exact ⟨e, as, sub, hrun, hfirst, hlast, hh, hread,
    read_closed_drained _ _ _ _ sampleReadBeforeClose pollDrains_sampleReadBeforeClose
      _ (List.prefix_refl _) e as hrun 0 sub [0] (by simp [sampleReadBeforeClose]) hh hread⟩

/-- The same, with the close right behind the data. -/
def sampleCloseBeforeRead : List Op :=
  [.pollOutbound ⟨.fill 2⟩, .receive ⟨⟨.fill 2⟩, .data [1]⟩, .receive ⟨⟨.fill 2⟩, .close⟩, .poll,
    .read 0 [0]]

/-- The read is refused while the byte is still in the channel, and so is every later one. -/
theorem read_refused_sampleCloseBeforeRead :
    ∃ e as sub, run step sample sampleCloseBeforeRead = .ok (e, as) ∧
      as.getLast? = some (.read [0] (.ready (.error streamClosed))) ∧
      e.held 0 = some sub ∧ sub.inboundRx.queue = [[1]] ∧
      (sub.pollRead [0]).2.2 = .ready (.error streamClosed) :=
  ⟨_, _, _, rfl, rfl, rfl, rfl, rfl⟩

end Endpoint

end Libp2pNym
