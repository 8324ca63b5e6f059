import Libp2pNym.Connection.Equiv.Lifecycle

/-!
# Two endpoints that keep their ledgers

An endpoint that hears the messages of a well-behaved remote in order (`Hears`) keeps its ledger
through every operation (`ledger_steps`), and its `poll` meets no error (`pollLoop_sound`).  The
messages of an endpoint with a ledger are those of a well-behaved remote, so two endpoints that hear
each other (`Joined`) stay so, whichever of them moves (`Joined.grows`).
-/

namespace Libp2pNym.Endpoint

variable {P R : Type}

/-! ### Hearing a well-behaved remote -/

theorem WellSent.of_prefix {asked : Set SubstreamId} {l l' : List SubstreamMessage}
    (h : WellSent asked l') (hp : l <+: l') : WellSent asked l :=
  fun pre m hm => h pre m (hm.trans hp)

/-- The inbound channel carries a part of the well-sent messages `l` of a remote that has taken the
requests for `asked`, all of which were made here; no id was opened at both ends. -/
structure Hears (e : Endpoint P R) (asked : Set SubstreamId) (l : List SubstreamMessage) :
    Prop where
  log : e.conn.inboundRx.log <+: l
  well : WellSent asked l
  answered : ∀ s ∈ asked, ⟨s, .openRequest⟩ ∈ e.sent
  apart : ∀ s, ⟨s, .openRequest⟩ ∈ l → ⟨s, .openRequest⟩ ∉ e.sent

theorem Hears.taken {e : Endpoint P R} {asked : Set SubstreamId} {l : List SubstreamMessage}
    (hh : e.Hears asked l) : e.taken <+: l :=
  (List.prefix_append _ _).trans hh.log

/-- Nothing was heard of an id that neither end has opened. -/
theorem Hears.silent {e : Endpoint P R} {asked : Set SubstreamId} {l : List SubstreamMessage}
    (hh : e.Hears asked l) {s : SubstreamId} (hs : ⟨s, .openRequest⟩ ∉ e.sent)
    (ht : ⟨s, .openRequest⟩ ∉ e.taken) : e.Silent s :=
  ⟨(WellSent.of_prefix hh.well hh.taken).not_mem ht fun ha => hs (hh.answered s ha), hs⟩

/-- The next message of a well-behaved remote makes sense. -/
theorem Hears.accepts {e : Endpoint P R} {asked : Set SubstreamId} {l : List SubstreamMessage}
    (hh : e.Hears asked l) {m : SubstreamMessage} {rest : List SubstreamMessage}
    (hq : e.conn.inboundRx.queue = m :: rest) : e.Accepts m := by
  have hnext : e.taken ++ [m] <+: l := by
    refine List.IsPrefix.trans ⟨rest, ?_⟩ hh.log
    rw [Chan.log, hq, List.append_assoc]
    rfl
  have hfits := hh.well _ _ hnext
  have hmem : m ∈ l := hnext.subset (List.mem_append_right _ (List.mem_singleton_self _))
  obtain ⟨s, ty⟩ := m
  cases ty with
  | openRequest => exact hh.silent (hh.apart s hmem) hfits
  | openResponse => exact ⟨hh.answered s hfits.1, hfits.2⟩
  | close => exact ⟨hfits.1.symm.imp (hh.answered s) fun h => h, hfits.2⟩
  | data d => exact ⟨hfits.1.symm.imp (hh.answered s) fun h => h, hfits.2⟩

/-! ### The loop of `poll` -/

/-- Handling a message opens nothing and yields nothing, and sends at most a response. -/
theorem sent_handles {e e' : Endpoint P R} {s : SubstreamId} {ty : SubstreamMessageType}
    {r : Except Error Unit} (hh : Handles e s ty e' r) :
    e.sent <+: e'.sent ∧ requests e'.sent = requests e.sent ∧
      e'.conn.inboundOpen.got = e.conn.inboundOpen.got := by
  cases hh with
  | openAccepted hs ha =>
    have hsent : (e.accepted s).sent = e.sent ++ [⟨s, .openResponse⟩] :=
      Outbox.sentMessages_emit ..
    rw [hsent]
    refine ⟨List.prefix_append _ _, ?_, rfl⟩
    rw [requests_append]
    exact List.append_nil _
  | _ => exact ⟨List.prefix_refl _, rfl, rfl⟩

/-- What a `poll` starts from, and what every message it takes keeps: well formed, with a ledger,
alive, and hearing the remote. -/
structure Sound (e : Endpoint P R) (asked : Set SubstreamId) (l : List SubstreamMessage) :
    Prop where
  wf : e.Wf
  ledger : e.Ledger
  alive : e.Alive
  mixnet : e.outbox.Alive
  hears : e.Hears asked l

theorem Sound.handles {e e' : Endpoint P R} {asked : Set SubstreamId} {l : List SubstreamMessage}
    (hi : e.Sound asked l) {m : SubstreamMessage} {rest : List SubstreamMessage}
    (hq : e.conn.inboundRx.queue = m :: rest) {r : Except Error Unit}
    (hm : (e.took m rest).handleMessage m = .ok (e', r)) : r = .ok () ∧ e'.Sound asked l := by
  obtain ⟨hw, hl, ha, ho, hh⟩ := hi
  have hhand := handles_of_handleMessage (hw.took m rest) hm
  obtain ⟨hr, hl'⟩ := Ledger.handles hw hl ha ho (hh.accepts hq) hhand
  have hrx := queue_handles hhand
  obtain ⟨-, hreq, -⟩ := sent_handles hhand
  have hreq' : requests e'.sent = requests e.sent := hreq
  have hlog : e'.conn.inboundRx.log = e.conn.inboundRx.log := by
    rw [hrx, Chan.log, Chan.log, hq]
    simp [took]
  refine ⟨hr, wf_handles (hw.took m rest) hhand, hl', ?_, ?_, ?_⟩
  · show e'.conn.inboundRx.rxAlive = true
    rw [hrx]
    exact ha
  · have ho₁ : (e.took m rest).outbox.Alive := ho
    exact (emits_handles ho₁ hhand).alive ho₁
  · refine ⟨hlog ▸ hh.log, hh.well, fun s hs => ?_, fun s hs => ?_⟩
    · rw [← mem_requests_iff, hreq', mem_requests_iff]
      exact hh.answered s hs
    · rw [← mem_requests_iff, hreq', mem_requests_iff]
      exact hh.apart s hs

/-- **A `poll` of an endpoint that hears a well-behaved remote** answers `Pending`, keeps the ledger
and opens nothing. -/
theorem pollLoop_sound {asked : Set SubstreamId} {l : List SubstreamMessage} {fuel : ℕ}
    {e e' : Endpoint P R} {r : Poll (Except Error StreamMuxerEvent)} (hi : e.Sound asked l)
    (h : pollLoop fuel e = .ok (e', r)) :
    r = .pending ∧ e'.Sound asked l ∧ e'.conn.inboundRx.log = e.conn.inboundRx.log ∧
      e.sent <+: e'.sent ∧ requests e'.sent = requests e.sent ∧
      e'.conn.inboundOpen.got = e.conn.inboundOpen.got := by
  refine pollLoop_rule
    (I := fun e₁ => e₁.Sound asked l ∧ e₁.conn.inboundRx.log = e.conn.inboundRx.log ∧
      e.sent <+: e₁.sent ∧ requests e₁.sent = requests e.sent ∧
      e₁.conn.inboundOpen.got = e.conn.inboundOpen.got)
    (Q := fun e₁ r => r = .pending ∧ e₁.Sound asked l ∧
      e₁.conn.inboundRx.log = e.conn.inboundRx.log ∧ e.sent <+: e₁.sent ∧
      requests e₁.sent = requests e.sent ∧ e₁.conn.inboundOpen.got = e.conn.inboundOpen.got)
    (fun e₁ hi => ⟨rfl, hi⟩) ?_ ?_ ⟨hi, rfl, List.prefix_refl _, rfl, rfl⟩ h
  · rintro e₁ m rest e₂ ⟨hi, hlog, hs1, hs2, hs3⟩ hq hm
    have hhand := handles_of_handleMessage (hi.wf.took m rest) hm
    obtain ⟨h1, h2, h3⟩ := sent_handles hhand
    refine ⟨(hi.handles hq hm).2, ?_, hs1.trans h1, h2.trans hs2, h3.trans hs3⟩
    rw [queue_handles hhand, ← hlog, Chan.log, Chan.log, hq]
    simp [took]
  · rintro e₁ m rest e₂ err ⟨hi, -⟩ hq hm
    cases (hi.handles hq hm).1

/-- `Q` holds of every message the loop takes, in the state it is taken in. -/
def EachTaken (Q : Endpoint P R → SubstreamMessage → Prop) : ℕ → Endpoint P R → Prop
  | 0, _ => True
  | fuel + 1, e => ∀ m rest, e.conn.inboundRx.queue = m :: rest →
      Q (e.took m rest) m ∧
        ∀ e', (e.took m rest).handleMessage m = .ok (e', .ok ()) → EachTaken Q fuel e'

/-- What the message is for is there: the channel of its data, the pending entry of its response. -/
def Finds (e : Endpoint P R) (m : SubstreamMessage) : Prop :=
  match m.messageType with
  | .data _ => e.conn.substreamInboundTxs m.substreamId ≠ none
  | .openResponse => m.substreamId ∈ e.conn.pendingSubstreams
  | .openRequest => True
  | .close => True

theorem eachTaken_finds {asked : Set SubstreamId} {l : List SubstreamMessage} (fuel : ℕ)
    {e : Endpoint P R} (hi : e.Sound asked l) : EachTaken Finds fuel e := by
  induction fuel generalizing e with
  | zero => trivial
  | succ fuel ih =>
    intro m rest hq
    refine ⟨?_, fun e' hm => ih (hi.handles hq hm).2⟩
    have hacc := hi.hears.accepts hq
    obtain ⟨s, ty⟩ := m
    cases ty with
    | openRequest => trivial
    | openResponse => exact (hi.ledger.pending s).mpr hacc
    | close => trivial
    | data d => exact (hi.ledger.registered hi.alive s).mpr hacc

/-- The `poll` of an endpoint that hears a well-behaved remote panics exactly when there is a close
among its messages for a registered id whose substream was dropped. -/
theorem isOk_pollLoop_sound_iff {asked : Set SubstreamId} {l : List SubstreamMessage} {fuel : ℕ}
    {e : Endpoint P R} (hi : e.Sound asked l) (hf : e.conn.inboundRx.queue.length < fuel) :
    (∃ r, pollLoop fuel e = .ok r) ↔ ∀ s ∈ e.gone, ⟨s, .close⟩ ∉ e.conn.inboundRx.queue := by
  induction fuel generalizing e with
  | zero => omega
  | succ fuel ih =>
    cases hq : e.conn.inboundRx.queue with
    | nil =>
      rw [pollLoop_succ_of_nil hq]
      exact ⟨fun _ _ _ => List.not_mem_nil, fun _ => ⟨_, rfl⟩⟩
    | cons m rest =>
      rw [hq, List.length_cons] at hf
      have hw₁ := hi.wf.took m rest
      rw [pollLoop_succ_of_cons hq]
      rcases handleMessage_cases hw₁ m with ⟨hsafe, e', r, hm, hh⟩ | ⟨hstuck, p, hm⟩
      · obtain ⟨rfl, hi'⟩ := hi.handles hq hm
        have hq' : e'.conn.inboundRx.queue = rest := by
          rw [queue_handles hh]
          rfl
        have hg : e'.gone = e.gone := (gone_handles hw₁ hh).trans rfl
        rw [hm]
        refine (ih hi' (by rw [hq']; omega)).trans ?_
        rw [hq', hg]
        refine forall₂_congr fun s hs => ?_
        rw [List.mem_cons, not_or]
        refine ⟨fun hn => ⟨fun heq => ?_, hn⟩, fun hn => hn.2⟩
        -- a close that was handled found its substream
        subst heq
        obtain ⟨h, sub, hreg, hsub, hd⟩ := hs
        have hal := hsafe h sub hreg hsub
        rw [hi.wf.halves h sub hsub, hd] at hal
        cases hal
      · rw [hm]
        refine ⟨fun ⟨r, hr⟩ => (by cases hr), fun hn => absurd ?_ hstuck⟩
        have hacc := hi.hears.accepts hq
        obtain ⟨s, ty⟩ := m
        cases ty with
        | openRequest => trivial
        | openResponse => trivial
        | close =>
          intro h sub hreg hsub
          by_contra hd
          rw [Bool.not_eq_true, hw₁.halves h sub hsub] at hd
          exact hn s ⟨h, sub, hreg, hsub, hd⟩ List.mem_cons_self
        | data d => exact (hi.ledger.registered hi.alive s).mpr hacc

/-! ### Operations -/

/-- The id that a successful local open has opened. -/
def openedIn : Op → Answer → List SubstreamId
  | .pollOutbound s, .pollOutbound (.ready (.ok _)) => [s]
  | _, _ => []

/-- The handle that `pollInbound` has handed out. -/
def yieldedIn : Answer → List ℕ
  | .pollInbound (.ready (.ok h)) => [h]
  | _ => []

/-- What an operation adds to what the endpoint has sent, opened and yielded. -/
structure Grows (e : Endpoint P R) (o : Op) (a : Answer) (e' : Endpoint P R) : Prop where
  log : e'.conn.inboundRx.log = e.conn.inboundRx.log
  sent : e.sent <+: e'.sent
  opened : requests e'.sent = requests e.sent ++ openedIn o a
  yielded : e'.conn.inboundOpen.got = e.conn.inboundOpen.got ++ yieldedIn a
  answer : ∀ r, a = .poll r → r = .pending

/-- An operation that sends nothing, opens nothing and yields nothing. -/
theorem Grows.of_eq {e e' : Endpoint P R} {o : Op} {a : Answer}
    (hlog : e'.conn.inboundRx.log = e.conn.inboundRx.log) (hsent : e'.sent = e.sent)
    (hgot : e'.conn.inboundOpen.got = e.conn.inboundOpen.got) (ho : openedIn o a = [])
    (hy : yieldedIn a = []) (ha : ∀ r, a ≠ .poll r) : e.Grows o a e' := by
  refine ⟨hlog, ?_, ?_, ?_, fun r hr => absurd hr (ha r)⟩
  · rw [hsent]
  · rw [hsent, ho, List.append_nil]
  · rw [hgot, hy, List.append_nil]

/-- An operation that sends a message and opens nothing. -/
theorem Grows.of_emitted {e e' : Endpoint P R} {o : Op} {a : Answer} {m : SubstreamMessage}
    (hlog : e'.conn.inboundRx.log = e.conn.inboundRx.log) (hsent : e'.sent = e.sent ++ [m])
    (hm : m.messageType ≠ .openRequest)
    (hgot : e'.conn.inboundOpen.got = e.conn.inboundOpen.got) (ho : openedIn o a = [])
    (hy : yieldedIn a = []) (ha : ∀ r, a ≠ .poll r) : e.Grows o a e' := by
  have hreq : requests [m] = [] := by
    obtain ⟨s, ty⟩ := m
    cases ty with
    | openRequest => exact absurd rfl hm
    | _ => rfl
  refine ⟨hlog, ?_, ?_, ?_, fun r hr => absurd hr (ha r)⟩
  · rw [hsent]
    exact List.prefix_append _ _
  · rw [hsent, requests_append, hreq, ho]
  · rw [hgot, hy, List.append_nil]

theorem idOf_dropConnection (e : Endpoint P R) : e.dropConnection.idOf = e.idOf := by
  funext h
  unfold idOf
  rw [substreams_dropConnection, Option.map_map]
  congr 1
  funext sub
  exact (afterDrop_spec e h sub).2.2.1

/-- Dropping the connection keeps the ids and the chunks of its substreams. -/
theorem ledger_dropConnection {e : Endpoint P R} (hl : e.Ledger) : e.dropConnection.Ledger := by
  have hback : ∀ h sub', e.dropConnection.substreams h = some sub' →
      ∃ sub, e.substreams h = some sub ∧ sub'.substreamId = sub.substreamId ∧
        sub'.inboundRx.log = sub.inboundRx.log ∧ sub'.closed = sub.closed := by
    intro h sub' hs
    rw [substreams_dropConnection, Option.map_eq_some_iff] at hs
    obtain ⟨sub, hsub, rfl⟩ := hs
    obtain ⟨-, -, hid, hlog, hcl, -⟩ := afterDrop_spec e h sub
    exact ⟨sub, hsub, hid, hlog, hcl⟩
  have hids := idOf_dropConnection e
  have hdead : ¬ e.dropConnection.Alive := Bool.noConfusion
  refine ⟨fun ha => absurd ha hdead, hl.pending, hl.wellSent, ?_, ?_, ?_, ?_, ?_,
    fun ha => absurd ha hdead, ?_⟩
  · intro h sub' hs'
    obtain ⟨sub, hs, hid, -⟩ := hback h sub' hs'
    rw [hid]
    exact hl.known h sub hs
  · intro h sub' hs' hc
    obtain ⟨sub, hs, hid, -, hcl⟩ := hback h sub' hs'
    rw [hid]
    exact hl.closed h sub hs (hcl ▸ hc)
  · intro h h' sub₁ sub₁' hs hs' heq
    obtain ⟨sub, hs, hid, -⟩ := hback h sub₁ hs
    obtain ⟨sub', hs', hid', -⟩ := hback h' sub₁' hs'
    rw [hid, hid'] at heq
    exact hl.unique h h' sub sub' hs hs' heq
  · intro h sub' hs'
    obtain ⟨sub, hs, hid, hlog, -⟩ := hback h sub' hs'
    rw [hid, hlog]
    exact hl.chunks h sub hs
  · intro h sub' hs' hrx hreg
    cases hreg
  · rw [hids]
    exact hl.yields

/-- **Every operation keeps the ledger** of an endpoint that hears a well-behaved remote and opens
ids that nothing was heard of. -/
theorem ledger_steps {asked : Set SubstreamId} {l : List SubstreamMessage} {e e' : Endpoint P R}
    (hw : e.Wf) (hl : e.Ledger) (hmix : e.outbox.Alive) (hh : e.Hears asked l) {o : Op} {a : Answer}
    (hs : Steps e o e' a) (hrec : ∀ m, o ≠ .receive m)
    (hfresh : ∀ s, o = .pollOutbound s → e.Silent s) : e'.Ledger ∧ e.Grows o a e' := by
  -- what a read, a write or a flush puts back
  have hput : ∀ {h sub sub'}, e.held h = some sub → sub.Stays sub' → (e.put h sub').Ledger :=
    fun hh hst => hl.put (held_eq_some_iff.mp hh).1 hst.substreamId hst.log
      (fun hr => hst.rxAlive ▸ hr) fun hc => Bool.not_eq_true _ ▸ fun ht => by
        rw [hst.closed ht] at hc
        cases hc
  cases hs with
  | skip o =>
    refine ⟨hl, rfl, List.prefix_refl _, ?_, ?_, fun r hr => by cases hr⟩
    · cases o <;> exact (List.append_nil _).symm
    · exact (List.append_nil _).symm
  | receive msg ha => exact absurd rfl (hrec msg)
  | poll e' r ha hp =>
    obtain ⟨hr, hi, hlog, hsent, hreq, hgot⟩ := pollLoop_sound ⟨hw, hl, ha, hmix, hh⟩ hp
    refine ⟨hi.ledger, hlog, hsent, ?_, ?_, fun r' hr' => ?_⟩
    · exact hreq.trans (List.append_nil _).symm
    · exact hgot.trans (List.append_nil _).symm
    · cases hr'
      exact hr
  | yielded h rest ha hq =>
    refine ⟨?_, rfl, List.prefix_refl _, (List.append_nil _).symm, rfl, fun r hr => by cases hr⟩
    have hlog : e.conn.inboundOpen.got ++ [h] <+: e.conn.inboundOpen.log := by
      rw [Chan.log, hq]
      exact ⟨rest, by simp⟩
    refine ⟨hl.registered, hl.pending, hl.wellSent, hl.known, hl.closed, hl.unique, hl.chunks,
      hl.allChunks, fun ha => ?_, ?_⟩
    · have hopens := hl.opens ha
      rw [Chan.log, hq] at hopens
      show ((_ ++ [h]) ++ rest).map e.idOf = _
      rw [List.append_assoc]
      exact hopens
    · have hopens := hl.opens ha
      have hp := hlog.map e.idOf
      rw [hopens] at hp
      refine ⟨(requests e.taken).take (e.conn.inboundOpen.got ++ [h]).length, ?_,
        List.take_prefix _ _⟩
      have heq := List.prefix_iff_eq_take.mp hp
      rw [List.map_take]
      rw [List.length_map] at heq
      exact heq
  | notYielded hq => exact ⟨hl, .of_eq rfl rfl rfl rfl rfl (by simp)⟩
  | requested s ha hs ho =>
    refine ⟨hl.requested hw (hfresh s rfl), rfl, ?_, ?_, (List.append_nil _).symm,
      fun r hr => by cases hr⟩
    all_goals
      have hsent : (e.requested s).sent = e.sent ++ [⟨s, .openRequest⟩] :=
        Outbox.sentMessages_emit ..
      rw [hsent]
    · exact List.prefix_append _ _
    · exact requests_append ..
  | requestExists s h ha hs ho =>
    have hnone := (hfresh s rfl).not_registered hl ha
    rw [hs] at hnone
    cases hnone
  | requestUnsent s ha ho => exact absurd hmix ho
  | closeReported s rest hq =>
    exact ⟨hl.congr id rfl rfl rfl rfl rfl rfl, .of_eq rfl rfl rfl rfl rfl (by simp)⟩
  | closeNotReported hq => exact ⟨hl, .of_eq rfl rfl rfl rfl rfl (by simp)⟩
  | read h sub buf hh =>
    exact ⟨hput hh (sub.stays_pollRead buf), .of_eq rfl rfl rfl rfl rfl (by simp)⟩
  | writeRefused h sub buf hh =>
    exact ⟨hput hh sub.stays_checkClosed, .of_eq rfl rfl rfl rfl rfl (by simp)⟩
  | written h sub buf hh hc hn ho =>
    have hsub := (held_eq_some_iff.mp hh).1
    refine ⟨hl.emitted (by simp) ⟨hl.known h sub hsub, hl.closed h sub hsub hc⟩
      (fun hty => by cases hty), ?_⟩
    exact .of_emitted rfl (Outbox.sentMessages_emit ..) (by simp) rfl rfl rfl (by simp)
  | writeUnsent h sub buf hh ho => exact absurd hmix ho
  | flushed h sub hh => exact ⟨hput hh sub.stays_pollFlush, .of_eq rfl rfl rfl rfl rfl (by simp)⟩
  | closeRefused h sub hh hc =>
    exact ⟨hl.congr id rfl rfl rfl rfl rfl rfl, .of_eq rfl rfl rfl rfl rfl (by simp)⟩
  | closedLocally h sub hh hc ho =>
    have hsub := (held_eq_some_iff.mp hh).1
    have hl' : (e.put h { sub with closed := true }).Ledger :=
      hl.put hsub rfl rfl (fun hr => hr) fun hc => by cases hc
    refine ⟨hl'.emitted (by simp) ⟨hl.known h sub hsub, hl.closed h sub hsub hc⟩ ?_, ?_⟩
    · -- the closed substream is the only one with its id
      intro _ k sub' hk hid
      rcases KeyMap.insert_eq_some_iff.mp hk with ⟨-, rfl⟩ | ⟨hne, hk⟩
      · rfl
      · exact absurd (hl.unique k h sub' sub hk hsub hid) hne
    · exact .of_emitted rfl (Outbox.sentMessages_emit ..) (by simp) rfl rfl rfl (by simp)
  | closeUnsent h sub hh hc ho => exact absurd hmix ho
  | dropped h sub hh =>
    refine ⟨hl.put (held_eq_some_iff.mp hh).1 rfl rfl (fun hr => by cases hr) (fun hc => hc), ?_⟩
    exact .of_eq rfl rfl rfl rfl rfl (by simp)
  | connectionDropped ha =>
    exact ⟨ledger_dropConnection hl, .of_eq rfl rfl rfl rfl rfl (by simp)⟩

/-- No registered substream is lost as long as the application drops none. -/
theorem gone_steps {asked : Set SubstreamId} {l : List SubstreamMessage} {e e' : Endpoint P R}
    (hw : e.Wf) (hl : e.Ledger) (hmix : e.outbox.Alive) (hh : e.Hears asked l) {o : Op} {a : Answer}
    (hs : Steps e o e' a) (hkept : ∀ h, o ≠ .dropSubstream h) : e'.gone ⊆ e.gone := by
  have hput : ∀ {h sub sub'}, e.held h = some sub → sub.Stays sub' → (e.put h sub').gone ⊆ e.gone :=
    fun hh hst => registeredWith_put_subset (held_eq_some_iff.mp hh).1
      fun hd => hst.rxAlive.symm.trans hd
  cases hs with
  | poll e' r ha hp =>
    have heq : e'.gone = e.gone := by
      refine pollLoop_rule (I := fun e₁ => e₁.Sound asked l ∧ e₁.gone = e.gone)
        (Q := fun e₁ _ => e₁.gone = e.gone) (fun _ hi => hi.2) ?_ ?_
        ⟨⟨hw, hl, ha, hmix, hh⟩, rfl⟩ hp
      · rintro e₁ m rest e₂ ⟨hi, hg⟩ hq hm
        have hw₁ := hi.wf.took m rest
        exact ⟨(hi.handles hq hm).2,
          (gone_handles hw₁ (handles_of_handleMessage hw₁ hm)).trans hg⟩
      · rintro e₁ m rest e₂ err ⟨hi, -⟩ hq hm
        cases (hi.handles hq hm).1
    exact heq.subset
  | requested s ha hs ho =>
    have hw' : (e.emitted s .openRequest).Wf := wf_emitted hw s _
    exact (registeredWith_opened hw' hs fun _ _ hd => Bool.noConfusion hd).subset
  | read h sub buf hh => exact hput hh (sub.stays_pollRead buf)
  | writeRefused h sub buf hh => exact hput hh sub.stays_checkClosed
  | flushed h sub hh => exact hput hh sub.stays_pollFlush
  | closedLocally h sub hh hc ho =>
    exact registeredWith_put_subset (held_eq_some_iff.mp hh).1 fun hd => hd
  | closeUnsent h sub hh hc ho =>
    exact registeredWith_put_subset (held_eq_some_iff.mp hh).1 fun hd => hd
  | dropped h sub hh => exact absurd rfl (hkept h)
  | connectionDropped ha =>
    rintro s ⟨h, sub, hreg, -⟩
    cases hreg
  | _ => exact subset_rfl

/-! ### Two endpoints -/

/-- Each of the two endpoints hears the other, and no id was opened at both. -/
structure Joined (e f : Endpoint P R) : Prop where
  left : e.conn.inboundRx.log <+: f.sent
  right : f.conn.inboundRx.log <+: e.sent
  apart : ∀ s, ⟨s, .openRequest⟩ ∈ e.sent → ⟨s, .openRequest⟩ ∉ f.sent

theorem Joined.symm {e f : Endpoint P R} (hj : e.Joined f) : f.Joined e :=
  ⟨hj.right, hj.left, fun s hf he => hj.apart s he hf⟩

theorem Joined.hears {e f : Endpoint P R} (hj : e.Joined f) (hf : f.Ledger) :
    e.Hears {s | ⟨s, .openRequest⟩ ∈ f.taken} f.sent where
  log := hj.left
  well := hf.wellSent
  answered _ hs := hj.right.subset (List.mem_append_left _ hs)
  apart s hs he := hj.apart s he hs

/-- An operation at one of the endpoints. -/
theorem Joined.grows {e e' f : Endpoint P R} (hj : e.Joined f) {o : Op} {a : Answer}
    (hg : e.Grows o a e') (hfresh : ∀ s, o = .pollOutbound s → ⟨s, .openRequest⟩ ∉ f.sent) :
    e'.Joined f where
  left := hg.log ▸ hj.left
  right := hj.right.trans hg.sent
  apart s he := by
    rw [← mem_requests_iff, hg.opened, List.mem_append, mem_requests_iff] at he
    rcases he with he | he
    · exact hj.apart s he
    · refine hfresh s ?_
      unfold openedIn at he
      split at he
      · rw [List.mem_singleton] at he
        rw [he]
      · cases he

end Libp2pNym.Endpoint
