import Libp2pNym.Connection.Equiv.Poll

/-!
# What an endpoint has sent and taken, and the substreams it has

A `Ledger` ties the maps of a connection to the messages it has sent and to those its `poll` has
taken from the remote: which ids are registered and which are pending, which messages can have been
sent for an id, and which chunks have reached a substream.

A ledger is kept as long as the remote's messages make sense here (`Accepts`).  Those of a remote
that keeps its own ledger do: `Fits` says which message can follow which others on the side of the
sender, and `Hears.accepts` turns it around.
-/

namespace Libp2pNym

open StepRun

variable {P R : Type}

/-! ### Message sequences -/

/-- The ids of the open requests among the messages, in order. -/
def requests (l : List SubstreamMessage) : List SubstreamId :=
  l.filterMap fun m =>
    match m.messageType with
    | .openRequest => some m.substreamId
    | _ => none

/-- The data for the substream `s` among the messages, in order. -/
def dataOf (s : SubstreamId) (l : List SubstreamMessage) : List Bytes :=
  l.filterMap fun m =>
    match m.messageType with
    | .data d => if m.substreamId = s then some d else none
    | _ => none

theorem requests_append (l l' : List SubstreamMessage) :
    requests (l ++ l') = requests l ++ requests l' := List.filterMap_append

theorem dataOf_append (s : SubstreamId) (l l' : List SubstreamMessage) :
    dataOf s (l ++ l') = dataOf s l ++ dataOf s l' := List.filterMap_append

theorem mem_requests_iff {s : SubstreamId} {l : List SubstreamMessage} :
    s ∈ requests l ↔ ⟨s, .openRequest⟩ ∈ l := by
  unfold requests
  rw [List.mem_filterMap]
  constructor
  · rintro ⟨⟨s', ty⟩, hm, heq⟩
    cases ty with
    | openRequest =>
      cases heq
      exact hm
    | openResponse => cases heq
    | close => cases heq
    | data d => cases heq
  · intro hm
    exact ⟨_, hm, rfl⟩

theorem dataOf_eq_nil {s : SubstreamId} {l : List SubstreamMessage} (h : ∀ ty, ⟨s, ty⟩ ∉ l) :
    dataOf s l = [] := by
  unfold dataOf
  rw [List.filterMap_eq_nil_iff]
  rintro ⟨s', ty⟩ hm
  cases ty with
  | data d =>
    by_cases heq : s' = s
    · subst heq
      exact absurd hm (h _)
    · exact if_neg heq
  | openRequest => rfl
  | openResponse => rfl
  | close => rfl

/-- The messages that can be sent after `pre` by an endpoint that has taken the open requests for
the ids `asked`: an id is opened once, a request of the remote is answered once, and data and a
close are for an id that was opened, here or by the remote, and not closed here. -/
def Fits (asked : Set SubstreamId) (pre : List SubstreamMessage) (m : SubstreamMessage) : Prop :=
  match m.messageType with
  | .openRequest => ⟨m.substreamId, .openRequest⟩ ∉ pre
  | .openResponse => m.substreamId ∈ asked ∧ ⟨m.substreamId, .openResponse⟩ ∉ pre
  | .close => (⟨m.substreamId, .openRequest⟩ ∈ pre ∨ m.substreamId ∈ asked) ∧
      ⟨m.substreamId, .close⟩ ∉ pre
  | .data _ => (⟨m.substreamId, .openRequest⟩ ∈ pre ∨ m.substreamId ∈ asked) ∧
      ⟨m.substreamId, .close⟩ ∉ pre

/-- Every message fits behind those before it. -/
def WellSent (asked : Set SubstreamId) (l : List SubstreamMessage) : Prop :=
  ∀ pre m, pre ++ [m] <+: l → Fits asked pre m

theorem Fits.mono {asked asked' : Set SubstreamId} {pre : List SubstreamMessage}
    {m : SubstreamMessage} (h : Fits asked pre m) (hsub : asked ⊆ asked') : Fits asked' pre m := by
  obtain ⟨s, ty⟩ := m
  cases ty with
  | openRequest => exact h
  | openResponse => exact ⟨hsub h.1, h.2⟩
  | close => exact ⟨h.1.imp_right fun hm => hsub hm, h.2⟩
  | data d => exact ⟨h.1.imp_right fun hm => hsub hm, h.2⟩

theorem wellSent_nil (asked : Set SubstreamId) : WellSent asked [] := by
  intro pre m hp
  have := hp.length_le
  simp at this

theorem WellSent.mono {asked asked' : Set SubstreamId} {l : List SubstreamMessage}
    (h : WellSent asked l) (hsub : asked ⊆ asked') : WellSent asked' l :=
  fun pre m hp => (h pre m hp).mono hsub

theorem WellSent.snoc {asked : Set SubstreamId} {l : List SubstreamMessage} {m : SubstreamMessage}
    (h : WellSent asked l) (hm : Fits asked l m) : WellSent asked (l ++ [m]) := by
  intro pre m' hp
  rcases List.prefix_concat_iff.mp hp with heq | hp
  · obtain ⟨rfl, hlast⟩ := List.append_inj' heq rfl
    cases hlast
    exact hm
  · exact h pre m' hp

/-- A message that was sent fits behind some of the others. -/
theorem WellSent.fits_of_mem {asked : Set SubstreamId} {l : List SubstreamMessage}
    {m : SubstreamMessage} (h : WellSent asked l) (hm : m ∈ l) :
    ∃ pre, pre ⊆ l ∧ Fits asked pre m := by
  obtain ⟨pre, post, rfl⟩ := List.append_of_mem hm
  refine ⟨pre, List.subset_append_left _ _, h pre m ?_⟩
  exact ⟨post, by simp⟩

/-- No message is about an id that was neither opened here nor asked for by the remote. -/
theorem WellSent.not_mem {asked : Set SubstreamId} {l : List SubstreamMessage} {s : SubstreamId}
    (h : WellSent asked l) (hn : ⟨s, .openRequest⟩ ∉ l) (ha : s ∉ asked)
    (ty : SubstreamMessageType) : ⟨s, ty⟩ ∉ l := by
  intro hm
  obtain ⟨pre, hpre, hf⟩ := h.fits_of_mem hm
  cases ty with
  | openRequest => exact hn hm
  | openResponse => exact ha hf.1
  | close => exact hf.1.elim (fun hr => hn (hpre hr)) ha
  | data d => exact hf.1.elim (fun hr => hn (hpre hr)) ha

/-! ### The ledger of an endpoint -/

namespace Endpoint

/-- The messages its `poll` has taken. -/
def taken (e : Endpoint P R) : List SubstreamMessage := e.conn.inboundRx.got

/-- The id was opened, here or by the remote. -/
def Knows (e : Endpoint P R) (s : SubstreamId) : Prop :=
  ⟨s, .openRequest⟩ ∈ e.sent ∨ ⟨s, .openRequest⟩ ∈ e.taken

/-- The id of the substream with the handle `h`. -/
def idOf (e : Endpoint P R) (h : ℕ) : Option SubstreamId :=
  (e.substreams h).map Substream.substreamId

/-- What the messages sent and taken say about the maps and the substreams of the endpoint. -/
structure Ledger (e : Endpoint P R) : Prop where
  registered : e.Alive → ∀ s, e.conn.substreamInboundTxs s ≠ none ↔
    e.Knows s ∧ ⟨s, .close⟩ ∉ e.taken
  pending : ∀ s, s ∈ e.conn.pendingSubstreams ↔
    ⟨s, .openRequest⟩ ∈ e.sent ∧ ⟨s, .openResponse⟩ ∉ e.taken
  wellSent : WellSent {s | ⟨s, .openRequest⟩ ∈ e.taken} e.sent
  known : ∀ h sub, e.substreams h = some sub → e.Knows sub.substreamId
  closed : ∀ h sub, e.substreams h = some sub → sub.closed = false →
    ⟨sub.substreamId, .close⟩ ∉ e.sent
  unique : ∀ h h' sub sub', e.substreams h = some sub → e.substreams h' = some sub' →
    sub.substreamId = sub'.substreamId → h = h'
  chunks : ∀ h sub, e.substreams h = some sub →
    sub.inboundRx.log <+: dataOf sub.substreamId e.taken
  allChunks : ∀ h sub, e.substreams h = some sub → sub.inboundRx.rxAlive = true →
    e.conn.substreamInboundTxs sub.substreamId = some h →
    sub.inboundRx.log = dataOf sub.substreamId e.taken
  opens : e.Alive → e.conn.inboundOpen.log.map e.idOf = (requests e.taken).map some
  yields : ∃ ids, e.conn.inboundOpen.got.map e.idOf = ids.map some ∧ ids <+: requests e.taken

theorem ledger_new (peerId : P) (remoteRecipient : R) (id : ConnectionId) :
    (new peerId remoteRecipient id Chan.new).Ledger where
  registered _ s := by simp [new, Connection.new, Knows, sent, taken, Outbox.sentMessages, Chan.new,
    Chan.log]
  pending s := by simp [new, Connection.new, sent, Outbox.sentMessages]
  wellSent := wellSent_nil _
  known h sub hs := by cases hs
  closed h sub hs := by cases hs
  unique h h' sub sub' hs := by cases hs
  chunks h sub hs := by cases hs
  allChunks h sub hs := by cases hs
  opens _ := rfl
  yields := ⟨[], rfl, List.nil_prefix⟩

/-- Only what the ledger speaks of matters. -/
theorem Ledger.congr {e e' : Endpoint P R} (hl : e.Ledger) (hal : e'.Alive → e.Alive)
    (htxs : e'.conn.substreamInboundTxs = e.conn.substreamInboundTxs)
    (hpend : e'.conn.pendingSubstreams = e.conn.pendingSubstreams)
    (hopen : e'.conn.inboundOpen = e.conn.inboundOpen) (hsubs : e'.substreams = e.substreams)
    (hsent : e'.sent = e.sent) (htaken : e'.taken = e.taken) : e'.Ledger := by
  have hid : e'.idOf = e.idOf := by
    unfold idOf
    rw [hsubs]
  have hknows : e'.Knows = e.Knows := by
    unfold Knows
    rw [hsent, htaken]
  constructor
  · rw [htxs, hknows, htaken]
    exact fun ha => hl.registered (hal ha)
  · rw [hpend, hsent, htaken]
    exact hl.pending
  · rw [hsent, htaken]
    exact hl.wellSent
  · rw [hsubs, hknows]
    exact hl.known
  · rw [hsubs, hsent]
    exact hl.closed
  · rw [hsubs]
    exact hl.unique
  · rw [hsubs, htaken]
    exact hl.chunks
  · rw [hsubs, htxs, htaken]
    exact hl.allChunks
  · rw [hopen, hid, htaken]
    exact fun ha => hl.opens (hal ha)
  · rw [hopen, hid, htaken]
    exact hl.yields

/-- A handle whose substream has an id keeps it through a map. -/
theorem map_idOf_congr {e e' : Endpoint P R} {l : List ℕ} {ids : List SubstreamId}
    (h : l.map e.idOf = ids.map some) (hid : ∀ h s, e.idOf h = some s → e'.idOf h = some s) :
    l.map e'.idOf = ids.map some := by
  rw [← h]
  refine List.map_congr_left fun k hk => ?_
  have hm : e.idOf k ∈ ids.map some := by
    rw [← h]
    exact List.mem_map_of_mem hk
  obtain ⟨s, -, hs⟩ := List.mem_map.mp hm
  rw [hid k s hs.symm, hs]

/-- Replacing the substream at a handle by one with the same id leaves the ids. -/
theorem idOf_insert {e : Endpoint P R} {h : ℕ} {sub sub' : Substream R}
    (hsub : e.substreams h = some sub) (hid : sub'.substreamId = sub.substreamId) (k : ℕ) :
    (e.substreams.insert h sub' k).map Substream.substreamId = e.idOf k := by
  rw [KeyMap.insert_apply]
  split
  · rename_i heq
    subst heq
    simp only [idOf, hsub, Option.map_some, hid]
  · rfl

/-- An operation on a substream that keeps its id and its chunks. -/
theorem Ledger.put {e : Endpoint P R} (hl : e.Ledger) {h : ℕ} {sub sub' : Substream R}
    (hsub : e.substreams h = some sub) (hid : sub'.substreamId = sub.substreamId)
    (hlog : sub'.inboundRx.log = sub.inboundRx.log)
    (hrx : sub'.inboundRx.rxAlive = true → sub.inboundRx.rxAlive = true)
    (hcl : sub'.closed = false → sub.closed = false) : (e.put h sub').Ledger := by
  -- what a substream of the new endpoint was in the old one
  have hback : ∀ k sub₁, (e.put h sub').substreams k = some sub₁ →
      ∃ sub₂, e.substreams k = some sub₂ ∧ sub₁.substreamId = sub₂.substreamId ∧
        sub₁.inboundRx.log = sub₂.inboundRx.log ∧
        (sub₁.inboundRx.rxAlive = true → sub₂.inboundRx.rxAlive = true) ∧
        (sub₁.closed = false → sub₂.closed = false) := by
    intro k sub₁ hk
    rcases KeyMap.insert_eq_some_iff.mp hk with ⟨rfl, rfl⟩ | ⟨-, hk⟩
    · exact ⟨sub, hsub, hid, hlog, hrx, hcl⟩
    · exact ⟨sub₁, hk, rfl, rfl, fun h => h, fun h => h⟩
  have hids : (e.put h sub').idOf = e.idOf := funext (idOf_insert hsub hid)
  refine ⟨hl.registered, hl.pending, hl.wellSent, ?_, ?_, ?_, ?_, ?_, ?_, ?_⟩
  · intro k sub₁ hk
    obtain ⟨sub₂, h2, hid, -⟩ := hback k sub₁ hk
    rw [hid]
    exact hl.known k sub₂ h2
  · intro k sub₁ hk hc
    obtain ⟨sub₂, h2, hid, -, -, hcl⟩ := hback k sub₁ hk
    rw [hid]
    exact hl.closed k sub₂ h2 (hcl hc)
  · intro k k' sub₁ sub₁' hk hk' heq
    obtain ⟨sub₂, h2, hid, -⟩ := hback k sub₁ hk
    obtain ⟨sub₂', h2', hid', -⟩ := hback k' sub₁' hk'
    rw [hid, hid'] at heq
    exact hl.unique k k' sub₂ sub₂' h2 h2' heq
  · intro k sub₁ hk
    obtain ⟨sub₂, h2, hid, hlog, -⟩ := hback k sub₁ hk
    rw [hid, hlog]
    exact hl.chunks k sub₂ h2
  · intro k sub₁ hk hr hs
    obtain ⟨sub₂, h2, hid, hlog, hrx, -⟩ := hback k sub₁ hk
    rw [hid] at hs ⊢
    rw [hlog]
    exact hl.allChunks k sub₂ h2 (hrx hr) hs
  · rw [hids]
    exact hl.opens
  · rw [hids]
    exact hl.yields

/-- A message that is not an open request was sent. -/
theorem Ledger.emitted {e : Endpoint P R} (hl : e.Ledger) {s : SubstreamId}
    {ty : SubstreamMessageType} (hne : ty ≠ .openRequest)
    (hfits : Fits {s | ⟨s, .openRequest⟩ ∈ e.taken} e.sent ⟨s, ty⟩)
    (hcl : ty = .close → ∀ h sub, e.substreams h = some sub → sub.substreamId = s →
      sub.closed = true) : (e.emitted s ty).Ledger := by
  have hsent : (e.emitted s ty).sent = e.sent ++ [⟨s, ty⟩] := Outbox.sentMessages_emit ..
  have hreq : ∀ s', (⟨s', .openRequest⟩ : SubstreamMessage) ∈ (e.emitted s ty).sent ↔
      ⟨s', .openRequest⟩ ∈ e.sent := by
    intro s'
    rw [hsent, List.mem_append, List.mem_singleton, SubstreamMessage.mk.injEq]
    exact ⟨fun h => h.resolve_right fun h => hne h.2.symm, Or.inl⟩
  have hknows : ∀ s', (e.emitted s ty).Knows s' ↔ e.Knows s' := fun s' => or_congr_left (hreq s')
  refine ⟨?_, ?_, ?_, ?_, ?_, hl.unique, hl.chunks, hl.allChunks, hl.opens, hl.yields⟩
  · intro ha s'
    rw [hknows]
    exact hl.registered ha s'
  · intro s'
    rw [hreq]
    exact hl.pending s'
  · rw [hsent]
    exact hl.wellSent.snoc hfits
  · intro h sub hs
    rw [hknows]
    exact hl.known h sub hs
  · intro h sub hs hc hm
    rw [hsent, List.mem_append, List.mem_singleton, SubstreamMessage.mk.injEq] at hm
    rcases hm with hm | ⟨hid, rfl⟩
    · exact hl.closed h sub hs hc hm
    · rw [hcl rfl h sub hs hid] at hc
      cases hc

/-- Nothing was heard of the id, and it was not opened here. -/
structure Silent (e : Endpoint P R) (s : SubstreamId) : Prop where
  taken : ∀ ty, ⟨s, ty⟩ ∉ e.taken
  sent : ⟨s, .openRequest⟩ ∉ e.sent

theorem Silent.not_knows {e : Endpoint P R} {s : SubstreamId} (hs : e.Silent s) : ¬ e.Knows s :=
  fun hk => hk.elim hs.sent (hs.taken _)

/-- Nothing was sent for the id either. -/
theorem Silent.not_mem_sent {e : Endpoint P R} {s : SubstreamId} (hs : e.Silent s) (hl : e.Ledger)
    (ty : SubstreamMessageType) : ⟨s, ty⟩ ∉ e.sent :=
  hl.wellSent.not_mem hs.sent (hs.taken _) ty

theorem Silent.not_registered {e : Endpoint P R} {s : SubstreamId} (hs : e.Silent s) (hl : e.Ledger)
    (ha : e.Alive) : e.conn.substreamInboundTxs s = none := by
  by_contra hn
  exact hs.not_knows ((hl.registered ha s).mp hn).1

/-- A substream was created for an id that nothing was heard of: the parts of the ledger about ids
and substreams. -/
theorem Ledger.of_opened {e e' : Endpoint P R} (hl : e.Ledger) {s : SubstreamId}
    (hs : e.Silent s) (hal : e'.Alive → e.Alive)
    (htxs : e'.conn.substreamInboundTxs = e.conn.substreamInboundTxs.insert s e.next)
    (hsubs : e'.substreams = e.substreams.insert e.next
      (.new e.conn.remoteRecipient e.conn.id s Chan.new Oneshot.new))
    (hknows : ∀ s', e'.Knows s' ↔ s' = s ∨ e.Knows s')
    (hct : ∀ s', (⟨s', .close⟩ : SubstreamMessage) ∈ e'.taken ↔ ⟨s', .close⟩ ∈ e.taken)
    (hcs : ∀ s', (⟨s', .close⟩ : SubstreamMessage) ∈ e'.sent ↔ ⟨s', .close⟩ ∈ e.sent)
    (hdata : ∀ s', dataOf s' e'.taken = dataOf s' e.taken)
    (hpend : ∀ s', s' ∈ e'.conn.pendingSubstreams ↔
      ⟨s', .openRequest⟩ ∈ e'.sent ∧ ⟨s', .openResponse⟩ ∉ e'.taken)
    (hwell : WellSent {s | ⟨s, .openRequest⟩ ∈ e'.taken} e'.sent)
    (hopens : e'.Alive → e'.conn.inboundOpen.log.map e'.idOf = (requests e'.taken).map some)
    (hyields : ∃ ids, e'.conn.inboundOpen.got.map e'.idOf = ids.map some ∧
      ids <+: requests e'.taken) : e'.Ledger := by
  -- the substreams are the new one, with the id `s`, and the old ones, with other ids
  have hcases : ∀ h sub, e'.substreams h = some sub →
      (h = e.next ∧ sub = .new e.conn.remoteRecipient e.conn.id s Chan.new Oneshot.new) ∨
      (e.substreams h = some sub ∧ sub.substreamId ≠ s) := by
    intro h sub hsub
    rw [hsubs] at hsub
    rcases KeyMap.insert_eq_some_iff.mp hsub with ⟨heq, rfl⟩ | ⟨-, hsub⟩
    · exact Or.inl ⟨heq, rfl⟩
    · refine Or.inr ⟨hsub, fun heq => hs.not_knows ?_⟩
      rw [← heq]
      exact hl.known h sub hsub
  refine ⟨?_, hpend, hwell, ?_, ?_, ?_, ?_, ?_, hopens, hyields⟩
  · intro ha s'
    rw [htxs, KeyMap.insert_apply, hknows, hct]
    by_cases heq : s' = s
    · subst heq
      simp only [↓reduceIte, ne_eq, reduceCtorEq, not_false_eq_true, true_or, true_and, true_iff]
      exact hs.taken _
    · simp only [heq, ↓reduceIte, false_or]
      exact hl.registered (hal ha) s'
  · intro h sub hsub
    rw [hknows]
    rcases hcases h sub hsub with ⟨-, rfl⟩ | ⟨hsub, -⟩
    · exact Or.inl rfl
    · exact Or.inr (hl.known h sub hsub)
  · intro h sub hsub hc
    rw [hcs]
    rcases hcases h sub hsub with ⟨-, rfl⟩ | ⟨hsub, -⟩
    · exact hs.not_mem_sent hl _
    · exact hl.closed h sub hsub hc
  · intro h h' sub sub' hsub hsub' heq
    rcases hcases h sub hsub with ⟨rfl, rfl⟩ | ⟨hsub, hne⟩
    · rcases hcases h' sub' hsub' with ⟨rfl, -⟩ | ⟨-, hne'⟩
      · rfl
      · exact absurd heq.symm hne'
    · rcases hcases h' sub' hsub' with ⟨-, rfl⟩ | ⟨hsub', -⟩
      · exact absurd heq hne
      · exact hl.unique h h' sub sub' hsub hsub' heq
  · intro h sub hsub
    rw [hdata]
    rcases hcases h sub hsub with ⟨-, rfl⟩ | ⟨hsub, -⟩
    · exact List.nil_prefix
    · exact hl.chunks h sub hsub
  · intro h sub hsub hrx hreg
    rw [hdata]
    rcases hcases h sub hsub with ⟨-, rfl⟩ | ⟨hsub, hne⟩
    · exact (dataOf_eq_nil hs.taken).symm
    · rw [htxs, KeyMap.insert_of_ne _ _ hne] at hreg
      exact hl.allChunks h sub hsub hrx hreg

/-- An id keeps the substream it has when another one is created. -/
theorem idOf_opened {e : Endpoint P R} (hw : e.Wf) {s s' : SubstreamId} {h : ℕ}
    (hid : e.idOf h = some s') : (e.opened s).idOf h = some s' := by
  unfold idOf at hid ⊢
  rw [Option.map_eq_some_iff] at hid
  obtain ⟨sub, hsub, rfl⟩ := hid
  have hlt := hw.lt_next hsub
  have hkeep : (e.opened s).substreams h = e.substreams h := KeyMap.insert_of_ne _ _ (by omega)
  rw [hkeep, hsub, Option.map_some]

/-- A local open of an id that nothing was heard of. -/
theorem Ledger.requested {e : Endpoint P R} (hw : e.Wf) (hl : e.Ledger) {s : SubstreamId}
    (hs : e.Silent s) : (e.requested s).Ledger := by
  have hsent : (e.requested s).sent = e.sent ++ [⟨s, .openRequest⟩] := Outbox.sentMessages_emit ..
  have htaken : (e.requested s).taken = e.taken := rfl
  have hids : ∀ h s', e.idOf h = some s' → (e.requested s).idOf h = some s' :=
    fun h s' hid => idOf_opened hw hid
  refine Ledger.of_opened hl hs id rfl rfl ?_ (fun _ => Iff.rfl) ?_
    (fun _ => rfl) ?_ ?_ ?_ ?_
  · intro s'
    unfold Knows
    rw [hsent, htaken, List.mem_append, List.mem_singleton, SubstreamMessage.mk.injEq]
    simp only [and_true]
    rw [or_comm (a := _ ∈ e.sent), or_assoc]
  · intro s'
    rw [hsent]
    simp
  · intro s'
    show s' ∈ insert s e.conn.pendingSubstreams ↔ _
    rw [Finset.mem_insert, hl.pending, hsent, htaken]
    by_cases heq : s' = s
    · subst heq
      simp [hs.taken]
    · simp [heq]
  · rw [hsent]
    exact hl.wellSent.snoc hs.sent
  · exact fun ha => map_idOf_congr (hl.opens ha) hids
  · obtain ⟨ids, hids', hp⟩ := hl.yields
    exact ⟨ids, map_idOf_congr hids' hids, hp⟩

/-! ### Taking a message -/

/-- The messages that make sense at the endpoint: a request for an id that nothing was heard of, a
response to a request that was not answered, data and a close for an id that was opened and not
closed by the remote. -/
def Accepts (e : Endpoint P R) (m : SubstreamMessage) : Prop :=
  match m.messageType with
  | .openRequest => e.Silent m.substreamId
  | .openResponse =>
    ⟨m.substreamId, .openRequest⟩ ∈ e.sent ∧ ⟨m.substreamId, .openResponse⟩ ∉ e.taken
  | .close => e.Knows m.substreamId ∧ ⟨m.substreamId, .close⟩ ∉ e.taken
  | .data _ => e.Knows m.substreamId ∧ ⟨m.substreamId, .close⟩ ∉ e.taken

/-- The remote's request was accepted. -/
theorem Ledger.accepted {e : Endpoint P R} (hw : e.Wf) (hl : e.Ledger) {s : SubstreamId}
    (hs : e.Silent s) (rest : List SubstreamMessage) :
    ((e.took ⟨s, .openRequest⟩ rest).accepted s).Ledger := by
  have hsent : ((e.took ⟨s, .openRequest⟩ rest).accepted s).sent = e.sent ++ [⟨s, .openResponse⟩] :=
    Outbox.sentMessages_emit ..
  have htaken : ((e.took ⟨s, .openRequest⟩ rest).accepted s).taken
      = e.taken ++ [⟨s, .openRequest⟩] := rfl
  have hids : ∀ h s', e.idOf h = some s' →
      ((e.took ⟨s, .openRequest⟩ rest).accepted s).idOf h = some s' :=
    fun h s' hid => idOf_opened hw hid
  have hnew : ((e.took ⟨s, .openRequest⟩ rest).accepted s).idOf e.next = some s := by
    show (e.substreams.insert e.next _ e.next).map _ = _
    rw [KeyMap.insert_self]
    rfl
  have hreq : requests (e.taken ++ [⟨s, .openRequest⟩]) = requests e.taken ++ [s] :=
    requests_append ..
  refine Ledger.of_opened hl hs id rfl rfl ?_ ?_ ?_ ?_ ?_ ?_ ?_ ?_
  · intro s'
    unfold Knows
    rw [hsent, htaken]
    simp only [List.mem_append, List.mem_singleton, SubstreamMessage.mk.injEq, reduceCtorEq,
      and_false, or_false, and_true]
    rw [← or_assoc, or_comm]
  · intro s'
    rw [htaken]
    simp
  · intro s'
    rw [hsent]
    simp
  · intro s'
    rw [htaken, dataOf_append]
    exact List.append_nil _
  · intro s'
    show s' ∈ e.conn.pendingSubstreams ↔ _
    rw [hl.pending, hsent, htaken]
    simp
  · rw [hsent, htaken]
    have hmono : WellSent {s' | ⟨s', .openRequest⟩ ∈ e.taken ++ [⟨s, .openRequest⟩]} e.sent :=
      hl.wellSent.mono fun s' hs' => List.mem_append_left _ hs'
    refine hmono.snoc ⟨?_, hs.not_mem_sent hl _⟩
    exact List.mem_append_right _ (List.mem_singleton_self _)
  · intro ha
    have hlog : ((e.took ⟨s, .openRequest⟩ rest).accepted s).conn.inboundOpen.log
        = e.conn.inboundOpen.log ++ [e.next] := by
      show _ ++ (_ ++ _) = _
      rw [← List.append_assoc]
      rfl
    rw [hlog, htaken, hreq, List.map_append, List.map_append, map_idOf_congr (hl.opens ha) hids,
      List.map_singleton, List.map_singleton, hnew]
  · obtain ⟨ids, hgot, hp⟩ := hl.yields
    refine ⟨ids, map_idOf_congr hgot hids, ?_⟩
    rw [htaken, hreq]
    exact hp.trans (List.prefix_append _ _)

/-- Another message was taken: the parts of the ledger that do not depend on which. -/
theorem Ledger.of_took {e e' : Endpoint P R} (hl : e.Ledger) {m : SubstreamMessage}
    (hne : m.messageType ≠ .openRequest) (hal : e'.Alive → e.Alive)
    (htaken : e'.taken = e.taken ++ [m]) (hsent : e'.sent = e.sent)
    (hopen : e'.conn.inboundOpen = e.conn.inboundOpen) (hids : e'.idOf = e.idOf)
    (hback : ∀ h sub', e'.substreams h = some sub' → ∃ sub, e.substreams h = some sub ∧
      sub'.substreamId = sub.substreamId ∧ sub'.closed = sub.closed)
    (hreg : ∀ s, e'.conn.substreamInboundTxs s ≠ none ↔
      e.conn.substreamInboundTxs s ≠ none ∧ m ≠ ⟨s, .close⟩)
    (hpend : ∀ s, s ∈ e'.conn.pendingSubstreams ↔
      s ∈ e.conn.pendingSubstreams ∧ m ≠ ⟨s, .openResponse⟩)
    (hchunks : ∀ h sub, e'.substreams h = some sub →
      sub.inboundRx.log <+: dataOf sub.substreamId e'.taken)
    (hall : ∀ h sub, e'.substreams h = some sub → sub.inboundRx.rxAlive = true →
      e'.conn.substreamInboundTxs sub.substreamId = some h →
      sub.inboundRx.log = dataOf sub.substreamId e'.taken) : e'.Ledger := by
  have hmem : ∀ s, (⟨s, .openRequest⟩ : SubstreamMessage) ∈ e'.taken ↔
      ⟨s, .openRequest⟩ ∈ e.taken := by
    intro s
    rw [htaken, List.mem_append, List.mem_singleton]
    refine ⟨fun h => h.resolve_right fun h => hne ?_, Or.inl⟩
    rw [← h]
  have hknows : ∀ s, e'.Knows s ↔ e.Knows s := by
    intro s
    unfold Knows
    rw [hsent, hmem]
  have hreqs : requests e'.taken = requests e.taken := by
    rw [htaken, requests_append]
    obtain ⟨s, ty⟩ := m
    cases ty with
    | openRequest => exact absurd rfl hne
    | openResponse => exact List.append_nil _
    | close => exact List.append_nil _
    | data d => exact List.append_nil _
  refine ⟨?_, ?_, ?_, ?_, ?_, ?_, hchunks, hall, ?_, ?_⟩
  · intro ha s
    rw [hreg, hl.registered (hal ha), hknows, htaken, List.mem_append, List.mem_singleton, not_or,
      and_assoc, ne_comm]
  · intro s
    rw [hpend, hl.pending, hsent, htaken, List.mem_append, List.mem_singleton, not_or, and_assoc,
      ne_comm]
  · simp only [hmem, hsent]
    exact hl.wellSent
  · intro h sub' hs'
    obtain ⟨sub, hs, hid, -⟩ := hback h sub' hs'
    rw [hknows, hid]
    exact hl.known h sub hs
  · intro h sub' hs' hc
    obtain ⟨sub, hs, hid, hcl⟩ := hback h sub' hs'
    rw [hsent, hid]
    exact hl.closed h sub hs (hcl ▸ hc)
  · intro h h' sub sub' hs hs' heq
    obtain ⟨sub₁, hs₁, hid, -⟩ := hback h sub hs
    obtain ⟨sub₁', hs₁', hid', -⟩ := hback h' sub' hs'
    rw [hid, hid'] at heq
    exact hl.unique h h' sub₁ sub₁' hs₁ hs₁' heq
  · rw [hopen, hids, hreqs]
    exact fun ha => hl.opens (hal ha)
  · rw [hopen, hids, hreqs]
    exact hl.yields

theorem Ledger.responded {e : Endpoint P R} (hl : e.Ledger) (s : SubstreamId)
    (rest : List SubstreamMessage) :
    Ledger { e.took ⟨s, .openResponse⟩ rest with
      conn.pendingSubstreams := e.conn.pendingSubstreams.erase s } := by
  have hdata : ∀ s', dataOf s' (e.taken ++ [⟨s, .openResponse⟩]) = dataOf s' e.taken :=
    fun s' => (dataOf_append ..).trans (List.append_nil _)
  refine hl.of_took (m := ⟨s, .openResponse⟩) (by simp) id rfl rfl rfl rfl
    (fun h sub hs => ⟨sub, hs, rfl, rfl⟩) ?_ ?_ ?_ ?_
  · intro s'
    simp [took]
  · intro s'
    show s' ∈ e.conn.pendingSubstreams.erase s ↔ _
    rw [Finset.mem_erase]
    simp only [ne_eq, SubstreamMessage.mk.injEq, and_true]
    rw [and_comm, eq_comm]
  · intro h sub hs
    show _ <+: dataOf _ (e.taken ++ [_])
    rw [hdata]
    exact hl.chunks h sub hs
  · intro h sub hs hrx hreg
    show _ = dataOf _ (e.taken ++ [_])
    rw [hdata]
    exact hl.allChunks h sub hs hrx hreg

theorem Ledger.closedBy {e : Endpoint P R} (hl : e.Ledger) {s : SubstreamId} {h : ℕ}
    {sub : Substream R} (hsub : e.substreams h = some sub)
    (rest : List SubstreamMessage) : ((e.took ⟨s, .close⟩ rest).closedBy s h sub).Ledger := by
  have hdata : ∀ s', dataOf s' (e.taken ++ [⟨s, .close⟩]) = dataOf s' e.taken :=
    fun s' => (dataOf_append ..).trans (List.append_nil _)
  have hback : ∀ k sub', ((e.took ⟨s, .close⟩ rest).closedBy s h sub).substreams k = some sub' →
      ∃ sub₁, e.substreams k = some sub₁ ∧ sub'.substreamId = sub₁.substreamId ∧
        sub'.closed = sub₁.closed ∧ sub'.inboundRx.log = sub₁.inboundRx.log ∧
        sub'.inboundRx.rxAlive = sub₁.inboundRx.rxAlive := by
    intro k sub' hk
    rcases KeyMap.insert_eq_some_iff.mp hk with ⟨rfl, rfl⟩ | ⟨-, hk⟩
    · exact ⟨sub, hsub, rfl, rfl, rfl, rfl⟩
    · exact ⟨sub', hk, rfl, rfl, rfl, rfl⟩
  refine hl.of_took (m := ⟨s, .close⟩) (by simp) id rfl rfl rfl ?_ ?_ ?_ ?_ ?_ ?_
  · funext k
    show (e.substreams.insert h _ k).map Substream.substreamId = _
    exact idOf_insert hsub (by rfl) k
  · intro k sub' hk
    obtain ⟨sub₁, hs₁, hid, hcl, -⟩ := hback k sub' hk
    exact ⟨sub₁, hs₁, hid, hcl⟩
  · intro s'
    show e.conn.substreamInboundTxs.remove s s' ≠ none ↔ _
    rw [KeyMap.remove_apply]
    by_cases heq : s' = s
    · subst heq
      simp
    · simp [heq, Ne.symm heq]
  · intro s'
    show s' ∈ e.conn.pendingSubstreams ↔ _
    simp
  · intro k sub' hk
    obtain ⟨sub₁, hs₁, hid, -, hlog, -⟩ := hback k sub' hk
    show _ <+: dataOf _ (e.taken ++ [_])
    rw [hdata, hid, hlog]
    exact hl.chunks k sub₁ hs₁
  · intro k sub' hk hrx hreg
    obtain ⟨sub₁, hs₁, hid, -, hlog, hrx'⟩ := hback k sub' hk
    show _ = dataOf _ (e.taken ++ [_])
    rw [hdata, hid, hlog]
    refine hl.allChunks k sub₁ hs₁ (hrx' ▸ hrx) ?_
    rw [← hid]
    exact (KeyMap.remove_eq_some_iff.mp hreg).2

theorem Ledger.data {e : Endpoint P R} (hw : e.Wf) (hl : e.Ledger) {s : SubstreamId} {h : ℕ}
    {sub : Substream R} (hreg : e.conn.substreamInboundTxs s = some h)
    (hsub : e.substreams h = some sub) (d : Bytes) (rest : List SubstreamMessage) :
    ((e.took ⟨s, .data d⟩ rest).put h (receivedData sub d)).Ledger := by
  have hid : sub.substreamId = s := by
    obtain ⟨sub', hsub', hid⟩ := hw.registered s h hreg
    rw [hsub] at hsub'
    cases hsub'
    exact hid
  have hsame : dataOf s (e.taken ++ [⟨s, .data d⟩]) = dataOf s e.taken ++ [d] := by
    rw [dataOf_append]
    simp [dataOf]
  have hother : ∀ s', s' ≠ s → dataOf s' (e.taken ++ [⟨s, .data d⟩]) = dataOf s' e.taken := by
    intro s' hne
    rw [dataOf_append]
    simp [dataOf, Ne.symm hne]
  -- the substream of the data, or another one
  have hcases : ∀ k sub', ((e.took ⟨s, .data d⟩ rest).put h (receivedData sub d)).substreams k
      = some sub' → (k = h ∧ sub' = receivedData sub d) ∨
        (e.substreams k = some sub' ∧ sub'.substreamId ≠ s) := by
    intro k sub' hk
    rcases KeyMap.insert_eq_some_iff.mp hk with ⟨heq, rfl⟩ | ⟨hne, hk⟩
    · exact Or.inl ⟨heq, rfl⟩
    · exact Or.inr ⟨hk, fun heq => hne (hl.unique k h sub' sub hk hsub (heq.trans hid.symm))⟩
  refine hl.of_took (m := ⟨s, .data d⟩) (by simp) id rfl rfl rfl ?_ ?_ ?_ ?_ ?_ ?_
  · funext k
    show (e.substreams.insert h _ k).map Substream.substreamId = _
    exact idOf_insert hsub (by rfl) k
  · intro k sub' hk
    rcases hcases k sub' hk with ⟨rfl, rfl⟩ | ⟨hk, -⟩
    · exact ⟨sub, hsub, rfl, rfl⟩
    · exact ⟨sub', hk, rfl, rfl⟩
  · intro s'
    simp [Endpoint.put, took]
  · intro s'
    simp [Endpoint.put, took]
  · intro k sub' hk
    show _ <+: dataOf _ (e.taken ++ [_])
    rcases hcases k sub' hk with ⟨rfl, rfl⟩ | ⟨hk, hne⟩
    · have hid' : (receivedData sub d).substreamId = s := hid
      rw [hid', hsame]
      by_cases hrx : sub.inboundRx.rxAlive = true
      · have hlog := hl.allChunks k sub hsub hrx (hid ▸ hreg)
        rw [hid] at hlog
        have hnew : (receivedData sub d).inboundRx.log = sub.inboundRx.log ++ [d] := by
          simp [receivedData, Chan.send, hrx, Chan.log]
        rw [hnew, hlog]
      · have hold : (receivedData sub d).inboundRx.log = sub.inboundRx.log := by
          simp [receivedData, Chan.send, hrx]
        rw [hold, ← hid]
        exact (hl.chunks k sub hsub).trans (List.prefix_append _ _)
    · rw [hother _ hne]
      exact hl.chunks k sub' hk
  · intro k sub' hk hrx hreg'
    show _ = dataOf _ (e.taken ++ [_])
    rcases hcases k sub' hk with ⟨rfl, rfl⟩ | ⟨hk, hne⟩
    · have hid' : (receivedData sub d).substreamId = s := hid
      rw [rxAlive_receivedData] at hrx
      have hlog := hl.allChunks k sub hsub hrx (hid ▸ hreg)
      rw [hid] at hlog
      have hnew : (receivedData sub d).inboundRx.log = sub.inboundRx.log ++ [d] := by
        simp [receivedData, Chan.send, hrx, Chan.log]
      rw [hid', hsame, hnew, hlog]
    · rw [hother _ hne]
      exact hl.allChunks k sub' hk hrx hreg'

/-- **Taking a message that makes sense** is never answered with an error, and keeps the ledger. -/
theorem Ledger.handles {e e' : Endpoint P R} (hw : e.Wf) (hl : e.Ledger) (ha : e.Alive)
    (ho : e.outbox.Alive) {s : SubstreamId} {ty : SubstreamMessageType} (hacc : e.Accepts ⟨s, ty⟩)
    {rest : List SubstreamMessage} {r : Except Error Unit}
    (hh : Handles (e.took ⟨s, ty⟩ rest) s ty e' r) : r = .ok () ∧ e'.Ledger := by
  have hreg := hl.registered ha s
  cases hh with
  | openExists h hs =>
    have hnone := Silent.not_registered hacc hl ha
    have hs' : e.conn.substreamInboundTxs s = some h := hs
    rw [hnone] at hs'
    cases hs'
  | openAccepted hs hal => exact ⟨rfl, hl.accepted hw hacc rest⟩
  | openUnanswered hs hal => exact absurd ho hal
  | openResponse => exact ⟨rfl, hl.responded s rest⟩
  | closeUnknown hs => exact absurd hs (hreg.mpr hacc)
  | closed h sub hs hsub halive => exact ⟨rfl, hl.closedBy hsub rest⟩
  | data h d hs =>
    obtain ⟨sub, hsub, -⟩ := hw.registered s h hs
    have hsub' : (e.took ⟨s, .data d⟩ rest).substreams h = some sub := hsub
    rw [sendData_eq_put hsub']
    exact ⟨rfl, hl.data hw hs hsub d rest⟩

end Endpoint

end Libp2pNym
