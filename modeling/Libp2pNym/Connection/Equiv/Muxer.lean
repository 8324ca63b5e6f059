import Libp2pNym.Connection.Equiv.Poll
import Mathlib.Data.Finset.Card
import Mathlib.Data.Finset.Range

/-!
# What `poll_close` reports

`poll_close` of a connection takes one entry off a channel that `handle_close` fills, once for each
substream the remote has closed.  So its answer is about one substream, and not about the
connection: `pollClose_reports` says that the answers `Ready(Ok)` are never more than the substreams
that were closed, that one more comes exactly while there are fewer, and that no substream is open
once there were as many as substreams were created.  `pollClose_sampleOneOfTwo` is an answer while
another substream is open.

`Accounts e closed` is the invariant: the entries that were ever put on the channel stand for the
handles `closed`, one each, and these are the handles that were given out and are not registered.
-/

namespace Libp2pNym.Endpoint

open StepRun

variable {P R : Type}

/-- How often `poll_close` has answered `Ready(Ok)`. -/
def reports (as : List Answer) : ℕ := as.count (.pollClose (.ready (.ok ())))

/-- `closed` are the substreams the remote has closed, as many as were put on the channel of
`poll_close`. -/
structure Accounts (e : Endpoint P R) (closed : List ℕ) : Prop where
  nodup : closed.Nodup
  length : closed.length = e.conn.closeIds.log.length
  mem_iff : ∀ h, h ∈ closed ↔ h < e.next ∧ ∀ s, e.conn.substreamInboundTxs s ≠ some h

theorem Accounts.congr {e e' : Endpoint P R} {closed : List ℕ} (ha : e.Accounts closed)
    (htxs : e'.conn.substreamInboundTxs = e.conn.substreamInboundTxs) (hnext : e'.next = e.next)
    (hlog : e'.conn.closeIds.log = e.conn.closeIds.log) : e'.Accounts closed where
  nodup := ha.nodup
  length := by rw [ha.length, hlog]
  mem_iff h := by rw [ha.mem_iff, htxs, hnext]

/-- A new substream is registered, and the others stay as they were. -/
theorem Accounts.opened {e : Endpoint P R} {closed : List ℕ} (ha : e.Accounts closed)
    {s : SubstreamId} (hn : e.conn.substreamInboundTxs s = none) :
    (e.opened s).Accounts closed where
  nodup := ha.nodup
  length := ha.length
  mem_iff h := by
    show h ∈ closed ↔ h < e.next + 1 ∧ ∀ s', e.conn.substreamInboundTxs.insert s e.next s' ≠ some h
    rw [ha.mem_iff]
    constructor
    · rintro ⟨hlt, hreg⟩
      refine ⟨by omega, fun s' hs' => ?_⟩
      rcases KeyMap.insert_eq_some_iff.mp hs' with ⟨-, rfl⟩ | ⟨-, hs'⟩
      · omega
      · exact hreg s' hs'
    · rintro ⟨hlt, hreg⟩
      have hne : h ≠ e.next := by
        rintro rfl
        exact hreg s (KeyMap.insert_self ..)
      refine ⟨by omega, fun s' hs' => hreg s' ?_⟩
      have hss : s' ≠ s := by
        rintro rfl
        rw [hn] at hs'
        cases hs'
      exact (KeyMap.insert_of_ne _ _ hss).trans hs'

/-- The substream that is closed is the last one on the channel. -/
theorem Accounts.closedBy {e : Endpoint P R} {closed : List ℕ} (hw : e.Wf) (ha : e.Accounts closed)
    {s : SubstreamId} {h : ℕ} {sub : Substream R} (hs : e.conn.substreamInboundTxs s = some h)
    (hsub : e.substreams h = some sub) : (e.closedBy s h sub).Accounts (closed ++ [h]) where
  nodup := by
    have hnot : h ∉ closed := fun hm => ((ha.mem_iff h).mp hm).2 s hs
    rw [List.nodup_append]
    refine ⟨ha.nodup, List.nodup_singleton h, fun k hk k' hk' => ?_⟩
    rw [List.mem_singleton] at hk'
    rw [hk']
    exact fun heq => hnot (heq ▸ hk)
  length := by
    have hlog : (e.closedBy s h sub).conn.closeIds.log = e.conn.closeIds.log ++ [s] :=
      (List.append_assoc ..).symm
    rw [hlog, List.length_append, List.length_append, ha.length]
    rfl
  mem_iff k := by
    show k ∈ closed ++ [h] ↔ k < e.next ∧ ∀ s', e.conn.substreamInboundTxs.remove s s' ≠ some k
    rw [List.mem_append, List.mem_singleton, ha.mem_iff]
    constructor
    · rintro (⟨hlt, hreg⟩ | rfl)
      · exact ⟨hlt, fun s' hs' => hreg s' (KeyMap.remove_eq_some_iff.mp hs').2⟩
      · refine ⟨hw.lt_next hsub, fun s' hs' => ?_⟩
        obtain ⟨hne, hs'⟩ := KeyMap.remove_eq_some_iff.mp hs'
        exact hne (hw.id_unique hs' hs)
    · rintro ⟨hlt, hreg⟩
      by_cases hk : k = h
      · exact Or.inr hk
      · refine Or.inl ⟨hlt, fun s' hs' => hreg s' ?_⟩
        have hss : s' ≠ s := by
          rintro rfl
          rw [hs] at hs'
          cases hs'
          exact hk rfl
        exact (KeyMap.remove_of_ne _ hss).trans hs'

/-- What is known of the channel of `poll_close` after it has answered `Ready(Ok)` `n` times. -/
structure Reported (e : Endpoint P R) (n : ℕ) : Prop where
  got : e.conn.closeIds.got.length = n
  accounts : e.Alive → ∃ closed, e.Accounts closed

theorem Reported.imp {e e' : Endpoint P R} {n : ℕ} (hr : e.Reported n)
    (hgot : e'.conn.closeIds.got = e.conn.closeIds.got) (hal : e'.Alive → e.Alive)
    (hacc : ∀ closed, e.Accounts closed → ∃ closed', e'.Accounts closed') : e'.Reported n := by
  refine ⟨by rw [hgot, hr.got], fun ha => ?_⟩
  obtain ⟨closed, hc⟩ := hr.accounts (hal ha)
  exact hacc closed hc

theorem reported_handles {e e' : Endpoint P R} (hw : e.Wf) {n : ℕ} (hr : e.Reported n)
    {s : SubstreamId} {ty : SubstreamMessageType} {r : Except Error Unit}
    (hh : Handles e s ty e' r) : e'.Reported n := by
  cases hh with
  | openExists h hs => exact hr
  | openAccepted hs hal =>
    exact hr.imp rfl id fun closed hc => ⟨closed, (hc.opened hs).congr rfl rfl rfl⟩
  | openUnanswered hs hal =>
    exact hr.imp rfl id fun closed hc => ⟨closed, (hc.opened hs).congr rfl rfl rfl⟩
  | openResponse =>
    exact hr.imp rfl id fun closed hc => ⟨closed, hc.congr rfl rfl rfl⟩
  | closeUnknown hs => exact hr
  | closed h sub hs hsub halive =>
    exact hr.imp rfl id fun closed hc => ⟨closed ++ [h], hc.closedBy hw hs hsub⟩
  | data h d hs =>
    exact hr.imp rfl id fun closed hc => ⟨closed, hc.congr rfl rfl rfl⟩

theorem reported_pollLoop {fuel : ℕ} {e e' : Endpoint P R} {n : ℕ}
    {r : Poll (Except Error StreamMuxerEvent)} (hw : e.Wf) (hr : e.Reported n)
    (h : pollLoop fuel e = .ok (e', r)) : e'.Reported n := by
  refine (pollLoop_induction (I := fun e => e.Wf ∧ e.Reported n) ?_ ⟨hw, hr⟩ h).2
  rintro e msg rest e' r ⟨hw, hr⟩ - hm
  have hw₁ := hw.took msg rest
  have hh := handles_of_handleMessage hw₁ hm
  have hr₁ : (e.took msg rest).Reported n :=
    hr.imp rfl id fun closed hc => ⟨closed, hc.congr rfl rfl rfl⟩
  exact ⟨wf_handles hw₁ hh, reported_handles hw₁ hr₁ hh⟩

theorem reported_steps {e e' : Endpoint P R} (hw : e.Wf) {n : ℕ} (hr : e.Reported n) {o : Op}
    {a : Answer} (hs : Steps e o e' a) :
    e'.Reported (n + if a = .pollClose (.ready (.ok ())) then 1 else 0) := by
  -- an operation that does not touch the registered ids and the channel
  have hframe : ∀ e' : Endpoint P R, (e'.Alive → e.Alive) →
      e'.conn.substreamInboundTxs = e.conn.substreamInboundTxs → e'.next = e.next →
      e'.conn.closeIds = e.conn.closeIds → e'.Reported n := by
    intro e' hal htxs hnext hids
    exact hr.imp (by rw [hids]) hal fun closed hc => ⟨closed, hc.congr htxs hnext (by rw [hids])⟩
  cases hs with
  | skip o => exact hr
  | receive msg ha => exact hframe _ id rfl rfl rfl
  | poll e' r ha hp => exact reported_pollLoop hw hr hp
  | yielded h rest ha hq => exact hframe _ id rfl rfl rfl
  | notYielded hq => exact hr
  | requested s ha hn ho =>
    refine hr.imp rfl id fun closed hc => ?_
    have he : (e.emitted s .openRequest).Accounts closed := hc.congr rfl rfl rfl
    exact ⟨closed, (he.opened hn).congr rfl rfl rfl⟩
  | requestExists s h ha hreg ho => exact hframe _ id rfl rfl rfl
  | requestUnsent s ha ho => exact hframe _ id rfl rfl rfl
  | closeReported s rest hq =>
    rw [if_pos rfl]
    refine ⟨?_, fun ha => ?_⟩
    · rw [← hr.got]
      exact List.length_append
    · obtain ⟨closed, hc⟩ := hr.accounts ha
      refine ⟨closed, hc.congr rfl rfl ?_⟩
      show e.conn.closeIds.got ++ [s] ++ rest = e.conn.closeIds.got ++ e.conn.closeIds.queue
      rw [hq, List.append_assoc]
      rfl
  | closeNotReported hq => exact hr
  | read h sub buf hh => exact hframe _ id rfl rfl rfl
  | writeRefused h sub buf hh => exact hframe _ id rfl rfl rfl
  | written h sub buf hh hc hn ho => exact hframe _ id rfl rfl rfl
  | writeUnsent h sub buf hh ho => exact hframe _ id rfl rfl rfl
  | flushed h sub hh => exact hframe _ id rfl rfl rfl
  | closeRefused h sub hh hc => exact hframe _ id rfl rfl rfl
  | closedLocally h sub hh hc ho => exact hframe _ id rfl rfl rfl
  | closeUnsent h sub hh hc ho => exact hframe _ id rfl rfl rfl
  | dropped h sub hh => exact hframe _ id rfl rfl rfl
  | connectionDropped ha => exact ⟨hr.got, fun ha' => (by cases ha')⟩

theorem reported_run (peerId : P) (remoteRecipient : R) (id : ConnectionId)
    (outboundTx : Chan (OutboundMessage P R)) {ops : List Op} {e : Endpoint P R} {as : List Answer}
    (hrun : run step (new peerId remoteRecipient id outboundTx) ops = .ok (e, as)) :
    e.Reported (reports as) := by
  have hw := wf_new peerId remoteRecipient id outboundTx
  refine run_induction (I := fun _ as (e : Endpoint P R) => e.Reported (reports as)) ?_ ?_ hrun
  · refine ⟨rfl, fun _ => ⟨[], List.nodup_nil, rfl, fun h => ?_⟩⟩
    exact ⟨fun hm => absurd hm List.not_mem_nil, fun hlt => absurd hlt.1 (Nat.not_lt_zero h)⟩
  · intro xs as m o t a hr ih hs
    have hwm := wf_run hw hr
    have hcount : reports (as ++ [a])
        = reports as + if a = .pollClose (.ready (.ok ())) then 1 else 0 := by
      unfold reports
      rw [List.count_append, List.count_singleton]
      simp only [beq_iff_eq]
    rw [hcount]
    exact reported_steps hwm ih (steps_of_step hwm hs)

/-- When as many handles were closed as were given out, no id is registered. -/
theorem Accounts.none_registered {e : Endpoint P R} {closed : List ℕ} (hw : e.Wf)
    (ha : e.Accounts closed) (hle : e.next ≤ closed.length) (s : SubstreamId) :
    e.conn.substreamInboundTxs s = none := by
  have hsub : closed.toFinset ⊆ Finset.range e.next := by
    intro h hm
    rw [List.mem_toFinset] at hm
    exact Finset.mem_range.mpr ((ha.mem_iff h).mp hm).1
  have hall : closed.toFinset = Finset.range e.next := by
    refine Finset.eq_of_subset_of_card_le hsub ?_
    rw [Finset.card_range, List.toFinset_card_of_nodup ha.nodup]
    exact hle
  cases hs : e.conn.substreamInboundTxs s with
  | none => rfl
  | some h =>
    obtain ⟨sub, hsub', -⟩ := hw.registered s h hs
    have hm : h ∈ closed := by
      rw [← List.mem_toFinset, hall, Finset.mem_range]
      exact hw.lt_next hsub'
    exact absurd hs (((ha.mem_iff h).mp hm).2 s)

/-- **`poll_close` reports closed substreams, one at a time.**  In every state of every run of a
connection that was not dropped, where `closed` are the substreams that are no longer open:
`Ready(Ok)` has been answered at most once for each of them; the next call answers it iff there is
one more; and if it has been answered once for each substream that was ever created, none is open.
-/
theorem pollClose_reports (peerId : P) (remoteRecipient : R) (id : ConnectionId)
    (outboundTx : Chan (OutboundMessage P R)) {ops : List Op} {e : Endpoint P R} {as : List Answer}
    (hrun : run step (new peerId remoteRecipient id outboundTx) ops = .ok (e, as)) (ha : e.Alive) :
    ∃ closed : List ℕ, closed.Nodup ∧
      (∀ h, h ∈ closed ↔ h < e.next ∧ ∀ s, e.conn.substreamInboundTxs s ≠ some h) ∧
      reports as ≤ closed.length ∧
      e.pollClose.2 = (if reports as < closed.length then .ready (.ok ()) else .pending) ∧
      (reports as = e.next → ∀ s, e.conn.substreamInboundTxs s = none) := by
  have hw := wf_run (wf_new peerId remoteRecipient id outboundTx) hrun
  have hr := reported_run peerId remoteRecipient id outboundTx hrun
  obtain ⟨closed, hc⟩ := hr.accounts ha
  have hlen : closed.length = reports as + e.conn.closeIds.queue.length := by
    rw [hc.length, ← hr.got]
    exact List.length_append
  refine ⟨closed, hc.nodup, hc.mem_iff, by omega, ?_, fun heq => hc.none_registered hw (by omega)⟩
  unfold pollClose Chan.pollRecv
  cases hq : e.conn.closeIds.queue with
  | nil =>
    rw [hq, List.length_nil] at hlen
    have hnone : ¬ reports as < closed.length := by omega
    rw [if_neg hnone]
    cases e.conn.closeIds.txAlive <;> rfl
  | cons s rest =>
    rw [hq, List.length_cons] at hlen
    have hmore : reports as < closed.length := by omega
    rw [if_pos hmore]

/-- Two substreams are opened, and the remote closes the first. -/
def sampleOneOfTwo : List Op :=
  [.pollOutbound ⟨.fill 2⟩, .pollOutbound ⟨.fill 3⟩, .receive ⟨⟨.fill 2⟩, .close⟩, .poll]

/-- The first substream is closed and not reported yet, and the second is open. -/
theorem pollClose_reports_sampleOneOfTwo :
    ∃ e as, run step sample sampleOneOfTwo = .ok (e, as) ∧ reports as = 0 ∧
      e.pollClose.2 = .ready (.ok ()) ∧ e.conn.substreamInboundTxs ⟨.fill 3⟩ = some 1 ∧
      ∀ h, h = 0 ↔ h < 2 ∧ ∀ s, e.conn.substreamInboundTxs s ≠ some h := by
  have hstate : ∃ e as, run step sample sampleOneOfTwo = .ok (e, as) ∧ e.next = 2 ∧ e.Alive ∧
      reports as = 0 ∧ e.pollClose.2 = .ready (.ok ()) ∧
      e.conn.substreamInboundTxs ⟨.fill 3⟩ = some 1 := ⟨_, _, rfl, rfl, rfl, rfl, rfl, rfl⟩
  obtain ⟨e, as, hrun, hnext, ha, hreports, hready, hopen⟩ := hstate
  obtain ⟨closed, -, hclosed, -, hpoll, -⟩ := pollClose_reports _ _ _ _ hrun ha
  rw [hnext] at hclosed
  -- the second is not among the closed ones, and there is one
  have hzero : ∀ h ∈ closed, h = 0 := by
    intro h hm
    obtain ⟨hlt, hnone⟩ := (hclosed h).mp hm
    have hne : h ≠ 1 := fun heq => hnone ⟨.fill 3⟩ (heq ▸ hopen)
    omega
  have hmore : reports as < closed.length := by
    by_contra hle
    rw [if_neg hle, hready] at hpoll
    cases hpoll
  obtain ⟨h₀, hm⟩ := List.exists_mem_of_length_pos (Nat.zero_lt_of_lt hmore)
  obtain rfl := hzero h₀ hm
  refine ⟨e, as, hrun, hreports, hready, hopen, fun h => ⟨?_, fun hh => ?_⟩⟩
  · rintro rfl
    exact (hclosed 0).mp hm
  · exact hzero h ((hclosed h).mpr hh)

/-- `poll_close` answers `Ready(Ok)` while the second substream is open. -/
theorem pollClose_sampleOneOfTwo :
    ∃ e as, run step sample (sampleOneOfTwo ++ [.pollClose]) = .ok (e, as) ∧
      as.getLast? = some (.pollClose (.ready (.ok ()))) ∧
      e.conn.substreamInboundTxs ⟨.fill 3⟩ = some 1 :=
  ⟨_, _, rfl, rfl, rfl⟩

end Libp2pNym.Endpoint
