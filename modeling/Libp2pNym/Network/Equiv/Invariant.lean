import Libp2pNym.Network.Equiv.Load
import Libp2pNym.Transport.Equiv.Reassembly

/-!
# The invariant of a network

The layers below are put together.  Every endpoint in a network stamps its messages with increasing
nonces (`Stamped`), every transport puts what arrives for a connection back in order (`Ordered`), so
each end of a connection hears the other (`Joined`), and both keep their ledgers.

`inv_run`: this holds in every run with fresh ids in which no counter wraps (`Spared`).
-/

namespace Libp2pNym.Network

open StepRun Endpoint Reassembly TransportMessage

variable {P R : Type} [DecidableEq R]

/-! ### What a run has accepted -/

/-- The buffer that the operation has made the `poll_write` of a substream accept: the one with the
handle `k` of the connection with the handle `h` of the transport `a`. -/
def acceptedAt (a : R) (h k : ℕ) : Op P R → Answer P → List Bytes
  | .conn b j o, .conn r => if b = a ∧ j = h then acceptedIn k o r else []
  | _, _ => []

/-- The buffers accepted by `poll_write` of that substream, in order. -/
def accepted (a : R) (h k : ℕ) (ops : List (Op P R)) (as : List (Answer P)) : List Bytes :=
  (ops.zip as).flatMap fun oa => acceptedAt a h k oa.1 oa.2

theorem accepted_append {ops ops' : List (Op P R)} {as as' : List (Answer P)}
    (hlen : as.length = ops.length) (a : R) (h k : ℕ) :
    accepted a h k (ops ++ ops') (as ++ as')
      = accepted a h k ops as ++ accepted a h k ops' as' :=
  flatMap_zip_append _ hlen

theorem accepted_snoc {ops : List (Op P R)} {as : List (Answer P)} (hlen : as.length = ops.length)
    (a : R) (h k : ℕ) (o : Op P R) (r : Answer P) :
    accepted a h k (ops ++ [o]) (as ++ [r]) = accepted a h k ops as ++ acceptedAt a h k o r :=
  flatMap_zip_snoc _ hlen o r

/-! ### One endpoint -/

/-- What holds of the endpoint with the handle `h` for the connection `c` of the transport `a`, on
which `refused` closes were refused.  A connection of a transport to itself is its own remote and
keeps no ledger. -/
structure EndInv (ops : List (Op P R)) (as : List (Answer P)) (a : R) (c : ConnectionId) (h : ℕ)
    (refused : ℕ) (e : Endpoint P R) : Prop where
  wf : e.Wf
  mixnet : e.outbox.Alive
  linked : Linked ops a e.conn.remoteRecipient c
  stamped : e.outbox.Stamped e.conn.remoteRecipient c refused
  ledger : e.conn.remoteRecipient ≠ a → e.Ledger
  used : e.conn.remoteRecipient ≠ a → requests e.sent ⊆ generated ops
  written : e.conn.remoteRecipient ≠ a → e.Written fun k => accepted a h k ops as

section

variable {ops : List (Op P R)} {as : List (Answer P)} {a : R} {c : ConnectionId} {h refused : ℕ}
  {e : Endpoint P R}

/-- An operation elsewhere. -/
theorem EndInv.mono (hi : EndInv ops as a c h refused e) (hlen : as.length = ops.length)
    {o : Op P R} {r : Answer P} (hnone : ∀ k, acceptedAt a h k o r = []) :
    EndInv (ops ++ [o]) (as ++ [r]) a c h refused e where
  wf := hi.wf
  mixnet := hi.mixnet
  linked := hi.linked.mono (List.subset_append_left _ _)
  stamped := hi.stamped
  ledger := hi.ledger
  used hne := by
    rw [generated_append]
    exact List.Subset.trans (hi.used hne) (List.subset_append_left _ _)
  written hne := by
    have heq : (fun k => accepted a h k (ops ++ [o]) (as ++ [r]))
        = fun k => accepted a h k ops as := by
      funext k
      rw [accepted_snoc hlen, hnone, List.append_nil]
    rw [heq]
    exact hi.written hne

/-- The transport has fed or dropped the connection. -/
theorem EndInv.fed (hi : EndInv ops as a c h refused e) {e' : Endpoint P R} (hw : e'.Wf)
    (ho : e'.outbox = e.outbox) (hrem : e'.conn.remoteRecipient = e.conn.remoteRecipient)
    (hids : e'.idOf = e.idOf) (hl : e.Ledger → e'.Ledger) : EndInv ops as a c h refused e' where
  wf := hw
  mixnet := ho ▸ hi.mixnet
  linked := hrem ▸ hi.linked
  stamped := by
    rw [ho, hrem]
    exact hi.stamped
  ledger hne := hl (hi.ledger (hrem ▸ hne))
  used hne := by
    rw [sent, ho]
    exact hi.used (hrem ▸ hne)
  written hne := by
    refine (hi.written (hrem ▸ hne)).congr (fun s => ?_) hids
    rw [sent, ho]
    rfl

theorem EndInv.dropConnection (hi : EndInv ops as a c h refused e) :
    EndInv ops as a c h refused e.dropConnection :=
  hi.fed (wf_dropConnection hi.wf) rfl rfl (idOf_dropConnection e) ledger_dropConnection

/-- Messages were put on the inbound channel. -/
theorem EndInv.forwarded (hi : EndInv ops as a c h refused e) {rx : Chan SubstreamMessage}
    (hgot : rx.got = e.conn.inboundRx.got) (hal : rx.rxAlive = e.conn.inboundRx.rxAlive) :
    EndInv ops as a c h refused { e with conn.inboundRx := rx } := by
  refine hi.fed (hi.wf.inboundRx rx) rfl rfl rfl fun hl =>
    hl.congr (fun ha => ?_) rfl rfl rfl rfl rfl hgot
  exact hal.symm.trans ha

/-- A connection that was just established. -/
theorem endInv_firstEnd {n : Node P R} (hn : Honest ops a n) (peerId : P) {recipient : R}
    (hlink : Linked ops a recipient c) (hnone : ∀ k, accepted a h k ops as = []) :
    EndInv ops as a c h 0 (n.firstEnd peerId recipient c) := by
  obtain ⟨hgot, hal⟩ := Node.forwardQueued_frame ((n.opened c).size + 1) (n.opened c) Chan.new
  have hnew : EndInv ops as a c h 0 (Endpoint.new peerId recipient c Chan.new) := by
    refine ⟨wf_new _ _ _ _, rfl, hlink, ⟨rfl, List.Pairwise.nil, nofun, nofun⟩,
      fun _ => ledger_new _ _ _, fun _ => List.nil_subset _, fun _ => ?_⟩
    have heq : (fun k => accepted a h k ops as) = fun _ => [] := funext hnone
    rw [heq]
    exact written_new peerId recipient c
  unfold Node.firstEnd
  rw [hn.clone]
  exact hnew.forwarded hgot hal

end

/-! ### The network -/

/-- The message was sent over the connection `c` to the transport `a`. -/
def SentTo (net : Network P R) (c : ConnectionId) (a : R) (m : TransportMessage) : Prop :=
  ∃ b e, (net b).endAt c = some e ∧ e.conn.remoteRecipient = a ∧ m ∈ e.outbox.transported

/-- What holds in a network after the operations `ops` with the answers `as`, in which `refused a c`
closes were refused on the connection `c` of the transport `a`. -/
structure Inv (ops : List (Op P R)) (as : List (Answer P)) (refused : R → ConnectionId → ℕ)
    (net : Network P R) : Prop where
  placed : ∀ a, (net a).Placed
  honest : ∀ a, Honest ops a (net a)
  ends : ∀ {a c h e}, (net a).transport.connections c = some h → (net a).conns h = some e →
    EndInv ops as a c h (refused a c) e
  absent : ∀ {a c}, (net a).transport.connections c = none → refused a c = 0
  unused : ∀ {a h}, (net a).conns h = none → ∀ k, accepted a h k ops as = []
  ordered : ∀ a c, ∃ hist, (net a).Ordered c hist ∧ ∀ m ∈ hist, SentTo net c a m
  apart : ∀ {a b c e f}, a ≠ b → (net a).endAt c = some e → (net b).endAt c = some f →
    ∀ s, ⟨s, .openRequest⟩ ∈ e.sent → ⟨s, .openRequest⟩ ∉ f.sent

theorem inv_new (peerIds : R → P) : Inv [] [] (fun _ _ => 0) (new peerIds : Network P R) where
  placed a := Node.placed_new _ _ _
  honest a := ⟨rfl, rfl, fun c p hp => (by cases hp), fun d dial m hd => (by cases hd), nofun⟩
  ends hc := by cases hc
  absent _ := rfl
  unused _ _ := rfl
  ordered a c := ⟨[], Node.ordered_new _ _ _ c, nofun⟩
  apart _ he := by cases he

section

variable {ops : List (Op P R)} {as : List (Answer P)} {refused : R → ConnectionId → ℕ}
  {net : Network P R}

theorem Inv.endInv (hi : Inv ops as refused net) {a : R} {c : ConnectionId} {e : Endpoint P R}
    (he : (net a).endAt c = some e) : ∃ h, (net a).transport.connections c = some h ∧
      (net a).conns h = some e ∧ EndInv ops as a c h (refused a c) e := by
  obtain ⟨h, hc, hh⟩ := Node.endAt_eq_some_iff.mp he
  exact ⟨h, hc, hh, hi.ends hc hh⟩

/-- What arrives over a connection was sent by its other end. -/
theorem Inv.sent_by (hi : Inv ops as refused net) (hfresh : (dialed ops).Nodup) {a b : R}
    {c : ConnectionId} (hlink : Linked ops a b c) {m : TransportMessage} (hm : SentTo net c a m) :
    ∃ f, (net b).endAt c = some f ∧ m ∈ f.outbox.transported := by
  obtain ⟨b', f, hf, hrem, hmem⟩ := hm
  obtain ⟨_, _, _, hend⟩ := hi.endInv hf
  have hlink' := hend.linked
  rw [hrem] at hlink'
  obtain rfl := hlink.symm.unique hfresh hlink'
  exact ⟨f, hf, hmem⟩

/-- What was forwarded to a connection is a part of what its other end has sent, in order. -/
theorem Inv.log_prefix (hi : Inv ops as refused net) (hfresh : (dialed ops).Nodup) {a b : R}
    {c : ConnectionId} (hlink : Linked ops a b c) {e f : Endpoint P R}
    (he : (net a).endAt c = some e) (hf : ∀ f', (net b).endAt c = some f' → f = f')
    (hsorted : f.outbox.transported.Pairwise fun m m' => key m < key m')
    (hpos : ∀ m ∈ f.outbox.transported, 1 ≤ key m) : e.conn.inboundRx.log <+: f.sent := by
  obtain ⟨hist, hord, hsent⟩ := hi.ordered a c
  obtain ⟨k, log, hfirst, hlog⟩ := hord.sofar e he
  have hsub : hist ⊆ f.outbox.transported := by
    intro m hm
    obtain ⟨f', hf', hm'⟩ := hi.sent_by hfresh hlink (hsent m hm)
    rw [hf f' hf']
    exact hm'
  rw [hlog, sent, Outbox.sentMessages_eq]
  exact (prefix_of_first hpos hsorted hsub hfirst).map message

/-- **An endpoint hears the other end of its connection**, which keeps its ledger.  An end that is
not there yet has sent nothing. -/
theorem Inv.joined (hi : Inv ops as refused net) (hfresh : (dialed ops).Nodup) {a : R}
    {c : ConnectionId} {e : Endpoint P R} (he : (net a).endAt c = some e)
    (hne : e.conn.remoteRecipient ≠ a) :
    ∃ f, (∀ f', (net e.conn.remoteRecipient).endAt c = some f' → f = f') ∧ f.Ledger ∧ e.Joined f ∧
      requests f.sent ⊆ generated ops := by
  obtain ⟨h, hc, hh, hend⟩ := hi.endInv he
  have hpos : ∀ m ∈ e.outbox.transported, 1 ≤ key m := fun m hm => (hend.stamped.bounds m hm).1
  cases hf : (net e.conn.remoteRecipient).endAt c with
  | some f =>
    obtain ⟨h', hc', hh', hend'⟩ := hi.endInv hf
    have hrem : f.conn.remoteRecipient = a := Linked.remote hfresh hne hend'.linked hend.linked
    have hne' : f.conn.remoteRecipient ≠ e.conn.remoteRecipient := hrem.symm ▸ hne.symm
    refine ⟨f, fun f' hf' => Option.some.inj hf', hend'.ledger hne', ⟨?_, ?_, ?_⟩, hend'.used hne'⟩
    · exact hi.log_prefix hfresh hend.linked he (fun f' hf' => Option.some.inj (hf.symm.trans hf'))
        hend'.stamped.sorted fun m hm => (hend'.stamped.bounds m hm).1
    · exact hi.log_prefix hfresh hend.linked.symm hf
        (fun e' he' => Option.some.inj (he.symm.trans he')) hend.stamped.sorted hpos
    · exact hi.apart hne.symm he hf
  | none =>
    refine ⟨Endpoint.new e.conn.peerId a c Chan.new, nofun, ledger_new _ _ _, ⟨?_, ?_, ?_⟩,
      List.nil_subset _⟩
    · refine hi.log_prefix hfresh hend.linked he (fun f' hf' => ?_) List.Pairwise.nil nofun
      rw [hf] at hf'
      cases hf'
    · exact List.nil_prefix
    · exact fun s _ => List.not_mem_nil

omit [DecidableEq R] in
theorem SentTo.mono {net' : Network P R} {c : ConnectionId} {a : R} {m : TransportMessage}
    (hm : SentTo net c a m)
    (hon : ∀ b e, (net b).endAt c = some e → ∃ e', (net' b).endAt c = some e' ∧
      e'.conn.remoteRecipient = e.conn.remoteRecipient ∧
      e.outbox.transported ⊆ e'.outbox.transported) : SentTo net' c a m := by
  obtain ⟨b, e, he, hrem, hmem⟩ := hm
  obtain ⟨e', he', hrem', hsub⟩ := hon b e he
  exact ⟨b, e', he', hrem'.trans hrem, hsub hmem⟩

/-- The nonces of what was sent start at 1 and leave room in the counter. -/
theorem Inv.nonce (hi : Inv ops as refused net) {a : R} {c : ConnectionId} {m : TransportMessage}
    (hm : SentTo net c a m) : 1 ≤ key m ∧ key m + 1 < 2 ^ 64 := by
  obtain ⟨b, e, he, -, hmem⟩ := hm
  obtain ⟨_, _, _, hend⟩ := hi.endInv he
  have hb := hend.stamped.bounds m hmem
  have hlt := e.outbox.messageNonce.toNat_lt
  omega

theorem Inv.room (hi : Inv ops as refused net) {a : R} {c : ConnectionId}
    {hist : List TransportMessage} (hsent : ∀ m ∈ hist, SentTo net c a m) :
    MessageQueue.Room hist := by
  intro k hk
  by_cases h0 : k = 0
  · omega
  · obtain ⟨m, hm, hkey⟩ := hk k (by omega) (le_refl k)
    have := (hi.nonce (hsent m hm)).2
    omega

/-! ### An operation at a transport -/

/-- **A transport has moved** from what it was to `n`, and its endpoints have sent no less than
before.  All that is to be checked is what `n` itself holds, and that no other transport has
requested the same substreams. -/
theorem Inv.update (hi : Inv ops as refused net) (hlen : as.length = ops.length) {a : R}
    {o : Op P R} {r : Answer P} {n : Node P R} {refused' : R → ConnectionId → ℕ}
    (hplaced : n.Placed) (hhonest : Honest (ops ++ [o]) a n)
    (hothers : ∀ b, b ≠ a → (∀ c, refused' b c = refused b c) ∧ ∀ h k, acceptedAt b h k o r = [])
    (hends : ∀ c h e, n.transport.connections c = some h → n.conns h = some e →
      EndInv (ops ++ [o]) (as ++ [r]) a c h (refused' a c) e)
    (habsent : ∀ c, n.transport.connections c = none →
      (net a).transport.connections c = none ∧ refused' a c = refused a c)
    (hunused : ∀ h, n.conns h = none → (net a).conns h = none ∧ ∀ k, acceptedAt a h k o r = [])
    (hordered : ∀ c, ∃ hist, n.Ordered c hist ∧ ∀ m ∈ hist, SentTo net c a m)
    (hgrows : ∀ c e, (net a).endAt c = some e → ∃ e', n.endAt c = some e' ∧
      e'.conn.remoteRecipient = e.conn.remoteRecipient ∧
      e.outbox.transported ⊆ e'.outbox.transported)
    (hapart : ∀ b c e f, b ≠ a → n.endAt c = some e → (net b).endAt c = some f →
      ∀ s, ⟨s, .openRequest⟩ ∈ e.sent → ⟨s, .openRequest⟩ ∉ f.sent) :
    Inv (ops ++ [o]) (as ++ [r]) refused' (Function.update net a n) := by
  have hsub : ops ⊆ ops ++ [o] := List.subset_append_left _ _
  have hself : Function.update net a n a = n := Function.update_self ..
  have hother : ∀ {b}, b ≠ a → Function.update net a n b = net b :=
    fun hb => Function.update_of_ne hb ..
  have hsent : ∀ {c b m}, SentTo net c b m → SentTo (Function.update net a n) c b m := by
    intro c b m hm
    refine hm.mono fun b' e he => ?_
    by_cases hb : b' = a
    · subst hb
      rw [hself]
      exact hgrows c e he
    · exact ⟨e, (hother hb).symm ▸ he, rfl, List.Subset.refl _⟩
  constructor
  · exact (Function.forall_update_iff net fun _ m => m.Placed).mpr
      ⟨hplaced, fun b _ => hi.placed b⟩
  · exact (Function.forall_update_iff net fun b m => Honest (ops ++ [o]) b m).mpr
      ⟨hhonest, fun b _ => (hi.honest b).mono hsub⟩
  · intro b c h e hc he
    by_cases hb : b = a
    · subst hb
      rw [hself] at hc he
      exact hends c h e hc he
    · obtain ⟨href, hquiet⟩ := hothers b hb
      rw [hother hb] at hc he
      rw [href]
      exact (hi.ends hc he).mono hlen (hquiet h)
  · intro b c hc
    by_cases hb : b = a
    · subst hb
      rw [hself] at hc
      obtain ⟨hc', href⟩ := habsent c hc
      rw [href]
      exact hi.absent hc'
    · rw [hother hb] at hc
      rw [(hothers b hb).1]
      exact hi.absent hc
  · intro b h hh k
    have hold : (net b).conns h = none ∧ acceptedAt b h k o r = [] := by
      by_cases hb : b = a
      · subst hb
        rw [hself] at hh
        exact ⟨(hunused h hh).1, (hunused h hh).2 k⟩
      · rw [hother hb] at hh
        exact ⟨hh, (hothers b hb).2 h k⟩
    rw [accepted_snoc hlen, hold.2, List.append_nil]
    exact hi.unused hold.1 k
  · intro b c
    by_cases hb : b = a
    · subst hb
      obtain ⟨hist, hord, hhist⟩ := hordered c
      exact ⟨hist, hself.symm ▸ hord, fun m hm => hsent (hhist m hm)⟩
    · obtain ⟨hist, hord, hhist⟩ := hi.ordered b c
      exact ⟨hist, (hother hb).symm ▸ hord, fun m hm => hsent (hhist m hm)⟩
  · intro x y c e f hne he hf s hs₁ hs₂
    by_cases hx : x = a
    · subst hx
      rw [hself] at he
      rw [hother hne.symm] at hf
      exact hapart y c e f hne.symm he hf s hs₁ hs₂
    · rw [hother hx] at he
      by_cases hy : y = a
      · subst hy
        rw [hself] at hf
        exact hapart x c f e hx hf he s hs₂ hs₁
      · rw [hother hy] at hf
        exact hi.apart hne he hf s hs₁ hs₂

/-- What an endpoint of the transport was before. -/
theorem Inv.endInv_moves (hi : Inv ops as refused net) (hlen : as.length = ops.length) {a : R}
    {o : Op P R} {r : Answer P} (hquiet : ∀ b h k, acceptedAt b h k o r = [])
    {o' : Node.Op P R} {n : Node P R} {c : ConnectionId} (hm : Node.Moves (net a) c n o')
    (hreq : ∀ req recipient, o' = .inbound (.connectionRequest req) →
      req.recipient = some recipient → Calls (ops ++ [o]) recipient a req.id)
    {h : ℕ} {e' : Endpoint P R} (hc : n.transport.connections c = some h)
    (he' : n.endAt c = some e') :
    EndInv (ops ++ [o]) (as ++ [r]) a c h (refused a c) e' := by
  have hsub : ops ⊆ ops ++ [o] := List.subset_append_left _ _
  -- the endpoint that was there before
  have hold : ∀ {e}, (net a).transport.connections c = some h → (net a).endAt c = some e →
      EndInv (ops ++ [o]) (as ++ [r]) a c h (refused a c) e := by
    intro e hc₀ he₀
    obtain ⟨h₀, hc₁, hh⟩ := Node.endAt_eq_some_iff.mp he₀
    rw [hc₀] at hc₁
    cases hc₁
    exact (hi.ends hc₀ hh).mono hlen (hquiet a h)
  cases hm with
  | same _ ho hc₀ he₀ hq => exact hold (hc₀ ▸ hc) (he₀ ▸ he')
  | dropped _ ho hc₀ e he₀ he₁ hq =>
    rw [he'] at he₁
    cases he₁
    exact (hold (hc₀ ▸ hc) he₀).dropConnection
  | established _ peerId recipient ho he₀ h0 hc₀ e₁ hd he₁ hq =>
    rw [he'] at he₁
    cases he₁
    rw [hc] at hc₀
    cases hc₀
    have hlink : Linked (ops ++ [o]) a recipient c := by
      cases ho with
      | request msg recipient hid hr => exact Or.inr (hid ▸ hreq msg recipient rfl hr)
      | response msg pending hid hp => exact Or.inl (((hi.honest a).pending c pending hp).mono hsub)
    have hunused : ∀ k, accepted a (net a).nextConn k (ops ++ [o]) (as ++ [r]) = [] := by
      intro k
      rw [accepted_snoc hlen, hquiet, List.append_nil]
      exact hi.unused ((hi.placed a).fresh (le_refl _)) k
    have hfirst := endInv_firstEnd ((hi.honest a).mono hsub) peerId hlink hunused
    rw [hi.absent ((hi.placed a).endAt_eq_none_iff.mp he₀)]
    rcases hd with rfl | rfl
    · exact hfirst
    · exact hfirst.dropConnection
  | pushed m hid hout hc₀ he₀ hq => exact hold (hc₀ ▸ hc) (he₀ ▸ he')
  | forwarded m hid e he₀ ha hout hc₀ he₁ hq =>
    rw [he'] at he₁
    cases he₁
    exact (hold (hc₀ ▸ hc) he₀).forwarded (Node.forwardQueued_frame _ _ _).1
      (Node.forwardQueued_frame _ _ _).2

/-- What an endpoint of the transport has sent, it had sent before. -/
theorem Inv.sent_moves (hi : Inv ops as refused net) {a : R} {o' : Node.Op P R} {n : Node P R}
    {c : ConnectionId} (hm : Node.Moves (net a) c n o') {e' : Endpoint P R}
    (he' : n.endAt c = some e') :
    e'.sent = [] ∨ ∃ e, (net a).endAt c = some e ∧ e'.sent = e.sent := by
  cases hend : (net a).endAt c with
  | some e =>
    obtain ⟨e₁, he₁, -, -, ho⟩ := hm.endAt hend
    rw [he'] at he₁
    cases he₁
    exact Or.inr ⟨e, rfl, by rw [sent, sent, ho]⟩
  | none =>
    left
    have hnew : ∀ peerId recipient, ((net a).firstEnd peerId recipient c).sent = [] := by
      intro peerId recipient
      show Outbox.sentMessages { messageNonce := 1, outboundTx := _ } = []
      rw [(hi.honest a).clone]
      rfl
    cases hm with
    | same _ ho hc₀ he₀ hq =>
      rw [he₀, hend] at he'
      cases he'
    | dropped _ ho hc₀ e he₀ he₁ hq =>
      rw [hend] at he₀
      cases he₀
    | established _ peerId recipient ho he₀ h0 hc₀ e₁ hd he₁ hq =>
      rw [he'] at he₁
      cases he₁
      rcases hd with rfl | rfl <;> exact hnew peerId recipient
    | pushed m hid hout hc₀ he₀ hq =>
      rw [he₀, hend] at he'
      cases he'
    | forwarded m hid e he₀ ha hout hc₀ he₁ hq =>
      rw [hend] at he₀
      cases he₀

/-- **An operation at a transport** that sends no substream message keeps the invariant. -/
theorem Inv.node (hi : Inv ops as refused net) (hlen : as.length = ops.length) {a : R} {o : Op P R}
    {r : Answer P} (hquiet : ∀ b h k, acceptedAt b h k o r = []) {o' : Node.Op P R} {n : Node P R}
    {r' : Node.Answer P} (hs : Node.Steps (net a) o' n r')
    (hdial : ∀ b c, o' = .dial b c → Calls (ops ++ [o]) a b c)
    (hreq : ∀ req recipient, o' = .inbound (.connectionRequest req) →
      req.recipient = some recipient → Calls (ops ++ [o]) recipient a req.id)
    (hmsg : ∀ m, o' = .inbound (.transportMessage m) → SentTo net m.id a m) :
    Inv (ops ++ [o]) (as ++ [r]) refused (Function.update net a n) := by
  have hmoves := Node.moves_steps (hi.placed a) hs
  have hplaced := Node.placed_steps (hi.placed a) hs
  refine hi.update hlen hplaced
    (((hi.honest a).mono (List.subset_append_left _ _)).steps (hi.placed a) hs hdial hreq)
    (fun b _ => ⟨fun _ => rfl, hquiet b⟩) (fun c h e hc he => ?_) (fun c hc => ⟨?_, rfl⟩)
    (fun h hh => ⟨?_, hquiet a h⟩) (fun c => ?_) (fun c e he => ?_)
    fun b c e f hb he hf s hs₁ hs₂ => ?_
  · exact hi.endInv_moves hlen hquiet (hmoves c) hreq hc (Node.endAt_eq_some_iff.mpr ⟨h, hc, he⟩)
  · cases hc₀ : (net a).transport.connections c with
    | none => rfl
    | some h =>
      rw [(hmoves c).connections (hi.placed a) hc₀] at hc
      cases hc
  · cases hh₀ : (net a).conns h with
    | none => rfl
    | some e =>
      -- the connection of the endpoint is still there
      have hc := (hmoves e.conn.id).connections (hi.placed a) ((hi.placed a).back hh₀)
      obtain ⟨e', he', -⟩ := hplaced.conn hc
      rw [hh] at he'
      cases he'
  · obtain ⟨hist, hord, hhist⟩ := hi.ordered a c
    have hnew : ∀ m ∈ hist ++ Node.arrivedIn c o', SentTo net c a m := by
      intro m hm
      rcases List.mem_append.mp hm with hm | hm
      · exact hhist m hm
      · unfold Node.arrivedIn at hm
        split at hm
        · split at hm
          · rename_i hid
            rw [List.mem_singleton] at hm
            subst hm
            exact hid ▸ hmsg _ rfl
          · cases hm
        · cases hm
    refine ⟨hist ++ Node.arrivedIn c o', Node.ordered_moves hord ?_ (hi.room hnew) (hmoves c), hnew⟩
    rintro m rfl rfl
    exact (hi.nonce (hmsg m rfl)).1
  · obtain ⟨e', he', hrem, -, ho⟩ := (hmoves c).endAt he
    exact ⟨e', he', hrem, ho ▸ List.Subset.refl _⟩
  · -- a new endpoint has sent nothing yet
    rcases hi.sent_moves (hmoves c) he with h0 | ⟨e₀, he₀, heq⟩
    · rw [h0] at hs₁
      cases hs₁
    · rw [heq] at hs₁
      exact hi.apart hb.symm he₀ hf s hs₁ hs₂

/-! ### An operation at a connection -/

omit [DecidableEq R] in
/-- A substream id that is generated now is new. -/
theorem not_mem_generated {a : R} {h : ℕ} {s : SubstreamId}
    (hgen : (generated (ops ++ [.conn a h (.pollOutbound s)])).Nodup) : s ∉ generated ops := by
  intro hm
  rw [generated_append] at hgen
  exact List.disjoint_of_nodup_append hgen hm (List.mem_singleton_self s)

/-- What the operation makes of the endpoint. -/
theorem Inv.endInv_step (hi : Inv ops as refused net) (hlen : as.length = ops.length)
    (hdial : (dialed ops).Nodup) {a : R} {h : ℕ} {o : Endpoint.Op}
    (hgen : (generated (ops ++ [.conn a h o])).Nodup) (ho : ∀ m, o ≠ .receive m)
    {e e' : Endpoint P R} {r : Endpoint.Answer} (he : (net a).conns h = some e)
    (hs : e.step o = .ok (e', r))
    (hlt : e'.sent.length + (refused a e.conn.id + if e.refusesClose o then 1 else 0)
      < 2 ^ 64 - 1) :
    EndInv (ops ++ [.conn a h o]) (as ++ [.conn r]) a e.conn.id h
      (refused a e.conn.id + if e.refusesClose o then 1 else 0) e' ∧
    (e.conn.remoteRecipient ≠ a → requests e'.sent = requests e.sent ++ openedIn o r) := by
  have hback := (hi.placed a).back he
  have hend := hi.ends hback he
  have hsteps := Endpoint.steps_of_step hend.wf hs
  obtain ⟨-, -, -, hrem, -⟩ := frame_steps hend.wf hsteps ho
  -- what is heard from the other end makes sense
  have hkeep : e.conn.remoteRecipient ≠ a → e'.Ledger ∧ e.Grows o r e' ∧
      e'.Written fun k => accepted a h k ops as ++ acceptedIn k o r := by
    intro hne
    obtain ⟨f, -, hfl, hj, hfused⟩ :=
      hi.joined hdial (Node.endAt_eq_some_iff.mpr ⟨h, hback, he⟩) hne
    have hh := hj.hears hfl
    have hsilent : ∀ s, o = .pollOutbound s → e.Silent s := by
      rintro s rfl
      have hnew := not_mem_generated hgen
      refine hh.silent (fun hm => hnew (hend.used hne (mem_requests_iff.mpr hm))) fun hm => ?_
      exact hnew (hfused (mem_requests_iff.mpr (hh.taken.subset hm)))
    obtain ⟨hl, hg⟩ := ledger_steps hend.wf (hend.ledger hne) hend.mixnet hh hsteps ho hsilent
    exact ⟨hl, hg, written_steps hend.wf (hend.ledger hne) hend.mixnet hh hsteps hsilent
      (hend.written hne)⟩
  refine ⟨⟨wf_step hend.wf hs, alive_step hend.wf hend.mixnet hs, ?_, ?_, ?_, ?_, ?_⟩,
    fun hne => (hkeep hne).2.1.opened⟩
  · rw [hrem]
    exact hend.linked.mono (List.subset_append_left _ _)
  · rw [hrem]
    exact stamped_step hend.wf hend.mixnet hs hend.stamped hlt
  · intro hne
    exact (hkeep (hrem ▸ hne)).1
  · intro hne
    rw [(hkeep (hrem ▸ hne)).2.1.opened, generated_append]
    refine List.append_subset.mpr ⟨?_, ?_⟩
    · exact List.Subset.trans (hend.used (hrem ▸ hne)) (List.subset_append_left _ _)
    · refine List.Subset.trans ?_ (List.subset_append_right _ _)
      unfold openedIn
      split
      · exact List.Subset.refl _
      · exact List.nil_subset _
  · intro hne
    have heq : (fun k => accepted a h k (ops ++ [.conn a h o]) (as ++ [.conn r]))
        = fun k => accepted a h k ops as ++ acceptedIn k o r := by
      funext k
      rw [accepted_snoc hlen]
      exact congrArg _ (if_pos ⟨rfl, rfl⟩)
    rw [heq]
    exact (hkeep (hrem ▸ hne)).2.2

/-- An id that is requested now was not requested at the other end. -/
theorem Inv.apart_step (hi : Inv ops as refused net) (hdial : (dialed ops).Nodup) {a b : R} {h : ℕ}
    {c : ConnectionId} {o : Endpoint.Op} (hgen : (generated (ops ++ [.conn a h o])).Nodup)
    {e e' f : Endpoint P R} {r : Endpoint.Answer} (he : (net a).endAt c = some e)
    (hopened : e.conn.remoteRecipient ≠ a → requests e'.sent = requests e.sent ++ openedIn o r)
    (hb : b ≠ a) (hf : (net b).endAt c = some f) {s : SubstreamId}
    (hs : ⟨s, .openRequest⟩ ∈ e'.sent) : ⟨s, .openRequest⟩ ∉ f.sent := by
  intro hsf
  obtain ⟨_, _, _, hend⟩ := hi.endInv he
  obtain ⟨_, _, _, hendf⟩ := hi.endInv hf
  have hremote := Linked.remote hdial (Ne.symm hb) hend.linked hendf.linked
  have hremote' := Linked.remote hdial hb hendf.linked hend.linked
  rw [← mem_requests_iff, hopened (hremote ▸ hb), List.mem_append, mem_requests_iff] at hs
  rcases hs with hs | hs
  · exact hi.apart (Ne.symm hb) he hf s hs hsf
  · unfold openedIn at hs
    split at hs
    · rw [List.mem_singleton] at hs
      subst hs
      refine not_mem_generated hgen (hendf.used ?_ (mem_requests_iff.mpr hsf))
      rw [hremote']
      exact Ne.symm hb
    · cases hs

/-- **An operation at a connection** keeps the invariant, as long as its counter does not wrap. -/
theorem Inv.conn (hi : Inv ops as refused net) (hlen : as.length = ops.length)
    (hdial : (dialed ops).Nodup) {a : R} {h : ℕ} {o : Endpoint.Op}
    (hgen : (generated (ops ++ [.conn a h o])).Nodup) (ho : ∀ m, o ≠ .receive m)
    {e e' : Endpoint P R} {r : Endpoint.Answer} (he : (net a).conns h = some e)
    (hs : e.step o = .ok (e', r))
    (hlt : e'.sent.length + (refused a e.conn.id + if e.refusesClose o then 1 else 0)
      < 2 ^ 64 - 1) :
    Inv (ops ++ [.conn a h o]) (as ++ [.conn r])
      (fun b c => refused b c + if refusesAt b c net (.conn a h o) then 1 else 0)
      (Function.update net a { net a with conns := (net a).conns.insert h e' }) := by
  have hback := (hi.placed a).back he
  have hend := hi.ends hback he
  have hat : (net a).endAt e.conn.id = some e := Node.endAt_eq_some_iff.mpr ⟨h, hback, he⟩
  obtain ⟨hend', hopened⟩ := hi.endInv_step hlen hdial hgen ho he hs hlt
  obtain ⟨hlog, hal, hid, hrem, -⟩ := frame_steps hend.wf (Endpoint.steps_of_step hend.wf hs) ho
  have hendAt := (hi.placed a).endAt_insert he e'
  -- the handle belongs to this connection and no other
  have hhandle : ∀ {c}, (net a).transport.connections c = some h → c = e.conn.id := by
    intro c hc
    obtain ⟨e₀, he₀, hid₀⟩ := (hi.placed a).conn hc
    rw [he] at he₀
    cases he₀
    exact hid₀.symm
  have hnot : ∀ {b c}, ¬ (a = b ∧ e.conn.id = c) →
      (refused b c + if refusesAt b c net (.conn a h o) then 1 else 0) = refused b c := by
    intro b c hne
    rw [refusesAt_other he hne]
    rfl
  have hacc : ∀ {b k}, ¬ (a = b ∧ h = k) →
      ∀ i, acceptedAt b k i (.conn a h o) (.conn r : Answer P) = [] := fun hne i => if_neg hne
  refine hi.update hlen ((hi.placed a).insert he hid) ?_
    (fun b hb => ⟨fun c => hnot fun heq => hb heq.1.symm, fun k => hacc fun heq => hb heq.1.symm⟩)
    (fun c k e₁ hc hk => ?_) (fun c hc => ⟨hc, hnot ?_⟩) (fun k hk => ?_) (fun c => ?_)
    (fun c e₀ he₀ => ?_) fun b c e₁ f hb he₁ hf s hs₁ hs₂ => ?_
  · exact ((hi.honest a).mono (List.subset_append_left _ _)).congr rfl rfl
  · rcases KeyMap.insert_eq_some_iff.mp hk with ⟨rfl, rfl⟩ | ⟨hne, hk⟩
    · obtain rfl := hhandle hc
      rw [refusesAt_self he]
      exact hend'
    · rw [hnot fun heq => hne ?_]
      · exact (hi.ends hc hk).mono hlen (hacc fun heq => hne heq.2.symm)
      · obtain ⟨-, rfl⟩ := heq
        exact Option.some.inj (hc.symm.trans hback)
  · rintro ⟨-, rfl⟩
    exact Option.some_ne_none _ (hback.symm.trans hc)
  · obtain ⟨hne, hk⟩ := KeyMap.insert_eq_none_iff.mp hk
    exact ⟨hk, hacc fun heq => hne heq.2.symm⟩
  · obtain ⟨hist, hord, hhist⟩ := hi.ordered a c
    exact ⟨hist, hord.insert (hi.placed a) he hlog hal, hhist⟩
  · rw [hendAt]
    by_cases hc : c = e.conn.id
    · subst hc
      rw [hat] at he₀
      cases he₀
      exact ⟨e', if_pos rfl, hrem, transported_step hend.wf hend.mixnet hs⟩
    · exact ⟨e₀, (if_neg hc).trans he₀, rfl, List.Subset.refl _⟩
  · rw [hendAt] at he₁
    split at he₁
    · rename_i hc
      subst hc
      cases he₁
      exact hi.apart_step hdial hgen hat hopened hb hf hs₁ hs₂
    · exact hi.apart hb.symm he₁ hf s hs₁ hs₂

/-! ### Runs -/

/-- An operation that does nothing. -/
theorem Inv.mono (hi : Inv ops as refused net) (hlen : as.length = ops.length) {o : Op P R}
    {r : Answer P} (hquiet : ∀ b h k, acceptedAt b h k o r = []) :
    Inv (ops ++ [o]) (as ++ [r]) refused net where
  placed := hi.placed
  honest a := (hi.honest a).mono (List.subset_append_left _ _)
  ends hc he := (hi.ends hc he).mono hlen (hquiet _ _)
  absent := hi.absent
  unused hh k := by
    rw [accepted_snoc hlen, hquiet, List.append_nil]
    exact hi.unused hh k
  ordered := hi.ordered
  apart := hi.apart

/-- A connection message that is delivered was sent by an honest transport. -/
theorem Inv.signal (hi : Inv ops as refused net) {a : R} {h : Option ℕ} {m : OutboundMessage P R}
    (hm : m ∈ sentFrom (net a) h) : Signal ops a m ∨ ∃ msg, m.message = .transportMessage msg ∧
      SentTo net msg.id m.recipient msg := by
  cases h with
  | none => exact Or.inl ((hi.honest a).signals m hm)
  | some k =>
    right
    cases he : (net a).conns k with
    | none =>
      simp only [sentFrom, he] at hm
      cases hm
    | some e =>
      simp only [sentFrom, he] at hm
      have hback := (hi.placed a).back he
      obtain ⟨msg, rfl, hid⟩ := (hi.ends hback he).stamped.shape m hm
      refine ⟨msg, rfl, a, e, Node.endAt_eq_some_iff.mpr ⟨k, hid ▸ hback, he⟩, rfl, ?_⟩
      exact List.mem_filterMap.mpr ⟨_, hm, rfl⟩

/-- A message that is on its way is delivered. -/
theorem Inv.delivered (hi : Inv ops as refused net) (hlen : as.length = ops.length) {a : R}
    {h : Option ℕ} {i : ℕ} {m : OutboundMessage P R} {n : Node P R} {r : Node.Answer P}
    (hm : m ∈ sentFrom (net a) h) (hs : Node.Steps (net m.recipient) (.inbound m.message) n r) :
    Inv (ops ++ [.deliver a h i]) (as ++ [.node r]) refused
      (Function.update net m.recipient n) := by
  refine hi.node hlen (fun _ _ _ => rfl) hs nofun (fun req recipient heq hrec => ?_)
    fun msg heq => ?_
  · have heq' := Node.Op.inbound.inj heq
    rcases hi.signal hm with hsig | ⟨msg', hmsg, -⟩
    · simp only [Signal, heq'] at hsig
      obtain rfl := Option.some.inj (hrec.symm.trans hsig.1)
      exact hsig.2.mono (List.subset_append_left _ _)
    · rw [heq'] at hmsg
      cases hmsg
  · have heq' := Node.Op.inbound.inj heq
    rcases hi.signal hm with hsig | ⟨msg', hmsg, hsent⟩
    · simp only [Signal, heq'] at hsig
    · rw [heq'] at hmsg
      cases hmsg
      exact hsent

/-- **A step of the network** keeps the invariant, as long as no counter wraps. -/
theorem Inv.steps (hi : Inv ops as refused net) (hlen : as.length = ops.length)
    (hdial : (dialed ops).Nodup) {o : Op P R} {net' : Network P R} {r : Answer P}
    (hgen : (generated (ops ++ [o])).Nodup) (hs : Steps net o net' r)
    (hspare : ∀ a c e, (net' a).endAt c = some e →
      e.sent.length + (refused a c + if refusesAt a c net o then 1 else 0) < 2 ^ 64 - 1) :
    Inv (ops ++ [o]) (as ++ [r])
      (fun a c => refused a c + if refusesAt a c net o then 1 else 0) net' := by
  have hsame : (∀ a c, refusesAt a c net o = false) →
      (fun a c => refused a c + if refusesAt a c net o then 1 else 0) = refused := by
    intro hnone
    funext a c
    rw [hnone]
    rfl
  cases hs with
  | skip _ ho =>
    rw [hsame fun _ _ => refusesAt_skip ho]
    refine hi.mono hlen fun b h k => ?_
    cases o <;> rfl
  | lost a h i err =>
    rw [hsame fun _ _ => rfl]
    exact hi.mono hlen fun _ _ _ => rfl
  | node a o ho n r hs' =>
    rw [hsame fun _ _ => rfl]
    refine hi.node hlen (fun _ _ _ => rfl) hs' (fun b c heq => ?_)
      (fun req _ heq => absurd heq (ho _)) fun m heq => absurd heq (ho _)
    subst heq
    exact List.mem_append_right _ (List.mem_singleton_self _)
  | delivered a h i msg hm n r hs' =>
    rw [hsame fun _ _ => rfl]
    exact hi.delivered hlen hm hs'
  | conn a h o ho e e' r he hs' =>
    refine hi.conn hlen hdial hgen ho he hs' ?_
    rw [← refusesAt_self he]
    refine hspare a e.conn.id e' ?_
    rw [Function.update_self, (hi.placed a).endAt_insert he e']
    exact if_pos rfl

end

section

variable {t : ThirdParty P R} {peerIds : R → P} {ops : List (Op P R)} {as : List (Answer P)}
  {net : Network P R}

/-- The messages sent on each end of each connection and the closes refused there leave room in its
counter. -/
def Spared (t : ThirdParty P R) (peerIds : R → P) (ops : List (Op P R)) (net : Network P R) :
    Prop :=
  ∀ a c e, (net a).endAt c = some e →
    e.sent.length + count (refusesAt a c) (step t) (new peerIds) ops < 2 ^ 64 - 1

theorem refused_append_singleton {o : Op P R}
    (h : run (step t) (new peerIds) ops = .ok (net, as)) :
    (fun a c => count (refusesAt a c) (step t) (new peerIds) (ops ++ [o]))
      = fun a c => count (refusesAt a c) (step t) (new peerIds) ops
        + if refusesAt a c net o then 1 else 0 :=
  funext fun _ => funext fun _ => count_append_singleton h

theorem spared_append_singleton {o : Op P R} {net' : Network P R} {r : Answer P}
    (hspare : Always (fun xs _ net => Spared t peerIds xs net) (step t) (new peerIds) (ops ++ [o]))
    (h : run (step t) (new peerIds) ops = .ok (net, as)) (hs : step t net o = .ok (net', r)) {a : R}
    {c : ConnectionId} {e : Endpoint P R} (he : (net' a).endAt c = some e) :
    e.sent.length + (count (refusesAt a c) (step t) (new peerIds) ops
      + if refusesAt a c net o then 1 else 0) < 2 ^ 64 - 1 := by
  rw [← count_append_singleton h]
  exact hspare.snoc h hs a c e he

/-- **The invariant holds in every run** with fresh ids in which no counter wraps. -/
theorem inv_run (ht : t.RoundTrips) (hdial : (dialed ops).Nodup) (hgen : (generated ops).Nodup)
    (hspare : Always (fun xs _ net => Spared t peerIds xs net) (step t) (new peerIds) ops)
    (h : run (step t) (new peerIds) ops = .ok (net, as)) :
    Inv ops as (fun a c => count (refusesAt a c) (step t) (new peerIds) ops) net := by
  refine run_induction (I := fun xs as net => (dialed xs).Nodup → (generated xs).Nodup →
    Always (fun xs _ net => Spared t peerIds xs net) (step t) (new peerIds) xs →
    Inv xs as (fun a c => count (refusesAt a c) (step t) (new peerIds) xs) net)
    (fun _ _ _ => inv_new peerIds) ?_ h hdial hgen hspare
  intro xs es m o net' r hr ih hs hdial hgen hspare
  have hd := nodup_dialed_of_append hdial
  have hi := ih hd (nodup_generated_of_append hgen) hspare.of_append
  rw [refused_append_singleton hr]
  exact hi.steps (length_answers hr) hd hgen (steps_of_step ht hs)
    fun _ _ _ => spared_append_singleton hspare hr hs

/-- **A run of fewer than `2^64 - 1` operations** wraps no counter. -/
theorem spared_of_length (ht : t.RoundTrips) (hlen : ops.length < 2 ^ 64 - 1) :
    Always (fun xs _ net => Spared t peerIds xs net) (step t) (new peerIds) ops := by
  intro xs hxs net as hr a c e he
  have hle := hxs.length_le
  have hload := load_run ht hr he
  have hcount : count (fun net o => !refuses net o) (step t) (new peerIds) xs
      + count (refusesAt a c) (step t) (new peerIds) xs ≤ xs.length := by
    refine count_add_count_le fun net o ho => ?_
    rw [Bool.eq_false_iff]
    intro hat
    rw [refuses_of_refusesAt hat] at ho
    cases ho
  rw [Endpoint.load] at hload
  omega

end

end Libp2pNym.Network
