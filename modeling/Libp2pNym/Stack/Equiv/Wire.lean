import Libp2pNym.Network.Equiv.Complete
import Libp2pNym.Network.Equiv.Handshake
import Libp2pNym.Network.Equiv.Lifecycle

/-!
# What was sent stays sent

Nothing is ever taken back from the channel to the mixnet: `sentFrom_steps` and `Node.sent_run`.  So
a message that could once be delivered can always be delivered, and a transport that handles
messages of others one after another does in a network what a run of deliveries does (`lift_run`).
-/

namespace Libp2pNym

open StepRun

variable {P R : Type}

namespace Network

variable {n : Node P R} {h : ℕ}

theorem sentFrom_of_none (he : n.conns h = none) : sentFrom n (some h) = [] := by
  simp only [sentFrom, he]

theorem sentFrom_of_some {e : Endpoint P R} (he : n.conns h = some e) :
    sentFrom n (some h) = e.outbox.outboundTx.log := by
  simp only [sentFrom, he]

end Network

/-! ### One transport -/

namespace Node

variable {n n' : Node P R}

theorem log_steps {o : Op P R} {a : Answer P} (hs : Steps n o n' a) :
    n.transport.outboundTx.log <+: n'.transport.outboundTx.log := by
  have hsent : ∀ {m : OutboundMessage P R} {tx : Chan (OutboundMessage P R)},
      tx = { n.transport.outboundTx with queue := n.transport.outboundTx.queue ++ [m] } →
      n.transport.outboundTx.log <+: tx.log := by
    rintro m tx rfl
    exact ⟨[m], List.append_assoc ..⟩
  cases hs with
  | inbound msg n' r hh =>
    cases hh with
    | accepted msg recipient hr hc hq ha => exact hsent rfl
    | _ => exact List.prefix_refl _
  | sent d elapsed dial request hd hrx hr ha =>
    obtain ⟨heq, -⟩ :=
      (n.requested d dial request).awaitDial_frame d { dial with request := none } elapsed
    rw [heq]
    exact hsent rfl
  | awaited d elapsed dial hd hrx hr =>
    rw [(n.awaitDial_frame d dial elapsed).1]
  | unsent d elapsed dial request hd hrx hr ha =>
    rw [((n.withdrawn d dial).dropDial_frame d dial).1]
    exact List.prefix_refl _
  | dialDropped d dial hd hrx =>
    rw [(n.dropDial_frame d dial).1]
  | _ => exact List.prefix_refl _

/-- An operation at a transport sends nothing over its connections. -/
theorem Placed.sentFrom_steps (hp : n.Placed) {o : Op P R} {a : Answer P} (hs : Steps n o n' a)
    (h : ℕ) : Network.sentFrom n' (some h) = Network.sentFrom n (some h) := by
  cases he' : n'.conns h with
  | none =>
    cases he : n.conns h with
    | none => rw [Network.sentFrom_of_none he', Network.sentFrom_of_none he]
    | some e =>
      obtain ⟨e', heq, -⟩ := hp.conns_steps hs he
      rw [he'] at heq
      cases heq
  | some e' =>
    rw [Network.sentFrom_of_some he']
    rcases hp.conns_cases hs he' with ⟨hnone, htx, -, -⟩ | ⟨e, he, hout, -, -⟩
    · rw [Network.sentFrom_of_none hnone, htx]
      rfl
    · rw [Network.sentFrom_of_some he, hout]

/-- A run of a transport: it takes back nothing, and sends nothing over its connections. -/
theorem sent_run {ops : List (Op P R)} {as : List (Answer P)} (hp : n.Placed)
    (h : run step n ops = .ok (n', as)) :
    n'.Placed ∧ n.transport.outboundTx.log <+: n'.transport.outboundTx.log ∧
      ∀ k, Network.sentFrom n' (some k) = Network.sentFrom n (some k) := by
  refine run_induction (I := fun _ _ m => m.Placed ∧
    n.transport.outboundTx.log <+: m.transport.outboundTx.log ∧
    ∀ k, Network.sentFrom m (some k) = Network.sentFrom n (some k))
    ⟨hp, List.prefix_refl _, fun _ => rfl⟩ ?_ h
  rintro xs es m o m' a - ⟨hm, hlog, hconns⟩ hs
  have hsteps := steps_of_step hs
  exact ⟨placed_steps hm hsteps, hlog.trans (log_steps hsteps),
    fun k => (hm.sentFrom_steps hsteps k).trans (hconns k)⟩

end Node

theorem Outbox.log_emitAll (o : Outbox P R) (recipient : R) (id : ConnectionId)
    (msgs : List SubstreamMessage) :
    o.outboundTx.log <+: (o.emitAll recipient id msgs).outboundTx.log := by
  induction msgs generalizing o with
  | nil => exact List.prefix_refl _
  | cons msg msgs ih =>
    refine List.IsPrefix.trans ?_ (ih (o.emit recipient id msg))
    rw [Outbox.log_emit]
    exact List.prefix_append _ _

/-- An operation at a connection takes back nothing. -/
theorem Endpoint.log_step {e e' : Endpoint P R} (hw : e.Wf) (ha : e.outbox.Alive) {o : Endpoint.Op}
    {a : Endpoint.Answer} (hs : e.step o = .ok (e', a)) :
    e.outbox.outboundTx.log <+: e'.outbox.outboundTx.log := by
  rcases step_outbox hw ha hs with ⟨-, -, -, msgs, heq⟩ | ⟨-, heq⟩
  · rw [heq]
    exact Outbox.log_emitAll ..
  · rw [heq]
    exact List.prefix_refl _

/-! ### The network -/

namespace Network

/-- Some transport has sent the message to the transport `a`, and it is decoded as `msg`. -/
def Deliverable (t : ThirdParty P R) (net : Network P R) (a : R) (msg : InboundMessage P R) :
    Prop :=
  ∃ b h m, m ∈ sentFrom (net b) h ∧ m.recipient = a ∧
    parseMessageData t (m.message.toBytes t) = .ok msg

/-- Nothing was taken back. -/
def Grown (net net' : Network P R) : Prop :=
  ∀ a h m, m ∈ sentFrom (net a) h → m ∈ sentFrom (net' a) h

theorem Deliverable.mono {t : ThirdParty P R} {net net' : Network P R} {a : R}
    {msg : InboundMessage P R} (h : Deliverable t net a msg) (hg : Grown net net') :
    Deliverable t net' a msg := by
  obtain ⟨b, k, m, hm, hrest⟩ := h
  exact ⟨b, k, m, hg b k m hm, hrest⟩

variable [DecidableEq R]

/-- A transport has moved, and has taken back nothing. -/
theorem grown_update {net : Network P R} {a : R} {n : Node P R}
    (h : ∀ k m, m ∈ sentFrom (net a) k → m ∈ sentFrom n k) :
    Grown net (Function.update net a n) := by
  intro b k m hm
  by_cases hb : b = a
  · subst hb
    rw [Function.update_self]
    exact h k m hm
  · rw [Function.update_of_ne hb]
    exact hm

theorem grown_run {net : Network P R} {a : R} {n : Node P R} (hp : (net a).Placed)
    {ops : List (Node.Op P R)} {as : List (Node.Answer P)}
    (h : run Node.step (net a) ops = .ok (n, as)) : Grown net (Function.update net a n) := by
  obtain ⟨-, hlog, hconns⟩ := Node.sent_run hp h
  refine grown_update fun k m hm => ?_
  cases k with
  | none => exact hlog.subset hm
  | some k =>
    rw [hconns]
    exact hm

/-- An operation at a transport other than a delivery. -/
theorem step_node {t : ThirdParty P R} {net : Network P R} {a : R} {o : Node.Op P R}
    (ho : ∀ msg, o ≠ .inbound msg) {n : Node P R} {r : Node.Answer P}
    (h : (net a).step o = .ok (n, r)) :
    net.step t (.node a o) = .ok (Function.update net a n, .node r) := by
  have hnode : net.stepNode a o = .ok (Function.update net a n, .node r) := by
    rw [stepNode, h]
  cases o with
  | inbound msg => exact absurd rfl (ho msg)
  | _ => exact hnode

/-- The transport messages for the connection `c` among the inbound messages. -/
def arrivals (c : ConnectionId) (msgs : List (InboundMessage P R)) : List TransportMessage :=
  msgs.flatMap fun msg => Node.arrivedIn c (.inbound msg.message : Node.Op P R)

/-- **Handling messages is a run of deliveries.** -/
theorem lift_run {t : ThirdParty P R} {a : R} {msgs : List (InboundMessage P R)}
    {net : Network P R} (hp : (net a).Placed) (hmsgs : ∀ msg ∈ msgs, Deliverable t net a msg)
    {n : Node P R} {as : List (Node.Answer P)}
    (h : run Node.step (net a) (msgs.map fun msg => .inbound msg.message) = .ok (n, as)) :
    ∃ ops, ops.length = msgs.length ∧ (∀ o ∈ ops, ∃ b k i, o = .deliver b k i) ∧
      run (step t) net ops = .ok (Function.update net a n, as.map .node) ∧
      ∀ b c, gather (deliveredAt t b c) (step t) net ops
        = if b = a then arrivals c msgs else [] := by
  induction msgs generalizing net as with
  | nil =>
    cases h
    refine ⟨[], rfl, fun _ ho => absurd ho List.not_mem_nil, ?_, fun b c => (ite_self _).symm⟩
    rw [Function.update_eq_self]
    rfl
  | cons msg msgs ih =>
    obtain ⟨n₁, r, as₁, hs, hr, rfl⟩ := run_cons_iff.mp h
    obtain ⟨b, k, m, hm, hrec, hparse⟩ := hmsgs msg List.mem_cons_self
    obtain ⟨i, hi⟩ := List.mem_iff_getElem?.mp hm
    have hdeliver : net.step t (.deliver b k i) = .ok (Function.update net a n₁, .node r) := by
      simp only [step, hi, hparse, hrec, stepNode, hs]
    have hp₁ : (Function.update net a n₁ a).Placed := by
      rw [Function.update_self]
      exact Node.placed_steps hp (Node.steps_of_step hs)
    have hone : run Node.step (net a) [.inbound msg.message] = .ok (n₁, [r]) :=
      run_cons_of_ok hs rfl
    have hgrown := grown_run hp hone
    obtain ⟨ops, hlen, hops, hrun, hgather⟩ := ih hp₁
      (fun msg' hmem => (hmsgs msg' (List.mem_cons_of_mem _ hmem)).mono hgrown)
      (by rwa [Function.update_self])
    rw [Function.update_idem] at hrun
    refine ⟨.deliver b k i :: ops, by rw [List.length_cons, List.length_cons, hlen], ?_,
      run_cons_of_ok hdeliver hrun, fun b' c => ?_⟩
    · intro o ho
      rcases List.mem_cons.mp ho with rfl | ho
      · exact ⟨b, k, i, rfl⟩
      · exact hops o ho
    · rw [gather, hdeliver]
      dsimp only
      rw [hgather, deliveredAt, hi]
      dsimp only
      rw [hrec, hparse]
      by_cases hb : b' = a
      · subst hb
        simp only [if_true]
        rfl
      · simp only [if_neg hb, if_neg (Ne.symm hb), List.append_nil]

/-! ### The channels to the mixnet -/

/-- Every transport and every connection can send. -/
structure Wired (net : Network P R) : Prop where
  sound : Sound net
  clone : ∀ a, (net a).transport.outboundTx.cloneTx = Chan.new
  alive : ∀ {a h e}, (net a).conns h = some e → e.outbox.Alive

omit [DecidableEq R] in
theorem Wired.wf {net : Network P R} (hn : Wired net) {a : R} {h : ℕ} {e : Endpoint P R}
    (he : (net a).conns h = some e) : e.Wf :=
  hn.sound.wf a e.conn.id e
    (Node.endAt_eq_some_iff.mpr ⟨h, (hn.sound.placed a).back he, he⟩)

theorem Wired.node {net : Network P R} (hn : Wired net) {a : R} {o : Node.Op P R} {n : Node P R}
    {r : Node.Answer P} (hs : Node.Steps (net a) o n r) : Wired (Function.update net a n) where
  sound := hn.sound.node hs
  clone := (Function.forall_update_iff net fun _ n => n.transport.outboundTx.cloneTx = Chan.new).mpr
    ⟨(Node.identity_steps hs).2.2.trans (hn.clone a), fun b _ => hn.clone b⟩
  alive {b h e} he := by
    by_cases hb : b = a
    · subst hb
      rw [Function.update_self] at he
      rcases (hn.sound.placed b).conns_cases hs he with ⟨-, htx, -, -⟩ | ⟨e₀, he₀, hout, -, -⟩
      · rw [Outbox.Alive, htx, hn.clone]
        rfl
      · rw [hout]
        exact hn.alive he₀
    · rw [Function.update_of_ne hb] at he
      exact hn.alive he

theorem wired_steps {net net' : Network P R} (hn : Wired net) {o : Op P R} {r : Answer P}
    (hs : Steps net o net' r) : Wired net' := by
  have hsound := sound_steps hn.sound hs
  cases hs with
  | skip _ ho => exact hn
  | lost a h i err => exact hn
  | node a o ho n r hs' => exact hn.node hs'
  | delivered a h i m hm n r hs' => exact hn.node hs'
  | conn a h o ho e e' r he hs' =>
    refine ⟨hsound, ?_, fun {b j e₁} he₁ => ?_⟩
    · exact (Function.forall_update_iff net fun _ n =>
        n.transport.outboundTx.cloneTx = Chan.new).mpr ⟨hn.clone a, fun b _ => hn.clone b⟩
    · by_cases hb : b = a
      · subst hb
        rw [Function.update_self] at he₁
        rcases KeyMap.insert_eq_some_iff.mp he₁ with ⟨-, rfl⟩ | ⟨-, he₁⟩
        · exact Endpoint.alive_step (hn.wf he) (hn.alive he) hs'
        · exact hn.alive he₁
      · rw [Function.update_of_ne hb] at he₁
        exact hn.alive he₁

theorem wired_run {t : ThirdParty P R} (ht : t.RoundTrips) {peerIds : R → P} {ops : List (Op P R)}
    {as : List (Answer P)} {net : Network P R}
    (h : run (step t) (new peerIds) ops = .ok (net, as)) : Wired net := by
  refine run_induction (I := fun _ _ net => Wired net) ?_ ?_ h
  · exact ⟨⟨fun _ => Node.placed_new _ _ _, fun _ _ _ he => by cases he⟩, fun _ => rfl,
      fun he => by cases he⟩
  · exact fun xs es net o net' r _ hn hs => wired_steps hn (steps_of_step ht hs)

end Network

end Libp2pNym
