import Libp2pNym.Network.Equiv.Delivery
import Libp2pNym.Transport.Equiv.Binding

/-!
# The handshake

Two transports agree on a connection.  `handshake`: when a dial of `a` to the address `b` was
resolved, both have one connection with the id of the dial, and each of the two names the address
and the peer id of the other; and a connection that was created for a request belongs to exactly one
dial, which was made to its transport.  `resolves_iff`: the response to a dial whose future still
waits resolves it iff the dial was not made to the transport itself, and no transport message has
moved the queue of its id; none does as long as no counter wraps (`counts_run`).

What a connection says of its remote comes from the dial, from the request or from the response.
`Agrees` follows them through one transport, and `Agreed` through all of them: a request that is on
its way carries the address and the peer id of the transport that dialed (`Signed`), and a response
is sent only by a transport that has the connection (`Accepted`).
-/

namespace Libp2pNym.Network

open StepRun

variable {P R : Type} [DecidableEq R]

/-! ### What the network knows of a connection -/

/-- What the transport `a` has dialed, in order: its dial with the handle `d` is the `d`-th of them.
-/
def dialsAt (a : R) (ops : List (Op P R)) : List (R × ConnectionId) :=
  ops.filterMap fun o =>
    match o with
    | .node b (.dial recipient id) => if b = a then some (recipient, id) else none
    | _ => none

theorem dialsAt_append (a : R) (ops ops' : List (Op P R)) :
    dialsAt a (ops ++ ops') = dialsAt a ops ++ dialsAt a ops' := List.filterMap_append

theorem dialsAt_node (a : R) (o : Node.Op P R) : dialsAt a [.node a o] = Node.dialsIn [o] := by
  cases o with
  | dial recipient id => simp [dialsAt, Node.dialsIn]
  | _ => rfl

theorem dialsAt_of_ne {a b : R} (hab : b ≠ a) (o : Node.Op P R) : dialsAt a [.node b o] = [] := by
  cases o with
  | dial recipient id => simp [dialsAt, hab]
  | _ => rfl

theorem calls_of_mem_dialsAt {ops : List (Op P R)} {a b : R} {c : ConnectionId}
    (h : (b, c) ∈ dialsAt a ops) : Calls ops a b c := by
  obtain ⟨o, ho, heq⟩ := List.mem_filterMap.mp h
  split at heq
  · split at heq
    · rename_i hba
      cases heq
      exact hba ▸ ho
    · cases heq
  · cases heq

/-- With fresh ids the dials of one transport have fresh ids. -/
theorem map_dialsAt_sublist (a : R) (ops : List (Op P R)) :
    ((dialsAt a ops).map Prod.snd).Sublist (dialed ops) := by
  rw [dialsAt, List.map_filterMap]
  induction ops with
  | nil => exact List.Sublist.refl _
  | cons o ops ih =>
    rw [dialed, List.filterMap_cons, List.filterMap_cons]
    cases o with
    | node b o =>
      cases o with
      | dial recipient id =>
        by_cases hb : b = a
        · simp only [if_pos hb, Option.map_some]
          exact ih.cons_cons id
        · simp only [if_neg hb, Option.map_none]
          exact ih.cons id
      | _ => exact ih
    | _ => exact ih

/-- The transport `b` has the connection `c`, with `a`. -/
def Accepted (peerIds : R → P) (net : Network P R) (b : R) (c : ConnectionId) (a : R) : Prop :=
  ∃ f, (net b).endAt c = some f ∧ f.conn.remoteRecipient = a ∧ f.conn.peerId = peerIds a

/-- A connection message that the transport `a` can have sent: the request for a dial of its own,
with its own address and peer id, or the response to a dial, with its peer id, when it has the
connection. -/
def Signed (peerIds : R → P) (ops : List (Op P R)) (net : Network P R) (a : R)
    (m : OutboundMessage P R) : Prop :=
  match m.message with
  | .connectionRequest msg =>
    msg.peerId = peerIds a ∧ msg.recipient = some a ∧ Calls ops a m.recipient msg.id
  | .connectionResponse msg =>
    msg.peerId = peerIds a ∧ Calls ops m.recipient a msg.id ∧
      Accepted peerIds net a msg.id m.recipient
  | .transportMessage _ => False

/-- Where a connection of `a` with `b` comes from: `b` has dialed it, or `a` has, and then its dial
is no longer pending at the transport `n` of `a`, and `b` has the connection too. -/
def Stems (peerIds : R → P) (ops : List (Op P R)) (net : Network P R) (n : Node P R) (a b : R)
    (c : ConnectionId) : Prop :=
  Calls ops b a c ∨ Calls ops a b c ∧ n.transport.pendingDials c = none ∧ Accepted peerIds net b c a

/-- Connections stay, each with its peer. -/
def Keeps (net net' : Network P R) : Prop :=
  ∀ a c e, (net a).endAt c = some e → ∃ e', (net' a).endAt c = some e' ∧
    e'.conn.remoteRecipient = e.conn.remoteRecipient ∧ e'.conn.peerId = e.conn.peerId

/-- What holds of the transport `n` with the address `a` after the operations `ops`: its dials are
bound to what it has dialed, the connection messages that it sends are signed, and a connection of
it was dialed by the remote, which it names, or it has dialed the connection itself and the remote
has it too. -/
structure Agrees (peerIds : R → P) (ops : List (Op P R)) (net : Network P R) (a : R)
    (n : Node P R) : Prop where
  self : n.transport.selfAddress = a ∧ n.transport.peerId = peerIds a
  bound : n.Bound (dialsAt a ops)
  pends : n.Pends (dialsAt a ops)
  plain : ∀ c e, n.endAt c = some e → e.Plain
  requests : ∀ d dial m, n.dials d = some dial → dial.request = some m → Signed peerIds ops net a m
  signals : ∀ m ∈ n.transport.outboundTx.log, Signed peerIds ops net a m
  ends : ∀ c e, n.endAt c = some e → e.conn.peerId = peerIds e.conn.remoteRecipient ∧
    Stems peerIds ops net n a e.conn.remoteRecipient c

/-- All transports of the network agree. -/
structure Agreed (peerIds : R → P) (ops : List (Op P R)) (net : Network P R) : Prop where
  sound : Sound net
  each : ∀ a, Agrees peerIds ops net a (net a)

theorem agreed_new (peerIds : R → P) : Agreed peerIds [] (new peerIds : Network P R) where
  sound := ⟨fun _ => Node.placed_new _ _ _, fun _ _ _ he => (by cases he)⟩
  each a :=
    { self := ⟨rfl, rfl⟩
      bound := Node.bound_new _ _ _
      pends := fun _ _ _ hd => (by cases hd)
      plain := fun _ _ he => (by cases he)
      requests := fun _ _ _ hd => (by cases hd)
      signals := nofun
      ends := fun _ _ he => (by cases he) }

section

variable {peerIds : R → P} {ops ops' : List (Op P R)} {net net' : Network P R} {a b : R}
  {n : Node P R}

omit [DecidableEq R] in
theorem Accepted.mono {c : ConnectionId} (h : Accepted peerIds net b c a) (hk : Keeps net net') :
    Accepted peerIds net' b c a := by
  obtain ⟨f, hf, hrem, hpeer⟩ := h
  obtain ⟨f', hf', hrem', hpeer'⟩ := hk b c f hf
  exact ⟨f', hf', hrem'.trans hrem, hpeer'.trans hpeer⟩

omit [DecidableEq R] in
theorem Signed.mono {m : OutboundMessage P R} (h : Signed peerIds ops net a m) (hsub : ops ⊆ ops')
    (hk : Keeps net net') : Signed peerIds ops' net' a m := by
  unfold Signed at h ⊢
  split at h
  · exact ⟨h.1, h.2.1, h.2.2.mono hsub⟩
  · exact ⟨h.1, h.2.1.mono hsub, h.2.2.mono hk⟩
  · exact h

omit [DecidableEq R] in
theorem Stems.mono {c : ConnectionId} {n' : Node P R} (h : Stems peerIds ops net n a b c)
    (hsub : ops ⊆ ops') (hk : Keeps net net')
    (hpend : Calls ops a b c → n.transport.pendingDials c = none →
      n'.transport.pendingDials c = none) :
    Stems peerIds ops' net' n' a b c := by
  rcases h with h | ⟨hcalls, hnone, hacc⟩
  · exact Or.inl (h.mono hsub)
  · exact Or.inr ⟨hcalls.mono hsub, hpend hcalls hnone, hacc.mono hk⟩

/-- A transport at which nothing happens goes on to agree. -/
theorem Agrees.mono (h : Agrees peerIds ops net a n) (hsub : ops ⊆ ops')
    (hdials : dialsAt a ops' = dialsAt a ops) (hk : Keeps net net') :
    Agrees peerIds ops' net' a n where
  self := h.self
  bound := hdials ▸ h.bound
  pends := hdials ▸ h.pends
  plain := h.plain
  requests d dial m hd hm := (h.requests d dial m hd hm).mono hsub hk
  signals m hm := (h.signals m hm).mono hsub hk
  ends c e he := ⟨(h.ends c e he).1, (h.ends c e he).2.mono hsub hk fun _ hpend => hpend⟩

theorem Agreed.mono (hi : Agreed peerIds ops net) {o : Op P R} (hdials : ∀ a, dialsAt a [o] = []) :
    Agreed peerIds (ops ++ [o]) net where
  sound := hi.sound
  each a := by
    refine (hi.each a).mono (List.subset_append_left _ _) ?_ fun b c e he => ⟨e, he, rfl, rfl⟩
    rw [dialsAt_append, hdials, List.append_nil]

/-! ### An operation at a transport -/

theorem keeps_node (hn : Sound net) {o : Node.Op P R} {r : Node.Answer P}
    (hs : Node.Steps (net a) o n r) : Keeps net (Function.update net a n) := by
  intro b c e he
  by_cases hb : b = a
  · subst hb
    rw [Function.update_self]
    obtain ⟨e', he', hrem, hpeer, -⟩ := (Node.moves_steps (hn.placed b) hs c).endAt he
    exact ⟨e', he', hrem, hpeer⟩
  · rw [Function.update_of_ne hb]
    exact ⟨e, he, rfl, rfl⟩

/-- What comes to the transport `a` is a transport message, or it is signed. -/
def Trusted (peerIds : R → P) (ops : List (Op P R)) (net : Network P R) (a : R) (o : Node.Op P R) :
    Prop :=
  ∀ msg, o = .inbound msg →
    (∃ m, msg = .transportMessage m) ∨ ∃ b, Signed peerIds ops net b ⟨msg, a⟩

/-- The peer of a connection that is established now: it has dialed, and it is the one that signed
the request; or it was dialed, and it is the one that signed the response and has the connection. -/
theorem Agreed.established (hi : Agreed peerIds ops net) (hfresh : (dialed ops).Nodup)
    {c : ConnectionId} {o : Node.Op P R} {r : Node.Answer P} (hs : Node.Steps (net a) o n r)
    (hsub : ops ⊆ ops') (hin : Trusted peerIds ops net a o) {e' : Endpoint P R}
    (hnone : (net a).endAt c = none) (he' : n.endAt c = some e')
    (hest : Node.Establishes (net a) c o e'.conn.peerId e'.conn.remoteRecipient) :
    e'.conn.peerId = peerIds e'.conn.remoteRecipient ∧
      Stems peerIds ops' (Function.update net a n) n a e'.conn.remoteRecipient c := by
  have hp := hi.sound.placed a
  generalize hpeer : e'.conn.peerId = peer at hest
  generalize hrem : e'.conn.remoteRecipient = remote at hest
  cases hest with
  | request msg recipient hid hr =>
    obtain ⟨m, hm⟩ | ⟨b, hpeerId, hb, hcalls⟩ := hin _ rfl
    · cases hm
    · rw [hr] at hb
      cases hb
      exact ⟨hpeerId, Or.inl ((hid ▸ hcalls).mono hsub)⟩
  | response msg pending hid hpend =>
    obtain ⟨m, hm⟩ | ⟨b, hpeerId, hcalls, hacc⟩ := hin _ rfl
    · cases hm
    · subst hid
      -- the response comes from the transport that was dialed
      have hdialed := calls_of_mem_dialsAt
        (List.mem_of_getElem? ((hi.each a).bound.pending msg.id pending hpend).1)
      obtain ⟨-, rfl⟩ := hdialed.unique hfresh hcalls
      refine ⟨hpeerId, Or.inr ⟨hdialed.mono hsub, ?_, hacc.mono (keeps_node hi.sound hs)⟩⟩
      refine Node.claimed_of_response hs (hp.endAt_eq_none_iff.mp hnone) fun hc => ?_
      rw [(Node.placed_steps hp hs).endAt_eq_none_iff.mpr hc] at he'
      cases he'

/-- What a transport sends now is signed. -/
theorem Agreed.signed (hi : Agreed peerIds ops net) {o : Node.Op P R} {r : Node.Answer P}
    (hs : Node.Steps (net a) o n r) (hsub : ops ⊆ ops') (hin : Trusted peerIds ops net a o)
    {m : OutboundMessage P R} (hm : m ∈ n.transport.outboundTx.log) :
    Signed peerIds ops' (Function.update net a n) a m := by
  have hkeeps := keeps_node hi.sound hs
  rcases Node.signals_steps (hi.sound.placed a) hs hm with
    hm | ⟨k, dial, hd, hr⟩ | ⟨req, recipient, e, rfl, hr, rfl, he, hrem, hpeer⟩
  · exact ((hi.each a).signals m hm).mono hsub hkeeps
  · exact ((hi.each a).requests k dial m hd hr).mono hsub hkeeps
  · obtain ⟨m, hm⟩ | ⟨b, hpeerId, hb, hcalls⟩ := hin _ rfl
    · cases hm
    · rw [hr] at hb
      cases hb
      refine ⟨(hi.each a).self.2, hcalls.mono hsub, e, ?_, hrem, hpeer.trans hpeerId⟩
      rw [Function.update_self]
      exact he

/-- The transport at which an operation `o` happens, which is the operation `o'` of the network. -/
theorem Agreed.agrees_steps (hi : Agreed peerIds ops net) {o' : Op P R}
    (hfresh : (dialed (ops ++ [o'])).Nodup) {o : Node.Op P R} {r : Node.Answer P}
    (hs : Node.Steps (net a) o n r) (hskip : r = .skip → ∀ recipient id, o ≠ .dial recipient id)
    (hself : dialsAt a [o'] = Node.dialsIn [o])
    (hdial : ∀ recipient id, o = .dial recipient id → o' = .node a (.dial recipient id))
    (hin : Trusted peerIds ops net a o) :
    Agrees peerIds (ops ++ [o']) (Function.update net a n) a n := by
  have hsub : ops ⊆ ops ++ [o'] := List.subset_append_left _ _
  have hkeeps := keeps_node hi.sound hs
  have hp := hi.sound.placed a
  have ha := hi.each a
  have hmoves := Node.dialMoves_steps hs hskip
  have hdials : dialsAt a (ops ++ [o']) = dialsAt a ops ++ Node.dialsIn [o] := by
    rw [dialsAt_append, hself]
  have hfresh_a : ((dialsAt a ops ++ Node.dialsIn [o]).map Prod.snd).Nodup := by
    rw [← hdials]
    exact hfresh.sublist (map_dialsAt_sublist a _)
  rw [dialed_append] at hfresh
  constructor
  · obtain ⟨h1, h2, -⟩ := Node.identity_steps hs
    rw [h1, h2]
    exact ha.self
  · rw [hdials]
    exact ha.bound.steps hp hs hskip
  · rw [hdials]
    exact ha.bound.pends ha.pends hmoves hfresh_a
  · intro c e he m hm
    rcases (Node.moves_steps hp hs c).endAt_cases he with ⟨e₀, he₀, -, -, hout⟩ | ⟨-, -, hout⟩
    · rw [hout] at hm
      exact ha.plain c e₀ he₀ m hm
    · rw [hout] at hm
      cases hm
  · intro d dial m hd hm
    rcases Node.asks_steps hs ⟨d, dial, hd, hm⟩ with
      ⟨k, dial', hd', hm'⟩ | ⟨recipient, id, rfl, rfl⟩
    · exact (ha.requests k dial' m hd' hm').mono hsub hkeeps
    · refine ⟨ha.self.2, congrArg some ha.self.1, ?_⟩
      rw [hdial recipient id rfl]
      exact List.mem_append_right _ (List.mem_singleton_self _)
  · exact fun m hm => hi.signed hs hsub hin hm
  · intro c e he
    rcases (Node.moves_steps hp hs c).endAt_cases he with
      ⟨e₀, he₀, hrem, hpeer, -⟩ | ⟨hnone, hest, -⟩
    · rw [hrem, hpeer]
      obtain ⟨h1, h2⟩ := ha.ends c e₀ he₀
      refine ⟨h1, h2.mono hsub hkeeps fun hcalls hpend => ?_⟩
      rw [Option.eq_none_iff_forall_ne_some]
      intro p hp'
      rcases Node.pendingDials_steps hs hp' with hold | heq
      · rw [hpend] at hold
        cases hold
      · -- a dial that is made now has an id that was not used
        rw [hdial _ c heq] at hfresh
        exact List.disjoint_of_nodup_append hfresh (mem_dialed_of_calls hcalls)
          (List.mem_singleton_self c)
    · exact hi.established hfresh.of_append_left hs hsub hin hnone he hest

/-- **An operation at a transport** keeps the network agreed, if what comes to it is signed. -/
theorem Agreed.node (hi : Agreed peerIds ops net) {o' : Op P R}
    (hfresh : (dialed (ops ++ [o'])).Nodup) {o : Node.Op P R} {r : Node.Answer P}
    (hs : Node.Steps (net a) o n r) (hskip : r = .skip → ∀ recipient id, o ≠ .dial recipient id)
    (hself : dialsAt a [o'] = Node.dialsIn [o]) (hother : ∀ b, b ≠ a → dialsAt b [o'] = [])
    (hdial : ∀ recipient id, o = .dial recipient id → o' = .node a (.dial recipient id))
    (hin : Trusted peerIds ops net a o) :
    Agreed peerIds (ops ++ [o']) (Function.update net a n) where
  sound := hi.sound.node hs
  each := by
    refine (Function.forall_update_iff net _).mpr
      ⟨hi.agrees_steps hfresh hs hskip hself hdial hin, fun b hb => ?_⟩
    refine (hi.each b).mono (List.subset_append_left _ _) ?_ (keeps_node hi.sound hs)
    rw [dialsAt_append, hother b hb, List.append_nil]

/-! ### An operation at a connection -/

/-- **An operation at a connection** keeps the network agreed: the connection keeps its peer, and
sends nothing but transport messages. -/
theorem Agreed.conn (hi : Agreed peerIds ops net) {h : ℕ} {o : Endpoint.Op} {e e' : Endpoint P R}
    {r : Endpoint.Answer} (ho : ∀ msg, o ≠ .receive msg) (he : (net a).conns h = some e)
    (hs : e.step o = .ok (e', r)) :
    Agreed peerIds ops
      (Function.update net a { net a with conns := (net a).conns.insert h e' }) := by
  have hback := (hi.sound.placed a).back he
  have hat : (net a).endAt e.conn.id = some e := Node.endAt_eq_some_iff.mpr ⟨h, hback, he⟩
  have hw := hi.sound.wf a _ e hat
  have hsteps := Endpoint.steps_of_step hw hs
  obtain ⟨-, -, hid, hrem, hpeer⟩ := Endpoint.frame_steps hw hsteps ho
  have ha := hi.each a
  have hend := (hi.sound.placed a).endAt_insert he e'
  have hkeeps : Keeps net
      (Function.update net a { net a with conns := (net a).conns.insert h e' }) := by
    intro b c e₀ he₀
    rw [hi.sound.endAt_update he]
    split
    · rename_i heq
      obtain ⟨rfl, rfl⟩ := heq
      rw [hat] at he₀
      cases he₀
      exact ⟨e', rfl, hrem, hpeer⟩
    · exact ⟨e₀, he₀, rfl, rfl⟩
  refine ⟨sound_steps hi.sound (.conn a h o ho e e' r he hs), (Function.forall_update_iff net _).mpr
    ⟨?_, fun b _ => (hi.each b).mono (List.Subset.refl _) rfl hkeeps⟩⟩
  constructor
  · exact ha.self
  · refine ha.bound.ends (fun d => Or.inl rfl) (fun _ _ hp => hp) rfl fun k e₀ he₀ => ?_
    show ∃ e₁, (net a).conns.insert h e' k = some e₁ ∧ _
    rw [KeyMap.insert_apply]
    split
    · rename_i heq
      subst heq
      rw [he] at he₀
      cases he₀
      exact ⟨e', rfl, hid, hrem⟩
    · exact ⟨e₀, he₀, rfl, rfl⟩
  · exact ha.pends
  · intro c e₀ he₀
    rw [hend] at he₀
    split at he₀
    · cases he₀
      exact Endpoint.plain_steps hw (ha.plain _ e hat) hsteps
    · exact ha.plain c e₀ he₀
  · exact fun d dial m hd hm => (ha.requests d dial m hd hm).mono (List.Subset.refl _) hkeeps
  · exact fun m hm => (ha.signals m hm).mono (List.Subset.refl _) hkeeps
  · intro c e₀ he₀
    rw [hend] at he₀
    split at he₀
    · rename_i heq
      cases he₀
      rw [heq, hrem, hpeer]
      obtain ⟨h1, h2⟩ := ha.ends _ e hat
      exact ⟨h1, h2.mono (List.Subset.refl _) hkeeps fun _ hpend => hpend⟩
    · obtain ⟨h1, h2⟩ := ha.ends c e₀ he₀
      exact ⟨h1, h2.mono (List.Subset.refl _) hkeeps fun _ hpend => hpend⟩

/-! ### Runs -/

/-- What is on its way is a transport message, or it is signed. -/
theorem Agreed.sentFrom (hi : Agreed peerIds ops net) {a : R} {h : Option ℕ}
    {m : OutboundMessage P R} (hm : m ∈ sentFrom (net a) h) :
    (∃ msg, m.message = .transportMessage msg) ∨ Signed peerIds ops net a m := by
  cases h with
  | none => exact Or.inr ((hi.each a).signals m hm)
  | some k =>
    left
    simp only [Network.sentFrom] at hm
    split at hm
    · cases hm
    · rename_i e he
      have hback := (hi.sound.placed a).back he
      exact (hi.each a).plain _ e (Node.endAt_eq_some_iff.mpr ⟨k, hback, he⟩) m hm

theorem step_dial {t : ThirdParty P R} {net' : Network P R} {a b : R} {c : ConnectionId}
    {r : Answer P} (h : step t net (.node a (.dial b c)) = .ok (net', r)) :
    ∃ d, r = .node (.dial d) :=
  ⟨_, (congrArg Prod.snd (Except.ok.inj h)).symm⟩

theorem agreed_run {t : ThirdParty P R} (ht : t.RoundTrips) {as : List (Answer P)}
    (hfresh : (dialed ops).Nodup) (h : run (step t) (new peerIds) ops = .ok (net, as)) :
    Agreed peerIds ops net := by
  refine run_induction (I := fun xs _ net => (dialed xs).Nodup → Agreed peerIds xs net)
    (fun _ => agreed_new peerIds) ?_ h hfresh
  intro xs es net o net' r hr ih hs hfresh
  have hi : Agreed peerIds xs net := ih (nodup_dialed_of_append hfresh)
  cases steps_of_step ht hs with
  | skip _ ho =>
    refine hi.mono fun a => ?_
    cases o with
    | node b o' =>
      cases o' with
      | dial recipient id =>
        obtain ⟨d, hd⟩ := step_dial hs
        cases hd
      | _ => rfl
    | _ => rfl
  | lost a h i err => exact hi.mono fun _ => rfl
  | node a o ho n r hs' =>
    refine hi.node hfresh hs' ?_ (dialsAt_node a o) (fun b hb => dialsAt_of_ne hb.symm o) ?_ ?_
    · rintro rfl recipient id rfl
      obtain ⟨d, hd⟩ := step_dial hs
      cases hd
    · rintro recipient id rfl
      rfl
    · exact fun msg heq => absurd heq (ho msg)
  | delivered a h i m hm n r hs' =>
    refine hi.node hfresh hs' (fun _ _ _ => nofun) rfl (fun _ _ => rfl) (fun _ _ => nofun) ?_
    intro msg heq
    cases heq
    rcases hi.sentFrom hm with hmsg | hsigned
    · exact Or.inl hmsg
    · exact Or.inr ⟨a, hsigned⟩
  | conn a h o ho e e' r he hs' => exact (hi.mono fun _ => rfl).conn ho he hs'

end

/-! ### Agreement -/

/-- The connection has the id `c`, and names the address and the peer id of the transport `n`. -/
def Names (e : Endpoint P R) (c : ConnectionId) (n : Node P R) : Prop :=
  e.conn.id = c ∧ e.conn.remoteRecipient = n.transport.selfAddress ∧
    e.conn.peerId = n.transport.peerId

/-- The operation hands the connection request `msg` to the transport with the address `b`. -/
def Brings (net : Network P R) (o : Op P R) (b : R) (msg : ConnectionMessage P R) : Prop :=
  ∃ a h i, o = .deliver a h i ∧
    (sentFrom (net a) h)[i]? = some { message := .connectionRequest msg, recipient := b }

section

variable {t : ThirdParty P R} {peerIds : R → P} {ops : List (Op P R)} {as : List (Answer P)}
  {net : Network P R}

/-- Both ends of a connection whose dial was resolved. -/
theorem Agreed.resolved (hi : Agreed peerIds ops net) (hfresh : (dialed ops).Nodup) {a b : R}
    {d h : ℕ} {c : ConnectionId} (hd : (dialsAt a ops)[d]? = some (b, c))
    (hres : (net a).Resolved d h) :
    ∃ e k f, (net a).conns h = some e ∧ Names e c (net b) ∧ (net b).conns k = some f ∧
      Names f c (net a) ∧ ∀ k' f', (net b).conns k' = some f' → f'.conn.id = c → k' = k := by
  obtain ⟨e, he, hds⟩ := (hi.each a).bound.resolved d h hres
  rw [hd] at hds
  cases hds
  have hcalls := calls_of_mem_dialsAt (List.mem_of_getElem? hd)
  have hat : (net a).endAt e.conn.id = some e :=
    Node.endAt_eq_some_iff.mpr ⟨h, (hi.sound.placed a).back he, he⟩
  obtain ⟨hpeer, hfrom⟩ := (hi.each a).ends _ e hat
  have hacc : Accepted peerIds net e.conn.remoteRecipient e.conn.id a := by
    rcases hfrom with hback | ⟨-, -, hacc⟩
    · -- a transport that has dialed itself
      obtain ⟨heq, -⟩ := hcalls.unique hfresh hback
      exact ⟨e, heq ▸ hat, heq.symm, hpeer.trans (by rw [← heq])⟩
    · exact hacc
  obtain ⟨f, hf, hrem, hpeerf⟩ := hacc
  obtain ⟨k, hk, hkf⟩ := Node.endAt_eq_some_iff.mp hf
  obtain ⟨f₀, hf₀, hid⟩ := (hi.sound.placed _).conn hk
  rw [hkf] at hf₀
  cases hf₀
  obtain ⟨hself_b, hpeer_b⟩ := (hi.each e.conn.remoteRecipient).self
  obtain ⟨hself_a, hpeer_a⟩ := (hi.each a).self
  refine ⟨e, k, f, he, ⟨rfl, hself_b.symm, hpeer.trans hpeer_b.symm⟩, hkf,
    ⟨hid, hrem.trans hself_a.symm, hpeerf.trans hpeer_a.symm⟩, ?_⟩
  intro k' f' hf' hid'
  have hback := (hi.sound.placed _).back hf'
  rw [hid', hk] at hback
  exact (Option.some.inj hback).symm

/-- A delivered message is lost or handled. -/
theorem step_deliver (ht : t.RoundTrips) {net' : Network P R} {a : R} {h : Option ℕ} {i : ℕ}
    {m : OutboundMessage P R} {r : Answer P} (hm : (sentFrom (net a) h)[i]? = some m)
    (hs : step t net (.deliver a h i) = .ok (net', r)) :
    net' = net ∨ ∃ n r', Node.Steps (net m.recipient) (.inbound m.message) n r' ∧
      net' = Function.update net m.recipient n := by
  simp only [step, hm] at hs
  rcases parseMessageData_toBytes ht m.message with ⟨-, hp⟩ | ⟨-, hp⟩
  · rw [hp] at hs
    obtain ⟨n, r', hs', heq, -⟩ := stepNode_cases hs
    exact Or.inr ⟨n, r', hs', heq⟩
  · rw [hp] at hs
    cases hs
    exact Or.inl rfl

/-- A connection that a request has created belongs to the dial of the transport that signed the
request. -/
theorem Agreed.accepted (ht : t.RoundTrips) (hi : Agreed peerIds ops net) {net' : Network P R}
    {o : Op P R} {r : Answer P} (hs : step t net o = .ok (net', r)) {b : R}
    {msg : ConnectionMessage P R} (hb : Brings net o b msg) {k : ℕ} {e : Endpoint P R}
    (hk : (net b).conns k = none) (hk' : (net' b).conns k = some e) :
    ∃ a, Calls ops a b msg.id ∧ Names e msg.id (net a) := by
  obtain ⟨a, h, i, rfl, hm⟩ := hb
  rcases step_deliver ht hm hs with rfl | ⟨n, r', hs', rfl⟩
  · rw [hk] at hk'
    cases hk'
  · rw [Function.update_self] at hk'
    have hp := hi.sound.placed b
    have hback := (Node.placed_steps hp hs').back hk'
    have hmoves := Node.moves_steps hp hs' e.conn.id
    rcases hmoves.endAt_cases (Node.endAt_eq_some_iff.mpr ⟨k, hback, hk'⟩) with
      ⟨e₀, he₀, -⟩ | ⟨-, hest, -⟩
    · -- an id keeps its handle, so the connection was there before
      obtain ⟨k₀, hk₀, he₀⟩ := Node.endAt_eq_some_iff.mp he₀
      rw [hmoves.connections hp hk₀] at hback
      cases hback
      rw [hk] at he₀
      cases he₀
    · obtain ⟨m, hm'⟩ | ⟨hpeerId, hrec, hcalls⟩ := hi.sentFrom (List.mem_of_getElem? hm)
      · cases hm'
      · obtain ⟨hself_a, hpeer_a⟩ := (hi.each a).self
        refine ⟨a, hcalls, ?_⟩
        unfold Names
        rw [hself_a, hpeer_a]
        generalize e.conn.peerId = peer at hest ⊢
        generalize e.conn.remoteRecipient = remote at hest ⊢
        cases hest with
        | request _ recipient hid hr =>
          rw [hr] at hrec
          cases hrec
          exact ⟨hid.symm, rfl, hpeerId⟩

/-- **Handshake agreement**: in every run with fresh connection ids, and whatever the mixnet does to
the messages, when a dial of `a` to `b` was resolved, `b` has exactly one connection with the id of
the dial, and each of the two connections names the address and the peer id of the other transport;
and a connection that a transport has created for a connection request belongs to one dial, made to
that transport, with the id of the request. -/
theorem handshake (ht : t.RoundTrips) (hfresh : (dialed ops).Nodup)
    (hrun : run (step t) (new peerIds) ops = .ok (net, as)) :
    (∀ a b d c h, (dialsAt a ops)[d]? = some (b, c) → (net a).Resolved d h →
      ∃ e k f, (net a).conns h = some e ∧ Names e c (net b) ∧ (net b).conns k = some f ∧
        Names f c (net a) ∧ ∀ k' f', (net b).conns k' = some f' → f'.conn.id = c → k' = k) ∧
    ∀ xs o ys net₁ as₁ net₂ r b msg k e, ops = xs ++ o :: ys →
      run (step t) (new peerIds) xs = .ok (net₁, as₁) → step t net₁ o = .ok (net₂, r) →
      Brings net₁ o b msg → (net₁ b).conns k = none → (net₂ b).conns k = some e →
      (dialed ops).count msg.id = 1 ∧ ∃ a, Calls xs a b msg.id ∧
        (∀ a' b', Calls ops a' b' msg.id → a' = a ∧ b' = b) ∧ Names e msg.id (net₁ a) := by
  refine ⟨fun a b d c h hd hres => (agreed_run ht hfresh hrun).resolved hfresh hd hres, ?_⟩
  rintro xs o ys net₁ as₁ net₂ r b msg k e rfl hrun₁ hs hb hk hk'
  have hfresh₁ := nodup_dialed_of_append hfresh
  obtain ⟨a, hcalls, hnames⟩ := (agreed_run ht hfresh₁ hrun₁).accepted ht hs hb hk hk'
  have hcalls' : Calls (xs ++ o :: ys) a b msg.id := hcalls.mono (List.subset_append_left _ _)
  refine ⟨List.count_eq_one_of_mem hfresh (mem_dialed_of_calls hcalls'), a, hcalls, ?_, hnames⟩
  intro a' b' h'
  exact h'.unique hfresh hcalls'

end

/-- Two transports dial each other, both requests are delivered before the responses. -/
def sampleCross : List (Op RawPeerId RawRecipient) :=
  [.node (.fill 1) (.dial (.fill 2) ⟨.fill 5⟩), .node (.fill 2) (.dial (.fill 1) ⟨.fill 6⟩),
    .node (.fill 1) (.pollDial 0 false), .node (.fill 2) (.pollDial 0 false),
    .deliver (.fill 2) none 0, .deliver (.fill 1) none 0, .deliver (.fill 2) none 1,
    .deliver (.fill 1) none 1]

set_option maxRecDepth 2000 in
/-- Each dial gets its own connection, and the one that the first transport has created for the
request belongs to the dial of the second. -/
theorem handshake_sampleCross :
    ∃ net as, run (step .raw) (new samplePeers) sampleCross = .ok (net, as) ∧
      (∃ e k f, (net (.fill 1)).conns 1 = some e ∧ Names e ⟨.fill 5⟩ (net (.fill 2)) ∧
        (net (.fill 2)).conns k = some f ∧ Names f ⟨.fill 5⟩ (net (.fill 1))) ∧
      ∃ a, Calls (sampleCross.take 4) a (.fill 1) ⟨.fill 6⟩ := by
  have hstate : ∃ net as rx net₁ as₁ net₂ r e,
      run (step .raw) (new samplePeers) sampleCross = .ok (net, as) ∧
      (net (.fill 1)).rxOf 0 = some rx ∧ rx.slot = .sent 1 ∧
      run (step .raw) (new samplePeers) (sampleCross.take 4) = .ok (net₁, as₁) ∧
      step .raw net₁ (.deliver (.fill 2) none 0) = .ok (net₂, r) ∧
      Brings net₁ (.deliver (.fill 2) none 0) (.fill 1) ⟨.fill 4, ⟨.fill 6⟩, some (.fill 2)⟩ ∧
      (net₁ (.fill 1)).conns 0 = none ∧ (net₂ (.fill 1)).conns 0 = some e :=
    ⟨_, _, _, _, _, _, _, _, rfl, rfl, rfl, rfl, rfl, ⟨_, _, _, rfl, rfl⟩, rfl, rfl⟩
  obtain ⟨net, as, rx, net₁, as₁, net₂, r, e, hrun, hrx, hslot, hrun₁, hs, hb, hk, hk'⟩ := hstate
  obtain ⟨hpart₁, hpart₂⟩ := handshake ThirdParty.raw_roundTrips (by decide) hrun
  obtain ⟨e₁, k, f, h1, h2, h3, h4, -⟩ :=
    hpart₁ (.fill 1) (.fill 2) 0 ⟨.fill 5⟩ 1 rfl ⟨rx, hrx, hslot⟩
  obtain ⟨-, a, hcalls, -⟩ := hpart₂ (sampleCross.take 4) _ (sampleCross.drop 5) net₁ as₁ net₂ r
    (.fill 1) _ 0 e rfl hrun₁ hs hb hk hk'
  exact ⟨net, as, hrun, ⟨e₁, k, f, h1, h2, h3, h4⟩, a, hcalls⟩

/-! ### Counters -/

/-- What the transport `n`, on whose connection `c` were refused `refused c` closes, does with its
counters: its connections stamp what they send with the nonces from 1 on, and no queue of an id
without a connection has moved. -/
structure Counts (refused : ConnectionId → ℕ) (n : Node P R) : Prop where
  clone : n.transport.outboundTx.cloneTx = Chan.new
  mixnet : ∀ c e, n.endAt c = some e → e.outbox.Alive
  stamped : ∀ c e, n.endAt c = some e → e.outbox.Stamped e.conn.remoteRecipient c (refused c)
  absent : ∀ c, n.endAt c = none → refused c = 0
  calm : n.Calm

section

variable {t : ThirdParty P R} {peerIds : R → P} {ops : List (Op P R)} {as : List (Answer P)}
  {net : Network P R} {a : R} {n n' : Node P R} {refused : ConnectionId → ℕ}

omit [DecidableEq R] in
theorem counts_new (selfAddress : R) (peerId : P) :
    Counts (fun _ => 0) (Node.new selfAddress peerId Chan.new : Node P R) where
  clone := rfl
  mixnet _ _ he := by cases he
  stamped _ _ he := by cases he
  absent _ _ := rfl
  calm := Node.calm_new _ _ _

omit [DecidableEq R] in
theorem Counts.node (hn : Counts refused n) (hp : n.Placed) {o : Node.Op P R} {r : Node.Answer P}
    (hs : Node.Steps n o n' r)
    (hmsg : ∀ m, o = .inbound (.transportMessage m) → 1 ≤ TransportMessage.key m) :
    Counts refused n' := by
  have hmoves := Node.moves_steps hp hs
  constructor
  · exact (Node.identity_steps hs).2.2.trans hn.clone
  · intro c e he
    rcases (hmoves c).endAt_cases he with ⟨e₀, he₀, -, -, hout⟩ | ⟨-, -, hout⟩
    · exact hout ▸ hn.mixnet c e₀ he₀
    · rw [hout, hn.clone]
      rfl
  · intro c e he
    rcases (hmoves c).endAt_cases he with ⟨e₀, he₀, hrem, -, hout⟩ | ⟨hnone, -, hout⟩
    · rw [hrem, hout]
      exact hn.stamped c e₀ he₀
    · rw [hout, hn.clone, hn.absent c hnone]
      exact ⟨rfl, List.Pairwise.nil, nofun, nofun⟩
  · intro c hnone
    cases he : n.endAt c with
    | none => exact hn.absent c he
    | some e =>
      obtain ⟨e', he', -⟩ := (hmoves c).endAt he
      rw [hnone] at he'
      cases he'
  · refine Node.calm_steps hp hn.calm ?_ hs
    rintro ⟨m, rfl, hz, -⟩
    have hpos := hmsg m rfl
    rw [TransportMessage.key, hz] at hpos
    cases hpos

omit [DecidableEq R] in
theorem Counts.conn (hn : Counts refused n) (hp : n.Placed) {h : ℕ} {o : Endpoint.Op}
    {e e' : Endpoint P R} {r : Endpoint.Answer} (ho : ∀ msg, o ≠ .receive msg) (hw : e.Wf)
    (he : n.conns h = some e) (hs : e.step o = .ok (e', r)) {refused' : ConnectionId → ℕ}
    (hself : refused' e.conn.id = refused e.conn.id + if e.refusesClose o then 1 else 0)
    (hother : ∀ c, c ≠ e.conn.id → refused' c = refused c)
    (hlt : e'.sent.length + refused' e.conn.id < 2 ^ 64 - 1) :
    Counts refused' { n with conns := n.conns.insert h e' } := by
  have hat : n.endAt e.conn.id = some e := Node.endAt_eq_some_iff.mpr ⟨h, hp.back he, he⟩
  have hend := hp.endAt_insert he e'
  obtain ⟨-, -, -, hrem, -⟩ := Endpoint.frame_steps hw (Endpoint.steps_of_step hw hs) ho
  constructor
  · exact hn.clone
  · intro c e₀ he₀
    rw [hend] at he₀
    split at he₀
    · cases he₀
      exact Endpoint.alive_step hw (hn.mixnet _ e hat) hs
    · exact hn.mixnet c e₀ he₀
  · intro c e₀ he₀
    rw [hend] at he₀
    split at he₀
    · rename_i hc
      cases he₀
      rw [hc, hrem, hself]
      exact Endpoint.stamped_step hw (hn.mixnet _ e hat) hs (hn.stamped _ e hat) (hself ▸ hlt)
    · rename_i hc
      rw [hother c hc]
      exact hn.stamped c e₀ he₀
  · intro c hnone
    rw [hend] at hnone
    split at hnone
    · cases hnone
    · rename_i hc
      rw [hother c hc]
      exact hn.absent c hnone
  · exact hn.calm

/-- A transport message that is on its way has a nonce from 1 on. -/
theorem Agreed.nonce (hi : Agreed peerIds ops net) {refused : R → ConnectionId → ℕ}
    (hc : ∀ a, Counts (refused a) (net a)) {h : Option ℕ} {m : OutboundMessage P R}
    (hm : m ∈ Network.sentFrom (net a) h) {msg : TransportMessage}
    (hmsg : m.message = .transportMessage msg) : 1 ≤ TransportMessage.key msg := by
  cases h with
  | none =>
    have hsigned := (hi.each a).signals m hm
    simp only [Signed, hmsg] at hsigned
  | some k =>
    simp only [Network.sentFrom] at hm
    split at hm
    · cases hm
    · rename_i e he
      have hback := (hi.sound.placed a).back he
      have hstamped := (hc a).stamped _ e (Node.endAt_eq_some_iff.mpr ⟨k, hback, he⟩)
      obtain ⟨_, rfl, -⟩ := hstamped.shape m hm
      cases hmsg
      exact (hstamped.bounds msg (List.mem_filterMap.mpr ⟨_, hm, rfl⟩)).1

/-- A step of the network leaves the counters as they are, or moves those of one connection. -/
theorem Agreed.counts_steps (hi : Agreed peerIds ops net) {refused : R → ConnectionId → ℕ}
    (hc : ∀ a, Counts (refused a) (net a)) {o : Op P R} {net' : Network P R} {r : Answer P}
    (hs : Steps net o net' r)
    (hspare : ∀ a c e, (net' a).endAt c = some e →
      e.sent.length + (refused a c + if refusesAt a c net o then 1 else 0) < 2 ^ 64 - 1) (a : R) :
    Counts (fun c => refused a c + if refusesAt a c net o then 1 else 0) (net' a) := by
  have hsame : ∀ b, (∀ c, refusesAt b c net o = false) →
      (fun c => refused b c + if refusesAt b c net o then 1 else 0) = refused b := by
    intro b hnone
    funext c
    rw [hnone]
    rfl
  cases hs with
  | skip _ ho =>
    rw [hsame a fun _ => refusesAt_skip ho]
    exact hc a
  | lost b h i err =>
    rw [hsame a fun _ => rfl]
    exact hc a
  | node b o ho n r hs' =>
    rw [hsame a fun _ => rfl]
    refine (Function.forall_update_iff net fun a n => Counts (refused a) n).mpr
      ⟨?_, fun a _ => hc a⟩ a
    exact (hc b).node (hi.sound.placed b) hs' fun msg heq => absurd heq (ho _)
  | delivered b h i msg hm n r hs' =>
    rw [hsame a fun _ => rfl]
    refine (Function.forall_update_iff net fun a n => Counts (refused a) n).mpr
      ⟨?_, fun a _ => hc a⟩ a
    refine (hc _).node (hi.sound.placed _) hs' fun tmsg heq => ?_
    exact hi.nonce hc hm (Node.Op.inbound.inj heq)
  | conn b h o ho e e' r he hs' =>
    have hp := hi.sound.placed b
    have hat : (net b).endAt e.conn.id = some e := Node.endAt_eq_some_iff.mpr ⟨h, hp.back he, he⟩
    have hlt := hspare b e.conn.id e'
    rw [Function.update_self, hp.endAt_insert he e'] at hlt
    refine (Function.forall_update_iff net fun a n => Counts (fun c => refused a c
      + if refusesAt a c net (.conn b h o) then 1 else 0) n).mpr ⟨?_, fun a hab => ?_⟩ a
    · have hw := hi.sound.wf b _ e hat
      refine (hc b).conn hp ho hw he hs' ?_ (fun c hne => ?_) (hlt (if_pos rfl))
      · rw [refusesAt_self he]
      · rw [refusesAt_other he fun heq => hne heq.2.symm]
        rfl
    · rw [hsame a fun c => refusesAt_other he fun heq => hab heq.1.symm]
      exact hc a

/-- **No queue moves before its connection is there**, in any run with fresh connection ids in which
no counter wraps. -/
theorem counts_run (ht : t.RoundTrips) (hfresh : (dialed ops).Nodup)
    (hspare : Always (fun xs _ net => Spared t peerIds xs net) (step t) (new peerIds) ops)
    (h : run (step t) (new peerIds) ops = .ok (net, as)) (a : R) :
    Counts (fun c => count (refusesAt a c) (step t) (new peerIds) ops) (net a) := by
  refine run_induction (I := fun xs _ (net : Network P R) => (dialed xs).Nodup →
    Always (fun xs _ net => Spared t peerIds xs net) (step t) (new peerIds) xs →
    ∀ a, Counts (fun c => count (refusesAt a c) (step t) (new peerIds) xs) (net a))
    (fun _ _ a => counts_new a (peerIds a)) ?_ h hfresh hspare a
  intro xs es m o net' r hr ih hs hfresh hspare a
  have hd := nodup_dialed_of_append hfresh
  rw [congrFun (refused_append_singleton hr) a]
  exact (agreed_run ht hd hr).counts_steps (ih hd hspare.of_append) (steps_of_step ht hs)
    (fun _ _ _ => spared_append_singleton hspare hr hs) a

end

/-! ### Responses -/

/-- The transport `a` takes the response for the dial with the handle `d`, and the channel of the
dial receives a connection with `b`. -/
def Resolves (net : Network P R) (a b : R) (d : ℕ) (msg : ConnectionMessage P R) : Prop :=
  ∃ n h e, (net a).handleInbound (.connectionResponse msg) = .ok (n, .ok .connectionResponse) ∧
    n.Resolved d h ∧ n.conns h = some e ∧ Names e msg.id (net b)

section

variable {t : ThirdParty P R} {peerIds : R → P} {ops : List (Op P R)} {as : List (Answer P)}
  {net : Network P R} {a b b' : R} {d : ℕ} {msg : ConnectionMessage P R}

/-- While the dial waits, its transport has no connection for it, unless it has dialed itself. -/
theorem Agreed.unestablished (hi : Agreed peerIds ops net) (hfresh : (dialed ops).Nodup)
    {c : ConnectionId} (hd : (dialsAt a ops)[d]? = some (b, c)) (hwait : (net a).Waits d)
    (hab : b ≠ a) : (net a).endAt c = none := by
  rw [Option.eq_none_iff_forall_ne_some]
  intro e he
  have hcalls := calls_of_mem_dialsAt (List.mem_of_getElem? hd)
  rcases ((hi.each a).ends c e he).2 with hback | ⟨-, hpend, -⟩
  · obtain ⟨-, h⟩ := hcalls.unique hfresh hback
    exact hab h
  · rw [(hi.each a).pends d b c hd hwait] at hpend
    cases hpend

/-- The response resolves the dial iff there is no connection for it yet and its queue has not
moved. -/
theorem Agreed.resolves (hi : Agreed peerIds ops net)
    (hd : (dialsAt a ops)[d]? = some (b, msg.id)) (hwait : (net a).Waits d)
    (hpeer : msg.peerId = peerIds b) :
    Resolves net a b d msg ↔ (net a).transport.connections msg.id = none ∧
      ((net a).queueOf msg.id).nextExpectedNonce = 0 := by
  have hpend := (hi.each a).pends d b msg.id hd hwait
  obtain ⟨rx, hrx, halive, -⟩ := hwait
  obtain ⟨dial, hdial, rfl⟩ := Option.map_eq_some_iff.mp hrx
  obtain ⟨hself_b, hpeer_b⟩ := (hi.each b).self
  constructor
  · rintro ⟨n, h, e, hh, -⟩
    rcases (net a).handleInbound_cases (.connectionResponse msg) with
      ⟨-, n', r, hok, hhandled⟩ | ⟨-, herr⟩
    · rw [hh] at hok
      cases hok
      cases hhandled with
      | resolved _ pending dial' hc hp hq hd' ha => exact ⟨hc, hq⟩
    · rw [hh] at herr
      cases herr
  · rintro ⟨hc, hq⟩
    rcases (net a).handleInbound_cases (.connectionResponse msg) with
      ⟨-, n', r, hok, hhandled⟩ | ⟨⟨-, -, hmoved⟩, -⟩
    · cases hhandled with
      | alreadyEstablished _ h hc' =>
        rw [hc] at hc'
        cases hc'
      | noDial _ hc' hp =>
        rw [hpend] at hp
        cases hp
      | resolved _ pending dial' hc' hp hq' hd' ha =>
        rw [hpend] at hp
        cases hp
        refine ⟨_, (net a).nextConn, ((net a).claimed msg.id).firstEnd msg.peerId b msg.id, hok, ?_,
          ?_, rfl, hself_b.symm, hpeer.trans hpeer_b.symm⟩
        · refine ⟨{ dial.connectionRx with slot := .sent (net a).nextConn }, ?_, rfl⟩
          show Option.map Dial.connectionRx ((net a).dials.modify d _ d) = _
          rw [KeyMap.modify_eq_insert _ _ hdial, KeyMap.insert_self]
          rfl
        · show (((net a).claimed msg.id).connected msg.peerId b msg.id).conns _ = _
          rw [Node.conns_connected]
          exact KeyMap.insert_self ..
      | unresolved _ pending hc' hp hq' hgone =>
        rw [hpend] at hp
        cases hp
        rw [hgone dial hdial] at halive
        cases halive
    · exact absurd hq hmoved

/-- **The response to a dial whose future still waits** resolves it iff the dial was not made to the
transport itself, which then has the connection from its own request, and the queue of the id has
not moved.  The queue has not moved if no counter has wrapped: no message has the nonce 0. -/
theorem resolves_iff (ht : t.RoundTrips) (hfresh : (dialed ops).Nodup)
    (hrun : run (step t) (new peerIds) ops = .ok (net, as))
    (hd : (dialsAt a ops)[d]? = some (b, msg.id)) (hwait : (net a).Waits d)
    (hm : { message := .connectionResponse msg, recipient := a } ∈
      (net b').transport.outboundTx.log) :
    (Resolves net a b d msg ↔ b ≠ a ∧ ((net a).queueOf msg.id).nextExpectedNonce = 0) ∧
      (Always (fun xs _ net => Spared t peerIds xs net) (step t) (new peerIds) ops →
        (Resolves net a b d msg ↔ b ≠ a)) := by
  have hi := agreed_run ht hfresh hrun
  have hcalls := calls_of_mem_dialsAt (List.mem_of_getElem? hd)
  obtain ⟨hpeer, hcalls', f, hf, -⟩ := (hi.each b').signals _ hm
  obtain ⟨-, rfl⟩ := hcalls.unique hfresh hcalls'
  have hiff := hi.resolves hd hwait hpeer
  have hconn : (net a).transport.connections msg.id = none ↔ b ≠ a := by
    rw [← (hi.sound.placed a).endAt_eq_none_iff]
    refine ⟨?_, hi.unestablished hfresh hd hwait⟩
    rintro hnone rfl
    rw [hf] at hnone
    cases hnone
  rw [hconn] at hiff
  refine ⟨hiff, fun hspare => hiff.trans ⟨And.left, fun hab => ⟨hab, ?_⟩⟩⟩
  have hnone := (hi.sound.placed a).endAt_eq_none_iff.mp (hi.unestablished hfresh hd hwait hab)
  exact (counts_run ht hfresh hspare hrun a).calm msg.id hnone

end

set_option maxRecDepth 2000 in
/-- The response to the call is on its way and resolves the dial. -/
theorem resolves_sampleCall :
    ∃ net as, run (step .raw) (new samplePeers) (sampleCall.take 3) = .ok (net, as) ∧
      Resolves net (.fill 1) (.fill 2) 0 ⟨.fill 4, ⟨.fill 5⟩, none⟩ := by
  have hstate : ∃ net as rx, run (step .raw) (new samplePeers) (sampleCall.take 3) = .ok (net, as) ∧
      (net (.fill 1)).rxOf 0 = some rx ∧ rx.rxAlive = true ∧ rx.slot = .empty ∧
      (net (.fill 2)).transport.outboundTx.log
        = [⟨.connectionResponse ⟨.fill 4, ⟨.fill 5⟩, none⟩, .fill 1⟩] :=
    ⟨_, _, _, rfl, rfl, rfl, rfl, rfl⟩
  obtain ⟨net, as, rx, hrun, hrx, halive, hslot, hlog⟩ := hstate
  have hm : (⟨.connectionResponse ⟨.fill 4, ⟨.fill 5⟩, none⟩, .fill 1⟩ :
      OutboundMessage RawPeerId RawRecipient) ∈ (net (.fill 2)).transport.outboundTx.log := by
    rw [hlog]
    exact List.mem_singleton_self _
  have hiff := (resolves_iff ThirdParty.raw_roundTrips (by decide) hrun rfl
    ⟨rx, hrx, halive, hslot⟩ hm).2
    (spared_of_length ThirdParty.raw_roundTrips (by decide))
  exact ⟨net, as, hrun, hiff.mpr (by decide)⟩

/-- A transport dials itself, and its request is delivered. -/
def sampleSelf : List (Op RawPeerId RawRecipient) :=
  [.node (.fill 1) (.dial (.fill 1) ⟨.fill 5⟩), .node (.fill 1) (.pollDial 0 false),
    .deliver (.fill 1) none 0]

set_option maxRecDepth 2000 in
/-- The response finds the connection of the request, and the dial goes on waiting. -/
theorem waits_sampleSelf :
    (dialed sampleSelf).Nodup ∧
      (dialsAt (.fill 1) sampleSelf)[0]? = some (.fill 1, ⟨.fill 5⟩) ∧
      ∃ net as msg n, run (step .raw) (new samplePeers) sampleSelf = .ok (net, as) ∧
        (net (.fill 1)).Waits 0 ∧ msg.id = ⟨.fill 5⟩ ∧
        (net (.fill 1)).transport.outboundTx.log[1]?
          = some { message := .connectionResponse msg, recipient := .fill 1 } ∧
        (net (.fill 1)).handleInbound (.connectionResponse msg)
          = .ok (n, .error .connectionAlreadyEstablished) ∧ n.Waits 0 :=
  ⟨by decide, rfl, _, _, ⟨.fill 3, ⟨.fill 5⟩, none⟩, _, rfl, ⟨_, rfl, rfl, rfl⟩, rfl, rfl, rfl,
    ⟨_, rfl, rfl, rfl⟩⟩

end Libp2pNym.Network
