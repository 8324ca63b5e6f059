import Libp2pNym.Stack.Equiv.Delivery
import Libp2pNym.Transport.Equiv.Owner

/-!
# What an application is given

`handshake_stack`: a connection that a dial or an upgrade gives to an application is one with the
host that the application has dialed, or with a host whose application has dialed this one, and it
comes with the peer id of that host.
-/

namespace Libp2pNym

open StepRun

variable {P R : Type}

/-! ### The upgrades of a transport -/

namespace Node

/-- Connections stay, each with its peer. -/
def Stays (n n' : Node P R) : Prop :=
  ∀ h e, n.conns h = some e → ∃ e', n'.conns h = some e' ∧ e'.conn.id = e.conn.id ∧
    e'.conn.remoteRecipient = e.conn.remoteRecipient ∧ e'.conn.peerId = e.conn.peerId

/-- The connection in the upgrade has the peer id that comes with it, and `Q` holds of its remote
and of its id. -/
def Invites (Q : R → ConnectionId → Prop) (n : Node P R) (upgrade : Upgrade P) : Prop :=
  ∀ p h, upgrade.connectionTx.slot = .sent (p, h) →
    ∃ e, n.conns h = some e ∧ e.conn.peerId = p ∧ Q e.conn.remoteRecipient e.conn.id

section

variable {Q Q' : R → ConnectionId → Prop} {n n' n₁ : Node P R}

theorem Stays.refl (n : Node P R) : n.Stays n := fun _ e he => ⟨e, he, rfl, rfl, rfl⟩

theorem Stays.trans (h : n.Stays n₁) (h' : n₁.Stays n') : n.Stays n' := by
  intro k e he
  obtain ⟨e₁, he₁, hid₁, hrem₁, hpeer₁⟩ := h k e he
  obtain ⟨e₂, he₂, hid₂, hrem₂, hpeer₂⟩ := h' k e₁ he₁
  exact ⟨e₂, he₂, hid₂.trans hid₁, hrem₂.trans hrem₁, hpeer₂.trans hpeer₁⟩

theorem Invites.mono {upgrade : Upgrade P} (h : n.Invites Q upgrade) (hs : n.Stays n')
    (hQ : ∀ b c, Q b c → Q' b c) : n'.Invites Q' upgrade := by
  intro p k hslot
  obtain ⟨e, he, hpeer, hq⟩ := h p k hslot
  obtain ⟨e', he', hid, hrem, hpeer'⟩ := hs k e he
  refine ⟨e', he', hpeer'.trans hpeer, ?_⟩
  rw [hid, hrem]
  exact hQ _ _ hq

/-- An upgrade is for a connection with the sender of a request. -/
theorem invites_steps {msg : Message P R} {upgrade : Upgrade P}
    (hmsg : ∀ request recipient, msg = .connectionRequest request →
      request.recipient = some recipient → Q recipient request.id)
    (hs : Steps n (.inbound msg) n' (.inbound (.ok (.connectionRequest upgrade)))) :
    n'.Invites Q upgrade := by
  cases hs with
  | inbound _ _ r hh =>
    cases hh with
    | accepted request recipient hr hc hq ha =>
      rintro p h ⟨rfl, rfl⟩
      refine ⟨n.firstEnd request.peerId recipient request.id, ?_, rfl,
        hmsg request recipient rfl hr⟩
      show (n.connected request.peerId recipient request.id).conns n.nextConn = _
      rw [conns_connected]
      exact KeyMap.insert_self ..

/-- **The messages that a transport handles**: connections stay, and every upgrade is for a
connection with the sender of a request. -/
theorem invites_run {msgs : List (InboundMessage P R)} {as : List (Answer P)} (hp : n.Placed)
    (hmsgs : ∀ request recipient, ⟨.connectionRequest request⟩ ∈ msgs →
      request.recipient = some recipient → Q recipient request.id)
    (h : run step n (msgs.map fun msg => .inbound msg.message) = .ok (n', as)) :
    n.Stays n' ∧
      ∀ upgrade, .inbound (.ok (.connectionRequest upgrade)) ∈ as → n'.Invites Q upgrade := by
  induction msgs generalizing n as with
  | nil =>
    cases h
    exact ⟨Stays.refl _, fun upgrade hup => by cases hup⟩
  | cons msg msgs ih =>
    obtain ⟨n₁, a, as, hs, hr, rfl⟩ := run_cons_iff.mp h
    have hsteps := steps_of_step hs
    have hstay : n.Stays n₁ := fun k e he => hp.conns_steps hsteps he
    obtain ⟨hstay', hups⟩ := ih (placed_steps hp hsteps)
      (fun request recipient hm => hmsgs request recipient (List.mem_cons_of_mem _ hm)) hr
    refine ⟨hstay.trans hstay', fun upgrade hup => ?_⟩
    rcases List.mem_cons.mp hup with rfl | hup
    · refine (invites_steps (fun request recipient heq => ?_) hsteps).mono hstay' fun _ _ h => h
      exact hmsgs request recipient (heq ▸ List.mem_cons_self)
    · exact hups upgrade hup

end

end Node

namespace Listener

/-- The events that wait for `poll` are no upgrades, and the upgrades of the application are for
connections of which `Q` holds. -/
structure Invited (Q : R → ConnectionId → Prop) (s : Listener P R) : Prop where
  told : ∀ ev ∈ s.pollRx.queue, ev.ofInbound = false
  upgrades : ∀ u upgrade, s.upgrades u = some upgrade → s.node.Invites Q upgrade

section

variable {f : AddressFormat R} {Q Q' : R → ConnectionId → Prop} {s s' : Listener P R}

theorem Invited.mono (hi : s.Invited Q) (hQ : ∀ b c, Q b c → Q' b c)
    (hs : s.node.Stays s'.node) (hup : s'.upgrades = s.upgrades) (hrx : s'.pollRx = s.pollRx) :
    s'.Invited Q' := by
  refine ⟨hrx ▸ hi.told, fun u upgrade hu => ?_⟩
  rw [hup] at hu
  exact (hi.upgrades u upgrade hu).mono hs hQ

theorem invited_new {peerId : P} {selfAddress : R} {inboundRx : Chan (InboundMessage P R)}
    {outboundTx : Chan (OutboundMessage P R)} {listenerId : ℕ}
    (hnew : newMaybeWithNotifyInbound f peerId selfAddress inboundRx outboundTx listenerId
      = .ok s) : s.Invited Q := by
  unfold newMaybeWithNotifyInbound at hnew
  split at hnew
  · cases hnew
  · rw [Chan.send_of_alive rfl] at hnew
    cases hnew
    refine ⟨fun ev hev => ?_, fun u upgrade hu => by cases hu⟩
    rw [List.mem_singleton.mp hev]
    rfl

/-- The connections stay whatever the application does. -/
theorem stays_steps (hp : s.node.Placed) {o : Op P R} {a : Answer P} (hs : Steps f s o s' a)
    (harrive : ∀ msg, o ≠ .arrive msg) (hend : o ≠ .endInbound) : s.node.Stays s'.node := by
  rcases step_cases hs harrive hend with ⟨msgs, rest, gs, -, hn, -, -⟩ | ⟨o', r, -, hn, -, -⟩
  · exact (Node.invites_run (Q := fun _ _ => True) hp (fun _ _ _ _ => trivial) hn).1
  · exact fun k e he => hp.conns_steps (Node.steps_of_step hn) he

theorem upgrades_pollUpgrade {u v : ℕ} {upgrade upgrade' : Upgrade P}
    (hu : s.upgrades u = some upgrade)
    (hv : (s.pollUpgrade u upgrade).1.upgrades v = some upgrade') :
    s.upgrades v = some upgrade' := by
  unfold pollUpgrade at hv
  split at hv
  · rename_i upgrade₁ hpoll
    have heq : upgrade₁ = upgrade := by
      unfold Upgrade.poll at hpoll
      split at hpoll <;> cases hpoll
      rfl
    rcases KeyMap.insert_eq_some_iff.mp hv with ⟨rfl, rfl⟩ | ⟨-, hv⟩
    · rw [hu, heq]
    · exact hv
  · rename_i r hpoll
    obtain ⟨taken, heq⟩ := give_eq { s with upgrades := s.upgrades.remove u } (.ready r)
    rw [heq] at hv
    exact (KeyMap.remove_eq_some_iff.mp hv).2

theorem upgrades_dropUpgrade {u v : ℕ} {upgrade upgrade' : Upgrade P}
    (hv : (s.dropUpgrade u upgrade).upgrades v = some upgrade') : s.upgrades v = some upgrade' := by
  unfold dropUpgrade at hv
  split at hv <;> exact (KeyMap.remove_eq_some_iff.mp hv).2

/-- **What the application does to its upgrades.** -/
theorem Invited.steps (hi : s.Invited Q) (hp : s.node.Placed)
    (hmsgs : ∀ request recipient, ⟨.connectionRequest request⟩ ∈ s.inboundStream.queue →
      request.recipient = some recipient → Q recipient request.id)
    {o : Op P R} {a : Answer P} (hs : Steps f s o s' a) (harrive : ∀ msg, o ≠ .arrive msg)
    (hend : o ≠ .endInbound) : s'.Invited Q := by
  have hstay := stays_steps hp hs harrive hend
  have hold : ∀ {u upgrade}, s.upgrades u = some upgrade → s'.node.Invites Q upgrade :=
    fun hu => (hi.upgrades _ _ hu).mono hstay fun _ _ h => h
  cases hs with
  | told ev q hq =>
    have hev := hi.told ev (hq ▸ List.mem_cons_self)
    have htold : ∀ ev' ∈ q, ev'.ofInbound = false :=
      fun ev' hev' => hi.told ev' (hq ▸ List.mem_cons_of_mem _ hev')
    cases ev with
    | incoming id upgrade addr addr' => cases hev
    | _ => exact ⟨htold, fun u upgrade hu => hold hu⟩
  | handled msgs rest n gs r hev hq hn hr =>
    have hups := (Node.invites_run hp (fun request recipient hm =>
      hmsgs request recipient (hq ▸ List.mem_append_left _ hm)) hn).2
    have hnode : ((s.took msgs rest n).keep r).node = n ∧
        ((s.took msgs rest n).keep r).pollRx = s.pollRx := by
      obtain ⟨upgrades, k, heq⟩ := keep_eq (s.took msgs rest n) r
      rw [heq]
      exact ⟨rfl, rfl⟩
    rw [hnode.1] at hold
    refine ⟨hnode.2 ▸ hi.told, fun u upgrade hu => hnode.1 ▸ ?_⟩
    rcases hr with ⟨rfl, -, -⟩ | ⟨ev, rfl, hevents⟩
    · exact hold hu
    · cases ev with
      | incoming id upgrade' addr addr' =>
        rcases KeyMap.insert_eq_some_iff.mp hu with ⟨-, rfl⟩ | ⟨-, hu⟩
        · -- the answer that has given the event
          obtain ⟨a, ha, hev'⟩ := List.mem_filterMap.mp
            (show .incoming id upgrade' addr addr' ∈ s.eventsOf gs from
              hevents ▸ List.mem_singleton_self _)
          unfold event at hev'
          split at hev'
          · cases hev'
            exact hups upgrade' ha
          · cases hev'
          · cases hev'
        · exact hold hu
      | _ => exact hold hu
  | removed ha =>
    refine ⟨fun ev hev => ?_, fun u upgrade hu => hold hu⟩
    rcases List.mem_append.mp hev with hev | hev
    · exact hi.told ev hev
    · rw [List.mem_singleton.mp hev]
      rfl
  | pollDial d elapsed dial hd =>
    obtain ⟨taken, heq⟩ := give_eq { s with node := (s.node.pollDial d dial elapsed).1 }
      (s.node.pollDial d dial elapsed).2
    rw [heq] at hold ⊢
    exact ⟨hi.told, fun u upgrade hu => hold hu⟩
  | pollUpgrade u upgrade hu =>
    obtain ⟨upgrades, taken, heq⟩ := s.pollUpgrade_eq u upgrade
    refine ⟨?_, fun v upgrade' hv => hold (upgrades_pollUpgrade hu hv)⟩
    rw [heq]
    exact hi.told
  | dropUpgrade u upgrade hu =>
    refine ⟨?_, fun v upgrade' hv => hold (upgrades_dropUpgrade hv)⟩
    unfold dropUpgrade
    split <;> exact hi.told
  | _ => exact ⟨hi.told, fun u upgrade hu => hold hu⟩

/-- Where a connection that the application is given comes from. -/
theorem connection_cases {o : Op P R} {p : P} {h : ℕ}
    (hs : Steps f s o s' (.connection (.ready (.ok (p, h))))) :
    (∃ d elapsed, o = .pollDial d elapsed ∧
      Node.Steps s.node (.pollDial d elapsed) s'.node (.pollDial (.ready (.ok (p, h))))) ∨
    ∃ u upgrade, o = .pollUpgrade u ∧ s.upgrades u = some upgrade ∧
      upgrade.connectionTx.slot = .sent (p, h) ∧ s'.node = s.node := by
  generalize ha : Answer.connection (.ready (.ok (p, h))) = a at hs
  cases hs with
  | pollDial d elapsed dial hd =>
    have hstep : s.node.step (.pollDial d elapsed) = .ok ((s.node.pollDial d dial elapsed).1,
        .pollDial (s.node.pollDial d dial elapsed).2) := by
      simp only [Node.step, hd]
    obtain ⟨taken, heq⟩ := give_eq { s with node := (s.node.pollDial d dial elapsed).1 }
      (s.node.pollDial d dial elapsed).2
    rw [heq]
    rw [← Answer.connection.inj ha] at hstep
    exact Or.inl ⟨d, elapsed, rfl, Node.steps_of_step hstep⟩
  | pollUpgrade u upgrade hu =>
    obtain ⟨upgrades, taken, heq⟩ := s.pollUpgrade_eq u upgrade
    refine Or.inr ⟨u, upgrade, rfl, hu, ?_, by rw [heq]⟩
    have hans := (Answer.connection.inj ha).symm
    unfold pollUpgrade at hans
    split at hans
    · cases hans
    · rename_i upgrade₁ r hpoll
      cases hans
      unfold Upgrade.poll at hpoll
      split at hpoll
      · rename_i v hslot
        cases hpoll
        exact hslot
      · cases hpoll
      · cases hpoll
  | _ => cases ha

end

end Listener

/-! ### Many hosts -/

namespace Stack

section

variable [DecidableEq R] {g : Gateway R} {t : ThirdParty P R} {f : AddressFormat R}
  {peerIds : R → P} {ops : List (Op P R)} {as : List (Host.Answer P)} {s s' : Stack P R}

/-- An operation is one at some host, or nothing happens. -/
theorem step_cases {o : Op P R} {r : Host.Answer P} (hs : s.step g t f peerIds o = .ok (s', r)) :
    s' = s ∨ ∃ a o' host', Host.Steps g t f (peerIds a) (s a) o' host' r ∧
      s' = Function.update s a host' ∧ (o = .host a o' ∨ ∃ res, o' = .frame res) := by
  have hhost : ∀ a o', s.stepHost g t f peerIds a o' = .ok (s', r) →
      (o = .host a o' ∨ ∃ res, o' = .frame res) →
      ∃ a o' host', Host.Steps g t f (peerIds a) (s a) o' host' r ∧
        s' = Function.update s a host' ∧ (o = .host a o' ∨ ∃ res, o' = .frame res) := by
    intro a o' hst ho
    unfold stepHost at hst
    split at hst
    · cases hst
    · rename_i host' r' hh
      cases hst
      exact ⟨a, o', host', Host.steps_of_step hh, rfl, ho⟩
  cases o with
  | host a o =>
    cases o with
    | frame res =>
      simp only [step] at hs
      split at hs
      · exact Or.inr (hhost a _ hs (Or.inl rfl))
      · cases hs
        exact Or.inl rfl
    | _ => exact Or.inr (hhost a _ hs (Or.inl rfl))
  | carry a i =>
    simp only [step] at hs
    split at hs
    · cases hs
      exact Or.inl rfl
    · split at hs
      · cases hs
        exact Or.inl rfl
      · exact Or.inr (hhost _ _ hs (Or.inr ⟨_, rfl⟩))

/-- The request of a connection that waits for a transport was made by the host that it names. -/
theorem Matches.request {nops : List (Network.Op P R)} {nas : List (Network.Answer P)}
    {net : Network P R} (ht : t.RoundTrips) (hm : Matches g t f peerIds ops as s nops nas net)
    (hi : Network.Agreed peerIds nops net) {a : R} {request : ConnectionMessage P R} {b : R}
    (hd : Network.Deliverable t net a ⟨.connectionRequest request⟩)
    (hb : request.recipient = some b) : (a, request.id) ∈ dialsAt f b ops as := by
  obtain ⟨b', k, m, hmem, hrec, hparse⟩ := hd
  have hmsg : m.message = .connectionRequest request := by
    rcases parseMessageData_toBytes ht m.message with ⟨-, hp⟩ | ⟨-, hp⟩
    · rw [hp] at hparse
      exact congrArg InboundMessage.message (Except.ok.inj hparse)
    · rw [hp] at hparse
      cases hparse
  rcases hi.sentFrom hmem with ⟨msg, heq⟩ | hsigned
  · rw [hmsg] at heq
    cases heq
  · simp only [Network.Signed, hmsg] at hsigned
    obtain ⟨-, hfrom, hcalls⟩ := hsigned
    rw [hb] at hfrom
    cases hfrom
    rw [hrec] at hcalls
    rw [← hm.dials]
    exact List.mem_filterMap.mpr ⟨_, hcalls, if_pos rfl⟩

/-- **The upgrades of every host** are for connections that their remotes have dialed. -/
theorem invited_run (ht : t.Canonical) (hfresh : (dialed ops).Nodup)
    (h : run (step g t f peerIds) new ops = .ok (s, as)) {a : R} {l : Listener P R}
    {task : MixnetTask P R} (ha : s a = .running l task) :
    l.Invited fun b c => (a, c) ∈ dialsAt f b ops as := by
  refine run_induction (I := fun xs es s => (dialed xs).Nodup → ∀ a l task, s a = .running l task →
    l.Invited fun b c => (a, c) ∈ dialsAt f b xs es) (fun _ a l task ha => by cases ha) ?_ h hfresh
    a l task ha
  clear ha a l task
  intro xs es m o m' r hr ih hs hfresh a l task ha
  have hfresh₀ := nodup_dialed_of_append hfresh
  have hmono : ∀ b c, (a, c) ∈ dialsAt f b xs es →
      (a, c) ∈ dialsAt f b (xs ++ [o]) (es ++ [r]) := by
    intro b c hmem
    rw [dialsAt_snoc (length_answers hr)]
    exact List.mem_append_left _ hmem
  -- a transport that has not moved
  have hsame : ∀ l₀ task₀, m a = .running l₀ task₀ → l₀.node.Stays l.node →
      l.upgrades = l₀.upgrades → l.pollRx = l₀.pollRx →
      l.Invited fun b c => (a, c) ∈ dialsAt f b (xs ++ [o]) (es ++ [r]) :=
    fun l₀ task₀ hm => (ih hfresh₀ a l₀ task₀ hm).mono hmono
  obtain ⟨nops, nas, net, hn, hm⟩ := matches_run ht hr
  have hw := Network.wired_run ht.toRoundTrips hn
  have hi := Network.agreed_run ht.toRoundTrips (hm.dialed.nodup hfresh₀) hn
  -- upgrades are made by the application of the host alone, and a host that starts has none
  rcases step_cases hs with rfl | ⟨b, o', host', hst, rfl, -⟩
  · exact hsame l task ha (.refl _) rfl rfl
  · by_cases hb : a = b
    · subst hb
      rw [Function.update_self] at ha
      subst ha
      generalize hma : m a = host at hst
      generalize hlast : Host.running l task = host' at hst
      cases hst with
      | skip _ _ => exact hsame l task (hma.trans hlast.symm) (.refl _) rfl rfl
      | heard s res => cases hlast
      | startEnded s => cases hlast
      | start st pollReady pollFlush listenerId =>
        unfold Host.start at hlast
        split at hlast
        · cases hlast
        · cases hlast
        · dsimp only at hlast
          split at hlast
          · cases hlast
          · rename_i listener hnew
            cases hlast
            exact Listener.invited_new hnew
      | framed l₀ task₀ res =>
        cases hlast
        exact hsame l task₀ hma (.refl _) rfl rfl
      | taskEnded l₀ task₀ =>
        cases hlast
        exact hsame l task₀ hma (.refl _) rfl rfl
      | app l₀ l' task₀ o r' harrive hend hl =>
        cases hlast
        have hruns := hm.runs hma
        have hlisten := ((ih hfresh₀ a l₀ task₀ hma).mono hmono (.refl _) rfl rfl)
        refine hlisten.steps (hruns.node ▸ hw.sound.placed a) (fun request b hmem hb => ?_)
          (Listener.steps_of_step hl) harrive hend
        exact hmono b _ (hm.request ht.toRoundTrips hi (hruns.waiting _ hmem) hb)
      | conn l₀ task₀ h o e e' r' ho he hh hst' =>
        cases hlast
        have hruns := hm.runs hma
        refine hsame l₀ task₀ hma (fun k e₀ he₀ => ?_) rfl rfl
        have hwf := hw.wf (hruns.node ▸ he)
        obtain ⟨-, -, hid, hrem, hpeer⟩ :=
          Endpoint.frame_steps hwf (Endpoint.steps_of_step hwf hst') ho
        show ∃ e₁, l₀.node.conns.insert h e' k = some e₁ ∧ _
        rw [KeyMap.insert_apply]
        split
        · rename_i heq
          subst heq
          rw [he] at he₀
          cases he₀
          exact ⟨e', rfl, hid, hrem, hpeer⟩
        · exact ⟨e₀, he₀, rfl, rfl, rfl⟩
      | polled l₀ task₀ task' order pollReady pollFlush r' hpoll =>
        cases hlast
        exact hsame l₀ task₀ hma (.refl _) rfl rfl
    · rw [Function.update_of_ne hb] at ha
      exact hsame l task ha (.refl _) rfl rfl

/-- A host whose transport is not as it was made runs. -/
theorem Matches.running {nops : List (Network.Op P R)} {nas : List (Network.Answer P)}
    {net : Network P R} (hm : Matches g t f peerIds ops as s nops nas net) {b : R}
    (hb : net b ≠ Network.new peerIds b) : ∃ l task, s b = .running l task := by
  have hhost := hm.hosts b
  cases hs : s b with
  | running l task => exact ⟨l, task, rfl⟩
  | starting st =>
    rw [hs] at hhost
    exact absurd hhost.1 hb
  | failed e =>
    rw [hs] at hhost
    exact absurd hhost hb

/-- The application of a host that answers. -/
theorem app_cases {a : R} {o : Listener.Op P R} {r : Listener.Answer P}
    (hs : s.step g t f peerIds (.host a (.app o)) = .ok (s', .app r)) :
    ∃ l l' task task', s a = .running l task ∧ s' a = .running l' task' ∧
      l.step f o = .ok (l', r) := by
  have hst : s.stepHost g t f peerIds a (.app o) = .ok (s', .app r) := hs
  unfold stepHost at hst
  split at hst
  · cases hst
  · rename_i host' r' hh
    cases hst
    rw [Function.update_self]
    generalize s a = host at hh ⊢
    cases Host.steps_of_step hh with
    | app l l' task _ _ harrive hend hl => exact ⟨l, l', task, _, rfl, rfl, hl⟩

/-- **What an application is given.**  In every run of any number of hosts with fresh connection
ids, whatever the mixnet does to the frames: when a dial gives a connection to the application of
the host `a`, it is with the host `b` that was dialed, and `b` has exactly one connection with the
id of the dial, which names `a`; when an upgrade gives one, it is with a host `b` whose application
has dialed `a`.  In both cases the connection names `b`, and comes with the peer id of `b`. -/
theorem handshake_stack (ht : t.Canonical) (hfresh : (dialed ops).Nodup) {a : R}
    {o : Listener.Op P R} {p : P} {h : ℕ}
    (hrun : run (step g t f peerIds) new (ops ++ [.host a (.app o)])
      = .ok (s, as ++ [.app (.connection (.ready (.ok (p, h))))])) :
    ∃ b c la ta lb tb e, s a = .running la ta ∧ s b = .running lb tb ∧
      la.node.conns h = some e ∧ Network.Names e c lb.node ∧ p = lb.node.transport.peerId ∧
      ((∃ d elapsed k e', o = .pollDial d elapsed ∧ (dialsAt f a ops as)[d]? = some (b, c) ∧
        lb.node.conns k = some e' ∧ Network.Names e' c la.node ∧
        ∀ k' e'', lb.node.conns k' = some e'' → e''.conn.id = c → k' = k) ∨
      ∃ u, o = .pollUpgrade u ∧ (a, c) ∈ dialsAt f b ops as) := by
  obtain ⟨m, es, r, hr, hs, has⟩ := run_snoc_iff.mp hrun
  obtain ⟨rfl, hlast⟩ := List.append_inj' has rfl
  cases hlast
  obtain ⟨nops₀, nas₀, net₀, hn₀, hm₀⟩ := matches_run ht hr
  have hi₀ := Network.agreed_run ht.toRoundTrips (hm₀.dialed.nodup hfresh) hn₀
  obtain ⟨nops, nas, net, hn, hm⟩ := matches_run ht hrun
  obtain ⟨l₀, l, task₀, task, hma, hsa, hl⟩ := app_cases hs
  have hra := hm.runs hsa
  have hlen := length_answers hr
  rcases Listener.connection_cases (Listener.steps_of_step hl) with
    ⟨d, elapsed, rfl, hnode⟩ | ⟨u, upgrade, rfl, hu, hslot, hnode⟩
  · have hids : dialed (ops ++ [.host a (.app (.pollDial d elapsed))]) = dialed ops := by
      simp [dialed]
    have hd := hm.dialed.nodup (hids ▸ hfresh)
    have hi := Network.agreed_run ht.toRoundTrips hd hn
    -- the dial is resolved in the network, where the handshake says with whom
    have hbound : l₀.node.Bound (Network.dialsAt a nops₀) :=
      (hm₀.runs hma).node ▸ (hi₀.each a).bound
    have hres : (net a).Resolved d h := by
      rw [hra.node]
      exact hbound.stays_resolved (Node.dialMoves_steps hnode fun heq => by cases heq)
        (Node.resolved_of_pollDial hnode)
    obtain ⟨e, -, hds⟩ := (hi.each a).bound.resolved d h hres
    obtain ⟨e₁, k, e', he₁, hnames, hk, hnames', huniq⟩ := hi.resolved hd hds hres
    obtain ⟨e₂, he₂, hpeer⟩ : l.node.Tells (.pollDial (.ready (.ok (p, h)))) :=
      Node.tells_steps hnode
    rw [hra.node, he₂] at he₁
    cases he₁
    obtain ⟨lb, tb, hb⟩ := hm.running (b := e.conn.remoteRecipient) fun heq => by
      rw [heq] at hk
      cases hk
    rw [hm.dials, dialsAt_snoc hlen] at hds
    rw [(hm.runs hb).node] at hnames hk huniq
    rw [hra.node] at hnames'
    refine ⟨_, _, l, task, lb, tb, e₁, hsa, hb, he₂, hnames, hpeer.symm.trans hnames.2.2,
      Or.inl ⟨d, elapsed, k, e', rfl, ?_, hk, hnames', huniq⟩⟩
    simpa [dialsOf, Listener.dialedAt] using hds
  · have hids : dialed (ops ++ [.host a (.app (.pollUpgrade u))]) = dialed ops := by
      simp [dialed]
    have hi := Network.agreed_run ht.toRoundTrips (hm.dialed.nodup (hids ▸ hfresh)) hn
    obtain ⟨e, he, hpeer, hmem⟩ := (invited_run ht hfresh hr hma).upgrades u upgrade hu p h hslot
    rw [← hnode] at he
    -- the request that made the upgrade names its sender, which has dialed
    have hat : (net a).endAt e.conn.id = some e :=
      Node.endAt_eq_some_iff.mpr ⟨h, (hi.sound.placed a).back (hra.node ▸ he), hra.node ▸ he⟩
    have hself := (hi.each e.conn.remoteRecipient).self
    have hmem' : (a, e.conn.id) ∈ Network.dialsAt e.conn.remoteRecipient nops := by
      rw [hm.dials, dialsAt_snoc hlen]
      exact List.mem_append_left _ hmem
    obtain ⟨lb, tb, hb⟩ := hm.running (b := e.conn.remoteRecipient) fun heq => by
      have hcount := (hi.each e.conn.remoteRecipient).bound.count
      rw [heq] at hcount
      exact (List.length_pos_of_mem hmem').ne hcount
    rw [(hm.runs hb).node] at hself
    refine ⟨_, _, l, task, lb, tb, e, hsa, hb, he, ⟨rfl, hself.1.symm, ?_⟩, ?_,
      Or.inr ⟨u, rfl, hmem⟩⟩
    · exact ((hi.each a).ends _ e hat).1.trans hself.2.symm
    · exact hpeer.symm.trans (((hi.each a).ends _ e hat).1.trans hself.2.symm)

end

set_option maxRecDepth 4000 in
/-- The dial of the first host gives it a connection with the second. -/
theorem handshake_sampleAnswered :
    ∃ s as la ta lb tb e k e', run (step sampleGateway .raw Listener.sampleFormat samplePeers) new
        (sampleAnswered ++ [.host (.fill 9) (.app (.pollDial 0 false))])
          = .ok (s, as ++ [.app (.connection (.ready (.ok (.fill 4, 0))))]) ∧
      s (.fill 9) = .running la ta ∧ s (.fill 10) = .running lb tb ∧ la.node.conns 0 = some e ∧
      Network.Names e ⟨.fill 5⟩ lb.node ∧ lb.node.conns k = some e' ∧
      Network.Names e' ⟨.fill 5⟩ la.node := by
  have hstate : ∃ m as s,
      run (step sampleGateway .raw Listener.sampleFormat samplePeers) new sampleAnswered
        = .ok (m, as) ∧
      step sampleGateway .raw Listener.sampleFormat samplePeers m
        (.host (.fill 9) (.app (.pollDial 0 false)))
          = .ok (s, .app (.connection (.ready (.ok (.fill 4, 0))))) ∧
      dialsAt Listener.sampleFormat (.fill 9) sampleAnswered as = [(.fill 10, ⟨.fill 5⟩)] :=
    ⟨_, _, _, rfl, rfl, rfl⟩
  obtain ⟨m, as, s, hr, hs, hdials⟩ := hstate
  have hrun := run_snoc_iff.mpr ⟨m, as, _, hr, hs, rfl⟩
  obtain ⟨b, c, la, ta, lb, tb, e, ha, hb, he, hnames, -, hfrom⟩ :=
    handshake_stack ThirdParty.raw_canonical (by decide) hrun
  rcases hfrom with ⟨d, elapsed, k, e', hop, hd, hk, hnames', -⟩ | ⟨u, hop, -⟩
  · cases hop
    rw [hdials] at hd
    cases hd
    exact ⟨s, as, la, ta, lb, tb, e, k, e', hrun, ha, hb, he, hnames, hk, hnames'⟩
  · cases hop

end Stack

end Libp2pNym
