import Libp2pNym.Message.Equiv.Language
import Libp2pNym.Stack.Equiv.Simulation

/-!
# What the whole program guarantees

`refines_network`: the hosts do what the network of their transports does.  So what holds of every
network holds of them: `ordered_delivery_stack` for the bytes of a substream, and
`run_isOk_iff_safe` for the runs that panic.  A connection of a host to itself is an exception
there: it hears what it has sent itself, and its polls panic at any message that does not find what
it is for.
-/

namespace Libp2pNym.Stack

open StepRun

variable {P R : Type} [DecidableEq R]

section

variable {g : Gateway R} {t : ThirdParty P R} {f : AddressFormat R} {peerIds : R → P}
  {ops : List (Op P R)} {as : List (Host.Answer P)} {s : Stack P R}
  {nops : List (Network.Op P R)} {nas : List (Network.Answer P)} {net : Network P R}

theorem Matches.runs (hm : Matches g t f peerIds ops as s nops nas net) {a : R} {l : Listener P R}
    {task : MixnetTask P R} (ha : s a = .running l task) : Runs g t net a l task := by
  have hhost := hm.hosts a
  rw [ha] at hhost
  exact hhost

theorem Matches.length_le (hm : Matches g t f peerIds ops as s nops nas net) (a : R) :
    nops.length + waiting (s a) ≤ ops.length := by
  obtain ⟨Q, hcount, hle⟩ := hm.bounded
  have hcard := Multiset.count_le_card a Q
  rw [hcount] at hcard
  omega

/-- **The whole program refines the network of its transports.**  Every run of any number of hosts,
whatever their applications, tasks, websockets and the mixnet do, is matched by a run of the network
that is no longer: every host that runs has the transport of the network, and the two sides of its
channels agree; every connection has answered the same, and every host has dialed the same. -/
theorem refines_network (ht : t.Canonical) (h : run (step g t f peerIds) new ops = .ok (s, as)) :
    ∃ nops nas net, run (Network.step t) (Network.new peerIds) nops = .ok (net, nas) ∧
      (∀ a l task, s a = .running l task → net a = l.node ∧
        task.inbound.inboundTx = l.inboundStream ∧
        ∀ m, m ∈ task.outbound.outboundRx.log ↔ ∃ k, m ∈ Network.sentFrom l.node k) ∧
      (∀ a, (∀ l task, s a ≠ .running l task) → net a = Network.new peerIds a) ∧
      (∀ (α : Type) (k : Endpoint.Op → Endpoint.Answer → List α) a j,
        Network.collect k a j nops nas = collect k a j ops as) ∧
      (∀ a, Network.dialsAt a nops = dialsAt f a ops as) ∧
      (Network.generated nops).Sublist (generated ops) ∧
      ∀ a, nops.length + waiting (s a) ≤ ops.length := by
  obtain ⟨nops, nas, net, hn, hm⟩ := matches_run ht h
  refine ⟨nops, nas, net, hn, fun a l task ha => ?_, fun a ha => ?_, fun α k => hm.collected k,
    hm.dials, hm.generated, hm.length_le⟩
  · have hr := hm.runs ha
    exact ⟨hr.node, hr.inbound, hr.node ▸ hr.sent⟩
  · have hhost := hm.hosts a
    cases hs : s a with
    | starting st =>
      rw [hs] at hhost
      exact hhost.1
    | running l task => exact absurd hs (ha l task)
    | failed e =>
      rw [hs] at hhost
      exact hhost

end

/-- Nym clients that mark a message by a 1, and their address by a 2. -/
def sampleGateway : Gateway RawRecipient where
  serialize
    | .send recipient message _ => recipient.val ++ message
  deserialize bytes := .ok (if bytes.head? = some 1 then .received bytes.tail else .other)
  selfAddressRequest := []
  selfAddress bytes :=
    match bytes with
    | [2, b] => some (.fill b)
    | _ => none
  selfAddress_other bytes recipient h := by
    split at h
    · rfl
    · cases h
  request bytes :=
    if h : 96 ≤ bytes.length then
      some (⟨bytes.take 96, List.length_take_of_le h⟩, bytes.drop 96)
    else none
  response message := .binary (1 :: message)
  request_serialize recipient message connectionId := by
    obtain ⟨val, hlen⟩ := recipient
    have hle : 96 ≤ (val ++ message).length := by
      rw [List.length_append, hlen]
      exact Nat.le_add_right _ _
    simp only [dif_pos hle, List.take_left' hlen, List.drop_left' hlen]
  request_selfAddress := rfl
  parse_response message := rfl

def samplePeers : RawRecipient → RawPeerId := fun a => if a = .fill 9 then .fill 3 else .fill 4

/-- Two hosts are told their addresses, and run. -/
def sampleHosts : List (Op RawPeerId RawRecipient) :=
  [.host (.fill 9) (.frame (.ok (.binary [2, 9]))), .host (.fill 9) (.start .ready .ready 4),
    .host (.fill 10) (.frame (.ok (.binary [2, 10]))), .host (.fill 10) (.start .ready .ready 5)]

/-- The first host has dialed the second, which has an upgrade for it. -/
def sampleIncoming : List (Op RawPeerId RawRecipient) := sampleHosts ++
  [.host (.fill 9) (.app (.dial [.nym "ten"] ⟨.fill 5⟩)),
    .host (.fill 9) (.app (.pollDial 0 false)),
    .host (.fill 9) (.task .left .ready .ready), .carry (.fill 9) 1,
    .host (.fill 10) (.task .left .ready .ready), .host (.fill 10) (.app .poll),
    .host (.fill 10) (.app .poll)]

/-- The second host has taken the connection, and the response has come to the first. -/
def sampleAnswered : List (Op RawPeerId RawRecipient) := sampleIncoming ++
  [.host (.fill 10) (.app (.pollUpgrade 0)), .host (.fill 10) (.task .left .ready .ready),
    .carry (.fill 10) 1, .host (.fill 9) (.task .left .ready .ready), .host (.fill 9) (.app .poll),
    .host (.fill 9) (.app .poll)]

/-- The first host writes two buffers, whose frames come in the wrong order and twice. -/
def sampleTalk : List (Op RawPeerId RawRecipient) := sampleAnswered ++
  [.host (.fill 9) (.app (.pollDial 0 false)), .host (.fill 9) (.conn 0 (.pollOutbound ⟨.fill 6⟩)),
    .host (.fill 9) (.conn 0 (.write 0 [1])), .host (.fill 9) (.conn 0 (.write 0 [2])),
    .host (.fill 9) (.task .left .ready .ready), .host (.fill 9) (.task .left .ready .ready),
    .host (.fill 9) (.task .left .ready .ready), .carry (.fill 9) 4, .carry (.fill 9) 3,
    .carry (.fill 9) 4, .carry (.fill 9) 2, .host (.fill 10) (.task .left .ready .ready),
    .host (.fill 10) (.task .left .ready .ready), .host (.fill 10) (.task .left .ready .ready),
    .host (.fill 10) (.task .left .ready .ready), .host (.fill 10) (.app .poll),
    .host (.fill 10) (.conn 0 .poll)]

set_option maxRecDepth 4000 in
/-- The transport of the second host is that of the network, with the substream and its bytes. -/
theorem refines_network_sampleTalk : ∃ nops nas net e sub,
    run (Network.step .raw) (Network.new samplePeers) nops = .ok (net, nas) ∧
      (net (.fill 10)).conns 0 = some e ∧ e.substreams 0 = some sub ∧
      sub.inboundRx.log = [[1], [2]] ∧
      Network.dialsAt (.fill 9) nops = [(.fill 10, ⟨.fill 5⟩)] := by
  have hstate : ∃ s as l task e sub,
      run (step sampleGateway .raw Listener.sampleFormat samplePeers) new sampleTalk = .ok (s, as) ∧
      s (.fill 10) = .running l task ∧ l.node.conns 0 = some e ∧ e.substreams 0 = some sub ∧
      sub.inboundRx.log = [[1], [2]] ∧
      dialsAt Listener.sampleFormat (.fill 9) sampleTalk as = [(.fill 10, ⟨.fill 5⟩)] :=
    ⟨_, _, _, _, _, _, rfl, rfl, rfl, rfl, rfl, rfl⟩
  obtain ⟨s, as, l, task, e, sub, hrun, hs, he, hsub, hlog, hdials⟩ := hstate
  obtain ⟨nops, nas, net, hn, hruns, -, -, hd, -⟩ := refines_network ThirdParty.raw_canonical hrun
  refine ⟨nops, nas, net, e, sub, hn, ?_, hsub, hlog, (hd _).trans hdials⟩
  rw [(hruns _ _ _ hs).1]
  exact he

section

variable {g : Gateway R} {t : ThirdParty P R} {f : AddressFormat R} {peerIds : R → P}
  {ops : List (Op P R)} {as : List (Host.Answer P)} {s : Stack P R}
  {nops : List (Network.Op P R)} {nas : List (Network.Answer P)} {net : Network P R}

/-! ### Ordered delivery -/

/-- The buffers accepted by `poll_write` of the substream with the handle `k` of the connection with
the handle `h` of the host `a`, in order. -/
def accepted (a : R) (h k : ℕ) : List (Op P R) → List (Host.Answer P) → List Bytes :=
  collect (Endpoint.acceptedIn k) a h

theorem accepted_eq_collect (a : R) (h k : ℕ) (nops : List (Network.Op P R))
    (nas : List (Network.Answer P)) :
    Network.accepted a h k nops nas = Network.collect (Endpoint.acceptedIn k) a h nops nas := by
  have hat : ∀ (o : Network.Op P R) (r : Network.Answer P),
      Network.acceptedAt a h k o r = Network.collectAt (Endpoint.acceptedIn k) a h o r := by
    intro o r
    cases o <;> cases r <;> rfl
  simp only [Network.accepted, Network.collect, hat]

/-- What every substream was sent: for each two ends of a connection the chunks that reached a
substream of the one are a prefix of the buffers accepted by the substream with its id at the other,
and there are none if the other has no such substream. -/
def InOrder (ops : List (Op P R)) (as : List (Host.Answer P)) (s : Stack P R) : Prop :=
  ∀ a b la ta lb tb c h e e', a ≠ b → s a = .running la ta → s b = .running lb tb →
    la.node.transport.connections c = some h → la.node.conns h = some e →
    lb.node.endAt c = some e' → ∀ k sub, e'.substreams k = some sub →
      (∀ k' sub', e.substreams k' = some sub' → sub'.substreamId = sub.substreamId →
        sub.inboundRx.log <+: accepted a h k' ops as) ∧
      ((∀ k' sub', e.substreams k' = some sub' → sub'.substreamId ≠ sub.substreamId) →
        sub.inboundRx.log = [])

/-- What the network keeps in the run that matches one of the hosts. -/
theorem Matches.inv (ht : t.RoundTrips) (hm : Matches g t f peerIds ops as s nops nas net)
    (hn : run (Network.step t) (Network.new peerIds) nops = .ok (net, nas))
    (hdial : (Stack.dialed ops).Nodup) (hgen : (Stack.generated ops).Nodup)
    (hlen : nops.length < 2 ^ 64 - 1) :
    (Network.dialed nops).Nodup ∧ Network.Inv nops nas
      (fun a c => count (Network.refusesAt a c) (Network.step t) (Network.new peerIds) nops)
      net := by
  have hd := hm.dialed.nodup hdial
  exact ⟨hd, Network.inv_run ht hd (hm.generated.nodup hgen) (Network.spared_of_length ht hlen) hn⟩

/-- **Ordered delivery from one application to another.**  In every run of any number of hosts with
fresh ids and fewer than `2 ^ 64 - 1` operations, whatever the mixnet does to the frames and however
tasks and transports are polled: what reaches a substream is at every time a prefix of what was
accepted by the substream with the same id at the other end, at another host. -/
theorem ordered_delivery_stack (ht : t.Canonical) (hdial : (dialed ops).Nodup)
    (hgen : (generated ops).Nodup) (hlen : ops.length < 2 ^ 64 - 1) :
    Always InOrder (step g t f peerIds) new ops := by
  rintro xs ⟨ys, rfl⟩ s as hr a b la ta lb tb c h e e' hab ha hb hc he he'
  have hdial₁ := nodup_dialed_of_append hdial
  have hgen₁ := nodup_generated_of_append hgen
  rw [List.length_append] at hlen
  obtain ⟨nops, nas, net, hn, hm⟩ := matches_run ht hr
  have hle := hm.length_le a
  obtain ⟨hd, hi⟩ := hm.inv ht.toRoundTrips hn hdial₁ hgen₁ (by omega)
  have hra := hm.runs ha
  have hrb := hm.runs hb
  have horder := hi.inOrder hd a b c h e e' hab (hra.node ▸ hc) (hra.node ▸ he) (hrb.node ▸ he')
  simp only [accepted_eq_collect, hm.collected] at horder
  exact horder

end

set_option maxRecDepth 4000 in
theorem ordered_delivery_sampleTalk :
    Always InOrder (step sampleGateway .raw Listener.sampleFormat samplePeers) new sampleTalk ∧
      ∃ s as l task e sub,
        run (step sampleGateway .raw Listener.sampleFormat samplePeers) new sampleTalk
          = .ok (s, as) ∧
        s (.fill 10) = .running l task ∧ l.node.endAt ⟨.fill 5⟩ = some e ∧
        e.substreams 0 = some sub ∧ sub.inboundRx.log = [[1], [2]] ∧
        accepted (.fill 9) 0 0 sampleTalk as = [[1], [2]] :=
  ⟨ordered_delivery_stack ThirdParty.raw_canonical (by decide) (by decide) (by decide),
    _, _, _, _, _, _, rfl, rfl, rfl, rfl, rfl, rfl⟩

section

variable {g : Gateway R} {t : ThirdParty P R} {f : AddressFormat R} {peerIds : R → P}
  {ops : List (Op P R)} {as : List (Host.Answer P)} {s : Stack P R}
  {nops : List (Network.Op P R)} {nas : List (Network.Answer P)} {net : Network P R}

/-! ### Panics -/

/-- The operation is no dial of the empty address at a host that runs, and if it is the `poll` of a
connection, no close of a dropped substream waits there; at a connection of the host to itself, each
message that waits finds what it is for. -/
def Safe (s : Stack P R) : Op P R → Prop
  | .host a (.app (.dial addr _)) => (∃ l task, s a = .running l task) → addr ≠ []
  | .host a (.app (.dialAsListener addr _)) => (∃ l task, s a = .running l task) → addr ≠ []
  | .host a (.conn h .poll) =>
    ∀ l task e, s a = .running l task → h ∈ l.taken → l.node.conns h = some e → e.Alive →
      e.Kept a
  | _ => True

theorem stepHost_isOk_iff (a : R) (o : Host.Op P R) :
    (∃ r, s.stepHost g t f peerIds a o = .ok r) ↔
      ∃ r, (s a).step g t f (peerIds a) o = .ok r := by
  unfold stepHost
  cases (s a).step g t f (peerIds a) o with
  | error p => exact iff_of_false (fun ⟨_, h⟩ => by cases h) (fun ⟨_, h⟩ => by cases h)
  | ok v => exact iff_of_true ⟨_, rfl⟩ ⟨_, rfl⟩

omit [DecidableEq R] in
theorem app_isOk_iff (l : Listener P R) (task : MixnetTask P R) (o : Listener.Op P R) :
    (∃ r, Host.app f l task o = .ok r) ↔ ∃ r, l.step f o = .ok r := by
  unfold Host.app
  cases l.step f o with
  | error p => exact iff_of_false (fun ⟨_, h⟩ => by cases h) (fun ⟨_, h⟩ => by cases h)
  | ok v => exact iff_of_true ⟨_, rfl⟩ ⟨_, rfl⟩

/-- An operation panics only at a connection that the application has. -/
theorem Runs.conn_isOk_iff {a : R} {l : Listener P R} {task : MixnetTask P R}
    (hr : Runs g t net a l task) {refused : R → ConnectionId → ℕ}
    (hi : Network.Inv nops nas refused net) (hfresh : (Network.dialed nops).Nodup) {h : ℕ}
    {o : Endpoint.Op} : (∃ r, Host.conn l task h o = .ok r) ↔
      ∀ e, h ∈ l.taken → l.node.conns h = some e → o = .poll → e.Alive → e.Kept a := by
  unfold Host.conn
  cases he : l.node.conns h with
  | none => exact iff_of_true ⟨_, rfl⟩ fun e _ heq => by cases heq
  | some e =>
    by_cases htaken : h ∈ l.taken
    · have hok := hi.conn_isOk_iff hfresh (hr.node ▸ he) o
      simp only [if_pos htaken]
      refine Iff.trans ?_ (hok.trans ⟨fun hk e' _ heq => ?_, fun hk => hk e htaken rfl⟩)
      · cases e.step o with
        | error p =>
          refine iff_of_false ?_ ?_
          · rintro ⟨v, hv⟩
            cases hv
          · rintro ⟨v, hv⟩
            cases hv
        | ok v => exact iff_of_true ⟨_, rfl⟩ ⟨_, rfl⟩
      · cases heq
        exact hk
    · simp only [if_neg htaken]
      exact iff_of_true ⟨_, rfl⟩ fun e' hh => absurd hh htaken

omit [DecidableEq R] in
theorem frame_isOk (host : Host P R) (peerId : P) (res : Except Unit WsMessage) :
    ∃ r, host.step g t f peerId (.frame res) = .ok r := by
  cases host <;> exact ⟨_, rfl⟩

/-- No message that waits for a transport clashes with a queue. -/
theorem Matches.not_reaches (ht : t.RoundTrips) (hm : Matches g t f peerIds ops as s nops nas net)
    (hn : run (Network.step t) (Network.new peerIds) nops = .ok (net, nas))
    (hdial : (Stack.dialed ops).Nodup) (hgen : (Stack.generated ops).Nodup)
    (hlen : ops.length < 2 ^ 64 - 1) {a : R} {l : Listener P R} {task : MixnetTask P R}
    (ha : s a = .running l task) : ¬ l.Reaches := by
  rintro ⟨msgs, msg, rest, n, gs, hq, hh, -, hcl⟩
  have hr := hm.runs ha
  have hle := hm.length_le a
  rw [ha] at hle
  simp only [waiting, hq, List.length_append, List.length_cons] at hle
  -- the network handles the messages that come before
  have hrun : run Node.step (net a) (msgs.map fun msg => .inbound msg.message) = .ok (n, gs) := by
    rw [hr.node]
    exact hh
  obtain ⟨zs, hzlen, hzs, hz, -⟩ := Network.lift_run ((Network.wired_run ht hn).sound.placed a)
    (fun msg' hmsg' => hr.waiting msg' (hq ▸ List.mem_append_left _ hmsg')) hrun
  obtain ⟨hzd, hzg, -⟩ := deliveries (t := t) hzs []
  have hall := run_append_iff.mpr ⟨_, _, _, hn, hz, rfl⟩
  have hdial' : (Network.dialed (nops ++ zs)).Nodup := by
    rw [Network.dialed_append, hzd, List.append_nil]
    exact hm.dialed.nodup hdial
  have hgen' : (Network.generated (nops ++ zs)).Nodup := by
    rw [Network.generated_append, hzg, List.append_nil]
    exact hm.generated.nodup hgen
  have hlen' : (nops ++ zs).length < 2 ^ 64 - 1 := by
    rw [List.length_append, hzlen]
    omega
  have hcalm := (Network.inv_run ht hdial' hgen' (Network.spared_of_length ht hlen') hall).calm a
  rw [Function.update_self] at hcalm
  exact Node.not_clashes_of_calm hcalm _ hcl

/-- **What panics in the whole program**: the operations that are not `Safe`, and nothing else. -/
theorem Matches.step_isOk_iff (ht : t.Canonical) (hm : Matches g t f peerIds ops as s nops nas net)
    (hn : run (Network.step t) (Network.new peerIds) nops = .ok (net, nas))
    (hdial : (Stack.dialed ops).Nodup) (hgen : (Stack.generated ops).Nodup)
    (hlen : ops.length < 2 ^ 64 - 1) (o : Op P R) :
    (∃ r, s.step g t f peerIds o = .ok r) ↔ s.Safe o := by
  have hle : nops.length < 2 ^ 64 - 1 := by
    obtain ⟨Q, -, hle⟩ := hm.bounded
    omega
  obtain ⟨hd, hi⟩ := hm.inv ht.toRoundTrips hn hdial hgen hle
  cases o with
  | carry a i =>
    refine iff_of_true ?_ trivial
    simp only [Stack.step]
    split
    · exact ⟨_, rfl⟩
    · split
      · exact ⟨_, rfl⟩
      · exact (stepHost_isOk_iff _ _).mpr (frame_isOk _ _ _)
  | host a o =>
    cases o with
    | frame res =>
      refine iff_of_true ?_ trivial
      simp only [Stack.step]
      split
      · exact (stepHost_isOk_iff _ _).mpr (frame_isOk _ _ _)
      · exact ⟨_, rfl⟩
    | endStream | start pollReady pollFlush listenerId =>
      refine iff_of_true ((stepHost_isOk_iff _ _).mpr ?_) trivial
      cases s a <;> exact ⟨_, rfl⟩
    | task order pollReady pollFlush =>
      refine iff_of_true ((stepHost_isOk_iff _ _).mpr ?_) trivial
      cases ha : s a with
      | running l task =>
        have hr := hm.runs ha
        obtain ⟨task', r, hpoll, -⟩ :=
          MixnetTask.inbound_poll (w := g.toNymClient) ht hr.isOpen order pollReady pollFlush
        simp only [Host.step, Host.pollTask, hpoll]
        exact ⟨_, rfl⟩
      | _ => exact ⟨_, rfl⟩
    | app o =>
      refine (stepHost_isOk_iff a _).trans ?_
      cases ha : s a with
      | running l task =>
        have hr := hm.runs ha
        -- the application panics with the transport: a dial of the empty address, or a `poll`
        have hstep : (∃ r, Host.app f l task o = .ok r) ↔ ¬ l.Crashes o :=
          (app_isOk_iff l task o).trans (Listener.step_isOk_iff hr.events o)
        have hruns : ∃ l task, s a = .running l task := ⟨l, task, ha⟩
        cases o with
        | arrive msg | endInbound => exact iff_of_true ⟨_, rfl⟩ trivial
        | dial addr id | dialAsListener addr id =>
          exact hstep.trans ⟨fun h _ => h, fun h => h hruns⟩
        | poll =>
          refine iff_of_true (hstep.mpr fun hc => ?_) trivial
          exact hm.not_reaches ht.toRoundTrips hn hdial hgen hlen ha hc.2
        | _ => exact iff_of_true (hstep.mpr id) trivial
      | starting st | failed e =>
        refine iff_of_true ⟨_, rfl⟩ ?_
        have hruns : ¬ ∃ l task, s a = .running l task := by
          rintro ⟨l, task, heq⟩
          rw [ha] at heq
          cases heq
        cases o with
        | dial addr id | dialAsListener addr id => exact fun h => absurd h hruns
        | _ => trivial
    | conn h o =>
      refine (stepHost_isOk_iff a _).trans ?_
      cases ha : s a with
      | running l task =>
        have hr := hm.runs ha
        have hstep := hr.conn_isOk_iff hi hd (h := h) (o := o)
        cases o with
        | receive msg => exact iff_of_true ⟨_, rfl⟩ trivial
        | poll =>
          refine hstep.trans ⟨fun hk l' task' e hl => ?_, fun hk e hh he _ => hk l task e ha hh he⟩
          rw [ha] at hl
          cases hl
          exact fun hh he => hk e hh he rfl
        | _ => exact iff_of_true (hstep.mpr fun e _ _ heq => by cases heq) trivial
      | starting st | failed e =>
        refine iff_of_true ⟨_, rfl⟩ ?_
        cases o with
        | poll =>
          intro l task e hl
          rw [ha] at hl
          cases hl
        | _ => trivial

/-- **Exactly the runs that panic.**  A run of any number of hosts with fresh ids and fewer than
`2 ^ 64 - 1` operations does not panic iff no host dials the empty address and no `poll` of a
connection finds the close of a substream that was dropped, whatever else comes over the websockets.
Of a connection of a host to itself more is asked: each message that its `poll` finds must find what
it is for. -/
theorem run_isOk_iff_safe (ht : t.Canonical) (hdial : (dialed ops).Nodup)
    (hgen : (generated ops).Nodup) (hlen : ops.length < 2 ^ 64 - 1) :
    (∃ r, run (step g t f peerIds) new ops = .ok r) ↔ Along Safe (step g t f peerIds) new ops := by
  refine run_isOk_iff_along fun xs o hp s as hr => ?_
  obtain ⟨ys, rfl⟩ := (List.prefix_append xs [o]).trans hp
  have hdial₁ := nodup_dialed_of_append hdial
  have hgen₁ := nodup_generated_of_append hgen
  rw [List.length_append] at hlen
  obtain ⟨nops, nas, net, hn, hm⟩ := matches_run ht hr
  exact hm.step_isOk_iff ht hn hdial₁ hgen₁ (by omega) o

end

/-- A host dials the address without any protocol. -/
def sampleEmpty : List (Op RawPeerId RawRecipient) := sampleHosts ++
  [.host (.fill 9) (.app (.dial [] ⟨.fill 5⟩))]

set_option maxRecDepth 4000 in
theorem safe_sampleTalk :
    Along Safe (step sampleGateway .raw Listener.sampleFormat samplePeers) new sampleTalk ∧
      ¬ Along Safe (step sampleGateway .raw Listener.sampleFormat samplePeers) new sampleEmpty := by
  have hempty : run (step sampleGateway .raw Listener.sampleFormat samplePeers) new sampleEmpty
      = .error .unwrapNone := rfl
  refine ⟨(run_isOk_iff_safe ThirdParty.raw_canonical (by decide) (by decide) (by decide)).mp
    ⟨_, rfl⟩, fun hsafe => ?_⟩
  obtain ⟨r, hr⟩ := (run_isOk_iff_safe ThirdParty.raw_canonical (by decide) (by decide)
    (by decide)).mpr hsafe
  rw [hempty] at hr
  cases hr

end Libp2pNym.Stack
