import Libp2pNym.Stack.Equiv.Relation

/-!
# The whole program does what the network of its transports does

Every operation at a host is matched by operations in the network (`moved_step`): a poll of a
transport by the deliveries of the messages that it handles, an operation at a connection by itself,
and what the mixnet task and the websocket do by nothing.  `matches_run`: so every run of the hosts
is matched by a run of the network.
-/

namespace Libp2pNym

open StepRun

variable {P R : Type}

/-! ### What the application does to the node -/

/-- The application makes the transport handle messages of its channel, or do one operation of its
own, or nothing. -/
theorem Listener.step_cases {f : AddressFormat R} {s s' : Listener P R} {o : Listener.Op P R}
    {a : Listener.Answer P} (hs : Listener.Steps f s o s' a) (harrive : ∀ msg, o ≠ .arrive msg)
    (hend : o ≠ .endInbound) :
    (∃ msgs rest gs, s.inboundStream.queue = msgs ++ rest ∧ s.Handles msgs s'.node gs ∧
      s'.inboundStream = { s.inboundStream with
        got := s.inboundStream.got ++ msgs, queue := rest } ∧
      Listener.dialedAt f o = []) ∨
    ∃ o' r, (∀ msg, o' ≠ .inbound msg) ∧ s.node.step o' = .ok (s'.node, r) ∧
      s'.inboundStream = s.inboundStream ∧ Node.dialsIn [o'] = Listener.dialedAt f o := by
  have hidle : s'.node = s.node → s'.inboundStream = s.inboundStream →
      Listener.dialedAt f o = [] → ∃ msgs rest gs, s.inboundStream.queue = msgs ++ rest ∧
        s.Handles msgs s'.node gs ∧ s'.inboundStream = { s.inboundStream with
          got := s.inboundStream.got ++ msgs, queue := rest } ∧ Listener.dialedAt f o = [] := by
    intro hnode hrx hdial
    refine ⟨[], s.inboundStream.queue, [], rfl, ?_, ?_, hdial⟩
    · rw [hnode]
      rfl
    · rw [hrx, List.append_nil]
  cases hs with
  | skip o ho hd =>
    refine Or.inl (hidle rfl rfl ?_)
    cases o with
    | dial addr id => exact absurd rfl (hd addr id).1
    | dialAsListener addr id => exact absurd rfl (hd addr id).2
    | _ => rfl
  | arrived msg ha => exact absurd rfl (harrive msg)
  | ended => exact absurd rfl hend
  | told ev q hq =>
    obtain ⟨upgrades, k, heq⟩ := Listener.keep_eq { s with
      pollRx := { s.pollRx with got := s.pollRx.got ++ [ev], queue := q } } (.ready ev)
    rw [heq] at hidle ⊢
    exact Or.inl (hidle rfl rfl rfl)
  | handled msgs rest n gs r hev hq hn hr =>
    obtain ⟨upgrades, k, heq⟩ := Listener.keep_eq (s.took msgs rest n) r
    rw [heq]
    exact Or.inl ⟨msgs, rest, gs, hq, hn, rfl, rfl⟩
  | listening addr => exact Or.inl (hidle rfl rfl rfl)
  | removed ha => exact Or.inl (hidle rfl rfl rfl)
  | notRemoved id hid => exact Or.inl (hidle rfl rfl rfl)
  | dialed o addr id recipient ho ha =>
    refine Or.inr ⟨.dial recipient id, _, fun msg heq => ?_, rfl, rfl, ?_⟩
    · cases heq
    · rcases ho with rfl | rfl <;> simp only [Listener.dialedAt, ha] <;> rfl
  | undialed o addr id e ho ha =>
    refine Or.inl (hidle rfl rfl ?_)
    rcases ho with rfl | rfl <;> simp only [Listener.dialedAt, ha]
  | pollDial d elapsed dial hd =>
    have hstep : s.node.step (.pollDial d elapsed)
        = .ok ((s.node.pollDial d dial elapsed).1,
          .pollDial (s.node.pollDial d dial elapsed).2) := by
      simp only [Node.step, hd]
    obtain ⟨taken, heq⟩ := Listener.give_eq { s with node := (s.node.pollDial d dial elapsed).1 }
      (s.node.pollDial d dial elapsed).2
    rw [heq]
    exact Or.inr ⟨_, _, (fun msg heq => by cases heq), hstep, rfl, rfl⟩
  | dropDial d dial hd =>
    have hstep : s.node.step (.dropDial d) = .ok (s.node.dropDial d dial, .done) := by
      simp only [Node.step, hd]
    exact Or.inr ⟨_, _, (fun msg heq => by cases heq), hstep, rfl, rfl⟩
  | pollUpgrade u upgrade hu =>
    obtain ⟨upgrades, taken, heq⟩ := s.pollUpgrade_eq u upgrade
    rw [heq] at hidle ⊢
    exact Or.inl (hidle rfl rfl rfl)
  | dropUpgrade u upgrade hu =>
    unfold Listener.dropUpgrade at hidle ⊢
    cases hslot : upgrade.connectionTx.slot with
    | sent v => exact Or.inr ⟨.dropConn v.2, .done, (fun msg heq => by cases heq), rfl, rfl, rfl⟩
    | closed =>
      rw [hslot] at hidle
      exact Or.inl (hidle rfl rfl rfl)
    | empty =>
      rw [hslot] at hidle
      exact Or.inl (hidle rfl rfl rfl)
  | dropConn k hk =>
    exact Or.inr ⟨.dropConn k, .done, (fun msg heq => by cases heq), rfl, rfl, rfl⟩

namespace Host

/-! ### What a host does -/

/-- What an operation at a host can do. -/
inductive Steps (g : Gateway R) (t : ThirdParty P R) (f : AddressFormat R) (peerId : P) :
    Host P R → Op P R → Host P R → Answer P → Prop
  | skip (host : Host P R) (o : Op P R) : Steps g t f peerId host o host .skip
  | heard (s : Setup) (res : Except Unit WsMessage) :
    Steps g t f peerId (.starting s) (.frame res)
      (.starting { s with stream := websocketFrame s.stream res }) .done
  | startEnded (s : Setup) :
    Steps g t f peerId (.starting s) .endStream (.starting { s with stream := s.stream.dropTx })
      .done
  | start (s : Setup) (pollReady pollFlush : SinkPoll) (listenerId : ℕ) :
    Steps g t f peerId (.starting s) (.start pollReady pollFlush listenerId)
      (start g f peerId s pollReady pollFlush listenerId).1
      (.start (start g f peerId s pollReady pollFlush listenerId).2)
  | framed (l : Listener P R) (task : MixnetTask P R) (res : Except Unit WsMessage) :
    Steps g t f peerId (.running l task) (.frame res)
      (.running l { task with inbound.stream := websocketFrame task.inbound.stream res }) .done
  | taskEnded (l : Listener P R) (task : MixnetTask P R) :
    Steps g t f peerId (.running l task) .endStream
      (.running l { task with inbound.stream := task.inbound.stream.dropTx }) .done
  | app (l l' : Listener P R) (task : MixnetTask P R) (o : Listener.Op P R) (r : Listener.Answer P)
      (harrive : ∀ msg, o ≠ .arrive msg) (hend : o ≠ .endInbound) (hs : l.step f o = .ok (l', r)) :
    Steps g t f peerId (.running l task) (.app o)
      (.running l' (task.follow l'.inboundStream
        (l'.node.transport.outboundTx.log.drop l.node.transport.outboundTx.log.length))) (.app r)
  | conn (l : Listener P R) (task : MixnetTask P R) (h : ℕ) (o : Endpoint.Op)
      (e e' : Endpoint P R) (r : Endpoint.Answer) (ho : ∀ msg, o ≠ .receive msg)
      (he : l.node.conns h = some e) (hh : h ∈ l.taken) (hs : e.step o = .ok (e', r)) :
    Steps g t f peerId (.running l task) (.conn h o)
      (.running { l with node := { l.node with conns := l.node.conns.insert h e' } }
        (task.follow l.inboundStream
          (e'.outbox.outboundTx.log.drop e.outbox.outboundTx.log.length))) (.conn r)
  | polled (l : Listener P R) (task task' : MixnetTask P R) (order : Select.Order)
      (pollReady pollFlush : SinkPoll) (r : Select.Outcome (Except Error Unit) (Except Error Unit))
      (hs : task.poll g.toNymClient t order pollReady pollFlush = .ok (task', r)) :
    Steps g t f peerId (.running l task) (.task order pollReady pollFlush)
      (.running { l with inboundStream := task'.inbound.inboundTx } task') (.task r)

section

variable {g : Gateway R} {t : ThirdParty P R} {f : AddressFormat R} {peerId : P}

theorem steps_of_app {l : Listener P R} {task : MixnetTask P R} {o : Listener.Op P R}
    {host' : Host P R} {r : Answer P} (harrive : ∀ msg, o ≠ .arrive msg) (hend : o ≠ .endInbound)
    (hs : app f l task o = .ok (host', r)) :
    Steps g t f peerId (.running l task) (.app o) host' r := by
  unfold app at hs
  split at hs
  · cases hs
  · rename_i l' r' hl
    cases hs
    exact .app l l' task o r' harrive hend hl

theorem steps_of_conn {l : Listener P R} {task : MixnetTask P R} {h : ℕ} {o : Endpoint.Op}
    {host' : Host P R} {r : Answer P} (ho : ∀ msg, o ≠ .receive msg)
    (hs : conn l task h o = .ok (host', r)) :
    Steps g t f peerId (.running l task) (.conn h o) host' r := by
  unfold conn at hs
  split at hs
  · cases hs
    exact .skip _ _
  · rename_i e he
    split at hs
    · rename_i hh
      split at hs
      · cases hs
      · rename_i e' r' hst
        cases hs
        exact .conn l task h o e e' r' ho he hh hst
    · cases hs
      exact .skip _ _

/-- An operation that does not panic does one of the things `Steps` lists. -/
theorem steps_of_step {host host' : Host P R} {o : Op P R} {r : Answer P}
    (hs : host.step g t f peerId o = .ok (host', r)) : Steps g t f peerId host o host' r := by
  cases host with
  | starting s =>
    cases o with
    | frame res =>
      cases hs
      exact .heard s res
    | endStream =>
      cases hs
      exact .startEnded s
    | start pollReady pollFlush listenerId =>
      cases hs
      exact .start s pollReady pollFlush listenerId
    | _ =>
      cases hs
      exact .skip _ _
  | failed e =>
    cases hs
    exact .skip _ _
  | running l task =>
    cases o with
    | frame res =>
      cases hs
      exact .framed l task res
    | endStream =>
      cases hs
      exact .taskEnded l task
    | start pollReady pollFlush listenerId =>
      cases hs
      exact .skip _ _
    | app o =>
      cases o with
      | arrive msg | endInbound =>
        cases hs
        exact .skip _ _
      | _ => exact steps_of_app (fun msg heq => by cases heq) (fun heq => by cases heq) hs
    | conn h o =>
      cases o with
      | receive msg =>
        cases hs
        exact .skip _ _
      | _ => exact steps_of_conn (fun msg heq => by cases heq) hs
    | task order pollReady pollFlush =>
      simp only [step, pollTask] at hs
      split at hs
      · cases hs
      · rename_i task' r' hpoll
        cases hs
        exact .polled l task task' order pollReady pollFlush r' hpoll

end

end Host

namespace Stack

/-! ### One operation at a host -/

section

variable [DecidableEq R] {g : Gateway R} {t : ThirdParty P R} {f : AddressFormat R}
  {peerIds : R → P} {net net' : Network P R} {a : R}

/-- Neither the transport nor a connection has answered. -/
def quiet : Host.Answer P → Bool
  | .app _ => false
  | .conn _ => false
  | _ => true

/-- The run `zs` of the network matches the operation `op` at the host `a`, which goes from `host`
to `host'`. -/
structure Moved (g : Gateway R) (t : ThirdParty P R) (f : AddressFormat R) (peerIds : R → P)
    (net : Network P R) (a : R) (host : Host P R) (op : Op P R) (r : Host.Answer P)
    (host' : Host P R)
    (zs : List (Network.Op P R)) (gs : List (Network.Answer P)) (net' : Network P R) : Prop where
  run : run (Network.step t) net zs = .ok (net', gs)
  others : ∀ b, b ≠ a → net' b = net b
  grown : Network.Grown net net'
  hosted : Hosts g t peerIds net' a host'
  collected : ∀ {α : Type} (k : Endpoint.Op → Endpoint.Answer → List α) b h,
    Network.collect k b h zs gs = collectAt k b h op r
  counted : ∀ p (s : Stack P R), s a = host →
    count (Network.holdsAt p) (Network.step t) net zs ≤ if holdsAt p s op then 1 else 0
  handed : ∃ msgs, handled host' = handled host ++ msgs ∧
    ∀ b c, gather (Network.deliveredAt t b c) (Network.step t) net zs
      = if b = a then Network.arrivals c msgs else []
  dials : ∀ b, Network.dialsAt b zs = dialsOf f b op r
  dialed : (Network.dialed zs).Sublist (dialed [op])
  generated : (Network.generated zs).Sublist (generated [op])
  bounded : zs.length + waiting host' ≤ waiting host + 1

/-- An operation that nothing in the network matches. -/
theorem Moved.idle {host host' : Host P R} {op : Op P R} {r : Host.Answer P}
    (hhost : Hosts g t peerIds net a host') (hr : quiet r = true)
    (hgot : handled host' = handled host) (hwait : waiting host' ≤ waiting host + 1) :
    Moved g t f peerIds net a host op r host' [] [] net where
  run := rfl
  others _ _ := rfl
  grown _ _ _ hm := hm
  hosted := hhost
  collected k b h := by
    unfold collectAt
    split
    · cases hr
    · rfl
  counted p s hs := Nat.zero_le _
  handed := ⟨[], hgot.trans (List.append_nil _).symm, fun b c => (ite_self _).symm⟩
  dials b := by
    unfold dialsOf
    split
    · cases hr
    · rfl
  dialed := List.nil_sublist _
  generated := List.nil_sublist _
  bounded := by
    rw [List.length_nil, Nat.zero_add]
    exact hwait

/-- **A poll of `NymTransport::new`.**  The host comes to run with its own address. -/
theorem moved_start {s : Setup} (hh : Hosts g t peerIds net a (.starting s)) {op : Op P R}
    (pollReady pollFlush : SinkPoll) (listenerId : ℕ) :
    Moved g t f peerIds net a (.starting s) op
      (.start (Host.start g f (peerIds a) s pollReady pollFlush listenerId).2)
      (Host.start g f (peerIds a) s pollReady pollFlush listenerId).1 [] [] net := by
  obtain ⟨hnew, hreads, hframes⟩ := hh
  obtain ⟨hlog, -, hpolled⟩ := Setup.polled_getSelfAddress pollReady pollFlush hreads
  unfold Host.start
  generalize s.getSelfAddress g.toNymSetup pollReady pollFlush = v at hlog hpolled ⊢
  obtain ⟨s', r⟩ := v
  dsimp only at hlog hpolled ⊢
  cases r with
  | pending =>
    refine Moved.idle ⟨hnew, hpolled.1, ?_⟩ rfl rfl (Nat.le_add_right _ _)
    rw [hlog]
    exact hframes
  | ready r =>
    cases r with
    | error e => exact Moved.idle hnew rfl rfl (Nat.le_add_right _ _)
    | ok recipient =>
      dsimp only
      obtain ⟨hsink, skipped, res, hgot, -, hres⟩ := hpolled
      have hmem : res ∈ s.stream.log := by
        rw [← hlog, Chan.log, hgot]
        simp
      -- the address is that of the host
      have hself : recipient = a := by
        cases res with
        | error e => cases hres
        | ok msg =>
          refine (hframes _ hmem msg rfl).2 recipient ?_
          simp only [readReply] at hres
          split at hres
          · rename_i recipient' heq
            cases hres
            exact heq
          all_goals cases hres
      subst hself
      split
      · exact Moved.idle hnew rfl rfl (Nat.le_add_right _ _)
      · rename_i l hl
        have hlistener : l.node = Network.new peerIds recipient ∧
            l.inboundStream = Chan.new ∧ l.pollRx.rxAlive = true := by
          unfold Listener.newMaybeWithNotifyInbound at hl
          split at hl
          · cases hl
          · rw [Chan.send_of_alive rfl] at hl
            cases hl
            exact ⟨rfl, rfl, rfl⟩
        obtain ⟨hnode, hrx, hevents⟩ := hlistener
        refine Moved.idle ⟨hnew.trans hnode.symm, hrx.symm, ⟨rfl, fun tx htx => ?_⟩, hevents,
          fun res' hres' => ?_, fun msg hmsg => ?_, ⟨[], hsink, List.nil_sublist _⟩, fun m => ?_⟩
          rfl (congrArg Chan.got hrx) ?_
        · cases htx
        · refine hframes res' ?_
          rw [← hlog]
          exact List.mem_append_right _ hres'
        · rw [hrx] at hmsg
          cases hmsg
        · refine iff_of_false (fun hm => by cases hm) ?_
          rintro ⟨k, hm⟩
          rw [hnew, sentFrom_new] at hm
          cases hm
        · show l.inboundStream.queue.length ≤ _
          rw [hrx]
          exact Nat.zero_le _

omit [DecidableEq R] in
theorem events_steps {l l' : Listener P R} {o : Listener.Op P R} {r : Listener.Answer P}
    (hs : Listener.Steps f l o l' r) : l'.pollRx.rxAlive = l.pollRx.rxAlive := by
  cases hs with
  | told ev q hq =>
    obtain ⟨upgrades, k, heq⟩ := Listener.keep_eq { l with
      pollRx := { l.pollRx with got := l.pollRx.got ++ [ev], queue := q } } (.ready ev)
    rw [heq]
  | handled msgs rest n gs r hev hq hn hr =>
    obtain ⟨upgrades, k, heq⟩ := Listener.keep_eq (l.took msgs rest n) r
    rw [heq]
    rfl
  | pollDial d elapsed dial hd =>
    obtain ⟨taken, heq⟩ := Listener.give_eq { l with node := (l.node.pollDial d dial elapsed).1 }
      (l.node.pollDial d dial elapsed).2
    rw [heq]
  | pollUpgrade u upgrade hu =>
    obtain ⟨upgrades, taken, heq⟩ := l.pollUpgrade_eq u upgrade
    rw [heq]
  | dropUpgrade u upgrade hu =>
    unfold Listener.dropUpgrade
    split <;> rfl
  | _ => rfl

/-- A transport has moved by itself or by messages that it has handled. -/
theorem Runs.moved {l l' : Listener P R} {task : MixnetTask P R} (hr : Runs g t net a l task)
    {os : List (Node.Op P R)} {gs : List (Node.Answer P)} (hp : (net a).Placed)
    (hn : run Node.step (net a) os = .ok (l'.node, gs))
    (hrx : l'.inboundStream.rxAlive = l.inboundStream.rxAlive)
    (hsub : l'.inboundStream.queue ⊆ l.inboundStream.queue)
    (hevents : l'.pollRx.rxAlive = l.pollRx.rxAlive) :
    Network.Grown net (Function.update net a l'.node) ∧
      Runs g t (Function.update net a l'.node) a l' (task.follow l'.inboundStream
        (l'.node.transport.outboundTx.log.drop l.node.transport.outboundTx.log.length)) := by
  have hgrown := Network.grown_run hp hn
  obtain ⟨-, hlog, hconns⟩ := Node.sent_run hp hn
  refine ⟨hgrown, Function.update_self .., rfl, ⟨?_, hr.isOpen.notify⟩, hevents.trans hr.events,
    fun res hres => (hr.frames res hres).mono hgrown,
    fun msg hmsg => (hr.waiting msg (hsub hmsg)).mono hgrown, hr.writes, fun m => ?_⟩
  · have hopen := hr.isOpen.inbound
    rw [hr.inbound] at hopen
    exact hrx.trans hopen
  · have hmem := mem_sent none hr.sent hlog (fun k hk => ?_) m
    · rw [Function.update_self, ← hmem, log_follow, hr.node]
      exact Iff.rfl
    · cases k with
      | none => exact absurd rfl hk
      | some k => exact hconns k

/-- Deliveries are no dials and no operations at connections. -/
theorem deliveries {zs : List (Network.Op P R)} (hzs : ∀ z ∈ zs, ∃ b k i, z = .deliver b k i)
    (gs : List (Network.Answer P)) : Network.dialed zs = [] ∧ Network.generated zs = [] ∧
      (∀ b, Network.dialsAt b zs = []) ∧
      (∀ {α : Type} (k : Endpoint.Op → Endpoint.Answer → List α) b h,
        Network.collect k b h zs gs = []) ∧
      ∀ p net, count (Network.holdsAt p) (Network.step t) net zs = 0 := by
  refine ⟨List.filterMap_eq_nil_iff.mpr fun z hz => ?_,
    List.filterMap_eq_nil_iff.mpr fun z hz => ?_,
    fun b => List.filterMap_eq_nil_iff.mpr fun z hz => ?_,
    fun k b h => List.flatMap_eq_nil_iff.mpr fun v hv => ?_,
    fun p net => count_eq_zero fun z hz net' => ?_⟩
  · obtain ⟨b, k, i, rfl⟩ := hzs z hz
    rfl
  · obtain ⟨b, k, i, rfl⟩ := hzs z hz
    rfl
  · obtain ⟨b, k, i, rfl⟩ := hzs z hz
    rfl
  · obtain ⟨z, r⟩ := v
    obtain ⟨b', k', i, rfl⟩ := hzs z (List.of_mem_zip hv).1
    rfl
  · obtain ⟨b, k, i, rfl⟩ := hzs z hz
    rfl

/-- **The application uses the transport.** -/
theorem moved_app {l l' : Listener P R} {task : MixnetTask P R} (hw : Network.Wired net)
    (hr : Runs g t net a l task) {o : Listener.Op P R} {r : Listener.Answer P}
    (hs : l.step f o = .ok (l', r)) (harrive : ∀ msg, o ≠ .arrive msg) (hend : o ≠ .endInbound) :
    ∃ zs gs net', Moved g t f peerIds net a (.running l task) (.host a (.app o)) (.app r)
      (.running l' (task.follow l'.inboundStream
        (l'.node.transport.outboundTx.log.drop l.node.transport.outboundTx.log.length)))
      zs gs net' := by
  have hp := hw.sound.placed a
  have hsteps := Listener.steps_of_step hs
  have hevents := events_steps hsteps
  have hothers : ∀ b, b ≠ a → Function.update net a l'.node b = net b :=
    fun b hb => Function.update_of_ne hb ..
  rcases Listener.step_cases hsteps harrive hend with
    ⟨msgs, rest, gs, hq, hn, hrx, hdial⟩ | ⟨o', r', ho', hn, hrx, hdial⟩
  · -- the messages that are handled are delivered
    have hn' : run Node.step (net a) (msgs.map fun msg => .inbound msg.message)
        = .ok (l'.node, gs) := by
      rw [hr.node]
      exact hn
    have hmsgs : ∀ msg ∈ msgs, Network.Deliverable t net a msg := by
      intro msg hmsg
      refine hr.waiting msg ?_
      rw [hq]
      exact List.mem_append_left _ hmsg
    have hsub : l'.inboundStream.queue ⊆ l.inboundStream.queue := by
      rw [hrx, hq]
      exact List.subset_append_right _ _
    obtain ⟨zs, hlen, hzs, hrun, hgather⟩ := Network.lift_run hp hmsgs hn'
    obtain ⟨hdialed, hgenerated, hdials, hcollect, hcount⟩ :=
      deliveries (t := t) hzs (gs.map .node)
    obtain ⟨hgrown, hruns⟩ := hr.moved hp hn' (by rw [hrx]) hsub hevents
    refine ⟨zs, _, _, hrun, hothers, hgrown, hruns, fun k b h => hcollect k b h,
      fun p s _ => ?_, ⟨msgs, by rw [handled, handled, hrx], hgather⟩, fun b => ?_, ?_, ?_, ?_⟩
    · rw [hcount]
      exact Nat.zero_le _
    · rw [hdials, dialsOf, hdial, ite_self]
    · rw [hdialed]
      exact List.nil_sublist _
    · rw [hgenerated]
      exact List.nil_sublist _
    · show zs.length + l'.inboundStream.queue.length ≤ l.inboundStream.queue.length + 1
      rw [hlen, hrx, hq, List.length_append]
      exact Nat.le_add_right _ _
  · have hn' : (net a).step o' = .ok (l'.node, r') := by
      rw [hr.node]
      exact hn
    have hone : run Node.step (net a) [o'] = .ok (l'.node, [r']) := run_cons_of_ok hn' rfl
    obtain ⟨hgrown, hruns⟩ := hr.moved hp hone (by rw [hrx]) (by rw [hrx]; exact fun _ h => h)
      hevents
    have hstep : net.step t (.node a o') = .ok (Function.update net a l'.node, .node r') :=
      Network.step_node ho' hn'
    have hnone : ∀ b c, gather (Network.deliveredAt t b c) (Network.step t) net [.node a o']
        = [] := by
      intro b c
      rw [gather, hstep]
      rfl
    have hcount : ∀ p, count (Network.holdsAt p) (Network.step t) net [.node a o'] = 0 := by
      intro p
      rw [count, hstep]
      rfl
    refine ⟨[.node a o'], [.node r'], _, run_cons_of_ok hstep rfl, hothers, hgrown, hruns,
      fun k b h => rfl, fun p s _ => ?_, ⟨[], ?_, fun b c => ?_⟩, fun b => ?_, ?_, ?_, ?_⟩
    · rw [hcount]
      exact Nat.zero_le _
    · rw [handled, handled, hrx, List.append_nil]
    · rw [hnone]
      exact (ite_self _).symm
    · rw [dialsOf, ← hdial]
      split
      · rename_i hb
        subst hb
        exact Network.dialsAt_node a o'
      · rename_i hb
        exact Network.dialsAt_of_ne hb o'
    · have heq : Network.dialed [.node a o'] = (Node.dialsIn [o']).map Prod.snd := by
        cases o' <;> rfl
      rw [heq, hdial]
      exact dialedAt_sublist f a o
    · exact List.nil_sublist _
    · show 1 + l'.inboundStream.queue.length ≤ l.inboundStream.queue.length + 1
      rw [hrx, Nat.add_comm]

/-- **The application uses a connection.** -/
theorem moved_conn {l : Listener P R} {task : MixnetTask P R} (hw : Network.Wired net)
    (hr : Runs g t net a l task) {h : ℕ} {o : Endpoint.Op} (ho : ∀ msg, o ≠ .receive msg)
    {e e' : Endpoint P R} {r : Endpoint.Answer} (he : l.node.conns h = some e)
    (htaken : h ∈ l.taken) (hs : e.step o = .ok (e', r)) :
    ∃ zs gs net', Moved g t f peerIds net a (.running l task) (.host a (.conn h o)) (.conn r)
      (.running { l with node := { l.node with conns := l.node.conns.insert h e' } }
        (task.follow l.inboundStream
          (e'.outbox.outboundTx.log.drop e.outbox.outboundTx.log.length)))
      zs gs net' := by
  have he₀ : (net a).conns h = some e := by
    rw [hr.node]
    exact he
  have hconn : net.step t (.conn a h o) = .ok (Function.update net a
      { net a with conns := (net a).conns.insert h e' }, .conn r) := by
    have hstep : net.stepConn a h o = .ok (Function.update net a
        { net a with conns := (net a).conns.insert h e' }, .conn r) := by
      simp only [Network.stepConn, he₀, hs]
    cases o with
    | receive msg => exact absurd rfl (ho msg)
    | _ => exact hstep
  have hinsert : Network.sentFrom { net a with conns := (net a).conns.insert h e' } (some h)
      = e'.outbox.outboundTx.log :=
    Network.sentFrom_of_some (KeyMap.insert_self ..)
  have hlog : Network.sentFrom (net a) (some h)
      <+: Network.sentFrom { net a with conns := (net a).conns.insert h e' } (some h) := by
    rw [hinsert, Network.sentFrom_of_some he₀]
    exact Endpoint.log_step (hw.wf he₀) (hw.alive he₀) hs
  have hsame : ∀ k, k ≠ some h →
      Network.sentFrom { net a with conns := (net a).conns.insert h e' } k
        = Network.sentFrom (net a) k := by
    intro k hk
    cases k with
    | none => rfl
    | some k =>
      simp only [Network.sentFrom]
      rw [KeyMap.insert_of_ne _ _ fun heq => hk (congrArg some heq)]
  have hgrown : Network.Grown net
      (Function.update net a { net a with conns := (net a).conns.insert h e' }) := by
    refine Network.grown_update fun k m hm => ?_
    by_cases hk : k = some h
    · subst hk
      exact hlog.subset hm
    · rw [hsame k hk]
      exact hm
  refine ⟨[.conn a h o], [.conn r], _, run_cons_of_ok hconn rfl,
    fun b hb => Function.update_of_ne hb .., hgrown, ⟨?_, rfl, ⟨?_, hr.isOpen.notify⟩, hr.events,
      fun res hres => (hr.frames res hres).mono hgrown,
      fun msg hmsg => (hr.waiting msg hmsg).mono hgrown, hr.writes, fun m => ?_⟩,
    fun k b j => List.append_nil _, fun p s hs => ?_, ⟨[], (List.append_nil _).symm, fun b c => ?_⟩,
    fun b => rfl, List.nil_sublist _, ?_, ?_⟩
  · rw [Function.update_self, hr.node]
  · have hopen := hr.isOpen.inbound
    rw [hr.inbound] at hopen
    exact hopen
  · have hmem := mem_sent (some h) hr.sent hlog hsame m
    rw [hinsert, Network.sentFrom_of_some he₀] at hmem
    rw [Function.update_self, ← hmem, log_follow]
  · rw [count, hconn]
    simp only [Network.holdsAt, holdsAt, he₀, hs, he, htaken, decide_true, Bool.true_and]
    exact Nat.le_refl _
  · rw [gather, hconn]
    exact (ite_self _).symm
  · cases o with
    | pollOutbound id => exact List.Sublist.refl [id]
    | _ => exact List.nil_sublist _
  · exact Nat.add_comm 1 _ ▸ le_refl _

/-- **A poll of the mixnet task.** -/
theorem moved_task {l : Listener P R} {task task' : MixnetTask P R} (ht : t.Canonical)
    (hr : Runs g t net a l task) {op : Op P R} {order : Select.Order}
    {pollReady pollFlush : SinkPoll} {r : Select.Outcome (Except Error Unit) (Except Error Unit)}
    (hs : task.poll g.toNymClient t order pollReady pollFlush = .ok (task', r)) :
    Moved g t f peerIds net a (.running l task) op (.task r)
      (.running { l with inboundStream := task'.inbound.inboundTx } task') [] [] net := by
  obtain ⟨s', r', hpoll, hcases⟩ :=
    MixnetTask.inbound_poll (w := g.toNymClient) ht hr.isOpen order pollReady pollFlush
  rw [hs] at hpoll
  cases hpoll
  have hstep : task.step g.toNymClient t (.poll order pollReady pollFlush)
      = .ok (task', .poll r) := by
    simp only [MixnetTask.step, hs]
  have hlog : task'.outbound.outboundRx.log = task.outbound.outboundRx.log :=
    (MixnetTask.log_step hstep).trans (List.append_nil _)
  have hwrites := MixnetTask.writes_poll hr.writes hs
  have hsent : ∀ m, m ∈ task'.outbound.outboundRx.log ↔ ∃ h, m ∈ Network.sentFrom (net a) h := by
    rw [hlog]
    exact hr.sent
  -- no frame was taken, or the message of the oldest one waits for the transport now
  rcases hcases with heq | ⟨res, rest, hq, heq⟩
  · refine Moved.idle ⟨hr.node, rfl, heq ▸ hr.isOpen, hr.events, ?_, ?_, hwrites, hsent⟩
      rfl ?_ ?_
    · rw [heq]
      exact hr.frames
    · rw [heq, hr.inbound]
      exact hr.waiting
    · show task'.inbound.inboundTx.got = l.inboundStream.got
      rw [heq, hr.inbound]
    · show task'.inbound.inboundTx.queue.length ≤ l.inboundStream.queue.length + 1
      rw [heq, hr.inbound]
      exact Nat.le_add_right _ _
  · have hgenuine := hr.frames res (hq ▸ List.mem_cons_self)
    refine Moved.idle ⟨hr.node, rfl, ⟨?_, ?_⟩, hr.events, ?_, ?_, hwrites, hsent⟩
      rfl ?_ ?_
    · rw [heq]
      exact hr.isOpen.inbound
    · rw [heq]
      intro tx htx
      obtain ⟨tx₀, htx₀, rfl⟩ := Option.map_eq_some_iff.mp htx
      exact hr.isOpen.notify tx₀ htx₀
    · rw [heq]
      intro res' hres'
      exact hr.frames res' (hq ▸ List.mem_cons_of_mem _ hres')
    · rw [heq]
      intro msg hmsg
      rcases List.mem_append.mp hmsg with hmsg | hmsg
      · rw [hr.inbound] at hmsg
        exact hr.waiting msg hmsg
      · exact hgenuine.deliverable (Option.mem_toList.mp hmsg)
    · show task'.inbound.inboundTx.got = l.inboundStream.got
      rw [heq, ← hr.inbound]
      rfl
    · show task'.inbound.inboundTx.queue.length ≤ l.inboundStream.queue.length + 1
      rw [heq]
      show (task.inbound.inboundTx.queue ++ _).length ≤ _
      rw [hr.inbound, List.length_append]
      refine Nat.add_le_add_left ?_ _
      cases decodeFrame g.toNymClient t res <;> simp

/-- **A frame comes** that says nothing wrong. -/
theorem moved_frame {host host' : Host P R} (hh : Hosts g t peerIds net a host)
    {res : Except Unit WsMessage} (hres : Genuine g t net a res) {op : Op P R} {r : Host.Answer P}
    (hs : Host.Steps g t f (peerIds a) host (.frame res) host' r) :
    Moved g t f peerIds net a host op r host' [] [] net := by
  cases hs with
  | skip _ _ => exact Moved.idle hh rfl rfl (Nat.le_add_right _ _)
  | heard s _ =>
    -- the frame comes before our address is known, so it may be one that is skipped
    obtain ⟨hnew, hreads, hframes⟩ := hh
    refine Moved.idle ⟨hnew, ⟨?_, hreads.request⟩, fun res' hres' => ?_⟩ rfl rfl
      (Nat.le_add_right _ _)
    · rw [got_websocketFrame]
      exact hreads.skipped
    · rcases List.mem_append.mp hres' with hres' | hres'
      · rw [got_websocketFrame] at hres'
        exact hframes res' (List.mem_append_left _ hres')
      · rcases mem_websocketFrame hres' with hres' | rfl
        · exact hframes res' (List.mem_append_right _ hres')
        · exact hres
  | framed l task _ =>
    refine Moved.idle ⟨hh.node, hh.inbound, ⟨hh.isOpen.inbound, hh.isOpen.notify⟩, hh.events,
      fun res' hres' => ?_, hh.waiting, hh.writes, hh.sent⟩ rfl rfl (Nat.le_add_right _ _)
    rcases mem_websocketFrame hres' with hres' | rfl
    · exact hh.frames res' hres'
    · exact hres

/-- **Every operation at a host** is matched by operations in the network. -/
theorem moved_step (ht : t.Canonical) (hw : Network.Wired net) {host host' : Host P R}
    (hh : Hosts g t peerIds net a host) {o : Host.Op P R} {r : Host.Answer P}
    (hframe : ∀ res, o = .frame res → Genuine g t net a res)
    (hs : host.step g t f (peerIds a) o = .ok (host', r)) :
    ∃ zs gs net', Moved g t f peerIds net a host (.host a o) r host' zs gs net' := by
  cases Host.steps_of_step hs with
  | skip _ _ => exact ⟨[], [], net, Moved.idle hh rfl rfl (Nat.le_add_right _ _)⟩
  | heard s res => exact ⟨[], [], net, moved_frame hh (hframe res rfl) (.heard s res)⟩
  | startEnded s =>
    obtain ⟨hnew, hreads, hframes⟩ := hh
    exact ⟨[], [], net, Moved.idle ⟨hnew, ⟨hreads.skipped, hreads.request⟩, hframes⟩
      rfl rfl (Nat.le_add_right _ _)⟩
  | start s pollReady pollFlush listenerId =>
    exact ⟨[], [], net, moved_start hh pollReady pollFlush listenerId⟩
  | framed l task res => exact ⟨[], [], net, moved_frame hh (hframe res rfl) (.framed l task res)⟩
  | taskEnded l task =>
    exact ⟨[], [], net, Moved.idle ⟨hh.node, hh.inbound, ⟨hh.isOpen.inbound, hh.isOpen.notify⟩,
      hh.events, hh.frames, hh.waiting, hh.writes, hh.sent⟩ rfl rfl (Nat.le_add_right _ _)⟩
  | app l l' task o r harrive hend hl => exact moved_app hw hh hl harrive hend
  | conn l task h o e e' r ho he htaken hst => exact moved_conn hw hh ho he htaken hst
  | polled l task task' order pollReady pollFlush r hpoll =>
    exact ⟨[], [], net, moved_task ht hh hpoll⟩

end

/-! ### Runs -/

section

variable [DecidableEq R] {g : Gateway R} {t : ThirdParty P R} {f : AddressFormat R}
  {peerIds : R → P} {ops : List (Op P R)} {as : List (Host.Answer P)} {s s' : Stack P R}
  {nops : List (Network.Op P R)} {nas : List (Network.Answer P)} {net net' : Network P R}

theorem matches_new :
    Matches g t f peerIds [] [] (new : Stack P R) [] [] (Network.new peerIds) where
  hosts := hosts_new
  collected _ _ _ := rfl
  counted _ := Nat.le_refl _
  handed _ _ := rfl
  dials _ := rfl
  dialed := List.Sublist.refl _
  generated := List.Sublist.refl _
  bounded := ⟨0, fun a => Multiset.count_zero a, le_refl _⟩

/-- A host has moved, and the network with it. -/
theorem Matches.update (hm : Matches g t f peerIds ops as s nops nas net)
    (hr : run (step g t f peerIds) new ops = .ok (s, as))
    (hn : run (Network.step t) (Network.new peerIds) nops = .ok (net, nas)) {a : R}
    {host' : Host P R} {o : Op P R} {r : Host.Answer P} {zs : List (Network.Op P R)}
    {gs : List (Network.Answer P)}
    (hmoved : Moved g t f peerIds net a (s a) o r host' zs gs net') :
    Matches g t f peerIds (ops ++ [o]) (as ++ [r]) (Function.update s a host') (nops ++ zs)
      (nas ++ gs) net' := by
  have hlen := length_answers hr
  have hnlen := length_answers hn
  constructor
  · intro b
    by_cases hb : b = a
    · subst hb
      rw [Function.update_self]
      exact hmoved.hosted
    · rw [Function.update_of_ne hb]
      exact (hm.hosts b).mono hmoved.grown (hmoved.others b hb)
  · intro α k b h
    have hsplit : Network.collect k b h (nops ++ zs) (nas ++ gs)
        = Network.collect k b h nops nas ++ Network.collect k b h zs gs :=
      flatMap_zip_append _ hnlen
    rw [collect_snoc k hlen, hsplit, hm.collected, hmoved.collected]
  · intro p
    rw [count_append hn, count_append_singleton hr]
    exact Nat.add_le_add (hm.counted p) (hmoved.counted p s rfl)
  · intro b c
    obtain ⟨msgs, hgot, hgather⟩ := hmoved.handed
    rw [Network.delivered, gather_append hn, hgather]
    refine (congrArg (· ++ _) (hm.handed b c)).trans ?_
    by_cases hb : b = a
    · subst hb
      rw [if_pos rfl, Function.update_self, hgot]
      exact (List.flatMap_append ..).symm
    · rw [if_neg hb, Function.update_of_ne hb, List.append_nil]
  · intro b
    rw [Network.dialsAt_append, dialsAt_snoc hlen, hm.dials, hmoved.dials]
  · rw [Network.dialed_append]
    unfold Stack.dialed
    rw [List.filterMap_append]
    exact hm.dialed.append hmoved.dialed
  · rw [Network.generated_append]
    unfold Stack.generated
    rw [List.filterMap_append]
    exact hm.generated.append hmoved.generated
  · -- the messages that wait at the host that has moved are counted anew
    obtain ⟨Q, hcount, hle⟩ := hm.bounded
    have hmem : Multiset.replicate (waiting (s a)) a ≤ Q :=
      Multiset.le_count_iff_replicate_le.mp (hcount a).ge
    have hcard := Multiset.card_le_card hmem
    refine ⟨Q - Multiset.replicate (waiting (s a)) a + Multiset.replicate (waiting host') a,
      fun b => ?_, ?_⟩
    · rw [Multiset.count_add, Multiset.count_sub, Multiset.count_replicate,
        Multiset.count_replicate, hcount]
      by_cases hb : b = a
      · subst hb
        rw [if_pos rfl, if_pos rfl, Function.update_self, Nat.sub_self, Nat.zero_add]
      · rw [if_neg (Ne.symm hb), if_neg (Ne.symm hb), Function.update_of_ne hb, Nat.sub_zero,
          Nat.add_zero]
    · have hbound := hmoved.bounded
      rw [Multiset.card_add, Multiset.card_sub hmem, Multiset.card_replicate,
        Multiset.card_replicate, List.length_append, List.length_append, List.length_singleton]
      rw [Multiset.card_replicate] at hcard
      omega

/-- **Every operation** is matched by operations in the network. -/
theorem Matches.step (ht : t.Canonical) (hm : Matches g t f peerIds ops as s nops nas net)
    (hr : run (step g t f peerIds) new ops = .ok (s, as))
    (hn : run (Network.step t) (Network.new peerIds) nops = .ok (net, nas))
    (hw : Network.Wired net) {o : Op P R} {r : Host.Answer P}
    (hs : s.step g t f peerIds o = .ok (s', r)) :
    ∃ zs gs net', run (Network.step t) net zs = .ok (net', gs) ∧
      Matches g t f peerIds (ops ++ [o]) (as ++ [r]) s' (nops ++ zs) (nas ++ gs) net' := by
  -- an operation that is skipped
  have hskip : s' = s → r = .skip → ∃ zs gs net', run (Network.step t) net zs = .ok (net', gs) ∧
      Matches g t f peerIds (ops ++ [o]) (as ++ [r]) s' (nops ++ zs) (nas ++ gs) net' := by
    rintro rfl rfl
    have hidle : ∀ a, Moved g t f peerIds net a (s' a) o (.skip : Host.Answer P) (s' a) [] [] net :=
      fun a => Moved.idle (hm.hosts a) rfl rfl (Nat.le_add_right _ _)
    cases o with
    | host a _ | carry a _ =>
      have hupdate := hm.update hr hn (hidle a)
      rw [Function.update_eq_self] at hupdate
      exact ⟨[], [], net, rfl, hupdate⟩
  -- an operation at a host
  have hhost : ∀ a o', (∀ res, o' = .frame res → Genuine g t net a res) → o = .host a o' →
      s.stepHost g t f peerIds a o' = .ok (s', r) →
      ∃ zs gs net', run (Network.step t) net zs = .ok (net', gs) ∧
        Matches g t f peerIds (ops ++ [o]) (as ++ [r]) s' (nops ++ zs) (nas ++ gs) net' := by
    rintro a o' hframe rfl hst
    unfold stepHost at hst
    split at hst
    · cases hst
    · rename_i host' r' hh
      cases hst
      obtain ⟨zs, gs, net', hmoved⟩ := moved_step ht hw (hm.hosts a) hframe hh
      exact ⟨zs, gs, net', hmoved.run, hm.update hr hn hmoved⟩
  cases o with
  | host a o =>
    by_cases hframe : ∃ res, o = .frame res
    · obtain ⟨res, rfl⟩ := hframe
      simp only [Stack.step] at hs
      split at hs
      · rename_i hharm
        refine hhost a _ (fun res' heq msg hmsg => ?_) rfl hs
        cases heq
        subst hmsg
        simp only [harmless, Bool.and_eq_true] at hharm
        refine ⟨fun bytes hparse => ?_, fun recipient haddr => ?_⟩
        · rw [hparse] at hharm
          cases hharm.1
        · rw [haddr] at hharm
          exact of_decide_eq_true hharm.2
      · cases hs
        exact hskip rfl rfl
    · push Not at hframe
      refine hhost a o (fun res heq => absurd heq (hframe res)) rfl ?_
      cases o with
      | frame res => exact absurd rfl (hframe res)
      | _ => exact hs
  | carry a i =>
    simp only [Stack.step] at hs
    split at hs
    · cases hs
      exact hskip rfl rfl
    · rename_i frame hframe
      split at hs
      · cases hs
        exact hskip rfl rfl
      · rename_i recipient message hrequest
        unfold stepHost at hs
        split at hs
        · cases hs
        · rename_i host' r' hh
          cases hs
          -- the frame is for a message that was sent to the host
          have hgenuine : Genuine g t net recipient (.ok (g.response message)) := by
            rintro msg ⟨rfl⟩
            have hparse := g.parse_response message
            refine ⟨fun bytes hbytes => ?_, fun recipient' haddr => ?_⟩
            · rw [hparse] at hbytes
              cases hbytes
              rcases (hm.hosts a).sink (List.mem_of_getElem? hframe) with rfl | ⟨k, m, hmem, rfl⟩
              · rw [g.request_selfAddress] at hrequest
                cases hrequest
              · rw [nymPacket, g.request_serialize] at hrequest
                cases hrequest
                exact ⟨a, k, m, hmem, rfl, rfl⟩
            · rw [parseNymMessage_of_selfAddressIn haddr] at hparse
              cases hparse
          have hmoved : Moved g t f peerIds net recipient (s recipient) (.carry a i) r host' [] []
              net :=
            moved_frame (hm.hosts recipient) hgenuine (Host.steps_of_step hh)
          exact ⟨[], [], net, rfl, hm.update hr hn hmoved⟩

/-- **Every run of the hosts is matched by a run of the network.** -/
theorem matches_run (ht : t.Canonical) (h : run (step g t f peerIds) new ops = .ok (s, as)) :
    ∃ nops nas net, run (Network.step t) (Network.new peerIds) nops = .ok (net, nas) ∧
      Matches g t f peerIds ops as s nops nas net := by
  refine exists_run (I := Matches g t f peerIds) matches_new ?_ h
  intro xs es m ys fs n o t' e hr hn hm hs
  exact hm.step ht hr hn (Network.wired_run ht.toRoundTrips hn) hs

end

end Stack

end Libp2pNym
