import Libp2pNym.Lib.Simulation
import Libp2pNym.Transport.Equiv.Step
import Libp2pNym.Transport.Listener

/-!
# What `Transport::poll` does

`pollInbound_cases`: the loop of `poll` handles the messages of its channel from the oldest on, up
to the first that gives an event; it is pending only when the channel is empty and none of them gave
one.  `pollInbound_panics_iff` says when it panics instead.  `Steps f s o s' a` lists what an
operation at a transport can do.
-/

namespace Libp2pNym.Listener

open StepRun

variable {P R : Type}

/-! ### The loop -/

/-- The event that comes out of handling a message, if there is one. -/
def event (id : ℕ) (addr : Multiaddr) : Node.Answer P → Option (TransportEvent P)
  | .inbound (.ok (.connectionRequest upgrade)) => some (.incoming id upgrade addr addr)
  | .inbound (.error e) => some (.listenerError id e)
  | _ => none

/-- The messages `msgs` were taken from the channel and handled. -/
def took (s : Listener P R) (msgs rest : List (InboundMessage P R)) (n : Node P R) : Listener P R :=
  { s with
    node := n
    inboundStream :=
      { s.inboundStream with got := s.inboundStream.got ++ msgs, queue := rest } }

/-- Handling `msgs` takes the node to `n`, with the answers `as`. -/
def Handles (s : Listener P R) (msgs : List (InboundMessage P R)) (n : Node P R)
    (as : List (Node.Answer P)) : Prop :=
  run Node.step s.node (msgs.map fun msg => .inbound msg.message) = .ok (n, as)

/-- The events of the answers. -/
def eventsOf (s : Listener P R) (as : List (Node.Answer P)) : List (TransportEvent P) :=
  as.filterMap (event s.listenerId s.listenAddr)

section

variable {s s' : Listener P R} {r : Poll (TransportEvent P)}

theorem took_nil (h : s.inboundStream.queue = []) : s.took [] [] s.node = s := by
  obtain ⟨node, addr, id, ⟨got, queue, rxAlive, txAlive⟩, pollRx, upgrades, next, taken⟩ := s
  cases h
  simp only [took, List.append_nil]

theorem pollInbound_of_nil {fuel : ℕ} (h : s.inboundStream.queue = []) :
    s.pollInbound (fuel + 1) = .ok (s, .pending) := by
  rw [pollInbound, Chan.pollRecv_of_nil h]
  cases s.inboundStream.txAlive <;> rfl

/-- The loop takes the next message: it panics, or it ends with an event, or it goes on. -/
theorem pollInbound_of_cons (fuel : ℕ) {msg : InboundMessage P R} {q : List (InboundMessage P R)}
    (h : s.inboundStream.queue = msg :: q) :
    (s.node.Clashes msg.message ∧
      s.pollInbound (fuel + 1) = .error .connectionMessageReceivedTwice) ∨
    ∃ n a, ¬ s.node.Clashes msg.message ∧ s.Handles [msg] n [a] ∧
      (s.eventsOf [a] = [] ∧ s.pollInbound (fuel + 1) = (s.took [msg] q n).pollInbound fuel ∨
        ∃ ev, s.eventsOf [a] = [ev] ∧
          s.pollInbound (fuel + 1) = .ok (s.took [msg] q n, .ready ev)) := by
  rw [pollInbound, Chan.pollRecv_of_cons h]
  rcases Node.handleInbound_cases s.node msg.message with ⟨hcl, n, r, hm, -⟩ | ⟨hcl, hm⟩
  · have hstep : s.node.step (.inbound msg.message) = .ok (n, .inbound r) := by
      simp only [Node.step, hm]
    refine Or.inr ⟨n, .inbound r, hcl, run_cons_of_ok hstep rfl, ?_⟩
    dsimp only
    rw [hm]
    -- an upgrade and an error are events; after a response or a transport message the loop goes on
    cases r with
    | error e => exact Or.inr ⟨_, rfl, rfl⟩
    | ok ev =>
      cases ev with
      | connectionRequest upgrade => exact Or.inr ⟨_, rfl, rfl⟩
      | connectionResponse => exact Or.inl ⟨rfl, rfl⟩
      | transportMessage => exact Or.inl ⟨rfl, rfl⟩
  · refine Or.inl ⟨hcl, ?_⟩
    dsimp only
    rw [hm]

/-- **The loop of `poll`** handles the oldest messages of its channel, in order, until one gives an
event, and all of them if none does. -/
theorem pollInbound_cases {fuel : ℕ} (hfuel : s.inboundStream.queue.length < fuel)
    (h : s.pollInbound fuel = .ok (s', r)) :
    ∃ msgs rest n as, s.inboundStream.queue = msgs ++ rest ∧ s.Handles msgs n as ∧
      s' = s.took msgs rest n ∧
      (r = .pending ∧ rest = [] ∧ s.eventsOf as = [] ∨
        ∃ ev, r = .ready ev ∧ s.eventsOf as = [ev]) := by
  induction fuel generalizing s with
  | zero => exact absurd hfuel (Nat.not_lt_zero _)
  | succ fuel ih =>
    cases hq : s.inboundStream.queue with
    | nil =>
      rw [pollInbound_of_nil hq] at h
      cases h
      exact ⟨[], [], s'.node, [], rfl, rfl, (took_nil hq).symm, Or.inl ⟨rfl, rfl, rfl⟩⟩
    | cons msg q =>
      -- the message panics, gives no event and the loop goes on, or gives one and the loop ends
      rcases pollInbound_of_cons fuel hq with
        ⟨-, heq⟩ | ⟨n, a, -, hn, ⟨ha, heq⟩ | ⟨ev, ha, heq⟩⟩
      · rw [heq] at h
        cases h
      · rw [heq] at h
        have hlen : (s.took [msg] q n).inboundStream.queue.length < fuel := by
          rw [hq, List.length_cons] at hfuel
          exact Nat.lt_of_succ_lt_succ hfuel
        obtain ⟨msgs, rest, n', as, hq', hn', rfl, hr⟩ := ih hlen h
        refine ⟨msg :: msgs, rest, n', a :: as, ?_, ?_, ?_, ?_⟩
        · exact congrArg (msg :: ·) hq'
        · exact run_append_iff.mpr ⟨n, [a], as, hn, hn', rfl⟩
        · simp only [took, List.append_assoc, List.singleton_append]
        · have happ : s.eventsOf (a :: as) = s.eventsOf [a] ++ s.eventsOf as :=
            List.filterMap_append (l := [a])
          rw [happ, ha, List.nil_append]
          exact hr
      · rw [heq] at h
        cases h
        exact ⟨[msg], q, n, [a], rfl, hn, rfl, Or.inr ⟨ev, rfl, ha⟩⟩

/-- The messages before some message give no event, and then that message clashes. -/
def Reaches (s : Listener P R) : Prop :=
  ∃ msgs msg rest n as, s.inboundStream.queue = msgs ++ msg :: rest ∧ s.Handles msgs n as ∧
    s.eventsOf as = [] ∧ n.Clashes msg.message

theorem eventsOf_append (s : Listener P R) (as bs : List (Node.Answer P)) :
    s.eventsOf (as ++ bs) = s.eventsOf as ++ s.eventsOf bs := List.filterMap_append

theorem reaches_of_cons {msg : InboundMessage P R} {q : List (InboundMessage P R)} {n : Node P R}
    {a : Node.Answer P} (hq : s.inboundStream.queue = msg :: q)
    (hcl : ¬ s.node.Clashes msg.message) (hn : s.Handles [msg] n [a]) :
    s.Reaches ↔ s.eventsOf [a] = [] ∧ (s.took [msg] q n).Reaches := by
  constructor
  · rintro ⟨msgs, msg', rest, n', as, hqueue, hn', has, hcl'⟩
    rw [hq] at hqueue
    -- the message that clashes is not the first, so the first gives no event
    cases msgs with
    | nil =>
      cases hqueue
      cases hn'
      exact absurd hcl' hcl
    | cons m msgs =>
      cases hqueue
      obtain ⟨n₁, a₁, as, hs, hr, rfl⟩ := run_cons_iff.mp hn'
      have hone : s.Handles [msg] n₁ [a₁] := run_cons_of_ok hs rfl
      obtain ⟨rfl, ha⟩ := Prod.mk.inj (Except.ok.inj (hn.symm.trans hone))
      cases ha
      rw [← List.singleton_append, eventsOf_append, List.append_eq_nil_iff] at has
      exact ⟨has.1, msgs, msg', rest, n', as, rfl, hr, has.2, hcl'⟩
  · rintro ⟨ha, msgs, msg', rest, n', as, hqueue, hn', has, hcl'⟩
    have hqueue' : q = msgs ++ msg' :: rest := hqueue
    refine ⟨msg :: msgs, msg', rest, n', a :: as, by rw [hq, hqueue', List.cons_append], ?_, ?_,
      hcl'⟩
    · exact run_append_iff.mpr ⟨n, [a], as, hn, hn', rfl⟩
    · rw [← List.singleton_append, eventsOf_append, ha, List.nil_append]
      exact has

/-- **The loop panics** exactly when it reaches a message that clashes with a queue. -/
theorem pollInbound_isOk_iff {fuel : ℕ} (hfuel : s.inboundStream.queue.length < fuel) :
    (∃ v, s.pollInbound fuel = .ok v) ↔ ¬ s.Reaches := by
  induction fuel generalizing s with
  | zero => exact absurd hfuel (Nat.not_lt_zero _)
  | succ fuel ih =>
    cases hq : s.inboundStream.queue with
    | nil =>
      refine iff_of_true ⟨_, pollInbound_of_nil hq⟩ ?_
      rintro ⟨msgs, msg, rest, n, as, hqueue, -⟩
      rw [hq] at hqueue
      exact absurd hqueue.symm (List.append_ne_nil_of_right_ne_nil _ (List.cons_ne_nil _ _))
    | cons msg q =>
      -- when the oldest message gives an event, nothing after it is looked at
      rcases pollInbound_of_cons fuel hq with
        ⟨hcl, heq⟩ | ⟨n, a, hcl, hn, ⟨ha, heq⟩ | ⟨ev, ha, heq⟩⟩
      · rw [heq]
        refine iff_of_false (fun ⟨_, h⟩ => nomatch h) fun h => h ?_
        exact ⟨[], msg, q, s.node, [], hq, rfl, rfl, hcl⟩
      · rw [heq, reaches_of_cons hq hcl hn, ha]
        rw [hq, List.length_cons] at hfuel
        have hlen : (s.took [msg] q n).inboundStream.queue.length < fuel :=
          Nat.lt_of_succ_lt_succ hfuel
        rw [ih hlen]
        simp
      · refine iff_of_true ⟨_, heq⟩ ?_
        rw [reaches_of_cons hq hcl hn, ha]
        exact fun h => List.cons_ne_nil _ _ h.1

end

/-! ### Operations -/

/-- What an operation can do. -/
inductive Steps (f : AddressFormat R) (s : Listener P R) : Op P R → Listener P R → Answer P → Prop
  | skip (o : Op P R) (ho : o ≠ .poll)
      (hd : ∀ addr id, o ≠ .dial addr id ∧ o ≠ .dialAsListener addr id) : Steps f s o s .skip
  | arrived (msg : InboundMessage P R) (ha : s.inboundStream.rxAlive = true) :
    Steps f s (.arrive msg)
      { s with inboundStream :=
          { s.inboundStream with queue := s.inboundStream.queue ++ [msg] } } .done
  | ended : Steps f s .endInbound { s with inboundStream := s.inboundStream.dropTx } .done
  | told (ev : TransportEvent P) (q : List (TransportEvent P)) (hq : s.pollRx.queue = ev :: q) :
    Steps f s .poll
      ({ s with pollRx := { s.pollRx with got := s.pollRx.got ++ [ev], queue := q } }.keep
        (.ready ev)) (.poll (.ready ev))
  | handled (msgs rest : List (InboundMessage P R)) (n : Node P R) (as : List (Node.Answer P))
      (r : Poll (TransportEvent P)) (hev : s.pollRx.queue = [])
      (hq : s.inboundStream.queue = msgs ++ rest) (hn : s.Handles msgs n as)
      (hr : r = .pending ∧ rest = [] ∧ s.eventsOf as = [] ∨
        ∃ ev, r = .ready ev ∧ s.eventsOf as = [ev]) :
    Steps f s .poll ((s.took msgs rest n).keep r) (.poll r)
  | listening (addr : Multiaddr) : Steps f s (.listenOn addr) s (.listenOn s.listenerId)
  | removed (ha : s.pollRx.rxAlive = true) :
    Steps f s (.removeListener s.listenerId)
      { s with pollRx :=
          { s.pollRx with
            queue := s.pollRx.queue ++ [.listenerClosed s.listenerId (.ok ())] } }
      (.removeListener true)
  | notRemoved (id : ℕ) (hid : s.listenerId ≠ id) :
    Steps f s (.removeListener id) s (.removeListener false)
  | dialed (o : Op P R) (addr : Multiaddr) (id : ConnectionId) (recipient : R)
      (ho : o = .dial addr id ∨ o = .dialAsListener addr id)
      (ha : multiaddressToNymAddress f addr = .ok (.ok recipient)) :
    Steps f s o { s with node := (s.node.dial recipient id).1 } (.dial (.ok s.node.nextDial))
  | undialed (o : Op P R) (addr : Multiaddr) (id : ConnectionId) (e : AddressError)
      (ho : o = .dial addr id ∨ o = .dialAsListener addr id)
      (ha : multiaddressToNymAddress f addr = .ok (.error e)) :
    Steps f s o s (.dial (.error e))
  | pollDial (d : ℕ) (elapsed : Bool) (dial : Dial P R) (hd : s.node.waiting d = some dial) :
    Steps f s (.pollDial d elapsed)
      ({ s with node := (s.node.pollDial d dial elapsed).1 }.give
        (s.node.pollDial d dial elapsed).2)
      (.connection (s.node.pollDial d dial elapsed).2)
  | dropDial (d : ℕ) (dial : Dial P R) (hd : s.node.waiting d = some dial) :
    Steps f s (.dropDial d) { s with node := s.node.dropDial d dial } .done
  | pollUpgrade (u : ℕ) (upgrade : Upgrade P) (hu : s.upgrades u = some upgrade) :
    Steps f s (.pollUpgrade u) (s.pollUpgrade u upgrade).1
      (.connection (s.pollUpgrade u upgrade).2)
  | dropUpgrade (u : ℕ) (upgrade : Upgrade P) (hu : s.upgrades u = some upgrade) :
    Steps f s (.dropUpgrade u) (s.dropUpgrade u upgrade) .done
  | dropConn (h : ℕ) (hh : h ∈ s.taken) :
    Steps f s (.dropConn h) { s with node := s.node.dropConn h } .done

section

variable {f : AddressFormat R} {s s' : Listener P R}

/-- A poll returns the oldest event there is, and handles messages if there is none. -/
theorem poll_of_nil (h : s.pollRx.queue = []) :
    s.poll = s.pollInbound (s.inboundStream.queue.length + 1) := by
  rw [poll, Chan.pollRecv_of_nil h]
  cases s.pollRx.txAlive <;> rfl

theorem steps_of_poll {r : Poll (TransportEvent P)} (h : s.poll = .ok (s', r)) :
    Steps f s .poll (s'.keep r) (.poll r) := by
  cases hq : s.pollRx.queue with
  | nil =>
    rw [poll_of_nil hq] at h
    obtain ⟨msgs, rest, n, as, hqueue, hn, rfl, hr⟩ := pollInbound_cases (Nat.lt_succ_self _) h
    exact .handled msgs rest n as r hq hqueue hn hr
  | cons ev q =>
    rw [poll, Chan.pollRecv_of_cons hq] at h
    cases h
    exact .told ev q hq

theorem steps_of_dial {o : Op P R} {addr : Multiaddr} {id : ConnectionId}
    {r : Except AddressError ℕ} (ho : o = .dial addr id ∨ o = .dialAsListener addr id)
    (h : s.dial f addr id = .ok (s', r)) : Steps f s o s' (.dial r) := by
  unfold dial at h
  split at h
  · cases h
  · rename_i e ha
    cases h
    exact .undialed o addr id e ho ha
  · rename_i recipient ha
    cases h
    exact .dialed o addr id recipient ho ha

/-- An operation that does not panic does one of the things `Steps` lists. -/
theorem steps_of_step {o : Op P R} {a : Answer P} (h : s.step f o = .ok (s', a)) :
    Steps f s o s' a := by
  cases o with
  | arrive msg =>
    simp only [step] at h
    split at h
    · split at h
      · cases h
        exact .skip _ nofun fun _ _ => ⟨nofun, nofun⟩
      · rename_i rx hrx
        obtain ⟨ha, rfl⟩ := Chan.send_eq_some_iff.mp hrx
        cases h
        exact .arrived msg ha
    · cases h
      exact .skip _ nofun fun _ _ => ⟨nofun, nofun⟩
  | endInbound =>
    cases h
    exact .ended
  | poll =>
    simp only [step] at h
    split at h
    · cases h
    · rename_i s₁ r hpoll
      cases h
      exact steps_of_poll hpoll
  | listenOn addr =>
    cases h
    exact .listening addr
  | removeListener id =>
    simp only [step, removeListener] at h
    by_cases hid : s.listenerId = id
    · subst hid
      simp only [ne_eq, not_true_eq_false, ↓reduceIte] at h
      cases hsend : s.pollRx.send (.listenerClosed s.listenerId (.ok ())) with
      | none =>
        rw [hsend] at h
        cases h
      | some rx =>
        rw [hsend] at h
        obtain ⟨ha, rfl⟩ := Chan.send_eq_some_iff.mp hsend
        cases h
        exact .removed ha
    · simp only [ne_eq, hid, not_false_eq_true, ↓reduceIte] at h
      cases h
      exact .notRemoved id hid
  | dial addr id =>
    simp only [step] at h
    split at h
    · cases h
    · rename_i s₁ r hdial
      cases h
      exact steps_of_dial (Or.inl rfl) hdial
  | dialAsListener addr id =>
    simp only [step] at h
    split at h
    · cases h
    · rename_i s₁ r hdial
      cases h
      exact steps_of_dial (Or.inr rfl) hdial
  | pollDial d elapsed =>
    simp only [step] at h
    split at h
    · cases h
      exact .skip _ nofun fun _ _ => ⟨nofun, nofun⟩
    · rename_i dial hd
      cases h
      exact .pollDial d elapsed dial hd
  | dropDial d =>
    simp only [step] at h
    split at h
    · cases h
      exact .skip _ nofun fun _ _ => ⟨nofun, nofun⟩
    · rename_i dial hd
      cases h
      exact .dropDial d dial hd
  | pollUpgrade u =>
    simp only [step] at h
    split at h
    · cases h
      exact .skip _ nofun fun _ _ => ⟨nofun, nofun⟩
    · rename_i upgrade hu
      cases h
      exact .pollUpgrade u upgrade hu
  | dropUpgrade u =>
    simp only [step] at h
    split at h
    · cases h
      exact .skip _ nofun fun _ _ => ⟨nofun, nofun⟩
    · rename_i upgrade hu
      cases h
      exact .dropUpgrade u upgrade hu
  | dropConn k =>
    simp only [step] at h
    split at h
    · rename_i hk
      cases h
      exact .dropConn k hk
    · cases h
      exact .skip _ nofun fun _ _ => ⟨nofun, nofun⟩

/-- The operations that panic: a dial of the address without any protocol, and a poll that reaches a
message that clashes with the queue of its connection. -/
def Crashes (s : Listener P R) : Op P R → Prop
  | .dial addr _ => addr = []
  | .dialAsListener addr _ => addr = []
  | .poll => s.pollRx.queue = [] ∧ s.Reaches
  | _ => False

theorem multiaddressToNymAddress_isOk_iff {addr : Multiaddr} :
    (∃ r, multiaddressToNymAddress f addr = .ok r) ↔ addr ≠ [] := by
  unfold multiaddressToNymAddress
  cases hlast : addr.getLast? with
  | none =>
    rw [List.getLast?_eq_none_iff] at hlast
    exact iff_of_false (fun ⟨_, h⟩ => nomatch h) fun h => h hlast
  | some p =>
    have hne : addr ≠ [] := by
      rintro rfl
      cases hlast
    refine iff_of_true ?_ hne
    cases p with
    | nym a =>
      dsimp only
      cases f.recipientFromStr a <;> exact ⟨_, rfl⟩
    | other name => exact ⟨_, rfl⟩

theorem dial_isOk_iff {addr : Multiaddr} {id : ConnectionId} :
    (∃ r, s.dial f addr id = .ok r) ↔ addr ≠ [] := by
  rw [← multiaddressToNymAddress_isOk_iff (f := f)]
  unfold dial
  cases multiaddressToNymAddress f addr with
  | error p => exact iff_of_false (fun ⟨_, h⟩ => nomatch h) (fun ⟨_, h⟩ => nomatch h)
  | ok r => cases r <;> exact iff_of_true ⟨_, rfl⟩ ⟨_, rfl⟩

theorem poll_isOk_iff : (∃ r, s.poll = .ok r) ↔ ¬ (s.pollRx.queue = [] ∧ s.Reaches) := by
  cases hq : s.pollRx.queue with
  | nil =>
    rw [poll_of_nil hq, pollInbound_isOk_iff (Nat.lt_succ_self _)]
    simp
  | cons ev q =>
    refine iff_of_true ?_ fun h => by cases h.1
    rw [poll, Chan.pollRecv_of_cons hq]
    exact ⟨_, rfl⟩

/-- An operation panics exactly when it is one that `Crashes` describes. -/
theorem step_isOk_iff (ha : s.pollRx.rxAlive = true) (o : Op P R) :
    (∃ r, s.step f o = .ok r) ↔ ¬ s.Crashes o := by
  cases o with
  | poll =>
    refine Iff.trans ?_ poll_isOk_iff
    simp only [step]
    cases s.poll with
    | error p => exact iff_of_false (fun ⟨_, h⟩ => nomatch h) (fun ⟨_, h⟩ => nomatch h)
    | ok v => exact iff_of_true ⟨_, rfl⟩ ⟨_, rfl⟩
  | dial addr id | dialAsListener addr id =>
    have hdial : (∃ r, s.dial f addr id = .ok r) ↔ addr ≠ [] := dial_isOk_iff
    refine Iff.trans ?_ hdial
    simp only [step, dialAsListener]
    cases s.dial f addr id with
    | error p => exact iff_of_false (fun ⟨_, h⟩ => nomatch h) (fun ⟨_, h⟩ => nomatch h)
    | ok v => exact iff_of_true ⟨_, rfl⟩ ⟨_, rfl⟩
  | removeListener id =>
    refine iff_of_true ?_ not_false
    simp only [step, removeListener]
    by_cases hid : s.listenerId = id
    · simp only [ne_eq, hid, not_true_eq_false, ↓reduceIte, Chan.send_of_alive ha]
      exact ⟨_, rfl⟩
    · simp only [ne_eq, hid, not_false_eq_true, ↓reduceIte]
      exact ⟨_, rfl⟩
  | arrive msg =>
    refine iff_of_true ?_ not_false
    simp only [step]
    split
    · split <;> exact ⟨_, rfl⟩
    · exact ⟨_, rfl⟩
  | endInbound => exact iff_of_true ⟨_, rfl⟩ not_false
  | listenOn addr => exact iff_of_true ⟨_, rfl⟩ not_false
  | pollDial d elapsed | dropDial d | pollUpgrade u | dropUpgrade u | dropConn k =>
    refine iff_of_true ?_ not_false
    simp only [step]
    split <;> exact ⟨_, rfl⟩

end

end Libp2pNym.Listener
