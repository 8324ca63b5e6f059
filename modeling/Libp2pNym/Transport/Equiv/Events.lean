import Libp2pNym.Transport.Equiv.Poll
import Libp2pNym.Transport.Equiv.Reassembly
import Libp2pNym.Transport.Equiv.Binding

/-!
# The events of a transport

A transport that is polled refines the node of `Basic`: `refines_run` matches every run of it by a
run of the node over the messages that `poll` has taken, the addresses that were dialed and the
connections that were dropped.  The events that `poll` returns are those of the listener, which go
first, and one for each message whose handling gives one (`Refines`).
-/

namespace Libp2pNym

open StepRun

variable {P R : Type}

/-- The event comes from an inbound message. -/
def TransportEvent.ofInbound : TransportEvent P → Bool
  | .incoming _ _ _ _ => true
  | .listenerError _ _ => true
  | .newAddress _ _ => false
  | .listenerClosed _ _ => false

namespace Listener

/-! ### Histories -/

/-- The messages that the mixnet task puts into the channel. -/
def arrivedAt (o : Op P R) (a : Answer P) : List (InboundMessage P R) :=
  match o, a with
  | .arrive msg, .done => [msg]
  | _, _ => []

/-- The messages that the mixnet task has put into the channel, in order. -/
def arrived (ops : List (Op P R)) (as : List (Answer P)) : List (InboundMessage P R) :=
  (ops.zip as).flatMap fun v => arrivedAt v.1 v.2

/-- The messages that come for the channel, whether or not it still takes them. -/
def arriving (ops : List (Op P R)) : List (InboundMessage P R) :=
  ops.filterMap fun o =>
    match o with
    | .arrive msg => some msg
    | _ => none

/-- The Nym address and the id of a dial of an address that has one. -/
def dialedAt (f : AddressFormat R) : Op P R → List (R × ConnectionId)
  | .dial addr id | .dialAsListener addr id =>
    match multiaddressToNymAddress f addr with
    | .ok (.ok recipient) => [(recipient, id)]
    | _ => []
  | _ => []

/-- What was dialed, in order. -/
def dialed (f : AddressFormat R) (ops : List (Op P R)) : List (R × ConnectionId) :=
  ops.flatMap (dialedAt f)

/-- The event that a poll has returned. -/
def polledAt : Answer P → List (TransportEvent P)
  | .poll (.ready ev) => [ev]
  | _ => []

/-- The events that `poll` has returned, in order. -/
def polled (as : List (Answer P)) : List (TransportEvent P) := as.flatMap polledAt

/-- The event of a listener that was removed. -/
def closedAt (id : ℕ) : Answer P → List (TransportEvent P)
  | .removeListener true => [.listenerClosed id (.ok ())]
  | _ => []

/-- The events of the calls that have removed the listener. -/
def closed (id : ℕ) (as : List (Answer P)) : List (TransportEvent P) := as.flatMap (closedAt id)

/-! ### The refinement -/

/-- What ties a run of a transport that was made with `addr` and `id` to the run of the node that it
refines. -/
structure Refines (f : AddressFormat R) (id : ℕ) (addr : Multiaddr) (ops : List (Op P R))
    (as : List (Answer P)) (s : Listener P R) (nops : List (Node.Op P R))
    (nas : List (Node.Answer P)) (n : Node P R) : Prop where
  node : s.node = n
  listenerId : s.listenerId = id
  listenAddr : s.listenAddr = addr
  alive : s.pollRx.rxAlive = true
  log : s.inboundStream.log = arrived ops as
  handled : Node.inbounds nops = s.inboundStream.got.map InboundMessage.message
  dials : Node.dialsIn nops = dialed f ops
  told : (polled as).filter (!·.ofInbound) ++ s.pollRx.queue
    = .newAddress id addr :: closed id as
  given : (polled as).filter (·.ofInbound) = nas.filterMap (event id addr)

section

variable {f : AddressFormat R} {s s' : Listener P R}

/-- What the application keeps changes nothing but the upgrades. -/
theorem keep_eq (s : Listener P R) (r : Poll (TransportEvent P)) :
    ∃ upgrades k, s.keep r = { s with upgrades := upgrades, nextUpgrade := k } := by
  unfold keep
  split <;> exact ⟨_, _, rfl⟩

/-- What the application is given changes nothing but the connections that it has. -/
theorem give_eq (s : Listener P R) (r : Poll (Except Error (P × ℕ))) :
    ∃ taken, s.give r = { s with taken := taken } := by
  unfold give
  split <;> exact ⟨_, rfl⟩

/-- A poll of an upgrade changes nothing else. -/
theorem pollUpgrade_eq (s : Listener P R) (u : ℕ) (upgrade : Upgrade P) :
    ∃ upgrades taken,
      (s.pollUpgrade u upgrade).1 = { s with upgrades := upgrades, taken := taken } := by
  unfold pollUpgrade
  split
  · exact ⟨_, _, rfl⟩
  · rename_i r hpoll
    obtain ⟨taken, h⟩ := give_eq { s with upgrades := s.upgrades.remove u } (.ready r)
    exact ⟨_, taken, h⟩

theorem arrived_snoc {ops : List (Op P R)} {as : List (Answer P)} (hlen : as.length = ops.length)
    (o : Op P R) (a : Answer P) :
    arrived (ops ++ [o]) (as ++ [a]) = arrived ops as ++ arrivedAt o a :=
  flatMap_zip_snoc _ hlen o a

theorem arrived_sublist (ops : List (Op P R)) (as : List (Answer P)) :
    (arrived ops as).Sublist (arriving ops) := by
  induction ops generalizing as with
  | nil => exact List.nil_sublist _
  | cons o ops ih =>
    cases as with
    | nil => exact List.nil_sublist _
    | cons a as =>
      have hone : (arrivedAt o a).Sublist (arriving [o]) := by
        unfold arrivedAt
        split
        · exact List.Sublist.refl _
        · exact List.nil_sublist _
      have hcons : arriving (o :: ops) = arriving [o] ++ arriving ops :=
        List.filterMap_append (l := [o])
      rw [hcons]
      exact hone.append (ih as)

/-- More messages have come in a run than in a part of it. -/
theorem length_arriving_le {xs ops : List (Op P R)} (h : xs <+: ops) :
    (arriving xs).length ≤ (arriving ops).length :=
  (h.sublist.filterMap _).length_le

theorem polled_append (as bs : List (Answer P)) : polled (as ++ bs) = polled as ++ polled bs :=
  List.flatMap_append

theorem closed_append (id : ℕ) (as bs : List (Answer P)) :
    closed id (as ++ bs) = closed id as ++ closed id bs := List.flatMap_append

theorem dialed_append (ops ops' : List (Op P R)) :
    dialed f (ops ++ ops') = dialed f ops ++ dialed f ops' := List.flatMap_append

/-- Handling a message gives only events that come from inbound messages. -/
theorem ofInbound_of_event {id : ℕ} {addr : Multiaddr} {a : Node.Answer P} {ev : TransportEvent P}
    (h : event id addr a = some ev) : ev.ofInbound = true := by
  unfold event at h
  split at h <;> cases h <;> rfl

variable {id : ℕ} {addr : Multiaddr} {ops : List (Op P R)} {as : List (Answer P)}
  {nops : List (Node.Op P R)} {nas : List (Node.Answer P)} {n n' : Node P R}

/-- One more operation, matched by the operations `zs` of the node. -/
theorem Refines.snoc (h : Refines f id addr ops as s nops nas n) (hlen : as.length = ops.length)
    {o : Op P R} {a : Answer P} {zs : List (Node.Op P R)} {gs : List (Node.Answer P)}
    (hnode : s'.node = n') (hid : s'.listenerId = s.listenerId)
    (haddr : s'.listenAddr = s.listenAddr) (halive : s'.pollRx.rxAlive = s.pollRx.rxAlive)
    (hlog : s'.inboundStream.log = s.inboundStream.log ++ arrivedAt o a)
    (hgot : s'.inboundStream.got.map InboundMessage.message
      = s.inboundStream.got.map InboundMessage.message ++ Node.inbounds zs)
    (hdials : Node.dialsIn zs = dialedAt f o)
    (htold : (polledAt a).filter (!·.ofInbound) ++ s'.pollRx.queue
      = s.pollRx.queue ++ closedAt id a)
    (hgiven : (polledAt a).filter (·.ofInbound) = gs.filterMap (event id addr)) :
    Refines f id addr (ops ++ [o]) (as ++ [a]) s' (nops ++ zs) (nas ++ gs) n' where
  node := hnode
  listenerId := hid.trans h.listenerId
  listenAddr := haddr.trans h.listenAddr
  alive := halive.trans h.alive
  log := by rw [hlog, h.log, arrived_snoc hlen]
  handled := by rw [Node.inbounds_append, h.handled, hgot]
  dials := by
    rw [Node.dialsIn_append, h.dials, hdials, dialed_append]
    simp [dialed]
  told := by
    have hone : polled [a] = polledAt a := List.flatMap_singleton ..
    have hclosed : closed id [a] = closedAt id a := List.flatMap_singleton ..
    rw [polled_append, closed_append, List.filter_append, List.append_assoc, hone, htold,
      ← List.append_assoc, h.told, List.cons_append, hclosed]
  given := by
    have hone : polled [a] = polledAt a := List.flatMap_singleton ..
    rw [polled_append, List.filter_append, List.filterMap_append, h.given, hone, hgiven]

/-- An operation that the node has no part in. -/
theorem Refines.idle (h : Refines f id addr ops as s nops nas n) (hlen : as.length = ops.length)
    {o : Op P R} {a : Answer P} (hnode : s'.node = s.node) (hid : s'.listenerId = s.listenerId)
    (haddr : s'.listenAddr = s.listenAddr) (halive : s'.pollRx.rxAlive = s.pollRx.rxAlive)
    (hlog : s'.inboundStream.log = s.inboundStream.log ++ arrivedAt o a)
    (hgot : s'.inboundStream.got = s.inboundStream.got) (hdials : [] = dialedAt f o)
    (htold : (polledAt a).filter (!·.ofInbound) ++ s'.pollRx.queue
      = s.pollRx.queue ++ closedAt id a)
    (hgiven : (polledAt a).filter (·.ofInbound) = []) :
    ∃ zs gs n', run Node.step n zs = .ok (n', gs) ∧
      Refines f id addr (ops ++ [o]) (as ++ [a]) s' (nops ++ zs) (nas ++ gs) n' := by
  refine ⟨[], [], n, rfl, h.snoc hlen (hnode.trans h.node) hid haddr halive hlog ?_ hdials htold
    hgiven⟩
  rw [hgot]
  exact (List.append_nil _).symm

/-- An operation of the node that is none of the mixnet's. -/
theorem Refines.local (h : Refines f id addr ops as s nops nas n) (hlen : as.length = ops.length)
    {o : Op P R} {a : Answer P} {o' : Node.Op P R} {a' : Node.Answer P}
    (hs : s.node.step o' = .ok (n', a')) (hnode : s'.node = n')
    (hid : s'.listenerId = s.listenerId) (haddr : s'.listenAddr = s.listenAddr)
    (hpoll : s'.pollRx = s.pollRx) (hin : s'.inboundStream = s.inboundStream)
    (hquiet : arrivedAt o a = [] ∧ polledAt a = [] ∧ closedAt id a = [])
    (ho' : Node.inbounds [o'] = []) (hdials : Node.dialsIn [o'] = dialedAt f o)
    (hgiven : event id addr a' = none) :
    ∃ zs gs n', run Node.step n zs = .ok (n', gs) ∧
      Refines f id addr (ops ++ [o]) (as ++ [a]) s' (nops ++ zs) (nas ++ gs) n' := by
  obtain ⟨harr, hpolled, hclosed⟩ := hquiet
  refine ⟨[o'], [a'], n', ?_, h.snoc hlen hnode hid haddr (congrArg Chan.rxAlive hpoll) ?_ ?_ hdials
    ?_ ?_⟩
  · exact run_cons_of_ok (h.node ▸ hs) rfl
  · rw [hin, harr, List.append_nil]
  · rw [hin, ho', List.append_nil]
  · rw [hpoll, hpolled, hclosed, List.append_nil]
    rfl
  · rw [hpolled]
    simp [hgiven]

/-- The event that the transport holds for `poll` is not one of an inbound message. -/
theorem Refines.ofInbound (h : Refines f id addr ops as s nops nas n) {ev : TransportEvent P}
    (hev : ev ∈ s.pollRx.queue) : ev.ofInbound = false := by
  have hmem : ev ∈ .newAddress id addr :: closed id as := by
    rw [← h.told]
    exact List.mem_append_right _ hev
  rcases List.mem_cons.mp hmem with rfl | hmem
  · rfl
  · obtain ⟨a, -, ha⟩ := List.mem_flatMap.mp hmem
    unfold closedAt at ha
    split at ha
    · rw [List.mem_singleton.mp ha]
      rfl
    · cases ha

theorem inbounds_map (msgs : List (InboundMessage P R)) :
    Node.inbounds (msgs.map fun msg => .inbound msg.message)
      = msgs.map InboundMessage.message := by
  rw [Node.inbounds, List.filterMap_map, ← List.filterMap_eq_map]
  rfl

/-- The messages that a poll handles. -/
theorem Refines.handles (h : Refines f id addr ops as s nops nas n) (hlen : as.length = ops.length)
    {msgs rest : List (InboundMessage P R)} {n' : Node P R} {gs : List (Node.Answer P)}
    {r : Poll (TransportEvent P)} (hev : s.pollRx.queue = [])
    (hq : s.inboundStream.queue = msgs ++ rest)
    (hr : r = .pending ∧ rest = [] ∧ s.eventsOf gs = [] ∨
      ∃ ev, r = .ready ev ∧ s.eventsOf gs = [ev]) :
    Refines f id addr (ops ++ [.poll]) (as ++ [.poll r]) ((s.took msgs rest n').keep r)
      (nops ++ msgs.map fun msg => .inbound msg.message) (nas ++ gs) n' := by
  have hevents : s.eventsOf gs = gs.filterMap (event id addr) := by
    rw [eventsOf, h.listenerId, h.listenAddr]
  have hdials : Node.dialsIn (msgs.map fun msg => Node.Op.inbound msg.message) = [] := by
    rw [Node.dialsIn, List.filterMap_map, List.filterMap_eq_nil_iff]
    exact fun _ _ => rfl
  have hin : ∀ ev, s.eventsOf gs = [ev] → ev.ofInbound = true := by
    intro ev hgs
    obtain ⟨a, -, ha⟩ := List.mem_filterMap.mp (hgs ▸ List.mem_singleton_self ev)
    exact ofInbound_of_event ha
  obtain ⟨upgrades, k, heq⟩ := keep_eq (s.took msgs rest n') r
  rw [heq]
  refine h.snoc hlen rfl rfl rfl rfl ?_ ?_ hdials ?_ ?_
  · simp [Chan.log, took, arrivedAt, hq]
  · rw [inbounds_map]
    exact List.map_append
  · show _ ++ s.pollRx.queue = _
    rw [hev, closedAt, List.append_nil, List.append_nil]
    -- the event that is returned is one of an inbound message, so the listener told nothing
    rcases hr with ⟨rfl, -, -⟩ | ⟨ev, rfl, hgs⟩
    · rfl
    · simp [polledAt, hin ev hgs]
    · intro heq
      cases heq
  · rw [← hevents]
    rcases hr with ⟨rfl, -, hgs⟩ | ⟨ev, rfl, hgs⟩
    · exact hgs.symm
    · simp [polledAt, hin ev hgs, hgs]

/-- **Every operation of a transport** is matched by operations of the node. -/
theorem Refines.steps (h : Refines f id addr ops as s nops nas n) (hlen : as.length = ops.length)
    {o : Op P R} {a : Answer P} (hs : Steps f s o s' a) :
    ∃ zs gs n', run Node.step n zs = .ok (n', gs) ∧
      Refines f id addr (ops ++ [o]) (as ++ [a]) s' (nops ++ zs) (nas ++ gs) n' := by
  have hnil := (List.append_nil s.pollRx.queue).symm
  have hlog := (List.append_nil s.inboundStream.log).symm
  cases hs with
  | skip o ho hd =>
    have hdials : dialedAt f o = [] := by
      cases o with
      | dial addr' id' => exact absurd rfl (hd addr' id').1
      | dialAsListener addr' id' => exact absurd rfl (hd addr' id').2
      | _ => rfl
    have hquiet : arrivedAt o (.skip : Answer P) = [] := by
      cases o <;> rfl
    refine h.idle hlen rfl rfl rfl rfl ?_ rfl hdials.symm hnil rfl
    rw [hquiet]
    exact hlog
  | arrived msg ha =>
    refine h.idle hlen rfl rfl rfl rfl ?_ rfl rfl hnil rfl
    exact (List.append_assoc ..).symm
  | ended => exact h.idle hlen rfl rfl rfl rfl hlog rfl rfl hnil rfl
  | told ev q hq =>
    have hin := h.ofInbound (hq ▸ List.mem_cons_self)
    -- the application keeps nothing of an event of the listener
    have hkeep : ∀ s : Listener P R, s.keep (.ready ev) = s := by
      intro s
      cases ev with
      | incoming _ _ _ _ => cases hin
      | _ => rfl
    rw [hkeep]
    refine h.idle hlen rfl rfl rfl rfl hlog rfl rfl ?_ ?_
    · rw [hq]
      simp [polledAt, closedAt, hin]
    · simp [polledAt, hin]
  | handled msgs rest n' gs r hev hq hn hr =>
    exact ⟨_, gs, n', h.node ▸ hn, h.handles hlen hev hq hr⟩
  | listening addr' => exact h.idle hlen rfl rfl rfl rfl hlog rfl rfl hnil rfl
  | removed ha =>
    refine h.idle hlen rfl rfl rfl rfl hlog rfl rfl ?_ rfl
    rw [h.listenerId]
    rfl
  | notRemoved id' hid => exact h.idle hlen rfl rfl rfl rfl hlog rfl rfl hnil rfl
  | dialed o addr' id' recipient ho ha =>
    have hdials : dialedAt f o = [(recipient, id')] := by
      rcases ho with rfl | rfl <;> simp only [dialedAt, ha]
    have hquiet : arrivedAt o (.dial (.ok s.node.nextDial) : Answer P) = [] := by
      rcases ho with rfl | rfl <;> rfl
    have hstep : s.node.step (.dial recipient id') = .ok (_, .dial s.node.nextDial) := rfl
    exact h.local hlen hstep rfl rfl rfl rfl rfl ⟨hquiet, rfl, rfl⟩ rfl hdials.symm rfl
  | undialed o addr' id' e ho ha =>
    have hdials : dialedAt f o = [] := by
      rcases ho with rfl | rfl <;> simp only [dialedAt, ha]
    have hquiet : arrivedAt o (.dial (.error e) : Answer P) = [] := by
      rcases ho with rfl | rfl <;> rfl
    refine h.idle hlen rfl rfl rfl rfl ?_ rfl hdials.symm hnil rfl
    rw [hquiet]
    exact hlog
  | pollDial d elapsed dial hd =>
    have hstep : s.node.step (.pollDial d elapsed)
        = .ok ((s.node.pollDial d dial elapsed).1,
          .pollDial (s.node.pollDial d dial elapsed).2) := by
      simp only [Node.step, hd]
    obtain ⟨taken, heq⟩ := give_eq { s with node := (s.node.pollDial d dial elapsed).1 }
      (s.node.pollDial d dial elapsed).2
    rw [heq]
    exact h.local hlen hstep rfl rfl rfl rfl rfl ⟨rfl, rfl, rfl⟩ rfl rfl rfl
  | dropDial d dial hd =>
    have hstep : s.node.step (.dropDial d) = .ok (s.node.dropDial d dial, .done) := by
      simp only [Node.step, hd]
    exact h.local hlen hstep rfl rfl rfl rfl rfl ⟨rfl, rfl, rfl⟩ rfl rfl rfl
  | pollUpgrade u upgrade hu =>
    obtain ⟨upgrades, taken, heq⟩ := s.pollUpgrade_eq u upgrade
    rw [heq]
    exact h.idle hlen rfl rfl rfl rfl hlog rfl rfl hnil rfl
  | dropUpgrade u upgrade hu =>
    -- a connection that was sent to the upgrade is dropped with it
    unfold dropUpgrade
    split
    · rename_i p k hslot
      have hstep : s.node.step (.dropConn k) = .ok (s.node.dropConn k, .done) := rfl
      exact h.local hlen hstep rfl rfl rfl rfl rfl ⟨rfl, rfl, rfl⟩ rfl rfl rfl
    · exact h.idle hlen rfl rfl rfl rfl hlog rfl rfl hnil rfl
    · exact h.idle hlen rfl rfl rfl rfl hlog rfl rfl hnil rfl
  | dropConn k hk =>
    have hstep : s.node.step (.dropConn k) = .ok (s.node.dropConn k, .done) := rfl
    exact h.local hlen hstep rfl rfl rfl rfl rfl ⟨rfl, rfl, rfl⟩ rfl rfl rfl

end

/-! ### A transport that is polled -/

/-- The formats of the addresses of two transports. -/
def sampleFormat : AddressFormat RawRecipient where
  recipientToString recipient := if recipient = .fill 9 then "nine" else "ten"
  recipientFromStr str :=
    if str = "nine" then some (.fill 9) else if str = "ten" then some (.fill 10) else none
  multiaddrFromStr str :=
    if str = "/nym/nine" then some [.nym "nine"]
    else if str = "/nym/ten" then some [.nym "ten"] else none

/-- A new transport. -/
def sample : Listener RawPeerId RawRecipient where
  node := Node.sample
  listenAddr := [.nym "nine"]
  listenerId := 4
  inboundStream := Chan.new
  pollRx := { Chan.new with queue := [.newAddress 4 [.nym "nine"]] }
  upgrades := KeyMap.empty
  nextUpgrade := 0
  taken := []

theorem sample_new : newMaybeWithNotifyInbound sampleFormat (.fill 7) (.fill 9) Chan.new Chan.new 4
    = .ok sample := rfl

/-- A request and two messages come, an address is dialed, and the listener is removed. -/
def samplePolled : List (Op RawPeerId RawRecipient) :=
  [.arrive ⟨.transportMessage (Node.sampleMessage 2)⟩,
    .arrive ⟨.connectionRequest Node.sampleRequest⟩, .poll, .poll, .pollUpgrade 0,
    .dial [.nym "ten"] ⟨.fill 3⟩, .pollDial 0 false, .removeListener 4,
    .arrive ⟨.transportMessage (Node.sampleMessage 1)⟩, .poll, .poll]

/-! ### Runs -/

section

variable {f : AddressFormat R} {selfAddress : R} {peerId : P}
  {outboundTx : Chan (OutboundMessage P R)} {listenerId : ℕ} {s₀ s : Listener P R}
  {ops : List (Op P R)} {as : List (Answer P)}

theorem refines_new (hnew : newMaybeWithNotifyInbound f peerId selfAddress Chan.new outboundTx
    listenerId = .ok s₀) :
    Refines f listenerId s₀.listenAddr [] [] s₀ [] [] (Node.new selfAddress peerId outboundTx) := by
  unfold newMaybeWithNotifyInbound at hnew
  split at hnew
  · cases hnew
  · rw [Chan.send_of_alive rfl] at hnew
    cases hnew
    exact ⟨rfl, rfl, rfl, rfl, rfl, rfl, rfl, rfl, rfl⟩

theorem refines_run (hnew : newMaybeWithNotifyInbound f peerId selfAddress Chan.new outboundTx
    listenerId = .ok s₀) (h : run (step f) s₀ ops = .ok (s, as)) :
    ∃ nops nas, run Node.step (Node.new selfAddress peerId outboundTx) nops = .ok (s.node, nas) ∧
      Refines f listenerId s₀.listenAddr ops as s nops nas s.node := by
  have hrun : ∃ nops nas n,
      run Node.step (Node.new selfAddress peerId outboundTx) nops = .ok (n, nas) ∧
      Refines f listenerId s₀.listenAddr ops as s nops nas n :=
    exists_run (I := Refines f listenerId s₀.listenAddr) (refines_new hnew)
      (fun xs es m ys fs n o t e hr _ hi hs => hi.steps (length_answers hr) (steps_of_step hs)) h
  obtain ⟨nops, nas, n, hn, hi⟩ := hrun
  obtain rfl := hi.node
  exact ⟨nops, nas, hn, hi⟩

/-- **A transport handles every message once, in the order of their arrival.**  Every run of a new
transport, with any polls, dials, upgrades and drops, is a run of its node over the messages that
were taken from the channel: these, followed by those that are still there, are all that the mixnet
task has put into it.  The node dials exactly what was dialed, and the events of `poll` that come
from messages are those that their handling gives, in order. -/
theorem refines (hnew : newMaybeWithNotifyInbound f peerId selfAddress Chan.new outboundTx
    listenerId = .ok s₀) (h : run (step f) s₀ ops = .ok (s, as)) :
    ∃ nops nas, run Node.step (Node.new selfAddress peerId outboundTx) nops = .ok (s.node, nas) ∧
      Node.inbounds nops ++ s.inboundStream.queue.map InboundMessage.message
        = (arrived ops as).map InboundMessage.message ∧
      Node.dialsIn nops = dialed f ops ∧
      (polled as).filter (·.ofInbound) = nas.filterMap (event listenerId s₀.listenAddr) := by
  obtain ⟨nops, nas, hn, hi⟩ := refines_run hnew h
  refine ⟨nops, nas, hn, ?_, hi.dials, hi.given⟩
  rw [hi.handled, ← List.map_append]
  exact congrArg (List.map InboundMessage.message) hi.log

/-- Three messages are handled, one of them with an event, and one address is dialed. -/
theorem refines_samplePolled : ∃ s as nops nas upgrade,
    run (step sampleFormat) sample samplePolled = .ok (s, as) ∧
      run Node.step (Node.new (.fill 9) (.fill 7) Chan.new) nops = .ok (s.node, nas) ∧
      Node.inbounds nops = [.transportMessage (Node.sampleMessage 2),
        .connectionRequest Node.sampleRequest, .transportMessage (Node.sampleMessage 1)] ∧
      Node.dialsIn nops = [(.fill 10, ⟨.fill 3⟩)] ∧
      nas.filterMap (event 4 [.nym "nine"])
        = [.incoming 4 upgrade [.nym "nine"] [.nym "nine"]] := by
  have hstate : ∃ s as upgrade, run (step sampleFormat) sample samplePolled = .ok (s, as) ∧
      s.inboundStream.queue = [] ∧ (arrived samplePolled as).map InboundMessage.message
        = [.transportMessage (Node.sampleMessage 2), .connectionRequest Node.sampleRequest,
          .transportMessage (Node.sampleMessage 1)] ∧
      (polled as).filter (·.ofInbound) = [.incoming 4 upgrade [.nym "nine"] [.nym "nine"]] :=
    ⟨_, _, _, rfl, rfl, rfl, rfl⟩
  obtain ⟨s, as, upgrade, hrun, hqueue, harrived, hpolled⟩ := hstate
  obtain ⟨nops, nas, hn, hhandled, hdials, hevents⟩ := refines sample_new hrun
  rw [hqueue, List.map_nil, List.append_nil, harrived] at hhandled
  exact ⟨s, as, nops, nas, upgrade, hrun, hn, hhandled, hdials, hevents.symm.trans hpolled⟩

/-- **The listener's own events.**  In every run of a new transport, the events of `poll` that do
not come from messages, followed by those that wait for it, are the new address and then one close
for each call of `remove_listener` that has returned `true`.  They go first: `poll` returns the
event of a message only when none of them waits.  It is pending only when, besides, every message
that the mixnet task has put into the channel was handled. -/
theorem polled_exact (hnew : newMaybeWithNotifyInbound f peerId selfAddress Chan.new outboundTx
    listenerId = .ok s₀) (h : run (step f) s₀ ops = .ok (s, as)) :
    nymAddressToMultiaddress f selfAddress = .ok s₀.listenAddr ∧
    (polled as).filter (!·.ofInbound) ++ s.pollRx.queue
      = .newAddress listenerId s₀.listenAddr :: closed listenerId as ∧
    (∀ as' ev, as = as' ++ [.poll (.ready ev)] → ev.ofInbound = true → s.pollRx.queue = []) ∧
    ∀ as', as = as' ++ [.poll .pending] →
      s.pollRx.queue = [] ∧ s.inboundStream.got = arrived ops as := by
  obtain ⟨nops, nas, -, hi⟩ := refines_run hnew h
  have haddr : nymAddressToMultiaddress f selfAddress = .ok s₀.listenAddr := by
    unfold newMaybeWithNotifyInbound at hnew
    split at hnew
    · cases hnew
    · rename_i addr ha
      rw [Chan.send_of_alive rfl] at hnew
      cases hnew
      exact ha
  -- the last step of a run whose last answer is that of a poll
  have hlast : ∀ {as' r}, as = as' ++ [.poll r] →
      ∃ m nops nas, Refines f listenerId s₀.listenAddr ops.dropLast as' m nops nas m.node ∧
        Steps f m .poll s (.poll r) := by
    rintro as' r rfl
    obtain ⟨xs, o, rfl⟩ : ∃ xs o, ops = xs ++ [o] := by
      rcases List.eq_nil_or_concat ops with rfl | ⟨xs, o, rfl⟩
      · have hlen := length_answers h
        simp at hlen
      · exact ⟨xs, o, List.concat_eq_append⟩
    obtain ⟨m, es, e, hm, hs, heq⟩ := run_snoc_iff.mp h
    obtain ⟨rfl, hlast⟩ := List.append_inj' heq rfl
    cases hlast
    obtain ⟨nops, nas, -, hi⟩ := refines_run hnew hm
    refine ⟨m, nops, nas, by simpa using hi, ?_⟩
    have hst := steps_of_step hs
    generalize ha : Answer.poll r = a at hst
    cases hst with
    | told ev q hq => exact .told ev q hq
    | handled msgs rest n gs r' hev hq hn hr => exact .handled msgs rest n gs r' hev hq hn hr
    | _ => cases ha
  refine ⟨haddr, hi.told, ?_, ?_⟩
  · rintro as' ev heq hin
    obtain ⟨m, nops, nas, hm, hs⟩ := hlast heq
    cases hs with
    | told _ q hq => exact absurd hin (by simp [hm.ofInbound (hq ▸ List.mem_cons_self)])
    | handled msgs rest n gs _ hev hq hn hr =>
      obtain ⟨upgrades, k, hkeep⟩ := keep_eq (m.took msgs rest n) (.ready ev)
      rw [hkeep]
      exact hev
  · rintro as' heq
    obtain ⟨m, nops, nas, hm, hs⟩ := hlast heq
    cases hs with
    | handled msgs rest n gs _ hev hq hn hr =>
      rcases hr with ⟨-, rfl, -⟩ | ⟨ev, hev, -⟩
      · refine ⟨hev, ?_⟩
        rw [← hi.log]
        exact (List.append_nil _).symm
      · cases hev

theorem polled_exact_samplePolled : ∃ s as,
    run (step sampleFormat) sample samplePolled = .ok (s, as) ∧
      (polled as).filter (!·.ofInbound) ++ s.pollRx.queue
        = .newAddress 4 [.nym "nine"] :: closed 4 as ∧
      s.inboundStream.got = arrived samplePolled as := by
  have hstate : ∃ s as, run (step sampleFormat) sample samplePolled = .ok (s, as) ∧
      ∃ as', as = as' ++ [.poll .pending] :=
    ⟨_, _, rfl, [.done, .done, _, _, _, _, _, _, _, _], rfl⟩
  obtain ⟨s, as, hrun, as', hlast⟩ := hstate
  obtain ⟨-, htold, -, hpending⟩ := polled_exact sample_new hrun
  exact ⟨s, as, hrun, htold, (hpending as' hlast).2⟩

/-- No message clashes with a queue, if every transport message comes with a nonce from 1 on. -/
theorem not_reaches_of_nonce
    (hnew : newMaybeWithNotifyInbound f peerId selfAddress Chan.new outboundTx listenerId = .ok s₀)
    (hnonce : ∀ m, .arrive ⟨.transportMessage m⟩ ∈ ops → 1 ≤ m.nonce)
    (hlen : (arriving ops).length < 2 ^ 64 - 1) (h : run (step f) s₀ ops = .ok (s, as)) :
    ¬ s.Reaches := by
  rintro ⟨msgs, msg, rest, n, gs, hq, hn, -, hcl⟩
  obtain ⟨nops, nas, hr, hi⟩ := refines_run hnew h
  have hrun := run_append_iff.mpr ⟨s.node, nas, gs, hr, hn, rfl⟩
  have hall : Node.inbounds (nops ++ msgs.map fun msg => .inbound msg.message)
      = (s.inboundStream.got ++ msgs).map InboundMessage.message := by
    rw [Node.inbounds_append, hi.handled, List.map_append, inbounds_map]
  have hlog : s.inboundStream.got ++ msgs ++ msg :: rest = arrived ops as := by
    rw [← hi.log, Chan.log, hq, List.append_assoc]
  have hordered := Node.ordered_run (fun m hm => ?_) ?_ hrun
  · exact Node.not_clashes_of_calm (Node.calm_of_ordered (Node.placed_run hrun) hordered) _ hcl
  · have hmem : Message.transportMessage m
        ∈ Node.inbounds (nops ++ msgs.map fun msg => .inbound msg.message) :=
      List.mem_filterMap.mpr ⟨_, hm, rfl⟩
    rw [hall] at hmem
    obtain ⟨⟨m'⟩, hm', rfl⟩ := List.mem_map.mp hmem
    have harrived : ⟨.transportMessage m⟩ ∈ arrived ops as := by
      rw [← hlog]
      exact List.mem_append_left _ hm'
    obtain ⟨o, ho, hmsg⟩ := List.mem_filterMap.mp ((arrived_sublist ops as).subset harrived)
    split at hmsg
    · cases hmsg
      exact hnonce m ho
    · cases hmsg
  · have hle := (arrived_sublist ops as).length_le
    rw [← hlog, List.length_append] at hle
    rw [hall, List.length_map]
    omega

/-- **Only a dial of the empty address panics**, in a run of any length into which come fewer than
`2 ^ 64 - 1` messages, each transport message with a nonce from 1 on.  As for every future, a dial
or an upgrade is not polled again once it has ended: it would panic, and the run skips it. -/
theorem run_isOk_iff_addressed
    (hnew : newMaybeWithNotifyInbound f peerId selfAddress Chan.new outboundTx listenerId = .ok s₀)
    (hnonce : ∀ m, .arrive ⟨.transportMessage m⟩ ∈ ops → 1 ≤ m.nonce)
    (hlen : (arriving ops).length < 2 ^ 64 - 1) :
    (∃ r, run (step f) s₀ ops = .ok r) ↔
      ∀ id, .dial [] id ∉ ops ∧ .dialAsListener [] id ∉ ops := by
  have hok : ∀ {xs m es}, run (step f) s₀ xs = .ok (m, es) → ∀ o,
      ((∃ r, m.step f o = .ok r) ↔ ¬ m.Crashes o) := by
    intro xs m es hr o
    obtain ⟨nops, nas, -, hi⟩ := refines_run hnew hr
    exact step_isOk_iff hi.alive o
  constructor
  · rintro ⟨⟨s, as⟩, h⟩
    -- an operation of a run that does not panic does not crash
    have hdial : ∀ o ∈ ops, ∃ m, ¬ Crashes m o := by
      intro o ho
      obtain ⟨xs, ys, rfl⟩ := List.append_of_mem ho
      obtain ⟨m, es, es', hm, hrest, -⟩ := run_append_iff.mp h
      obtain ⟨m', e, -, hs, -⟩ := run_cons_iff.mp hrest
      exact ⟨m, (hok hm o).mp ⟨_, hs⟩⟩
    refine fun id => ⟨fun ho => ?_, fun ho => ?_⟩ <;>
    · obtain ⟨m, hm⟩ := hdial _ ho
      exact hm rfl
  · intro haddr
    refine (run_isOk_iff_along (P := fun s o => ¬ s.Crashes o)
      fun xs o _ m es hr => hok hr o).mpr (along_of_forall fun xs o hp m es hr => ?_)
    have ho : o ∈ ops := hp.subset (List.mem_append_right _ (List.mem_singleton_self o))
    have hxs := (List.prefix_append xs [o]).trans hp
    cases o with
    | dial addr id =>
      rintro rfl
      exact (haddr id).1 ho
    | dialAsListener addr id =>
      rintro rfl
      exact (haddr id).2 ho
    | poll =>
      refine fun hc => not_reaches_of_nonce hnew (fun m hm => hnonce m (hxs.subset hm)) ?_ hr hc.2
      exact Nat.lt_of_le_of_lt (length_arriving_le hxs) hlen
    | _ => exact id

theorem run_isOk_samplePolled : ∃ r, run (step sampleFormat) sample samplePolled = .ok r := by
  refine (run_isOk_iff_addressed sample_new (fun m hm => ?_) (by decide)).mpr fun id => ?_
  · simp only [samplePolled, List.mem_cons, Op.arrive.injEq, InboundMessage.mk.injEq,
      Message.transportMessage.injEq, reduceCtorEq, List.not_mem_nil, or_false, false_or] at hm
    rcases hm with rfl | rfl <;> decide
  · simp [samplePolled]

end

end Listener

end Libp2pNym
