import Libp2pNym.Connection.Equiv.Step
import Libp2pNym.Lib.Run
import Libp2pNym.Transport.Equiv.Step

/-!
# What an operation does to one connection id

Seen from a connection id `c`, a transport is the endpoint of the connection, `n.endAt c`, if it was
established, and the queue `n.queueOf c`.  `Moves n c n' o` lists what an operation can do to these
two; the invariants of the transport speak of one id at a time and are proved from it.
-/

namespace Libp2pNym

open StepRun

variable {P R : Type}

namespace Node

/-! ### The connection of an id -/

theorem queueOf_setQueue (n : Node P R) (id : ConnectionId) (queue : MessageQueue)
    (c : ConnectionId) :
    (n.setQueue id queue).queueOf c = if c = id then queue else n.queueOf c := by
  simp only [queueOf, setQueue, KeyMap.insert_apply]
  split <;> rfl

/-- The endpoint of the connection with the id, if it was established. -/
def endAt (n : Node P R) (c : ConnectionId) : Option (Endpoint P R) :=
  (n.transport.connections c).bind n.conns

/-- The handles of the connections are those of the endpoints there are, each under its own id. -/
structure Placed (n : Node P R) : Prop where
  conn : ∀ {c h}, n.transport.connections c = some h → ∃ e, n.conns h = some e ∧ e.conn.id = c
  back : ∀ {h e}, n.conns h = some e → n.transport.connections e.conn.id = some h
  fresh : ∀ {h}, n.nextConn ≤ h → n.conns h = none

theorem placed_new (selfAddress : R) (peerId : P) (outboundTx : Chan (OutboundMessage P R)) :
    (Node.new selfAddress peerId outboundTx).Placed where
  conn h := by cases h
  back h := by cases h
  fresh _ := rfl

theorem Placed.endAt_eq_none_iff {n : Node P R} (hp : n.Placed) {c : ConnectionId} :
    n.endAt c = none ↔ n.transport.connections c = none := by
  unfold endAt
  cases hc : n.transport.connections c with
  | none => exact ⟨fun _ => rfl, fun _ => rfl⟩
  | some h =>
    obtain ⟨e, he, -⟩ := hp.conn hc
    rw [Option.bind_some, he]
    exact ⟨nofun, nofun⟩

theorem endAt_eq_some_iff {n : Node P R} {c : ConnectionId} {e : Endpoint P R} :
    n.endAt c = some e ↔ ∃ h, n.transport.connections c = some h ∧ n.conns h = some e :=
  Option.bind_eq_some_iff

/-- The endpoint that a new connection starts with, once what was queued and is in order was sent to
it. -/
def firstEnd (n : Node P R) (peerId : P) (recipient : R) (id : ConnectionId) : Endpoint P R :=
  { Endpoint.new peerId recipient id n.transport.outboundTx.cloneTx with
    conn.inboundRx := (forwardQueued ((n.opened id).size + 1) (n.opened id) Chan.new).2.1 }

theorem conns_connected (n : Node P R) (peerId : P) (recipient : R) (id : ConnectionId) :
    (n.connected peerId recipient id).conns
      = n.conns.insert n.nextConn (n.firstEnd peerId recipient id) := by
  have he : (n.created peerId recipient id).conns n.nextConn
      = some (Endpoint.new peerId recipient id n.transport.outboundTx.cloneTx) :=
    KeyMap.insert_self ..
  show (n.created peerId recipient id).conns.modify n.nextConn _ = _
  rw [KeyMap.modify_eq_insert _ _ he, inbound_of_some he]
  exact KeyMap.insert_insert ..

theorem connections_connected (n : Node P R) (peerId : P) (recipient : R) (id : ConnectionId) :
    (n.connected peerId recipient id).transport.connections
      = n.transport.connections.insert id n.nextConn := rfl

theorem queueOf_connected (n : Node P R) (peerId : P) (recipient : R) (id c : ConnectionId) :
    (n.connected peerId recipient id).queueOf c =
      if c = id then (forwardQueued ((n.opened id).size + 1) (n.opened id) Chan.new).1
      else n.queueOf c := by
  have he : (n.created peerId recipient id).conns n.nextConn
      = some (Endpoint.new peerId recipient id n.transport.outboundTx.cloneTx) :=
    KeyMap.insert_self ..
  refine (queueOf_setQueue _ id _ c).trans ?_
  rw [inbound_of_some he]
  rfl

/-- The endpoint of `c` after the one with the handle `h` was changed. -/
theorem endAt_modify {n n' : Node P R} {h : ℕ} {f : Endpoint P R → Endpoint P R}
    (hconns : n'.conns = n.conns.modify h f)
    (hconn : n'.transport.connections = n.transport.connections) (c : ConnectionId) :
    n'.endAt c = if n.transport.connections c = some h then (n.endAt c).map f else n.endAt c := by
  unfold endAt
  rw [hconn, hconns]
  cases hc : n.transport.connections c with
  | none => rfl
  | some k =>
    rw [Option.bind_some, Option.bind_some, KeyMap.modify_apply]
    by_cases hk : k = h
    · rw [if_pos hk, if_pos (congrArg some hk), hk]
    · rw [if_neg hk, if_neg fun heq => hk (Option.some.inj heq)]

/-- The endpoint of `c` after a connection was established. -/
theorem Placed.endAt_connected {n : Node P R} (hp : n.Placed) (peerId : P) (recipient : R)
    (id c : ConnectionId) : (n.connected peerId recipient id).endAt c =
      if c = id then some (n.firstEnd peerId recipient id) else n.endAt c := by
  unfold endAt
  rw [connections_connected, conns_connected, KeyMap.insert_apply]
  by_cases hc : c = id
  · rw [if_pos hc, if_pos hc, Option.bind_some, KeyMap.insert_self]
  · rw [if_neg hc, if_neg hc]
    refine Option.bind_congr fun h hh => KeyMap.insert_of_ne _ _ ?_
    -- the handle of another connection is taken
    rintro rfl
    obtain ⟨e, he, -⟩ := hp.conn hh
    rw [hp.fresh (le_refl _)] at he
    cases he

/-! ### Handles -/

theorem Placed.congr {n n' : Node P R} (hp : n.Placed)
    (hconn : n'.transport.connections = n.transport.connections) (hconns : n'.conns = n.conns)
    (hnext : n'.nextConn = n.nextConn) : n'.Placed := by
  constructor
  · rw [hconn, hconns]
    exact hp.conn
  · rw [hconn, hconns]
    exact hp.back
  · rw [hconns, hnext]
    exact hp.fresh

/-- An endpoint was changed and keeps its id. -/
theorem Placed.modify {n n' : Node P R} (hp : n.Placed) {h : ℕ} {f : Endpoint P R → Endpoint P R}
    (hconns : n'.conns = n.conns.modify h f)
    (hf : ∀ e, n.conns h = some e → (f e).conn.id = e.conn.id)
    (hconn : n'.transport.connections = n.transport.connections)
    (hnext : n'.nextConn = n.nextConn) : n'.Placed := by
  constructor
  · intro c k hc
    rw [hconn] at hc
    obtain ⟨e, he, hid⟩ := hp.conn hc
    rw [hconns, KeyMap.modify_apply]
    split_ifs with hk
    · subst hk
      exact ⟨f e, by rw [he, Option.map_some], (hf e he).trans hid⟩
    · exact ⟨e, he, hid⟩
  · intro k e he
    rw [hconns, KeyMap.modify_apply] at he
    rw [hconn]
    split_ifs at he with hk
    · obtain ⟨e₀, he₀, rfl⟩ := Option.map_eq_some_iff.mp he
      rw [hf e₀ he₀, hk]
      exact hp.back he₀
    · exact hp.back he
  · intro k hk
    rw [hnext] at hk
    rw [hconns, KeyMap.modify_apply, hp.fresh hk]
    split_ifs with heq
    · rw [← heq, hp.fresh hk]
      rfl
    · rfl

theorem Placed.connected {n : Node P R} (hp : n.Placed) (peerId : P) (recipient : R)
    {id : ConnectionId} (hc : n.transport.connections id = none) :
    (n.connected peerId recipient id).Placed := by
  constructor
  · intro c k hck
    rw [connections_connected, KeyMap.insert_apply] at hck
    rw [conns_connected, KeyMap.insert_apply]
    split_ifs at hck with hid
    · cases hck
      exact ⟨_, if_pos rfl, hid.symm⟩
    · obtain ⟨e, he, hid'⟩ := hp.conn hck
      have hne : k ≠ n.nextConn := by
        rintro rfl
        rw [hp.fresh (le_refl _)] at he
        cases he
      exact ⟨e, (if_neg hne).trans he, hid'⟩
  · intro k e he
    rw [conns_connected, KeyMap.insert_apply] at he
    rw [connections_connected, KeyMap.insert_apply]
    split_ifs at he with hk
    · cases he
      rw [hk]
      exact if_pos rfl
    · have hback := hp.back he
      have hne : e.conn.id ≠ id := by
        rintro heq
        rw [heq, hc] at hback
        cases hback
      exact (if_neg hne).trans hback
  · intro k hk
    have hk' : n.nextConn + 1 ≤ k := hk
    rw [conns_connected, KeyMap.insert_of_ne _ _ (by omega)]
    exact hp.fresh (by omega)

/-- An endpoint was replaced by what an operation made of it. -/
theorem Placed.insert {n : Node P R} (hp : n.Placed) {h : ℕ} {e e' : Endpoint P R}
    (he : n.conns h = some e) (hid : e'.conn.id = e.conn.id) :
    { n with conns := n.conns.insert h e' }.Placed := by
  refine hp.modify (KeyMap.modify_eq_insert n.conns (fun _ => e') he).symm (fun e₀ he₀ => ?_) rfl
    rfl
  rw [he] at he₀
  cases he₀
  exact hid

theorem Placed.endAt_insert {n : Node P R} (hp : n.Placed) {h : ℕ} {e : Endpoint P R}
    (he : n.conns h = some e) (e' : Endpoint P R) (c : ConnectionId) :
    { n with conns := n.conns.insert h e' }.endAt c
      = if c = e.conn.id then some e' else n.endAt c := by
  have hback := hp.back he
  have hconns : { n with conns := n.conns.insert h e' }.conns = n.conns.modify h fun _ => e' :=
    (KeyMap.modify_eq_insert n.conns (fun _ => e') he).symm
  rw [endAt_modify hconns rfl]
  by_cases hc : c = e.conn.id
  · rw [if_pos hc, if_pos (hc ▸ hback), endAt_eq_some_iff.mpr ⟨h, hc ▸ hback, he⟩]
    rfl
  · rw [if_neg hc, if_neg fun hh => ?_]
    obtain ⟨e₀, he₀, hid⟩ := hp.conn hh
    rw [he] at he₀
    cases he₀
    exact hc hid.symm

/-! ### Moves -/

/-- The operation is a connection message that can establish the connection `c`, with the given peer
id and remote address. -/
inductive Establishes (n : Node P R) (c : ConnectionId) : Op P R → P → R → Prop
  | request (msg : ConnectionMessage P R) (recipient : R) (hid : msg.id = c)
      (hr : msg.recipient = some recipient) :
    Establishes n c (.inbound (.connectionRequest msg)) msg.peerId recipient
  | response (msg : ConnectionMessage P R) (pending : PendingConnection R) (hid : msg.id = c)
      (hp : n.transport.pendingDials c = some pending) :
    Establishes n c (.inbound (.connectionResponse msg)) msg.peerId pending.remoteRecipient

/-- The queue and the channel after the message `m` and those that follow it in order were sent to
the connection. -/
def passed (n : Node P R) (c : ConnectionId) (e : Endpoint P R) (m : TransportMessage) :
    MessageQueue × Chan SubstreamMessage × Except Error Unit :=
  forwardQueued (((n.queueOf c).tryPush m).2.size + 1) ((n.queueOf c).tryPush m).2
    { e.conn.inboundRx with queue := e.conn.inboundRx.queue ++ [m.message] }

/-- What an operation can do to the connection id `c`. -/
inductive Moves (n : Node P R) (c : ConnectionId) (n' : Node P R) : Op P R → Prop
  | same (o : Op P R) (ho : ∀ m, o = .inbound (.transportMessage m) → m.id ≠ c)
      (hc : n'.transport.connections c = n.transport.connections c)
      (he : n'.endAt c = n.endAt c) (hq : n'.queueOf c = n.queueOf c) : Moves n c n' o
  | dropped (o : Op P R) (ho : ∀ msg, o ≠ .inbound msg)
      (hc : n'.transport.connections c = n.transport.connections c) (e : Endpoint P R)
      (he : n.endAt c = some e) (he' : n'.endAt c = some e.dropConnection)
      (hq : n'.queueOf c = n.queueOf c) : Moves n c n' o
  | established (o : Op P R) (peerId : P) (recipient : R) (ho : Establishes n c o peerId recipient)
      (he : n.endAt c = none) (h0 : (n.queueOf c).nextExpectedNonce = 0)
      (hc : n'.transport.connections c = some n.nextConn) (e' : Endpoint P R)
      (hd : e' = n.firstEnd peerId recipient c ∨
        e' = (n.firstEnd peerId recipient c).dropConnection)
      (he' : n'.endAt c = some e')
      (hq : n'.queueOf c
        = (forwardQueued ((n.opened c).size + 1) (n.opened c) Chan.new).1) : Moves n c n' o
  | pushed (m : TransportMessage) (hid : m.id = c)
      (hout : ((n.queueOf c).tryPush m).1 = none ∨ ∀ e, n.endAt c = some e → ¬ e.Alive)
      (hc : n'.transport.connections c = n.transport.connections c)
      (he : n'.endAt c = n.endAt c) (hq : n'.queueOf c = ((n.queueOf c).tryPush m).2) :
    Moves n c n' (.inbound (.transportMessage m))
  | forwarded (m : TransportMessage) (hid : m.id = c) (e : Endpoint P R) (he : n.endAt c = some e)
      (ha : e.Alive) (hout : ((n.queueOf c).tryPush m).1 = some m)
      (hc : n'.transport.connections c = n.transport.connections c)
      (he' : n'.endAt c = some { e with conn.inboundRx := (n.passed c e m).2.1 })
      (hq : n'.queueOf c = (n.passed c e m).1) : Moves n c n' (.inbound (.transportMessage m))

/-- A connection was established for `id`, and possibly dropped at once. -/
theorem Placed.moves_connected {n n₁ n' : Node P R} (hp : n.Placed) {o : Op P R} {peerId : P}
    {recipient : R} {id : ConnectionId} (ho : Establishes n id o peerId recipient)
    (hc : n.transport.connections id = none) (h0 : (n.queueOf id).nextExpectedNonce = 0)
    (h₁ : n₁ = n ∨ n₁ = n.claimed id)
    (hn' : n'.endAt = (n₁.connected peerId recipient id).endAt ∨
      n'.endAt = ((n₁.connected peerId recipient id).dropConn n.nextConn).endAt)
    (hq : n'.queueOf = (n₁.connected peerId recipient id).queueOf)
    (hcs : n'.transport.connections = (n₁.connected peerId recipient id).transport.connections)
    (c : ConnectionId) : Moves n c n' o := by
  have hend : (n₁.connected peerId recipient id).endAt c
      = if c = id then some (n.firstEnd peerId recipient id) else n.endAt c := by
    rcases h₁ with rfl | rfl
    · exact hp.endAt_connected peerId recipient id c
    · exact (hp.congr rfl rfl rfl : (n.claimed id).Placed).endAt_connected peerId recipient id c
  have hqueue : n'.queueOf c
      = if c = id then (forwardQueued ((n.opened id).size + 1) (n.opened id) Chan.new).1
        else n.queueOf c := by
    rw [hq]
    rcases h₁ with rfl | rfl <;> exact queueOf_connected ..
  have hconns : (n₁.connected peerId recipient id).transport.connections c
      = if c = id then some n.nextConn else n.transport.connections c := by
    rcases h₁ with rfl | rfl <;> exact KeyMap.insert_apply ..
  have hmodify : ((n₁.connected peerId recipient id).dropConn n.nextConn).conns
      = (n₁.connected peerId recipient id).conns.modify n.nextConn Endpoint.dropConnection := rfl
  have hdrop := endAt_modify hmodify rfl c
  by_cases hid : c = id
  · subst hid
    rw [if_pos rfl] at hend hqueue hconns
    have hnone := hp.endAt_eq_none_iff.mpr hc
    rcases hn' with hn' | hn'
    · exact .established o peerId recipient ho hnone h0 (hcs ▸ hconns) _ (Or.inl rfl)
        (by rw [hn', hend]) hqueue
    · refine .established o peerId recipient ho hnone h0 (hcs ▸ hconns) _ (Or.inr rfl) ?_ hqueue
      rw [hn', hdrop, if_pos hconns, hend]
      rfl
  · rw [if_neg hid] at hend hqueue hconns
    refine .same o ?_ (hcs ▸ hconns) ?_ hqueue
    · rintro m rfl
      cases ho
    · rcases hn' with hn' | hn'
      · rw [hn', hend]
      · rw [hn', hdrop, hend, hconns]
        refine if_neg fun heq => ?_
        obtain ⟨e, he, -⟩ := hp.conn heq
        rw [hp.fresh (le_refl _)] at he
        cases he

theorem moves_handled {n n' : Node P R} (hp : n.Placed) {msg : Message P R}
    {r : Except Error (InboundTransportEvent P)} (hh : Handled n msg n' r) (c : ConnectionId) :
    Moves n c n' (.inbound msg) := by
  -- a transport message that went to the queue only
  have hpush : ∀ m : TransportMessage, (((n.queueOf m.id).tryPush m).1 = none ∨
      ∀ e, n.endAt m.id = some e → ¬ e.Alive) →
      Moves n c (n.setQueue m.id ((n.queueOf m.id).tryPush m).2)
        (.inbound (.transportMessage m)) := by
    intro m hout
    have hq := queueOf_setQueue n m.id ((n.queueOf m.id).tryPush m).2 c
    by_cases hid : c = m.id
    · subst hid
      exact .pushed m rfl hout rfl rfl (hq.trans (if_pos rfl))
    · refine .same _ (fun m' heq => ?_) rfl rfl (hq.trans (if_neg hid))
      cases heq
      exact fun heq => hid heq.symm
  cases hh with
  | noRecipient msg hr => exact .same _ nofun rfl rfl rfl
  | idExists msg recipient h hr hc => exact .same _ nofun rfl rfl rfl
  | accepted msg recipient hr hc hq ha =>
    refine hp.moves_connected (.request msg recipient rfl hr) hc hq (Or.inl rfl) (Or.inl ?_) ?_ ?_ c
      <;> rfl
  | unanswered msg recipient hr hc hq ha =>
    refine hp.moves_connected (.request msg recipient rfl hr) hc hq (Or.inl rfl) (Or.inr ?_) ?_ ?_ c
      <;> rfl
  | alreadyEstablished msg h hc => exact .same _ nofun rfl rfl rfl
  | noDial msg hc hpend => exact .same _ nofun rfl rfl rfl
  | resolved msg pending dial hc hpend hq hd ha =>
    refine hp.moves_connected (.response msg pending rfl hpend) hc hq (Or.inr rfl) (Or.inl ?_) ?_ ?_
      c <;> rfl
  | unresolved msg pending hc hpend hq hd =>
    refine hp.moves_connected (.response msg pending rfl hpend) hc hq (Or.inr rfl) (Or.inr ?_) ?_ ?_
      c <;> rfl
  | queued m hq => exact hpush m (Or.inl hq)
  | noConnection m hq hc =>
    refine hpush m (Or.inr fun e he => ?_)
    rw [hp.endAt_eq_none_iff.mpr hc] at he
    cases he
  | gone m h hq hc ha =>
    refine hpush m (Or.inr fun e he hal => ?_)
    obtain ⟨k, hk, hek⟩ := endAt_eq_some_iff.mp he
    rw [hc] at hk
    cases hk
    rw [inbound_of_some hek] at ha
    exact Bool.noConfusion (ha.symm.trans hal)
  | forwarded m h e hq hc he ha =>
    have hset : (n.setInbound h { e.conn.inboundRx with
        queue := e.conn.inboundRx.queue ++ [m.message] }).conns h
        = some { e with conn.inboundRx := { e.conn.inboundRx with
          queue := e.conn.inboundRx.queue ++ [m.message] } } := by
      show n.conns.modify h _ h = _
      rw [KeyMap.modify_eq_insert _ _ he, KeyMap.insert_self]
    have hconns : ((n.setInbound h { e.conn.inboundRx with
        queue := e.conn.inboundRx.queue ++ [m.message] }).forwardAll m.id h
          ((n.queueOf m.id).tryPush m).2).1.conns
        = n.conns.modify h fun _ => { e with conn.inboundRx := (n.passed m.id e m).2.1 } := by
      show KeyMap.modify _ h _ = _
      rw [inbound_of_some hset, KeyMap.modify_eq_insert _ _ hset]
      show (n.conns.modify h _).insert h _ = _
      rw [KeyMap.modify_eq_insert _ _ he, KeyMap.modify_eq_insert _ _ he]
      exact KeyMap.insert_insert ..
    have hend := endAt_modify hconns rfl c
    have hqueue : ((n.setInbound h { e.conn.inboundRx with
        queue := e.conn.inboundRx.queue ++ [m.message] }).forwardAll m.id h
          ((n.queueOf m.id).tryPush m).2).1.queueOf c
        = if c = m.id then (n.passed m.id e m).1 else n.queueOf c := by
      refine (queueOf_setQueue _ m.id _ c).trans ?_
      rw [inbound_of_some hset]
      rfl
    have hat : n.endAt m.id = some e := endAt_eq_some_iff.mpr ⟨h, hc, he⟩
    by_cases hid : c = m.id
    · subst hid
      rw [if_pos hc, hat, Option.map_some] at hend
      exact .forwarded m rfl e hat ha hq rfl hend (hqueue.trans (if_pos rfl))
    · rw [if_neg fun heq => ?_] at hend
      · refine .same _ (fun m' heq => ?_) rfl hend (hqueue.trans (if_neg hid))
        cases heq
        exact fun heq => hid heq.symm
      · -- the handle belongs to one connection
        obtain ⟨e₁, he₁, rfl⟩ := hp.conn heq
        obtain ⟨e₂, he₂, hid₂⟩ := hp.conn hc
        rw [he₁] at he₂
        cases he₂
        exact hid hid₂

theorem placed_handled {n n' : Node P R} (hp : n.Placed) {msg : Message P R}
    {r : Except Error (InboundTransportEvent P)} (hh : Handled n msg n' r) : n'.Placed := by
  have hclaimed : ∀ id, (n.claimed id).Placed := fun id => hp.congr rfl rfl rfl
  cases hh with
  | accepted msg recipient hr hc hq ha =>
    exact (hp.connected msg.peerId recipient hc).congr rfl rfl rfl
  | unanswered msg recipient hr hc hq ha =>
    exact (hp.connected msg.peerId recipient hc).modify rfl (fun _ _ => rfl) rfl rfl
  | resolved msg pending dial hc hpend hq hd ha =>
    exact ((hclaimed msg.id).connected msg.peerId pending.remoteRecipient hc).congr rfl rfl rfl
  | unresolved msg pending hc hpend hq hd =>
    exact ((hclaimed msg.id).connected msg.peerId pending.remoteRecipient hc).modify rfl
      (fun _ _ => rfl) rfl rfl
  | forwarded m h e hq hc he ha =>
    have hset : (n.setInbound h { e.conn.inboundRx with
        queue := e.conn.inboundRx.queue ++ [m.message] }).Placed :=
      hp.modify rfl (fun _ _ => rfl) rfl rfl
    exact hset.modify rfl (fun _ _ => rfl) rfl rfl
  | _ => exact hp.congr rfl rfl rfl

/-- Waiting for a connection changes nothing but the dial. -/
theorem awaitDial_frame (n : Node P R) (d : ℕ) (dial : Dial P R) (elapsed : Bool) :
    (n.awaitDial d dial elapsed).1.transport = n.transport ∧
      (n.awaitDial d dial elapsed).1.nextConn = n.nextConn ∧
      (n.awaitDial d dial elapsed).1.conns = n.conns ∧
      (n.awaitDial d dial elapsed).1.nextDial = n.nextDial := by
  unfold awaitDial
  split
  · split <;> exact ⟨rfl, rfl, rfl, rfl⟩
  · exact ⟨rfl, rfl, rfl, rfl⟩
  · split <;> exact ⟨rfl, rfl, rfl, rfl⟩

/-- Dropping a dial changes nothing but the dial and the connection that waits in its channel. -/
theorem dropDial_frame (n : Node P R) (d : ℕ) (dial : Dial P R) :
    (n.dropDial d dial).transport = n.transport ∧ (n.dropDial d dial).nextConn = n.nextConn ∧
      (n.dropDial d dial).nextDial = n.nextDial ∧
      ((n.dropDial d dial).conns = n.conns ∨
        ∃ h, (n.dropDial d dial).conns = n.conns.modify h Endpoint.dropConnection) := by
  unfold dropDial
  split
  · rename_i h hslot
    exact ⟨rfl, rfl, rfl, Or.inr ⟨h, rfl⟩⟩
  · exact ⟨rfl, rfl, rfl, Or.inl rfl⟩
  · exact ⟨rfl, rfl, rfl, Or.inl rfl⟩

/-- The operations that are not inbound messages leave connections and queues alone, and change an
endpoint only by dropping it. -/
theorem frame_steps {n n' : Node P R} {o : Op P R} {a : Answer P} (hs : Steps n o n' a)
    (ho : ∀ msg, o ≠ .inbound msg) :
    n'.transport.connections = n.transport.connections ∧
      n'.transport.messageQueues = n.transport.messageQueues ∧ n'.nextConn = n.nextConn ∧
      (n'.conns = n.conns ∨ ∃ h, n'.conns = n.conns.modify h Endpoint.dropConnection) := by
  cases hs with
  | inbound msg n' r hh => exact absurd rfl (ho msg)
  | sent d elapsed dial request hd hrx hr ha =>
    obtain ⟨h1, h2, h3, -⟩ :=
      (n.requested d dial request).awaitDial_frame d { dial with request := none } elapsed
    rw [h1, h2, h3]
    exact ⟨rfl, rfl, rfl, Or.inl rfl⟩
  | awaited d elapsed dial hd hrx hr =>
    obtain ⟨h1, h2, h3, -⟩ := n.awaitDial_frame d dial elapsed
    rw [h1, h2, h3]
    exact ⟨rfl, rfl, rfl, Or.inl rfl⟩
  | unsent d elapsed dial request hd hrx hr ha =>
    obtain ⟨h1, h2, -, h3⟩ := (n.withdrawn d dial).dropDial_frame d dial
    rw [h1, h2]
    exact ⟨rfl, rfl, rfl, h3⟩
  | dialDropped d dial hd hrx =>
    obtain ⟨h1, h2, -, h3⟩ := n.dropDial_frame d dial
    rw [h1, h2]
    exact ⟨rfl, rfl, rfl, h3⟩
  | connDropped h => exact ⟨rfl, rfl, rfl, Or.inr ⟨h, rfl⟩⟩
  | _ => exact ⟨rfl, rfl, rfl, Or.inl rfl⟩

theorem placed_steps {n n' : Node P R} (hp : n.Placed) {o : Op P R} {a : Answer P}
    (hs : Steps n o n' a) : n'.Placed := by
  by_cases ho : ∃ msg, o = .inbound msg
  · obtain ⟨msg, rfl⟩ := ho
    cases hs with
    | skip _ ho => exact absurd rfl (ho msg)
    | inbound _ _ r hh => exact placed_handled hp hh
  · push Not at ho
    obtain ⟨h1, -, h3, h4 | ⟨h, h4⟩⟩ := frame_steps hs ho
    · exact hp.congr h1 h4 h3
    · exact hp.modify h4 (fun _ _ => rfl) h1 h3

/-- **What an operation does to the connection id `c`**, for every id. -/
theorem moves_steps {n n' : Node P R} (hp : n.Placed) {o : Op P R} {a : Answer P}
    (hs : Steps n o n' a) (c : ConnectionId) : Moves n c n' o := by
  by_cases ho : ∃ msg, o = .inbound msg
  · obtain ⟨msg, rfl⟩ := ho
    cases hs with
    | skip _ ho => exact absurd rfl (ho msg)
    | inbound _ _ r hh => exact moves_handled hp hh c
  · push Not at ho
    have hno : ∀ m, o = .inbound (.transportMessage m) → m.id ≠ c := fun m heq => absurd heq (ho _)
    obtain ⟨h1, h2, -, h4⟩ := frame_steps hs ho
    have hq : n'.queueOf c = n.queueOf c := by simp only [queueOf, h2]
    rcases h4 with h4 | ⟨h, h4⟩
    · refine .same o hno (by rw [h1]) ?_ hq
      simp only [endAt, h1, h4]
    · have hend := endAt_modify h4 h1 c
      split_ifs at hend with hc
      · obtain ⟨e, he, -⟩ := hp.conn hc
        have hat : n.endAt c = some e := endAt_eq_some_iff.mpr ⟨h, hc, he⟩
        rw [hat, Option.map_some] at hend
        exact .dropped o ho (by rw [h1]) e hat hend hq
      · exact .same o hno (by rw [h1]) hend hq

/-! ### What stays -/

/-- The endpoint of a connection stays, with its peer and with what it has sent. -/
theorem Moves.endAt {n n' : Node P R} {c : ConnectionId} {o : Op P R} (hm : Moves n c n' o)
    {e : Endpoint P R} (he : n.endAt c = some e) :
    ∃ e', n'.endAt c = some e' ∧ e'.conn.remoteRecipient = e.conn.remoteRecipient ∧
      e'.conn.peerId = e.conn.peerId ∧ e'.outbox = e.outbox := by
  cases hm with
  | same _ ho hc he' hq => exact ⟨e, he'.trans he, rfl, rfl, rfl⟩
  | dropped _ ho hc e₀ he₀ he' hq =>
    rw [he] at he₀
    cases he₀
    exact ⟨_, he', rfl, rfl, rfl⟩
  | established _ peerId recipient ho he₀ h0 hc e' hd he' hq =>
    rw [he] at he₀
    cases he₀
  | pushed m hid hout hc he' hq => exact ⟨e, he'.trans he, rfl, rfl, rfl⟩
  | forwarded m hid e₀ he₀ ha hout hc he' hq =>
    rw [he] at he₀
    cases he₀
    exact ⟨_, he', rfl, rfl, rfl⟩

/-- An endpoint of `c` was there before, with its peer and its outbox, or it was established now,
with an outbox of its own. -/
theorem Moves.endAt_cases {n n' : Node P R} {c : ConnectionId} {o : Op P R} (hm : Moves n c n' o)
    {e' : Endpoint P R} (he' : n'.endAt c = some e') :
    (∃ e, n.endAt c = some e ∧ e'.conn.remoteRecipient = e.conn.remoteRecipient ∧
      e'.conn.peerId = e.conn.peerId ∧ e'.outbox = e.outbox) ∨
    (n.endAt c = none ∧ Establishes n c o e'.conn.peerId e'.conn.remoteRecipient ∧
      e'.outbox = { messageNonce := 1, outboundTx := n.transport.outboundTx.cloneTx }) := by
  cases he : n.endAt c with
  | some e =>
    obtain ⟨e₁, he₁, hrem, hpeer, hout⟩ := hm.endAt he
    rw [he'] at he₁
    cases he₁
    exact Or.inl ⟨e, rfl, hrem, hpeer, hout⟩
  | none =>
    cases hm with
    | same _ ho hc hsame hq => exact absurd (he'.symm.trans (hsame.trans he)) nofun
    | dropped _ ho hc e he₀ _ hq => exact absurd (he.symm.trans he₀) nofun
    | established _ peerId recipient ho _ h0 hc e₁ hd he₁ hq =>
      rw [he'] at he₁
      cases he₁
      rcases hd with rfl | rfl <;> exact Or.inr ⟨rfl, ho, rfl⟩
    | pushed m hid hout hc hsame hq => exact absurd (he'.symm.trans (hsame.trans he)) nofun
    | forwarded m hid e he₀ ha hout hc _ hq => exact absurd (he.symm.trans he₀) nofun

/-- A connection keeps its handle. -/
theorem Moves.connections {n n' : Node P R} (hp : n.Placed) {c : ConnectionId} {o : Op P R}
    (hm : Moves n c n' o) {h : ℕ} (hc : n.transport.connections c = some h) :
    n'.transport.connections c = some h := by
  cases hm with
  | same _ ho hc' he hq => exact hc'.trans hc
  | dropped _ ho hc' e he he' hq => exact hc'.trans hc
  | established _ peerId recipient ho he h0 hc' e' hd he' hq =>
    rw [hp.endAt_eq_none_iff.mp he] at hc
    cases hc
  | pushed m hid hout hc' he hq => exact hc'.trans hc
  | forwarded m hid e he ha hout hc' he' hq => exact hc'.trans hc

/-- A connection keeps its handle, its id and its peer. -/
theorem Placed.conns_steps {n n' : Node P R} (hp : n.Placed) {o : Op P R} {a : Answer P}
    (hs : Steps n o n' a) {h : ℕ} {e : Endpoint P R} (he : n.conns h = some e) :
    ∃ e', n'.conns h = some e' ∧ e'.conn.id = e.conn.id ∧
      e'.conn.remoteRecipient = e.conn.remoteRecipient ∧ e'.conn.peerId = e.conn.peerId := by
  have hm := moves_steps hp hs e.conn.id
  have hc := hp.back he
  obtain ⟨e', he', hrem, hpeer, -⟩ := hm.endAt (endAt_eq_some_iff.mpr ⟨h, hc, he⟩)
  obtain ⟨k, hk, hke⟩ := endAt_eq_some_iff.mp he'
  rw [hm.connections hp hc] at hk
  cases hk
  obtain ⟨e'', he'', hid⟩ := (placed_steps hp hs).conn (hm.connections hp hc)
  rw [hke] at he''
  cases he''
  exact ⟨e', hke, hid, hrem, hpeer⟩

theorem placed_run {selfAddress : R} {peerId : P} {outboundTx : Chan (OutboundMessage P R)}
    {n : Node P R} {as : List (Answer P)} {ops : List (Op P R)}
    (h : run step (Node.new selfAddress peerId outboundTx) ops = .ok (n, as)) : n.Placed := by
  refine run_induction (I := fun _ _ m => m.Placed) (placed_new _ _ _) ?_ h
  exact fun xs es m o t e _ hp hs => placed_steps hp (steps_of_step hs)

end Node

end Libp2pNym
