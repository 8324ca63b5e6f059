import Libp2pNym.Network.Equiv.Stream
import Libp2pNym.Stack.Equiv.Delivery

/-!
# The byte stream through the whole program

`byte_stream_stack`: what an application reads from a substream, over the connection, the transport,
the mixnet task, two websockets and the mixnet, is a prefix of what was written at the other end; it
has read or can read all of it once the transport there has handled every message.
-/

namespace Libp2pNym

open StepRun

variable {P R : Type}

/-- The transport messages of an endpoint are for its connection. -/
theorem Outbox.Stamped.id_of_mem {o : Outbox P R} {recipient : R} {id : ConnectionId} {refused : ℕ}
    (h : o.Stamped recipient id refused) {m : TransportMessage} (hm : m ∈ o.transported) :
    m.id = id := by
  obtain ⟨out, hout, heq⟩ := List.mem_filterMap.mp hm
  obtain ⟨msg, rfl, hid⟩ := h.shape out hout
  cases heq
  exact hid

/-! ### Short reads and refused closes -/

namespace Network

theorem readsShort_eq : (readsShort : Network P R → Op P R → Bool)
    = holdsAt fun _ => Endpoint.readsShort := by
  funext net o
  cases o with
  | conn a h o =>
    cases he : (net a).conns h <;> simp only [readsShort, holdsAt, he]
  | _ => rfl

variable [DecidableEq R]

/-- The operation at a connection of `b` is a refused close on the connection `c` of `a`. -/
def closesAgain (a : R) (c : ConnectionId) (b : R) (e : Endpoint P R) (o : Endpoint.Op) : Bool :=
  decide (b = a ∧ e.conn.id = c) && e.refusesClose o

theorem refusesAt_eq (a : R) (c : ConnectionId) :
    (refusesAt a c : Network P R → Op P R → Bool) = holdsAt (closesAgain a c) := by
  funext net o
  cases o with
  | conn b h o =>
    cases he : (net b).conns h <;> simp only [refusesAt, holdsAt, closesAgain, he]
  | _ => rfl

end Network

namespace Stack

/-- The operation is a read that is short. -/
def readsShort : Stack P R → Op P R → Bool := holdsAt fun _ => Endpoint.readsShort

variable [DecidableEq R]

/-- The operation is a refused close on the connection `c` of the host `a`. -/
def refusesAt (a : R) (c : ConnectionId) : Stack P R → Op P R → Bool :=
  holdsAt (Network.closesAgain a c)

/-- The bytes that the reads of a substream have returned, in order: of the one with the handle `k`
of the connection with the handle `h` of the host `a`. -/
def readFrom (a : R) (h k : ℕ) : List (Op P R) → List (Host.Answer P) → Bytes :=
  collect (Endpoint.readIn k) a h

section

variable {g : Gateway R} {t : ThirdParty P R} {f : AddressFormat R} {peerIds : R → P}
  {ops : List (Op P R)} {as : List (Host.Answer P)} {s : Stack P R}

/-- **The byte stream from one application to another.**  In every run of any number of hosts with
fresh ids and fewer than `2 ^ 64 - 1` operations in which no read is short, whatever the mixnet does
to the frames and however tasks and transports are polled: what an application has read from a
substream, what is left unread there and what waits in its channel is a prefix of the bytes that
were accepted by the substream with its id at the other end of the connection, at another host.  It
is all of them when no close was refused there, the transport has handled every message of the other
end, which were polled, and the substream is open. -/
theorem byte_stream_stack (ht : t.Canonical) (hdial : (dialed ops).Nodup)
    (hgen : (generated ops).Nodup) (hlen : ops.length < 2 ^ 64 - 1)
    (hwhole : count readsShort (step g t f peerIds) new ops = 0)
    (hrun : run (step g t f peerIds) new ops = .ok (s, as)) {a b : R} {la lb : Listener P R}
    {ta tb : MixnetTask P R} (hab : a ≠ b) (ha : s a = .running la ta) (hb : s b = .running lb tb)
    {c : ConnectionId} {h j : ℕ} {e e' : Endpoint P R}
    (hc : la.node.transport.connections c = some h) (he : la.node.conns h = some e)
    (hc' : lb.node.transport.connections c = some j) (he' : lb.node.conns j = some e') {k k' : ℕ}
    {sub sub' : Substream R} (hk : e'.substreams k = some sub) (hk' : e.substreams k' = some sub')
    (hid : sub'.substreamId = sub.substreamId) :
    readFrom b j k ops as ++ sub.unreadData ++ sub.inboundRx.queue.flatten
      <+: (accepted a h k' ops as).flatten ∧
    (e'.Alive → sub.inboundRx.rxAlive = true → sub'.closed = false →
      count (refusesAt a c) (step g t f peerIds) new ops = 0 →
      (∀ m ∈ e.outbox.transported, ⟨.transportMessage m⟩ ∈ lb.inboundStream.got) →
      e'.conn.inboundRx.queue = [] →
      readFrom b j k ops as ++ sub.unreadData ++ sub.inboundRx.queue.flatten
        = (accepted a h k' ops as).flatten) := by
  obtain ⟨nops, nas, net, hn, hm⟩ := matches_run ht hrun
  have hle := hm.length_le a
  have hspare : Always (fun xs _ net => Network.Spared t peerIds xs net) (Network.step t)
      (Network.new peerIds) nops := Network.spared_of_length ht.toRoundTrips (by omega)
  obtain ⟨hd, hi⟩ := hm.inv ht.toRoundTrips hn hdial hgen (by omega)
  have hgen' := hm.generated.nodup hgen
  have hwhole' : count Network.readsShort (Network.step t) (Network.new peerIds) nops = 0 := by
    rw [Network.readsShort_eq]
    exact Nat.le_zero.mp ((hm.counted _).trans hwhole.le)
  have hserved := Network.served_run ht.toRoundTrips hd hgen' hspare hwhole' hn
  have hh := Network.handed_run ht.toRoundTrips hd hgen' hspare hn
  have hra := (hm.runs ha).node
  have hrb := (hm.runs hb).node
  -- the network has read and accepted the same
  have hread : Network.readFrom b j k nops nas = readFrom b j k ops as := hm.collected _ b j
  have haccepted : Network.accepted a h k' nops nas = accepted a h k' ops as := by
    rw [accepted_eq_collect]
    exact hm.collected _ a h
  have hbytes := hi.bytes hd hh hserved hab (hra ▸ hc) (hra ▸ he) (hrb ▸ hc') (hrb ▸ he') hk hk' hid
  rw [hread, haccepted] at hbytes
  refine ⟨hbytes.1, fun hal hrx hopen hrefused hall hq => hbytes.2 hal hrx hopen ?_ ?_ hq⟩
  · rw [Network.refusesAt_eq]
    exact Nat.le_zero.mp ((hm.counted _).trans hrefused.le)
  · -- what the transport has handled was delivered to it
    intro m hmem
    have hidm := (hi.ends (hra ▸ hc) (hra ▸ he)).stamped.id_of_mem hmem
    rw [hm.handed, hb]
    refine List.mem_flatMap.mpr ⟨_, hall m hmem, ?_⟩
    rw [Node.arrivedIn, if_pos hidm]
    exact List.mem_singleton_self m

end

/-- The second host has read the first of two buffers. -/
def sampleRead : List (Op RawPeerId RawRecipient) := sampleTalk ++
  [.host (.fill 10) (.conn 0 .pollInbound), .host (.fill 10) (.conn 0 (.read 0 [0]))]

set_option maxRecDepth 4000 in
/-- The other one waits in the channel of the substream. -/
theorem byte_stream_sampleStack : ∃ s as lb tb e' sub,
    run (step sampleGateway .raw Listener.sampleFormat samplePeers) new sampleRead = .ok (s, as) ∧
      s (.fill 10) = .running lb tb ∧ lb.node.conns 0 = some e' ∧ e'.substreams 0 = some sub ∧
      readFrom (.fill 10) 0 0 sampleRead as = [1] ∧
      readFrom (.fill 10) 0 0 sampleRead as ++ sub.unreadData ++ sub.inboundRx.queue.flatten
        = (accepted (.fill 9) 0 0 sampleRead as).flatten := by
  have hstate : ∃ s as la ta lb tb e e' sub sub',
      run (step sampleGateway .raw Listener.sampleFormat samplePeers) new sampleRead
        = .ok (s, as) ∧ s (.fill 9) = .running la ta ∧ s (.fill 10) = .running lb tb ∧
      la.node.transport.connections ⟨.fill 5⟩ = some 0 ∧ la.node.conns 0 = some e ∧
      lb.node.transport.connections ⟨.fill 5⟩ = some 0 ∧ lb.node.conns 0 = some e' ∧
      e'.substreams 0 = some sub ∧ e.substreams 0 = some sub' ∧
      sub'.substreamId = sub.substreamId ∧ e'.Alive ∧ sub.inboundRx.rxAlive = true ∧
      sub'.closed = false ∧ e'.conn.inboundRx.queue = [] ∧
      readFrom (.fill 10) 0 0 sampleRead as = [1] ∧
      e.outbox.transported = [⟨1, ⟨⟨.fill 6⟩, .openRequest⟩, ⟨.fill 5⟩⟩,
        ⟨2, ⟨⟨.fill 6⟩, .data [1]⟩, ⟨.fill 5⟩⟩, ⟨3, ⟨⟨.fill 6⟩, .data [2]⟩, ⟨.fill 5⟩⟩] ∧
      lb.inboundStream.got.tail = [⟨.transportMessage ⟨3, ⟨⟨.fill 6⟩, .data [2]⟩, ⟨.fill 5⟩⟩⟩,
        ⟨.transportMessage ⟨2, ⟨⟨.fill 6⟩, .data [1]⟩, ⟨.fill 5⟩⟩⟩,
        ⟨.transportMessage ⟨3, ⟨⟨.fill 6⟩, .data [2]⟩, ⟨.fill 5⟩⟩⟩,
        ⟨.transportMessage ⟨1, ⟨⟨.fill 6⟩, .openRequest⟩, ⟨.fill 5⟩⟩⟩] :=
    ⟨_, _, _, _, _, _, _, _, _, _, rfl, rfl, rfl, rfl, rfl, rfl, rfl, rfl, rfl, rfl, rfl, rfl, rfl,
      rfl, rfl, rfl, rfl⟩
  obtain ⟨s, as, la, ta, lb, tb, e, e', sub, sub', hrun, ha, hb, hc, he, hc', he', hk, hk', hid,
    hal, hrx, hopen, hq, hread, hsent, hgot⟩ := hstate
  have hall : ∀ m ∈ e.outbox.transported, ⟨.transportMessage m⟩ ∈ lb.inboundStream.got := by
    intro m hm
    refine List.mem_of_mem_tail ?_
    rw [hgot]
    rw [hsent] at hm
    simp only [List.mem_cons, List.not_mem_nil, or_false] at hm
    rcases hm with rfl | rfl | rfl <;> simp
  have hbytes := (byte_stream_stack ThirdParty.raw_canonical (by decide) (by decide) (by decide) rfl
    hrun (by decide) ha hb hc he hc' he' hk hk' hid).2 hal hrx hopen rfl hall hq
  exact ⟨s, as, lb, tb, e', sub, hrun, hb, he', hk, hread, hbytes⟩

end Stack

end Libp2pNym
