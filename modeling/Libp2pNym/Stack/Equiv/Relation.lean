import Libp2pNym.Mixnet.Equiv.Setup
import Libp2pNym.Stack.Basic
import Libp2pNym.Stack.Equiv.Wire
import Libp2pNym.Transport.Equiv.Events
import Mathlib.Data.Multiset.Count

/-!
# How the hosts are tied to the network of their transports

`Matches` ties a run of the hosts to a run of the network in which their transports exchange
messages without websockets, channels and tasks.  The two sides of every channel agree, and whatever
is on its way between two hosts, as a frame, as a message of a task or as one for a transport, was
sent in the network.
-/

namespace Libp2pNym

open StepRun

variable {P R : Type}

/-! ### Histories -/

/-- The operation is one at a connection, where `p` holds of it. -/
def Network.holdsAt (p : R → Endpoint P R → Endpoint.Op → Bool) (net : Network P R) :
    Network.Op P R → Bool
  | .conn a h o =>
    match (net a).conns h with
    | none => false
    | some e => p a e o
  | _ => false

namespace Stack

/-- The operation is one at a connection that the application was given, where `p` holds of it. -/
def holdsAt (p : R → Endpoint P R → Endpoint.Op → Bool) (s : Stack P R) : Op P R → Bool
  | .host a (.conn h o) =>
    match s a with
    | .running l _ =>
      match l.node.conns h with
      | none => false
      | some e => decide (h ∈ l.taken) && p a e o
    | _ => false
  | _ => false

section

variable [DecidableEq R] {α : Type} (k : Endpoint.Op → Endpoint.Answer → List α)

/-- What `k` reads off an operation at the connection with the handle `h` of the host `a`. -/
def collectAt (a : R) (h : ℕ) : Op P R → Host.Answer P → List α
  | .host b (.conn j o), .conn r => if b = a ∧ j = h then k o r else []
  | _, _ => []

/-- What `k` reads off the operations at that connection, in order. -/
def collect (a : R) (h : ℕ) (ops : List (Op P R)) (as : List (Host.Answer P)) : List α :=
  (ops.zip as).flatMap fun oa => collectAt k a h oa.1 oa.2

/-- What the operation has dialed at the host `a`, which answers if it runs. -/
def dialsOf (f : AddressFormat R) (a : R) : Op P R → Host.Answer P → List (R × ConnectionId)
  | .host b (.app o), .app _ => if b = a then Listener.dialedAt f o else []
  | _, _ => []

/-- What the host `a` has dialed, in order: its dial with the handle `d` is the `d`-th of them. -/
def dialsAt (f : AddressFormat R) (a : R) (ops : List (Op P R)) (as : List (Host.Answer P)) :
    List (R × ConnectionId) :=
  (ops.zip as).flatMap fun oa => dialsOf f a oa.1 oa.2

theorem dialsAt_snoc {ops : List (Op P R)} {as : List (Host.Answer P)}
    (hlen : as.length = ops.length) (f : AddressFormat R) (a : R) (o : Op P R)
    (r : Host.Answer P) :
    dialsAt f a (ops ++ [o]) (as ++ [r]) = dialsAt f a ops as ++ dialsOf f a o r :=
  flatMap_zip_snoc _ hlen o r

theorem collect_snoc {ops : List (Op P R)} {as : List (Host.Answer P)}
    (hlen : as.length = ops.length) (a : R) (h : ℕ) (o : Op P R) (r : Host.Answer P) :
    collect k a h (ops ++ [o]) (as ++ [r]) = collect k a h ops as ++ collectAt k a h o r :=
  flatMap_zip_snoc _ hlen o r

end

/-- The connection ids that `ConnectionId::generate` has returned in a run. -/
def dialed (ops : List (Op P R)) : List ConnectionId :=
  ops.filterMap fun o =>
    match o with
    | .host _ (.app (.dial _ id)) => some id
    | .host _ (.app (.dialAsListener _ id)) => some id
    | _ => none

/-- The substream ids that `SubstreamId::generate` has returned in a run. -/
def generated (ops : List (Op P R)) : List SubstreamId :=
  ops.filterMap fun o =>
    match o with
    | .host _ (.conn _ (.pollOutbound s)) => some s
    | _ => none

/-- Fresh ids are fresh in every part of a run. -/
theorem nodup_dialed_of_append {ops ops' : List (Op P R)} (h : (dialed (ops ++ ops')).Nodup) :
    (dialed ops).Nodup :=
  h.sublist ((List.sublist_append_left ops ops').filterMap _)

theorem nodup_generated_of_append {ops ops' : List (Op P R)}
    (h : (generated (ops ++ ops')).Nodup) : (generated ops).Nodup :=
  h.sublist ((List.sublist_append_left ops ops').filterMap _)

/-! ### The relation -/

/-- A message in the frame was sent to the host `a`, and an address in it is that of `a`. -/
def Genuine (g : Gateway R) (t : ThirdParty P R) (net : Network P R) (a : R)
    (res : Except Unit WsMessage) : Prop :=
  ∀ msg, res = .ok msg →
    (∀ bytes, parseNymMessage g.toNymClient msg = .ok (.received bytes) →
      ∃ b h m, m ∈ Network.sentFrom (net b) h ∧ m.recipient = a ∧ m.message.toBytes t = bytes) ∧
    ∀ recipient, selfAddressIn g.toNymSetup msg = some recipient → recipient = a

/-- What ties a host that runs to the transport `a` of the network: the two sides of a channel
agree, and what comes and goes was sent in the network. -/
structure Runs (g : Gateway R) (t : ThirdParty P R) (net : Network P R) (a : R) (l : Listener P R)
    (task : MixnetTask P R) : Prop where
  node : net a = l.node
  inbound : task.inbound.inboundTx = l.inboundStream
  isOpen : task.inbound.Open
  events : l.pollRx.rxAlive = true
  frames : ∀ res ∈ task.inbound.stream.queue, Genuine g t net a res
  waiting : ∀ msg ∈ l.inboundStream.queue, Network.Deliverable t net a msg
  writes : task.outbound.Writes g.toNymClient t [g.selfAddressRequest]
  sent : ∀ m, m ∈ task.outbound.outboundRx.log ↔ ∃ h, m ∈ Network.sentFrom (net a) h

/-- What ties a host to the transport `a` of the network.  One that does not run has a new
transport. -/
def Hosts (g : Gateway R) (t : ThirdParty P R) (peerIds : R → P) (net : Network P R) (a : R) :
    Host P R → Prop
  | .starting s => net a = Network.new peerIds a ∧ s.Reads g.toNymSetup ∧
      ∀ res ∈ s.stream.log, Genuine g t net a res
  | .running l task => Runs g t net a l task
  | .failed _ => net a = Network.new peerIds a

/-- How many messages wait for the transport of the host. -/
def waiting : Host P R → ℕ
  | .starting _ => 0
  | .running l _ => l.inboundStream.queue.length
  | .failed _ => 0

/-- The messages that the transport of the host has handled, in order. -/
def handled : Host P R → List (InboundMessage P R)
  | .starting _ => []
  | .running l _ => l.inboundStream.got
  | .failed _ => []

/-- What ties a run of the hosts to a run of the network.  `Q` has every host as often as messages
wait for it, so that a message is counted before it is delivered. -/
structure Matches [DecidableEq R] (g : Gateway R) (t : ThirdParty P R) (f : AddressFormat R)
    (peerIds : R → P) (ops : List (Op P R)) (as : List (Host.Answer P)) (s : Stack P R)
    (nops : List (Network.Op P R)) (nas : List (Network.Answer P)) (net : Network P R) : Prop where
  hosts : ∀ a, Hosts g t peerIds net a (s a)
  collected : ∀ {α : Type} (k : Endpoint.Op → Endpoint.Answer → List α) a h,
    Network.collect k a h nops nas = collect k a h ops as
  counted : ∀ p, count (Network.holdsAt p) (Network.step t) (Network.new peerIds) nops
    ≤ count (holdsAt p) (step g t f peerIds) new ops
  handed : ∀ a c, Network.delivered t peerIds a c nops = Network.arrivals c (handled (s a))
  dials : ∀ a, Network.dialsAt a nops = dialsAt f a ops as
  dialed : (Network.dialed nops).Sublist (dialed ops)
  generated : (Network.generated nops).Sublist (generated ops)
  bounded : ∃ Q : Multiset R, (∀ a, Q.count a = waiting (s a)) ∧
    nops.length + Multiset.card Q ≤ ops.length

section

variable {g : Gateway R} {t : ThirdParty P R} {peerIds : R → P} {net net' : Network P R} {a : R}

theorem mem_websocketFrame {stream : Chan (Except Unit WsMessage)}
    {res res' : Except Unit WsMessage}
    (h : res' ∈ (websocketFrame stream res).queue) : res' ∈ stream.queue ∨ res' = res := by
  unfold websocketFrame at h
  split at h
  · rcases List.mem_append.mp h with h | h
    · exact Or.inl h
    · exact Or.inr (List.mem_singleton.mp h)
  · exact Or.inl h

theorem got_websocketFrame (stream : Chan (Except Unit WsMessage)) (res : Except Unit WsMessage) :
    (websocketFrame stream res).got = stream.got := by
  unfold websocketFrame
  split <;> rfl

/-- A transport that was just made has sent nothing. -/
theorem sentFrom_new (a : R) (k : Option ℕ) :
    Network.sentFrom (Network.new peerIds a) k = [] := by
  cases k <;> rfl

theorem hosts_new (a : R) : Hosts g t peerIds (Network.new peerIds) a (Host.new : Host P R) := by
  refine ⟨rfl, ⟨fun res hres => ?_, rfl⟩, fun res hres => ?_⟩
  · cases hres
  · cases hres

theorem log_follow (task : MixnetTask P R) (rx : Chan (InboundMessage P R))
    (ms : List (OutboundMessage P R)) :
    (task.follow rx ms).outbound.outboundRx.log = task.outbound.outboundRx.log ++ ms :=
  (List.append_assoc ..).symm

/-- What goes to the task is what was sent besides what it has. -/
theorem mem_sent {n n' : Node P R} {log : List (OutboundMessage P R)} (k₀ : Option ℕ)
    (hlog : ∀ m, m ∈ log ↔ ∃ k, m ∈ Network.sentFrom n k)
    (hpre : Network.sentFrom n k₀ <+: Network.sentFrom n' k₀)
    (hsame : ∀ k, k ≠ k₀ → Network.sentFrom n' k = Network.sentFrom n k) (m : OutboundMessage P R) :
    m ∈ log ++ (Network.sentFrom n' k₀).drop (Network.sentFrom n k₀).length ↔
      ∃ k, m ∈ Network.sentFrom n' k := by
  obtain ⟨new, hnew⟩ := hpre
  rw [← hnew, List.drop_left, List.mem_append, hlog]
  constructor
  · rintro (⟨k, hm⟩ | hm)
    · by_cases hk : k = k₀
      · subst hk
        exact ⟨k, hnew ▸ List.mem_append_left _ hm⟩
      · exact ⟨k, (hsame k hk).symm ▸ hm⟩
    · exact ⟨k₀, hnew ▸ List.mem_append_right _ hm⟩
  · rintro ⟨k, hm⟩
    by_cases hk : k = k₀
    · subst hk
      rw [← hnew] at hm
      rcases List.mem_append.mp hm with hm | hm
      · exact Or.inl ⟨k, hm⟩
      · exact Or.inr hm
    · rw [hsame k hk] at hm
      exact Or.inl ⟨k, hm⟩

theorem dialedAt_sublist (f : AddressFormat R) (a : R) (o : Listener.Op P R) :
    ((Listener.dialedAt f o).map Prod.snd).Sublist (dialed [.host a (.app o)]) := by
  cases o with
  | dial addr id | dialAsListener addr id =>
    simp only [Listener.dialedAt]
    split
    · exact List.Sublist.refl [id]
    · exact List.nil_sublist _
  | _ => exact List.nil_sublist _

theorem Genuine.mono {res : Except Unit WsMessage} (h : Genuine g t net a res)
    (hg : Network.Grown net net') : Genuine g t net' a res := by
  intro msg hmsg
  obtain ⟨hbytes, haddr⟩ := h msg hmsg
  refine ⟨fun bytes hparse => ?_, haddr⟩
  obtain ⟨b, k, m, hm, hrest⟩ := hbytes bytes hparse
  exact ⟨b, k, m, hg b k m hm, hrest⟩

/-- A frame that is taken gives a message that can be delivered, or none. -/
theorem Genuine.deliverable {res : Except Unit WsMessage} (h : Genuine g t net a res)
    {msg : InboundMessage P R} (hd : decodeFrame g.toNymClient t res = some msg) :
    Network.Deliverable t net a msg := by
  cases res with
  | error e => cases hd
  | ok raw =>
    obtain ⟨hbytes, -⟩ := h raw rfl
    simp only [decodeFrame] at hd
    cases hparse : parseNymMessage g.toNymClient raw with
    | error e =>
      rw [hparse] at hd
      cases hd
    | ok response =>
      rw [hparse] at hd
      cases response with
      | error text => cases hd
      | other => cases hd
      | received bytes =>
        obtain ⟨b, k, m, hm, hrec, rfl⟩ := hbytes bytes hparse
        refine ⟨b, k, m, hm, hrec, ?_⟩
        have hdecode : (parseMessageData t (m.message.toBytes t)).toOption = some msg := hd
        cases hdata : parseMessageData t (m.message.toBytes t) with
        | error e =>
          rw [hdata] at hdecode
          cases hdecode
        | ok data =>
          rw [hdata] at hdecode
          cases hdecode
          rfl

/-- What a host is to its transport stays while others move. -/
theorem Hosts.mono {host : Host P R} (h : Hosts g t peerIds net a host)
    (hg : Network.Grown net net') (ha : net' a = net a) : Hosts g t peerIds net' a host := by
  cases host with
  | starting s =>
    obtain ⟨hnew, hreads, hframes⟩ := h
    exact ⟨ha.trans hnew, hreads, fun res hres => (hframes res hres).mono hg⟩
  | running l task =>
    refine ⟨ha.trans h.node, h.inbound, h.isOpen, h.events, fun res hres => ?_, fun msg hmsg => ?_,
      h.writes, ?_⟩
    · exact (h.frames res hres).mono hg
    · exact (h.waiting msg hmsg).mono hg
    · rw [ha]
      exact h.sent
  | failed e => exact ha.trans h

/-- The frames of a host are the request for its address and frames for what its transport has
sent. -/
theorem Hosts.sink {host : Host P R} (h : Hosts g t peerIds net a host) {frame : Bytes}
    (hf : frame ∈ host.sink) : frame = g.selfAddressRequest ∨
      ∃ k m, m ∈ Network.sentFrom (net a) k ∧ frame = nymPacket g.toNymClient t m := by
  cases host with
  | starting s =>
    left
    obtain ⟨-, hreads, -⟩ := h
    have hsink : frame ∈ s.sink := hf
    rw [hreads.request] at hsink
    split at hsink
    · cases hsink
    · exact List.mem_singleton.mp hsink
  | running l task =>
    obtain ⟨ms, hsink, hsub⟩ := h.writes
    have hmem : frame ∈ task.outbound.sink := hf
    rw [hsink] at hmem
    rcases List.mem_append.mp hmem with hmem | hmem
    · exact Or.inl (List.mem_singleton.mp hmem)
    · obtain ⟨m, hm, rfl⟩ := List.mem_map.mp hmem
      have hgot := hsub.subset (List.mem_append_left _ hm)
      obtain ⟨k, hk⟩ := (h.sent m).mp (List.mem_append_left _ hgot)
      exact Or.inr ⟨k, m, hk, rfl⟩
  | failed e => cases hf

end

end Stack

end Libp2pNym
