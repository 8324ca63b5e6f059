import Libp2pNym.Transport.Basic

/-!
# The transport and its listener

`impl Transport for NymTransport` of `transport.rs`.  A `Listener` is a node with the other fields
of its transport: the address and the id of the listener, the inbound messages of the mixnet, and
the events for `Transport::poll`, on a channel whose halves are both held by the transport.  The
upgrades that `poll` has returned are the application's; they are kept here under their handles,
with the connections that the application was given.

`Multiaddr` and the textual form of a `Recipient` belong to other crates.  Wakers and the handshake
timeout are left out, as for the dials.  Nor is a future polled once it has ended, where the code
panics: such a poll is skipped here.
-/

namespace Libp2pNym

variable {P R : Type}

/-! ### Addresses -/

/-- A component of a multiaddress; `other` is any but the one for Nym addresses. -/
inductive Protocol where
  | nym (addr : String)
  | other (name : String)
  deriving DecidableEq, Repr

/-- A multiaddress, outermost protocol first. -/
abbrev Multiaddr := List Protocol

/-- What the transport uses of the crates that define `Recipient` and `Multiaddr`. -/
structure AddressFormat (R : Type) where
  /-- `Recipient::to_string` -/
  recipientToString : R → String
  /-- `Recipient::from_str` -/
  recipientFromStr : String → Option R
  /-- `Multiaddr::from_str` -/
  multiaddrFromStr : String → Option Multiaddr

/-- The variants of the crate's error type that come from addresses and from setting up a transport.
-/
inductive AddressError where
  | failedToFormatMultiaddr
  | invalidProtocolForMultiaddr
  | invalidRecipientBytes
  | sendErrorTransportEvent
  deriving DecidableEq, Repr

def nymAddressToMultiaddress (f : AddressFormat R) (addr : R) : Except AddressError Multiaddr :=
  match f.multiaddrFromStr ("/nym/" ++ f.recipientToString addr) with
  | some multiaddr => .ok multiaddr
  | none => .error .failedToFormatMultiaddr

/-- Only the last protocol of the address counts; an address without any makes `unwrap` panic. -/
def multiaddressToNymAddress (f : AddressFormat R) (multiaddr : Multiaddr) :
    Except Panic (Except AddressError R) :=
  match multiaddr.getLast? with
  | none => .error .unwrapNone
  | some (.nym addr) =>
    match f.recipientFromStr addr with
    | some recipient => .ok (.ok recipient)
    | none => .ok (.error .invalidRecipientBytes)
  | some (.other _) => .ok (.error .invalidProtocolForMultiaddr)

/-! ### The transport -/

/-- An event of `Transport::poll`. -/
inductive TransportEvent (P : Type) where
  | newAddress (listenerId : ℕ) (listenAddr : Multiaddr)
  | incoming (listenerId : ℕ) (upgrade : Upgrade P) (localAddr sendBackAddr : Multiaddr)
  | listenerClosed (listenerId : ℕ) (reason : Except Error Unit)
  | listenerError (listenerId : ℕ) (error : Error)

/-- A poll of the upgrade: it checks if the upgrade has turned into a connection yet. -/
def Upgrade.poll (upgrade : Upgrade P) : Upgrade P × Poll (Except Error (P × ℕ)) :=
  match upgrade.connectionTx.slot with
  | .sent v => ({ upgrade with connectionTx.slot := .closed }, .ready (.ok v))
  | .closed => (upgrade, .ready (.error .recvError))
  | .empty => (upgrade, .pending)

/-- A transport with its listener, and what the application has of it. -/
structure Listener (P R : Type) where
  node : Node P R
  listenAddr : Multiaddr
  listenerId : ℕ
  /-- Inbound mixnet messages. -/
  inboundStream : Chan (InboundMessage P R)
  /-- Events for `Transport::poll`. -/
  pollRx : Chan (TransportEvent P)
  /-- The upgrades that have neither ended nor been dropped. -/
  upgrades : KeyMap ℕ (Upgrade P)
  /-- The handle of the next upgrade. -/
  nextUpgrade : ℕ
  /-- The connections that upgrades and dials have given to the application, oldest first. -/
  taken : List ℕ

namespace Listener

/-- A new transport on what `initialize_mixnet` returned; `listenerId` is a new id. -/
def newMaybeWithNotifyInbound (f : AddressFormat R) (peerId : P) (selfAddress : R)
    (inboundRx : Chan (InboundMessage P R)) (outboundTx : Chan (OutboundMessage P R))
    (listenerId : ℕ) : Except AddressError (Listener P R) :=
  match nymAddressToMultiaddress f selfAddress with
  | .error e => .error e
  | .ok listenAddr =>
    match (Chan.new : Chan (TransportEvent P)).send (.newAddress listenerId listenAddr) with
    | none => .error .sendErrorTransportEvent
    | some pollRx =>
      .ok
        { node := Node.new selfAddress peerId outboundTx
          listenAddr := listenAddr
          listenerId := listenerId
          inboundStream := inboundRx
          pollRx := pollRx
          upgrades := KeyMap.empty
          nextUpgrade := 0
          taken := [] }

/-- The listener is there from the start, whatever address is given. -/
def listenOn (s : Listener P R) (_addr : Multiaddr) : ℕ := s.listenerId

/-- Tells of the end of the listener, which goes on as before. -/
def removeListener (s : Listener P R) (id : ℕ) : Except Panic (Listener P R × Bool) :=
  if s.listenerId ≠ id then .ok (s, false)
  else
    match s.pollRx.send (.listenerClosed id (.ok ())) with
    | none => .error .unwrapErr
    | some pollRx => .ok ({ s with pollRx := pollRx }, true)

/-- `dial`; the id is what `ConnectionId::generate` returned. -/
def dial (f : AddressFormat R) (s : Listener P R) (addr : Multiaddr) (id : ConnectionId) :
    Except Panic (Listener P R × Except AddressError ℕ) :=
  match multiaddressToNymAddress f addr with
  | .error p => .error p
  | .ok (.error e) => .ok (s, .error e)
  | .ok (.ok recipient) =>
    let r := s.node.dial recipient id
    .ok ({ s with node := r.1 }, .ok r.2)

/-- Currently just `dial`. -/
def dialAsListener (f : AddressFormat R) (s : Listener P R) (addr : Multiaddr) (id : ConnectionId) :
    Except Panic (Listener P R × Except AddressError ℕ) :=
  s.dial f addr id

/-- `while let Poll::Ready(Some(msg)) = self.inbound_stream.poll_next_unpin(cx)`: what is in the
channel is handled until an event comes out of it, at most `fuel` messages. -/
def pollInbound : ℕ → Listener P R → Except Panic (Listener P R × Poll (TransportEvent P))
  | 0, s => .ok (s, .pending)
  | fuel + 1, s =>
    match s.inboundStream.pollRecv with
    | (.pending, _) => .ok (s, .pending)
    | (.ready none, _) => .ok (s, .pending)
    | (.ready (some msg), rx) =>
      match s.node.handleInbound msg.message with
      | .error p => .error p
      | .ok (n, r) =>
        let s := { s with node := n, inboundStream := rx }
        match r with
        | .ok (.connectionRequest upgrade) =>
          .ok (s, .ready (.incoming s.listenerId upgrade s.listenAddr s.listenAddr))
        | .ok .connectionResponse => pollInbound fuel s
        | .ok .transportMessage => pollInbound fuel s
        | .error e => .ok (s, .ready (.listenerError s.listenerId e))

/-- `Transport::poll`: new addresses and listener close events first, then the inbound messages. -/
def poll (s : Listener P R) : Except Panic (Listener P R × Poll (TransportEvent P)) :=
  match s.pollRx.pollRecv with
  | (.ready (some res), rx) => .ok ({ s with pollRx := rx }, .ready res)
  | (.ready none, _) => s.pollInbound (s.inboundStream.queue.length + 1)
  | (.pending, _) => s.pollInbound (s.inboundStream.queue.length + 1)

/-! ### The transport as a system -/

/-- What the application is given when it polls: an upgrade to keep. -/
def keep (s : Listener P R) : Poll (TransportEvent P) → Listener P R
  | .ready (.incoming _ upgrade _ _) =>
    { s with
      upgrades := s.upgrades.insert s.nextUpgrade upgrade
      nextUpgrade := s.nextUpgrade + 1 }
  | .ready (.newAddress _ _) => s
  | .ready (.listenerClosed _ _) => s
  | .ready (.listenerError _ _) => s
  | .pending => s

/-- The connection that a future has given to the application. -/
def give (s : Listener P R) : Poll (Except Error (P × ℕ)) → Listener P R
  | .ready (.ok (_, h)) => { s with taken := s.taken ++ [h] }
  | .ready (.error _) => s
  | .pending => s

/-- A poll of the upgrade with the handle `u`, which is gone when it is ready. -/
def pollUpgrade (s : Listener P R) (u : ℕ) (upgrade : Upgrade P) :
    Listener P R × Poll (Except Error (P × ℕ)) :=
  match upgrade.poll with
  | (upgrade, .pending) => ({ s with upgrades := s.upgrades.insert u upgrade }, .pending)
  | (_, .ready r) => ({ s with upgrades := s.upgrades.remove u }.give (.ready r), .ready r)

/-- Dropping an upgrade drops the connection that waits in its channel. -/
def dropUpgrade (s : Listener P R) (u : ℕ) (upgrade : Upgrade P) : Listener P R :=
  match upgrade.connectionTx.slot with
  | .sent (_, h) => { s with node := s.node.dropConn h, upgrades := s.upgrades.remove u }
  | .closed => { s with upgrades := s.upgrades.remove u }
  | .empty => { s with upgrades := s.upgrades.remove u }

/-- What can happen at the transport: the mixnet task puts a message into the channel, or ends; the
application calls one of the methods of `Transport`; it polls or drops an upgrade or the future of a
dial, whose timeout has elapsed or not; or it drops a connection that it was given. -/
inductive Op (P R : Type) where
  | arrive (msg : InboundMessage P R)
  | endInbound
  | poll
  | listenOn (addr : Multiaddr)
  | removeListener (id : ℕ)
  | dial (addr : Multiaddr) (id : ConnectionId)
  | dialAsListener (addr : Multiaddr) (id : ConnectionId)
  | pollDial (d : ℕ) (elapsed : Bool)
  | dropDial (d : ℕ)
  | pollUpgrade (u : ℕ)
  | dropUpgrade (u : ℕ)
  | dropConn (h : ℕ)

/-- What an operation answers. -/
inductive Answer (P : Type) where
  | skip
  | done
  | poll (r : Poll (TransportEvent P))
  | listenOn (id : ℕ)
  | removeListener (closed : Bool)
  | dial (r : Except AddressError ℕ)
  | connection (r : Poll (Except Error (P × ℕ)))

/-- One operation. -/
def step (f : AddressFormat R) (s : Listener P R) : Op P R → Except Panic (Listener P R × Answer P)
  | .arrive msg =>
    if s.inboundStream.txAlive then
      match s.inboundStream.send msg with
      | none => .ok (s, .skip)
      | some rx => .ok ({ s with inboundStream := rx }, .done)
    else .ok (s, .skip)
  | .endInbound => .ok ({ s with inboundStream := s.inboundStream.dropTx }, .done)
  | .poll =>
    match s.poll with
    | .error p => .error p
    | .ok (s, r) => .ok (s.keep r, .poll r)
  | .listenOn addr => .ok (s, .listenOn (s.listenOn addr))
  | .removeListener id =>
    match s.removeListener id with
    | .error p => .error p
    | .ok (s, r) => .ok (s, .removeListener r)
  | .dial addr id =>
    match s.dial f addr id with
    | .error p => .error p
    | .ok (s, r) => .ok (s, .dial r)
  | .dialAsListener addr id =>
    match s.dialAsListener f addr id with
    | .error p => .error p
    | .ok (s, r) => .ok (s, .dial r)
  | .pollDial d elapsed =>
    match s.node.waiting d with
    | none => .ok (s, .skip)
    | some dial =>
      let r := s.node.pollDial d dial elapsed
      .ok ({ s with node := r.1 }.give r.2, .connection r.2)
  | .dropDial d =>
    match s.node.waiting d with
    | none => .ok (s, .skip)
    | some dial => .ok ({ s with node := s.node.dropDial d dial }, .done)
  | .pollUpgrade u =>
    match s.upgrades u with
    | none => .ok (s, .skip)
    | some upgrade =>
      let r := s.pollUpgrade u upgrade
      .ok (r.1, .connection r.2)
  | .dropUpgrade u =>
    match s.upgrades u with
    | none => .ok (s, .skip)
    | some upgrade => .ok (s.dropUpgrade u upgrade, .done)
  | .dropConn h =>
    if h ∈ s.taken then .ok ({ s with node := s.node.dropConn h }, .done) else .ok (s, .skip)

end Listener

end Libp2pNym
