import Libp2pNym.Connection.Basic

/-!
# Two connections that deliver to each other

The two ends of one established connection.  Each end hears what the other has sent in the order in
which it was sent, which is the order of the nonces, and at any time only a part of it.
-/

namespace Libp2pNym

variable {P R : Type}

/-- The two ends of a connection. -/
inductive Side where
  | left
  | right
  deriving DecidableEq, Repr

/-- The other end. -/
def Side.peer : Side → Side
  | .left => .right
  | .right => .left

@[simp] theorem Side.peer_peer (x : Side) : x.peer.peer = x := by cases x <;> rfl

theorem Side.peer_ne (x : Side) : x.peer ≠ x := by cases x <;> exact Side.noConfusion

theorem Side.eq_peer_of_ne {x y : Side} (h : y ≠ x) : y = x.peer := by
  cases x <;> cases y <;> first | rfl | exact absurd rfl h

/-- The endpoints at the two ends. -/
abbrev Pair (P R : Type) := Side → Endpoint P R

namespace Pair

/-- Two new connections with the same id, each with the peer id and the address of the other end. -/
def new (peerIds : Side → P) (addresses : Side → R) (id : ConnectionId) : Pair P R :=
  fun x => Endpoint.new (peerIds x.peer) (addresses x.peer) id Chan.new

/-- An operation of the application at one end, or the delivery of the next message to one end. -/
inductive Op where
  | act (x : Side) (o : Endpoint.Op)
  | deliver (x : Side)

/-- The next message that the end `x` has not received yet. -/
def nextFor (p : Pair P R) (x : Side) : Option SubstreamMessage :=
  (p x.peer).sent[(p x).conn.inboundRx.log.length]?

/-- The operation at the end `x`. -/
def stepAt (p : Pair P R) (x : Side) (o : Endpoint.Op) :
    Except Panic (Pair P R × Endpoint.Answer) :=
  match (p x).step o with
  | .error panic => .error panic
  | .ok (e, a) => .ok (Function.update p x e, a)

/-- One operation; messages are received only by delivery. -/
def step (p : Pair P R) : Op → Except Panic (Pair P R × Endpoint.Answer)
  | .act _ (.receive _) => .ok (p, .skip)
  | .act x o => p.stepAt x o
  | .deliver x =>
    match p.nextFor x with
    | none => .ok (p, .skip)
    | some msg => p.stepAt x (.receive msg)

/-- The substream ids that `SubstreamId::generate` has returned in a run. -/
def generated (ops : List Op) : List SubstreamId :=
  ops.filterMap fun o =>
    match o with
    | .act _ (.pollOutbound s) => some s
    | _ => none

end Pair

end Libp2pNym
