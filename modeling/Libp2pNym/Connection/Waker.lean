import Libp2pNym.Connection.Basic

/-!
# The tasks that wait at an endpoint

A poll function that answers `Pending` has left the waker of its task with the channel that it has
polled, and the channel calls it when a value is sent or the last sender is gone.  `Waits` keeps
which tasks were answered `Pending` and not woken since.  Calls do not overlap: an operation is one
step, also for the tasks that hold the substreams.  The close signal of a substream is only tried
for, which leaves no waker there.  The waker that `poll` keeps in the connection, to be called
by `new_substream`, only wakes more and is left out.
-/

namespace Libp2pNym

variable {P R : Type}

/-- The poll functions of a connection and its substreams that a task waits for: a read is kept with
the length of its buffer. -/
structure Waits where
  poll : Bool
  inbound : Bool
  close : Bool
  read : ℕ → Option ℕ

namespace Waits

def new : Waits where
  poll := false
  inbound := false
  close := false
  read _ := none

/-- The channels call the wakers that were left with them. -/
def woken (w : Waits) (e e' : Endpoint P R) : Waits where
  poll := w.poll && !e.conn.inboundRx.wakes e'.conn.inboundRx
  inbound := w.inbound && !e.conn.inboundOpen.wakes e'.conn.inboundOpen
  close := w.close && !e.conn.closeIds.wakes e'.conn.closeIds
  read k :=
    match e.substreams k, e'.substreams k with
    | some sub, some sub' => if sub.inboundRx.wakes sub'.inboundRx then none else w.read k
    | _, _ => none

/-- The task of a poll function that has answered `Pending` waits, and any other does not. -/
def answered (w : Waits) : Endpoint.Op → Endpoint.Answer → Waits
  | .poll, .poll r => { w with poll := r.isPending }
  | .pollInbound, .pollInbound r => { w with inbound := r.isPending }
  | .pollClose, .pollClose r => { w with close := r.isPending }
  | .read h buf, .read _ r =>
    { w with read := Function.update w.read h (if r.isPending then some buf.length else none) }
  | _, _ => w

end Waits

/-- One operation at the endpoint, with the tasks that wait there. -/
def Endpoint.stepWaits (s : Endpoint P R × Waits) (o : Endpoint.Op) :
    Except Panic ((Endpoint P R × Waits) × Endpoint.Answer) :=
  match s.1.step o with
  | .error p => .error p
  | .ok (e, a) => .ok ((e, (s.2.woken s.1 e).answered o a), a)

end Libp2pNym
