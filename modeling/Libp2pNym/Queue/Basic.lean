import Libp2pNym.Lib.BTreeSet
import Libp2pNym.Message.Basic
import Mathlib.Order.Nat

/-!
# The reorder queue of a connection

`MessageQueue` of `queue.rs`: messages, ordered by nonce, that were received but cannot be
processed yet because a message with the next expected nonce has to come first.
-/

namespace Libp2pNym

/-- `Ord for TransportMessage` compares nonces. -/
def TransportMessage.key (msg : TransportMessage) : ℕ := msg.nonce.toNat

structure MessageQueue where
  /-- Nonce of the next message we expect to receive on the connection. -/
  nextExpectedNonce : UInt64
  /-- The actual queue of messages, ordered by nonce. -/
  queue : BTreeSet TransportMessage.key

namespace MessageQueue

def new : MessageQueue where
  nextExpectedNonce := 0
  queue := BTreeSet.empty

/-- Sets the next expected nonce to 1, indicating that we've received a `ConnectionRequest` or
`ConnectionResponse`. -/
def setConnectionMessageReceived (q : MessageQueue) : Except Panic MessageQueue :=
  if q.nextExpectedNonce ≠ 0 then .error .connectionMessageReceivedTwice
  else .ok { q with nextExpectedNonce := q.nextExpectedNonce + 1 }

/-- Tries to push a message into the queue.  If the message has the next expected nonce, it is
returned and the next expected nonce is incremented; otherwise it is queued, unless its nonce is
too low or taken. -/
def tryPush (q : MessageQueue) (msg : TransportMessage) :
    Option TransportMessage × MessageQueue :=
  if msg.nonce = q.nextExpectedNonce then
    (some msg, { q with nextExpectedNonce := q.nextExpectedNonce + 1 })
  else if msg.nonce < q.nextExpectedNonce then (none, q)
  else (none, { q with queue := (q.queue.insert msg).2 })

/-- The head of the queue, if it has the next expected nonce. -/
def pop (q : MessageQueue) : Option TransportMessage × MessageQueue :=
  match q.queue.first with
  | none => (none, q)
  | some head =>
    if head.nonce = q.nextExpectedNonce then
      (q.queue.popFirst.1,
        { nextExpectedNonce := q.nextExpectedNonce + 1, queue := q.queue.popFirst.2 })
    else (none, q)

/-- How many messages are queued: a bound on how often `pop` can succeed. -/
def size (q : MessageQueue) : ℕ := q.queue.elems.length

end MessageQueue

end Libp2pNym
