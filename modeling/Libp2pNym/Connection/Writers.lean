import Libp2pNym.Connection.Basic

/-!
# Tasks that send over one connection

A connection and its substreams share the counter of nonces and the channel to the mixnet, and may
be used by tasks that run at the same time.  A call that sends draws its nonce with `fetch_add`, and
then puts the message on the channel, or gives the nonce up (`poll_close` of a substream that is
already closed).  Elsewhere a call is one step; here the steps of other tasks come in between.
-/

namespace Libp2pNym

variable {P R : Type}

/-- The shared outbox, and the nonces that tasks have drawn and not used yet. -/
structure Writers (P R : Type) where
  outbox : Outbox P R
  drawn : KeyMap ℕ UInt64

namespace Writers

def new (outbox : Outbox P R) : Writers P R where
  outbox := outbox
  drawn := KeyMap.empty

/-- A step of the task `i`. -/
inductive Op where
  | draw (i : ℕ)
  | send (i : ℕ) (msg : SubstreamMessage)
  | giveUp (i : ℕ)

/-- One step; a task draws no second nonce before it has used the first, and sends nothing without
one.  A message that cannot be sent is lost. -/
def step (recipient : R) (id : ConnectionId) (w : Writers P R) : Op → Writers P R
  | .draw i =>
    match w.drawn i with
    | some _ => w
    | none =>
      let (nonce, outbox) := w.outbox.fetchAdd
      { outbox := outbox, drawn := w.drawn.insert i nonce }
  | .send i msg =>
    match w.drawn i with
    | none => w
    | some nonce =>
      match w.outbox.send recipient { nonce := nonce, id := id, message := msg } with
      | none => { w with drawn := w.drawn.remove i }
      | some outbox => { outbox := outbox, drawn := w.drawn.remove i }
  | .giveUp i => { w with drawn := w.drawn.remove i }

def run (recipient : R) (id : ConnectionId) (w : Writers P R) (ops : List Op) : Writers P R :=
  ops.foldl (step recipient id) w

/-- What the task `i` does with the nonce that it has drawn: the message that it sends, if any. -/
def outcome (i : ℕ) : List Op → Option SubstreamMessage
  | [] => none
  | .draw _ :: ops => outcome i ops
  | .send j msg :: ops => if j = i then some msg else outcome i ops
  | .giveUp j :: ops => if j = i then none else outcome i ops

/-- What became of the calls of a run, in the order in which they have drawn their nonces; the tasks
that are `busy` have drawn one before. -/
def calls (busy : ℕ → Bool) : List Op → List (Option SubstreamMessage)
  | [] => []
  | .draw i :: ops =>
    if busy i then calls busy ops
    else outcome i ops :: calls (Function.update busy i true) ops
  | .send i _ :: ops => calls (Function.update busy i false) ops
  | .giveUp i :: ops => calls (Function.update busy i false) ops

end Writers

/-- A call that nothing interrupts. -/
def Outbox.call (recipient : R) (id : ConnectionId) (o : Outbox P R) :
    Option SubstreamMessage → Outbox P R
  | none => o.fetchAdd.2
  | some msg =>
    let (nonce, o) := o.fetchAdd
    match o.send recipient { nonce := nonce, id := id, message := msg } with
    | none => o
    | some o => o

/-- Calls that are made one after another. -/
def Outbox.callAll (recipient : R) (id : ConnectionId) (o : Outbox P R)
    (calls : List (Option SubstreamMessage)) : Outbox P R :=
  calls.foldl (Outbox.call recipient id) o

end Libp2pNym
