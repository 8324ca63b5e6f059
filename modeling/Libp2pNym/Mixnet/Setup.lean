import Libp2pNym.Mixnet.Basic

/-!
# Setting up the mixnet task

`get_self_address` and the rest of `initialize_mixnet` of `mixnet.rs`.  Before the task is spawned,
the Nym client is asked for our address over the same websocket, and what comes before its answer is
skipped.  Connecting to the websocket is left to other crates: a `Mixnet` starts with a websocket
that is open.
-/

namespace Libp2pNym

variable {P R : Type}

/-- What `initialize_mixnet` uses of the crate of the Nym client besides. -/
structure NymSetup (R : Type) extends NymClient R where
  /-- `ClientRequest::SelfAddress.serialize` -/
  selfAddressRequest : Bytes
  /-- The address in a `ServerResponse::SelfAddress`, if the bytes are one. -/
  selfAddress : Bytes → Option R
  /-- It is a response that the task does not expect. -/
  selfAddress_other : ∀ bytes recipient, selfAddress bytes = some recipient →
    deserialize bytes = .ok .other

/-- Where `get_self_address` stands: at the `send` of its request, at the flush after it, or at the
responses. -/
inductive GetSelfAddress where
  | sending
  | flushing
  | reading
  deriving DecidableEq, Repr

/-- The websocket before it is split. -/
structure Setup where
  stream : Chan (Except Unit WsMessage)
  sink : List Bytes
  future : GetSelfAddress

/-- The address that a websocket message brings. -/
def selfAddressIn (w : NymSetup R) : WsMessage → Option R
  | .text str => w.selfAddress str
  | .binary bytes => w.selfAddress bytes
  | .other => none

namespace Setup

/-- `while let Some(raw_message) = ws_stream.next().await`, at most `fuel` messages. -/
def readAddress (w : NymSetup R) : ℕ → Setup → Setup × Poll (Except Error R)
  | 0, s => (s, .pending)
  | fuel + 1, s =>
    match s.stream.pollRecv with
    | (.pending, _) => (s, .pending)
    | (.ready none, stream) => ({ s with stream := stream }, .ready (.error .recvError))
    | (.ready (some (.error _)), stream) =>
      ({ s with stream := stream }, .ready (.error .websocketStreamError))
    | (.ready (some (.ok rawMessage)), stream) =>
      let s := { s with stream := stream }
      match parseNymMessage w.toNymClient rawMessage, selfAddressIn w rawMessage with
      | .error e, _ => (s, .ready (.error e))
      | .ok _, some recipient => (s, .ready (.ok recipient))
      | .ok (.error text), none => (s, .ready (.error (.nymMessageError text)))
      | .ok (.received _), none => readAddress w fuel s
      | .ok .other, none => readAddress w fuel s

/-- The request is flushed, and then the responses are read. -/
def flushRequest (w : NymSetup R) (s : Setup) (pollFlush : SinkPoll) :
    Setup × Poll (Except Error R) :=
  match pollFlush with
  | .pending => ({ s with future := .flushing }, .pending)
  | .failed => ({ s with future := .flushing }, .ready (.error .websocketStreamError))
  | .ready => readAddress w (s.stream.queue.length + 1) { s with future := .reading }

/-- A poll of `get_self_address`. -/
def getSelfAddress (w : NymSetup R) (pollReady pollFlush : SinkPoll) (s : Setup) :
    Setup × Poll (Except Error R) :=
  match s.future with
  | .sending =>
    match pollReady with
    | .pending => (s, .pending)
    | .failed => (s, .ready (.error .websocketStreamError))
    | .ready => { s with sink := s.sink ++ [w.selfAddressRequest] }.flushRequest w pollFlush
  | .flushing => s.flushRequest w pollFlush
  | .reading => readAddress w (s.stream.queue.length + 1) s

end Setup

/-- `initialize_mixnet`: it waits for our address, then the task runs; or it has returned an error.
-/
inductive Mixnet (P R : Type) where
  | starting (s : Setup)
  | running (recipient : R) (task : MixnetTask P R)
  | failed (e : Error)

namespace Mixnet

/-- A websocket that has just been opened. -/
def new : Mixnet P R :=
  .starting
    { stream := Chan.new
      sink := []
      future := .sending }

/-- The task is spawned on what `get_self_address` leaves of the websocket. -/
def spawn (s : Setup) (notify : Bool) : MixnetTask P R where
  inbound :=
    { stream := s.stream
      inboundTx := Chan.new
      notifyInboundTx := if notify then some Chan.new else none }
  outbound :=
    { outboundRx := Chan.new
      sink := s.sink
      future := .receiving }

/-- What can happen: a frame comes from the websocket, or the websocket ends; `initialize_mixnet` is
polled, with what the sink answers; or, once the task runs, one of the operations there. -/
inductive Op (P R : Type) where
  | frame (res : Except Unit WsMessage)
  | endStream
  | poll (pollReady pollFlush : SinkPoll)
  | task (o : MixnetTask.Op P R)

/-- What an operation answers. -/
inductive Answer (R : Type) where
  | skip
  | done
  | poll (r : Poll (Except Error R))
  | task (a : MixnetTask.Answer)

/-- One operation; the frames that come while the task runs are operations of the task. -/
def step (w : NymSetup R) (t : ThirdParty P R) (notify : Bool) :
    Mixnet P R → Op P R → Except Panic (Mixnet P R × Answer R)
  | .starting s, .frame res =>
    if s.stream.txAlive then
      match s.stream.send res with
      | none => .ok (.starting s, .skip)
      | some stream => .ok (.starting { s with stream := stream }, .done)
    else .ok (.starting s, .skip)
  | .starting s, .endStream => .ok (.starting { s with stream := s.stream.dropTx }, .done)
  | .starting s, .poll pollReady pollFlush =>
    match s.getSelfAddress w pollReady pollFlush with
    | (s, .pending) => .ok (.starting s, .poll .pending)
    | (s, .ready (.ok recipient)) =>
      .ok (.running recipient (spawn s notify), .poll (.ready (.ok recipient)))
    | (_, .ready (.error e)) => .ok (.failed e, .poll (.ready (.error e)))
  | .running recipient task, .task o =>
    match task.step w.toNymClient t o with
    | .error p => .error p
    | .ok (task, a) => .ok (.running recipient task, .task a)
  | m, _ => .ok (m, .skip)

end Mixnet

end Libp2pNym
