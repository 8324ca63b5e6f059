import Libp2pNym.Connection.Equiv.Stream
import Libp2pNym.Network.Equiv.Complete
import Libp2pNym.Network.Equiv.Lifecycle

/-!
# The byte stream from one application to another

`byte_stream`: in every run in which no read is short, the bytes that an application has read from a
substream are a prefix of the bytes that were written to the substream with its id at the other end,
and it has read or can read all of them once everything was delivered and polled.
-/

namespace Libp2pNym

open StepRun Endpoint

variable {P R : Type}

namespace Node

/-- An operation at the transport reads nothing from the connections that are there. -/
theorem Placed.sameReads {n n' : Node P R} (hp : n.Placed) {o : Op P R} {a : Answer P}
    (hs : Steps n o n' a) {h : ℕ} {e' : Endpoint P R} (he' : n'.conns h = some e') :
    (n.conns h = none ∧ ∀ k, e'.readState k = none) ∨
    ∃ e, n.conns h = some e ∧ SameReads e e' := by
  rcases hp.conns_back hs he' with ⟨hnone, peerId, recipient, id, hd⟩ | ⟨e, he, hd⟩
  · refine Or.inl ⟨hnone, fun k => ?_⟩
    rcases hd with rfl | rfl <;> rfl
  · refine Or.inr ⟨e, he, ?_⟩
    rcases hd with rfl | ⟨rx, rfl⟩
    · exact (touches_dropConnection e).sameReads
    · exact SameReads.refl e

end Node

namespace Network

variable [DecidableEq R]

/-- The bytes that the reads of a substream have returned, in order: of the one with the handle `k`
of the connection with the handle `h` of the transport `a`. -/
def readFrom (a : R) (h k : ℕ) : List (Op P R) → List (Answer P) → Bytes :=
  collect (readIn k) a h

/-- The operation is a read that is short. -/
def readsShort (net : Network P R) : Op P R → Bool
  | .conn a h o =>
    match (net a).conns h with
    | none => false
    | some e => e.readsShort o
  | _ => false

/-- What was read from each substream and what is left unread is what it has taken. -/
structure Served (ops : List (Op P R)) (as : List (Answer P)) (net : Network P R) : Prop where
  reads : ∀ {a h e}, (net a).conns h = some e → e.Reads fun k => readFrom a h k ops as
  unused : ∀ {a h}, (net a).conns h = none → ∀ k, readFrom a h k ops as = []

section

variable {ops : List (Op P R)} {as : List (Answer P)} {net : Network P R}

theorem served_new (peerIds : R → P) : Served [] [] (new peerIds : Network P R) where
  reads he := by cases he
  unused _ _ := rfl

/-- An operation that no connection answers reads nothing. -/
theorem readFrom_of_ne (hlen : as.length = ops.length) {r : Answer P} (hr : ∀ r', r ≠ .conn r')
    (o : Op P R) (a : R) (h k : ℕ) :
    readFrom a h k (ops ++ [o]) (as ++ [r]) = readFrom a h k ops as := by
  rw [readFrom, collect_snoc _ hlen, collectAt_of_ne _ hr, List.append_nil]

/-- An operation that does nothing. -/
theorem Served.skip (hi : Served ops as net) (hlen : as.length = ops.length) {o : Op P R}
    {r : Answer P} (hr : ∀ r', r ≠ .conn r') : Served (ops ++ [o]) (as ++ [r]) net := by
  constructor
  · intro a h e he
    simp only [readFrom_of_ne hlen hr]
    exact hi.reads he
  · intro a h he k
    rw [readFrom_of_ne hlen hr]
    exact hi.unused he k

/-- An operation at a transport. -/
theorem Served.node (hi : Served ops as net) (hlen : as.length = ops.length) {o : Op P R}
    {r : Answer P} (hr : ∀ r', r ≠ .conn r') {a : R} (hp : (net a).Placed) {o' : Node.Op P R}
    {n : Node P R} {r' : Node.Answer P} (hs : Node.Steps (net a) o' n r') :
    Served (ops ++ [o]) (as ++ [r]) (Function.update net a n) := by
  have hother : ∀ {b}, b ≠ a → Function.update net a n b = net b :=
    fun hb => Function.update_of_ne hb ..
  constructor
  · intro b h e he
    simp only [readFrom_of_ne hlen hr]
    by_cases hb : b = a
    · subst hb
      rw [Function.update_self] at he
      -- a new connection has no substreams, and one that was there has read nothing
      rcases hp.sameReads hs he with ⟨hnone, hempty⟩ | ⟨e₀, he₀, hsame⟩
      · constructor
        · intro k unread got hk
          rw [hempty] at hk
          cases hk
        · exact fun k _ => hi.unused hnone k
      · exact (hi.reads he₀).same hsame
    · rw [hother hb] at he
      exact hi.reads he
  · intro b h he k
    rw [readFrom_of_ne hlen hr]
    by_cases hb : b = a
    · subst hb
      rw [Function.update_self] at he
      refine hi.unused ?_ k
      cases he₀ : (net b).conns h with
      | none => rfl
      | some e =>
        obtain ⟨e', he', -⟩ := hp.conns_steps hs he₀
        rw [he] at he'
        cases he'
    · rw [hother hb] at he
      exact hi.unused he k

/-- An operation at a connection. -/
theorem Served.conn (hi : Served ops as net) (hlen : as.length = ops.length) {a : R} {h : ℕ}
    {o : Endpoint.Op} {e e' : Endpoint P R} {r : Endpoint.Answer} (hw : e.Wf)
    (he : (net a).conns h = some e) (hs : Endpoint.Steps e o e' r) (hb : e.readsShort o = false) :
    Served (ops ++ [.conn a h o]) (as ++ [.conn r])
      (Function.update net a { net a with conns := (net a).conns.insert h e' }) := by
  have hread : ∀ b j k, readFrom b j k (ops ++ [.conn a h o]) (as ++ [.conn r])
      = readFrom b j k ops as ++ if a = b ∧ h = j then readIn k o r else [] := by
    intro b j k
    rw [readFrom, collect_snoc _ hlen, collectAt_conn]
  constructor
  · intro b j e₁ he₁
    rw [conns_insert] at he₁
    simp only [hread]
    split at he₁
    · rename_i heq
      obtain ⟨rfl, rfl⟩ := heq
      cases he₁
      simp only [and_self, if_true]
      exact reads_steps hw (hi.reads he) hs hb
    · rename_i hne
      simp only [if_neg hne, List.append_nil]
      exact hi.reads he₁
  · intro b j he₁ k
    rw [conns_insert] at he₁
    split at he₁
    · cases he₁
    · rename_i hne
      rw [hread, if_neg hne, List.append_nil]
      exact hi.unused he₁ k

end

section

variable {t : ThirdParty P R} {peerIds : R → P} {ops : List (Op P R)} {as : List (Answer P)}
  {net : Network P R}

/-- **Every run in which no read is short** keeps account of what was read. -/
theorem served_run (ht : t.RoundTrips) (hdial : (dialed ops).Nodup) (hgen : (generated ops).Nodup)
    (hspare : Always (fun xs _ net => Spared t peerIds xs net) (step t) (new peerIds) ops)
    (hwhole : count readsShort (step t) (new peerIds) ops = 0)
    (h : run (step t) (new peerIds) ops = .ok (net, as)) : Served ops as net := by
  refine run_induction_along (I := fun xs as net => (dialed xs).Nodup → (generated xs).Nodup →
    Always (fun xs _ net => Spared t peerIds xs net) (step t) (new peerIds) xs →
    Served xs as net) (fun _ _ _ => served_new peerIds) ?_ (along_of_count hwhole) h hdial hgen
    hspare
  intro xs es m o net' r hr ih hwhole hs hdial hgen hspare
  have hlen := length_answers hr
  have hd := nodup_dialed_of_append hdial
  have hg := nodup_generated_of_append hgen
  have hi := inv_run ht hd hg hspare.of_append hr
  have hserved := ih hd hg hspare.of_append
  cases steps_of_step ht hs with
  | skip _ ho => exact hserved.skip hlen fun r' heq => by cases heq
  | lost a h i err => exact hserved.skip hlen fun r' heq => by cases heq
  | node a o ho n r hs' => exact hserved.node hlen (fun r' heq => by cases heq) (hi.placed a) hs'
  | delivered a h i msg hm n r hs' =>
    exact hserved.node hlen (fun r' heq => by cases heq) (hi.placed _) hs'
  | conn a h o ho e e' r he hs' =>
    have hw := (hi.ends ((hi.placed a).back he) he).wf
    have hshort : e.readsShort o = false := by
      simp only [readsShort, he] at hwhole
      exact hwhole
    exact hserved.conn hlen hw he (Endpoint.steps_of_step hw hs') hshort

/-- What an application has read, has unread and can read is a prefix of what was accepted at the
other end, and all of it when everything has arrived there. -/
theorem Inv.bytes {refused : R → ConnectionId → ℕ} (hi : Inv ops as refused net)
    (hdial : (dialed ops).Nodup) {hist : R → ConnectionId → List TransportMessage}
    (hh : Handed hist net) (hserved : Served ops as net) {a b : R} {c : ConnectionId} {h j : ℕ}
    {e f : Endpoint P R} (hab : a ≠ b) (hc : (net a).transport.connections c = some h)
    (he : (net a).conns h = some e) (hc' : (net b).transport.connections c = some j)
    (hf : (net b).conns j = some f) {k k' : ℕ} {sub sub' : Substream R}
    (hk : f.substreams k = some sub) (hk' : e.substreams k' = some sub')
    (hid : sub'.substreamId = sub.substreamId) :
    readFrom b j k ops as ++ sub.unreadData ++ sub.inboundRx.queue.flatten
      <+: (accepted a h k' ops as).flatten ∧
    (f.Alive → sub.inboundRx.rxAlive = true → sub'.closed = false → refused a c = 0 →
      (∀ m ∈ e.outbox.transported, m ∈ hist b c) → f.conn.inboundRx.queue = [] →
      readFrom b j k ops as ++ sub.unreadData ++ sub.inboundRx.queue.flatten
        = (accepted a h k' ops as).flatten) := by
  have hat := Node.endAt_eq_some_iff.mpr ⟨j, hc', hf⟩
  have hread := (hserved.reads hf).each k sub.unreadData sub.inboundRx.got
    (by rw [readState, hk]; rfl)
  have hlog : readFrom b j k ops as ++ sub.unreadData ++ sub.inboundRx.queue.flatten
      = sub.inboundRx.log.flatten := by
    rw [hread, Chan.log, List.flatten_append]
  -- what is left to show is about the chunks that have reached the substream
  rw [hlog]
  refine ⟨?_, fun ha hrx hopen hrefused hall hpolled => ?_⟩
  · have hord := hi.inOrder hdial
    exact ((hord a b c h e f hab hc he hat k sub hk).1 k' sub' hk' hid).flatten
  · obtain ⟨-, -, hdata⟩ := hi.complete hdial hh hab hc he hat ha hrefused hall hpolled
    rw [hdata k sub k' sub' hk hrx hk' hopen hid]

/-- **The byte stream.**  In every run of any number of transports with fresh ids and fewer than
`2 ^ 64 - 1` operations in which no read is short: what an application has read from a substream,
what is left unread there and what waits in its channel is a prefix of the bytes that were accepted
by the substream with its id at the other end of the connection, at another transport.  It is all of
them when no close was refused, every message of the other end was delivered and polled, and the
substream is open. -/
theorem byte_stream (ht : t.RoundTrips) (hdial : (dialed ops).Nodup) (hgen : (generated ops).Nodup)
    (hlen : ops.length < 2 ^ 64 - 1) (hwhole : count readsShort (step t) (new peerIds) ops = 0)
    (hrun : run (step t) (new peerIds) ops = .ok (net, as)) {a b : R} {c : ConnectionId} {h j : ℕ}
    {e f : Endpoint P R} (hab : a ≠ b) (hc : (net a).transport.connections c = some h)
    (he : (net a).conns h = some e) (hc' : (net b).transport.connections c = some j)
    (hf : (net b).conns j = some f) {k k' : ℕ} {sub sub' : Substream R}
    (hk : f.substreams k = some sub) (hk' : e.substreams k' = some sub')
    (hid : sub'.substreamId = sub.substreamId) :
    readFrom b j k ops as ++ sub.unreadData ++ sub.inboundRx.queue.flatten
      <+: (accepted a h k' ops as).flatten ∧
    (f.Alive → sub.inboundRx.rxAlive = true → sub'.closed = false →
      count (refusesAt a c) (step t) (new peerIds) ops = 0 →
      (∀ m ∈ e.outbox.transported, m ∈ delivered t peerIds b c ops) →
      f.conn.inboundRx.queue = [] →
      readFrom b j k ops as ++ sub.unreadData ++ sub.inboundRx.queue.flatten
        = (accepted a h k' ops as).flatten) := by
  have hspare : Always (fun xs _ net => Spared t peerIds xs net) (step t) (new peerIds) _ :=
    spared_of_length ht hlen
  have hserved := served_run ht hdial hgen hspare hwhole hrun
  have hh := handed_run ht hdial hgen hspare hrun
  exact (inv_run ht hdial hgen hspare hrun).bytes hdial hh hserved hab hc he hc' hf hk hk' hid

end

/-- The first transport writes three bytes, and the application of the second has read two. -/
def sampleRead : List (Op RawPeerId RawRecipient) := sampleCall ++
  [.conn (.fill 1) 0 (.pollOutbound ⟨.fill 6⟩), .conn (.fill 1) 0 (.write 0 [1, 2, 3]),
    .deliver (.fill 1) (some 0) 1, .deliver (.fill 1) (some 0) 0, .conn (.fill 2) 0 .poll,
    .conn (.fill 2) 0 .pollInbound, .conn (.fill 2) 0 (.read 0 [0, 0])]

set_option maxRecDepth 2000 in
/-- The third byte is left unread. -/
theorem byte_stream_sampleRead : ∃ net as f sub,
    run (step .raw) (new samplePeers) sampleRead = .ok (net, as) ∧
      (net (.fill 2)).conns 0 = some f ∧ f.substreams 0 = some sub ∧
      readFrom (.fill 2) 0 0 sampleRead as = [1, 2] ∧ sub.unreadData = [3] ∧
      readFrom (.fill 2) 0 0 sampleRead as ++ sub.unreadData ++ sub.inboundRx.queue.flatten
        = (accepted (.fill 1) 0 0 sampleRead as).flatten := by
  have hstate : ∃ net as e f sub sub',
      run (step .raw) (new samplePeers) sampleRead = .ok (net, as) ∧
      (net (.fill 1)).transport.connections ⟨.fill 5⟩ = some 0 ∧ (net (.fill 1)).conns 0 = some e ∧
      (net (.fill 2)).transport.connections ⟨.fill 5⟩ = some 0 ∧ (net (.fill 2)).conns 0 = some f ∧
      f.substreams 0 = some sub ∧ e.substreams 0 = some sub' ∧
      sub'.substreamId = sub.substreamId ∧ f.Alive ∧ sub.inboundRx.rxAlive = true ∧
      sub'.closed = false ∧ f.conn.inboundRx.queue = [] ∧
      e.outbox.transported = [⟨1, ⟨⟨.fill 6⟩, .openRequest⟩, ⟨.fill 5⟩⟩,
        ⟨2, ⟨⟨.fill 6⟩, .data [1, 2, 3]⟩, ⟨.fill 5⟩⟩] ∧
      readFrom (.fill 2) 0 0 sampleRead as = [1, 2] ∧ sub.unreadData = [3] :=
    ⟨_, _, _, _, _, _, rfl, rfl, rfl, rfl, rfl, rfl, rfl, rfl, rfl, rfl, rfl, rfl, rfl, rfl, rfl⟩
  obtain ⟨net, as, e, f, sub, sub', hrun, hc, he, hc', hf, hk, hk', hid, ha, hrx, hopen, hq, hsent,
    hread, hunread⟩ := hstate
  have hdelivered : delivered .raw samplePeers (.fill 2) ⟨.fill 5⟩ sampleRead
      = [⟨2, ⟨⟨.fill 6⟩, .data [1, 2, 3]⟩, ⟨.fill 5⟩⟩,
        ⟨1, ⟨⟨.fill 6⟩, .openRequest⟩, ⟨.fill 5⟩⟩] := rfl
  have hall := (byte_stream ThirdParty.raw_roundTrips (by decide) (by decide) (by decide) rfl hrun
    (by decide) hc he hc' hf hk hk' hid).2 ha hrx hopen rfl (by rw [hsent, hdelivered]; simp) hq
  exact ⟨net, as, f, sub, hrun, hf, hk, hread, hunread, hall⟩

end Network

end Libp2pNym
