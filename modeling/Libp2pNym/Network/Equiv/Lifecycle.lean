import Libp2pNym.Network.Equiv.Delivery

/-!
# Substreams across the mixnet

`run_isOk_iff_kept`: the only thing that panics in a network is the `poll` of a connection that
finds the close of a substream that the application has dropped, or, at a connection of a transport
to itself, a message without what it is for.  `lifecycle`: with the substreams kept, the ends of
every connection agree on the substreams that were opened, whatever the mixnet does to the messages.
-/

namespace Libp2pNym

open StepRun Endpoint

variable {P R : Type}

/-- None of the messages that wait at a connection of the transport `a` is the close of a registered
substream that was dropped.  A connection of a transport to itself hears what it has sent itself;
there every message must find what it is for. -/
def Endpoint.Kept (e : Endpoint P R) (a : R) : Prop :=
  (e.conn.remoteRecipient ≠ a → ∀ s ∈ e.gone, ⟨s, .close⟩ ∉ e.conn.inboundRx.queue) ∧
  (e.conn.remoteRecipient = a → e.Covers e.conn.inboundRx.queue)

/-! ### The connections of a transport -/

namespace Node

theorem gone_dropConnection (e : Endpoint P R) : e.dropConnection.gone = ∅ := by
  refine Set.eq_empty_of_subset_empty ?_
  rintro s ⟨h, sub, hreg, -⟩
  cases hreg

theorem gone_firstEnd (n : Node P R) (peerId : P) (recipient : R) (id : ConnectionId) :
    (n.firstEnd peerId recipient id).gone = ∅ := by
  refine Set.eq_empty_of_subset_empty ?_
  rintro s ⟨h, sub, hreg, -⟩
  cases hreg

/-- A connection that is there after an operation at the transport is new, or it was there before
and the operation has dropped it, or touched no more than what waits there. -/
theorem Placed.conns_back {n n' : Node P R} (hp : n.Placed) {o : Op P R} {a : Answer P}
    (hs : Steps n o n' a) {h : ℕ} {e' : Endpoint P R} (he' : n'.conns h = some e') :
    (n.conns h = none ∧ ∃ peerId recipient id, e' = n.firstEnd peerId recipient id ∨
      e' = (n.firstEnd peerId recipient id).dropConnection) ∨
    ∃ e, n.conns h = some e ∧
      (e' = e.dropConnection ∨ ∃ rx, e' = { e with conn.inboundRx := rx }) := by
  have hc' := (placed_steps hp hs).back he'
  have hat' := endAt_eq_some_iff.mpr ⟨h, hc', he'⟩
  have hm := moves_steps hp hs e'.conn.id
  -- the endpoint that was there before has the same handle
  have hold : ∀ {e}, n.endAt e'.conn.id = some e → n.conns h = some e := by
    intro e he
    obtain ⟨k, hk, hke⟩ := endAt_eq_some_iff.mp he
    rw [hm.connections hp hk] at hc'
    cases hc'
    exact hke
  cases hm with
  | same _ ho hc he hq =>
    rw [he] at hat'
    exact Or.inr ⟨e', hold hat', Or.inr ⟨e'.conn.inboundRx, rfl⟩⟩
  | dropped _ ho hc e he₀ he hq =>
    rw [hat'] at he
    exact Or.inr ⟨e, hold he₀, Or.inl (Option.some.inj he)⟩
  | established _ peerId recipient ho he₀ h0 hc e₁ hd he hq =>
    rw [hat'] at he
    cases he
    rw [hc'] at hc
    cases hc
    exact Or.inl ⟨hp.fresh (le_refl _), peerId, recipient, _, hd⟩
  | pushed m hid hout hc he hq =>
    rw [he] at hat'
    exact Or.inr ⟨e', hold hat', Or.inr ⟨e'.conn.inboundRx, rfl⟩⟩
  | forwarded m hid e he₀ ha hout hc he hq =>
    rw [hat'] at he
    exact Or.inr ⟨e, hold he₀, Or.inr ⟨_, Option.some.inj he⟩⟩

/-- A connection that is there after an operation at the transport is new, or it has sent, yielded
and lost nothing since. -/
theorem Placed.conns_cases {n n' : Node P R} (hp : n.Placed) {o : Op P R} {a : Answer P}
    (hs : Steps n o n' a) {h : ℕ} {e' : Endpoint P R} (he' : n'.conns h = some e') :
    (n.conns h = none ∧ e'.outbox.outboundTx = n.transport.outboundTx.cloneTx ∧
      e'.conn.inboundOpen.got = [] ∧ e'.gone = ∅) ∨
    ∃ e, n.conns h = some e ∧ e'.outbox = e.outbox ∧
      e'.conn.inboundOpen.got = e.conn.inboundOpen.got ∧ e'.gone ⊆ e.gone := by
  rcases hp.conns_back hs he' with
    ⟨hnone, peerId, recipient, id, rfl | rfl⟩ | ⟨e, he, rfl | ⟨rx, rfl⟩⟩
  · exact Or.inl ⟨hnone, rfl, rfl, gone_firstEnd ..⟩
  · exact Or.inl ⟨hnone, rfl, rfl, gone_dropConnection _⟩
  · refine Or.inr ⟨e, he, rfl, rfl, ?_⟩
    rw [gone_dropConnection]
    exact Set.empty_subset _
  · exact Or.inr ⟨e, he, rfl, rfl, subset_rfl⟩

end Node

namespace Network

variable [DecidableEq R]

/-! ### Panics -/

/-- If the operation is the `poll` of a connection, no close of a dropped substream waits there; at
a connection of a transport to itself, each message that waits finds what it is for. -/
def PollKept (net : Network P R) (o : Op P R) : Prop :=
  ∀ a h e, o = .conn a h .poll → (net a).conns h = some e → e.Alive → e.Kept a

section

variable {t : ThirdParty P R} {ops : List (Op P R)} {as : List (Answer P)}
  {refused : R → ConnectionId → ℕ} {net : Network P R}

theorem stepNode_isOk_iff (net : Network P R) (a : R) (o : Node.Op P R) :
    (∃ r, net.stepNode a o = .ok r) ↔ ∃ r, (net a).step o = .ok r := by
  unfold stepNode
  cases (net a).step o with
  | error p => exact iff_of_false (fun ⟨_, h⟩ => by cases h) (fun ⟨_, h⟩ => by cases h)
  | ok v => exact iff_of_true ⟨_, rfl⟩ ⟨_, rfl⟩

/-- No message that comes to a transport clashes with a queue. -/
theorem Inv.calm (hi : Inv ops as refused net) (a : R) : (net a).Calm := by
  have hordered : ∀ c, ∃ hist, (net a).Ordered c hist := by
    intro c
    obtain ⟨hist, hord, -⟩ := hi.ordered a c
    exact ⟨hist, hord⟩
  choose hist hord using hordered
  exact Node.calm_of_ordered (hi.placed a) hord

/-- A live endpoint of a connection to another transport, with what it hears. -/
theorem Inv.sound (hi : Inv ops as refused net) (hfresh : (dialed ops).Nodup) {a : R} {h : ℕ}
    {e : Endpoint P R} (he : (net a).conns h = some e) (hne : e.conn.remoteRecipient ≠ a)
    (ha : e.Alive) : ∃ f : Endpoint P R,
      e.Sound {s | ⟨s, .openRequest⟩ ∈ f.taken} f.sent := by
  have hc := (hi.placed a).back he
  have hend := hi.ends hc he
  obtain ⟨f, -, hl, hj, -⟩ := hi.joined hfresh (Node.endAt_eq_some_iff.mpr ⟨h, hc, he⟩) hne
  exact ⟨f, hend.wf, hend.ledger hne, ha, hend.mixnet, hj.hears hl⟩

theorem stepConn_isOk_iff {a : R} {h : ℕ} {e : Endpoint P R} (he : (net a).conns h = some e)
    (o : Endpoint.Op) : (∃ r, net.stepConn a h o = .ok r) ↔ ∃ r, e.step o = .ok r := by
  unfold stepConn
  rw [he]
  dsimp only
  cases e.step o with
  | error p => exact iff_of_false (fun ⟨_, h⟩ => by cases h) (fun ⟨_, h⟩ => by cases h)
  | ok v => exact iff_of_true ⟨_, rfl⟩ ⟨_, rfl⟩

/-- What panics at a connection. -/
theorem Inv.conn_isOk_iff (hi : Inv ops as refused net) (hfresh : (dialed ops).Nodup) {a : R}
    {h : ℕ} {e : Endpoint P R} (he : (net a).conns h = some e) (o : Endpoint.Op) :
    (∃ r, e.step o = .ok r) ↔ (o = .poll → e.Alive → e.Kept a) := by
  have hwf := (hi.ends ((hi.placed a).back he) he).wf
  rw [Endpoint.step_isOk_iff hwf]
  refine forall_congr' fun _ => forall_congr' fun ha => ?_
  -- of a connection of a transport to itself it is not known what it hears
  by_cases hne : e.conn.remoteRecipient = a
  · exact ⟨fun hcov => ⟨fun h => absurd hne h, fun _ => hcov⟩, fun hk => hk.2 hne⟩
  · have hpoll : e.Covers e.conn.inboundRx.queue ↔
        ∀ s ∈ e.gone, ⟨s, .close⟩ ∉ e.conn.inboundRx.queue := by
      obtain ⟨f, hsound⟩ := hi.sound hfresh he hne ha
      rw [← isOk_poll_iff hwf]
      exact isOk_pollLoop_sound_iff hsound (Nat.lt_succ_self _)
    exact hpoll.trans ⟨fun h => ⟨fun _ => h, fun heq => absurd heq hne⟩, fun hk => hk.1 hne⟩

/-- **What panics in a network**: the operations that are not `PollKept`, and nothing else. -/
theorem Inv.step_isOk_iff (ht : t.RoundTrips) (hi : Inv ops as refused net)
    (hfresh : (dialed ops).Nodup) (o : Op P R) :
    (∃ r, net.step t o = .ok r) ↔ net.PollKept o := by
  cases o with
  | node a o =>
    refine iff_of_true ?_ fun _ _ _ heq => by cases heq
    -- a transport panics only at a message that clashes, and none does
    have hok : ∃ r, net.stepNode a o = .ok r :=
      (stepNode_isOk_iff net a o).mpr ((Node.step_isOk_iff _ _).mpr fun msg _ =>
        Node.not_clashes_of_calm (hi.calm a) msg)
    cases o with
    | inbound msg => exact ⟨_, rfl⟩
    | _ => exact hok
  | deliver a h i =>
    refine iff_of_true ?_ fun _ _ _ heq => by cases heq
    simp only [step]
    split
    · exact ⟨_, rfl⟩
    · rename_i m hm
      rcases parseMessageData_toBytes ht m.message with ⟨-, hp⟩ | ⟨-, hp⟩
      · rw [hp]
        refine (stepNode_isOk_iff net _ _).mpr ((Node.step_isOk_iff _ _).mpr fun msg heq => ?_)
        exact Node.not_clashes_of_calm (hi.calm _) msg
      · rw [hp]
        exact ⟨_, rfl⟩
  | conn a h o =>
    cases he : (net a).conns h with
    | none =>
      refine iff_of_true ?_ fun a' h' e heq he' => ?_
      · cases o <;> simp [step, stepConn, he]
      · cases heq
        rw [he] at he'
        cases he'
    | some e =>
      have hkept : net.PollKept (.conn a h o) ↔ (o = .poll → e.Alive → e.Kept a) := by
        constructor
        · rintro hk rfl ha
          exact hk a h e rfl he ha
        · intro hk a' h' e' heq he' ha
          cases heq
          rw [he] at he'
          cases he'
          exact hk rfl ha
      have hstep := (stepConn_isOk_iff he o).trans (hi.conn_isOk_iff hfresh he o)
      cases o with
      | receive msg => exact iff_of_true ⟨_, rfl⟩ (hkept.mpr fun heq => by cases heq)
      | _ => exact hstep.trans hkept.symm

end

/-! ### What was opened and yielded in a run -/

section

variable {α : Type} (g : Endpoint.Op → Endpoint.Answer → List α)

/-- What `g` reads off an operation at the connection with the handle `h` of the transport `a`. -/
def collectAt (a : R) (h : ℕ) : Op P R → Answer P → List α
  | .conn b j o, .conn r => if b = a ∧ j = h then g o r else []
  | _, _ => []

/-- What `g` reads off the operations at that connection, in order. -/
def collect (a : R) (h : ℕ) (ops : List (Op P R)) (as : List (Answer P)) : List α :=
  (ops.zip as).flatMap fun oa => collectAt g a h oa.1 oa.2

theorem collect_snoc {ops : List (Op P R)} {as : List (Answer P)} (hlen : as.length = ops.length)
    (a : R) (h : ℕ) (o : Op P R) (r : Answer P) :
    collect g a h (ops ++ [o]) (as ++ [r]) = collect g a h ops as ++ collectAt g a h o r :=
  flatMap_zip_snoc _ hlen o r

theorem collectAt_of_ne {r : Answer P} (hr : ∀ r', r ≠ .conn r') (a : R) (h : ℕ) (o : Op P R) :
    collectAt g a h o r = [] := by
  unfold collectAt
  split
  · rename_i r'
    exact absurd rfl (hr r')
  · rfl

end

/-- The ids opened by `poll_outbound` of that connection, in order. -/
def opened (a : R) (h : ℕ) : List (Op P R) → List (Answer P) → List SubstreamId :=
  collect openedIn a h

/-- The handles yielded by `poll_inbound` of that connection, in order. -/
def yielded (a : R) (h : ℕ) : List (Op P R) → List (Answer P) → List ℕ :=
  collect (fun _ r => yieldedIn r) a h

/-- What was opened and yielded at each connection is what the run has answered; no `poll` has
failed, and no substream was lost. -/
structure Tracks (ops : List (Op P R)) (as : List (Answer P)) (net : Network P R) : Prop where
  opened : ∀ {a h e}, (net a).conns h = some e → requests e.sent = opened a h ops as
  yielded : ∀ {a h e}, (net a).conns h = some e →
    e.conn.inboundOpen.got = yielded a h ops as
  unused : ∀ {a h}, (net a).conns h = none →
    Network.opened a h ops as = [] ∧ Network.yielded a h ops as = []
  answers : ∀ r, .conn (.poll r) ∈ as → r = .pending
  kept : ∀ {a h e}, (net a).conns h = some e → e.gone = ∅

section

variable {ops : List (Op P R)} {as : List (Answer P)} {net : Network P R}

theorem tracks_new (peerIds : R → P) : Tracks [] [] (new peerIds : Network P R) where
  opened he := by cases he
  yielded he := by cases he
  unused _ := ⟨rfl, rfl⟩
  answers r hr := by cases hr
  kept he := by cases he

/-- An operation that no connection answers leaves what was opened and yielded. -/
theorem opened_of_ne (hlen : as.length = ops.length) {r : Answer P} (hr : ∀ r', r ≠ .conn r')
    (o : Op P R) (a : R) (h : ℕ) :
    opened a h (ops ++ [o]) (as ++ [r]) = opened a h ops as ∧
      yielded a h (ops ++ [o]) (as ++ [r]) = yielded a h ops as := by
  unfold opened yielded
  rw [collect_snoc _ hlen, collect_snoc _ hlen, collectAt_of_ne _ hr, collectAt_of_ne _ hr,
    List.append_nil, List.append_nil]
  exact ⟨rfl, rfl⟩

theorem answers_of_ne {r : Answer P} (ha : ∀ r', .conn (.poll r') ∈ as → r' = .pending)
    (hr : ∀ r', r ≠ .conn r') : ∀ r', .conn (.poll r') ∈ as ++ [r] → r' = .pending := by
  intro r' hmem
  rcases List.mem_append.mp hmem with hmem | hmem
  · exact ha r' hmem
  · exact absurd (List.mem_singleton.mp hmem).symm (hr _)

/-- An operation that does nothing. -/
theorem Tracks.skip (hi : Tracks ops as net) (hlen : as.length = ops.length) {o : Op P R}
    {r : Answer P} (hr : ∀ r', r ≠ .conn r') : Tracks (ops ++ [o]) (as ++ [r]) net where
  opened he := (hi.opened he).trans (opened_of_ne hlen hr o _ _).1.symm
  yielded he := (hi.yielded he).trans (opened_of_ne hlen hr o _ _).2.symm
  unused he := by
    rw [(opened_of_ne hlen hr o _ _).1, (opened_of_ne hlen hr o _ _).2]
    exact hi.unused he
  answers := answers_of_ne hi.answers hr
  kept := hi.kept

/-- An operation at a transport. -/
theorem Tracks.node (hi : Tracks ops as net) (hlen : as.length = ops.length) {o : Op P R}
    {r : Answer P} (hr : ∀ r', r ≠ .conn r') {a : R} (hp : (net a).Placed) {o' : Node.Op P R}
    {n : Node P R} {r' : Node.Answer P} (hs : Node.Steps (net a) o' n r') :
    Tracks (ops ++ [o]) (as ++ [r]) (Function.update net a n) := by
  have hself : Function.update net a n a = n := Function.update_self ..
  have hother : ∀ {b}, b ≠ a → Function.update net a n b = net b :=
    fun hb => Function.update_of_ne hb ..
  constructor
  · intro b h e he
    rw [(opened_of_ne hlen hr o b h).1]
    by_cases hb : b = a
    · subst hb
      rw [hself] at he
      -- a new connection has sent nothing, and one that was there sends nothing here
      rcases hp.conns_cases hs he with ⟨hnone, htx, -, -⟩ | ⟨e₀, he₀, hout, -, -⟩
      · rw [(hi.unused hnone).1, Endpoint.sent, Outbox.sentMessages, htx]
        rfl
      · rw [Endpoint.sent, hout]
        exact hi.opened he₀
    · rw [hother hb] at he
      exact hi.opened he
  · intro b h e he
    rw [(opened_of_ne hlen hr o b h).2]
    by_cases hb : b = a
    · subst hb
      rw [hself] at he
      rcases hp.conns_cases hs he with ⟨hnone, -, hgot, -⟩ | ⟨e₀, he₀, -, hgot, -⟩
      · rw [(hi.unused hnone).2, hgot]
      · rw [hgot]
        exact hi.yielded he₀
    · rw [hother hb] at he
      exact hi.yielded he
  · intro b h he
    rw [(opened_of_ne hlen hr o b h).1, (opened_of_ne hlen hr o b h).2]
    by_cases hb : b = a
    · subst hb
      rw [hself] at he
      refine hi.unused ?_
      cases he₀ : (net b).conns h with
      | none => rfl
      | some e =>
        obtain ⟨e', he', -⟩ := hp.conns_steps hs he₀
        rw [he] at he'
        cases he'
    · rw [hother hb] at he
      exact hi.unused he
  · exact answers_of_ne hi.answers hr
  · intro b h e he
    by_cases hb : b = a
    · subst hb
      rw [hself] at he
      rcases hp.conns_cases hs he with ⟨-, -, -, hgone⟩ | ⟨e₀, he₀, -, -, hsub⟩
      · exact hgone
      · rw [hi.kept he₀] at hsub
        exact Set.eq_empty_of_subset_empty hsub
    · rw [hother hb] at he
      exact hi.kept he

/-- What an operation at a connection has collected at each connection. -/
theorem collectAt_conn {α : Type} (g : Endpoint.Op → Endpoint.Answer → List α)
    (a b : R) (h j : ℕ) (o : Endpoint.Op) (r : Endpoint.Answer) :
    collectAt g b j (.conn a h o : Op P R) (.conn r) = if a = b ∧ h = j then g o r else [] := rfl

/-- The connections are those that were there, but for one. -/
theorem conns_insert (net : Network P R) (a : R) (h : ℕ) (e : Endpoint P R) (b : R) (j : ℕ) :
    (Function.update net a { net a with conns := (net a).conns.insert h e } b).conns j
      = if a = b ∧ h = j then some e else (net b).conns j := by
  by_cases hb : b = a
  · subst hb
    rw [Function.update_self]
    by_cases hj : j = h
    · subst hj
      rw [if_pos ⟨rfl, rfl⟩]
      exact KeyMap.insert_self ..
    · rw [if_neg fun heq => hj heq.2.symm]
      exact KeyMap.insert_of_ne _ _ hj
  · rw [Function.update_of_ne hb, if_neg fun heq => hb heq.1.symm]

/-- An operation at a connection. -/
theorem Tracks.conn (hi : Tracks ops as net) (hlen : as.length = ops.length) {a : R} {h : ℕ}
    {o : Endpoint.Op} {e e' : Endpoint P R} {r : Endpoint.Answer}
    (he : (net a).conns h = some e) (hg : e.Grows o r e') (hgone : e'.gone ⊆ e.gone) :
    Tracks (ops ++ [.conn a h o]) (as ++ [.conn r])
      (Function.update net a { net a with conns := (net a).conns.insert h e' }) := by
  constructor
  · intro b j e₁ he₁
    rw [Network.opened, collect_snoc _ hlen, collectAt_conn]
    rw [conns_insert] at he₁
    split at he₁
    · rename_i heq
      obtain ⟨rfl, rfl⟩ := heq
      cases he₁
      rw [if_pos ⟨rfl, rfl⟩, hg.opened, hi.opened he]
      rfl
    · rename_i hne
      rw [if_neg hne, List.append_nil]
      exact hi.opened he₁
  · intro b j e₁ he₁
    rw [Network.yielded, collect_snoc _ hlen, collectAt_conn]
    rw [conns_insert] at he₁
    split at he₁
    · rename_i heq
      obtain ⟨rfl, rfl⟩ := heq
      cases he₁
      rw [if_pos ⟨rfl, rfl⟩, hg.yielded, hi.yielded he]
      rfl
    · rename_i hne
      rw [if_neg hne, List.append_nil]
      exact hi.yielded he₁
  · intro b j he₁
    rw [conns_insert] at he₁
    split at he₁
    · cases he₁
    · rename_i hne
      rw [Network.opened, Network.yielded, collect_snoc _ hlen, collect_snoc _ hlen,
        collectAt_conn, collectAt_conn, if_neg hne, if_neg hne, List.append_nil, List.append_nil]
      exact hi.unused he₁
  · intro r' hmem
    rcases List.mem_append.mp hmem with hmem | hmem
    · exact hi.answers r' hmem
    · have heq := List.mem_singleton.mp hmem
      injection heq with heq
      exact hg.answer r' heq.symm
  · intro b j e₁ he₁
    rw [conns_insert] at he₁
    split at he₁
    · cases he₁
      rw [hi.kept he] at hgone
      exact Set.eq_empty_of_subset_empty hgone
    · exact hi.kept he₁

end

/-! ### Runs -/

section

variable {t : ThirdParty P R} {peerIds : R → P} {ops : List (Op P R)} {as : List (Answer P)}
  {net : Network P R}

/-- **Exactly the runs that panic.**  For any number of transports on a mixnet that delays,
reorders, repeats and loses messages, a run of fewer than `2 ^ 64 - 1` operations with fresh ids
does not panic iff no `poll` of a connection finds the close of a substream that was dropped, and no
`poll` of a connection of a transport to itself finds a message without what it is for. -/
theorem run_isOk_iff_kept (ht : t.RoundTrips) (hdial : (dialed ops).Nodup)
    (hgen : (generated ops).Nodup) (hlen : ops.length < 2 ^ 64 - 1) :
    (∃ r, run (step t) (new peerIds) ops = .ok r) ↔ Along PollKept (step t) (new peerIds) ops := by
  refine run_isOk_iff_along fun xs o hp net as hr => ?_
  obtain ⟨ys, rfl⟩ := (List.prefix_append xs [o]).trans hp
  have hspare : Always (fun xs _ net => Spared t peerIds xs net) (step t) (new peerIds) _ :=
    spared_of_length ht hlen
  have hd := nodup_dialed_of_append hdial
  have hg := nodup_generated_of_append hgen
  exact (inv_run ht hd hg hspare.of_append hr).step_isOk_iff ht hd o

/-- No transport has dialed itself, and no substream was dropped. -/
structure Plain (ops : List (Op P R)) : Prop where
  others : ∀ a c, .node a (.dial a c) ∉ ops
  kept : ∀ a h k, .conn a h (.dropSubstream k) ∉ ops

omit [DecidableEq R] in
theorem Plain.of_append {ops ops' : List (Op P R)} (h : Plain (ops ++ ops')) : Plain ops where
  others a c hm := h.others a c (List.mem_append_left _ hm)
  kept a j k hm := h.kept a j k (List.mem_append_left _ hm)

/-- A connection of such a run has another transport for its remote. -/
theorem Inv.remote_ne {refused : R → ConnectionId → ℕ} (hi : Inv ops as refused net)
    (hplain : Plain ops) {a : R} {h : ℕ} {e : Endpoint P R} (he : (net a).conns h = some e) :
    e.conn.remoteRecipient ≠ a := by
  have hlink := (hi.ends ((hi.placed a).back he) he).linked
  intro heq
  rw [heq] at hlink
  rcases hlink with hcall | hcall
  · exact hplain.others _ _ hcall
  · exact hplain.others _ _ hcall

theorem tracks_run (ht : t.RoundTrips) (hdial : (dialed ops).Nodup) (hgen : (generated ops).Nodup)
    (hplain : Plain ops)
    (hspare : Always (fun xs _ net => Spared t peerIds xs net) (step t) (new peerIds) ops)
    (h : run (step t) (new peerIds) ops = .ok (net, as)) : Tracks ops as net := by
  refine run_induction (I := fun xs as net => (dialed xs).Nodup → (generated xs).Nodup →
    Plain xs → Always (fun xs _ net => Spared t peerIds xs net) (step t) (new peerIds) xs →
    Tracks xs as net) (fun _ _ _ _ => tracks_new peerIds) ?_ h hdial hgen hplain hspare
  intro xs es m o net' r hr ih hs hdial hgen hplain hspare
  have hlen := length_answers hr
  have hd := nodup_dialed_of_append hdial
  have hg := nodup_generated_of_append hgen
  have hi := inv_run ht hd hg hspare.of_append hr
  have htr := ih hd hg hplain.of_append hspare.of_append
  cases steps_of_step ht hs with
  | skip _ ho => exact htr.skip hlen fun r' heq => by cases heq
  | lost a h i err => exact htr.skip hlen fun r' heq => by cases heq
  | node a o ho n r hs' => exact htr.node hlen (fun r' heq => by cases heq) (hi.placed a) hs'
  | delivered a h i msg hm n r hs' =>
    exact htr.node hlen (fun r' heq => by cases heq) (hi.placed _) hs'
  | conn a h o ho e e' r he hs' =>
    have hc := (hi.placed a).back he
    have hend := hi.ends hc he
    have hne := hi.remote_ne hplain.of_append he
    have hsteps := Endpoint.steps_of_step hend.wf hs'
    obtain ⟨f, -, hfl, hj, hfused⟩ :=
      hi.joined hd (Node.endAt_eq_some_iff.mpr ⟨h, hc, he⟩) hne
    have hh := hj.hears hfl
    -- the id of a new substream was heard at neither end
    have hsilent : ∀ s, o = .pollOutbound s → e.Silent s := by
      rintro s rfl
      have hnew := not_mem_generated hgen
      refine hh.silent (fun hm => hnew (hend.used hne (mem_requests_iff.mpr hm))) fun hm => ?_
      exact hnew (hfused (mem_requests_iff.mpr (hh.taken.subset hm)))
    obtain ⟨-, hgrows⟩ :=
      ledger_steps hend.wf (hend.ledger hne) hend.mixnet hh hsteps ho hsilent
    refine htr.conn hlen he hgrows ?_
    refine gone_steps hend.wf (hend.ledger hne) hend.mixnet hh hsteps fun k heq => ?_
    subst heq
    exact hplain.kept a h k (List.mem_append_right _ (List.mem_singleton_self _))

/-- Every message that a `poll` takes finds what it is for. -/
def PollFinds (net : Network P R) (o : Op P R) : Prop :=
  ∀ a h e, o = .conn a h .poll → (net a).conns h = some e → e.Alive →
    EachTaken Finds (e.conn.inboundRx.queue.length + 1) e

/-- **Substream agreement across the mixnet.**  For any number of transports on a mixnet that
delays, reorders, repeats and loses messages, and every run of fewer than `2 ^ 64 - 1` operations
with fresh ids in which no transport dials itself and no substream is dropped: the run does not
panic; the ids of the substreams yielded at one end of a connection are, in order, a prefix of those
opened at the other end, and there are none if the other end is not there; no `poll` answers an
error; and every data message finds the channel of its substream, every response its pending
substream. -/
theorem lifecycle (ht : t.RoundTrips) (hdial : (dialed ops).Nodup) (hgen : (generated ops).Nodup)
    (hlen : ops.length < 2 ^ 64 - 1) (hplain : Plain ops) :
    ∃ net as, run (step t) (new peerIds) ops = .ok (net, as) ∧
      (∀ a h e, (net a).conns h = some e →
        ∃ ids, (yielded a h ops as).map e.idOf = ids.map some ∧
          (∀ k, (net e.conn.remoteRecipient).transport.connections e.conn.id = some k →
            ids <+: opened e.conn.remoteRecipient k ops as) ∧
          ((net e.conn.remoteRecipient).transport.connections e.conn.id = none → ids = [])) ∧
      (∀ r, .conn (.poll r) ∈ as → r = .pending) ∧
      Along PollFinds (step t) (new peerIds) ops := by
  have hspare : Always (fun xs _ net => Spared t peerIds xs net) (step t) (new peerIds) _ :=
    spared_of_length ht hlen
  -- what holds after every part of the run
  have hpart : ∀ xs, xs <+: ops → ∀ net as, run (step t) (new peerIds) xs = .ok (net, as) →
      (dialed xs).Nodup ∧ Plain xs ∧ Tracks xs as net ∧
        Inv xs as (fun a c => count (refusesAt a c) (step t) (new peerIds) xs) net := by
    rintro xs ⟨ys, rfl⟩ net as hr
    have hd := nodup_dialed_of_append hdial
    have hg := nodup_generated_of_append hgen
    exact ⟨hd, hplain.of_append, tracks_run ht hd hg hplain.of_append hspare.of_append hr,
      inv_run ht hd hg hspare.of_append hr⟩
  have hok : ∃ r, run (step t) (new peerIds) ops = .ok r := by
    refine (run_isOk_iff_along (P := PollKept) fun xs o hp net as hr => ?_).mpr
      (along_of_forall fun xs o hp net as hr a h e _ he ha => ?_)
    · obtain ⟨hd, -, -, hi⟩ := hpart xs ((List.prefix_append xs [o]).trans hp) net as hr
      exact hi.step_isOk_iff ht hd o
    · obtain ⟨hd, hpl, htr, hi⟩ := hpart xs ((List.prefix_append xs [o]).trans hp) net as hr
      refine ⟨fun _ s hs => ?_, fun heq => absurd heq (hi.remote_ne hpl he)⟩
      rw [htr.kept he] at hs
      cases hs
  obtain ⟨⟨net, as⟩, hr⟩ := hok
  obtain ⟨hd, hpl, htr, hi⟩ := hpart ops (List.prefix_refl _) net as hr
  refine ⟨net, as, hr, fun a h e he => ?_, htr.answers, ?_⟩
  · have hc := (hi.placed a).back he
    have hne := hi.remote_ne hpl he
    obtain ⟨ids, hids, hpre⟩ := ((hi.ends hc he).ledger hne).yields
    obtain ⟨f, hf, hfl, hj, -⟩ := hi.joined hd (Node.endAt_eq_some_iff.mpr ⟨h, hc, he⟩) hne
    rw [htr.yielded he] at hids
    have hsent : ids <+: requests f.sent := hpre.trans ((hj.hears hfl).taken.filterMap _)
    refine ⟨ids, hids, fun k hk => ?_, fun hk => ?_⟩
    · obtain ⟨f', hf', -⟩ := (hi.placed _).conn hk
      rw [← htr.opened hf', ← hf f' (Node.endAt_eq_some_iff.mpr ⟨k, hk, hf'⟩)]
      exact hsent
    · -- an end that is not there has sent nothing
      have hlog : e.conn.inboundRx.log <+: [] := by
        refine hi.log_prefix hd (hi.ends hc he).linked (f := Endpoint.new e.conn.peerId a e.conn.id
          Chan.new) (Node.endAt_eq_some_iff.mpr ⟨h, hc, he⟩) (fun f' hf' => ?_) List.Pairwise.nil
          fun m hm => by cases hm
        rw [(hi.placed _).endAt_eq_none_iff.mpr hk] at hf'
        cases hf'
      have htaken : e.taken = [] := (List.append_eq_nil_iff.mp (List.prefix_nil.mp hlog)).1
      rw [htaken] at hpre
      exact List.prefix_nil.mp hpre
  · refine along_of_forall fun xs o hp net as hr a h e _ he ha => ?_
    obtain ⟨hd, hpl, htr, hi⟩ := hpart xs ((List.prefix_append xs [o]).trans hp) net as hr
    obtain ⟨f, hsound⟩ := hi.sound hd he (hi.remote_ne hpl he) ha
    exact eachTaken_finds _ hsound

end

/-- The first transport opens a substream, and the second is given it. -/
def sampleOpen : List (Op RawPeerId RawRecipient) := sampleCall ++
  [.conn (.fill 1) 0 (.pollOutbound ⟨.fill 6⟩), .deliver (.fill 1) (some 0) 0,
    .conn (.fill 2) 0 .poll, .conn (.fill 2) 0 .pollInbound]

/-- The close comes before the second transport drops the substream. -/
def sampleInTime : List (Op RawPeerId RawRecipient) := sampleOpen ++
  [.conn (.fill 1) 0 (.close 0), .deliver (.fill 1) (some 0) 1, .conn (.fill 2) 0 .poll,
    .conn (.fill 2) 0 (.dropSubstream 0)]

/-- It comes after that. -/
def sampleTooLate : List (Op RawPeerId RawRecipient) := sampleOpen ++
  [.conn (.fill 2) 0 (.dropSubstream 0), .conn (.fill 1) 0 (.close 0),
    .deliver (.fill 1) (some 0) 1, .conn (.fill 2) 0 .poll]

set_option maxRecDepth 2000 in
theorem kept_sampleInTime : Along PollKept (step .raw) (new samplePeers) sampleInTime ∧
    ¬ Along PollKept (step .raw) (new samplePeers) sampleTooLate := by
  have hlate : run (step .raw) (new samplePeers) sampleTooLate = .error .unwrapErr := rfl
  refine ⟨(run_isOk_iff_kept ThirdParty.raw_roundTrips (by decide) (by decide) (by decide)).mp
    ⟨_, rfl⟩, fun hkept => ?_⟩
  obtain ⟨r, hr⟩ := (run_isOk_iff_kept ThirdParty.raw_roundTrips (by decide) (by decide)
    (by decide)).mpr hkept
  rw [hlate] at hr
  cases hr

set_option maxRecDepth 2000 in
/-- The substream that the first transport has opened is yielded to the second. -/
theorem lifecycle_sampleOpen :
    ∃ net as, run (step .raw) (new samplePeers) sampleOpen = .ok (net, as) ∧
      (∃ e ids, (net (.fill 2)).conns 0 = some e ∧
        (yielded (.fill 2) 0 sampleOpen as).map e.idOf = ids.map some ∧
        ids <+: opened (.fill 1) 0 sampleOpen as ∧ ids = [⟨.fill 6⟩]) ∧
      (∀ r, .conn (.poll r) ∈ as → r = .pending) ∧
      Along PollFinds (step .raw) (new samplePeers) sampleOpen := by
  have hstate : ∃ net as e, run (step .raw) (new samplePeers) sampleOpen = .ok (net, as) ∧
      (net (.fill 2)).conns 0 = some e ∧ e.conn.remoteRecipient = .fill 1 ∧
      (net (.fill 1)).transport.connections e.conn.id = some 0 ∧
      (yielded (.fill 2) 0 sampleOpen as).map e.idOf = [some ⟨.fill 6⟩] :=
    ⟨_, _, _, rfl, rfl, rfl, rfl, rfl⟩
  obtain ⟨net, as, e, hrun, he, hrem, hconn, hids⟩ := hstate
  have hplain : Plain sampleOpen := by
    refine ⟨fun a c hmem => ?_, by simp [sampleOpen, sampleCall]⟩
    have heq : a = .fill 1 ∧ a = .fill 2 ∧ c = ⟨.fill 5⟩ := by
      simpa [sampleOpen, sampleCall] using hmem
    obtain ⟨rfl, heq, -⟩ := heq
    exact absurd heq (by decide)
  obtain ⟨net', as', hrun', hagree, hanswers, hfinds⟩ :=
    @lifecycle _ _ _ _ samplePeers _ ThirdParty.raw_roundTrips (by decide) (by decide) (by decide)
      hplain
  rw [hrun] at hrun'
  cases hrun'
  obtain ⟨ids, hmap, hpre, -⟩ := hagree _ _ e he
  rw [hrem] at hpre
  refine ⟨net, as, hrun, ⟨e, ids, he, hmap, hpre 0 hconn, ?_⟩, hanswers, hfinds⟩
  rw [hids] at hmap
  exact List.map_injective_iff.mpr (Option.some_injective _) hmap.symm

end Network

end Libp2pNym
