import Libp2pNym.Connection.Equiv.Outbound
import Libp2pNym.Network.Equiv.Step

/-!
# How many messages a run can send

The load of a connection is what its endpoint has sent and what waits to be taken by `poll`, in the
inbound channel or in the queue of the transport.  `poll` sends at most one response for each
message that it takes, so an operation adds at most one to the load or refuses one close, and a run
of fewer than `2^64 - 1` operations wraps no counter (`spared_of_length`).
-/

namespace Libp2pNym

variable {P R : Type}

/-! ### One endpoint -/

namespace Endpoint

/-- What the endpoint has sent and what it has not taken yet. -/
def load (e : Endpoint P R) : ℕ := e.sent.length + e.conn.inboundRx.queue.length

theorem load_emitted (e : Endpoint P R) (s : SubstreamId) (ty : SubstreamMessageType) :
    (e.emitted s ty).load = e.load + 1 := by
  have hsent : (e.emitted s ty).sent = e.sent ++ [⟨s, ty⟩] := Outbox.sentMessages_emit ..
  show (e.emitted s ty).sent.length + e.conn.inboundRx.queue.length = _
  rw [hsent, List.length_append, List.length_singleton, load]
  omega

theorem load_took {e : Endpoint P R} {msg : SubstreamMessage} {rest : List SubstreamMessage}
    (hq : e.conn.inboundRx.queue = msg :: rest) : (e.took msg rest).load + 1 = e.load := by
  show e.sent.length + rest.length + 1 = _
  rw [load, hq, List.length_cons]
  omega

theorem load_handles {e e' : Endpoint P R} {s : SubstreamId} {ty : SubstreamMessageType}
    {r : Except Error Unit} (hh : Handles e s ty e' r) : e'.load ≤ e.load + 1 := by
  cases hh with
  | openAccepted hs ha => exact (load_emitted (e.opened s) s .openResponse).le
  | _ => exact Nat.le_succ e.load

theorem load_pollLoop {fuel : ℕ} {e e' : Endpoint P R} {r : Poll (Except Error StreamMuxerEvent)}
    (hw : e.Wf) (h : pollLoop fuel e = .ok (e', r)) : e'.load ≤ e.load := by
  refine (pollLoop_induction (I := fun e₁ => e₁.Wf ∧ e₁.load ≤ e.load) ?_ ⟨hw, le_refl _⟩ h).2
  rintro e₁ m rest e₂ r₁ ⟨hw₁, hle⟩ hq hm
  have hh := handles_of_handleMessage (hw₁.took m rest) hm
  refine ⟨wf_handles (hw₁.took m rest) hh, ?_⟩
  calc e₂.load ≤ (e₁.took m rest).load + 1 := load_handles hh
    _ = e₁.load := load_took hq
    _ ≤ e.load := hle

/-- An operation adds one to the load, or refuses one close, or neither. -/
theorem load_steps {e e' : Endpoint P R} (hw : e.Wf) {o : Op} {a : Answer} (hs : Steps e o e' a)
    (ho : ∀ m, o ≠ .receive m) :
    e'.load + (if e.refusesClose o then 1 else 0) ≤ e.load + 1 := by
  have hsame : e'.load = e.load → e'.load + (if e.refusesClose o then 1 else 0) ≤ e.load + 1 := by
    intro heq
    split <;> omega
  have hsent : e'.load = e.load + 1 → e.refusesClose o = false →
      e'.load + (if e.refusesClose o then 1 else 0) ≤ e.load + 1 := by
    intro heq hf
    rw [hf, heq]
    exact le_refl _
  cases hs with
  | receive msg ha => exact absurd rfl (ho msg)
  | poll e' r ha hp => exact Nat.le_succ_of_le (load_pollLoop hw hp)
  | requested s ha hs ho => exact hsent (load_emitted e s .openRequest) rfl
  | requestExists s h ha hs ho => exact hsent (load_emitted e s .openRequest) rfl
  | written h sub buf hh hc hn ho => exact hsent (load_emitted e sub.substreamId (.data buf)) rfl
  | closedLocally h sub hh hc ho =>
    refine hsent (load_emitted (e.put h { sub with closed := true }) sub.substreamId .close) ?_
    simp only [refusesClose, hh, hc]
  | _ => exact hsame rfl

end Endpoint

/-! ### One transport -/

namespace MessageQueue

theorem size_tryPush_le (q : MessageQueue) (m : TransportMessage) :
    (q.tryPush m).2.size ≤ q.size + 1 := by
  unfold tryPush
  split
  · exact Nat.le_succ _
  · split
    · exact Nat.le_succ _
    · exact BTreeSet.length_insert_le q.queue m

theorem size_tryPush_of_some {q : MessageQueue} {m : TransportMessage}
    (h : (q.tryPush m).1 = some m) :
    (q.tryPush m).2.size = q.size := by
  unfold tryPush at h ⊢
  split
  · rfl
  · rename_i hne
    rw [if_neg hne] at h
    split at h <;> cases h

theorem size_pop (q : MessageQueue) :
    q.pop = (none, q) ∨ ∃ m, q.pop.1 = some m ∧ q.pop.2.size + 1 ≤ q.size := by
  unfold pop
  rcases q.queue.first_cases with ⟨hfirst, -⟩ | ⟨m, hfirst, hpop, -⟩
  · rw [hfirst]
    exact Or.inl rfl
  · rw [hfirst]
    dsimp only
    split
    · exact Or.inr ⟨m, hpop, BTreeSet.length_popFirst_lt hfirst⟩
    · exact Or.inl rfl

end MessageQueue

namespace Node

/-- What is forwarded leaves the queue. -/
theorem size_forwardQueued_le (fuel : ℕ) (queue : MessageQueue) (rx : Chan SubstreamMessage) :
    (forwardQueued fuel queue rx).1.size + (forwardQueued fuel queue rx).2.1.queue.length
      ≤ queue.size + rx.queue.length := by
  induction fuel generalizing queue rx with
  | zero => exact le_refl _
  | succ fuel ih =>
    unfold forwardQueued
    rcases queue.size_pop with hp | ⟨m, hp, hsize⟩
    · rw [hp]
    · rw [show queue.pop = (some m, queue.pop.2) from Prod.ext hp rfl]
      dsimp only
      split
      · show queue.pop.2.size + rx.queue.length ≤ _
        omega
      · rename_i rx' hsend
        unfold Chan.send at hsend
        split at hsend
        · cases hsend
          have := ih queue.pop.2 { rx with queue := rx.queue ++ [m.message] }
          simp only [List.length_append, List.length_singleton] at this
          omega
        · cases hsend

/-- What the endpoint of the connection `c` has sent, and what waits for it. -/
def load (n : Node P R) (c : ConnectionId) : ℕ :=
  ((n.endAt c).elim 0 Endpoint.load) + (n.queueOf c).size

theorem load_of_none {n : Node P R} {c : ConnectionId} (he : n.endAt c = none) :
    n.load c = (n.queueOf c).size := by
  rw [load, he]
  exact Nat.zero_add _

theorem load_of_some {n : Node P R} {c : ConnectionId} {e : Endpoint P R}
    (he : n.endAt c = some e) : n.load c = e.load + (n.queueOf c).size := by
  rw [load, he]
  rfl

/-- An operation at a transport adds at most the message that has come. -/
theorem load_moves {n n' : Node P R} {c : ConnectionId} {o : Op P R} (hm : Moves n c n' o) :
    n'.load c ≤ n.load c + 1 := by
  cases hm with
  | same _ ho hc he hq =>
    rw [load, load, he, hq]
    exact Nat.le_succ _
  | dropped _ ho hc e he he' hq =>
    rw [load_of_some he', load_of_some he, hq]
    exact Nat.le_succ _
  | established _ peerId recipient ho he h0 hc e' hd he' hq =>
    have hle := size_forwardQueued_le ((n.opened c).size + 1) (n.opened c) Chan.new
    have hload : e'.load
        = (forwardQueued ((n.opened c).size + 1) (n.opened c) Chan.new).2.1.queue.length := by
      rcases hd with rfl | rfl <;> exact Nat.zero_add _
    have hsize : (n.opened c).size = (n.queueOf c).size := rfl
    have hnew : (Chan.new : Chan SubstreamMessage).queue.length = 0 := rfl
    rw [load_of_some he', load_of_none he, hq, hload]
    omega
  | pushed m hid hout hc he hq =>
    have := (n.queueOf c).size_tryPush_le m
    rw [load, load, he, hq]
    omega
  | forwarded m hid e he ha hout hc he' hq =>
    have hle :=
      size_forwardQueued_le (((n.queueOf c).tryPush m).2.size + 1) ((n.queueOf c).tryPush m).2
      { e.conn.inboundRx with queue := e.conn.inboundRx.queue ++ [m.message] }
    rw [List.length_append, List.length_singleton, MessageQueue.size_tryPush_of_some hout] at hle
    rw [load_of_some he', load_of_some he, hq]
    show e.sent.length + (n.passed c e m).2.1.queue.length + (n.passed c e m).1.size
      ≤ e.sent.length + e.conn.inboundRx.queue.length + (n.queueOf c).size + 1
    unfold passed
    rw [MessageQueue.size_tryPush_of_some hout]
    omega

/-- An operation at a transport leaves its endpoints well formed. -/
theorem wf_moves {n n' : Node P R} {c : ConnectionId} {o : Op P R} (hm : Moves n c n' o)
    (hw : ∀ e, n.endAt c = some e → e.Wf) {e' : Endpoint P R} (he' : n'.endAt c = some e') :
    e'.Wf := by
  cases hm with
  | same _ ho hc he hq => exact hw e' (he ▸ he')
  | dropped _ ho hc e he he₁ hq =>
    rw [he'] at he₁
    cases he₁
    exact Endpoint.wf_dropConnection (hw e he)
  | established _ peerId recipient ho he h0 hc e₁ hd he₁ hq =>
    rw [he'] at he₁
    cases he₁
    have hfirst : (n.firstEnd peerId recipient c).Wf :=
      (Endpoint.wf_new _ _ _ _).inboundRx _
    rcases hd with rfl | rfl
    · exact hfirst
    · exact Endpoint.wf_dropConnection hfirst
  | pushed m hid hout hc he hq => exact hw e' (he ▸ he')
  | forwarded m hid e he ha hout hc he₁ hq =>
    rw [he'] at he₁
    cases he₁
    exact (hw e he).inboundRx _

end Node

/-! ### Runs -/

namespace Network

open StepRun

variable [DecidableEq R]

/-- A `poll_close` on a substream whose closed flag is already set: it draws a nonce and sends
nothing. -/
def refuses (net : Network P R) : Op P R → Bool
  | .conn b h o =>
    match (net b).conns h with
    | some e => e.refusesClose o
    | none => false
  | _ => false

/-- The same, on the connection `c` of the transport `a`. -/
def refusesAt (a : R) (c : ConnectionId) (net : Network P R) : Op P R → Bool
  | .conn b h o =>
    match (net b).conns h with
    | some e => decide (b = a ∧ e.conn.id = c) && e.refusesClose o
    | none => false
  | _ => false

theorem refuses_of_refusesAt {a : R} {c : ConnectionId} {net : Network P R} {o : Op P R}
    (h : refusesAt a c net o = true) : refuses net o = true := by
  unfold refusesAt at h
  unfold refuses
  split at h
  · split at h
    · exact (Bool.and_eq_true_iff.mp h).2
    · cases h
  · cases h

theorem refusesAt_self {a : R} {net : Network P R} {h : ℕ} {o : Endpoint.Op} {e : Endpoint P R}
    (he : (net a).conns h = some e) :
    refusesAt a e.conn.id net (.conn a h o) = e.refusesClose o := by
  simp only [refusesAt, he, and_self, decide_true, Bool.true_and]

theorem refusesAt_other {a b : R} {c : ConnectionId} {net : Network P R} {h : ℕ} {o : Endpoint.Op}
    {e : Endpoint P R} (he : (net b).conns h = some e) (hne : ¬ (b = a ∧ e.conn.id = c)) :
    refusesAt a c net (.conn b h o) = false := by
  simp only [refusesAt, he, decide_eq_false hne, Bool.false_and]

/-- What is handed to an endpoint closes nothing. -/
theorem refusesAt_skip {a : R} {c : ConnectionId} {net : Network P R} {o : Op P R}
    (ho : ∀ b h o' e, o = .conn b h o' → (net b).conns h = some e → ∃ msg, o' = .receive msg) :
    refusesAt a c net o = false := by
  unfold refusesAt
  split
  · split
    · rename_i e he
      obtain ⟨msg, rfl⟩ := ho _ _ _ e rfl he
      exact Bool.and_false _
    · rfl
  · rfl

/-- Every endpoint of the network is filed under its id and well formed. -/
structure Sound (net : Network P R) : Prop where
  placed : ∀ a, (net a).Placed
  wf : ∀ a c e, (net a).endAt c = some e → e.Wf

/-- What an operation on the endpoint `e` makes of what is there. -/
theorem Sound.endAt_update {net : Network P R} (hn : Sound net) {b : R} {h : ℕ}
    {e e' : Endpoint P R} (he : (net b).conns h = some e) (a : R) (c : ConnectionId) :
    (Function.update net b { net b with conns := (net b).conns.insert h e' } a).endAt c
      = if a = b ∧ c = e.conn.id then some e' else (net a).endAt c := by
  by_cases hb : a = b
  · subst hb
    rw [Function.update_self, (hn.placed a).endAt_insert he e']
    simp only [true_and]
  · rw [Function.update_of_ne hb, if_neg fun heq => hb heq.1]

theorem queueOf_update {net : Network P R} {b : R} {conns : KeyMap ℕ (Endpoint P R)} (a : R)
    (c : ConnectionId) :
    (Function.update net b { net b with conns := conns } a).queueOf c = (net a).queueOf c := by
  by_cases hb : a = b
  · subst hb
    rw [Function.update_self]
    rfl
  · rw [Function.update_of_ne hb]

theorem Sound.node {net : Network P R} (hn : Sound net) {b : R} {o : Node.Op P R} {n : Node P R}
    {r : Node.Answer P} (hs : Node.Steps (net b) o n r) : Sound (Function.update net b n) where
  placed := (Function.forall_update_iff net fun _ n => n.Placed).mpr
    ⟨Node.placed_steps (hn.placed b) hs, fun a _ => hn.placed a⟩
  wf := by
    refine (Function.forall_update_iff net fun _ n => ∀ c e, n.endAt c = some e → e.Wf).mpr
      ⟨fun c e he => ?_, fun a _ => hn.wf a⟩
    exact Node.wf_moves (Node.moves_steps (hn.placed b) hs c) (hn.wf b c) he

theorem sound_steps {net net' : Network P R} (hn : Sound net) {o : Op P R} {r : Answer P}
    (hs : Steps net o net' r) : Sound net' := by
  cases hs with
  | skip _ ho => exact hn
  | lost b h i err => exact hn
  | node b o' ho n r' hs' => exact hn.node hs'
  | delivered b h i m hm n r' hs' => exact hn.node hs'
  | conn b h o' ho e e' r' he hs' =>
    have hat : (net b).endAt e.conn.id = some e :=
      Node.endAt_eq_some_iff.mpr ⟨h, (hn.placed b).back he, he⟩
    have hw := hn.wf b _ e hat
    constructor
    · intro a
      by_cases hb : a = b
      · subst hb
        rw [Function.update_self]
        refine (hn.placed a).insert he ?_
        exact (Endpoint.frame_steps hw (Endpoint.steps_of_step hw hs') ho).2.2.1
      · rw [Function.update_of_ne hb]
        exact hn.placed a
    · intro a c e₀ he₀
      rw [hn.endAt_update he] at he₀
      split at he₀
      · cases he₀
        exact Endpoint.wf_step hw hs'
      · exact hn.wf a c e₀ he₀

/-- **Every operation adds at most one** to the load of a connection, and a refused close nothing.
-/
theorem load_steps {net net' : Network P R} (hn : Sound net) {o : Op P R} {r : Answer P}
    (hs : Steps net o net' r) (a : R) (c : ConnectionId) :
    (net' a).load c ≤ (net a).load c + if !refuses net o then 1 else 0 := by
  have hnode : ∀ {b : R} {o' : Node.Op P R} {n : Node P R} {r' : Node.Answer P},
      Node.Steps (net b) o' n r' → (Function.update net b n a).load c ≤ (net a).load c + 1 := by
    intro b o' n r' hs'
    by_cases hb : a = b
    · subst hb
      rw [Function.update_self]
      exact Node.load_moves (Node.moves_steps (hn.placed a) hs' c)
    · rw [Function.update_of_ne hb]
      exact Nat.le_succ _
  cases hs with
  | skip _ ho => exact Nat.le_add_right _ _
  | lost b h i err => exact Nat.le_add_right _ _
  | node b o' ho n r' hs' => exact hnode hs'
  | delivered b h i m hm n r' hs' => exact hnode hs'
  | conn b h o' ho e e' r' he hs' =>
    have hat : (net b).endAt e.conn.id = some e :=
      Node.endAt_eq_some_iff.mpr ⟨h, (hn.placed b).back he, he⟩
    have hw := hn.wf b _ e hat
    have hload := Endpoint.load_steps hw (Endpoint.steps_of_step hw hs') ho
    rw [Node.load, hn.endAt_update he, queueOf_update]
    simp only [refuses, he]
    split
    · rename_i heq
      obtain ⟨rfl, rfl⟩ := heq
      rw [Node.load_of_some hat]
      show e'.load + _ ≤ _
      cases hr : e.refusesClose o' with
      | true =>
        rw [hr, if_pos rfl] at hload
        simp only [Bool.not_true, Bool.false_eq_true, ↓reduceIte]
        omega
      | false =>
        rw [hr] at hload
        simp only [Bool.false_eq_true, ↓reduceIte] at hload
        simp only [Bool.not_false, ↓reduceIte]
        omega
    · exact Nat.le_add_right _ _

/-- A connection carries no more than there were operations that were not refused closes. -/
theorem load_run {t : ThirdParty P R} {peerIds : R → P} (ht : t.RoundTrips) {ops : List (Op P R)}
    {as : List (Answer P)} {net : Network P R} (h : run (step t) (new peerIds) ops = .ok (net, as))
    {a : R} {c : ConnectionId} {e : Endpoint P R} (he : (net a).endAt c = some e) :
    e.load ≤ count (fun net o => !refuses net o) (step t) (new peerIds) ops := by
  suffices hall : Sound net ∧ ∀ a c,
      (net a).load c ≤ count (fun net o => !refuses net o) (step t) (new peerIds) ops by
    have hle := hall.2 a c
    rw [Node.load_of_some he] at hle
    exact (Nat.le_add_right _ _).trans hle
  refine run_induction (I := fun xs _ net => Sound net ∧ ∀ a c,
    (net a).load c ≤ count (fun net o => !refuses net o) (step t) (new peerIds) xs) ?_ ?_ h
  · exact ⟨⟨fun a => Node.placed_new _ _ _, fun a c e he => (by cases he)⟩, fun a c => le_refl 0⟩
  · rintro xs es m o net' r hr ⟨hn, hle⟩ hs
    have hsteps := steps_of_step ht hs
    refine ⟨sound_steps hn hsteps, fun a c => ?_⟩
    rw [count_append_singleton hr]
    exact (load_steps hn hsteps a c).trans (Nat.add_le_add_right (hle a c) _)

end Network

end Libp2pNym
