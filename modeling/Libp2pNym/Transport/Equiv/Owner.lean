import Libp2pNym.Transport.Equiv.Events
import Libp2pNym.Transport.Equiv.Signals

/-!
# Who owns a connection

A connection that a transport creates is handed to the application once, by the upgrade of its
request or by the dial of its response.  `single_owner`: in every run of a transport, a connection
that was not dropped is owned by the application, or it waits in exactly one upgrade or in exactly
one future of a dial, and the application is given none twice.

`Owned X n` says this of the node, when `X` are the connections that have left it.  `Passes n n' r`
lists what an operation can do to the owners, where `r` is the connection that leaves the node.
-/

namespace Libp2pNym

open StepRun

variable {P R : Type}

namespace Node

/-! ### Connections and their channels -/

/-- The connection was created and not dropped. -/
def Live (n : Node P R) (h : ℕ) : Prop := ∃ e, n.conns h = some e ∧ e.Alive

/-- The connection waits in the channel of the dial, whose future has not ended. -/
def Holds (n : Node P R) (d h : ℕ) : Prop :=
  ∃ rx, n.rxOf d = some rx ∧ rx.rxAlive = true ∧ rx.slot = .sent h

theorem live_congr {n n' : Node P R} (hn : n'.conns = n.conns) (h : ℕ) :
    n'.Live h ↔ n.Live h := by
  unfold Live
  rw [hn]

theorem live_modify {n n' : Node P R} {h : ℕ} {f : Endpoint P R → Endpoint P R}
    (hconns : n'.conns = n.conns.modify h f)
    (hf : ∀ e, n.conns h = some e → ((f e).Alive ↔ e.Alive)) (k : ℕ) : n'.Live k ↔ n.Live k := by
  unfold Live
  rw [hconns, KeyMap.modify_apply]
  split
  · rename_i hk
    subst hk
    cases he : n.conns k with
    | none => exact Iff.rfl
    | some e =>
      simp only [Option.map_some, Option.some.injEq, exists_eq_left']
      exact hf e he
  · exact Iff.rfl

theorem live_dropConn (n : Node P R) (h k : ℕ) : (n.dropConn h).Live k ↔ n.Live k ∧ k ≠ h := by
  unfold Live dropConn
  dsimp only
  rw [KeyMap.modify_apply]
  split
  · rename_i hk
    refine iff_of_false ?_ fun hl => hl.2 hk
    rintro ⟨e, he, ha⟩
    obtain ⟨e₀, -, rfl⟩ := Option.map_eq_some_iff.mp he
    cases ha
  · rename_i hk
    exact (and_iff_left hk).symm

theorem live_setInbound {n : Node P R} {h : ℕ} {rx : Chan SubstreamMessage}
    (ha : rx.rxAlive = (n.inbound h).rxAlive) (k : ℕ) : (n.setInbound h rx).Live k ↔ n.Live k := by
  refine live_modify rfl (fun e he => ?_) k
  rw [inbound_of_some he] at ha
  exact iff_of_eq (congrArg (· = true) ha)

theorem live_forwardAll (n : Node P R) (id : ConnectionId) (h : ℕ) (queue : MessageQueue) (k : ℕ) :
    (n.forwardAll id h queue).1.Live k ↔ n.Live k := by
  have hframe := (forwardQueued_frame (queue.size + 1) queue (n.inbound h)).2
  have hconns : (n.forwardAll id h queue).1.conns
      = (n.setInbound h (forwardQueued (queue.size + 1) queue (n.inbound h)).2.1).conns := rfl
  exact (live_congr hconns k).trans (live_setInbound hframe k)

theorem Placed.not_live {n : Node P R} (hp : n.Placed) {h : ℕ} (hh : n.nextConn ≤ h) :
    ¬ n.Live h := by
  rintro ⟨e, he, -⟩
  rw [hp.fresh hh] at he
  cases he

/-- A new connection is live. -/
theorem live_connected (n : Node P R) (peerId : P) (recipient : R) (id : ConnectionId) (k : ℕ) :
    (n.connected peerId recipient id).Live k ↔ n.Live k ∨ k = n.nextConn := by
  unfold Live
  rw [conns_connected, KeyMap.insert_apply]
  split
  · rename_i hk
    refine iff_of_true ⟨_, rfl, ?_⟩ (Or.inr hk)
    exact (forwardQueued_frame ..).2
  · rename_i hk
    exact (or_iff_left hk).symm

/-- What dropping a future does to the connections that wait. -/
theorem holds_endDial {n n' : Node P R} (hn : ∀ k, n'.rxOf k = n.rxOf k) (d₀ d h : ℕ) :
    (n'.endDial d₀).Holds d h ↔ n.Holds d h ∧ d ≠ d₀ := by
  have hdials : (n'.endDial d₀).dials = n'.dials.modify d₀ _ := rfl
  unfold Holds
  rw [rxOf_modify hdials (g := Oneshot.dropRx) (fun _ => rfl) d, hn]
  split
  · rename_i hd
    refine iff_of_false ?_ fun hh => hh.2 hd
    rintro ⟨rx, hrx, ha, -⟩
    obtain ⟨rx₀, -, rfl⟩ := Option.map_eq_some_iff.mp hrx
    cases ha
  · rename_i hd
    exact (and_iff_left hd).symm

theorem holds_congr {n n' : Node P R} (hn : ∀ k, n'.rxOf k = n.rxOf k) (d h : ℕ) :
    n'.Holds d h ↔ n.Holds d h := by
  unfold Holds
  rw [hn]

/-! ### What an operation does to the owners -/

/-- What an operation can do to the connections that wait, where `r` is the one that leaves the
node: nothing but make one that is dropped at once; or make one that leaves it; or put a new one
into the channel of a dial; or end a dial, with the connection in its channel. -/
inductive Passes (n n' : Node P R) : Option ℕ → Prop
  | same (hh : ∀ d h, n'.Holds d h ↔ n.Holds d h) (hl : ∀ h, n'.Live h ↔ n.Live h) :
    Passes n n' none
  | accepted (hh : ∀ d h, n'.Holds d h ↔ n.Holds d h)
      (hl : ∀ h, n'.Live h ↔ n.Live h ∨ h = n.nextConn) (hn : n'.nextConn = n.nextConn + 1) :
    Passes n n' (some n.nextConn)
  | resolved (d₀ : ℕ) (hempty : ∀ h, ¬ n.Holds d₀ h)
      (hh : ∀ d h, n'.Holds d h ↔ n.Holds d h ∨ d = d₀ ∧ h = n.nextConn)
      (hl : ∀ h, n'.Live h ↔ n.Live h ∨ h = n.nextConn) : Passes n n' none
  | ended (d₀ : ℕ) (r : Option ℕ) (hr : ∀ h, n.Holds d₀ h ↔ r = some h)
      (hh : ∀ d h, n'.Holds d h ↔ n.Holds d h ∧ d ≠ d₀) (hl : ∀ h, n'.Live h ↔ n.Live h) :
    Passes n n' r
  | dropped (d₀ : ℕ) (hh : ∀ d h, n'.Holds d h ↔ n.Holds d h ∧ d ≠ d₀)
      (hl : ∀ h, n'.Live h ↔ n.Live h ∧ ¬ n.Holds d₀ h) : Passes n n' none

/-- The connection inside an upgrade that is ready. -/
def handleOf (upgrade : Upgrade P) : Option ℕ :=
  match upgrade.connectionTx.slot with
  | .sent v => some v.2
  | .empty => none
  | .closed => none

/-- The connection that an answer gives away. -/
def given : Answer P → Option ℕ
  | .inbound (.ok (.connectionRequest upgrade)) => handleOf upgrade
  | .pollDial (.ready (.ok v)) => some v.2
  | _ => none

theorem passes_handled {ds : List (R × ConnectionId)} {n n' : Node P R} (hp : n.Placed)
    (hb : n.Bound ds) {msg : Message P R} {r : Except Error (InboundTransportEvent P)}
    (hh : Handled n msg n' r) : Passes n n' (given (.inbound r)) := by
  -- a connection that is dropped at once
  have hdrop : ∀ n₁ : Node P R, n₁.nextConn = n.nextConn → n₁.conns = n.conns →
      ∀ (peerId : P) (recipient : R) (id : ConnectionId) (h : ℕ),
      ((n₁.connected peerId recipient id).dropConn n.nextConn).Live h ↔ n.Live h := by
    intro n₁ hnext hconns peerId recipient id h
    rw [live_dropConn, live_connected, hnext, live_congr hconns]
    constructor
    · rintro ⟨hl | hl, hne⟩
      · exact hl
      · exact absurd hl hne
    · intro hl
      refine ⟨Or.inl hl, ?_⟩
      rintro rfl
      exact hp.not_live (le_refl _) hl
  cases hh with
  | accepted msg recipient hr hc hq ha =>
    exact .accepted (fun _ _ => Iff.rfl) (live_connected n msg.peerId recipient msg.id) rfl
  | unanswered msg recipient hr hc hq ha =>
    exact .same (fun _ _ => Iff.rfl) (hdrop n rfl rfl msg.peerId recipient msg.id)
  | resolved msg pending dial hc hpend hq hd ha =>
    -- the channel of a dial that is pending is empty
    have hempty : ∀ h, ¬ n.Holds pending.connectionTx h := by
      rintro h ⟨rx, hrx, -, hslot⟩
      exact hb.not_resolved hpend h ⟨rx, hrx, hslot⟩
    refine .resolved pending.connectionTx hempty (fun d h => ?_)
      (live_connected (n.claimed msg.id) msg.peerId pending.remoteRecipient msg.id)
    unfold Holds
    have hdials : (((n.claimed msg.id).connected msg.peerId pending.remoteRecipient
        msg.id).resolved pending.connectionTx n.nextConn).dials
        = n.dials.modify pending.connectionTx _ := rfl
    rw [rxOf_modify hdials (g := fun rx => { rx with slot := .sent n.nextConn }) (fun _ => rfl) d]
    by_cases hdd : d = pending.connectionTx
    · subst hdd
      have hrx : n.rxOf pending.connectionTx = some dial.connectionRx := by
        rw [rxOf, hd, Option.map_some]
      rw [if_pos rfl, hrx, Option.map_some]
      constructor
      · rintro ⟨rx, heq, -, hslot⟩
        cases heq
        cases hslot
        exact Or.inr ⟨rfl, rfl⟩
      · rintro (⟨rx, heq, hal, hslot⟩ | ⟨-, rfl⟩)
        · cases heq
          exact absurd ⟨_, hrx, hal, hslot⟩ (hempty h)
        · exact ⟨_, rfl, ha, rfl⟩
    · rw [if_neg hdd]
      simp [hdd]
  | unresolved msg pending hc hpend hq hd =>
    exact .same (fun _ _ => Iff.rfl) (hdrop (n.claimed msg.id) rfl rfl msg.peerId
      pending.remoteRecipient msg.id)
  | forwarded msg h e hq hc he ha =>
    refine .same (fun _ _ => Iff.rfl) fun k => ?_
    rw [live_forwardAll, live_setInbound]
    rw [inbound_of_some he]
  | _ => exact .same (fun _ _ => Iff.rfl) fun _ => Iff.rfl

/-- A poll of the future of a dial ends it with the connection in its channel, or leaves it. -/
theorem passes_awaitDial {n n₁ : Node P R} (hrx : ∀ k, n₁.rxOf k = n.rxOf k)
    (hconns : n₁.conns = n.conns) {d : ℕ} {dial : Dial P R}
    (hd : n.rxOf d = some dial.connectionRx) (ha : dial.connectionRx.rxAlive = true)
    (elapsed : Bool) : Passes n (n₁.awaitDial d dial elapsed).1
      (given (.pollDial (n₁.awaitDial d dial elapsed).2)) := by
  have hholds : ∀ h, n.Holds d h ↔ dial.connectionRx.slot = .sent h := by
    intro h
    constructor
    · rintro ⟨rx, heq, -, hslot⟩
      rw [hd] at heq
      cases heq
      exact hslot
    · exact fun hslot => ⟨_, hd, ha, hslot⟩
  have hend : ∀ d' h, (n₁.endDial d).Holds d' h ↔ n.Holds d' h ∧ d' ≠ d := holds_endDial hrx d
  have hlive : ∀ h, (n₁.endDial d).Live h ↔ n.Live h := live_congr hconns
  unfold awaitDial
  cases hslot : dial.connectionRx.slot with
  | sent h =>
    rw [hslot] at hholds
    dsimp only
    cases he : n₁.conns h with
    | some e =>
      refine .ended d (some h) (fun k => ?_) hend hlive
      rw [hholds, Slot.sent.injEq, Option.some.injEq]
    | none =>
      refine .dropped d hend fun k => ?_
      rw [hlive, hholds, Slot.sent.injEq]
      refine (and_iff_left_of_imp ?_).symm
      -- the connection would be in the table
      rintro ⟨e, hk, -⟩ rfl
      rw [← hconns, he] at hk
      cases hk
  | closed =>
    refine .ended d none (fun k => ?_) hend hlive
    rw [hholds, hslot]
    exact ⟨nofun, nofun⟩
  | empty =>
    have hnone : ∀ h, n.Holds d h ↔ none = some h := by
      intro h
      rw [hholds, hslot]
      exact ⟨nofun, nofun⟩
    dsimp only
    split
    · exact .ended d none hnone hend hlive
    · exact .same (holds_congr hrx) (live_congr hconns)

theorem passes_dropDial {n n₁ : Node P R} (hrx : ∀ k, n₁.rxOf k = n.rxOf k)
    (hconns : n₁.conns = n.conns) {d : ℕ} {dial : Dial P R}
    (hd : n.rxOf d = some dial.connectionRx) (ha : dial.connectionRx.rxAlive = true) :
    Passes n (n₁.dropDial d dial) none := by
  have hholds : ∀ h, n.Holds d h ↔ dial.connectionRx.slot = .sent h := by
    intro h
    constructor
    · rintro ⟨rx, heq, -, hslot⟩
      rw [hd] at heq
      cases heq
      exact hslot
    · exact fun hslot => ⟨_, hd, ha, hslot⟩
  unfold dropDial
  cases hslot : dial.connectionRx.slot with
  | sent h =>
    have hdropped : ∀ k, (n₁.dropConn h).rxOf k = n.rxOf k := hrx
    refine .dropped d (holds_endDial hdropped d) fun k => ?_
    rw [hholds, hslot, Slot.sent.injEq]
    calc ((n₁.dropConn h).endDial d).Live k ↔ (n₁.dropConn h).Live k := live_congr rfl k
      _ ↔ n₁.Live k ∧ k ≠ h := live_dropConn n₁ h k
      _ ↔ n.Live k ∧ ¬ h = k := and_congr (live_congr hconns k) ne_comm
  | closed | empty =>
    refine .ended d none (fun k => ?_) (holds_endDial hrx d) (live_congr hconns)
    rw [hholds, hslot]
    exact ⟨nofun, nofun⟩

theorem holds_dropPending_iff {n : Node P R} {id : ConnectionId} {d h : ℕ} :
    (n.dropPending id).Holds d h ↔ n.Holds d h := by
  unfold Holds
  rcases n.rxOf_dropPending id d with heq | ⟨-, heq⟩
  · rw [heq]
  · rw [heq]
    cases n.rxOf d with
    | none => exact Iff.rfl
    | some rx => simp

/-- **What an operation does to the owners**, except for dropping a connection that has left. -/
theorem passes_steps {ds : List (R × ConnectionId)} {n n' : Node P R} (hp : n.Placed)
    (hb : n.Bound ds) {o : Op P R} {a : Answer P} (hs : Steps n o n' a)
    (ho : ∀ h, o ≠ .dropConn h) : Passes n n' (given a) := by
  have hrx : ∀ {d : ℕ} {dial : Dial P R}, n.dials d = some dial →
      n.rxOf d = some dial.connectionRx := by
    intro d dial hd
    rw [rxOf, hd, Option.map_some]
  -- taking the request of a future leaves its channel
  have htaken : ∀ {n₁ : Node P R} {d : ℕ} {dial : Dial P R}, n.dials d = some dial →
      n₁.dials = n.dials.insert d { dial with request := none } → ∀ k, n₁.rxOf k = n.rxOf k := by
    intro n₁ d dial hd hdials k
    rw [rxOf_insert hdials]
    split
    · rename_i hk
      rw [hk, hrx hd]
    · rfl
  cases hs with
  | skip o ho => exact .same (fun _ _ => Iff.rfl) fun _ => Iff.rfl
  | inbound msg n' r hh => exact passes_handled hp hb hh
  | dialed recipient id =>
    refine .same (fun d h => ?_) (live_congr rfl)
    unfold Holds
    rw [rxOf_dial]
    split
    · rename_i hd
      subst hd
      rw [hb.fresh _ (le_of_eq hb.count.symm)]
      refine iff_of_false ?_ ?_
      · rintro ⟨rx, heq, -, hslot⟩
        cases heq
        cases hslot
      · rintro ⟨rx, heq, -⟩
        cases heq
    · exact holds_dropPending_iff
  | unsent d elapsed dial request hd hal hr ha =>
    have hwithdrawn : ∀ k, (n.withdrawn d dial).rxOf k = n.rxOf k := htaken hd rfl
    exact passes_dropDial hwithdrawn rfl (hrx hd) hal
  | sent d elapsed dial request hd hal hr ha =>
    have hch := hrx hd
    have hrequested : ∀ k, (n.requested d dial request).rxOf k = n.rxOf k := htaken hd rfl
    exact passes_awaitDial hrequested rfl hch hal elapsed
  | awaited d elapsed dial hd hal hr =>
    exact passes_awaitDial (fun _ => rfl) rfl (hrx hd) hal elapsed
  | dialDropped d dial hd hal => exact passes_dropDial (fun _ => rfl) rfl (hrx hd) hal
  | connDropped h => exact absurd rfl (ho h)

/-! ### Owners -/

/-- The connections `X` have left the node, and every other connection that was not dropped waits in
the channel of exactly one dial. -/
structure Owned (X : ℕ → Prop) (n : Node P R) : Prop where
  apart : ∀ d h, n.Holds d h → ¬ X h
  single : ∀ d d' h, n.Holds d h → n.Holds d' h → d = d'
  live : ∀ d h, n.Holds d h → n.Live h
  owned : ∀ h, n.Live h → X h ∨ ∃ d, n.Holds d h
  old : ∀ h, X h → h < n.nextConn

/-- The connection was created. -/
theorem Live.lt {n : Node P R} (hp : n.Placed) {h : ℕ} (hl : n.Live h) : h < n.nextConn :=
  Nat.lt_of_not_le fun hh => hp.not_live hh hl

/-- **An operation keeps the owners apart**, and what leaves the node is live and had not left it
before. -/
theorem Owned.passes {X : ℕ → Prop} {n n' : Node P R} (ho : n.Owned X) (hp : n.Placed)
    {r : Option ℕ} (hpass : Passes n n' r) (hnext : n.nextConn ≤ n'.nextConn) :
    n'.Owned (fun h => X h ∨ r = some h) ∧ (∀ h, r = some h → ¬ X h ∧ n'.Live h) ∧
      ∀ h, X h → n.Live h → n'.Live h := by
  have hX : ∀ {h}, X h → h < n'.nextConn := fun hx => Nat.lt_of_lt_of_le (ho.old _ hx) hnext
  cases hpass with
  | same hh hl =>
    refine ⟨⟨fun d h hd => ?_, fun d d' h hd hd' => ?_, fun d h hd => ?_, fun h hlive => ?_,
      fun h hx => ?_⟩, nofun, fun h _ hlive => (hl h).mpr hlive⟩
    · rw [hh] at hd
      simpa using ho.apart d h hd
    · exact ho.single d d' h ((hh d h).mp hd) ((hh d' h).mp hd')
    · exact (hl h).mpr (ho.live d h ((hh d h).mp hd))
    · simp only [reduceCtorEq, or_false, hh]
      exact ho.owned h ((hl h).mp hlive)
    · exact hX (hx.resolve_right nofun)
  | accepted hh hl hn =>
    -- the new connection leaves the node at once, in the upgrade
    have hnew : ¬ X n.nextConn := fun hx => Nat.lt_irrefl _ (ho.old _ hx)
    refine ⟨⟨fun d h hd => ?_, fun d d' h hd hd' => ?_, fun d h hd => ?_, fun h hlive => ?_,
      fun h hx => ?_⟩, ?_, fun h _ hlive => (hl h).mpr (Or.inl hlive)⟩
    · rw [hh] at hd
      rintro (hx | heq)
      · exact ho.apart d h hd hx
      · cases heq
        exact hp.not_live (le_refl _) (ho.live d _ hd)
    · exact ho.single d d' h ((hh d h).mp hd) ((hh d' h).mp hd')
    · exact (hl h).mpr (Or.inl (ho.live d h ((hh d h).mp hd)))
    · rcases (hl h).mp hlive with hlive | rfl
      · rcases ho.owned h hlive with hx | ⟨d, hd⟩
        · exact Or.inl (Or.inl hx)
        · exact Or.inr ⟨d, (hh d h).mpr hd⟩
      · exact Or.inl (Or.inr rfl)
    · rcases hx with hx | heq
      · exact hX hx
      · cases heq
        rw [hn]
        exact Nat.lt_succ_self _
    · rintro h heq
      cases heq
      exact ⟨hnew, (hl _).mpr (Or.inr rfl)⟩
  | resolved d₀ hempty hh hl =>
    -- the new connection waits in the channel of `d₀`
    refine ⟨⟨fun d h hd => ?_, fun d d' h hd hd' => ?_, fun d h hd => ?_, fun h hlive => ?_,
      fun h hx => ?_⟩, nofun, fun h _ hlive => (hl h).mpr (Or.inl hlive)⟩
    · simp only [reduceCtorEq, or_false]
      rcases (hh d h).mp hd with hd | ⟨-, rfl⟩
      · exact ho.apart d h hd
      · exact fun hx => Nat.lt_irrefl _ (ho.old _ hx)
    · rcases (hh d h).mp hd with hd | ⟨hd, hnew⟩ <;>
      rcases (hh d' h).mp hd' with hd' | ⟨hd', hnew'⟩
      · exact ho.single d d' h hd hd'
      · exact absurd (ho.live d h hd) (hp.not_live (le_of_eq hnew'.symm))
      · exact absurd (ho.live d' h hd') (hp.not_live (le_of_eq hnew.symm))
      · exact hd.trans hd'.symm
    · rcases (hh d h).mp hd with hd | ⟨-, rfl⟩
      · exact (hl h).mpr (Or.inl (ho.live d h hd))
      · exact (hl _).mpr (Or.inr rfl)
    · simp only [reduceCtorEq, or_false, hh]
      rcases (hl h).mp hlive with hlive | rfl
      · exact (ho.owned h hlive).imp_right fun ⟨d, hd⟩ => ⟨d, Or.inl hd⟩
      · exact Or.inr ⟨d₀, Or.inr ⟨rfl, rfl⟩⟩
    · exact hX (hx.resolve_right nofun)
  | ended d₀ _ hr hh hl =>
    -- what was in the channel of `d₀` leaves the node
    refine ⟨⟨fun d h hd => ?_, fun d d' h hd hd' => ?_, fun d h hd => ?_, fun h hlive => ?_,
      fun h hx => ?_⟩, fun h heq => ?_, fun h _ hlive => (hl h).mpr hlive⟩
    · obtain ⟨hd, hne⟩ := (hh d h).mp hd
      rintro (hx | heq)
      · exact ho.apart d h hd hx
      · exact hne (ho.single d d₀ h hd ((hr h).mpr heq))
    · exact ho.single d d' h ((hh d h).mp hd).1 ((hh d' h).mp hd').1
    · exact (hl h).mpr (ho.live d h ((hh d h).mp hd).1)
    · rcases ho.owned h ((hl h).mp hlive) with hx | ⟨d, hd⟩
      · exact Or.inl (Or.inl hx)
      · by_cases hdd : d = d₀
        · subst hdd
          exact Or.inl (Or.inr ((hr h).mp hd))
        · exact Or.inr ⟨d, (hh d h).mpr ⟨hd, hdd⟩⟩
    · rcases hx with hx | heq
      · exact hX hx
      · exact Nat.lt_of_lt_of_le ((ho.live d₀ h ((hr h).mpr heq)).lt hp) hnext
    · have hd := (hr h).mpr heq
      exact ⟨ho.apart d₀ h hd, (hl h).mpr (ho.live d₀ h hd)⟩
  | dropped d₀ hh hl =>
    -- what was in the channel of `d₀` is dropped with it
    refine ⟨⟨fun d h hd => ?_, fun d d' h hd hd' => ?_, fun d h hd => ?_, fun h hlive => ?_,
      fun h hx => ?_⟩, nofun, fun h hx hlive => ?_⟩
    · simpa using ho.apart d h ((hh d h).mp hd).1
    · exact ho.single d d' h ((hh d h).mp hd).1 ((hh d' h).mp hd').1
    · obtain ⟨hd, hne⟩ := (hh d h).mp hd
      exact (hl h).mpr ⟨ho.live d h hd, fun hd₀ => hne (ho.single d d₀ h hd hd₀)⟩
    · obtain ⟨hlive, hnot⟩ := (hl h).mp hlive
      rcases ho.owned h hlive with hx | ⟨d, hd⟩
      · exact Or.inl (Or.inl hx)
      · refine Or.inr ⟨d, (hh d h).mpr ⟨hd, ?_⟩⟩
        rintro rfl
        exact hnot hd
    · exact hX (hx.resolve_right nofun)
    · exact (hl h).mpr ⟨hlive, fun hd => ho.apart d₀ h hd hx⟩

/-- A connection that has left the node was dropped. -/
theorem Owned.dropConn {X : ℕ → Prop} {n : Node P R} (ho : n.Owned X) {k : ℕ} (hk : X k) :
    (n.dropConn k).Owned X where
  apart := ho.apart
  single := ho.single
  live d h hd := by
    refine (live_dropConn n k h).mpr ⟨ho.live d h hd, ?_⟩
    rintro rfl
    exact ho.apart d h hd hk
  owned h hlive := ho.owned h ((live_dropConn n k h).mp hlive).1
  old := ho.old

theorem nextConn_steps {n n' : Node P R} {o : Op P R} {a : Answer P} (hs : Steps n o n' a) :
    n.nextConn ≤ n'.nextConn := by
  by_cases ho : ∃ msg, o = .inbound msg
  · obtain ⟨msg, rfl⟩ := ho
    cases hs with
    | skip _ ho => exact absurd rfl (ho msg)
    | inbound _ _ r hh => cases hh <;> first | exact le_refl _ | exact Nat.le_succ _
  · push Not at ho
    exact le_of_eq (frame_steps hs ho).2.2.1.symm

/-- What an answer gives away is a connection with the peer id that it tells. -/
def Tells (n : Node P R) : Answer P → Prop
  | .inbound (.ok (.connectionRequest upgrade)) => ∃ p h e,
      upgrade.connectionTx.slot = .sent (p, h) ∧ n.conns h = some e ∧ e.conn.peerId = p
  | .pollDial (.ready (.ok (p, h))) => ∃ e, n.conns h = some e ∧ e.conn.peerId = p
  | _ => True

theorem Tells.mono {n n' : Node P R} {a : Answer P} (h : n.Tells a)
    (hconns : ∀ h e, n.conns h = some e →
      ∃ e', n'.conns h = some e' ∧ e'.conn.peerId = e.conn.peerId) : n'.Tells a := by
  unfold Tells at h ⊢
  split at h
  · obtain ⟨p, k, e, hslot, he, hpeer⟩ := h
    obtain ⟨e', he', hpeer'⟩ := hconns k e he
    exact ⟨p, k, e', hslot, he', hpeer'.trans hpeer⟩
  · obtain ⟨e, he, hpeer⟩ := h
    obtain ⟨e', he', hpeer'⟩ := hconns _ e he
    exact ⟨e', he', hpeer'.trans hpeer⟩
  · trivial

theorem tells_steps {n n' : Node P R} {o : Op P R} {a : Answer P} (hs : Steps n o n' a) :
    n'.Tells a := by
  have hawait : ∀ (n₁ : Node P R) (d : ℕ) (dial : Dial P R) (elapsed : Bool),
      (n₁.awaitDial d dial elapsed).1.Tells (.pollDial (n₁.awaitDial d dial elapsed).2) := by
    intro n₁ d dial elapsed
    unfold awaitDial
    split
    · rename_i h hslot
      split
      · rename_i e he
        exact ⟨e, he, rfl⟩
      · trivial
    · trivial
    · split <;> trivial
  cases hs with
  | inbound msg n' r hh =>
    cases hh with
    | accepted msg recipient hr hc hq ha =>
      refine ⟨msg.peerId, n.nextConn, n.firstEnd msg.peerId recipient msg.id, rfl, ?_, rfl⟩
      show (n.connected msg.peerId recipient msg.id).conns n.nextConn = _
      rw [conns_connected]
      exact KeyMap.insert_self ..
    | _ => trivial
  | sent d elapsed dial request hd hrx hr ha => exact hawait _ d _ elapsed
  | awaited d elapsed dial hd hrx hr => exact hawait n d dial elapsed
  | _ => trivial

/-- What a run from `n` to `n'` with the answers `as` does to the owners: what leaves the node is
live, leaves it once and had not left it before. -/
structure Leaves (X : ℕ → Prop) (n n' : Node P R) (as : List (Answer P)) : Prop where
  owned : n'.Owned fun h => X h ∨ h ∈ as.filterMap given
  nodup : (as.filterMap given).Nodup
  given : ∀ h ∈ as.filterMap given, ¬ X h ∧ n'.Live h
  live : ∀ h, X h → n.Live h → n'.Live h
  conns : ∀ h e, n.conns h = some e → ∃ e', n'.conns h = some e' ∧ e'.conn.peerId = e.conn.peerId
  tells : ∀ a ∈ as, n'.Tells a

/-- One more operation. -/
theorem Leaves.snoc {X : ℕ → Prop} {ds : List (R × ConnectionId)} {n m t : Node P R}
    {as : List (Answer P)} (hl : Leaves X n m as) (hp : m.Placed) (hb : m.Bound ds)
    {o : Op P R} {a : Answer P} (hs : Steps m o t a) (ho : ∀ h, o ≠ .dropConn h) :
    Leaves X n t (as ++ [a]) := by
  obtain ⟨howned, hgiven, hlive⟩ :=
    hl.owned.passes hp (passes_steps hp hb hs ho) (nextConn_steps hs)
  have hconns : ∀ h e, m.conns h = some e →
      ∃ e', t.conns h = some e' ∧ e'.conn.peerId = e.conn.peerId := by
    intro h e he
    obtain ⟨e', he', -, -, hpeer⟩ := hp.conns_steps hs he
    exact ⟨e', he', hpeer⟩
  have happ : (as ++ [a]).filterMap Node.given = as.filterMap Node.given
      ++ (Node.given a).toList := by
    rw [List.filterMap_append]
    cases hg : Node.given a <;> simp [hg]
  constructor
  · simpa [happ, or_assoc, Option.mem_toList] using howned
  · rw [happ]
    refine hl.nodup.append (by cases Node.given a <;> simp) fun h hh hh' => ?_
    exact (hgiven h (Option.mem_toList.mp hh')).1 (Or.inr hh)
  · rw [happ]
    intro h hh
    rcases List.mem_append.mp hh with hh | hh
    · exact ⟨(hl.given h hh).1, hlive h (Or.inr hh) (hl.given h hh).2⟩
    · obtain ⟨hx, ht⟩ := hgiven h (Option.mem_toList.mp hh)
      exact ⟨fun h' => hx (Or.inl h'), ht⟩
  · exact fun h hx hn => hlive h (Or.inl hx) (hl.live h hx hn)
  · intro h e he
    obtain ⟨e₁, he₁, hpeer₁⟩ := hl.conns h e he
    obtain ⟨e₂, he₂, hpeer₂⟩ := hconns h e₁ he₁
    exact ⟨e₂, he₂, hpeer₂.trans hpeer₁⟩
  · intro b hb
    rcases List.mem_append.mp hb with hb | hb
    · exact (hl.tells b hb).mono hconns
    · rw [List.mem_singleton.mp hb]
      exact tells_steps hs

/-- **What a run does to the owners.** -/
theorem leaves_run {X : ℕ → Prop} {ds : List (R × ConnectionId)} {n n' : Node P R}
    {ops : List (Op P R)} {as : List (Answer P)} (ho : n.Owned X) (hp : n.Placed) (hb : n.Bound ds)
    (hops : ∀ o ∈ ops, ∀ h, o ≠ .dropConn h) (h : run step n ops = .ok (n', as)) :
    Leaves X n n' as := by
  have hmain : (∃ ds', n'.Placed ∧ n'.Bound ds') ∧ Leaves X n n' as := by
    refine run_induction (I := fun ops as n' => (∀ o ∈ ops, ∀ h, o ≠ .dropConn h) →
      (∃ ds', n'.Placed ∧ n'.Bound ds') ∧ Leaves X n n' as) (fun _ => ?_) ?_ h hops
    · exact ⟨⟨ds, hp, hb⟩, by simpa using ho, List.nodup_nil, nofun, fun _ _ hl => hl,
        fun h e he => ⟨e, he, rfl⟩, nofun⟩
    · intro xs es m o t a hr ih hs hops
      obtain ⟨⟨ds', hp', hb'⟩, hl⟩ := ih fun o ho => hops o (List.mem_append_left _ ho)
      have hst := steps_of_step hs
      have hskip : a = .skip → ∀ recipient id, o ≠ .dial recipient id := by
        intro ha
        subst ha
        exact step_dial_ne_skip hs
      refine ⟨⟨_, placed_steps hp' hst, hb'.steps hp' hst hskip⟩, ?_⟩
      exact hl.snoc hp' hb' hst (hops o (List.mem_append_right _ (List.mem_singleton_self o)))
  exact hmain.2

end Node

namespace Listener

/-! ### The transport and its application -/

/-- The connection waits in the upgrade. -/
def Waits (s : Listener P R) (u h : ℕ) : Prop :=
  ∃ upgrade, s.upgrades u = some upgrade ∧ Node.handleOf upgrade = some h

/-- The connection has left the node. -/
def Gone (s : Listener P R) (h : ℕ) : Prop := h ∈ s.taken ∨ ∃ u, s.Waits u h

/-- Every connection that has left the node waits in one upgrade or was given to the application,
once. -/
structure Kept (s : Listener P R) : Prop where
  owned : s.node.Owned s.Gone
  upgrade : ∀ u upgrade, s.upgrades u = some upgrade → ∃ p h e,
    upgrade.connectionTx.slot = .sent (p, h) ∧ s.node.conns h = some e ∧ e.conn.peerId = p ∧ e.Alive
  single : ∀ u u' h, s.Waits u h → s.Waits u' h → u = u'
  apart : ∀ u h, s.Waits u h → h ∉ s.taken
  fresh : ∀ u, s.nextUpgrade ≤ u → s.upgrades u = none
  nodup : s.taken.Nodup

section

variable {f : AddressFormat R} {s s' : Listener P R} {n : Node P R} {upgrade : Upgrade P}

theorem waits_iff {u : ℕ} (hu : s.upgrades u = some upgrade) {h : ℕ} :
    s.Waits u h ↔ Node.handleOf upgrade = some h := by
  unfold Waits
  simp [hu]

/-- The connection in an upgrade when the node has changed. -/
theorem Kept.upgrade_mono (hk : s.Kept) (hlive : ∀ u h, s.Waits u h → s.node.Live h → n.Live h)
    (hconns : ∀ h e, s.node.conns h = some e →
      ∃ e', n.conns h = some e' ∧ e'.conn.peerId = e.conn.peerId)
    {u : ℕ} (hu : s.upgrades u = some upgrade) : ∃ p h e,
      upgrade.connectionTx.slot = .sent (p, h) ∧ n.conns h = some e ∧ e.conn.peerId = p ∧
        e.Alive := by
  obtain ⟨p, h, e, hslot, he, hpeer, ha⟩ := hk.upgrade u upgrade hu
  obtain ⟨e', he', hpeer'⟩ := hconns h e he
  have hw : s.Waits u h := (waits_iff hu).mpr (by simp [Node.handleOf, hslot])
  obtain ⟨e₁, he₁, ha₁⟩ := hlive u h hw ⟨e, he, ha⟩
  rw [he'] at he₁
  cases he₁
  exact ⟨p, h, e', hslot, he', hpeer'.trans hpeer, ha₁⟩

/-- The node has changed, and nothing has left it. -/
theorem Kept.node (hk : s.Kept) (howned : n.Owned s.Gone)
    (hlive : ∀ u h, s.Waits u h → s.node.Live h → n.Live h)
    (hconns : ∀ h e, s.node.conns h = some e →
      ∃ e', n.conns h = some e' ∧ e'.conn.peerId = e.conn.peerId) :
    ({ s with node := n } : Listener P R).Kept where
  owned := howned
  upgrade _ _ hu := hk.upgrade_mono hlive hconns hu
  single := hk.single
  apart := hk.apart
  fresh := hk.fresh
  nodup := hk.nodup

/-- The connections that have left the node are the same. -/
theorem owned_congr {X Y : ℕ → Prop} {n : Node P R} (ho : n.Owned X) (h : ∀ k, Y k ↔ X k) :
    n.Owned Y := by
  obtain rfl : Y = X := funext fun k => propext (h k)
  exact ho

/-- The channels and the events do not matter. -/
theorem Kept.congr (hk : s.Kept) (hnode : s'.node = s.node) (hup : s'.upgrades = s.upgrades)
    (hnext : s'.nextUpgrade = s.nextUpgrade) (htaken : s'.taken = s.taken) : s'.Kept := by
  obtain ⟨n', a', i', c', p', u', k', t'⟩ := s'
  cases hnode
  cases hup
  cases hnext
  cases htaken
  exact ⟨hk.owned, hk.upgrade, hk.single, hk.apart, hk.fresh, hk.nodup⟩

theorem waits_insert (hk : s.Kept) (hup : s'.upgrades = s.upgrades.insert s.nextUpgrade upgrade)
    {h : ℕ} (hh : Node.handleOf upgrade = some h) (u k : ℕ) :
    s'.Waits u k ↔ s.Waits u k ∨ u = s.nextUpgrade ∧ k = h := by
  unfold Waits
  rw [hup, KeyMap.insert_apply]
  split
  · rename_i hu
    subst hu
    rw [hk.fresh _ (le_refl _)]
    simp [hh, eq_comm]
  · rename_i hu
    simp [hu]

theorem waits_remove {u : ℕ} (hup : s'.upgrades = s.upgrades.remove u) (v k : ℕ) :
    s'.Waits v k ↔ s.Waits v k ∧ v ≠ u := by
  unfold Waits
  rw [hup, KeyMap.remove_apply]
  split
  · rename_i hv
    simp [hv]
  · rename_i hv
    simp [hv]

/-- An upgrade has come from the node. -/
theorem Kept.insert (hk : s.Kept) {h : ℕ}
    (hup : ∃ p e, upgrade.connectionTx.slot = .sent (p, h) ∧ n.conns h = some e ∧
      e.conn.peerId = p ∧ e.Alive) (hnew : ¬ s.Gone h)
    (howned : n.Owned fun k => s.Gone k ∨ k = h)
    (hlive : ∀ u k, s.Waits u k → s.node.Live k → n.Live k)
    (hconns : ∀ k e, s.node.conns k = some e →
      ∃ e', n.conns k = some e' ∧ e'.conn.peerId = e.conn.peerId) :
    ({ s with
        node := n
        upgrades := s.upgrades.insert s.nextUpgrade upgrade
        nextUpgrade := s.nextUpgrade + 1 } : Listener P R).Kept := by
  obtain ⟨p, e, hslot, he, hpeer, ha⟩ := hup
  have hh : Node.handleOf upgrade = some h := by simp [Node.handleOf, hslot]
  set t : Listener P R :=
    { s with
      node := n
      upgrades := s.upgrades.insert s.nextUpgrade upgrade
      nextUpgrade := s.nextUpgrade + 1 } with ht
  have hw : ∀ u k, t.Waits u k ↔ s.Waits u k ∨ u = s.nextUpgrade ∧ k = h :=
    waits_insert hk rfl hh
  have hfresh : ∀ k, ¬ s.Waits s.nextUpgrade k := by
    rintro k ⟨up, hup, -⟩
    rw [hk.fresh _ (le_refl _)] at hup
    cases hup
  constructor
  · refine owned_congr howned fun k => ?_
    unfold Gone
    simp only [hw]
    constructor
    · rintro (hk | ⟨u, hu | ⟨-, rfl⟩⟩)
      · exact Or.inl (Or.inl hk)
      · exact Or.inl (Or.inr ⟨u, hu⟩)
      · exact Or.inr rfl
    · rintro ((hk | ⟨u, hu⟩) | rfl)
      · exact Or.inl hk
      · exact Or.inr ⟨u, Or.inl hu⟩
      · exact Or.inr ⟨_, Or.inr ⟨rfl, rfl⟩⟩
  · intro u up hu
    rcases KeyMap.insert_eq_some_iff.mp hu with ⟨rfl, rfl⟩ | ⟨-, hu⟩
    · exact ⟨p, h, e, hslot, he, hpeer, ha⟩
    · exact hk.upgrade_mono hlive hconns hu
  · intro u u' k hu hu'
    rcases (hw u k).mp hu with hu | ⟨hu, hkh⟩ <;> rcases (hw u' k).mp hu' with hu' | ⟨hu', hkh'⟩
    · exact hk.single u u' k hu hu'
    · exact absurd (Or.inr ⟨u, hkh' ▸ hu⟩) hnew
    · exact absurd (Or.inr ⟨u', hkh ▸ hu'⟩) hnew
    · exact hu.trans hu'.symm
  · intro u k hu
    rcases (hw u k).mp hu with hu | ⟨-, rfl⟩
    · exact hk.apart u k hu
    · exact fun hmem => hnew (Or.inl hmem)
  · intro u hu
    have hlt : s.nextUpgrade + 1 ≤ u := hu
    show s.upgrades.insert s.nextUpgrade upgrade u = none
    rw [KeyMap.insert_of_ne _ _ (by omega)]
    exact hk.fresh u (by omega)
  · exact hk.nodup

/-- The connection of a dial was given to the application. -/
theorem Kept.give (hk : s.Kept) {h : ℕ} (hnew : ¬ s.Gone h)
    (howned : n.Owned fun k => s.Gone k ∨ k = h)
    (hlive : ∀ u k, s.Waits u k → s.node.Live k → n.Live k)
    (hconns : ∀ k e, s.node.conns k = some e →
      ∃ e', n.conns k = some e' ∧ e'.conn.peerId = e.conn.peerId) :
    ({ s with node := n, taken := s.taken ++ [h] } : Listener P R).Kept where
  owned := by
    refine owned_congr howned fun k => ?_
    show (k ∈ s.taken ++ [h] ∨ ∃ u, s.Waits u k) ↔ (k ∈ s.taken ∨ ∃ u, s.Waits u k) ∨ k = h
    rw [List.mem_append, List.mem_singleton]
    exact or_right_comm
  upgrade _ _ hu := hk.upgrade_mono hlive hconns hu
  single := hk.single
  apart u k hu hmem := by
    rcases List.mem_append.mp hmem with hmem | hmem
    · exact hk.apart u k hu hmem
    · exact hnew (Or.inr ⟨u, List.mem_singleton.mp hmem ▸ hu⟩)
  fresh := hk.fresh
  nodup := by
    refine hk.nodup.append (List.nodup_singleton h) fun k hmem hk' => ?_
    exact hnew (Or.inl (List.mem_singleton.mp hk' ▸ hmem))

/-- The connection of an upgrade was given to the application. -/
theorem Kept.take (hk : s.Kept) {u h : ℕ} (hw : s.Waits u h) :
    ({ s with upgrades := s.upgrades.remove u, taken := s.taken ++ [h] } : Listener P R).Kept := by
  have hwaits : ∀ v k, ({ s with upgrades := s.upgrades.remove u, taken := s.taken ++ [h] } :
      Listener P R).Waits v k ↔ s.Waits v k ∧ v ≠ u := waits_remove rfl
  constructor
  · refine owned_congr hk.owned fun k => ?_
    unfold Gone
    simp only [hwaits, List.mem_append, List.mem_singleton]
    constructor
    · rintro ((hmem | rfl) | ⟨v, hv, -⟩)
      · exact Or.inl hmem
      · exact Or.inr ⟨u, hw⟩
      · exact Or.inr ⟨v, hv⟩
    · rintro (hmem | ⟨v, hv⟩)
      · exact Or.inl (Or.inl hmem)
      · by_cases hvu : v = u
        · obtain ⟨up, hup, hh⟩ := hw
          subst hvu
          exact Or.inl (Or.inr (Option.some.inj (((waits_iff hup).mp hv).symm.trans hh)))
        · exact Or.inr ⟨v, hv, hvu⟩
  · exact fun v up hv => hk.upgrade v up (KeyMap.remove_eq_some_iff.mp hv).2
  · exact fun v v' k hv hv' => hk.single v v' k ((hwaits v k).mp hv).1 ((hwaits v' k).mp hv').1
  · intro v k hv hmem
    obtain ⟨hsv, hne⟩ := (hwaits v k).mp hv
    rcases List.mem_append.mp hmem with hmem | hmem
    · exact hk.apart v k hsv hmem
    · exact hne (hk.single v u k hsv (List.mem_singleton.mp hmem ▸ hw))
  · intro v hv
    have hnone := hk.fresh v hv
    show s.upgrades.remove u v = none
    rw [KeyMap.remove_apply, hnone, ite_self]
  · refine hk.nodup.append (List.nodup_singleton h) fun k hmem hk' => ?_
    exact hk.apart u h hw (List.mem_singleton.mp hk' ▸ hmem)

/-- An upgrade was dropped with the connection in it. -/
theorem Kept.drop (hk : s.Kept) {u h : ℕ} (hw : s.Waits u h) :
    ({ s with node := s.node.dropConn h, upgrades := s.upgrades.remove u } :
      Listener P R).Kept := by
  have hwaits : ∀ v k, ({ s with node := s.node.dropConn h, upgrades := s.upgrades.remove u } :
      Listener P R).Waits v k ↔ s.Waits v k ∧ v ≠ u := waits_remove rfl
  have hgone : ∀ k, ({ s with node := s.node.dropConn h, upgrades := s.upgrades.remove u } :
      Listener P R).Gone k ↔ s.Gone k ∧ k ≠ h := by
    intro k
    unfold Gone
    simp only [hwaits]
    constructor
    · rintro (hmem | ⟨v, hv, hne⟩)
      · refine ⟨Or.inl hmem, ?_⟩
        rintro rfl
        exact hk.apart u k hw hmem
      · refine ⟨Or.inr ⟨v, hv⟩, ?_⟩
        rintro rfl
        exact hne (hk.single v u k hv hw)
    · rintro ⟨hmem | ⟨v, hv⟩, hne⟩
      · exact Or.inl hmem
      · refine Or.inr ⟨v, hv, ?_⟩
        rintro rfl
        obtain ⟨up, hup, hh⟩ := hw
        exact hne (Option.some.inj (((waits_iff hup).mp hv).symm.trans hh))
  have howned := hk.owned.dropConn (k := h) (Or.inr ⟨u, hw⟩)
  constructor
  · constructor
    · exact fun d k hd hgone' => howned.apart d k hd ((hgone k).mp hgone').1
    · exact howned.single
    · exact howned.live
    · intro k hlive
      rw [hgone]
      refine (howned.owned k hlive).imp_left fun hk => ⟨hk, ?_⟩
      exact ((Node.live_dropConn s.node h k).mp hlive).2
    · exact fun k hk => howned.old k ((hgone k).mp hk).1
  · intro v up hv
    obtain ⟨hne, hv⟩ := KeyMap.remove_eq_some_iff.mp hv
    obtain ⟨p, k, e, hslot, he, hpeer, ha⟩ := hk.upgrade v up hv
    have hwv : s.Waits v k := (waits_iff hv).mpr (by simp [Node.handleOf, hslot])
    have hkh : k ≠ h := fun heq => hne (hk.single v u k hwv (heq ▸ hw))
    refine ⟨p, k, e, hslot, ?_, hpeer, ha⟩
    show s.node.conns.modify h _ k = _
    rw [KeyMap.modify_apply, if_neg hkh, he]
  · exact fun v v' k hv hv' => hk.single v v' k ((hwaits v k).mp hv).1 ((hwaits v' k).mp hv').1
  · exact fun v k hv => hk.apart v k ((hwaits v k).mp hv).1
  · intro v hv
    have hnone := hk.fresh v hv
    show s.upgrades.remove u v = none
    rw [KeyMap.remove_apply, hnone, ite_self]
  · exact hk.nodup

/-- The connection that an event gives away. -/
def givenBy : TransportEvent P → Option ℕ
  | .incoming _ upgrade _ _ => Node.handleOf upgrade
  | _ => none

/-- What leaves the node while messages are handled is inside the upgrades of the events. -/
theorem given_of_handles {msgs : List (InboundMessage P R)} {gs : List (Node.Answer P)}
    (hn : s.Handles msgs n gs) :
    gs.filterMap Node.given = (s.eventsOf gs).filterMap givenBy := by
  unfold Handles at hn
  rw [eventsOf, List.filterMap_filterMap]
  generalize s.node = m at hn
  induction msgs generalizing m gs with
  | nil =>
    cases hn
    rfl
  | cons msg msgs ih =>
    rw [List.map_cons, run_cons_iff] at hn
    obtain ⟨m', a, gs, hs, hr, rfl⟩ := hn
    have hone : Node.given a = (event s.listenerId s.listenAddr a).bind givenBy := by
      simp only [Node.step] at hs
      split at hs
      · cases hs
      · rename_i n' r hr
        cases hs
        cases r with
        | error e => rfl
        | ok ev => cases ev <;> rfl
    rw [List.filterMap_cons, List.filterMap_cons, ih m' hr, ← hone]

/-- The messages that a poll handles. -/
theorem Kept.handles {ds : List (R × ConnectionId)} (hk : s.Kept) (hp : s.node.Placed)
    (hb : s.node.Bound ds) {msgs rest : List (InboundMessage P R)}
    {gs : List (Node.Answer P)} {r : Poll (TransportEvent P)} (hn : s.Handles msgs n gs)
    (hr : r = .pending ∧ rest = [] ∧ s.eventsOf gs = [] ∨
      ∃ ev, r = .ready ev ∧ s.eventsOf gs = [ev]) : ((s.took msgs rest n).keep r).Kept := by
  have hops : ∀ o ∈ msgs.map (fun msg => Node.Op.inbound msg.message), ∀ h, o ≠ .dropConn h := by
    intro o ho h
    obtain ⟨msg, -, rfl⟩ := List.mem_map.mp ho
    exact nofun
  have hl := Node.leaves_run hk.owned hp hb hops hn
  have hgiven := given_of_handles hn
  have hlive : ∀ u h, s.Waits u h → s.node.Live h → n.Live h :=
    fun u h hw => hl.live h (Or.inr ⟨u, hw⟩)
  -- nothing has left the node
  have hquiet : gs.filterMap Node.given = [] → (s.took msgs rest n).Kept := by
    intro hnil
    have howned := hl.owned
    simp only [hnil, List.not_mem_nil, or_false] at howned
    exact (hk.node howned hlive hl.conns).congr rfl rfl rfl rfl
  rcases hr with ⟨rfl, -, hevents⟩ | ⟨ev, rfl, hevents⟩
  · exact hquiet (by rw [hgiven, hevents]; rfl)
  · cases ev with
    | incoming id upgrade addr addr' =>
      -- the answer that has given the event
      obtain ⟨a, ha, hev⟩ := List.mem_filterMap.mp
        (show .incoming id upgrade addr addr' ∈ s.eventsOf gs from
          hevents ▸ List.mem_singleton_self _)
      have htells := hl.tells a ha
      unfold event at hev
      split at hev
      · cases hev
        obtain ⟨p, h, e, hslot, he, hpeer⟩ := htells
        have hh : Node.handleOf upgrade = some h := by simp [Node.handleOf, hslot]
        have hone : gs.filterMap Node.given = [h] := by
          rw [hgiven, hevents]
          simp [givenBy, hh]
        obtain ⟨hnew, e', he', halive⟩ := hl.given h (by rw [hone]; exact List.mem_singleton_self h)
        rw [he] at he'
        cases he'
        have howned := hl.owned
        simp only [hone, List.mem_singleton] at howned
        exact (hk.insert ⟨p, e, hslot, he, hpeer, halive⟩ hnew howned hlive hl.conns).congr
          rfl rfl rfl rfl
      · cases hev
      · cases hev
    | _ => exact hquiet (by rw [hgiven, hevents]; rfl)

/-- An operation of the node that is none of the mixnet's. -/
theorem Kept.local {ds : List (R × ConnectionId)} (hk : s.Kept) (hp : s.node.Placed)
    (hb : s.node.Bound ds) {o : Node.Op P R} {a : Node.Answer P}
    (hs : s.node.step o = .ok (n, a)) (ho : ∀ h, o ≠ .dropConn h) :
    (Node.given a = none → ({ s with node := n } : Listener P R).Kept) ∧
      ∀ h, Node.given a = some h →
        ({ s with node := n, taken := s.taken ++ [h] } : Listener P R).Kept := by
  have hops : ∀ o' ∈ [o], ∀ h, o' ≠ .dropConn h := by
    intro o' ho' h
    rw [List.mem_singleton.mp ho']
    exact ho h
  have hl := Node.leaves_run hk.owned hp hb hops (run_cons_of_ok hs rfl)
  have hlive : ∀ u h, s.Waits u h → s.node.Live h → n.Live h :=
    fun u h hw => hl.live h (Or.inr ⟨u, hw⟩)
  have howned := hl.owned
  refine ⟨fun hg => ?_, fun h hg => ?_⟩
  · simp only [List.filterMap_cons, hg, List.filterMap_nil, List.not_mem_nil, or_false] at howned
    exact hk.node howned hlive hl.conns
  · simp only [List.filterMap_cons, hg, List.filterMap_nil, List.mem_singleton] at howned
    refine hk.give (hl.given h ?_).1 howned hlive hl.conns
    simp [hg]

/-- **Every operation keeps every connection with one owner.** -/
theorem Kept.steps {ds : List (R × ConnectionId)} (hk : s.Kept) (hp : s.node.Placed)
    (hb : s.node.Bound ds) (hq : ∀ ev ∈ s.pollRx.queue, ev.ofInbound = false)
    {o : Op P R} {a : Answer P} (hs : Steps f s o s' a) : s'.Kept := by
  cases hs with
  | skip o ho hd => exact hk
  | arrived msg ha => exact hk.congr rfl rfl rfl rfl
  | ended => exact hk.congr rfl rfl rfl rfl
  | told ev q hqueue =>
    have hin := hq ev (hqueue ▸ List.mem_cons_self)
    cases ev with
    | incoming _ _ _ _ => cases hin
    | _ => exact hk.congr rfl rfl rfl rfl
  | handled msgs rest n gs r hev hqueue hn hr => exact hk.handles hp hb hn hr
  | listening addr => exact hk
  | removed ha => exact hk.congr rfl rfl rfl rfl
  | notRemoved id hid => exact hk
  | dialed o addr id recipient ho ha =>
    exact (hk.local hp hb (o := .dial recipient id) rfl fun h heq => by cases heq).1 rfl
  | undialed o addr id e ho ha => exact hk
  | pollDial d elapsed dial hd =>
    have hstep : s.node.step (.pollDial d elapsed)
        = .ok ((s.node.pollDial d dial elapsed).1,
          .pollDial (s.node.pollDial d dial elapsed).2) := by
      simp only [Node.step, hd]
    have hlocal := hk.local hp hb hstep fun h heq => by cases heq
    unfold Listener.give
    split
    · rename_i p h hr
      refine hlocal.2 h ?_
      rw [hr]
      rfl
    · rename_i err hr
      refine hlocal.1 ?_
      rw [hr]
      rfl
    · rename_i hr
      refine hlocal.1 ?_
      rw [hr]
      rfl
  | dropDial d dial hd =>
    have hstep : s.node.step (.dropDial d) = .ok (s.node.dropDial d dial, .done) := by
      simp only [Node.step, hd]
    exact (hk.local hp hb hstep fun h heq => by cases heq).1 rfl
  | pollUpgrade u upgrade hu =>
    obtain ⟨p, h, e, hslot, -⟩ := hk.upgrade u upgrade hu
    have hpoll : (s.pollUpgrade u upgrade).1
        = { s with upgrades := s.upgrades.remove u, taken := s.taken ++ [h] } := by
      simp only [pollUpgrade, Upgrade.poll, hslot]
      rfl
    rw [hpoll]
    exact hk.take ((waits_iff hu).mpr (by simp [Node.handleOf, hslot]))
  | dropUpgrade u upgrade hu =>
    obtain ⟨p, h, e, hslot, -⟩ := hk.upgrade u upgrade hu
    have hdrop : s.dropUpgrade u upgrade
        = { s with node := s.node.dropConn h, upgrades := s.upgrades.remove u } := by
      simp only [dropUpgrade, hslot]
    rw [hdrop]
    exact hk.drop ((waits_iff hu).mpr (by simp [Node.handleOf, hslot]))
  | dropConn k hk' =>
    refine hk.node (hk.owned.dropConn (Or.inl hk')) (fun u h hw hl => ?_) fun h e he => ?_
    · refine (Node.live_dropConn s.node k h).mpr ⟨hl, ?_⟩
      rintro rfl
      exact hk.apart u h hw hk'
    · show ∃ e', s.node.conns.modify k Endpoint.dropConnection h = some e' ∧ _
      rw [KeyMap.modify_apply]
      split
      · rename_i hh
        subst hh
        exact ⟨e.dropConnection, by rw [he, Option.map_some], rfl⟩
      · exact ⟨e, he, rfl⟩

end

/-! ### Runs -/

section

variable {f : AddressFormat R} {selfAddress : R} {peerId : P}
  {outboundTx : Chan (OutboundMessage P R)} {listenerId : ℕ} {s₀ s : Listener P R}
  {ops : List (Op P R)} {as : List (Answer P)}

end

end Listener

end Libp2pNym
