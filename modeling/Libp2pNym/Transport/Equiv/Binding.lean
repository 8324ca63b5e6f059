import Libp2pNym.Transport.Equiv.Panic

/-!
# Established connections and resolved dials

`binding`: whatever messages come, a transport creates at most one connection for an id, keeps the
channel of an id once it has one, and resolves a dial at most once, with the connection that has the
id of the dial and the address that was dialed.

The connections are the matter of `Placed`.  For the dials, `Bound ds n` ties the pending dials and
the channels of the futures to the list `ds` of what was dialed: a pending dial still has an empty
channel, and a channel that holds a connection holds the one that was dialed.
-/

namespace Libp2pNym.Node

open StepRun

variable {P R : Type}

/-- The addresses and connection ids that were dialed, in order: the dial with the handle `d` is the
`d`-th of them. -/
def dialsIn (ops : List (Op P R)) : List (R × ConnectionId) :=
  ops.filterMap fun o =>
    match o with
    | .dial recipient id => some (recipient, id)
    | _ => none

/-- The channel of the dial's future. -/
def rxOf (n : Node P R) (d : ℕ) : Option (Oneshot ℕ) := (n.dials d).map Dial.connectionRx

/-- The connection with the handle `h` was put into the channel of the dial. -/
def Resolved (n : Node P R) (d h : ℕ) : Prop := ∃ rx, n.rxOf d = some rx ∧ rx.slot = .sent h

/-- The future of the dial has not ended, and there is no connection for it yet. -/
def Waits (n : Node P R) (d : ℕ) : Prop :=
  ∃ rx, n.rxOf d = some rx ∧ rx.rxAlive = true ∧ rx.slot = .empty

/-! ### The channels of the dials -/

theorem dialsIn_append (ops ops' : List (Op P R)) :
    dialsIn (ops ++ ops') = dialsIn ops ++ dialsIn ops' := List.filterMap_append

theorem rxOf_modify {n n' : Node P R} {d : ℕ} {f : Dial P R → Dial P R} {g : Oneshot ℕ → Oneshot ℕ}
    (hdials : n'.dials = n.dials.modify d f)
    (hf : ∀ dial, (f dial).connectionRx = g dial.connectionRx)
    (k : ℕ) : n'.rxOf k = if k = d then (n.rxOf k).map g else n.rxOf k := by
  unfold rxOf
  rw [hdials, KeyMap.modify_apply]
  split
  · rename_i heq
    rw [heq, Option.map_map, Option.map_map]
    exact congrArg (fun f => Option.map f (n.dials d)) (funext hf)
  · rfl

theorem rxOf_insert {n n' : Node P R} {d : ℕ} {dial : Dial P R}
    (hdials : n'.dials = n.dials.insert d dial) (k : ℕ) :
    n'.rxOf k = if k = d then some dial.connectionRx else n.rxOf k := by
  unfold rxOf
  rw [hdials, KeyMap.insert_apply]
  split <;> rfl

/-- Dropping a pending connection leaves the channels of all other dials. -/
theorem rxOf_dropPending (n : Node P R) (id : ConnectionId) (k : ℕ) :
    (n.dropPending id).rxOf k = n.rxOf k ∨
      (∃ p, n.transport.pendingDials id = some p ∧ k = p.connectionTx) ∧
        (n.dropPending id).rxOf k = (n.rxOf k).map Oneshot.dropTx := by
  cases hp : n.transport.pendingDials id with
  | none =>
    left
    rw [rxOf, rxOf, dials_dropPending_of_none hp]
  | some pending =>
    rw [rxOf_modify (dials_dropPending_of_some hp) (g := Oneshot.dropTx) fun _ => rfl]
    split
    · rename_i heq
      exact Or.inr ⟨⟨pending, rfl, heq⟩, rfl⟩
    · exact Or.inl rfl

theorem rxOf_dial (n : Node P R) (recipient : R) (id : ConnectionId) (k : ℕ) :
    (n.dial recipient id).1.rxOf k
      = if k = n.nextDial then some Oneshot.new else (n.dropPending id).rxOf k := by
  have hdials : (n.dial recipient id).1.dials = (n.dropPending id).dials.insert n.nextDial _ := rfl
  exact rxOf_insert hdials k

theorem resolved_dropPending_iff {n : Node P R} {id : ConnectionId} {d h : ℕ} :
    (n.dropPending id).Resolved d h ↔ n.Resolved d h := by
  unfold Resolved
  rcases n.rxOf_dropPending id d with heq | ⟨-, heq⟩
  · rw [heq]
  · rw [heq]
    constructor
    · rintro ⟨rx, hrx, hslot⟩
      obtain ⟨rx', hrx', rfl⟩ := Option.map_eq_some_iff.mp hrx
      exact ⟨rx', hrx', Oneshot.slot_dropTx_eq_sent_iff.mp hslot⟩
    · rintro ⟨rx, hrx, hslot⟩
      exact ⟨rx.dropTx, by rw [hrx, Option.map_some], Oneshot.slot_dropTx_eq_sent_iff.mpr hslot⟩

/-- A dial that lost its sender does not wait. -/
theorem waits_of_dropPending {n : Node P R} {id : ConnectionId} {d : ℕ}
    (hw : (n.dropPending id).Waits d) : n.Waits d := by
  obtain ⟨rx, hrx, ha, hslot⟩ := hw
  rcases n.rxOf_dropPending id d with heq | ⟨-, heq⟩
  · exact ⟨rx, heq ▸ hrx, ha, hslot⟩
  · rw [heq] at hrx
    obtain ⟨rx', -, rfl⟩ := Option.map_eq_some_iff.mp hrx
    exact absurd hslot rx'.slot_dropTx_ne_empty

/-- The channel is as it was, or its future has ended. -/
def Ends (n n' : Node P R) : Prop :=
  ∀ k, n'.rxOf k = n.rxOf k ∨ n'.rxOf k = (n.rxOf k).map Oneshot.dropRx

theorem ends_endDial {n n' : Node P R} (hn : ∀ k, n'.rxOf k = n.rxOf k) (d : ℕ) :
    Ends n (n'.endDial d) := by
  intro k
  have hdials : (n'.endDial d).dials = n'.dials.modify d _ := rfl
  have hmod := rxOf_modify hdials (g := Oneshot.dropRx) (fun _ => rfl) k
  rw [hmod, hn]
  split
  · exact Or.inr rfl
  · exact Or.inl rfl

theorem ends_awaitDial {n n' : Node P R} (hn : ∀ k, n'.rxOf k = n.rxOf k) (d : ℕ) (dial : Dial P R)
    (elapsed : Bool) : Ends n (n'.awaitDial d dial elapsed).1 := by
  unfold awaitDial
  split
  · split <;> exact ends_endDial hn d
  · exact ends_endDial hn d
  · split
    · exact ends_endDial hn d
    · exact fun k => Or.inl (hn k)

theorem ends_dropDial {n n' : Node P R} (hn : ∀ k, n'.rxOf k = n.rxOf k) (d : ℕ) (dial : Dial P R) :
    Ends n (n'.dropDial d dial) := by
  unfold dropDial
  split <;> exact ends_endDial hn d

theorem Ends.resolved_iff {n n' : Node P R} (he : Ends n n') (d h : ℕ) :
    n'.Resolved d h ↔ n.Resolved d h := by
  unfold Resolved
  rcases he d with heq | heq
  · rw [heq]
  · rw [heq]
    constructor
    · rintro ⟨rx, hrx, hslot⟩
      obtain ⟨rx', hrx', rfl⟩ := Option.map_eq_some_iff.mp hrx
      exact ⟨rx', hrx', hslot⟩
    · rintro ⟨rx, hrx, hslot⟩
      exact ⟨rx.dropRx, by rw [hrx, Option.map_some], hslot⟩

theorem Ends.waits {n n' : Node P R} (he : Ends n n') {d : ℕ} (hw : n'.Waits d) : n.Waits d := by
  obtain ⟨rx, hrx, ha, hslot⟩ := hw
  rcases he d with heq | heq
  · exact ⟨rx, heq ▸ hrx, ha, hslot⟩
  · rw [heq] at hrx
    obtain ⟨rx', -, rfl⟩ := Option.map_eq_some_iff.mp hrx
    cases ha

/-- What an operation can do to the dials: futures end; or a pending dial is given up, as its future
is gone; or it is resolved with a new connection; or there is a new dial. -/
inductive DialMoves (n n' : Node P R) : Op P R → Prop
  | ends (o : Op P R) (ho : ∀ recipient id, o ≠ .dial recipient id) (he : Ends n n')
      (hpend : n'.transport.pendingDials = n.transport.pendingDials)
      (hnext : n'.nextDial = n.nextDial) : DialMoves n n' o
  | givenUp (resp : ConnectionMessage P R) (pending : PendingConnection R)
      (hp : n.transport.pendingDials resp.id = some pending)
      (hdead : ∀ dial, n.dials pending.connectionTx = some dial → dial.connectionRx.rxAlive = false)
      (hpend : n'.transport.pendingDials = n.transport.pendingDials.remove resp.id)
      (hdials : n'.dials = n.dials) (hnext : n'.nextDial = n.nextDial) :
    DialMoves n n' (.inbound (.connectionResponse resp))
  | resolved (resp : ConnectionMessage P R) (pending : PendingConnection R) (e : Endpoint P R)
      (hp : n.transport.pendingDials resp.id = some pending)
      (hpend : n'.transport.pendingDials = n.transport.pendingDials.remove resp.id)
      (hdials : n'.dials = n.dials.modify pending.connectionTx (fun dial =>
        { dial with connectionRx := { dial.connectionRx with slot := .sent n.nextConn } }))
      (hnext : n'.nextDial = n.nextDial) (he : n'.conns n.nextConn = some e)
      (hid : e.conn.id = resp.id) (hrem : e.conn.remoteRecipient = pending.remoteRecipient) :
    DialMoves n n' (.inbound (.connectionResponse resp))
  | dialed (recipient : R) (id : ConnectionId) (hn : n' = (n.dial recipient id).1) :
    DialMoves n n' (.dial recipient id)

theorem dialMoves_handled {n n' : Node P R} {msg : Message P R}
    {r : Except Error (InboundTransportEvent P)} (hh : Handled n msg n' r) :
    DialMoves n n' (.inbound msg) := by
  cases hh with
  | resolved msg pending dial hc hp hq hd ha =>
    refine .resolved msg pending
      ((n.claimed msg.id).firstEnd msg.peerId pending.remoteRecipient msg.id) hp rfl rfl rfl ?_
      rfl rfl
    show ((n.claimed msg.id).connected msg.peerId pending.remoteRecipient msg.id).conns
      n.nextConn = _
    rw [conns_connected]
    exact KeyMap.insert_self ..
  | unresolved msg pending hc hp hq hd => exact .givenUp msg pending hp hd rfl rfl rfl
  | _ => exact .ends _ nofun (fun _ => Or.inl rfl) rfl rfl

/-- **What an operation does to the dials.** -/
theorem dialMoves_steps {n n' : Node P R} {o : Op P R} {a : Answer P} (hs : Steps n o n' a)
    (hskip : a = .skip → ∀ recipient id, o ≠ .dial recipient id) : DialMoves n n' o := by
  -- taking the request of a future leaves its channel
  have htaken : ∀ {n₁ : Node P R} {d : ℕ} {dial : Dial P R}, n.dials d = some dial →
      n₁.dials = n.dials.insert d { dial with request := none } → ∀ k, n₁.rxOf k = n.rxOf k := by
    intro n₁ d dial hdial hins k
    rw [rxOf_insert hins]
    split
    · rename_i heq
      rw [heq, rxOf, hdial]
      rfl
    · rfl
  cases hs with
  | skip o ho => exact .ends o (hskip rfl) (fun _ => Or.inl rfl) rfl rfl
  | inbound msg n' r hh => exact dialMoves_handled hh
  | dialed recipient id => exact .dialed recipient id rfl
  | unsent d elapsed dial request hdial hrx hr ha =>
    obtain ⟨h1, -, h2, -⟩ := (n.withdrawn d dial).dropDial_frame d dial
    exact .ends _ nofun (ends_dropDial (htaken hdial rfl) d dial) (by rw [h1]; rfl) h2
  | sent d elapsed dial request hdial hrx hr ha =>
    obtain ⟨h1, -, -, h2⟩ :=
      (n.requested d dial request).awaitDial_frame d { dial with request := none } elapsed
    exact .ends _ nofun (ends_awaitDial (htaken hdial rfl) d _ elapsed) (by rw [h1]; rfl)
      (h2.trans rfl)
  | awaited d elapsed dial hdial hrx hr =>
    obtain ⟨h1, -, -, h2⟩ := n.awaitDial_frame d dial elapsed
    exact .ends _ nofun (ends_awaitDial (fun _ => rfl) d dial elapsed) (by rw [h1]) h2
  | dialDropped d dial hdial hrx =>
    obtain ⟨h1, -, h2, -⟩ := n.dropDial_frame d dial
    exact .ends _ nofun (ends_dropDial (fun _ => rfl) d dial) (by rw [h1]) h2
  | connDropped h => exact .ends _ nofun (fun _ => Or.inl rfl) rfl rfl

theorem dialsIn_of_ne {o : Op P R} (ho : ∀ recipient id, o ≠ .dial recipient id) :
    dialsIn [o] = [] := by
  cases o with
  | dial recipient id => exact absurd rfl (ho recipient id)
  | _ => rfl

/-! ### Dials and connections -/

/-- What is known of the pending dials and of the channels of the futures when `ds` was dialed. -/
structure Bound (ds : List (R × ConnectionId)) (n : Node P R) : Prop where
  count : n.nextDial = ds.length
  fresh : ∀ d, ds.length ≤ d → n.rxOf d = none
  pending : ∀ c p, n.transport.pendingDials c = some p →
    ds[p.connectionTx]? = some (p.remoteRecipient, c) ∧
      ∃ rx, n.rxOf p.connectionTx = some rx ∧ rx.slot = .empty
  resolved : ∀ d h, n.Resolved d h →
    ∃ e, n.conns h = some e ∧ ds[d]? = some (e.conn.remoteRecipient, e.conn.id)

theorem bound_new (selfAddress : R) (peerId : P) (outboundTx : Chan (OutboundMessage P R)) :
    (Node.new selfAddress peerId outboundTx).Bound [] where
  count := rfl
  fresh _ _ := rfl
  pending c p hp := by cases hp
  resolved d h hr := by
    obtain ⟨rx, hrx, -⟩ := hr
    cases hrx

section

variable {ds : List (R × ConnectionId)} {n n' : Node P R}

/-- A dial that is pending has no connection yet. -/
theorem Bound.not_resolved (hb : n.Bound ds) {c : ConnectionId} {p : PendingConnection R}
    (hp : n.transport.pendingDials c = some p) (h : ℕ) : ¬ n.Resolved p.connectionTx h := by
  rintro ⟨rx, hrx, hslot⟩
  obtain ⟨-, rx', hrx', hempty⟩ := hb.pending c p hp
  rw [hrx] at hrx'
  cases hrx'
  rw [hslot] at hempty
  cases hempty

/-- The future of a dial has ended, or a pending dial was given up, and the connections are still
there. -/
theorem Bound.ends (hb : n.Bound ds) (he : Ends n n')
    (hpend : ∀ c p, n'.transport.pendingDials c = some p → n.transport.pendingDials c = some p)
    (hnext : n'.nextDial = n.nextDial)
    (hconns : ∀ h e, n.conns h = some e → ∃ e', n'.conns h = some e' ∧ e'.conn.id = e.conn.id ∧
      e'.conn.remoteRecipient = e.conn.remoteRecipient) : n'.Bound ds where
  count := hnext.trans hb.count
  fresh d hd := by
    rcases he d with heq | heq
    · rw [heq, hb.fresh d hd]
    · rw [heq, hb.fresh d hd, Option.map_none]
  pending c p hp := by
    obtain ⟨h1, rx, hrx, hslot⟩ := hb.pending c p (hpend c p hp)
    refine ⟨h1, ?_⟩
    rcases he p.connectionTx with heq | heq
    · exact ⟨rx, heq.trans hrx, hslot⟩
    · exact ⟨rx.dropRx, by rw [heq, hrx, Option.map_some], hslot⟩
  resolved d h hr := by
    obtain ⟨e, he', hds⟩ := hb.resolved d h ((he.resolved_iff d h).mp hr)
    obtain ⟨e', he₁, hid, hrem⟩ := hconns h e he'
    exact ⟨e', he₁, by rw [hds, hid, hrem]⟩

/-- A pending dial was resolved with the new connection. -/
theorem Bound.resolve (hb : n.Bound ds) {c : ConnectionId} {p : PendingConnection R}
    {e : Endpoint P R} (hp : n.transport.pendingDials c = some p)
    (hpend : n'.transport.pendingDials = n.transport.pendingDials.remove c)
    (hdials : n'.dials = n.dials.modify p.connectionTx (fun dial =>
      { dial with connectionRx := { dial.connectionRx with slot := .sent n.nextConn } }))
    (hnext : n'.nextDial = n.nextDial) (he : n'.conns n.nextConn = some e) (hid : e.conn.id = c)
    (hrem : e.conn.remoteRecipient = p.remoteRecipient)
    (hconns : ∀ h e, n.conns h = some e → ∃ e', n'.conns h = some e' ∧ e'.conn.id = e.conn.id ∧
      e'.conn.remoteRecipient = e.conn.remoteRecipient) : n'.Bound ds := by
  have hrx := rxOf_modify hdials (g := fun rx => { rx with slot := .sent n.nextConn }) fun _ => rfl
  constructor
  · exact hnext.trans hb.count
  · intro d hd
    rw [hrx, hb.fresh d hd]
    split <;> rfl
  · intro c' p' hp'
    rw [hpend] at hp'
    obtain ⟨hne, hp'⟩ := KeyMap.remove_eq_some_iff.mp hp'
    obtain ⟨h1, rx, h2, h3⟩ := hb.pending c' p' hp'
    refine ⟨h1, rx, ?_, h3⟩
    -- one dial is pending under one id
    rw [hrx, if_neg fun heq => ?_]
    · exact h2
    · rw [heq, (hb.pending c p hp).1] at h1
      exact hne (congrArg Prod.snd (Option.some.inj h1)).symm
  · intro d h hr
    obtain ⟨rx, hrx', hslot⟩ := hr
    rw [hrx] at hrx'
    split at hrx'
    · rename_i heq
      obtain ⟨rx₀, -, rfl⟩ := Option.map_eq_some_iff.mp hrx'
      cases hslot
      refine ⟨e, he, ?_⟩
      rw [heq, (hb.pending c p hp).1, hrem, hid]
    · obtain ⟨e₀, he₀, hds⟩ := hb.resolved d h ⟨rx, hrx', hslot⟩
      obtain ⟨e', he', hid', hrem'⟩ := hconns h e₀ he₀
      exact ⟨e', he', by rw [hds, hid', hrem']⟩

/-- A new dial is pending, and the others stay as they were. -/
theorem Bound.dial (hb : n.Bound ds) (recipient : R) (id : ConnectionId) :
    (n.dial recipient id).1.Bound (ds ++ [(recipient, id)]) := by
  have hrx := n.rxOf_dial recipient id
  have hold : ∀ {d : ℕ} {v : R × ConnectionId}, ds[d]? = some v →
      (ds ++ [(recipient, id)])[d]? = some v := by
    intro d v hd
    rw [List.getElem?_append_left (List.getElem?_eq_some_iff.mp hd).1]
    exact hd
  constructor
  · show n.nextDial + 1 = _
    rw [hb.count, List.length_append]
    rfl
  · intro d hd
    rw [List.length_append, List.length_singleton] at hd
    rw [hrx, if_neg (by rw [hb.count]; omega)]
    have hnone := hb.fresh d (by omega)
    rcases n.rxOf_dropPending id d with heq | ⟨-, heq⟩
    · exact heq.trans hnone
    · rw [heq, hnone, Option.map_none]
  · intro c p hp
    rcases KeyMap.insert_eq_some_iff.mp hp with ⟨rfl, rfl⟩ | ⟨hne, hp⟩
    · refine ⟨?_, Oneshot.new, (hrx n.nextDial).trans (if_pos rfl), rfl⟩
      show (ds ++ [(recipient, c)])[n.nextDial]? = _
      rw [hb.count, List.getElem?_concat_length]
    · obtain ⟨h1, rx, h2, h3⟩ := hb.pending c p hp
      have hlt := (List.getElem?_eq_some_iff.mp h1).1
      refine ⟨hold h1, rx, ?_, h3⟩
      rw [hrx, if_neg (by rw [hb.count]; omega)]
      rcases n.rxOf_dropPending id p.connectionTx with heq | ⟨⟨p', hp', heq⟩, -⟩
      · exact heq.trans h2
      · -- the dial that was replaced is pending under another id
        rw [heq, (hb.pending id p' hp').1] at h1
        exact absurd (congrArg Prod.snd (Option.some.inj h1)).symm hne
  · rintro d h ⟨rx, hrx', hslot⟩
    rw [hrx] at hrx'
    split at hrx'
    · cases hrx'
      cases hslot
    · obtain ⟨e, he, hds⟩ := hb.resolved d h (resolved_dropPending_iff.mp ⟨rx, hrx', hslot⟩)
      exact ⟨e, he, hold hds⟩

/-- A dial that was resolved stays so, with the same connection. -/
theorem Bound.stays_resolved (hb : n.Bound ds) {o : Op P R} (hm : DialMoves n n' o) {d h : ℕ}
    (hr : n.Resolved d h) : n'.Resolved d h := by
  cases hm with
  | ends _ ho he hpend hnext => exact (he.resolved_iff d h).mpr hr
  | givenUp resp pending hp hdead hpend hdials hnext =>
    unfold Resolved rxOf
    rw [hdials]
    exact hr
  | resolved resp pending e hp hpend hdials hnext he hid hrem =>
    obtain ⟨rx, hrx, hslot⟩ := hr
    have hne : d ≠ pending.connectionTx := by
      rintro rfl
      exact hb.not_resolved hp h ⟨rx, hrx, hslot⟩
    refine ⟨rx, ?_, hslot⟩
    rw [rxOf_modify hdials (g := fun rx => { rx with slot := .sent n.nextConn }) (fun _ => rfl) d,
      if_neg hne, hrx]
  | dialed recipient id hn =>
    have hne : d ≠ n.nextDial := by
      rintro rfl
      obtain ⟨rx, hrx, -⟩ := hr
      rw [hb.count, hb.fresh _ (le_refl _)] at hrx
      cases hrx
    unfold Resolved
    rw [hn, rxOf_dial, if_neg hne]
    exact resolved_dropPending_iff.mpr hr

/-- **Every operation keeps the dials bound** to what was dialed. -/
theorem Bound.steps (hb : n.Bound ds) (hpl : n.Placed) {o : Op P R} {a : Answer P}
    (hs : Steps n o n' a) (hskip : a = .skip → ∀ recipient id, o ≠ .dial recipient id) :
    n'.Bound (ds ++ dialsIn [o]) := by
  have hconns : ∀ h e, n.conns h = some e → ∃ e', n'.conns h = some e' ∧ e'.conn.id = e.conn.id ∧
      e'.conn.remoteRecipient = e.conn.remoteRecipient := by
    intro h e he
    obtain ⟨e', he', hid, hrem, -⟩ := hpl.conns_steps hs he
    exact ⟨e', he', hid, hrem⟩
  cases dialMoves_steps hs hskip with
  | ends _ ho he hpend hnext =>
    rw [dialsIn_of_ne ho, List.append_nil]
    exact hb.ends he (fun c p hp => hpend ▸ hp) hnext hconns
  | givenUp resp pending hp hdead hpend hdials hnext =>
    rw [dialsIn_of_ne nofun, List.append_nil]
    refine hb.ends (fun k => Or.inl (by rw [rxOf, rxOf, hdials])) (fun c p hp => ?_) hnext hconns
    rw [hpend] at hp
    exact (KeyMap.remove_eq_some_iff.mp hp).2
  | resolved resp pending e hp hpend hdials hnext he hid hrem =>
    rw [dialsIn_of_ne nofun, List.append_nil]
    exact hb.resolve hp hpend hdials hnext he hid hrem hconns
  | dialed recipient id hn =>
    rw [hn]
    exact hb.dial recipient id

/-- A dial whose future still waits is pending. -/
def Pends (ds : List (R × ConnectionId)) (n : Node P R) : Prop :=
  ∀ (d : ℕ) (recipient : R) (c : ConnectionId), ds[d]? = some (recipient, c) → n.Waits d →
    n.transport.pendingDials c = some ⟨recipient, d⟩

/-- With fresh ids, a dial stays pending until it is resolved or its future ends. -/
theorem Bound.pends (hb : n.Bound ds) (hw : n.Pends ds) {o : Op P R} (hm : DialMoves n n' o)
    (hfresh : ((ds ++ dialsIn [o]).map Prod.snd).Nodup) : n'.Pends (ds ++ dialsIn [o]) := by
  cases hm with
  | ends _ ho he hpend hnext =>
    rw [dialsIn_of_ne ho, List.append_nil]
    intro d recipient c hd hwait
    rw [hpend]
    exact hw d recipient c hd (he.waits hwait)
  | givenUp resp pending hp hdead hpend hdials hnext =>
    rw [dialsIn_of_ne nofun, List.append_nil]
    intro d recipient c hd hwait
    have hwait' : n.Waits d := by
      unfold Waits rxOf at hwait
      rwa [hdials] at hwait
    have hold := hw d recipient c hd hwait'
    rw [hpend, KeyMap.remove_of_ne _ ?_]
    · exact hold
    · -- the future of the dial that was given up is gone
      rintro rfl
      rw [hp] at hold
      cases hold
      obtain ⟨rx, hrx, ha, -⟩ := hwait'
      obtain ⟨dial, hdial, rfl⟩ := Option.map_eq_some_iff.mp hrx
      rw [hdead dial hdial] at ha
      cases ha
  | resolved resp pending e hp hpend hdials hnext he hid hrem =>
    rw [dialsIn_of_ne nofun, List.append_nil]
    intro d recipient c hd hwait
    have hrx := rxOf_modify hdials (g := fun rx => { rx with slot := .sent n.nextConn })
      (fun _ => rfl) d
    have hne : d ≠ pending.connectionTx := by
      rintro rfl
      obtain ⟨rx, hrx', -, hslot⟩ := hwait
      rw [hrx, if_pos rfl] at hrx'
      obtain ⟨rx₀, -, rfl⟩ := Option.map_eq_some_iff.mp hrx'
      cases hslot
    rw [if_neg hne] at hrx
    have hwait' : n.Waits d := by
      unfold Waits at hwait
      rwa [hrx] at hwait
    have hold := hw d recipient c hd hwait'
    rw [hpend, KeyMap.remove_of_ne _ ?_]
    · exact hold
    · rintro rfl
      rw [hp] at hold
      cases hold
      exact hne rfl
  | dialed recipient id hn =>
    have hds : ds ++ dialsIn [Op.dial (P := P) recipient id] = ds ++ [(recipient, id)] := rfl
    rw [hds] at hfresh ⊢
    intro d recipient' c hd hwait
    rw [hn] at hwait ⊢
    show n.transport.pendingDials.insert id ⟨recipient, n.nextDial⟩ c = _
    by_cases hlt : d < ds.length
    · rw [List.getElem?_append_left hlt] at hd
      have hwait' : n.Waits d := by
        unfold Waits at hwait
        rw [rxOf_dial, if_neg (by rw [hb.count]; omega)] at hwait
        exact waits_of_dropPending hwait
      rw [KeyMap.insert_of_ne _ _ ?_]
      · exact hw d recipient' c hd hwait'
      · -- the id is new
        rintro rfl
        rw [List.map_append] at hfresh
        refine List.disjoint_of_nodup_append hfresh ?_ (List.mem_singleton_self c)
        exact List.mem_map.mpr ⟨_, List.mem_of_getElem? hd, rfl⟩
    · rw [List.getElem?_append_right (by omega)] at hd
      obtain ⟨hlen, heq⟩ := List.getElem?_eq_some_iff.mp hd
      rw [List.length_singleton] at hlen
      have hzero : d = ds.length := by omega
      rw [List.getElem_singleton] at heq
      cases heq
      rw [KeyMap.insert_self, hb.count, hzero]

end

/-! ### Runs -/

theorem step_dial_ne_skip {n n' : Node P R} {o : Op P R} (h : n.step o = .ok (n', .skip))
    (recipient : R) (id : ConnectionId) : o ≠ .dial recipient id := by
  rintro rfl
  cases h

theorem bound_run {selfAddress : R} {peerId : P} {outboundTx : Chan (OutboundMessage P R)}
    {ops : List (Op P R)} {n : Node P R} {as : List (Answer P)}
    (h : run step (Node.new selfAddress peerId outboundTx) ops = .ok (n, as)) :
    n.Bound (dialsIn ops) := by
  refine run_induction (I := fun ops _ n => n.Bound (dialsIn ops)) (bound_new _ _ _) ?_ h
  intro xs as m o t a hr hb hs
  rw [dialsIn_append]
  refine hb.steps (placed_run hr) (steps_of_step hs) fun ha => ?_
  subst ha
  exact step_dial_ne_skip hs

/-- A future answers with the connection its channel holds. -/
theorem resolved_of_pollDial {n n' : Node P R} {d h : ℕ} {elapsed : Bool} {p : P}
    (hs : Steps n (.pollDial d elapsed) n' (.pollDial (.ready (.ok (p, h))))) : n.Resolved d h := by
  have hawait : ∀ {n₁ : Node P R} {dial : Dial P R},
      (n₁.awaitDial d dial elapsed).2 = .ready (.ok (p, h)) → dial.connectionRx.slot = .sent h := by
    intro n₁ dial hans
    unfold awaitDial at hans
    split at hans
    · rename_i k hslot
      split at hans
      · cases hans
        exact hslot
      · cases hans
    · cases hans
    · split at hans <;> cases hans
  generalize ha : Answer.pollDial (.ready (.ok (p, h))) = a at hs
  cases hs with
  | skip o ho => cases ha
  | unsent _ _ dial request hd hrx hr hmix => cases ha
  | sent _ _ dial request hd hrx hr hmix =>
    have hslot := hawait (Answer.pollDial.inj ha).symm
    exact ⟨dial.connectionRx, by rw [rxOf, hd, Option.map_some], hslot⟩
  | awaited _ _ dial hd hrx hr =>
    have hslot := hawait (Answer.pollDial.inj ha).symm
    exact ⟨dial.connectionRx, by rw [rxOf, hd, Option.map_some], hslot⟩

/-- What stays from one state of a run to any later one: the handles of the connections with their
ids, the channels filed under the ids, and the connections that dials were resolved with. -/
theorem stays_run {selfAddress : R} {peerId : P} {outboundTx : Chan (OutboundMessage P R)}
    {xs ys : List (Op P R)} {m n : Node P R} {as bs : List (Answer P)}
    (hm : run step (Node.new selfAddress peerId outboundTx) xs = .ok (m, as))
    (hn : run step m ys = .ok (n, bs)) :
    (∀ h e, m.conns h = some e → ∃ e', n.conns h = some e' ∧ e'.conn.id = e.conn.id) ∧
      (∀ c h, m.transport.connections c = some h → n.transport.connections c = some h) ∧
      ∀ d h, m.Resolved d h → n.Resolved d h := by
  refine run_induction (I := fun _ _ n =>
    (∀ h e, m.conns h = some e → ∃ e', n.conns h = some e' ∧ e'.conn.id = e.conn.id) ∧
      (∀ c h, m.transport.connections c = some h → n.transport.connections c = some h) ∧
      ∀ d h, m.Resolved d h → n.Resolved d h)
    ⟨fun h e he => ⟨e, he, rfl⟩, fun _ _ hc => hc, fun _ _ hr => hr⟩ ?_ hn
  rintro zs es k o t a hk ⟨h1, h2, h3⟩ hs
  have hrun : run step (Node.new selfAddress peerId outboundTx) (xs ++ zs) = .ok (k, as ++ es) :=
    run_append_iff.mpr ⟨m, as, es, hm, hk, rfl⟩
  have hst := steps_of_step hs
  have hmoves : DialMoves k t o := dialMoves_steps hst fun ha => by
    subst ha
    exact step_dial_ne_skip hs
  refine ⟨fun h e he => ?_, fun c h hc => ?_, fun d h hr => ?_⟩
  · obtain ⟨e₁, he₁, hid₁⟩ := h1 h e he
    obtain ⟨e₂, he₂, hid₂, -⟩ := (placed_run hrun).conns_steps hst he₁
    exact ⟨e₂, he₂, hid₂.trans hid₁⟩
  · exact (moves_steps (placed_run hrun) hst c).connections (placed_run hrun) (h2 c h hc)
  · exact (bound_run hrun).stays_resolved hmoves (h3 d h hr)

/-- **An established connection is not replaced, and a dial is not bound to another.**  In every run
of a transport, over any dials, any ends of their futures, any dropped connections and any inbound
messages: at most one connection was created for an id, and what was created stays; an id keeps the
channel it has; a dial that was resolved stays resolved with that connection, which is the only one
that its future answers with, and which has the id and the remote address of the dial. -/
theorem binding {selfAddress : R} {peerId : P} {outboundTx : Chan (OutboundMessage P R)}
    {ops : List (Op P R)} {n : Node P R} {as : List (Answer P)}
    (hrun : run step (Node.new selfAddress peerId outboundTx) ops = .ok (n, as)) :
    (∀ h h' e e', n.conns h = some e → n.conns h' = some e' → e.conn.id = e'.conn.id → h = h') ∧
    (∀ xs ys m bs, ops = xs ++ ys →
      run step (Node.new selfAddress peerId outboundTx) xs = .ok (m, bs) →
      (∀ h e, m.conns h = some e → ∃ e', n.conns h = some e' ∧ e'.conn.id = e.conn.id) ∧
      (∀ c h, m.transport.connections c = some h → n.transport.connections c = some h) ∧
      ∀ d h, m.Resolved d h → n.Resolved d h) ∧
    (∀ d h, n.Resolved d h →
      ∃ e, n.conns h = some e ∧ (dialsIn ops)[d]? = some (e.conn.remoteRecipient, e.conn.id)) ∧
    ∀ (i d : ℕ) (elapsed : Bool) (p : P) (h : ℕ), ops[i]? = some (.pollDial d elapsed) →
      as[i]? = some (.pollDial (.ready (.ok (p, h)))) → n.Resolved d h := by
  have hp := placed_run hrun
  refine ⟨?_, ?_, (bound_run hrun).resolved, ?_⟩
  · intro h h' e e' he he' hid
    have hback := hp.back he
    rw [hid, hp.back he'] at hback
    exact (Option.some.inj hback).symm
  · rintro xs ys m bs rfl hm
    obtain ⟨m', bs', cs, hm', hn, -⟩ := run_append_iff.mp hrun
    rw [hm] at hm'
    cases hm'
    exact stays_run hm hn
  · intro i d elapsed p h ho ha
    obtain ⟨xs, o, ys, m, m', as₁, as₂, rfl, rfl, rfl, hm, hs, hn⟩ := run_split hrun ha
    rw [List.getElem?_append_right (by rw [length_answers hm]), length_answers hm, Nat.sub_self,
      List.getElem?_cons_zero] at ho
    cases ho
    have hres := resolved_of_pollDial (steps_of_step hs)
    have hrest : run step m (.pollDial d elapsed :: ys) = .ok (n, _ :: as₂) :=
      run_cons_iff.mpr ⟨m', _, as₂, hs, hn, rfl⟩
    exact (stays_run hm hrest).2.2 d h hres

/-- A dial whose response comes twice, the second time from someone else. -/
def sampleTakeover : List (Op RawPeerId RawRecipient) :=
  [.dial (.fill 10) ⟨.fill 1⟩, .pollDial 0 false,
    .inbound (.connectionResponse ⟨.fill 8, ⟨.fill 1⟩, none⟩),
    .inbound (.connectionResponse ⟨.fill 5, ⟨.fill 1⟩, none⟩),
    .inbound (.connectionRequest ⟨.fill 5, ⟨.fill 1⟩, some (.fill 6)⟩), .pollDial 0 false]

/-- The dial is resolved with the first, and with the address that was dialed. -/
theorem binding_sampleTakeover :
    ∃ n as, run step sample sampleTakeover = .ok (n, as) ∧
      n.Resolved 0 0 ∧ ∃ e, n.conns 0 = some e ∧
        (dialsIn sampleTakeover)[0]? = some (e.conn.remoteRecipient, e.conn.id) := by
  have hstate : ∃ n as, run step sample sampleTakeover = .ok (n, as) ∧
      sampleTakeover[5]? = some (.pollDial 0 false) ∧
      as[5]? = some (.pollDial (.ready (.ok (.fill 8, 0)))) := ⟨_, _, rfl, rfl, rfl⟩
  obtain ⟨n, as, hrun, ho, ha⟩ := hstate
  have hbind := binding hrun
  have hres := hbind.2.2.2 5 0 false (.fill 8) 0 ho ha
  exact ⟨n, as, hrun, hres, hbind.2.2.1 0 0 hres⟩

end Libp2pNym.Node
