import Libp2pNym.Message.Equiv.Codec
import Libp2pNym.Network.Basic
import Libp2pNym.Transport.Equiv.Signals

/-!
# What a network of transports can do

`Steps net o net' a` lists what an operation can do.  `Calls ops a b c` says that the transport `a`
has dialed `b` and the connection id was `c`, and `Linked` that one of the two has dialed the other.
With fresh connection ids a connection id has two ends and no more.  `Honest ops a n` says that the
connection messages of the transport `a` are the requests for its own dials and the answers to the
dials of others.
-/

namespace Libp2pNym.Network

variable {P R : Type}

/-! ### Operations -/

section

variable [DecidableEq R]

/-- What an operation can do. -/
inductive Steps (net : Network P R) : Op P R → Network P R → Answer P → Prop
  | skip (o : Op P R) (ho : ∀ a h o' e, o = .conn a h o' → (net a).conns h = some e →
      ∃ msg, o' = .receive msg) : Steps net o net .skip
  | lost (a : R) (h : Option ℕ) (i : ℕ) (err : Error) : Steps net (.deliver a h i) net (.lost err)
  | node (a : R) (o : Node.Op P R) (ho : ∀ msg, o ≠ .inbound msg) (n : Node P R) (r : Node.Answer P)
      (hs : Node.Steps (net a) o n r) :
    Steps net (.node a o) (Function.update net a n) (.node r)
  | delivered (a : R) (h : Option ℕ) (i : ℕ) (m : OutboundMessage P R)
      (hm : m ∈ sentFrom (net a) h) (n : Node P R) (r : Node.Answer P)
      (hs : Node.Steps (net m.recipient) (.inbound m.message) n r) :
    Steps net (.deliver a h i) (Function.update net m.recipient n) (.node r)
  | conn (a : R) (h : ℕ) (o : Endpoint.Op) (ho : ∀ msg, o ≠ .receive msg) (e e' : Endpoint P R)
      (r : Endpoint.Answer) (he : (net a).conns h = some e) (hs : e.step o = .ok (e', r)) :
    Steps net (.conn a h o)
      (Function.update net a { net a with conns := (net a).conns.insert h e' }) (.conn r)

theorem stepNode_cases {net net' : Network P R} {a : R} {o : Node.Op P R} {r : Answer P}
    (h : net.stepNode a o = .ok (net', r)) : ∃ n r', Node.Steps (net a) o n r' ∧
      net' = Function.update net a n ∧ r = .node r' := by
  unfold stepNode at h
  split at h
  · cases h
  · rename_i n r' hs
    cases h
    exact ⟨n, r', Node.steps_of_step hs, rfl, rfl⟩

/-- An operation that does not panic does one of the things `Steps` lists. -/
theorem steps_of_step {t : ThirdParty P R} (ht : t.RoundTrips) {net net' : Network P R} {o : Op P R}
    {r : Answer P} (h : net.step t o = .ok (net', r)) : Steps net o net' r := by
  cases o with
  | node a o =>
    by_cases ho : ∃ msg, o = .inbound msg
    · obtain ⟨msg, rfl⟩ := ho
      cases h
      exact .skip _ fun _ _ _ _ heq _ => (by cases heq)
    · push Not at ho
      have h' : net.stepNode a o = .ok (net', r) := by
        cases o with
        | inbound msg => exact absurd rfl (ho msg)
        | _ => exact h
      obtain ⟨n, r', hs, rfl, rfl⟩ := stepNode_cases h'
      exact .node a o ho n r' hs
  | conn a k o =>
    by_cases ho : ∃ msg, o = .receive msg
    · obtain ⟨msg, rfl⟩ := ho
      cases h
      refine .skip _ fun _ _ _ _ heq _ => ?_
      cases heq
      exact ⟨msg, rfl⟩
    · push Not at ho
      have h' : net.stepConn a k o = .ok (net', r) := by
        cases o with
        | receive msg => exact absurd rfl (ho msg)
        | _ => exact h
      unfold stepConn at h'
      split at h'
      · rename_i hnone
        cases h'
        refine .skip _ fun _ _ _ e heq he => ?_
        cases heq
        rw [hnone] at he
        cases he
      · rename_i e he
        split at h'
        · cases h'
        · rename_i e' r' hs
          cases h'
          exact .conn a k o ho e e' r' he hs
  | deliver a k i =>
    simp only [step] at h
    split at h
    · cases h
      exact .skip _ fun _ _ _ _ heq _ => (by cases heq)
    · rename_i m hm
      rcases parseMessageData_toBytes ht m.message with ⟨-, hp⟩ | ⟨-, hp⟩
      · rw [hp] at h
        obtain ⟨n, r', hs, rfl, rfl⟩ := stepNode_cases h
        exact .delivered a k i m (List.mem_of_getElem? hm) n r' hs
      · rw [hp] at h
        cases h
        exact .lost a k i _

end

/-! ### Who is connected to whom -/

/-- The transport `a` has dialed `b`, with the connection id `c`. -/
def Calls (ops : List (Op P R)) (a b : R) (c : ConnectionId) : Prop := .node a (.dial b c) ∈ ops

/-- One of the two has dialed the other. -/
def Linked (ops : List (Op P R)) (a b : R) (c : ConnectionId) : Prop :=
  Calls ops a b c ∨ Calls ops b a c

theorem dialed_append (ops ops' : List (Op P R)) :
    dialed (ops ++ ops') = dialed ops ++ dialed ops' := List.filterMap_append

theorem generated_append (ops ops' : List (Op P R)) :
    generated (ops ++ ops') = generated ops ++ generated ops' := List.filterMap_append

/-- Fresh ids are fresh in every part of a run. -/
theorem nodup_dialed_of_append {ops ops' : List (Op P R)} (h : (dialed (ops ++ ops')).Nodup) :
    (dialed ops).Nodup := by
  rw [dialed_append] at h
  exact h.of_append_left

theorem nodup_generated_of_append {ops ops' : List (Op P R)}
    (h : (generated (ops ++ ops')).Nodup) : (generated ops).Nodup := by
  rw [generated_append] at h
  exact h.of_append_left

theorem Calls.mono {ops ops' : List (Op P R)} {a b : R} {c : ConnectionId} (h : Calls ops a b c)
    (hsub : ops ⊆ ops') : Calls ops' a b c := hsub h

theorem Linked.mono {ops ops' : List (Op P R)} {a b : R} {c : ConnectionId} (h : Linked ops a b c)
    (hsub : ops ⊆ ops') : Linked ops' a b c := h.imp (·.mono hsub) (·.mono hsub)

theorem Linked.symm {ops : List (Op P R)} {a b : R} {c : ConnectionId} (h : Linked ops a b c) :
    Linked ops b a c := Or.symm h

theorem mem_dialed_of_calls {ops : List (Op P R)} {a b : R} {c : ConnectionId}
    (h : Calls ops a b c) : c ∈ dialed ops :=
  List.mem_filterMap.mpr ⟨_, h, rfl⟩

/-- A fresh connection id belongs to one dial. -/
theorem Calls.unique {ops : List (Op P R)} (hfresh : (dialed ops).Nodup) {a b a' b' : R}
    {c : ConnectionId} (h : Calls ops a b c) (h' : Calls ops a' b' c) : a = a' ∧ b = b' := by
  induction ops with
  | nil => cases h
  | cons o ops ih =>
    have happ := dialed_append [o] ops
    rw [List.singleton_append] at happ
    rw [happ] at hfresh
    have hdisj := List.disjoint_of_nodup_append hfresh
    have hhead : ∀ {x y : R}, o = .node x (.dial y c) → c ∈ dialed [o] := by
      rintro x y rfl
      exact List.mem_singleton_self c
    rcases List.mem_cons.mp h with h | h
    · rcases List.mem_cons.mp h' with h' | h'
      · rw [← h] at h'
        cases h'
        exact ⟨rfl, rfl⟩
      · exact absurd (mem_dialed_of_calls h') (hdisj (hhead h.symm))
    · rcases List.mem_cons.mp h' with h' | h'
      · exact absurd (mem_dialed_of_calls h) (hdisj (hhead h'.symm))
      · exact ih hfresh.of_append_right h h'

/-- The other end of a connection is determined by one end of it. -/
theorem Linked.unique {ops : List (Op P R)} (hfresh : (dialed ops).Nodup) {a a' b : R}
    {c : ConnectionId} (h : Linked ops a b c) (h' : Linked ops a' b c) : a = a' := by
  rcases h with h | h <;> rcases h' with h' | h'
  · exact (h.unique hfresh h').1
  · obtain ⟨h1, h2⟩ := h.unique hfresh h'
    exact h1.trans h2
  · obtain ⟨h1, h2⟩ := h.unique hfresh h'
    exact h2.trans h1
  · exact (h.unique hfresh h').2

/-- Two ends of a connection are each other's remotes. -/
theorem Linked.remote {ops : List (Op P R)} (hfresh : (dialed ops).Nodup) {a b x y : R}
    {c : ConnectionId} (hab : a ≠ b) (h : Linked ops a x c) (h' : Linked ops b y c) : x = b := by
  rcases h with h | h <;> rcases h' with h' | h'
  · exact absurd (h.unique hfresh h').1 hab
  · exact (h.unique hfresh h').2
  · exact (h.unique hfresh h').1
  · exact absurd (h.unique hfresh h').2 hab

/-! ### Connection messages -/

/-- A connection message that the transport `a` can have sent: the request for a dial of its own, or
the response to a dial of the recipient. -/
def Signal (ops : List (Op P R)) (a : R) (m : OutboundMessage P R) : Prop :=
  match m.message with
  | .connectionRequest msg => msg.recipient = some a ∧ Calls ops a m.recipient msg.id
  | .connectionResponse msg => Calls ops m.recipient a msg.id
  | .transportMessage _ => False

theorem Signal.mono {ops ops' : List (Op P R)} {a : R} {m : OutboundMessage P R}
    (h : Signal ops a m) (hsub : ops ⊆ ops') : Signal ops' a m := by
  unfold Signal at h ⊢
  split at h
  · exact ⟨h.1, h.2.mono hsub⟩
  · exact h.mono hsub
  · exact h

/-- The dials and the connection messages of the transport `a` belong to its own dials and to those
of others to it. -/
structure Honest (ops : List (Op P R)) (a : R) (n : Node P R) : Prop where
  self : n.transport.selfAddress = a
  clone : n.transport.outboundTx.cloneTx = Chan.new
  pending : ∀ c p, n.transport.pendingDials c = some p → Calls ops a p.remoteRecipient c
  requests : ∀ d dial m, n.dials d = some dial → dial.request = some m → Signal ops a m
  signals : ∀ m ∈ n.transport.outboundTx.log, Signal ops a m

theorem Honest.mono {ops ops' : List (Op P R)} {a : R} {n : Node P R} (h : Honest ops a n)
    (hsub : ops ⊆ ops') : Honest ops' a n where
  self := h.self
  clone := h.clone
  pending c p hp := (h.pending c p hp).mono hsub
  requests d dial m hd hm := (h.requests d dial m hd hm).mono hsub
  signals m hm := (h.signals m hm).mono hsub

/-- The connections of the transport do not matter. -/
theorem Honest.congr {ops : List (Op P R)} {a : R} {n n' : Node P R} (h : Honest ops a n)
    (htransport : n'.transport = n.transport) (hdials : n'.dials = n.dials) : Honest ops a n' where
  self := htransport ▸ h.self
  clone := htransport ▸ h.clone
  pending := htransport ▸ h.pending
  requests := hdials ▸ h.requests
  signals := htransport ▸ h.signals

/-- **Every operation keeps a transport honest** whose dials are those of the run, and to which only
requests of dials of the run come. -/
theorem Honest.steps {ops : List (Op P R)} {a : R} {n n' : Node P R} (h : Honest ops a n)
    (hp : n.Placed) {o : Node.Op P R} {r : Node.Answer P} (hs : Node.Steps n o n' r)
    (hdial : ∀ b c, o = .dial b c → Calls ops a b c)
    (hreq : ∀ req recipient, o = .inbound (.connectionRequest req) →
      req.recipient = some recipient → Calls ops recipient a req.id) : Honest ops a n' := by
  obtain ⟨hself, -, hclone⟩ := Node.identity_steps hs
  constructor
  · exact hself.trans h.self
  · exact hclone.trans h.clone
  · intro c p hpend
    rcases Node.pendingDials_steps hs hpend with hold | rfl
    · exact h.pending c p hold
    · exact hdial _ _ rfl
  · intro d dial m hd hm
    rcases Node.asks_steps hs ⟨d, dial, hd, hm⟩ with
      ⟨k, dial', hd', hm'⟩ | ⟨recipient, id, rfl, rfl⟩
    · exact h.requests k dial' m hd' hm'
    · exact ⟨congrArg some h.self, hdial recipient id rfl⟩
  · intro m hm
    rcases Node.signals_steps hp hs hm with
      hold | ⟨k, dial, hd, hr⟩ | ⟨req, recipient, -, rfl, hr, rfl, -⟩
    · exact h.signals m hold
    · exact h.requests k dial m hd hr
    · exact hreq req recipient rfl hr

end Libp2pNym.Network
