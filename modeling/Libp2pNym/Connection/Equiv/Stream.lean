import Libp2pNym.Connection.Equiv.Touch
import Libp2pNym.Substream.Equiv.Read

/-!
# What the reads of an endpoint have returned

`Reads e read` says that for every substream what its reads have returned and what is left unread
make up the chunks that it has taken from its channel.  Only a read touches these
(`sameReads_steps`), and a read that is not short keeps it (`reads_steps`).
-/

namespace Libp2pNym

variable {P R : Type}

namespace Substream

/-- A read that is not short returns bytes that were unread, or of the chunk that it takes. -/
theorem pollRead_served {s : Substream R} {buf : Bytes} (ha : s.inboundRx.rxAlive = true)
    (hb : ¬ s.Short buf) : ∃ chunks,
      (s.pollRead buf).1.inboundRx.got = s.inboundRx.got ++ chunks ∧
      returned (s.pollRead buf).2.1 (s.pollRead buf).2.2 ++ (s.pollRead buf).1.unreadData
        = s.unreadData ++ chunks.flatten := by
  by_cases hr : s.Refuses
  · refine ⟨[], ?_⟩
    rw [pollRead_of_refuses hr, List.append_nil, List.flatten_nil, List.append_nil]
    unfold checkClosed
    dsimp only
    split
    · exact ⟨rfl, rfl⟩
    · split <;> exact ⟨rfl, rfl⟩
  · have hopen : s.IsOpen := by
      unfold Refuses at hr
      push Not at hr
      exact ⟨Bool.eq_false_iff.mpr hr.1, hr.2, ha⟩
    have hconserved := pollRead_conserves hopen hb
    unfold available at hconserved
    cases hq : s.inboundRx.queue with
    | nil =>
      have hrx : (s.pollRead buf).1.inboundRx = s.inboundRx := by
        rw [pollRead_of_nil hopen hq, (fillFromUnread_spec s buf).1]
      refine ⟨[], by rw [hrx, List.append_nil], ?_⟩
      rw [hrx, hq] at hconserved
      simpa using hconserved
    | cons data queue =>
      have hrx : (s.pollRead buf).1.inboundRx = (s.take data queue).inboundRx := by
        rw [pollRead_of_cons hopen hq]
        dsimp only
        rw [(fillFromUnread_spec (s.take data queue) buf).1]
        split_ifs <;> rfl
      refine ⟨[data], by rw [hrx]; rfl, ?_⟩
      rw [hrx, hq, List.flatten_cons, ← List.append_assoc, ← List.append_assoc] at hconserved
      rw [List.flatten_singleton]
      exact List.append_cancel_right hconserved

end Substream

namespace Endpoint

/-- The bytes that the operation has returned from the substream with the handle `k`. -/
def readIn (k : ℕ) : Op → Answer → Bytes
  | .read h _, .read buf r => if h = k then Substream.returned buf r else []
  | _, _ => []

/-- The operation is a read that is short. -/
def readsShort (e : Endpoint P R) : Op → Bool
  | .read h buf =>
    match e.held h with
    | none => false
    | some sub => decide (sub.Short buf)
  | _ => false

/-- What a read touches of the substream with the handle `k`: the bytes that are left unread, and
the chunks that were taken. -/
def readState (e : Endpoint P R) (k : ℕ) : Option (Bytes × List Bytes) :=
  (e.substreams k).map fun sub => (sub.unreadData, sub.inboundRx.got)

/-- No substream was read, and new ones have nothing to read yet. -/
def SameReads (e e' : Endpoint P R) : Prop :=
  ∀ k, e'.readState k = e.readState k ∨ e.readState k = none ∧ e'.readState k = some ([], [])

/-- What was returned and what is left unread is what was taken. -/
structure Reads (e : Endpoint P R) (read : ℕ → Bytes) : Prop where
  each : ∀ k unread got, e.readState k = some (unread, got) → read k ++ unread = got.flatten
  fresh : ∀ k, e.readState k = none → read k = []

section

variable {e e' e₁ : Endpoint P R}

theorem SameReads.refl (e : Endpoint P R) : SameReads e e := fun _ => Or.inl rfl

theorem SameReads.trans (h : SameReads e e₁) (h' : SameReads e₁ e') : SameReads e e' := by
  intro k
  rcases h k with h | ⟨hnone, h⟩
  · rw [← h]
    exact h' k
  · rcases h' k with h' | ⟨hnone', -⟩
    · exact Or.inr ⟨hnone, h'.trans h⟩
    · rw [h] at hnone'
      cases hnone'

theorem Touch.unreadData {o : Op} {k : ℕ} {sub sub' : Substream R} (ht : Touch e o e' k sub sub') :
    sub'.unreadData = sub.unreadData ∧ sub'.inboundRx.got = sub.inboundRx.got := by
  cases ht with
  | received d =>
    refine ⟨rfl, ?_⟩
    simp only [receivedData, Chan.send]
    split <;> rfl
  | checked =>
    unfold Substream.checkClosed
    dsimp only
    split
    · exact ⟨rfl, rfl⟩
    · split <;> exact ⟨rfl, rfl⟩
  | orphaned hs' =>
    unfold afterDrop
    dsimp only
    split <;> split <;> exact ⟨rfl, rfl⟩
  | _ => exact ⟨rfl, rfl⟩

theorem Touches.sameReads {o : Op} (ht : Touches e o e') : SameReads e e' := by
  intro k
  unfold readState
  cases hk : e.substreams k with
  | some sub =>
    obtain ⟨sub', hk', htouch⟩ := ht.kept k sub hk
    left
    rw [hk', Option.map_some, Option.map_some, htouch.unreadData.1, htouch.unreadData.2]
  | none =>
    cases hk' : e'.substreams k with
    | none => exact Or.inl rfl
    | some sub' =>
      right
      obtain ⟨hunread, hgot, -⟩ := ht.fresh k sub' hk hk'
      rw [Option.map_some, hunread, hgot]
      exact ⟨rfl, rfl⟩

theorem sameReads_pollLoop {fuel : ℕ} {r : Poll (Except Error StreamMuxerEvent)} (hw : e.Wf)
    (h : pollLoop fuel e = .ok (e', r)) : SameReads e e' := by
  refine (pollLoop_induction (I := fun e₁ => e₁.Wf ∧ SameReads e e₁) ?_
    ⟨hw, SameReads.refl e⟩ h).2
  rintro e₁ msg rest e₂ r ⟨hw₁, hsame⟩ hq hm
  have hw₂ := hw₁.took msg rest
  have hh := handles_of_handleMessage hw₂ hm
  have htouches : Touches (e₁.took msg rest) .poll e₂ := touches_handles hw₂ hh
  exact ⟨wf_handles hw₂ hh, hsame.trans htouches.sameReads⟩

/-- **Only a read** touches what is left unread and what was taken. -/
theorem sameReads_steps (hw : e.Wf) {o : Op} {a : Answer} (hs : Steps e o e' a)
    (ho : ∀ h buf, o ≠ .read h buf) : SameReads e e' := by
  by_cases hp : o = .poll
  · subst hp
    cases hs with
    | skip => exact SameReads.refl e
    | poll _ r ha h => exact sameReads_pollLoop hw h
  · exact (touches_steps hw hs hp ho).sameReads

theorem Reads.same {read : ℕ → Bytes} (hr : e.Reads read) (hs : SameReads e e') :
    e'.Reads read := by
  constructor
  · intro k unread got hk
    rcases hs k with h | ⟨hnone, h⟩
    · exact hr.each k unread got (h ▸ hk)
    · rw [h] at hk
      cases hk
      rw [hr.fresh k hnone]
      rfl
  · intro k hk
    rcases hs k with h | ⟨hnone, -⟩
    · exact hr.fresh k (h ▸ hk)
    · exact hr.fresh k hnone

/-- **An operation that is no short read** keeps account of what was read. -/
theorem reads_steps {read : ℕ → Bytes} (hw : e.Wf) (hr : e.Reads read) {o : Op} {a : Answer}
    (hs : Steps e o e' a) (hb : e.readsShort o = false) :
    e'.Reads fun k => read k ++ readIn k o a := by
  by_cases ho : ∃ h buf, o = .read h buf
  · obtain ⟨h, buf, rfl⟩ := ho
    cases hs with
    | skip _ =>
      have heq : (fun k => read k ++ readIn k (.read h buf) .skip) = read :=
        funext fun k => List.append_nil _
      rw [heq]
      exact hr
    | read _ sub _ hh =>
      obtain ⟨hsub, halive, -⟩ := held_eq_some_iff.mp hh
      have hshort : ¬ sub.Short buf := by
        simp only [readsShort, hh, decide_eq_false_iff_not] at hb
        exact hb
      obtain ⟨chunks, hgot, hserved⟩ := Substream.pollRead_served halive hshort
      have hstate : ∀ k, (e.put h (sub.pollRead buf).1).readState k
          = if k = h then some ((sub.pollRead buf).1.unreadData, sub.inboundRx.got ++ chunks)
            else e.readState k := by
        intro k
        unfold readState
        show (e.substreams.insert h _ k).map _ = _
        rw [KeyMap.insert_apply]
        split
        · rw [Option.map_some, hgot]
        · rfl
      constructor
      · intro k unread got hk
        rw [hstate] at hk
        split at hk
        · rename_i hkh
          subst hkh
          cases hk
          have hold := hr.each k sub.unreadData sub.inboundRx.got (by rw [readState, hsub]; rfl)
          show read k ++ (if k = k then _ else []) ++ _ = _
          rw [if_pos rfl, List.append_assoc, hserved, ← List.append_assoc, hold,
            List.flatten_append]
        · rename_i hkh
          show read k ++ (if h = k then _ else []) ++ _ = _
          rw [if_neg (Ne.symm hkh), List.append_nil]
          exact hr.each k unread got hk
      · intro k hk
        rw [hstate] at hk
        split at hk
        · cases hk
        · rename_i hkh
          show read k ++ (if h = k then _ else []) = _
          rw [if_neg (Ne.symm hkh), List.append_nil]
          exact hr.fresh k hk
  · push Not at ho
    have hnone : (fun k => read k ++ readIn k o a) = read := by
      funext k
      cases o with
      | read h buf => exact absurd rfl (ho h buf)
      | _ => exact List.append_nil _
    rw [hnone]
    exact hr.same (sameReads_steps hw hs ho)

end

end Endpoint

end Libp2pNym
