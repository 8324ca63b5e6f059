import Libp2pNym.Lib.Run
import Libp2pNym.Substream.Equiv.Basic

/-!
# What a substream sends, and what it answers once it is closed

`history`: however reads, writes, flushes and closes are mixed, and whenever the close signal of the
remote arrives, a substream sends `Data` messages, then at most one `Close`, and nothing after it;
it sends no `Data` once the signal has arrived; and after a call that was refused, or a close that
succeeded, every call is refused and sends nothing.

The flag `closed` is final, and the signal stays until a call takes it and sets the flag: these are
the two invariants.
-/

namespace Libp2pNym

open StepRun

variable {P R : Type}

/-- A substream with the outbox that it shares with its connection. -/
structure Session (P R : Type) where
  sub : Substream R
  outbox : Outbox P R

/-- A call of the application; or the remote's close signal or a chunk of data arrives, the
connection goes away, or the connection or another substream has used the outbox or lost the mixnet.
-/
inductive CallOp (P R : Type) where
  | read (buf : Bytes)
  | write (buf : Bytes)
  | flush
  | close
  | signal
  | arrive (chunk : Bytes)
  | hangUp
  | elsewhere (outbox : Outbox P R)

/-- What a call returns; `none` if it was not a call. -/
inductive CallResult where
  | none
  | read (r : Poll (Except IoError ℕ))
  | write (r : Poll (Except IoError ℕ))
  | flush (r : Poll (Except IoError Unit))
  | close (r : Poll (Except IoError Unit))

/-- What a call returns, and the messages it has put on the outbound channel. -/
structure CallAnswer where
  result : CallResult
  sent : List SubstreamMessage

/-- The call was refused with the error of a closed substream. -/
def CallResult.Refused : CallResult → Prop
  | .none => False
  | .read r => r = .ready (.error streamClosed)
  | .write r => r = .ready (.error streamClosed)
  | .flush r => r = .ready (.error streamClosed)
  | .close r => r = .ready (.error streamClosed)

/-- The call was refused, or it has closed the substream. -/
def CallResult.Ends (r : CallResult) : Prop := r.Refused ∨ r = .close (.ready (.ok ()))

/-- The messages that are on the channel now and were not before. -/
def Outbox.sentSince (o o' : Outbox P R) : List SubstreamMessage :=
  o'.sentMessages.drop o.sentMessages.length

namespace Session

def step (c : Session P R) : CallOp P R → Except Panic (Session P R × CallAnswer)
  | .read buf =>
    let r := c.sub.pollRead buf
    .ok ({ c with sub := r.1 }, ⟨.read r.2.2, []⟩)
  | .write buf =>
    let r := c.sub.pollWrite c.outbox buf
    .ok (⟨r.1, r.2.1⟩, ⟨.write r.2.2, c.outbox.sentSince r.2.1⟩)
  | .flush =>
    let r := c.sub.pollFlush
    .ok ({ c with sub := r.1 }, ⟨.flush r.2, []⟩)
  | .close =>
    let r := c.sub.pollClose c.outbox
    .ok (⟨r.1, r.2.1⟩, ⟨.close r.2.2, c.outbox.sentSince r.2.1⟩)
  | .signal =>
    -- the sender of the signal is used up by the first one, and gone with the connection
    if c.sub.closeRx.slot = .empty ∧ c.sub.closeRx.rxAlive then
      .ok ({ c with sub.closeRx.slot := .sent () }, ⟨.none, []⟩)
    else .ok (c, ⟨.none, []⟩)
  | .arrive chunk =>
    match c.sub.inboundRx.send chunk with
    | some rx => .ok ({ c with sub.inboundRx := rx }, ⟨.none, []⟩)
    | none => .ok (c, ⟨.none, []⟩)
  | .hangUp =>
    .ok ({ c with
      sub.inboundRx := c.sub.inboundRx.dropTx
      sub.closeRx := c.sub.closeRx.dropTx }, ⟨.none, []⟩)
  | .elsewhere outbox => .ok ({ c with outbox := outbox }, ⟨.none, []⟩)

/-- The messages the substream has sent, in order. -/
def sentBy (as : List CallAnswer) : List SubstreamMessage := as.flatMap CallAnswer.sent

/-! ### One call -/

/-- What an operation can do. -/
inductive Steps (c : Session P R) : CallOp P R → Session P R → CallAnswer → Prop
  | refused (o : CallOp P R) (c' : Session P R) (r : CallResult) (hr : r.Refused)
      (hid : c'.sub.substreamId = c.sub.substreamId) (hc : c'.sub.closed = true) :
    Steps c o c' ⟨r, []⟩
  | quiet (o : CallOp P R) (c' : Session P R) (r : CallResult) (hr : ¬ r.Ends)
      (hid : c'.sub.substreamId = c.sub.substreamId)
      (hc : c.sub.closed = true → c'.sub.closed = true ∧ r = .none)
      (hs : c.sub.Refuses → c'.sub.Refuses) : Steps c o c' ⟨r, []⟩
  | wrote (buf : Bytes) (outbox : Outbox P R) (hs : ¬ c.sub.Refuses) :
    Steps c (.write buf) { c with outbox := outbox }
      ⟨.write (.ready (.ok buf.length)), [.newWithData c.sub.substreamId buf]⟩
  | closed (outbox : Outbox P R) (hc : c.sub.closed = false) :
    Steps c .close { sub := { c.sub with closed := true }, outbox := outbox }
      ⟨.close (.ready (.ok ())), [.newClose c.sub.substreamId]⟩

theorem sentSince_emit (o : Outbox P R) (recipient : R) (id : ConnectionId)
    (msg : SubstreamMessage) :
    o.sentSince (o.emit recipient id msg) = [msg] := by
  rw [Outbox.sentSince, Outbox.sentMessages_emit, List.drop_left]

theorem sentSince_self (o : Outbox P R) : o.sentSince o = [] := List.drop_length

theorem sentSince_draw (o : Outbox P R) : o.sentSince o.draw = [] := List.drop_length

/-- A call that is served, whatever it answers. -/
theorem Steps.served {c : Session P R} (hn : ¬ c.sub.Refuses) (o : CallOp P R) (c' : Session P R)
    (r : CallResult) (hr : ¬ r.Ends) (hid : c'.sub.substreamId = c.sub.substreamId) :
    Steps c o c' ⟨r, []⟩ :=
  .quiet o c' r hr hid (fun hc => absurd (Or.inl hc) hn) fun hs => absurd hs hn

theorem not_refuses_of {s : Substream R} (hc : s.closed = false) (hs : s.closeRx.slot ≠ .sent ()) :
    ¬ s.Refuses := by
  rintro (h | h)
  · rw [hc] at h
    cases h
  · exact hs h

/-- Every operation does one of the things `Steps` lists. -/
theorem steps_of_step {c c' : Session P R} {o : CallOp P R} {a : CallAnswer}
    (h : c.step o = .ok (c', a)) : Steps c o c' a := by
  have hid := c.sub.stays_checkClosed.substreamId
  -- nothing but the inbound side of the substream has changed
  have hsame : ∀ (c₁ : Session P R) (o : CallOp P R), c₁.sub.substreamId = c.sub.substreamId →
      c₁.sub.closed = c.sub.closed →
      (c.sub.closeRx.slot = .sent () → c₁.sub.closeRx.slot = .sent ()) →
      Steps c o c₁ ⟨.none, []⟩ := by
    intro c₁ o hid hcl hsl
    refine .quiet o c₁ .none ?_ hid (fun hc => ⟨hcl.trans hc, rfl⟩) fun hs => ?_
    · rintro (h | h) <;> cases h
    · exact hs.imp hcl.trans hsl
  cases o with
  | read buf =>
    cases h
    by_cases hr : c.sub.Refuses
    · rw [Substream.pollRead_of_refuses hr]
      exact .refused _ _ _ rfl hid (Substream.checkClosed_of_refuses hr).2
    · refine .served hr _ _ _ ?_ (c.sub.stays_pollRead buf).substreamId
      rintro (h | h)
      · exact hr (Substream.refuses_of_pollRead h)
      · cases h
  | write buf =>
    cases h
    rcases c.sub.pollWrite_cases c.outbox buf with ⟨hw, hcl⟩ | ⟨hc, hs, ⟨-, hw⟩ | ⟨-, hw⟩⟩
    · rw [hw]
      dsimp only
      rw [sentSince_self]
      exact .refused _ _ _ rfl hid hcl
    · rw [hw]
      dsimp only
      rw [sentSince_emit]
      exact .wrote buf _ (not_refuses_of hc hs)
    · rw [hw]
      dsimp only
      rw [sentSince_draw]
      refine .served (not_refuses_of hc hs) _ _ _ ?_ rfl
      rintro (h | h)
      · revert h
        simp only [CallResult.Refused]
        decide
      · cases h
  | flush =>
    cases h
    by_cases hr : c.sub.Refuses
    · rw [Substream.pollFlush_of_refuses hr]
      exact .refused _ _ _ rfl hid (Substream.checkClosed_of_refuses hr).2
    · refine .served hr _ _ _ ?_ c.sub.stays_pollFlush.substreamId
      unfold Substream.pollFlush
      rw [Substream.checkClosed_of_not_refuses hr]
      rintro (h | h) <;> cases h
  | close =>
    cases h
    rcases c.sub.pollClose_cases c.outbox with ⟨hc, hcl⟩ | ⟨hc, -, hcl⟩ | ⟨hc, -, hcl⟩
    · rw [hcl]
      dsimp only
      rw [sentSince_draw]
      exact .refused _ _ _ rfl rfl hc
    · rw [hcl]
      dsimp only
      rw [sentSince_emit]
      exact .closed _ hc
    · rw [hcl]
      dsimp only
      rw [sentSince_draw]
      refine .quiet _ _ _ ?_ rfl (fun hc' => ?_) fun _ => Or.inl rfl
      · rintro (h | h)
        · revert h
          simp only [CallResult.Refused]
          decide
        · cases h
      · rw [hc] at hc'
        cases hc'
  | signal =>
    simp only [step] at h
    split at h
    · cases h
      exact hsame _ _ rfl rfl fun _ => rfl
    · cases h
      exact hsame _ _ rfl rfl id
  | arrive chunk =>
    simp only [step] at h
    split at h
    · cases h
      exact hsame _ _ rfl rfl id
    · cases h
      exact hsame _ _ rfl rfl id
  | hangUp =>
    cases h
    refine hsame _ _ rfl rfl fun hs => ?_
    show c.sub.closeRx.dropTx.slot = _
    rw [Oneshot.dropTx, hs]
    exact hs
  | elsewhere outbox =>
    cases h
    exact hsame _ _ rfl rfl id

/-- On a closed substream a call is refused and sends nothing, and the substream stays closed. -/
theorem closed_steps {c c' : Session P R} {o : CallOp P R} {a : CallAnswer} (hs : Steps c o c' a)
    (hc : c.sub.closed = true) :
    c'.sub.closed = true ∧ a.sent = [] ∧ (a.result ≠ .none → a.result.Refused) := by
  cases hs with
  | refused o c' r hr hid hc' => exact ⟨hc', rfl, fun _ => hr⟩
  | quiet o c' r hr hid hc' hs => exact ⟨(hc' hc).1, rfl, fun hne => absurd (hc' hc).2 hne⟩
  | wrote buf outbox hs => exact absurd (Or.inl hc) hs
  | closed outbox hc' =>
    rw [hc] at hc'
    cases hc'

/-- Once the close signal is there no `Data` is sent. -/
theorem refuses_steps {c c' : Session P R} {o : CallOp P R} {a : CallAnswer} (hs : Steps c o c' a)
    (hr : c.sub.Refuses) :
    c'.sub.Refuses ∧ ∀ msg ∈ a.sent, ∀ buf, msg.messageType ≠ .data buf := by
  cases hs with
  | refused o c' r hr' hid hc' => exact ⟨Or.inl hc', fun _ hm => absurd hm List.not_mem_nil⟩
  | quiet o c' r hr' hid hc' hs => exact ⟨hs hr, fun _ hm => absurd hm List.not_mem_nil⟩
  | wrote buf outbox hs => exact absurd hr hs
  | closed outbox hc' =>
    refine ⟨Or.inl rfl, fun msg hm buf => ?_⟩
    rw [List.mem_singleton] at hm
    rw [hm]
    exact SubstreamMessageType.noConfusion

/-- A call that is refused or closes the substream leaves it closed. -/
theorem closed_of_ends {c c' : Session P R} {o : CallOp P R} {a : CallAnswer} (hs : Steps c o c' a)
    (he : a.result.Ends) : c'.sub.closed = true := by
  cases hs with
  | refused o c' r hr hid hc' => exact hc'
  | quiet o c' r hr hid hc' hs => exact absurd he hr
  | wrote buf outbox hs =>
    rcases he with he | he <;> cases he
  | closed outbox hc' => rfl

/-! ### Runs -/

/-- `Data` messages of the substream `id`, and one `Close` at the end if `closed`. -/
def WellFormed (id : SubstreamId) (closed : Bool) (msgs : List SubstreamMessage) : Prop :=
  ∃ bufs : List Bytes, msgs = bufs.map (.newWithData id) ∨
    (closed = true ∧ msgs = bufs.map (.newWithData id) ++ [.newClose id])

theorem wellFormed_steps {c c' : Session P R} {o : CallOp P R} {a : CallAnswer}
    (hs : Steps c o c' a) {msgs : List SubstreamMessage}
    (hw : WellFormed c.sub.substreamId c.sub.closed msgs) :
    WellFormed c'.sub.substreamId c'.sub.closed (msgs ++ a.sent) := by
  obtain ⟨bufs, hw⟩ := hw
  -- nothing was sent, and a close stays the last message
  have hnone : c'.sub.substreamId = c.sub.substreamId →
      (c.sub.closed = true → c'.sub.closed = true) →
      WellFormed c'.sub.substreamId c'.sub.closed (msgs ++ []) := by
    intro hid hc
    rw [List.append_nil, hid]
    rcases hw with hw | ⟨hcl, hw⟩
    · exact ⟨bufs, Or.inl hw⟩
    · exact ⟨bufs, Or.inr ⟨hc hcl, hw⟩⟩
  -- an open substream has sent data only
  have hopen : c.sub.closed = false → msgs = bufs.map (.newWithData c.sub.substreamId) := by
    intro hc
    rcases hw with hw | ⟨hcl, -⟩
    · exact hw
    · rw [hc] at hcl
      cases hcl
  cases hs with
  | refused o c' r hr hid hc' => exact hnone hid fun _ => hc'
  | quiet o c' r hr hid hc' hs => exact hnone hid fun hc => (hc' hc).1
  | wrote buf outbox hs =>
    have hc : c.sub.closed = false := by
      rw [Bool.eq_false_iff]
      exact fun hc => hs (Or.inl hc)
    refine ⟨bufs ++ [buf], Or.inl ?_⟩
    rw [hopen hc, List.map_append, List.map_singleton]
  | closed outbox hc' => exact ⟨bufs, Or.inr ⟨rfl, by rw [hopen hc']⟩⟩

theorem substreamId_steps {c c' : Session P R} {o : CallOp P R} {a : CallAnswer}
    (hs : Steps c o c' a) : c'.sub.substreamId = c.sub.substreamId := by
  cases hs with
  | refused o c' r hr hid hc' => exact hid
  | quiet o c' r hr hid hc' hs => exact hid
  | wrote buf outbox hs => rfl
  | closed outbox hc' => rfl

theorem wellFormed_run {c t : Session P R} {ops : List (CallOp P R)} {as : List CallAnswer}
    (h : run step c ops = .ok (t, as)) : WellFormed c.sub.substreamId t.sub.closed (sentBy as) := by
  have hrun : t.sub.substreamId = c.sub.substreamId ∧
      WellFormed t.sub.substreamId t.sub.closed (sentBy as) := by
    refine run_induction (I := fun _ as t => t.sub.substreamId = c.sub.substreamId ∧
      WellFormed t.sub.substreamId t.sub.closed (sentBy as)) ⟨rfl, [], Or.inl rfl⟩ ?_ h
    intro xs as m o t a hr hw hs
    refine ⟨(substreamId_steps (steps_of_step hs)).trans hw.1, ?_⟩
    have := wellFormed_steps (steps_of_step hs) hw.2
    rwa [sentBy, List.flatMap_append, List.flatMap_singleton]
  rw [← hrun.1]
  exact hrun.2

/-- No call of a substream panics. -/
theorem isOk_run (c : Session P R) (ops : List (CallOp P R)) : ∃ r, run step c ops = .ok r := by
  refine (run_isOk_iff_along (P := fun _ _ => True) fun xs o _ m as _ => ?_).mpr
    (along_of_forall fun _ _ _ _ _ _ => trivial)
  refine ⟨fun _ => trivial, fun _ => ?_⟩
  cases o with
  | signal =>
    simp only [step]
    split <;> exact ⟨_, rfl⟩
  | arrive chunk =>
    simp only [step]
    split <;> exact ⟨_, rfl⟩
  | _ => exact ⟨_, rfl⟩

/-- **What a substream sends is well formed, and closed is final.**  In every run of calls, whenever
the remote's close signal arrives: the messages sent are `Data` messages and then at most one
`Close`; after the signal has arrived none is a `Data` message; and after a call that was refused or
a close that succeeded every call is refused and sends nothing. -/
theorem history (c : Session P R) (ops : List (CallOp P R)) :
    ∃ t as, run step c ops = .ok (t, as) ∧
      (∃ (bufs : List Bytes) (tail : List SubstreamMessage),
        sentBy as = bufs.map (.newWithData c.sub.substreamId) ++ tail ∧
        (tail = [] ∨ tail = [.newClose c.sub.substreamId])) ∧
      (∀ xs ys m as₁, ops = xs ++ .signal :: ys → run step c xs = .ok (m, as₁) →
        m.sub.closeRx.slot = .empty → m.sub.closeRx.rxAlive = true →
        ∀ a ∈ as.drop (xs.length + 1), ∀ msg ∈ a.sent, ∀ buf, msg.messageType ≠ .data buf) ∧
      (∀ i a, as[i]? = some a → a.result.Ends → ∀ a' ∈ as.drop (i + 1),
        a'.sent = [] ∧ (a'.result ≠ .none → a'.result.Refused)) := by
  obtain ⟨⟨t, as⟩, h⟩ := isOk_run c ops
  refine ⟨t, as, h, ?_, ?_, ?_⟩
  · obtain ⟨bufs, hw | ⟨-, hw⟩⟩ := wellFormed_run h
    · exact ⟨bufs, [], by rw [hw, List.append_nil], Or.inl rfl⟩
    · exact ⟨bufs, _, hw, Or.inr rfl⟩
  · rintro xs ys m as₁ rfl hr hslot hrx
    obtain ⟨m', as₁', as₂, hr', hrest, rfl⟩ := run_append_iff.mp h
    rw [hr] at hr'
    cases hr'
    obtain ⟨m₂, a, as₃, hs, hr₃, rfl⟩ := run_cons_iff.mp hrest
    -- the signal is there from now on
    have hstep : m.step .signal = .ok ({ m with sub.closeRx.slot := .sent () }, ⟨.none, []⟩) :=
      if_pos ⟨hslot, hrx⟩
    rw [hstep] at hs
    cases hs
    rw [List.append_cons, List.drop_left' (by simp [length_answers hr])]
    exact run_answers (I := fun c => c.sub.Refuses)
      (fun _ _ _ _ hr hs => refuses_steps (steps_of_step hs) hr) (Or.inr rfl) hr₃
  · intro i a hi he
    obtain ⟨xs, o, ys, m, m', as₁, as₂, rfl, rfl, rfl, -, hs, hr⟩ := run_split h hi
    rw [List.append_cons, List.drop_left' (by simp)]
    exact run_answers (I := fun c => c.sub.closed = true)
      (fun _ _ _ _ hc hs => closed_steps (steps_of_step hs) hc)
      (closed_of_ends (steps_of_step hs) he) hr

end Session

end Libp2pNym
