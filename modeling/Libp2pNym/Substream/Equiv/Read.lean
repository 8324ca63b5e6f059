import Libp2pNym.Lib.Run
import Libp2pNym.Message.Equiv.Codec
import Libp2pNym.Substream.Equiv.Basic

/-!
# Reads and the byte stream

`Conserved s₀ ops es s`: what the reads have returned, what is left unread and what is still in
the channel make up, in this order, everything that has arrived.

`always_conserved_iff`: a run of arrivals and reads on an open substream conserves the byte stream
throughout iff none of its reads is `Short`.  A read is short when it finds unread data that does
not fill the buffer and a new chunk at the same time: it copies both into the buffer, but answers
with the length of the second part alone (`pollRead_short`), so a caller that goes by the answer
loses as many bytes as there were unread.  Every other read conserves the stream
(`pollRead_conserves`).
-/

namespace Libp2pNym.Substream

open StepRun

variable {R : Type}

/-- The substream was neither closed locally nor has the remote's close signal arrived. -/
structure IsOpen (s : Substream R) : Prop where
  closed : s.closed = false
  signal : s.closeRx.slot ≠ .sent ()
  alive : s.inboundRx.rxAlive = true

/-- The bytes a caller takes from its buffer after a read. -/
def returned (buf : Bytes) : Poll (Except IoError ℕ) → Bytes
  | .ready (.ok n) => buf.take n
  | _ => []

/-- The read answers with less than it has put into the buffer: there is unread data, it does not
fill the buffer, and a chunk is waiting. -/
def Short (s : Substream R) (buf : Bytes) : Prop :=
  0 < s.unreadData.length ∧ s.unreadData.length < buf.length ∧ s.inboundRx.queue ≠ []

instance (s : Substream R) (buf : Bytes) : Decidable (s.Short buf) :=
  inferInstanceAs (Decidable (_ ∧ _ ∧ _))

/-! ### One read -/

theorem checkClosed_of_isOpen {s : Substream R} (h : s.IsOpen) : s.checkClosed = (.ok (), s) := by
  rcases checkClosed_cases s with ⟨hc | hc, -⟩ | ⟨hok, -, -⟩
  · exact absurd hc (by rw [h.closed]; exact Bool.false_ne_true)
  · exact absurd hc h.signal
  · exact hok

theorem length_overwrite {buf src : Bytes} {off : ℕ} (h : off + src.length ≤ buf.length) :
    (overwrite buf off src).length = buf.length := by
  simp only [overwrite, List.length_append, List.length_take, List.length_drop]
  omega

theorem take_overwrite {buf src : Bytes} {off n : ℕ} (h : n = off + src.length)
    (hn : n ≤ buf.length) : (overwrite buf off src).take n = buf.take off ++ src := by
  have hlen : (buf.take off ++ src).length = n := by
    rw [List.length_append, List.length_take]
    omega
  rw [overwrite, List.take_append_of_le_length (by omega), List.take_of_length_le (by omega)]

/-- Unread data goes to the front of the buffer. -/
theorem fillFromUnread_spec (s : Substream R) (buf : Bytes) :
    (s.fillFromUnread buf).1 = { s with unreadData := s.unreadData.drop buf.length } ∧
    (s.fillFromUnread buf).2.1.length = buf.length ∧
    (s.fillFromUnread buf).2.2 = min s.unreadData.length buf.length ∧
    (s.fillFromUnread buf).2.1.take (s.fillFromUnread buf).2.2 = s.unreadData.take buf.length := by
  unfold fillFromUnread
  split_ifs with h
  · have hlen : (s.unreadData.take (min s.unreadData.length buf.length)).length
        = min s.unreadData.length buf.length := by
      rw [List.length_take]
      omega
    have hdrop : s.unreadData.drop (min s.unreadData.length buf.length)
        = s.unreadData.drop buf.length := by
      rcases Nat.le_total s.unreadData.length buf.length with hle | hle
      · rw [Nat.min_eq_left hle, List.drop_of_length_le (Nat.le_refl _), List.drop_of_length_le hle]
      · rw [Nat.min_eq_right hle]
    refine ⟨?_, ?_, rfl, ?_⟩
    · simp only [hdrop]
    · exact length_overwrite (by omega)
    · dsimp only
      rw [take_overwrite (by omega) (by omega), List.take_zero, List.nil_append]
      rcases Nat.le_total s.unreadData.length buf.length with hle | hle
      · rw [Nat.min_eq_left hle, List.take_of_length_le (Nat.le_refl _), List.take_of_length_le hle]
      · rw [Nat.min_eq_right hle]
  · have hnil : s.unreadData = [] := List.length_eq_zero_iff.mp (by omega)
    refine ⟨?_, rfl, ?_, ?_⟩
    · rw [hnil, List.drop_nil, ← hnil]
    · dsimp only
      omega
    · rw [hnil, List.take_nil, List.take_zero]

/-- With nothing in the channel, a read serves the unread data. -/
theorem pollRead_of_nil {s : Substream R} (h : s.IsOpen) (hq : s.inboundRx.queue = [])
    (buf : Bytes) : s.pollRead buf = ((s.fillFromUnread buf).1, (s.fillFromUnread buf).2.1,
      if 0 < (s.fillFromUnread buf).2.2 then .ready (.ok (s.fillFromUnread buf).2.2)
      else .pending) := by
  have hrecv : s.inboundRx.pollRecv = (.pending, s.inboundRx) ∨
      s.inboundRx.pollRecv = (.ready none, s.inboundRx) := by
    unfold Chan.pollRecv
    rw [hq]
    by_cases ht : s.inboundRx.txAlive
    · exact Or.inl (by simp only [ht, ↓reduceIte])
    · exact Or.inr (by simp only [ht, Bool.false_eq_true, ↓reduceIte])
  unfold pollRead
  rw [checkClosed_of_isOpen h]
  rcases hrecv with hrecv | hrecv <;> simp only [hrecv] <;> split_ifs <;> rfl

/-- The substream after its receiver has taken the head of the channel. -/
def take (s : Substream R) (data : Bytes) (queue : List Bytes) : Substream R :=
  { s with inboundRx := { s.inboundRx with got := s.inboundRx.got ++ [data], queue := queue } }

/-- With a chunk in the channel, a read serves the unread data, and then the chunk if there is room
left for it. -/
theorem pollRead_of_cons {s : Substream R} (h : s.IsOpen) {data : Bytes} {queue : List Bytes}
    (hq : s.inboundRx.queue = data :: queue) (buf : Bytes) :
    s.pollRead buf =
      let f := (s.take data queue).fillFromUnread buf
      if f.2.2 = f.2.1.length then
        ({ f.1 with unreadData := f.1.unreadData ++ data }, f.2.1, .ready (.ok f.2.2))
      else
        (if f.2.1.length - f.2.2 < data.length then
            { f.1 with unreadData := f.1.unreadData ++ data.drop (f.2.1.length - f.2.2) }
          else f.1,
          overwrite f.2.1 f.2.2 (data.take (min (f.2.1.length - f.2.2) data.length)),
          .ready (.ok (min (f.2.1.length - f.2.2) data.length))) := by
  have hrecv : s.inboundRx.pollRecv = (.ready (some data),
      { s.inboundRx with got := s.inboundRx.got ++ [data], queue := queue }) := by
    unfold Chan.pollRecv
    rw [hq]
  unfold pollRead
  rw [checkClosed_of_isOpen h]
  simp only [hrecv]
  rfl

/-- The bytes that are there for the reader: unread ones first, then the channel. -/
def available (s : Substream R) : Bytes := s.unreadData ++ s.inboundRx.queue.flatten

theorem isOpen_pollRead {s : Substream R} (h : s.IsOpen) (buf : Bytes) :
    (s.pollRead buf).1.IsOpen := by
  have hs : ∀ s' : Substream R, s'.IsOpen → ∀ u, IsOpen { s' with unreadData := u } :=
    fun s' hs' u => ⟨hs'.closed, hs'.signal, hs'.alive⟩
  cases hq : s.inboundRx.queue with
  | nil =>
    rw [pollRead_of_nil h hq, (fillFromUnread_spec s buf).1]
    exact hs s h _
  | cons data queue =>
    have ht : (s.take data queue).IsOpen := ⟨h.closed, h.signal, h.alive⟩
    rw [pollRead_of_cons h hq]
    dsimp only
    rw [(fillFromUnread_spec (s.take data queue) buf).1]
    split_ifs
    · exact hs _ (hs _ ht _) _
    · exact hs _ (hs _ ht _) _
    · exact hs _ ht _

/-- A read never claims more than the buffer holds. -/
theorem pollRead_count_le {s : Substream R} (h : s.IsOpen) {buf : Bytes} {n : ℕ}
    (hn : (s.pollRead buf).2.2 = .ready (.ok n)) : n ≤ buf.length := by
  cases hq : s.inboundRx.queue with
  | nil =>
    rw [pollRead_of_nil h hq] at hn
    have hle := (fillFromUnread_spec s buf).2.2.1
    dsimp only at hn
    split_ifs at hn
    cases hn
    omega
  | cons data queue =>
    rw [pollRead_of_cons h hq] at hn
    obtain ⟨-, hlen, hle, -⟩ := fillFromUnread_spec (s.take data queue) buf
    dsimp only at hn
    split_ifs at hn <;> cases hn <;> omega

/-- **A read that is not short conserves the stream**: what it returns, followed by what is left,
is what was there. -/
theorem pollRead_conserves {s : Substream R} (h : s.IsOpen) {buf : Bytes} (hb : ¬ s.Short buf) :
    returned (s.pollRead buf).2.1 (s.pollRead buf).2.2 ++ (s.pollRead buf).1.available
      = s.available := by
  cases hq : s.inboundRx.queue with
  | nil =>
    obtain ⟨h1, h2, h3, h4⟩ := fillFromUnread_spec s buf
    rw [pollRead_of_nil h hq]
    dsimp only
    rw [h1]
    split_ifs with hpos
    · simp only [returned, available, h4, hq, List.flatten_nil, List.append_nil,
        List.take_append_drop]
    · have hdrop : s.unreadData.drop buf.length = s.unreadData := by
        rcases Nat.eq_zero_or_pos buf.length with hb0 | hbpos
        · rw [hb0, List.drop_zero]
        · have : s.unreadData = [] := List.length_eq_zero_iff.mp (by omega)
          rw [this, List.drop_nil]
      simp only [returned, available, hdrop, List.nil_append]
  | cons data queue =>
    obtain ⟨h1, h2, h3, h4⟩ := fillFromUnread_spec (s.take data queue) buf
    have havail : s.available = s.unreadData ++ (data ++ queue.flatten) := by
      rw [available, hq, List.flatten_cons]
    rw [pollRead_of_cons h hq, havail]
    generalize (s.take data queue).fillFromUnread buf = f at h1 h2 h3 h4 ⊢
    obtain ⟨s', b', k⟩ := f
    dsimp only at h1 h2 h3 h4 ⊢
    subst h1
    split_ifs with hfull hmore
    · -- the unread data fills the buffer, and the chunk is kept for later
      simp only [returned, available, h4]
      rw [← List.append_assoc, ← List.append_assoc]
      show s.unreadData.take buf.length ++ s.unreadData.drop buf.length ++ data ++ queue.flatten = _
      rw [List.take_append_drop, List.append_assoc]
    all_goals
      -- there is room left, so a read that is not short has found no unread data
      have hnil : s.unreadData = [] := by
        by_contra hne
        have hpos := List.length_pos_iff.mpr hne
        have hk : k = min s.unreadData.length buf.length := h3
        exact hb ⟨hpos, by omega, by simp [hq]⟩
      have hk : k = 0 := by
        rw [h3]
        show min s.unreadData.length buf.length = 0
        rw [hnil, List.length_nil, Nat.zero_min]
      have htake : (overwrite b' k (data.take (min (b'.length - k) data.length))).take
          (min (b'.length - k) data.length) = data.take buf.length := by
        rw [take_overwrite (by rw [List.length_take]; omega) (by omega), hk, List.take_zero,
          List.nil_append, Nat.sub_zero, h2]
        rcases Nat.le_total buf.length data.length with hle | hle
        · rw [Nat.min_eq_left hle]
        · rw [Nat.min_eq_right hle, List.take_of_length_le (Nat.le_refl _),
            List.take_of_length_le hle]
      simp only [returned, available, htake]
    · show data.take buf.length ++ (s.unreadData.drop buf.length
        ++ data.drop (b'.length - k) ++ queue.flatten) = _
      rw [hnil, List.drop_nil, List.nil_append, List.nil_append, hk, h2, Nat.sub_zero,
        ← List.append_assoc, List.take_append_drop]
    · show data.take buf.length ++ (s.unreadData.drop buf.length ++ queue.flatten) = _
      rw [hnil, List.drop_nil, List.nil_append, List.nil_append,
        List.take_of_length_le (by omega)]

/-- **A short read loses the unread data's worth of bytes.** -/
theorem pollRead_short {s : Substream R} (h : s.IsOpen) {buf : Bytes} (hb : s.Short buf) :
    (returned (s.pollRead buf).2.1 (s.pollRead buf).2.2).length
      + (s.pollRead buf).1.available.length + s.unreadData.length = s.available.length := by
  obtain ⟨hpos, hlt, hne⟩ := hb
  obtain ⟨data, queue, hq⟩ := List.exists_cons_of_ne_nil hne
  obtain ⟨h1, h2, h3, -⟩ := fillFromUnread_spec (s.take data queue) buf
  have havail : s.available = s.unreadData ++ (data ++ queue.flatten) := by
    rw [available, hq, List.flatten_cons]
  rw [pollRead_of_cons h hq, havail]
  generalize (s.take data queue).fillFromUnread buf = f at h1 h2 h3 ⊢
  obtain ⟨s', b', k⟩ := f
  dsimp only at h1 h2 h3 ⊢
  subst h1
  have hk : k = s.unreadData.length := by
    rw [h3]
    exact Nat.min_eq_left (Nat.le_of_lt hlt)
  have hlen : (overwrite b' k (data.take (min (b'.length - k) data.length))).length
      = buf.length := by
    rw [length_overwrite, h2]
    rw [List.length_take]
    omega
  have hdrop : s.unreadData.drop buf.length = [] := List.drop_of_length_le (Nat.le_of_lt hlt)
  have hret : (returned (overwrite b' k (data.take (min (b'.length - k) data.length)))
      (.ready (.ok (min (b'.length - k) data.length)))).length
        = min (buf.length - s.unreadData.length) data.length := by
    rw [returned, List.length_take, hlen, hk, h2]
    omega
  rw [if_neg (by omega)]
  dsimp only
  rw [hret]
  split_ifs with hmore
  · show _ + (s.unreadData.drop buf.length ++ data.drop (b'.length - k)
      ++ queue.flatten).length + _ = _
    rw [hdrop]
    simp only [List.length_append, List.length_drop, List.length_nil]
    omega
  · show _ + (s.unreadData.drop buf.length ++ queue.flatten).length + _ = _
    rw [hdrop]
    simp only [List.length_append, List.length_nil]
    omega

/-! ### Arrivals and reads in any order -/

/-- A chunk arrives on the inbound channel, or the application reads into a buffer. -/
inductive ReadOp where
  | arrive (chunk : Bytes)
  | read (buf : Bytes)

/-- What a read leaves in the caller's buffer, and its answer. -/
abbrev ReadAnswer := Option (Bytes × Poll (Except IoError ℕ))

def readStep (s : Substream R) : ReadOp → Except Panic (Substream R × ReadAnswer)
  | .arrive chunk =>
    match s.inboundRx.send chunk with
    | some rx => .ok ({ s with inboundRx := rx }, none)
    | none => .ok (s, none)
  | .read buf =>
    let r := s.pollRead buf
    .ok (r.1, some r.2)

/-- The chunks that have arrived. -/
def arrived (ops : List ReadOp) : List Bytes :=
  ops.filterMap fun
    | .arrive chunk => some chunk
    | .read _ => none

/-- The bytes the reads have returned. -/
def returnedBy (es : List ReadAnswer) : Bytes :=
  es.flatMap fun
    | some answer => returned answer.1 answer.2
    | none => []

/-- What was returned, what is unread and what is in the channel is all that was there at the
start and has arrived since, in order. -/
def Conserved (s₀ : Substream R) (ops : List ReadOp) (es : List ReadAnswer) (s : Substream R) :
    Prop :=
  returnedBy es ++ s.available = s₀.available ++ (arrived ops).flatten

/-- No read claims more than its buffer holds. -/
def CountsFit (ops : List ReadOp) (es : List ReadAnswer) : Prop :=
  ∀ buf buf' n, (ReadOp.read buf, some (buf', .ready (.ok n))) ∈ ops.zip es → n ≤ buf.length

/-- A read that is short in the state it is made in. -/
def ShortOp (s : Substream R) : ReadOp → Prop
  | .arrive _ => False
  | .read buf => s.Short buf

theorem readStep_arrive {s : Substream R} (h : s.IsOpen) (chunk : Bytes) :
    s.readStep (.arrive chunk) = .ok ({ s with inboundRx :=
      { s.inboundRx with queue := s.inboundRx.queue ++ [chunk] } }, none) := by
  simp only [readStep, Chan.send, h.alive, ↓reduceIte]

theorem isOpen_readStep {s t : Substream R} {o : ReadOp} {e : ReadAnswer} (h : s.IsOpen)
    (hs : s.readStep o = .ok (t, e)) : t.IsOpen := by
  cases o with
  | arrive chunk =>
    rw [readStep_arrive h] at hs
    cases hs
    exact ⟨h.closed, h.signal, h.alive⟩
  | read buf =>
    cases hs
    exact isOpen_pollRead h buf

/-- One step of a run: the stream is conserved if the step is not short, and shrinks if it is. -/
theorem readStep_available {s t : Substream R} {o : ReadOp} {e : ReadAnswer} (h : s.IsOpen)
    (hs : s.readStep o = .ok (t, e)) :
    (¬ s.ShortOp o ∧
      returnedBy [e] ++ t.available = s.available ++ (arrived [o]).flatten) ∨
    (s.ShortOp o ∧ (returnedBy [e]).length + t.available.length
      < s.available.length + (arrived [o]).flatten.length) := by
  cases o with
  | arrive chunk =>
    rw [readStep_arrive h] at hs
    cases hs
    exact Or.inl ⟨id, by simp [returnedBy, arrived, available]⟩
  | read buf =>
    cases hs
    by_cases hb : s.Short buf
    · refine Or.inr ⟨hb, ?_⟩
      have hlen := pollRead_short h hb
      have hpos := hb.1
      simp only [returnedBy, arrived, List.flatMap_singleton]
      simp only [List.filterMap_cons, List.filterMap_nil, List.flatten_nil, List.length_nil]
      omega
    · refine Or.inl ⟨hb, ?_⟩
      have hc := pollRead_conserves h hb
      simp only [returnedBy, arrived, List.flatMap_singleton]
      simpa using hc

theorem readStep_countsFit {s t : Substream R} {o : ReadOp} {e : ReadAnswer} (h : s.IsOpen)
    (hs : s.readStep o = .ok (t, e)) {buf buf' : Bytes} {n : ℕ} (ho : o = .read buf)
    (he : e = some (buf', .ready (.ok n))) : n ≤ buf.length := by
  subst ho
  cases hs
  have hn : (s.pollRead buf).2.2 = .ready (.ok n) := congrArg Prod.snd (Option.some.inj he)
  exact pollRead_count_le h hn

theorem isOpen_run {s t : Substream R} {ops : List ReadOp} {es : List ReadAnswer} (h : s.IsOpen) :
    run readStep s ops = .ok (t, es) → t.IsOpen :=
  run_induction (I := fun _ _ t => t.IsOpen) h fun _ _ _ _ _ _ _ ih hs => isOpen_readStep ih hs

theorem countsFit_run {s t : Substream R} {ops : List ReadOp} {es : List ReadAnswer}
    (h : s.IsOpen) : run readStep s ops = .ok (t, es) → CountsFit ops es := by
  refine run_induction (I := fun ops es _ => CountsFit ops es) ?_ ?_
  · intro buf buf' n hmem
    simp at hmem
  · intro xs es m o t e hr ih hs buf buf' n hmem
    rw [List.zip_append (length_answers hr).symm, List.mem_append] at hmem
    rcases hmem with hmem | hmem
    · exact ih buf buf' n hmem
    · simp only [List.zip_cons_cons, List.zip_nil_right, List.mem_singleton, Prod.mk.injEq] at hmem
      exact readStep_countsFit (isOpen_run h hr) hs hmem.1.symm hmem.2.symm

theorem returnedBy_append (es₁ es₂ : List ReadAnswer) :
    returnedBy (es₁ ++ es₂) = returnedBy es₁ ++ returnedBy es₂ := List.flatMap_append

theorem arrived_append (xs ys : List ReadOp) : arrived (xs ++ ys) = arrived xs ++ arrived ys :=
  List.filterMap_append

/-- **Reads conserve the byte stream exactly in the runs without a short read.**  For every open
substream and every interleaving of arriving chunks with reads into buffers of any lengths: the
stream is conserved and no answer exceeds its buffer, after every part of the run, iff no read of
the run is short in the state it is made in. -/
theorem always_conserved_iff {s : Substream R} (h : s.IsOpen) (ops : List ReadOp) :
    Always (fun xs es t => Conserved s xs es t ∧ CountsFit xs es) readStep s ops ↔
      Along (fun t o => ¬ t.ShortOp o) readStep s ops := by
  constructor
  · intro hall
    induction ops using List.reverseRecOn with
    | nil => trivial
    | append_singleton xs o ih =>
      refine along_append_singleton.mpr ⟨ih hall.of_append, fun m es hr => ?_⟩
      obtain ⟨t, e, hs⟩ : ∃ t e, m.readStep o = .ok (t, e) := by
        cases o with
        | arrive chunk => exact ⟨_, _, readStep_arrive (isOpen_run h hr) chunk⟩
        | read buf => exact ⟨_, _, rfl⟩
      have hbefore := (hall xs (List.prefix_append xs [o]) m es hr).1
      have hafter := (hall.snoc hr hs).1
      intro hshort
      rcases readStep_available (isOpen_run h hr) hs with ⟨hn, -⟩ | ⟨-, hlt⟩
      · exact hn hshort
      · have hlen := congrArg List.length hafter
        have hlen' := congrArg List.length hbefore
        simp only [returnedBy_append, arrived_append, List.flatten_append,
          List.length_append] at hlen hlen'
        omega
  · intro hal xs hxs t es hr
    obtain ⟨ys, rfl⟩ := hxs
    refine ⟨?_, countsFit_run h hr⟩
    refine run_induction_along (I := fun xs es t => Conserved s xs es t) ?_ ?_ hal.of_append hr
    · simp [Conserved, returnedBy, arrived]
    · intro xs es m o t e hr ih hP hs
      rcases readStep_available (isOpen_run h hr) hs with ⟨-, hc⟩ | ⟨hshort, -⟩
      · show returnedBy (es ++ [e]) ++ t.available
          = s.available ++ (arrived (xs ++ [o])).flatten
        have ih' : returnedBy es ++ m.available = s.available ++ (arrived xs).flatten := ih
        rw [returnedBy_append, arrived_append, List.flatten_append, List.append_assoc, hc,
          ← List.append_assoc, ih', List.append_assoc]
      · exact absurd hshort hP

/-- A substream as `new_substream` hands it out. -/
def sample : Substream RawRecipient :=
  .new (.fill 9) ⟨.fill 1⟩ ⟨.fill 2⟩ Chan.new Oneshot.new

theorem sample_isOpen : sample.IsOpen := ⟨rfl, by decide, rfl⟩

/-- A chunk read in two parts, with a second chunk arriving after it is used up. -/
def sampleReads : List ReadOp :=
  [.arrive [1, 2, 3], .read [0, 0], .read [0, 0, 0, 0], .arrive [4], .read [0, 0, 0, 0]]

theorem always_conserved_sampleReads :
    Always (fun xs es t => Conserved sample xs es t ∧ CountsFit xs es) readStep sample
      sampleReads := by
  refine (always_conserved_iff sample_isOpen sampleReads).mpr ⟨id, fun _ _ hs => ?_⟩
  cases hs
  refine ⟨show ¬ Short _ _ by decide, fun _ _ hs => ?_⟩
  cases hs
  refine ⟨show ¬ Short _ _ by decide, fun _ _ hs => ?_⟩
  cases hs
  refine ⟨id, fun _ _ hs => ?_⟩
  cases hs
  exact ⟨show ¬ Short _ _ by decide, fun _ _ _ => trivial⟩

/-- The same chunks, with the second one arriving while a byte of the first is unread: the last
read puts `3, 4` into the buffer and answers `1`, and the byte `4` is gone. -/
def sampleShortReads : List ReadOp :=
  [.arrive [1, 2, 3], .read [0, 0], .arrive [4], .read [0, 0, 0, 0]]

theorem not_conserved_sampleShortReads :
    ∃ t es, run readStep sample sampleShortReads = .ok (t, es) ∧
      es.getLast? = some (some ([3, 4, 0, 0], .ready (.ok 1))) ∧
      returnedBy es = [1, 2, 3] ∧ t.available = [] ∧
      ¬ Conserved sample sampleShortReads es t := by
  refine ⟨_, _, rfl, by decide, by decide, by decide, ?_⟩
  show ¬ (_ = _)
  decide

end Libp2pNym.Substream
