import Mathlib.Tactic.Common

/-!
# Unbounded channels, one-shot channels and polling

A channel is kept with its history: `got` is what the receiver has taken so far and `queue` what
was sent and not yet taken, so `log` is everything that was ever accepted by `send`, in order.
Both halves may be dropped: `send` fails once the receiver is gone, and `pollRecv` reports the end
of the channel once it is empty and its senders are gone.  The budget of a cooperative runtime, at
whose end a poll answers `Pending` though values wait, is left out.
-/

/-- The answer of a poll function. -/
inductive Poll (α : Type) where
  | ready (a : α)
  | pending
  deriving DecidableEq, Repr

def Poll.isPending {α : Type} : Poll α → Bool
  | .ready _ => false
  | .pending => true

/-- An unbounded first-in first-out channel. -/
structure Chan (α : Type) where
  /-- What the receiver has taken, oldest first. -/
  got : List α
  /-- What was sent and not yet taken, oldest first. -/
  queue : List α
  /-- The receiving half still exists. -/
  rxAlive : Bool
  /-- Some sending half still exists. -/
  txAlive : Bool
  deriving DecidableEq, Repr

namespace Chan

variable {α : Type}

/-- A channel with both halves and nothing in it. -/
def new : Chan α where
  got := []
  queue := []
  rxAlive := true
  txAlive := true

/-- Everything that was ever put on the channel, in order. -/
def log (c : Chan α) : List α := c.got ++ c.queue

/-- Sending fails exactly when the receiving half is gone. -/
def send (c : Chan α) (a : α) : Option (Chan α) :=
  if c.rxAlive then some { c with queue := c.queue ++ [a] } else none

/-- Taking the oldest value; `ready none` once the channel is empty and its senders are gone. -/
def pollRecv (c : Chan α) : Poll (Option α) × Chan α :=
  match c.queue with
  | a :: q => (.ready (some a), { c with got := c.got ++ [a], queue := q })
  | [] => if c.txAlive then (.pending, c) else (.ready none, c)

/-- Dropping the receiving half. -/
def dropRx (c : Chan α) : Chan α := { c with rxAlive := false }

/-- Dropping the last sending half. -/
def dropTx (c : Chan α) : Chan α := { c with txAlive := false }

/-- One more sending half of the channel; what it sends is logged apart. -/
def cloneTx (c : Chan α) : Chan α := { c with got := [], queue := [] }

@[simp] theorem log_new : (new : Chan α).log = [] := rfl

@[simp] theorem rxAlive_dropTx (c : Chan α) : c.dropTx.rxAlive = c.rxAlive := rfl

@[simp] theorem rxAlive_dropRx (c : Chan α) : c.dropRx.rxAlive = false := rfl

@[simp] theorem log_dropRx (c : Chan α) : c.dropRx.log = c.log := rfl

@[simp] theorem log_dropTx (c : Chan α) : c.dropTx.log = c.log := rfl

theorem send_of_alive {c : Chan α} (h : c.rxAlive = true) (a : α) :
    c.send a = some { c with queue := c.queue ++ [a] } := if_pos h

theorem send_of_not_alive {c : Chan α} (h : c.rxAlive = false) (a : α) : c.send a = none := by
  rw [send, h]
  rfl

theorem send_eq_some_iff {c c' : Chan α} {a : α} :
    c.send a = some c' ↔ c.rxAlive = true ∧ c' = { c with queue := c.queue ++ [a] } := by
  unfold send
  split
  · rename_i h
    simp only [Option.some.injEq, h, true_and]
    exact eq_comm
  · rename_i h
    simp only [reduceCtorEq, h, false_and]

theorem pollRecv_of_cons {c : Chan α} {a : α} {q : List α} (h : c.queue = a :: q) :
    c.pollRecv = (.ready (some a), { c with got := c.got ++ [a], queue := q }) := by
  rw [pollRecv, h]

theorem pollRecv_of_nil {c : Chan α} (h : c.queue = []) :
    c.pollRecv = (if c.txAlive then .pending else .ready none, c) := by
  rw [pollRecv, h]
  dsimp only
  split <;> rfl

/-- Receiving moves a value from the queue to what was taken; the log stays. -/
@[simp] theorem log_pollRecv (c : Chan α) : c.pollRecv.2.log = c.log := by
  unfold pollRecv
  split
  · rename_i a q h
    simp [log, h]
  · split <;> rfl

/-! ### Wakers -/

/-- From `c` to `c'` the channel calls the waker that its receiver has left there: a value was sent,
or the last sender is gone. -/
def wakes (c c' : Chan α) : Bool :=
  decide (c.log.length < c'.log.length) || (c.txAlive && !c'.txAlive)

/-- From `c` to `c'` nothing was taken: values were sent, or senders have gone. -/
structure Fed (c c' : Chan α) : Prop where
  queue : ∃ sent, c'.queue = c.queue ++ sent
  got : c'.got = c.got
  txAlive : c'.txAlive = true → c.txAlive = true

theorem Fed.refl (c : Chan α) : Fed c c where
  queue := ⟨[], (List.append_nil _).symm⟩
  got := rfl
  txAlive := id

theorem Fed.trans {c₁ c₂ c₃ : Chan α} (h : Fed c₁ c₂) (h' : Fed c₂ c₃) : Fed c₁ c₃ where
  queue := by
    obtain ⟨sent, hsent⟩ := h.queue
    obtain ⟨sent', hsent'⟩ := h'.queue
    exact ⟨sent ++ sent', by rw [hsent', hsent, List.append_assoc]⟩
  got := h'.got.trans h.got
  txAlive ht := h.txAlive (h'.txAlive ht)

theorem fed_dropTx (c : Chan α) : Fed c c.dropTx where
  queue := ⟨[], (List.append_nil _).symm⟩
  got := rfl
  txAlive ht := by cases ht

/-- Sending, whether or not it fails. -/
theorem fed_send (c : Chan α) (a : α) : Fed c ((c.send a).getD c) := by
  unfold send
  split
  · exact ⟨⟨[a], rfl⟩, rfl, id⟩
  · exact Fed.refl c

theorem Fed.length_le {c c' : Chan α} (h : Fed c c') : c.log.length ≤ c'.log.length := by
  obtain ⟨sent, hsent⟩ := h.queue
  rw [log, log, h.got, hsent, ← List.append_assoc]
  exact (List.prefix_append _ _).length_le

theorem wakes_eq_false_iff {c c' : Chan α} : c.wakes c' = false ↔
    c'.log.length ≤ c.log.length ∧ (c.txAlive = true → c'.txAlive = true) := by
  unfold wakes
  cases c.txAlive <;> cases c'.txAlive <;> simp

/-- A receiver that was not woken finds what was there. -/
theorem Fed.queue_eq {c c' : Chan α} (h : Fed c c') (hw : c.wakes c' = false) :
    c'.queue = c.queue := by
  obtain ⟨sent, hsent⟩ := h.queue
  have hlen := (wakes_eq_false_iff.mp hw).1
  rw [log, log, h.got, hsent] at hlen
  simp only [List.length_append] at hlen
  have hnil : sent = [] := List.length_eq_zero_iff.mp (by omega)
  rw [hsent, hnil, List.append_nil]

/-- A receiver that was not woken in the end was not woken on the way. -/
theorem Fed.wakes_trans {c₁ c₂ c₃ : Chan α} (h : Fed c₁ c₂) (h' : Fed c₂ c₃)
    (hw : c₁.wakes c₃ = false) : c₁.wakes c₂ = false ∧ c₂.wakes c₃ = false := by
  obtain ⟨hlen, htx⟩ := wakes_eq_false_iff.mp hw
  constructor
  · exact wakes_eq_false_iff.mpr ⟨Nat.le_trans h'.length_le hlen, fun ht => h'.txAlive (htx ht)⟩
  · exact wakes_eq_false_iff.mpr ⟨Nat.le_trans hlen h.length_le, fun ht => htx (h.txAlive ht)⟩

end Chan

/-- What a one-shot channel holds: nothing yet, the value that was sent, or nothing ever again
(the value was taken, or the sender is gone without sending). -/
inductive Slot (α : Type) where
  | empty
  | sent (a : α)
  | closed
  deriving DecidableEq, Repr

/-- A one-shot channel. -/
structure Oneshot (α : Type) where
  slot : Slot α
  /-- The receiving half still exists. -/
  rxAlive : Bool
  deriving DecidableEq, Repr

namespace Oneshot

variable {α : Type}

def new : Oneshot α where
  slot := .empty
  rxAlive := true

/-- Sending consumes the sender; it fails exactly when the receiving half is gone. -/
def send (c : Oneshot α) (a : α) : Option (Oneshot α) :=
  if c.rxAlive then some { c with slot := .sent a } else none

/-- `some a` once, if the value is there; `none` when it is not there yet and when it never will
be (again). -/
def tryRecv (c : Oneshot α) : Option α × Oneshot α :=
  match c.slot with
  | .sent a => (some a, { c with slot := .closed })
  | .empty => (none, c)
  | .closed => (none, c)

theorem send_of_alive {c : Oneshot α} (h : c.rxAlive = true) (a : α) :
    c.send a = some { c with slot := .sent a } := if_pos h

def dropRx (c : Oneshot α) : Oneshot α := { c with rxAlive := false }

/-- Dropping the sender: a value that was sent stays there. -/
def dropTx (c : Oneshot α) : Oneshot α :=
  match c.slot with
  | .sent _ => c
  | .empty => { c with slot := .closed }
  | .closed => c

@[simp] theorem rxAlive_dropRx (c : Oneshot α) : c.dropRx.rxAlive = false := rfl

@[simp] theorem rxAlive_dropTx (c : Oneshot α) : c.dropTx.rxAlive = c.rxAlive := by
  unfold dropTx
  split <;> rfl

@[simp] theorem slot_dropTx_eq_sent_iff {c : Oneshot α} {a : α} :
    c.dropTx.slot = .sent a ↔ c.slot = .sent a := by
  unfold dropTx
  split <;> simp_all

theorem slot_dropTx_ne_empty (c : Oneshot α) : c.dropTx.slot ≠ .empty := by
  unfold dropTx
  split <;> simp_all

end Oneshot
