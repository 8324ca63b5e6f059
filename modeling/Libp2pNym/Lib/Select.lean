import Libp2pNym.Lib.Channel

/-!
# Selecting between two futures

A future is kept with what it works on, as a state that every poll of it moves on.  `select` polls
two futures, one after the other, in the order it is told.  The first that is ready ends the
selection: the other is dropped where it stands, without another poll if it comes second, and
`renew` says what is left of a state for the future that is made next.  The two work on different
states, as exclusive borrows do.
-/

namespace Select

variable {σ τ χ α β : Type}

/-- The future that is polled first. -/
inductive Order where
  | left
  | right
  deriving DecidableEq, Repr

/-- What a poll of both answers. -/
inductive Outcome (α β : Type) where
  | pending
  | left (a : α)
  | right (b : β)
  deriving DecidableEq, Repr

/-- One poll of both futures. -/
def select (left : σ → Except χ (σ × Poll α)) (right : τ → Except χ (τ × Poll β))
    (renewLeft : σ → σ) (renewRight : τ → τ) (order : Order) (s : σ) (t : τ) :
    Except χ ((σ × τ) × Outcome α β) :=
  match order with
  | .left =>
    match left s with
    | .error x => .error x
    | .ok (s, .ready a) => .ok ((renewLeft s, renewRight t), .left a)
    | .ok (s, .pending) =>
      match right t with
      | .error x => .error x
      | .ok (t, .ready b) => .ok ((renewLeft s, renewRight t), .right b)
      | .ok (t, .pending) => .ok ((s, t), .pending)
  | .right =>
    match right t with
    | .error x => .error x
    | .ok (t, .ready b) => .ok ((renewLeft s, renewRight t), .right b)
    | .ok (t, .pending) =>
      match left s with
      | .error x => .error x
      | .ok (s, .ready a) => .ok ((renewLeft s, renewRight t), .left a)
      | .ok (s, .pending) => .ok ((s, t), .pending)

variable {left : σ → Except χ (σ × Poll α)} {right : τ → Except χ (τ × Poll β)} {renewLeft : σ → σ}
  {renewRight : τ → τ} {order : Order} {s s' : σ} {t t' : τ} {o : Outcome α β}

/-- **What a selection can do**: the left future ends it, and the right one was not polled or is
pending; or the right future ends it; or both are pending. -/
theorem select_cases (h : select left right renewLeft renewRight order s t = .ok ((s', t'), o)) :
    (∃ a s₁ t₁, o = .left a ∧ left s = .ok (s₁, .ready a) ∧ s' = renewLeft s₁ ∧
      t' = renewRight t₁ ∧
      (order = .left ∧ t₁ = t ∨ order = .right ∧ right t = .ok (t₁, .pending))) ∨
    (∃ b s₁ t₁, o = .right b ∧ right t = .ok (t₁, .ready b) ∧ s' = renewLeft s₁ ∧
      t' = renewRight t₁ ∧
      (order = .right ∧ s₁ = s ∨ order = .left ∧ left s = .ok (s₁, .pending))) ∨
    (o = .pending ∧ left s = .ok (s', .pending) ∧ right t = .ok (t', .pending)) := by
  cases order with
  | left =>
    simp only [select] at h
    split at h
    · cases h
    · rename_i s₁ a hl
      cases h
      exact Or.inl ⟨a, s₁, t, rfl, hl, rfl, rfl, Or.inl ⟨rfl, rfl⟩⟩
    · rename_i s₁ hl
      split at h
      · cases h
      · rename_i t₁ b hr
        cases h
        exact Or.inr (Or.inl ⟨b, s₁, t₁, rfl, hr, rfl, rfl, Or.inr ⟨rfl, hl⟩⟩)
      · rename_i t₁ hr
        cases h
        exact Or.inr (Or.inr ⟨rfl, hl, hr⟩)
  | right =>
    simp only [select] at h
    split at h
    · cases h
    · rename_i t₁ b hr
      cases h
      exact Or.inr (Or.inl ⟨b, s, t₁, rfl, hr, rfl, rfl, Or.inl ⟨rfl, rfl⟩⟩)
    · rename_i t₁ hr
      split at h
      · cases h
      · rename_i s₁ a hl
        cases h
        exact Or.inl ⟨a, s₁, t₁, rfl, hl, rfl, rfl, Or.inr ⟨rfl, hr⟩⟩
      · rename_i s₁ hl
        cases h
        exact Or.inr (Or.inr ⟨rfl, hl, hr⟩)

/-- A selection in which the left future is ready, and the right one not before it. -/
theorem select_of_left {a : α} {s₁ : σ} {t₁ : τ} (hl : left s = .ok (s₁, .ready a))
    (hr : order = .left ∧ t₁ = t ∨ order = .right ∧ right t = .ok (t₁, .pending)) :
    select left right renewLeft renewRight order s t
      = .ok ((renewLeft s₁, renewRight t₁), .left a) := by
  rcases hr with ⟨rfl, rfl⟩ | ⟨rfl, hr⟩
  · simp only [select, hl]
  · simp only [select, hr, hl]

/-- A selection between futures that do not fail does not fail. -/
theorem select_isOk (hl : ∃ v, left s = .ok v) (hr : ∃ v, right t = .ok v) :
    ∃ v, select left right renewLeft renewRight order s t = .ok v := by
  obtain ⟨⟨s₁, a⟩, hl⟩ := hl
  obtain ⟨⟨t₁, b⟩, hr⟩ := hr
  cases order <;> cases a <;> cases b <;> simp [select, hl, hr]

end Select
