import Mathlib.Algebra.Order.Ring.Nat
import Mathlib.Data.List.Induction
import Mathlib.Tactic.Common

/-!
# Runs of a step function that may fail

`run step s os` takes the operations `os` one after another from the state `s` and collects what
each of them answered; it fails as soon as one step fails.  `Along P step s os` says that every
operation of the run meets `P` in the state it is taken in, and `Always Q step s os` that `Q`
holds of the history and the state after every part of the run.

The rules are stated over the history: `run_induction` carries an invariant that speaks of the
operations taken and the answers given so far, and `run_isOk_iff_along` turns an exact
description of the failing steps into an exact description of the failing runs.
-/

namespace StepRun

variable {σ ο ε χ : Type}

/-- The run of `os` from `s`: the last state and the answers in order, or the first failure. -/
def run (step : σ → ο → Except χ (σ × ε)) (s : σ) : List ο → Except χ (σ × List ε)
  | [] => .ok (s, [])
  | o :: os =>
    match step s o with
    | .error x => .error x
    | .ok (s', e) =>
      match run step s' os with
      | .error x => .error x
      | .ok (t, es) => .ok (t, e :: es)

/-- Every operation of the run meets `P` in the state it is taken in. -/
def Along (P : σ → ο → Prop) (step : σ → ο → Except χ (σ × ε)) : σ → List ο → Prop
  | _, [] => True
  | s, o :: os => P s o ∧ ∀ s' e, step s o = .ok (s', e) → Along P step s' os

/-- `Q` holds of the operations, the answers and the state after every initial part of the run. -/
def Always (Q : List ο → List ε → σ → Prop) (step : σ → ο → Except χ (σ × ε)) (s : σ)
    (os : List ο) : Prop :=
  ∀ xs, xs <+: os → ∀ t es, run step s xs = .ok (t, es) → Q xs es t

/-- How many steps of the run meet `p` in the state they are taken in. -/
def count (p : σ → ο → Bool) (step : σ → ο → Except χ (σ × ε)) : σ → List ο → ℕ
  | _, [] => 0
  | s, o :: os =>
    (if p s o then 1 else 0) +
      match step s o with
      | .error _ => 0
      | .ok (s', _) => count p step s' os

/-- What `g` reads off the steps of the run, in order. -/
def gather {α : Type} (g : σ → ο → List α) (step : σ → ο → Except χ (σ × ε)) : σ → List ο → List α
  | _, [] => []
  | s, o :: os =>
    g s o ++
      match step s o with
      | .error _ => []
      | .ok (s', _) => gather g step s' os

variable {step : σ → ο → Except χ (σ × ε)} {s t : σ} {o : ο} {os xs ys : List ο} {es : List ε}

theorem run_cons_of_ok {s' : σ} {e : ε} (h : step s o = .ok (s', e))
    (hr : run step s' os = .ok (t, es)) : run step s (o :: os) = .ok (t, e :: es) := by
  simp only [run, h, hr]

theorem run_cons_iff : run step s (o :: os) = .ok (t, es) ↔
    ∃ s' e es', step s o = .ok (s', e) ∧ run step s' os = .ok (t, es') ∧ es = e :: es' := by
  constructor
  · intro h
    simp only [run] at h
    split at h
    · cases h
    · rename_i s' e hs
      split at h
      · cases h
      · rename_i t' es' hr
        cases h
        exact ⟨s', e, es', hs, hr, rfl⟩
  · rintro ⟨s', e, es', hs, hr, rfl⟩
    exact run_cons_of_ok hs hr

theorem run_append_iff : run step s (xs ++ ys) = .ok (t, es) ↔
    ∃ m es₁ es₂, run step s xs = .ok (m, es₁) ∧ run step m ys = .ok (t, es₂) ∧
      es = es₁ ++ es₂ := by
  induction xs generalizing s es with
  | nil =>
    constructor
    · intro h
      exact ⟨s, [], es, rfl, h, rfl⟩
    · rintro ⟨m, es₁, es₂, h₁, h₂, rfl⟩
      cases h₁
      exact h₂
  | cons o xs ih =>
    rw [List.cons_append, run_cons_iff]
    constructor
    · rintro ⟨s', e, es', hs, hr, rfl⟩
      obtain ⟨m, es₁, es₂, h₁, h₂, rfl⟩ := ih.mp hr
      exact ⟨m, e :: es₁, es₂, run_cons_of_ok hs h₁, h₂, rfl⟩
    · rintro ⟨m, es₁, es₂, h₁, h₂, rfl⟩
      obtain ⟨s', e, es', hs, hr, rfl⟩ := run_cons_iff.mp h₁
      exact ⟨s', e, es' ++ es₂, hs, ih.mpr ⟨m, es', es₂, hr, h₂, rfl⟩, rfl⟩

/-- The last step of a run: what the earlier steps reached, and one step from there. -/
theorem run_snoc_iff : run step s (xs ++ [o]) = .ok (t, es) ↔
    ∃ m es₁ e, run step s xs = .ok (m, es₁) ∧ step m o = .ok (t, e) ∧ es = es₁ ++ [e] := by
  rw [run_append_iff]
  constructor
  · rintro ⟨m, es₁, es₂, h₁, h₂, rfl⟩
    obtain ⟨s', e, es', hs, hr, rfl⟩ := run_cons_iff.mp h₂
    cases hr
    exact ⟨m, es₁, e, h₁, hs, rfl⟩
  · rintro ⟨m, es₁, e, h₁, hs, rfl⟩
    exact ⟨m, es₁, [e], h₁, run_cons_of_ok hs rfl, rfl⟩

/-- A run answers each of its operations once. -/
theorem length_answers (h : run step s os = .ok (t, es)) : es.length = os.length := by
  induction os generalizing s es with
  | nil => cases h; rfl
  | cons o os ih =>
    obtain ⟨s', e, es', hs, hr, rfl⟩ := run_cons_iff.mp h
    rw [List.length_cons, List.length_cons, ih hr]

/-- What `g` reads off the operations and their answers, when more of both have come. -/
theorem flatMap_zip_append {α : Type} (g : ο × ε → List α) {es' : List ε}
    (hlen : es.length = xs.length) :
    ((xs ++ ys).zip (es ++ es')).flatMap g
      = (xs.zip es).flatMap g ++ (ys.zip es').flatMap g := by
  rw [List.zip_append hlen.symm, List.flatMap_append]

theorem flatMap_zip_snoc {α : Type} (g : ο × ε → List α) (hlen : es.length = xs.length) (o : ο)
    (e : ε) : ((xs ++ [o]).zip (es ++ [e])).flatMap g = (xs.zip es).flatMap g ++ g (o, e) := by
  rw [flatMap_zip_append g hlen]
  exact congrArg (_ ++ ·) (List.append_nil (g (o, e)))

/-- The run up to an answer, the step that gave it, and the rest of the run. -/
theorem run_split {i : ℕ} {e : ε} (h : run step s os = .ok (t, es)) (he : es[i]? = some e) :
    ∃ xs o ys m m' es₁ es₂, os = xs ++ o :: ys ∧ es = es₁ ++ e :: es₂ ∧ es₁.length = i ∧
      run step s xs = .ok (m, es₁) ∧ step m o = .ok (m', e) ∧ run step m' ys = .ok (t, es₂) := by
  induction os generalizing s es i with
  | nil =>
    cases h
    cases he
  | cons o os ih =>
    obtain ⟨s', e', es', hs, hr, rfl⟩ := run_cons_iff.mp h
    cases i with
    | zero =>
      cases he
      exact ⟨[], o, os, s, s', [], es', rfl, rfl, rfl, rfl, hs, hr⟩
    | succ i =>
      obtain ⟨xs, o', ys, m, m', es₁, es₂, rfl, rfl, rfl, h₁, h₂, h₃⟩ := ih hr he
      exact ⟨o :: xs, o', ys, m, m', e' :: es₁, es₂, rfl, rfl, rfl, run_cons_of_ok hs h₁, h₂, h₃⟩

/-- What an invariant says of every answer holds of all answers of a run. -/
theorem run_answers {I : σ → Prop} {Q : ε → Prop}
    (hstep : ∀ m o t e, I m → step m o = .ok (t, e) → I t ∧ Q e) (h0 : I s)
    (h : run step s os = .ok (t, es)) : ∀ e ∈ es, Q e := by
  induction os generalizing s es with
  | nil =>
    cases h
    exact fun e he => absurd he List.not_mem_nil
  | cons o os ih =>
    obtain ⟨s', e, es', hs, hr, rfl⟩ := run_cons_iff.mp h
    obtain ⟨hi, hq⟩ := hstep s o s' e h0 hs
    intro e' he'
    rcases List.mem_cons.mp he' with rfl | he'
    · exact hq
    · exact ih hi hr e' he'

/-- **The invariant rule.**  What holds at the start and is kept by every step taken from a state
the run reaches holds, with the whole history, after every run. -/
theorem run_induction {I : List ο → List ε → σ → Prop} (h0 : I [] [] s)
    (hstep : ∀ xs es m o t e, run step s xs = .ok (m, es) → I xs es m →
      step m o = .ok (t, e) → I (xs ++ [o]) (es ++ [e]) t) :
    run step s os = .ok (t, es) → I os es t := by
  induction os using List.reverseRecOn generalizing t es with
  | nil =>
    intro h
    cases h
    exact h0
  | append_singleton xs o ih =>
    intro h
    obtain ⟨m, es₁, e, h₁, hs, rfl⟩ := run_snoc_iff.mp h
    exact hstep xs es₁ m o t e h₁ (ih h₁) hs

/-! ### Conditions along a run -/

theorem along_append_singleton {P : σ → ο → Prop} : Along P step s (xs ++ [o]) ↔
    Along P step s xs ∧ ∀ m es, run step s xs = .ok (m, es) → P m o := by
  induction xs generalizing s with
  | nil =>
    simp only [List.nil_append, Along, run, Except.ok.injEq, Prod.mk.injEq, true_and]
    constructor
    · rintro ⟨hP, -⟩ m es ⟨rfl, rfl⟩
      exact hP
    · intro h
      exact ⟨h s [] ⟨rfl, rfl⟩, fun _ _ _ => trivial⟩
  | cons a xs ih =>
    rw [List.cons_append]
    simp only [Along]
    constructor
    · rintro ⟨hP, h⟩
      refine ⟨⟨hP, fun s' e hs => (ih.mp (h s' e hs)).1⟩, ?_⟩
      intro m es hr
      obtain ⟨s', e, es', hs, hr', rfl⟩ := run_cons_iff.mp hr
      exact (ih.mp (h s' e hs)).2 m es' hr'
    · rintro ⟨⟨hP, h⟩, hlast⟩
      refine ⟨hP, fun s' e hs => ih.mpr ⟨h s' e hs, ?_⟩⟩
      intro m es hr
      exact hlast m (e :: es) (run_cons_of_ok hs hr)

/-- What holds of each step of a run in the state it is taken in holds along the run. -/
theorem along_of_forall {P : σ → ο → Prop}
    (h : ∀ xs o, xs ++ [o] <+: os → ∀ m es, run step s xs = .ok (m, es) → P m o) :
    Along P step s os := by
  induction os using List.reverseRecOn with
  | nil => trivial
  | append_singleton xs o ih =>
    refine along_append_singleton.mpr ⟨ih fun ys o' hp => ?_, h xs o (List.prefix_refl _)⟩
    exact h ys o' (hp.trans (List.prefix_append xs [o]))

/-- A condition on the steps of a run holds along every initial part of it. -/
theorem Along.of_append {P : σ → ο → Prop} (h : Along P step s (xs ++ ys)) :
    Along P step s xs := by
  induction ys using List.reverseRecOn with
  | nil => simpa using h
  | append_singleton ys o ih =>
    rw [← List.append_assoc] at h
    exact ih (along_append_singleton.mp h).1

theorem count_append {p : σ → ο → Bool} {m : σ} (h : run step s xs = .ok (m, es)) :
    count p step s (xs ++ ys) = count p step s xs + count p step m ys := by
  induction xs generalizing s es with
  | nil =>
    cases h
    exact (Nat.zero_add _).symm
  | cons a xs ih =>
    obtain ⟨s', e, es', hs, hr, rfl⟩ := run_cons_iff.mp h
    rw [List.cons_append, count, count, hs]
    dsimp only
    rw [ih hr, Nat.add_assoc]

theorem count_append_singleton {p : σ → ο → Bool} {m : σ} (h : run step s xs = .ok (m, es)) :
    count p step s (xs ++ [o]) = count p step s xs + if p m o then 1 else 0 := by
  rw [count_append h, count]
  cases step m o <;> rfl

theorem gather_append {α : Type} {g : σ → ο → List α} {m : σ} (h : run step s xs = .ok (m, es)) :
    gather g step s (xs ++ ys) = gather g step s xs ++ gather g step m ys := by
  induction xs generalizing s es with
  | nil =>
    cases h
    rfl
  | cons a xs ih =>
    obtain ⟨s', e, es', hs, hr, rfl⟩ := run_cons_iff.mp h
    rw [List.cons_append, gather, gather, hs]
    dsimp only
    rw [ih hr, List.append_assoc]

theorem gather_append_singleton {α : Type} {g : σ → ο → List α} {m : σ}
    (h : run step s xs = .ok (m, es)) :
    gather g step s (xs ++ [o]) = gather g step s xs ++ g m o := by
  have hlast : gather g step m [o] = g m o := by
    rw [gather]
    cases step m o <;> exact List.append_nil _
  rw [gather_append h, hlast]

/-- No step is counted twice. -/
theorem count_add_count_le {p q : σ → ο → Bool} (hpq : ∀ s o, p s o = true → q s o = false) :
    count p step s os + count q step s os ≤ os.length := by
  induction os generalizing s with
  | nil => exact Nat.le_refl _
  | cons o os ih =>
    have hone : (if p s o then 1 else 0) + (if q s o then 1 else 0) ≤ 1 := by
      by_cases hp : p s o = true
      · rw [if_pos hp, hpq s o hp]
        exact Nat.le_refl _
      · rw [if_neg hp]
        split <;> omega
    rw [count, count, List.length_cons]
    cases step s o with
    | error x =>
      dsimp only
      omega
    | ok v =>
      have := ih (s := v.1)
      dsimp only
      omega

/-- What no step of a run is counted for fails along it. -/
theorem along_of_count {p : σ → ο → Bool} (h : count p step s os = 0) :
    Along (fun s o => p s o = false) step s os := by
  induction os generalizing s with
  | nil => trivial
  | cons o os ih =>
    rw [count] at h
    obtain ⟨hhead, hrest⟩ := Nat.add_eq_zero_iff.mp h
    refine ⟨?_, fun s' e hs => ih ?_⟩
    · by_contra hp
      rw [Bool.not_eq_false] at hp
      rw [hp] at hhead
      cases hhead
    · rw [hs] at hrest
      exact hrest

theorem count_eq_zero {p : σ → ο → Bool} (h : ∀ o ∈ os, ∀ s, p s o = false) :
    count p step s os = 0 := by
  induction os generalizing s with
  | nil => rfl
  | cons o os ih =>
    rw [count, h o List.mem_cons_self s]
    cases step s o with
    | error x => rfl
    | ok v =>
      have hrest := ih (s := v.1) fun o' ho' => h o' (List.mem_cons_of_mem _ ho')
      dsimp only
      rw [hrest]
      rfl

theorem count_le_length {p : σ → ο → Bool} : count p step s os ≤ os.length :=
  Nat.le_trans (Nat.le_add_right _ _) (count_add_count_le (q := fun _ _ => false) fun _ _ _ => rfl)

/-- The invariant rule for runs all of whose steps meet a condition. -/
theorem run_induction_along {P : σ → ο → Prop} {I : List ο → List ε → σ → Prop}
    (h0 : I [] [] s)
    (hstep : ∀ xs es m o t e, run step s xs = .ok (m, es) → I xs es m → P m o →
      step m o = .ok (t, e) → I (xs ++ [o]) (es ++ [e]) t)
    (hP : Along P step s os) (h : run step s os = .ok (t, es)) : I os es t := by
  refine run_induction (I := fun os es t => Along P step s os → I os es t)
    (fun _ => h0) ?_ h hP
  intro xs es m o t e hr ih hs hal
  obtain ⟨hxs, hlast⟩ := along_append_singleton.mp hal
  exact hstep xs es m o t e hr (ih hxs) (hlast m es hr) hs

/-- **Exactly the failing runs.**  When each step of a run, in the state it is taken in, succeeds
iff it meets `P`, the run succeeds iff all its steps meet `P`. -/
theorem run_isOk_iff_along {P : σ → ο → Prop}
    (hok : ∀ xs o, xs ++ [o] <+: os → ∀ m es, run step s xs = .ok (m, es) →
      ((∃ r, step m o = .ok r) ↔ P m o)) :
    (∃ r, run step s os = .ok r) ↔ Along P step s os := by
  induction os using List.reverseRecOn with
  | nil => exact ⟨fun _ => trivial, fun _ => ⟨(s, []), rfl⟩⟩
  | append_singleton xs o ih =>
    have hlast := hok xs o (List.prefix_refl _)
    rw [along_append_singleton,
      ← ih fun ys o' hp => hok ys o' (hp.trans (List.prefix_append xs [o]))]
    constructor
    · rintro ⟨⟨t, es⟩, h⟩
      obtain ⟨m, es₁, e, h₁, hs, rfl⟩ := run_snoc_iff.mp h
      refine ⟨⟨(m, es₁), h₁⟩, fun m' es' h' => ?_⟩
      rw [h₁] at h'
      cases h'
      exact (hlast m es₁ h₁).mp ⟨(t, e), hs⟩
    · rintro ⟨⟨⟨m, es₁⟩, h₁⟩, hP⟩
      obtain ⟨⟨t, e⟩, hs⟩ := (hlast m es₁ h₁).mpr (hP m es₁ h₁)
      exact ⟨(t, es₁ ++ [e]), run_snoc_iff.mpr ⟨m, es₁, e, h₁, hs, rfl⟩⟩

/-! ### Histories after every part of a run -/

theorem Always.of_append {Q : List ο → List ε → σ → Prop} (h : Always Q step s (xs ++ ys)) :
    Always Q step s xs :=
  fun zs hzs => h zs (hzs.trans (List.prefix_append xs ys))

/-- What always holds, holds after the last step. -/
theorem Always.snoc {Q : List ο → List ε → σ → Prop} {m : σ} {e : ε}
    (h : Always Q step s (xs ++ [o])) (hr : run step s xs = .ok (m, es))
    (hs : step m o = .ok (t, e)) : Q (xs ++ [o]) (es ++ [e]) t :=
  h _ (List.prefix_refl _) _ _ (run_snoc_iff.mpr ⟨m, es, e, hr, hs, rfl⟩)

end StepRun
