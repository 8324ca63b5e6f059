import Libp2pNym.Lib.Run

/-!
# Simulating one system by another

`exists_run`: when every step of a system is matched by a run of a second one, of any length, and
the two histories stay related, then every run of the first is matched by a run of the second.
-/

namespace StepRun

variable {σ ο ε χ σ' ο' ε' χ' : Type} {step : σ → ο → Except χ (σ × ε)}
  {step' : σ' → ο' → Except χ' (σ' × ε')} {s t : σ} {s' : σ'} {os : List ο} {es : List ε}

/-- **The simulation rule.**  `I` relates the history of a run to the history of the run that
matches it. -/
theorem exists_run {I : List ο → List ε → σ → List ο' → List ε' → σ' → Prop}
    (h0 : I [] [] s [] [] s')
    (hstep : ∀ xs es m ys fs n o t e, run step s xs = .ok (m, es) →
      run step' s' ys = .ok (n, fs) → I xs es m ys fs n → step m o = .ok (t, e) →
      ∃ zs gs n', run step' n zs = .ok (n', gs) ∧
        I (xs ++ [o]) (es ++ [e]) t (ys ++ zs) (fs ++ gs) n') :
    run step s os = .ok (t, es) →
      ∃ ys fs n, run step' s' ys = .ok (n, fs) ∧ I os es t ys fs n := by
  refine run_induction (I := fun os es t => ∃ ys fs n, run step' s' ys = .ok (n, fs) ∧
    I os es t ys fs n) ⟨[], [], s', rfl, h0⟩ ?_
  rintro xs es m o t e hr ⟨ys, fs, n, hn, hi⟩ hs
  obtain ⟨zs, gs, n', hn', hi'⟩ := hstep xs es m ys fs n o t e hr hn hi hs
  exact ⟨ys ++ zs, fs ++ gs, n', run_append_iff.mpr ⟨n, fs, gs, hn, hn', rfl⟩, hi'⟩

end StepRun
