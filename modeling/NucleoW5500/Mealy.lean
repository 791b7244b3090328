import Mathlib.Data.List.Basic

/-! Machines that take one input at a time, give outputs for it and may stop at an error. -/

namespace Mealy

variable {ε σ ι ο : Type}

/-- All outputs, and the state at the end. -/
def run (step : σ → ι → Except ε (List ο × σ)) : List ι → σ → Except ε (List ο × σ)
  | [], s => .ok ([], s)
  | i :: is, s =>
    match step s i with
    | .error e => .error e
    | .ok (os, s) =>
      match run step is s with
      | .error e => .error e
      | .ok (os', s) => .ok (os ++ os', s)

variable {step : σ → ι → Except ε (List ο × σ)}

theorem run_cons {i : ι} {s t : σ} {os : List ο} (h : step s i = .ok (os, t)) (is : List ι) :
    run step (i :: is) s = (run step is t).map fun r => (os ++ r.1, r.2) := by
  rw [run, h]
  dsimp only
  cases run step is t <;> rfl

theorem run_singleton (i : ι) (s : σ) : run step [i] s = step s i := by
  rw [run]
  cases step s i with
  | error e => rfl
  | ok r => simp [run]

theorem run_append {is : List ι} {s t : σ} {os : List ο} (h : run step is s = .ok (os, t))
    (is' : List ι) :
    run step (is ++ is') s = (run step is' t).map fun r => (os ++ r.1, r.2) := by
  induction is generalizing s os with
  | nil =>
    obtain ⟨rfl, rfl⟩ := Prod.mk.inj (Except.ok.inj h)
    rw [List.nil_append]
    cases run step is' s <;> rfl
  | cons i is ih =>
    cases hi : step s i with
    | error e =>
      rw [run, hi] at h
      cases h
    | ok r =>
      obtain ⟨os₁, u⟩ := r
      rw [run_cons hi] at h
      rw [List.cons_append, run_cons hi]
      cases hr : run step is u with
      | error e =>
        rw [hr] at h
        cases h
      | ok r =>
        obtain ⟨os₂, v⟩ := r
        rw [hr] at h
        obtain ⟨rfl, rfl⟩ := Prod.mk.inj (Except.ok.inj h)
        rw [ih hr]
        cases run step is' v with
        | error e => rfl
        | ok r => simp [Except.map]

theorem run_invariant_from {I : List ι → List ο → σ → Prop}
    (hstep : ∀ {is os s i os' t}, I is os s → step s i = .ok (os', t) → I (is ++ [i]) (os ++ os') t)
    {is₀ : List ι} {os₀ : List ο} {s : σ} (h₀ : I is₀ os₀ s) {is : List ι} {os : List ο} {t : σ}
    (h : run step is s = .ok (os, t)) : I (is₀ ++ is) (os₀ ++ os) t := by
  induction is generalizing is₀ os₀ s os with
  | nil =>
    obtain ⟨rfl, rfl⟩ := Prod.mk.inj (Except.ok.inj h)
    simpa using h₀
  | cons i is ih =>
    cases hi : step s i with
    | error e =>
      rw [run, hi] at h
      cases h
    | ok r =>
      obtain ⟨os₁, u⟩ := r
      rw [run_cons hi] at h
      cases hr : run step is u with
      | error e =>
        rw [hr] at h
        cases h
      | ok r =>
        obtain ⟨os₂, v⟩ := r
        rw [hr] at h
        obtain ⟨rfl, rfl⟩ := Prod.mk.inj (Except.ok.inj h)
        have hi' := ih (hstep h₀ hi) hr
        rwa [List.append_assoc, List.append_assoc] at hi'

/-- A run ends in an error at its first step that does. -/
theorem run_error_iff {is : List ι} {s : σ} {e : ε} :
    run step is s = .error e ↔ ∃ before i after os t, is = before ++ i :: after ∧
      run step before s = .ok (os, t) ∧ step t i = .error e := by
  constructor
  · intro h
    induction is generalizing s with
    | nil => cases h
    | cons i is ih =>
      cases hi : step s i with
      | error e' =>
        rw [run, hi] at h
        obtain rfl := Except.error.inj h
        exact ⟨[], i, is, [], s, rfl, rfl, hi⟩
      | ok r =>
        obtain ⟨os, u⟩ := r
        rw [run_cons hi] at h
        cases hr : run step is u with
        | error e' =>
          rw [hr] at h
          obtain rfl := Except.error.inj h
          obtain ⟨before, j, after, os', t, rfl, hb, hj⟩ := ih hr
          exact ⟨i :: before, j, after, os ++ os', t, rfl, by rw [run_cons hi, hb]; rfl, hj⟩
        | ok r =>
          rw [hr] at h
          cases h
  · rintro ⟨before, i, after, os, t, rfl, hb, hi⟩
    rw [run_append hb, run, hi]
    rfl

/-- What holds of the inputs so far, their outputs and the state, step by step. -/
theorem run_invariant {I : List ι → List ο → σ → Prop}
    (hstep : ∀ {is os s i os' t}, I is os s → step s i = .ok (os', t) → I (is ++ [i]) (os ++ os') t)
    {s : σ} (h₀ : I [] [] s) {is : List ι} {os : List ο} {t : σ} (h : run step is s = .ok (os, t)) :
    I is os t := run_invariant_from hstep h₀ h

/-- The same outputs and related states, or the same error. -/
inductive Alike (R : σ → σ → Prop) : Except ε (List ο × σ) → Except ε (List ο × σ) → Prop
  | ok {os : List ο} {s t : σ} : R s t → Alike R (.ok (os, s)) (.ok (os, t))
  | error {e : ε} : Alike R (.error e) (.error e)

theorem Alike.map_eq {τ : Type} {R : σ → σ → Prop} {f : σ → τ} (hf : ∀ {s t}, R s t → f s = f t)
    {x y : Except ε (List ο × σ)} (h : Alike R x y) :
    x.map (Prod.map id f) = y.map (Prod.map id f) := by
  cases h with
  | ok hR => exact congrArg Except.ok (Prod.ext rfl (hf hR))
  | error => rfl

/-- Two runs on the same inputs whose steps are alike. -/
theorem run_alike {R : σ → σ → Prop} {P : ι → Prop}
    (hstep : ∀ {s t i}, R s t → P i → Alike R (step s i) (step t i)) {is : List ι}
    (his : ∀ i ∈ is, P i) {s t : σ} (h : R s t) : Alike R (run step is s) (run step is t) := by
  induction is generalizing s t with
  | nil => exact .ok h
  | cons i is ih =>
    have hi := hstep h (his i List.mem_cons_self)
    rw [run, run]
    generalize step s i = x at hi ⊢
    generalize step t i = y at hi ⊢
    cases hi with
    | error => exact .error
    | ok hR =>
      rename_i u v
      have hr := ih (fun j hj => his j (List.mem_cons_of_mem i hj)) hR
      dsimp only
      generalize run step is u = x at hr ⊢
      generalize run step is v = y at hr ⊢
      cases hr with
      | error => exact .error
      | ok hR => exact .ok hR

end Mealy
