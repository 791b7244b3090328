import Mathlib.Data.Nat.Basic

/-! Counters that wrap. The readings of a counter are modulo `M`; a timer polls a counter and
counts from the reading at which it was last due. -/

namespace Wrapping

variable {M a b k : ℕ}

/-- The reading `n` counts after the reading `a`. -/
def after (M a n : ℕ) : ℕ := (a + n) % M

/-- The counts from the reading `a` to the reading `b`. -/
def elapsed (M a b : ℕ) : ℕ := (M - a + b) % M

theorem elapsed_lt (h : a < M) (b : ℕ) : elapsed M a b < M := Nat.mod_lt _ (by omega)

theorem elapsed_of_le (hab : a ≤ b) (hb : b < M) : elapsed M a b = b - a := by
  have hsum : M - a + b = (b - a) + M := by omega
  rw [elapsed, hsum, Nat.add_mod_right, Nat.mod_eq_of_lt (by omega)]

theorem elapsed_of_lt (hba : b < a) (ha : a < M) : elapsed M a b = M - a + b :=
  Nat.mod_eq_of_lt (by omega)

theorem after_of_lt (h : a + k < M) : after M a k = a + k := Nat.mod_eq_of_lt h

theorem after_of_le (h : M ≤ a + k) (ha : a < M) (hk : k < M) : after M a k = a + k - M := by
  rw [after, Nat.mod_eq_sub_mod h, Nat.mod_eq_of_lt (by omega)]

/-- Plain `<` tells whether the deadline `k` counts after `a` has passed exactly where the reading
and the deadline are on one side of the wrap. -/
theorem lt_after_iff (ha : a < M) (hb : b < M) (hk : k < M) :
    (b < after M a k ↔ elapsed M a b < k) ↔ (a + elapsed M a b < M ↔ a + k < M) := by
  have hreading : b = a + elapsed M a b ∨ b + M = a + elapsed M a b := by
    rcases Nat.lt_or_ge b a with h | h
    · rw [elapsed_of_lt h ha]
      omega
    · rw [elapsed_of_le h hb]
      omega
  have hbound := elapsed_lt ha b
  rcases Nat.lt_or_ge (a + k) M with h | h
  · rw [after_of_lt h]
    omega
  · rw [after_of_le h ha hk]
    omega

section Timers

variable {τ : Type} (gap : τ → τ → ℕ) (p : ℕ)

/-- Whether a timer with period `p` is due at `now`, and what it counts from afterwards. -/
def poll (since now : τ) : Bool × τ := if p ≤ gap since now then (true, now) else (false, since)

def polls : τ → List τ → List Bool
  | _, [] => []
  | since, now :: rest => (poll gap p since now).1 :: polls (poll gap p since now).2 rest

/-- Every poll of the run has `ok` of the reading the timer counts from and the one it sees. -/
def Along (ok : τ → τ → Prop) : τ → List τ → Prop
  | _, [] => True
  | since, now :: rest => ok since now ∧ Along ok (poll gap p since now).2 rest

variable {gap p} {σ α : Type} {step : σ → τ → α × σ} {answer : Bool → α}

def outputs (step : σ → τ → α × σ) : σ → List τ → List α
  | _, [] => []
  | s, now :: rest => (step s now).1 :: outputs step (step s now).2 rest

/-- An implementation that follows the timer at every poll of a run gives its answers. -/
theorem outputs_eq_polls {R : σ → τ → Prop} {ok : τ → τ → Prop}
    (hstep : ∀ s since now, R s since → ok since now →
      (step s now).1 = answer (poll gap p since now).1 ∧
        R (step s now).2 (poll gap p since now).2)
    {nows : List τ} {s : σ} {since : τ} (hs : R s since) (hok : Along gap p ok since nows) :
    outputs step s nows = (polls gap p since nows).map answer := by
  induction nows generalizing s since with
  | nil => rfl
  | cons now rest ih =>
    obtain ⟨hout, hnext⟩ := hstep s since now hs hok.1
    show _ :: _ = _ :: _
    rw [hout, ih hnext hok.2]

end Timers

end Wrapping
