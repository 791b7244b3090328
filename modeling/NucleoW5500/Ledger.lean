import Mathlib.Algebra.Order.Group.Multiset
import NucleoW5500.Lockstep

/-! The conservation law of a heap: what has been allocated is owned by someone or has been
freed. A program trades what it is given to own for what it leaves to be owned. -/

structure Ledger (σ α : Type) where
  allocated : σ → Multiset α
  freed : σ → Multiset α

namespace Ledger

variable {ε σ α β γ : Type} {l : Ledger σ α} {A B C F L : Multiset α} {s s' s'' : σ}

def Holds (l : Ledger σ α) (s : σ) (L : Multiset α) : Prop := l.allocated s = L + l.freed s

def Trades (l : Ledger σ α) (A B : Multiset α) (s s' : σ) : Prop :=
  l.allocated s' + l.freed s + A = l.allocated s + l.freed s' + B

theorem Holds.unique {L' : Multiset α} (h : l.Holds s L) (h' : l.Holds s L') : L = L' :=
  add_right_cancel (h.symm.trans h')

/-- Nothing is freed twice, and nothing that is owned has been freed. -/
theorem Holds.freed_once (h : l.Holds s L) (hnodup : (l.allocated s).Nodup) :
    L.Nodup ∧ (l.freed s).Nodup ∧ Disjoint L (l.freed s) := by
  rw [h] at hnodup
  exact Multiset.nodup_add.mp hnodup

theorem Trades.refl (l : Ledger σ α) (A : Multiset α) (s : σ) : l.Trades A A s s := rfl

theorem Trades.trans (h : l.Trades A B s s') (h' : l.Trades B C s' s'') : l.Trades A C s s'' := by
  classical
  ext a
  have h₁ := congrArg (Multiset.count a) h
  have h₂ := congrArg (Multiset.count a) h'
  simp only [Multiset.count_add] at h₁ h₂ ⊢
  omega

theorem Trades.frame (h : l.Trades A B s s') (F : Multiset α) : l.Trades (A + F) (B + F) s s' := by
  rw [Trades, ← add_assoc, ← add_assoc]
  exact congrArg (· + F) h

theorem Trades.congr {A' B' : Multiset α} (h : l.Trades A B s s') (hA : A = A') (hB : B = B') :
    l.Trades A' B' s s' :=
  hA ▸ hB ▸ h

theorem Trades.holds (h : l.Trades A B s s') (hs : l.Holds s (A + F)) : l.Holds s' (B + F) := by
  classical
  ext a
  have h₁ := congrArg (Multiset.count a) h
  have h₂ := congrArg (Multiset.count a) hs
  simp only [Multiset.count_add] at h₁ h₂ ⊢
  omega

theorem Trades.gain (h : l.Trades 0 B s s') (hs : l.Holds s L) : l.Holds s' (B + L) :=
  h.holds (by rwa [zero_add])

theorem Trades.alloc (ha : l.allocated s' = A + l.allocated s) (hf : l.freed s' = l.freed s) :
    l.Trades 0 A s s' := by
  rw [Trades, ha, hf, add_zero, add_comm, add_comm A, add_left_comm, add_assoc]

theorem Trades.free (ha : l.allocated s' = l.allocated s) (hf : l.freed s' = A + l.freed s) :
    l.Trades A 0 s s' := by
  rw [Trades, ha, hf, add_zero, add_assoc, add_comm (l.freed s)]

theorem Trades.still (ha : l.allocated s' = l.allocated s) (hf : l.freed s' = l.freed s) :
    l.Trades 0 0 s s' := by
  rw [Trades, ha, hf]

/-- Whenever `x` returns, it has traded `A` for what its result accounts for. -/
def Spends (l : Ledger σ α) (A : Multiset α) (x : EStateM ε σ β) (B : β → Multiset α) : Prop :=
  ∀ s b s', x s = .ok b s' → l.Trades A (B b) s s'

theorem Spends.pure (B : β → Multiset α) (b : β) :
    l.Spends (B b) (pure b : EStateM ε σ β) B := by
  intro s b' s' h
  cases h
  exact Trades.refl l _ s

theorem Spends.error {x : EStateM ε σ β} {B : β → Multiset α}
    (h : ∀ s, ∃ e s', x s = .error e s') : l.Spends A x B := by
  intro s b s' hok
  obtain ⟨e, s₁, herr⟩ := h s
  rw [herr] at hok
  cases hok

theorem Spends.bind {x : EStateM ε σ β} {f : β → EStateM ε σ γ} {B : β → Multiset α}
    {C : γ → Multiset α} (hx : l.Spends A x B) (hf : ∀ b, l.Spends (B b) (f b) C) :
    l.Spends A (x >>= f) C := by
  intro s c s' h
  rw [Lockstep.bind_apply] at h
  cases hr : x s with
  | ok b s₁ =>
    rw [hr] at h
    exact (hx s b s₁ hr).trans (hf b s₁ c s' h)
  | error e s₁ =>
    rw [hr] at h
    cases h

theorem Spends.ite {c : Prop} [Decidable c] {x y : EStateM ε σ β} {B : β → Multiset α}
    (hx : c → l.Spends A x B) (hy : ¬ c → l.Spends A y B) : l.Spends A (if c then x else y) B := by
  by_cases hc : c
  · rw [if_pos hc]
    exact hx hc
  · rw [if_neg hc]
    exact hy hc

theorem Spends.frame {x : EStateM ε σ β} {B : β → Multiset α} (h : l.Spends A x B)
    (F : Multiset α) : l.Spends (A + F) x fun b => B b + F :=
  fun s b s' hr => (h s b s' hr).frame F

theorem Spends.congr {x : EStateM ε σ β} {B B' : β → Multiset α} {A' : Multiset α}
    (h : l.Spends A x B) (hA : A = A') (hB : ∀ b, B b = B' b) : l.Spends A' x B' :=
  fun s b s' hr => (h s b s' hr).congr hA (hB b)

/-- Whenever `x` returns, it has traded `A` for what its result accounts for and for what
nobody does. -/
def Loses (l : Ledger σ α) (A : Multiset α) (x : EStateM ε σ β) (B : β → Multiset α) : Prop :=
  ∀ s b s', x s = .ok b s' → ∃ L, l.Trades A (B b + L) s s'

theorem Spends.loses {x : EStateM ε σ β} {B L : β → Multiset α}
    (h : l.Spends A x fun b => B b + L b) : l.Loses A x B :=
  fun s b s' hr => ⟨L b, h s b s' hr⟩

theorem Spends.bind_loses {x : EStateM ε σ β} {f : β → EStateM ε σ γ} {B : β → Multiset α}
    {C : γ → Multiset α} (hx : l.Spends A x B) (hf : ∀ b, l.Loses (B b) (f b) C) :
    l.Loses A (x >>= f) C := by
  intro s c s' h
  rw [Lockstep.bind_apply] at h
  cases hr : x s with
  | ok b s₁ =>
    rw [hr] at h
    obtain ⟨L, hL⟩ := hf b s₁ c s' h
    exact ⟨L, (hx s b s₁ hr).trans hL⟩
  | error e s₁ =>
    rw [hr] at h
    cases h

theorem Loses.ite {c : Prop} [Decidable c] {x y : EStateM ε σ β} {B : β → Multiset α}
    (hx : c → l.Loses A x B) (hy : ¬ c → l.Loses A y B) : l.Loses A (if c then x else y) B := by
  by_cases hc : c
  · rw [if_pos hc]
    exact hx hc
  · rw [if_neg hc]
    exact hy hc

theorem Loses.holds {x : EStateM ε σ β} {B : β → Multiset α} {b : β} (h : l.Loses A x B)
    (hr : x s = .ok b s') (hs : l.Holds s (A + F)) : ∃ F', l.Holds s' (B b + F') := by
  obtain ⟨L, hL⟩ := h s b s' hr
  exact ⟨L + F, add_assoc (B b) L F ▸ hL.holds hs⟩

end Ledger
