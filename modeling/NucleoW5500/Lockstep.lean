import Mathlib.Order.Defs.Unbundled

/-! Programs with a state and errors, two at a time: both end alike, or at least end in
related states. One at a time: how the state at the end is related to the one before. What is
shown of a program by composition alone holds of any property that sequencing keeps. -/

namespace Lockstep

variable {ε σ α β γ δ : Type} {L P : σ → σ → Prop} {R : α → β → Prop} {S : γ → δ → Prop}

def final : EStateM.Result ε σ α → σ
  | .ok _ s => s
  | .error _ s => s

/-- Both return, with related values, or both stop at the same error. -/
inductive Alike (L : σ → σ → Prop) (R : α → β → Prop) :
    EStateM.Result ε σ α → EStateM.Result ε σ β → Prop
  | ok {a : α} {b : β} {s t : σ} : R a b → L s t → Alike L R (.ok a s) (.ok b t)
  | error {e : ε} {s t : σ} : L s t → Alike L R (.error e s) (.error e t)

def Runs (L : σ → σ → Prop) (R : α → β → Prop) (x : EStateM ε σ α) (y : EStateM ε σ β) : Prop :=
  ∀ s t, L s t → Alike L R (x s) (y t)

def Ends (L P : σ → σ → Prop) (x : EStateM ε σ α) (y : EStateM ε σ β) : Prop :=
  ∀ s t, L s t → P (final (x s)) (final (y t))

def Moves (P : σ → σ → Prop) (x : EStateM ε σ α) : Prop := ∀ s, P s (final (x s))

theorem bind_apply (x : EStateM ε σ α) (f : α → EStateM ε σ γ) (s : σ) :
    (x >>= f) s = match x s with
      | .ok a s' => f a s'
      | .error e s' => .error e s' := by
  show EStateM.bind x f s = _
  unfold EStateM.bind
  cases x s <;> rfl

theorem bind_ok {x : EStateM ε σ α} {f : α → EStateM ε σ γ} {a : α} {s s' : σ}
    (h : x s = .ok a s') : (x >>= f) s = f a s' := by
  rw [bind_apply, h]

theorem bind_error {x : EStateM ε σ α} {f : α → EStateM ε σ γ} {e : ε} {s s' : σ}
    (h : x s = .error e s') : (x >>= f) s = .error e s' := by
  rw [bind_apply, h]

theorem final_bind {P : σ → Prop} {x : EStateM ε σ α} {f : α → EStateM ε σ γ} {s : σ}
    (hx : P (final (x s))) (hf : ∀ a s', P s' → P (final (f a s'))) :
    P (final ((x >>= f) s)) := by
  rw [bind_apply]
  cases hr : x s with
  | ok a s' =>
    rw [hr] at hx
    exact hf a s' hx
  | error e s' =>
    rw [hr] at hx
    exact hx

theorem Alike.final {r : EStateM.Result ε σ α} {r' : EStateM.Result ε σ β}
    (h : Alike L R r r') : L (final r) (final r') := by
  cases h with
  | ok _ hL => exact hL
  | error hL => exact hL

theorem Runs.pure {a : α} {b : β} (h : R a b) :
    Runs L R (pure a : EStateM ε σ α) (pure b) :=
  fun _ _ hL => .ok h hL

theorem Runs.refl (x : EStateM ε σ α) : Runs Eq Eq x x := by
  rintro s _ rfl
  cases x s with
  | ok => exact .ok rfl rfl
  | error => exact .error rfl

theorem Alike.mono {R' : α → β → Prop} {r : EStateM.Result ε σ α} {r' : EStateM.Result ε σ β}
    (h : Alike L R r r') (hR : ∀ a b, R a b → R' a b) : Alike L R' r r' := by
  cases h with
  | ok ha hL => exact .ok (hR _ _ ha) hL
  | error hL => exact .error hL

theorem Runs.mono {R' : α → β → Prop} {x : EStateM ε σ α} {y : EStateM ε σ β} (h : Runs L R x y)
    (hR : ∀ a b, R a b → R' a b) : Runs L R' x y :=
  fun s t hL => (h s t hL).mono hR

theorem Runs.self {x : EStateM ε σ α} {R : α → α → Prop} (h : Runs Eq R x x) {a : α} {s s' : σ}
    (hx : x s = .ok a s') : R a a := by
  have hh := h s s rfl
  rw [hx] at hh
  cases hh with
  | ok ha _ => exact ha

theorem Alike.bind {x : EStateM ε σ α} {y : EStateM ε σ β} {f : α → EStateM ε σ γ}
    {g : β → EStateM ε σ δ} {s t : σ} (hx : Alike L R (x s) (y t))
    (hf : ∀ a b, R a b → Runs L S (f a) (g b)) : Alike L S ((x >>= f) s) ((y >>= g) t) := by
  rw [bind_apply, bind_apply]
  generalize x s = r at hx ⊢
  generalize y t = r' at hx ⊢
  cases hx with
  | ok hR hL => exact hf _ _ hR _ _ hL
  | error hL => exact .error hL

theorem Runs.bind {x : EStateM ε σ α} {y : EStateM ε σ β} {f : α → EStateM ε σ γ}
    {g : β → EStateM ε σ δ} (hx : Runs L R x y) (hf : ∀ a b, R a b → Runs L S (f a) (g b)) :
    Runs L S (x >>= f) (y >>= g) :=
  fun s t hL => (hx s t hL).bind hf

theorem Runs.ite {c : Prop} [Decidable c] {x x' : EStateM ε σ α} {y y' : EStateM ε σ β}
    (h : c → Runs L R x y) (h' : ¬ c → Runs L R x' y') :
    Runs L R (if c then x else x') (if c then y else y') := by
  by_cases hc : c
  · rw [if_pos hc, if_pos hc]
    exact h hc
  · rw [if_neg hc, if_neg hc]
    exact h' hc

theorem Runs.ends {x : EStateM ε σ α} {y : EStateM ε σ β} (h : Runs L R x y)
    (hP : ∀ s t, L s t → P s t) : Ends L P x y :=
  fun s t hL => hP _ _ (h s t hL).final

theorem Runs.bind_ends {x : EStateM ε σ α} {y : EStateM ε σ β} {f : α → EStateM ε σ γ}
    {g : β → EStateM ε σ δ} (hx : Runs L R x y) (hP : ∀ s t, L s t → P s t)
    (hf : ∀ a b, R a b → Ends L P (f a) (g b)) : Ends L P (x >>= f) (y >>= g) := by
  intro s t hL
  have hh := hx s t hL
  rw [bind_apply, bind_apply]
  generalize x s = r at hh ⊢
  generalize y t = r' at hh ⊢
  cases hh with
  | ok hR hL' => exact hf _ _ hR _ _ hL'
  | error hL' => exact hP _ _ hL'

theorem Moves.pure [Std.Refl P] (a : α) : Moves P (pure a : EStateM ε σ α) :=
  fun s => Std.Refl.refl s

theorem Moves.bind [IsTrans σ P] {x : EStateM ε σ α} {f : α → EStateM ε σ γ} (hx : Moves P x)
    (hf : ∀ a, Moves P (f a)) : Moves P (x >>= f) := by
  intro s
  have hh := hx s
  rw [bind_apply]
  cases hr : x s with
  | ok a s' =>
    rw [hr] at hh
    exact IsTrans.trans _ _ _ hh (hf a s')
  | error e s' =>
    rw [hr] at hh
    exact hh

theorem Moves.ite {c : Prop} [Decidable c] {x y : EStateM ε σ α} (hx : Moves P x)
    (hy : Moves P y) : Moves P (if c then x else y) := by
  by_cases hc : c
  · rwa [if_pos hc]
  · rwa [if_neg hc]

/-- A property of programs that sequencing keeps. -/
structure Habit (ε σ : Type) where
  Holds {α : Type} : EStateM ε σ α → Prop
  pure {α : Type} (a : α) : Holds (pure a)
  bind {α β : Type} {x : EStateM ε σ α} {f : α → EStateM ε σ β} :
    Holds x → (∀ a, Holds (f a)) → Holds (x >>= f)

theorem Habit.ite (Q : Habit ε σ) {c : Prop} [Decidable c] {x y : EStateM ε σ α}
    (hx : Q.Holds x) (hy : Q.Holds y) : Q.Holds (if c then x else y) := by
  by_cases hc : c
  · rwa [if_pos hc]
  · rwa [if_neg hc]

def Habit.moves (P : σ → σ → Prop) [Std.Refl P] [IsTrans σ P] : Habit ε σ where
  Holds x := Moves P x
  pure := Moves.pure
  bind := Moves.bind

/-- The program runs in lockstep with itself. -/
def Habit.same (L : σ → σ → Prop) : Habit ε σ where
  Holds x := Runs L Eq x x
  pure _ := Runs.pure rfl
  bind hx hf := Runs.bind hx fun a _ hab => hab ▸ hf a

end Lockstep
