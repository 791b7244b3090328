import NucleoW5500.Lockstep

/-! A program and a device that moves by itself. Before each access of the program the device
makes any number of moves, so what the program proves about it must survive them. A program
has not returned yet when the moves it is given run out. -/

namespace Interleaved

structure World (η σ ε : Type) where
  host : η
  dev : σ
  /-- the moves of the device before each access still to come -/
  script : List (List ε)
  deriving DecidableEq, Repr

variable {η σ ε ρ α β : Type}

abbrev Prog (η σ ε ρ α : Type) := EStateM ρ (World η σ ε) α

def moves (move : ε → σ → σ) (es : List ε) (s : σ) : σ := es.foldl (fun s e => move e s) s

/-- One access, which cannot be split. `stop` is for a program that is left waiting. -/
def access (move : ε → σ → σ) (stop : ρ) (f : σ → α × σ) : Prog η σ ε ρ α := fun w =>
  match w.script with
  | [] => .error stop w
  | es :: script => .ok (f (moves move es w.dev)).1 ⟨w.host, (f (moves move es w.dev)).2, script⟩

def getHost : Prog η σ ε ρ η := fun w => .ok w.host w

def setHost (h : η) : Prog η σ ε ρ Unit := fun w => .ok () { w with host := h }

def loopFuel {γ : Type} (stop : ρ) (x : γ → Prog η σ ε ρ (γ ⊕ α)) : Nat → γ → Prog η σ ε ρ α
  | 0, _ => fun w => .error stop w
  | fuel + 1, g => do
    match ← x g with
    | .inl g => loopFuel stop x fuel g
    | .inr a => pure a

/-- Repeat `x` on what it hands to the next pass, until it has a result. A pass makes an access,
so the fuel is one more than the accesses left. -/
def loop {γ : Type} (stop : ρ) (x : γ → Prog η σ ε ρ (γ ⊕ α)) (g : γ) : Prog η σ ε ρ α := fun w =>
  loopFuel stop x (w.script.length + 1) g w

/-- Repeat `x` until it has a result. -/
def poll (stop : ρ) (x : Prog η σ ε ρ (Option α)) : Prog η σ ε ρ α :=
  loop stop (fun _ => do
    match ← x with
    | none => pure (.inl ())
    | some a => pure (.inr a)) ()

/-- Nothing but moves in `R` is to come. -/
def Within (R : ε → Prop) (script : List (List ε)) : Prop := ∀ es ∈ script, ∀ e ∈ es, R e

def Stable (move : ε → σ → σ) (R : ε → Prop) (P : η → σ → Prop) : Prop :=
  ∀ e, R e → ∀ h s, P h s → P h (move e s)

/-- From `P`, among moves in `R`: the program ends in `Q`, or stops with an error in `E`. -/
def Spec (R : ε → Prop) (P : η → σ → Prop) (x : Prog η σ ε ρ α) (Q : α → η → σ → Prop)
    (E : ρ → Prop) : Prop :=
  ∀ w, Within R w.script → P w.host w.dev → match x w with
    | .ok a w' => Within R w'.script ∧ Q a w'.host w'.dev
    | .error e _ => E e

variable {move : ε → σ → σ} {stop : ρ} {R : ε → Prop} {P P' : η → σ → Prop} {E : ρ → Prop}
  {Q Q' : α → η → σ → Prop} {S : β → η → σ → Prop}

theorem Stable.moves (h : Stable move R P) {es : List ε} (hR : ∀ e ∈ es, R e) {u : η} {s : σ}
    (hP : P u s) : P u (moves move es s) := by
  induction es generalizing s with
  | nil => exact hP
  | cons e es ih =>
    exact ih (fun e' he' => hR e' (List.mem_cons_of_mem e he'))
      (h e (hR e List.mem_cons_self) u s hP)

theorem Within.head {es : List ε} {script : List (List ε)} (h : Within R (es :: script)) :
    ∀ e ∈ es, R e :=
  h es List.mem_cons_self

theorem Within.tail {es : List ε} {script : List (List ε)} (h : Within R (es :: script)) :
    Within R script :=
  fun es' hes' => h es' (List.mem_cons_of_mem es hes')

theorem Spec.ok {x : Prog η σ ε ρ α} (hx : Spec R P x Q E) {w w' : World η σ ε} {a : α}
    (hw : Within R w.script) (hP : P w.host w.dev) (h : x w = .ok a w') :
    Within R w'.script ∧ Q a w'.host w'.dev := by
  have hh := hx w hw hP
  rwa [h] at hh

theorem Spec.error {x : Prog η σ ε ρ α} (hx : Spec R P x Q E) {w w' : World η σ ε} {e : ρ}
    (hw : Within R w.script) (hP : P w.host w.dev) (h : x w = .error e w') : E e := by
  have hh := hx w hw hP
  rwa [h] at hh

theorem Spec.mono {x : Prog η σ ε ρ α} (hx : Spec R P x Q E) (hP : ∀ u s, P' u s → P u s)
    (hQ : ∀ a u s, Q a u s → Q' a u s) : Spec R P' x Q' E := by
  intro w hw hp
  have hh := hx w hw (hP _ _ hp)
  cases hr : x w with
  | ok a w' =>
    rw [hr] at hh
    exact ⟨hh.1, hQ _ _ _ hh.2⟩
  | error e w' =>
    rw [hr] at hh
    exact hh

theorem Spec.pre {x : Prog η σ ε ρ α} (hx : Spec R P x Q E) (hP : ∀ u s, P' u s → P u s) :
    Spec R P' x Q E :=
  hx.mono hP fun _ _ _ hq => hq

theorem Spec.post {x : Prog η σ ε ρ α} (hx : Spec R P x Q E)
    (hQ : ∀ a u s, Q a u s → Q' a u s) : Spec R P x Q' E :=
  hx.mono (fun _ _ hp => hp) hQ

theorem Spec.stops {E' : ρ → Prop} {x : Prog η σ ε ρ α} (hx : Spec R P x Q E)
    (hE : ∀ e, E e → E' e) : Spec R P x Q E' := by
  intro w hw hp
  have hh := hx w hw hp
  cases hr : x w with
  | ok a w' =>
    rw [hr] at hh
    exact hh
  | error e w' =>
    rw [hr] at hh
    exact hE e hh

/-- Errors are those of the first. -/
theorem Spec.meet {E' : ρ → Prop} {x : Prog η σ ε ρ α} (hx : Spec R P x Q E)
    (hx' : Spec R P' x Q' E') :
    Spec R (fun u s => P u s ∧ P' u s) x (fun a u s => Q a u s ∧ Q' a u s) E := by
  intro w hw hp
  have h₁ := hx w hw hp.1
  have h₂ := hx' w hw hp.2
  cases hr : x w with
  | ok a w' =>
    rw [hr] at h₁ h₂
    exact ⟨h₁.1, h₁.2, h₂.2⟩
  | error e w' =>
    rw [hr] at h₁
    exact h₁

/-- A value that the assertions mention and the program does not. -/
theorem Spec.exists {γ : Type} {x : Prog η σ ε ρ α} {P : γ → η → σ → Prop}
    (h : ∀ g, Spec R (P g) x Q E) : Spec R (fun u s => ∃ g, P g u s) x Q E := by
  rintro w hw ⟨g, hp⟩
  exact h g w hw hp

/-- What an assertion says that does not depend on the state. -/
theorem Spec.fact {x : Prog η σ ε ρ α} {p : Prop} (hp : ∀ u s, P u s → p)
    (h : p → Spec R P x Q E) : Spec R P x Q E :=
  fun w hw hP => h (hp _ _ hP) w hw hP

theorem Spec.pure {a : α} (h : ∀ u s, P u s → Q a u s) :
    Spec R P (pure a : Prog η σ ε ρ α) Q E :=
  fun _ hw hp => ⟨hw, h _ _ hp⟩

theorem Spec.bind {x : Prog η σ ε ρ α} {f : α → Prog η σ ε ρ β} (hx : Spec R P x Q E)
    (hf : ∀ a, Spec R (Q a) (f a) S E) : Spec R P (x >>= f) S E := by
  intro w hw hp
  have hh := hx w hw hp
  rw [Lockstep.bind_apply]
  cases hr : x w with
  | ok a w' =>
    rw [hr] at hh
    exact hf a w' hh.1 hh.2
  | error e w' =>
    rw [hr] at hh
    exact hh

theorem Spec.ite {c : Prop} [Decidable c] {x y : Prog η σ ε ρ α} (hx : c → Spec R P x Q E)
    (hy : ¬ c → Spec R P y Q E) : Spec R P (if c then x else y) Q E := by
  by_cases hc : c
  · rw [if_pos hc]
    exact hx hc
  · rw [if_neg hc]
    exact hy hc

theorem Spec.getHost {Q : η → η → σ → Prop} (h : ∀ u s, P u s → Q u u s) :
    Spec R P (getHost : Prog η σ ε ρ η) Q E :=
  fun _ hw hp => ⟨hw, h _ _ hp⟩

theorem Spec.setHost {u' : η} {Q : Unit → η → σ → Prop} (h : ∀ u s, P u s → Q () u' s) :
    Spec R P (setHost u' : Prog η σ ε ρ Unit) Q E :=
  fun _ hw hp => ⟨hw, h _ _ hp⟩

theorem Spec.access {f : σ → α × σ} (hst : Stable move R P) (hE : E stop)
    (h : ∀ u s, P u s → Q (f s).1 u (f s).2) :
    Spec R P (access move stop f) Q E := by
  intro w hw hp
  rw [Interleaved.access]
  cases hs : w.script with
  | nil => exact hE
  | cons es script =>
    rw [hs] at hw
    exact ⟨hw.tail, h _ _ (hst.moves hw.head hp)⟩

theorem Spec.loop {γ : Type} {x : γ → Prog η σ ε ρ (γ ⊕ α)} {I : γ → η → σ → Prop}
    (hx : ∀ g, Spec R (I g) (x g) (fun r u s => r.elim (I · u s) (Q · u s)) E) (hE : E stop)
    (g : γ) : Spec R (I g) (loop stop x g) Q E := by
  have hfuel : ∀ fuel g, Spec R (I g) (loopFuel stop x fuel g) Q E := by
    intro fuel
    induction fuel with
    | zero => exact fun _ _ _ _ => hE
    | succ fuel ih =>
      refine fun g => (hx g).bind fun r => ?_
      cases r with
      | inl g => exact ih g
      | inr a => exact .pure fun _ _ hq => hq
  exact fun w => hfuel _ g w

theorem Spec.poll {x : Prog η σ ε ρ (Option α)} {I : η → σ → Prop}
    (hx : Spec R I x (fun r u s => r.elim (I u s) (Q · u s)) E) (hE : E stop) :
    Spec R I (poll stop x) Q E := by
  refine Spec.loop (I := fun _ => I) (fun _ => hx.bind fun r => ?_) hE ()
  cases r with
  | none => exact .pure fun _ _ hi => hi
  | some a => exact .pure fun _ _ hq => hq

end Interleaved
