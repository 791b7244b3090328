import Mathlib.Data.List.Basic

/-! Machines that read one symbol at a time, emit any number of outputs and may
reject. A reader that takes its input in chunks of its own choice is related to
such a machine by a simulation, and then the way the input was cut is invisible. -/

structure Transducer (σ α β : Type*) where
  step : σ → α → Option (σ × List β)

namespace Transducer

variable {σ α β τ : Type*}

def run (T : Transducer σ α β) : σ → List α → Option (σ × List β)
  | s, [] => some (s, [])
  | s, a :: as => (T.step s a).bind fun p => (T.run p.1 as).map fun q => (q.1, p.2 ++ q.2)

@[simp] theorem run_nil (T : Transducer σ α β) (s : σ) : T.run s [] = some (s, []) := rfl

theorem run_cons (T : Transducer σ α β) (s : σ) (a : α) (as : List α) :
    T.run s (a :: as) =
      (T.step s a).bind fun p => (T.run p.1 as).map fun q => (q.1, p.2 ++ q.2) := rfl

theorem run_singleton (T : Transducer σ α β) (s : σ) (a : α) : T.run s [a] = T.step s a := by
  cases h : T.step s a <;> simp [run_cons, h]

theorem run_append (T : Transducer σ α β) (s : σ) (as bs : List α) :
    T.run s (as ++ bs) =
      (T.run s as).bind fun p => (T.run p.1 bs).map fun q => (q.1, p.2 ++ q.2) := by
  induction as generalizing s with
  | nil => cases h : T.run s bs <;> simp [h]
  | cons a as ih =>
    cases hs : T.step s a with
    | none => simp [run_cons, hs]
    | some p =>
      cases hr : T.run p.1 as with
      | none => simp [run_cons, hs, ih, hr]
      | some q =>
        cases ht : T.run q.1 bs <;> simp [run_cons, hs, ih, hr, ht, List.append_assoc]

theorem run_append_of_some {T : Transducer σ α β} {s t : σ} {as bs : List α} {out : List β}
    (h : T.run s as = some (t, out)) :
    T.run s (as ++ bs) = (T.run t bs).map fun q => (q.1, out ++ q.2) := by
  simp [run_append, h]

theorem run_append_of_none {T : Transducer σ α β} {s : σ} {as : List α} (bs : List α)
    (h : T.run s as = none) : T.run s (as ++ bs) = none := by
  simp [run_append, h]

theorem run_split {T : Transducer σ α β} {s u : σ} {as bs : List α} {out : List β}
    (h : T.run s (as ++ bs) = some (u, out)) :
    ∃ t o₁ o₂, T.run s as = some (t, o₁) ∧ T.run t bs = some (u, o₂) ∧ out = o₁ ++ o₂ := by
  rw [run_append] at h
  cases ha : T.run s as with
  | none => simp [ha] at h
  | some p =>
    cases hb : T.run p.1 bs with
    | none => simp [ha, hb] at h
    | some q =>
      simp only [ha, hb, Option.bind_some, Option.map_some, Option.some.injEq,
        Prod.mk.injEq] at h
      exact ⟨p.1, p.2, q.2, rfl, by simp [hb, ← h.1], h.2.symm⟩

/-- Calls of a chunked reader: each takes some symbols and hands out some outputs. -/
inductive Calls (call : τ → List α → List β → τ → Prop) : τ → List α → List β → τ → Prop
  | nil (t : τ) : Calls call t [] [] t
  | cons {t u v : τ} {as bs : List α} {out outs : List β} :
      call t as out u → Calls call u bs outs v → Calls call t (as ++ bs) (out ++ outs) v

/-- If every call of a reader is matched by the machine, so is every run of calls,
whatever the chunks were. -/
theorem Calls.run {T : Transducer σ α β} {call : τ → List α → List β → τ → Prop}
    {R : τ → σ → Prop}
    (hcall : ∀ t u s as out, R t s → call t as out u → ∃ s', T.run s as = some (s', out) ∧ R u s')
    {t v : τ} {as : List α} {outs : List β} (h : Calls call t as outs v) {s : σ} (hR : R t s) :
    ∃ s', T.run s as = some (s', outs) ∧ R v s' := by
  induction h generalizing s with
  | nil t => exact ⟨s, rfl, hR⟩
  | cons hc _ ih =>
    obtain ⟨s₁, hrun, hR₁⟩ := hcall _ _ _ _ _ hR hc
    obtain ⟨s₂, hrun', hR₂⟩ := ih hR₁
    exact ⟨s₂, by simp [run_append_of_some hrun, hrun'], hR₂⟩

end Transducer
