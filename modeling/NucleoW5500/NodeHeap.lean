import NucleoW5500.Lockstep
import NucleoW5500.Ring

/-! Linked nodes that can be freed. A program stops at its first access to a node that
is not there, so that one that returns has made no such access. -/

/-- The links of the nodes, the allocated ones and the freed ones, latest first. The
static nodes are always there. -/
structure NodeHeap (α : Type) (static : α → Bool) where
  links : Links α
  allocated : α → Bool
  freed : List α

namespace NodeHeap

open Lockstep

inductive Stop (α : Type)
  | gone (x : α)
  | endless

variable {α σ : Type} {static : α → Bool}

abbrev Program (α : Type) (static : α → Bool) := EStateM (Stop α) (NodeHeap α static)

def there (h : NodeHeap α static) (x : α) : Bool := static x || h.allocated x

def next (x : α) : Program α static α := fun h =>
  if h.there x then .ok (h.links.next x) h else .error (.gone x) h

def prev (x : α) : Program α static α := fun h =>
  if h.there x then .ok (h.links.prev x) h else .error (.gone x) h

theorem there_of_static {h : NodeHeap α static} {x : α} (hx : static x = true) :
    h.there x = true := by
  simp [there, hx]

theorem there_of_allocated {h : NodeHeap α static} {x : α} (hx : h.allocated x = true) :
    h.there x = true := by
  simp [there, hx]

@[simp] theorem next_ok {h : NodeHeap α static} {x : α} (hx : h.there x = true) :
    next x h = .ok (h.links.next x) h := by
  simp [next, hx]

@[simp] theorem prev_ok {h : NodeHeap α static} {x : α} (hx : h.there x = true) :
    prev x h = .ok (h.links.prev x) h := by
  simp [prev, hx]

variable [DecidableEq α]

def setNext (x y : α) : Program α static Unit := fun h =>
  if h.there x then .ok () { h with links := h.links.setNext x y } else .error (.gone x) h

def setPrev (x y : α) : Program α static Unit := fun h =>
  if h.there x then .ok () { h with links := h.links.setPrev x y } else .error (.gone x) h

def free (x : α) : Program α static Unit := fun h =>
  if h.allocated x then
    .ok () { h with allocated := Function.update h.allocated x false, freed := x :: h.freed }
  else .error (.gone x) h

/-- `body` at each node from `pos` on, until the walk is back at `head`. The next node is
read when the body is done. -/
def walk (head : α) (body : σ → α → Program α static σ) : Nat → α → σ → Program α static σ
  | 0, _, _ => fun h => .error .endless h
  | fuel + 1, pos, s =>
    if pos = head then pure s
    else do
      let s ← body s pos
      let pos ← next pos
      walk head body fuel pos s

/-- `h` is `h₀` after its nodes `xs` have been freed, in this order. -/
structure Freed (h₀ : NodeHeap α static) (xs : List α) (h : NodeHeap α static) : Prop where
  links : h.links = h₀.links
  freed : h.freed = xs.reverse ++ h₀.freed
  allocated : ∀ x, h.allocated x = (h₀.allocated x && decide (x ∉ xs))

@[simp] theorem setNext_ok {h : NodeHeap α static} {x : α} (hx : h.there x = true) (y : α) :
    setNext x y h = .ok () { h with links := h.links.setNext x y } := by
  simp [setNext, hx]

@[simp] theorem setPrev_ok {h : NodeHeap α static} {x : α} (hx : h.there x = true) (y : α) :
    setPrev x y h = .ok () { h with links := h.links.setPrev x y } := by
  simp [setPrev, hx]

theorem free_of_allocated {h : NodeHeap α static} {x : α} (hx : h.allocated x = true) :
    free x h = .ok ()
      { h with allocated := Function.update h.allocated x false, freed := x :: h.freed } := by
  simp [free, hx]

section Frees

variable {h₀ h : NodeHeap α static} {xs : List α} {x : α}

theorem Freed.refl (h : NodeHeap α static) : Freed h [] h := ⟨rfl, rfl, by simp⟩

theorem Freed.there (hf : Freed h₀ xs h) (hx : x ∉ xs) : h.there x = h₀.there x := by
  simp [NodeHeap.there, hf.allocated, hx]

theorem Freed.free (hf : Freed h₀ xs h) (hx : x ∉ xs) (ha : h₀.allocated x = true) :
    ∃ h', free x h = .ok () h' ∧ Freed h₀ (xs ++ [x]) h' := by
  have hax : h.allocated x = true := by simp [hf.allocated, ha, hx]
  refine ⟨_, free_of_allocated hax, hf.links, ?_, fun y => ?_⟩
  · simp [hf.freed]
  · by_cases hy : y = x
    · simp [hy]
    · simp [hy, hf.allocated]

end Frees

section Walk

variable {head : α} {body : σ → α → Program α static σ} {l : Links α} {xs : List α}
  {I : List α → σ → NodeHeap α static → Prop}

/-- The rule for a walk. The invariant `I` speaks of the nodes that are done; the body
keeps it and leaves its own node there, for the step to the next one. -/
theorem walk_rule (hlinks : ∀ done s h, I done s h → h.links = l)
    (hbody : ∀ done x rest s h, xs = done ++ x :: rest → I done s h →
      ∃ s' h', body s x h = .ok s' h' ∧ I (done ++ [x]) s' h' ∧ h'.there x = true)
    {done rest : List α} {a : α} {s : σ} {h : NodeHeap α static} {fuel : Nat}
    (hxs : xs = done ++ rest) (hpath : l.Path a rest head) (hhead : head ∉ rest)
    (hfuel : rest.length < fuel) (hI : I done s h) :
    ∃ s' h', walk head body fuel (l.next a) s h = .ok s' h' ∧ I xs s' h' := by
  induction rest generalizing done a s h fuel with
  | nil =>
    obtain ⟨n, rfl⟩ := Nat.exists_eq_succ_of_ne_zero (Nat.ne_zero_of_lt hfuel)
    rw [walk, if_pos hpath.1, hxs, List.append_nil]
    exact ⟨s, h, rfl, hI⟩
  | cons x rest ih =>
    obtain ⟨n, rfl⟩ := Nat.exists_eq_succ_of_ne_zero (Nat.ne_zero_of_lt hfuel)
    obtain ⟨⟨hnext, -⟩, hpath⟩ := hpath
    have hx : x ≠ head := fun he => hhead (he ▸ List.mem_cons_self)
    obtain ⟨s', h', hb, hI', hthere⟩ := hbody done x rest s h hxs hI
    rw [walk, hnext, if_neg hx, bind_ok hb, bind_ok (next_ok hthere), hlinks _ _ _ hI']
    exact ih (by rw [hxs, List.append_assoc, List.singleton_append]) hpath
      (fun hmem => hhead (List.mem_cons_of_mem x hmem)) (Nat.lt_of_succ_lt_succ hfuel) hI'

end Walk

end NodeHeap
