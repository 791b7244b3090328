import Mathlib.Data.List.Nodup
import Mathlib.Logic.Function.Basic

/-! Circular doubly linked lists. The nodes are of any type, and two total functions
are the memory of their links. -/

structure Links (α : Type) where
  next : α → α
  prev : α → α

namespace Links

variable {α : Type}

/-- From `a` along `xs` to `b`, every link in both directions. -/
def Path (l : Links α) : α → List α → α → Prop
  | a, [], b => l.next a = b ∧ l.prev b = a
  | a, x :: xs, b => (l.next a = x ∧ l.prev x = a) ∧ Path l x xs b

/-- The nodes `xs`, between `head` and `head`. -/
structure Ring (l : Links α) (head : α) (xs : List α) : Prop where
  path : l.Path head xs head
  nodup : (head :: xs).Nodup

theorem path_append {l : Links α} {xs ys : List α} {a y b : α} :
    l.Path a (xs ++ y :: ys) b ↔ l.Path a xs y ∧ l.Path y ys b := by
  induction xs generalizing a with
  | nil => exact Iff.rfl
  | cons x xs ih => rw [List.cons_append, Path, Path, ih, and_assoc, and_assoc, and_assoc]

theorem Path.frame {l l' : Links α} {xs : List α} {a b : α} (h : l.Path a xs b)
    (hnext : ∀ x ∈ a :: xs, l'.next x = l.next x) (hprev : ∀ y ∈ b :: xs, l'.prev y = l.prev y) :
    l'.Path a xs b := by
  induction xs generalizing a with
  | nil =>
    obtain ⟨hab, hba⟩ := h
    exact ⟨(hnext a List.mem_cons_self).trans hab, (hprev b List.mem_cons_self).trans hba⟩
  | cons x xs ih =>
    obtain ⟨⟨hax, hxa⟩, hrest⟩ := h
    have hx : x ∈ b :: x :: xs := List.mem_cons_of_mem b List.mem_cons_self
    refine ⟨⟨(hnext a List.mem_cons_self).trans hax, (hprev x hx).trans hxa⟩, ?_⟩
    refine ih hrest (fun y hy => hnext y (List.mem_cons_of_mem a hy)) fun y hy => hprev y ?_
    rcases List.mem_cons.mp hy with rfl | hy
    · exact List.mem_cons_self
    · exact List.mem_cons_of_mem b (List.mem_cons_of_mem x hy)

variable [DecidableEq α]

def setNext (l : Links α) (a b : α) : Links α := { l with next := Function.update l.next a b }

def setPrev (l : Links α) (a b : α) : Links α := { l with prev := Function.update l.prev a b }

@[simp] theorem setNext_prev (l : Links α) (a b : α) : (l.setNext a b).prev = l.prev := rfl

@[simp] theorem setPrev_next (l : Links α) (a b : α) : (l.setPrev a b).next = l.next := rfl

@[simp] theorem setNext_next (l : Links α) (a b x : α) :
    (l.setNext a b).next x = if x = a then b else l.next x :=
  Function.update_apply l.next a b x

@[simp] theorem setPrev_prev (l : Links α) (a b x : α) :
    (l.setPrev a b).prev x = if x = a then b else l.prev x :=
  Function.update_apply l.prev a b x

def init (l : Links α) (head : α) : Links α := (l.setNext head head).setPrev head head

def insert (l : Links α) (new prev next : α) : Links α :=
  (((l.setPrev next new).setNext new next).setPrev new prev).setNext prev new

def insertLast (l : Links α) (new head : α) : Links α := l.insert new (l.prev head) head

/-- The neighbours of a node that leaves the ring. -/
def bridge (l : Links α) (prev next : α) : Links α := (l.setPrev next prev).setNext prev next

/-- A node leaves, and its own links go to `p` and `q`. -/
def remove (l : Links α) (x p q : α) : Links α :=
  ((l.bridge (l.prev x) (l.next x)).setNext x p).setPrev x q

theorem Ring.init (l : Links α) (head : α) : (l.init head).Ring head [] where
  path := by simp [Links.init, Path]
  nodup := List.nodup_singleton head

theorem Ring.insertLast {l : Links α} {head new : α} {xs : List α} (h : l.Ring head xs)
    (hnew : new ∉ head :: xs) : (l.insertLast new head).Ring head (xs ++ [new]) := by
  obtain ⟨hpath, hnodup⟩ := h
  have hne : new ≠ head := fun heq => hnew (heq ▸ List.mem_cons_self)
  refine ⟨?_, ?_⟩
  · rcases List.eq_nil_or_concat xs with rfl | ⟨ys, z, rfl⟩
    · obtain ⟨hnext, hprev⟩ := hpath
      simp [Links.insertLast, insert, Path, hprev, hne, hne.symm]
    · rw [List.concat_eq_append] at hpath hnodup hnew ⊢
      obtain ⟨hys, hz⟩ := path_append.mp hpath
      have hlast : l.prev head = z := hz.2
      have hzn : new ≠ z := by
        rintro rfl
        simp at hnew
      have hzh : head ≠ z := by
        rintro rfl
        simp at hnodup
      rw [List.append_assoc, List.singleton_append, path_append]
      refine ⟨hys.frame (fun x hx => ?_) (fun y hy => ?_), ?_⟩
      · have hxz : x ≠ z := by
          rintro rfl
          rw [← List.cons_append] at hnodup
          exact List.disjoint_of_nodup_append hnodup hx List.mem_cons_self
        have hxn : x ≠ new := by
          rintro rfl
          exact hnew (List.mem_append_left [z] hx)
        simp [Links.insertLast, insert, hlast, hxz, hxn]
      · have hyz : y ∈ ys ++ [z] := by
          rw [List.mem_append, List.mem_singleton, or_comm]
          exact List.mem_cons.mp hy
        have hyh : y ≠ head := by
          rintro rfl
          exact (List.nodup_cons.mp hnodup).1 hyz
        have hyn : y ≠ new := by
          rintro rfl
          exact hnew (List.mem_cons_of_mem head hyz)
        simp [Links.insertLast, insert, hyh, hyn]
      · simp [Links.insertLast, insert, Path, hlast, hne.symm, hzn]
  · rw [← List.cons_append]
    refine List.nodup_append.mpr ⟨hnodup, List.nodup_singleton new, ?_⟩
    rintro x hx y hy rfl
    exact hnew (List.mem_singleton.mp hy ▸ hx)

end Links
