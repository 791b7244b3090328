import Mathlib.Data.Nat.ModEq
import Mathlib.Logic.Function.Basic

/-! Memory that wraps. A queue lives in `size` cells between two positions that only grow;
a cell is found modulo `size`. -/

namespace RingBuffer

variable {α : Type} {cells : Nat → α} {size : Nat}

/-- The contents of the `n` cells from position `p` on. -/
def window (cells : Nat → α) (size p : Nat) : Nat → List α
  | 0 => []
  | n + 1 => cells (p % size) :: window cells size (p + 1) n

/-- Store `xs` from position `p` on, one cell after the other. -/
def put (cells : Nat → α) (size p : Nat) : List α → Nat → α
  | [] => cells
  | x :: xs => put (Function.update cells (p % size) x) size (p + 1) xs

@[simp] theorem length_window (cells : Nat → α) (size p n : Nat) :
    (window cells size p n).length = n := by
  induction n generalizing p with
  | zero => rfl
  | succ n ih => simp [window, ih]

theorem window_add (cells : Nat → α) (size p m n : Nat) :
    window cells size p (m + n) = window cells size p m ++ window cells size (p + m) n := by
  induction m generalizing p with
  | zero => simp [window]
  | succ m ih =>
    rw [Nat.succ_add, window, window, ih, List.cons_append, Nat.add_right_comm, Nat.add_assoc]

theorem getElem?_window {p n i : Nat} (hi : i < n) :
    (window cells size p n)[i]? = some (cells ((p + i) % size)) := by
  induction n generalizing p i with
  | zero => omega
  | succ n ih =>
    cases i with
    | zero => rfl
    | succ i =>
      rw [window, List.getElem?_cons_succ, ih (by omega)]
      congr 3
      omega

theorem window_congr {p q : Nat} (h : p ≡ q [MOD size]) (n : Nat) :
    window cells size p n = window cells size q n := by
  induction n generalizing p q with
  | zero => rfl
  | succ n ih => rw [window, window, ih (h.add_right 1), h]

theorem take_window (cells : Nat → α) (size p : Nat) {m n : Nat} (h : m ≤ n) :
    (window cells size p n).take m = window cells size p m := by
  obtain ⟨k, rfl⟩ := Nat.exists_eq_add_of_le h
  rw [window_add, List.take_left' (length_window ..)]

theorem drop_window (cells : Nat → α) (size p : Nat) {m n : Nat} (h : m ≤ n) :
    (window cells size p n).drop m = window cells size (p + m) (n - m) := by
  obtain ⟨k, rfl⟩ := Nat.exists_eq_add_of_le h
  rw [window_add, List.drop_left' (length_window ..), Nat.add_sub_cancel_left]

/-- Positions less than a round apart are different cells. -/
theorem mod_ne {p q : Nat} (hlt : p < q) (h : q < p + size) : p % size ≠ q % size := by
  intro he
  have hd : size ∣ q - p := Nat.dvd_of_mod_eq_zero (Nat.sub_mod_eq_zero_of_mod_eq he.symm)
  have h0 := Nat.eq_zero_of_dvd_of_lt hd (by omega)
  omega

theorem window_update {p q n : Nat} (x : α) (hle : p + n ≤ q) (h : q < p + size) :
    window (Function.update cells (q % size) x) size p n = window cells size p n := by
  induction n generalizing p with
  | zero => rfl
  | succ n ih =>
    rw [window, window, ih (by omega) (by omega),
      Function.update_of_ne (mod_ne (by omega) (by omega))]

/-- What is stored behind a window does not reach it, as long as both fit in the cells. -/
theorem window_put {p q n : Nat} {xs : List α} (hle : p + n ≤ q) (h : q + xs.length ≤ p + size) :
    window (put cells size q xs) size p n = window cells size p n := by
  induction xs generalizing cells q with
  | nil => rfl
  | cons x xs ih =>
    rw [List.length_cons] at h
    rw [put, ih (by omega) (by omega), window_update x hle (by omega)]

theorem window_put_self {p : Nat} {xs : List α} (h : xs.length ≤ size) :
    window (put cells size p xs) size p xs.length = xs := by
  induction xs generalizing cells p with
  | nil => rfl
  | cons x xs ih =>
    rw [List.length_cons] at h ⊢
    have hx : window (put (Function.update cells (p % size) x) size (p + 1) xs) size p 1 = _ :=
      window_put (Nat.le_refl (p + 1)) (by omega)
    rw [window, window, window, window, Function.update_self] at hx
    rw [put, window, ih (by omega)]
    exact congrArg (· ++ xs) hx

/-- A queue of `n` cells grows at its end. -/
theorem window_put_append {p n : Nat} {xs : List α} (h : n + xs.length ≤ size) :
    window (put cells size (p + n) xs) size p (n + xs.length) = window cells size p n ++ xs := by
  have hkeep : window (put cells size (p + n) xs) size p n = _ :=
    window_put (Nat.le_refl (p + n)) (by omega)
  rw [window_add, hkeep, window_put_self (by omega)]

theorem put_congr {p q : Nat} (h : p ≡ q [MOD size]) (xs : List α) :
    put cells size p xs = put cells size q xs := by
  induction xs generalizing cells p q with
  | nil => rfl
  | cons x xs ih => rw [put, put, ih (h.add_right 1), h]

end RingBuffer
