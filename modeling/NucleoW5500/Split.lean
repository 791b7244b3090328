import Mathlib.Data.List.Infix

/-! Lists cut at a delimiter of any length, from the left and without overlaps. A field comes with
its offset. -/

namespace Split

variable {α : Type} [DecidableEq α]

/-- The offset of the first occurrence of `del`. -/
def find (del : List α) : List α → Option ℕ
  | [] => if del.isPrefixOf [] then some 0 else none
  | x :: s => if del.isPrefixOf (x :: s) then some 0 else (find del s).map (· + 1)

theorem find_eq_some {del s : List α} {k : ℕ} (h : find del s = some k) :
    del <+: s.drop k ∧ ∀ j < k, ¬ del <+: s.drop j := by
  induction s generalizing k with
  | nil =>
    rw [find] at h
    split at h
    · cases h
      exact ⟨List.isPrefixOf_iff_prefix.mp ‹_›, fun j hj => absurd hj j.not_lt_zero⟩
    · cases h
  | cons x s ih =>
    rw [find] at h
    split at h
    · cases h
      exact ⟨List.isPrefixOf_iff_prefix.mp ‹_›, fun j hj => absurd hj j.not_lt_zero⟩
    · rename_i hx
      obtain ⟨i, hi, rfl⟩ := Option.map_eq_some_iff.mp h
      obtain ⟨hat, hbefore⟩ := ih hi
      refine ⟨hat, fun j hj => ?_⟩
      cases j with
      | zero => exact fun hpre => hx (List.isPrefixOf_iff_prefix.mpr hpre)
      | succ j => exact hbefore j (by omega)

theorem find_eq_none {del s : List α} (h : find del s = none) (j : ℕ) : ¬ del <+: s.drop j := by
  induction s generalizing j with
  | nil =>
    rw [find] at h
    split at h
    · cases h
    · rename_i hnil
      rw [List.drop_nil]
      exact fun hpre => hnil (List.isPrefixOf_iff_prefix.mpr hpre)
  | cons x s ih =>
    rw [find] at h
    split at h
    · cases h
    · rename_i hx
      cases j with
      | zero => exact fun hpre => hx (List.isPrefixOf_iff_prefix.mpr hpre)
      | succ j => exact ih (Option.map_eq_none_iff.mp h) j

theorem find_add_length_le {del s : List α} {k : ℕ} (hdel : del ≠ []) (h : find del s = some k) :
    k + del.length ≤ s.length := by
  have hlen := (find_eq_some h).1.length_le
  have hpos := List.length_pos_of_ne_nil hdel
  rw [List.length_drop] at hlen
  omega

/-- The fields of a text that starts at `offset`. -/
def fields (del : List α) (offset : ℕ) (s : List α) : List (ℕ × List α) :=
  match _hfind : find del s with
  | none => [(offset, s)]
  | some k =>
    if _hdel : del = [] then [(offset, s)]
    else (offset, s.take k) :: fields del (offset + (k + del.length)) (s.drop (k + del.length))
termination_by s.length
decreasing_by
  have hle := find_add_length_le _hdel _hfind
  have hpos := List.length_pos_of_ne_nil _hdel
  rw [List.length_drop]
  omega

theorem fields_none {del s : List α} (h : find del s = none) (offset : ℕ) :
    fields del offset s = [(offset, s)] := by
  rw [fields]
  split
  · rfl
  · rename_i hfind
    rw [h] at hfind
    cases hfind

theorem fields_some {del s : List α} {k : ℕ} (hdel : del ≠ []) (h : find del s = some k)
    (offset : ℕ) : fields del offset s =
      (offset, s.take k) :: fields del (offset + (k + del.length)) (s.drop (k + del.length)) := by
  rw [fields]
  split
  · rename_i hfind
    rw [h] at hfind
    cases hfind
  · rename_i i hfind
    rw [h] at hfind
    cases hfind
    rw [dif_neg hdel]

theorem fields_ne_nil (del s : List α) (offset : ℕ) : fields del offset s ≠ [] := by
  rw [fields]
  split
  · exact List.cons_ne_nil _ _
  · split <;> exact List.cons_ne_nil _ _

/-- The pieces of `text` from `offset` on: `del` is cut out where it first occurs, and what comes
after it is cut in the same way. -/
inductive Cut (del text : List α) : ℕ → List (ℕ × List α) → Prop
  | last {offset : ℕ} (none : ∀ j, ¬ del <+: text.drop (offset + j)) :
      Cut del text offset [(offset, text.drop offset)]
  | more {offset k : ℕ} {pieces : List (ℕ × List α)} (occurs : del <+: text.drop (offset + k))
      (first : ∀ j < k, ¬ del <+: text.drop (offset + j))
      (rest : Cut del text (offset + (k + del.length)) pieces) :
      Cut del text offset ((offset, (text.drop offset).take k) :: pieces)

theorem fields_cut {del text : List α} (hdel : del ≠ []) {offset : ℕ} (ho : offset ≤ text.length) :
    Cut del text offset (fields del offset (text.drop offset)) := by
  generalize hn : text.length - offset = n
  induction n using Nat.strongRecOn generalizing offset with
  | ind n ih =>
    cases hfind : find del (text.drop offset) with
    | none =>
      rw [fields_none hfind]
      apply Cut.last
      intro j
      rw [← List.drop_drop]
      exact find_eq_none hfind j
    | some k =>
      have hle := find_add_length_le hdel hfind
      have hpos := List.length_pos_of_ne_nil hdel
      obtain ⟨hoccurs, hfirst⟩ := find_eq_some hfind
      rw [List.length_drop] at hle
      rw [fields_some hdel hfind, List.drop_drop]
      apply Cut.more
      · rwa [← List.drop_drop]
      · intro j hj
        rw [← List.drop_drop]
        exact hfirst j hj
      · exact ih _ (by omega) (by omega) rfl

omit [DecidableEq α] in
theorem Cut.piece {del text : List α} {offset n : ℕ} {pieces : List (ℕ × List α)}
    (hcut : Cut del text offset pieces) (hdel : del ≠ []) (ho : offset ≤ text.length)
    {piece : ℕ × List α} (h : pieces[n]? = some piece) :
    piece.1 ≤ text.length ∧ piece.2 = (text.drop piece.1).take piece.2.length ∧
      (n + 1 = pieces.length → piece.2 = text.drop piece.1) := by
  induction hcut generalizing n with
  | last none =>
    cases n with
    | zero =>
      cases h
      exact ⟨ho, List.take_length.symm, fun _ => rfl⟩
    | succ n => cases h
  | more occurs first rest ih =>
    have hlen := occurs.length_le
    have hpos := List.length_pos_of_ne_nil hdel
    rw [List.length_drop] at hlen
    cases n with
    | zero =>
      cases h
      refine ⟨ho, ?_, fun hlast => ?_⟩
      · rw [List.length_take, List.length_drop, Nat.min_eq_left (by omega)]
      · cases rest with
        | last => cases hlast
        | more => cases hlast
    | succ n =>
      rw [List.length_cons, Nat.add_right_cancel_iff]
      exact ih (by omega) h

end Split
