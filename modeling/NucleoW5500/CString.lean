import Mathlib.Data.List.TakeWhile
import Mathlib.Tactic.IntervalCases

/-! Bytes in memory as the C library sees them: a memory is the list of bytes
from some address on, and every byte past the end of the list is zero. -/

namespace CString

def peek (mem : List UInt8) (i : Nat) : UInt8 := mem.getD i 0

/-- `n` bytes from offset `i`, the source side of a `memcpy`. -/
def read (mem : List UInt8) (i n : Nat) : List UInt8 :=
  (List.range n).map fun k => peek mem (i + k)

/-- The target side of a `memcpy`. -/
def overwrite (mem : List UInt8) (i : Nat) (bs : List UInt8) : List UInt8 :=
  read mem 0 i ++ bs ++ mem.drop (i + bs.length)

def memchr (mem : List UInt8) (c : UInt8) : Nat → Nat → Option Nat
  | _, 0 => none
  | i, n + 1 => if peek mem i = c then some i else memchr mem c (i + 1) n

/-- The characters of the string at offset `i`, without its terminator. -/
def cstr (mem : List UInt8) (i : Nat) : List UInt8 :=
  (mem.drop i).takeWhile (· != 0)

def strlen (mem : List UInt8) (i : Nat) : Nat := (cstr mem i).length

def isSpace (c : UInt8) : Bool := c = 32 || (9 ≤ c && c ≤ 13)

def isDigit (c : UInt8) : Bool := 48 ≤ c && c ≤ 57

def digitsValue (l : List UInt8) : Nat := l.foldl (fun v c => 10 * v + (c.toNat - 48)) 0

/-- `strtol` in base 10, before the result is fitted into a `long`. -/
def numeral (text : List UInt8) : Int :=
  let text := text.dropWhile isSpace
  if text.head? = some 45 then -(digitsValue (text.tail.takeWhile isDigit) : Int)
  else if text.head? = some 43 then digitsValue (text.tail.takeWhile isDigit)
  else digitsValue (text.takeWhile isDigit)

/-- The number of characters `strtol` takes before the one that ends the numeral. -/
def numeralStop (text : List UInt8) : Nat :=
  let spaces := (text.takeWhile isSpace).length
  let text := text.dropWhile isSpace
  let sign := if text.head? = some 45 ∨ text.head? = some 43 then 1 else 0
  spaces + sign + ((text.drop sign).takeWhile isDigit).length

/-- One past the last byte `memchr` reads. -/
def memchrEnd (mem : List UInt8) (c : UInt8) (i n : Nat) : Nat :=
  match memchr mem c i n with
  | some k => k + 1
  | none => i + n

/-- `atoi` is `strtol`, which saturates at the ends of the 32-bit `long`. -/
def atoi (mem : List UInt8) (i : Nat) : Int :=
  max (-2 ^ 31) (min (2 ^ 31 - 1) (numeral (mem.drop i)))

def decimal (n : Nat) : List UInt8 := (Nat.toDigits 10 n).map fun c => UInt8.ofNat c.toNat

/-- A little-endian 16-bit value. -/
def decode16 (mem : List UInt8) (i : Nat) : UInt16 :=
  UInt16.ofNat ((peek mem i).toNat + 256 * (peek mem (i + 1)).toNat)

def encode16 (v : UInt16) : List UInt8 :=
  [UInt8.ofNat (v.toNat % 256), UInt8.ofNat (v.toNat / 256)]

theorem peek_append_left {a : List UInt8} (b : List UInt8) {i : Nat} (h : i < a.length) :
    peek (a ++ b) i = peek a i := by
  simp [peek, List.getD_eq_getElem?_getD, List.getElem?_append_left h]

theorem peek_append_right {a : List UInt8} (b : List UInt8) {i : Nat} (h : a.length ≤ i) :
    peek (a ++ b) i = peek b (i - a.length) := by
  simp [peek, List.getD_eq_getElem?_getD, List.getElem?_append_right h]

@[simp] theorem peek_append_add (a b : List UInt8) (k : Nat) :
    peek (a ++ b) (a.length + k) = peek b k := by
  rw [peek_append_right b (by omega), Nat.add_sub_cancel_left]

@[simp] theorem peek_append_length (a b : List UInt8) : peek (a ++ b) a.length = peek b 0 :=
  peek_append_add a b 0

@[simp] theorem peek_cons_zero (c : UInt8) (l : List UInt8) : peek (c :: l) 0 = c := rfl

@[simp] theorem peek_cons_succ (c : UInt8) (l : List UInt8) (i : Nat) :
    peek (c :: l) (i + 1) = peek l i := rfl

@[simp] theorem length_read (mem : List UInt8) (i n : Nat) : (read mem i n).length = n := by
  simp [read]

theorem read_add (mem : List UInt8) (i n m : Nat) :
    read mem i (n + m) = read mem i n ++ read mem (i + n) m := by
  simp only [read, List.range_add, List.map_append, List.map_map]
  congr 2
  funext k
  simp [Nat.add_assoc]

theorem read_succ (mem : List UInt8) (i n : Nat) :
    read mem i (n + 1) = peek mem i :: read mem (i + 1) n := by
  rw [Nat.add_comm n 1, read_add]
  simp [read]

theorem read_cons_succ (c : UInt8) (l : List UInt8) (i n : Nat) :
    read (c :: l) (i + 1) n = read l i n := by
  rw [read, read]
  congr 1
  funext k
  rw [Nat.add_right_comm, peek_cons_succ]

theorem read_eq_take {mem : List UInt8} {i n : Nat} (h : i + n ≤ mem.length) :
    read mem i n = (mem.drop i).take n := by
  apply List.ext_getElem
  · simp only [length_read, List.length_take, List.length_drop]
    omega
  · intro k hk _
    have hk' : i + k < mem.length := by simp only [length_read] at hk; omega
    simp [read, peek, hk']

theorem read_append_left (bs rest : List UInt8) : read (bs ++ rest) 0 bs.length = bs := by
  rw [read_eq_take (by simp)]
  simp

theorem read_middle (a bs rest : List UInt8) :
    read (a ++ (bs ++ rest)) a.length bs.length = bs := by
  rw [read_eq_take (by simp)]
  simp

theorem length_overwrite {mem bs : List UInt8} {i : Nat} (h : i + bs.length ≤ mem.length) :
    (overwrite mem i bs).length = mem.length := by
  simp only [overwrite, List.length_append, length_read, List.length_drop]
  omega

theorem overwrite_at_length (a bs : List UInt8) (rest : List UInt8) :
    overwrite (a ++ rest) a.length bs = a ++ bs ++ rest.drop bs.length := by
  simp [overwrite, read_append_left, List.drop_append]

theorem overwrite_zero (mem bs : List UInt8) : overwrite mem 0 bs = bs ++ mem.drop bs.length := by
  simpa using overwrite_at_length [] bs mem

theorem read_overwrite_end (a rest bs : List UInt8) :
    read (overwrite (a ++ rest) a.length bs) 0 a.length = a := by
  rw [overwrite_at_length, List.append_assoc, read_append_left]

theorem memchr_eq_some {mem : List UInt8} {c : UInt8} {i n k : Nat} :
    memchr mem c i n = some k ↔
      i ≤ k ∧ k < i + n ∧ peek mem k = c ∧ ∀ j, i ≤ j → j < k → peek mem j ≠ c := by
  induction n generalizing i with
  | zero => simp [memchr]; omega
  | succ n ih =>
    by_cases hc : peek mem i = c
    · simp only [memchr, hc, if_true, Option.some.injEq]
      constructor
      · rintro rfl
        exact ⟨le_refl _, by omega, hc, fun j _ _ => by omega⟩
      · rintro ⟨hik, _, _, hno⟩
        by_contra hne
        exact hno i (le_refl _) (by omega) hc
    · simp only [memchr, hc, if_false, ih]
      constructor
      · rintro ⟨hik, hlt, hk, hno⟩
        refine ⟨by omega, by omega, hk, fun j hj hjk => ?_⟩
        rcases Nat.eq_or_lt_of_le hj with rfl | hj
        · exact hc
        · exact hno j hj hjk
      · rintro ⟨hik, hlt, hk, hno⟩
        have hne : i ≠ k := fun he => hc (he ▸ hk)
        exact ⟨by omega, by omega, hk, fun j hj hjk => hno j (by omega) hjk⟩

theorem memchr_eq_none {mem : List UInt8} {c : UInt8} {i n : Nat} :
    memchr mem c i n = none ↔ ∀ j, i ≤ j → j < i + n → peek mem j ≠ c := by
  induction n generalizing i with
  | zero => simp [memchr]; omega
  | succ n ih =>
    by_cases hc : peek mem i = c
    · simp only [memchr, hc, if_true, reduceCtorEq, false_iff, not_forall]
      exact ⟨i, le_refl _, by omega, fun h => h hc⟩
    · simp only [memchr, hc, if_false, ih]
      constructor
      · intro h j hj hlt
        rcases Nat.eq_or_lt_of_le hj with rfl | hj
        · exact hc
        · exact h j hj (by omega)
      · exact fun h j hj hlt => h j (by omega) (by omega)

theorem memchr_append {a s t : List UInt8} {c : UInt8} {n : Nat} (hs : c ∉ s)
    (hn : s.length < n) :
    memchr (a ++ (s ++ c :: t)) c a.length n = some (a.length + s.length) := by
  refine memchr_eq_some.mpr ⟨by omega, by omega, ?_, fun j hj hlt => ?_⟩
  · rw [peek_append_right _ (by omega), peek_append_right _ (by omega)]
    simp
  · rw [peek_append_right _ hj, peek_append_left _ (by omega)]
    intro he
    have hlt' : j - a.length < s.length := by omega
    simp only [peek, List.getD_eq_getElem?_getD, List.getElem?_eq_getElem hlt',
      Option.getD_some] at he
    exact hs (he ▸ List.getElem_mem hlt')

theorem memchr_append_eq_some {a l rest : List UInt8} {c : UInt8} {k : Nat} :
    memchr (a ++ (l ++ rest)) c a.length l.length = some k ↔
      ∃ s t, l = s ++ c :: t ∧ c ∉ s ∧ k = a.length + s.length := by
  constructor
  · intro h
    obtain ⟨hle, hlt, hk, hno⟩ := memchr_eq_some.mp h
    obtain ⟨i, rfl⟩ := Nat.exists_eq_add_of_le hle
    have hi : i < l.length := by omega
    have hpeek : ∀ j, j < l.length → peek (a ++ (l ++ rest)) (a.length + j) = peek l j := by
      intro j hj
      rw [peek_append_add, peek_append_left _ hj]
    have hget : ∀ j (hj : j < l.length), peek l j = l[j] := by
      intro j hj
      simp [peek, hj]
    refine ⟨l.take i, l.drop (i + 1), ?_, fun hmem => ?_, ?_⟩
    · rw [← hk, hpeek i hi, hget i hi, List.getElem_cons_drop, List.take_append_drop]
    · obtain ⟨j, hj, hc⟩ := List.getElem_of_mem hmem
      rw [List.length_take] at hj
      have hjl : j < l.length := by omega
      refine hno (a.length + j) (by omega) (by omega) ?_
      rw [hpeek j hjl, hget j hjl, ← hc, List.getElem_take]
    · rw [List.length_take]
      omega
  · rintro ⟨s, t, rfl, hs, rfl⟩
    rw [List.append_assoc]
    exact memchr_append hs (by simp)

theorem memchr_append_eq_none {a l rest : List UInt8} {c : UInt8} :
    memchr (a ++ (l ++ rest)) c a.length l.length = none ↔ c ∉ l := by
  rw [Option.eq_none_iff_forall_ne_some]
  constructor
  · intro h hmem
    obtain ⟨s, t, hl, hs⟩ := List.eq_append_cons_of_mem hmem
    exact h _ (memchr_append_eq_some.mpr ⟨s, t, hl, hs, rfl⟩)
  · intro hc k hk
    obtain ⟨s, t, rfl, -, -⟩ := memchr_append_eq_some.mp hk
    exact hc (by simp)

theorem memchr_within {a l rest : List UInt8} {c : UInt8} {n : Nat} (hn : n ≤ l.length)
    (hc : c ∉ l) : memchr (a ++ (l ++ rest)) c a.length n = none := by
  refine memchr_eq_none.mpr fun j hj hlt => ?_
  obtain ⟨i, rfl⟩ := Nat.exists_eq_add_of_le hj
  have hi : i < l.length := by omega
  rw [peek_append_add, peek_append_left _ hi]
  intro he
  simp only [peek, List.getD_eq_getElem?_getD, List.getElem?_eq_getElem hi, Option.getD_some] at he
  exact hc (he ▸ List.getElem_mem hi)

theorem memchr_append_inside {a l rest : List UInt8} {c : UInt8} {n k : Nat}
    (h : memchr (a ++ (l ++ rest)) c a.length n = some k) (hk : k < a.length + l.length) :
    ∃ s t, l = s ++ c :: t ∧ c ∉ s ∧ k = a.length + s.length := by
  obtain ⟨h₁, -, h₃, h₄⟩ := memchr_eq_some.mp h
  exact memchr_append_eq_some.mp (memchr_eq_some.mpr ⟨h₁, hk, h₃, h₄⟩)

theorem memchrEnd_le_iff {a l rest : List UInt8} {c : UInt8} {n : Nat} :
    memchrEnd (a ++ (l ++ rest)) c a.length n ≤ a.length + l.length ↔ n ≤ l.length ∨ c ∈ l := by
  by_cases hc : c ∈ l
  · obtain ⟨s, t, rfl, hs⟩ := List.eq_append_cons_of_mem hc
    have hcut : a ++ ((s ++ c :: t) ++ rest) = a ++ (s ++ c :: (t ++ rest)) := by simp
    simp only [hc, or_true, iff_true, List.length_append, List.length_cons]
    rw [hcut, memchrEnd]
    by_cases hn : s.length < n
    · rw [memchr_append hs hn]
      dsimp only
      omega
    · rw [memchr_within (Nat.le_of_not_lt hn) hs]
      dsimp only
      omega
  · simp only [hc, or_false]
    by_cases hn : n ≤ l.length
    · rw [memchrEnd, memchr_within hn hc]
      simp only [hn, iff_true]
      omega
    · simp only [hn, iff_false]
      rw [memchrEnd]
      cases hk : memchr (a ++ (l ++ rest)) c a.length n with
      | none =>
        dsimp only
        omega
      | some k =>
        dsimp only
        intro hle
        obtain ⟨s, t, rfl, -, -⟩ := memchr_append_inside hk (by omega)
        exact hc (by simp)

theorem cstr_append {a s t : List UInt8} (hs : (0 : UInt8) ∉ s) :
    cstr (a ++ (s ++ 0 :: t)) a.length = s := by
  have hp : ∀ c ∈ s, (c != 0) = true := by
    intro c hc
    have hne : c ≠ 0 := fun he => hs (he ▸ hc)
    simpa using hne
  rw [cstr, List.drop_left, List.takeWhile_append_of_pos hp, List.takeWhile_cons_of_neg (by simp),
    List.append_nil]

theorem read_strlen (mem : List UInt8) (i : Nat) : read mem i (strlen mem i) = cstr mem i := by
  have hp : cstr mem i <+: mem.drop i := List.takeWhile_prefix _
  have hle : strlen mem i ≤ mem.length - i := by
    simpa [strlen] using hp.length_le
  by_cases hi : i ≤ mem.length
  · rw [read_eq_take (by omega)]
    exact (List.prefix_iff_eq_take.mp hp).symm
  · have hd : mem.drop i = [] := List.drop_eq_nil_of_le (by omega)
    simp [strlen, cstr, hd, read]

theorem zero_notMem_cstr (mem : List UInt8) (i : Nat) : (0 : UInt8) ∉ cstr mem i := by
  intro h
  simpa using List.mem_takeWhile_imp h

theorem strlen_append {a s t : List UInt8} (hs : (0 : UInt8) ∉ s) :
    strlen (a ++ (s ++ 0 :: t)) a.length = s.length := by
  rw [strlen, cstr_append hs]

theorem takeWhile_append_stop {p : UInt8 → Bool} {x : UInt8} (hx : p x = false)
    (s t : List UInt8) : (s ++ x :: t).takeWhile p = s.takeWhile p := by
  induction s with
  | nil => rw [List.nil_append, List.takeWhile_cons_of_neg (by simp [hx]), List.takeWhile_nil]
  | cons c s ih => rw [List.cons_append, List.takeWhile_cons, List.takeWhile_cons, ih]

theorem dropWhile_append_stop {p : UInt8 → Bool} {x : UInt8} (hx : p x = false)
    (s t : List UInt8) : (s ++ x :: t).dropWhile p = s.dropWhile p ++ x :: t := by
  induction s with
  | nil => rw [List.nil_append, List.dropWhile_cons_of_neg (by simp [hx]), List.dropWhile_nil,
      List.nil_append]
  | cons c s ih =>
    rw [List.cons_append, List.dropWhile_cons, List.dropWhile_cons]
    split_ifs
    · exact ih
    · rfl

theorem numeral_append_zero (s t : List UInt8) :
    numeral (s ++ 0 :: t) = numeral s ∧ numeralStop (s ++ 0 :: t) = numeralStop s := by
  have hdigits := @takeWhile_append_stop isDigit 0 rfl
  rw [numeral, numeral, numeralStop, numeralStop, @dropWhile_append_stop isSpace 0 rfl,
    @takeWhile_append_stop isSpace 0 rfl]
  cases s.dropWhile isSpace with
  | nil => exact ⟨rfl, rfl⟩
  | cons c l =>
    have hc := hdigits (c :: l) t
    rw [List.cons_append] at hc
    simp only [List.cons_append, List.head?_cons, List.tail_cons, Option.some.injEq, hdigits, hc,
      true_and]
    split_ifs
    · simp only [List.drop_succ_cons, List.drop_zero, hdigits]
    · rw [List.drop_zero, List.drop_zero, hc]

theorem atoi_append (a s t : List UInt8) : atoi (a ++ (s ++ 0 :: t)) a.length = atoi s 0 := by
  rw [atoi, atoi, List.drop_left, (numeral_append_zero s t).1]
  rfl

theorem eq_of_append_zero {a b s t : List UInt8} (ha : (0 : UInt8) ∉ a) (hb : (0 : UInt8) ∉ b)
    (h : a ++ 0 :: s = b ++ 0 :: t) : a = b ∧ s = t := by
  have hab : cstr (a ++ 0 :: s) 0 = cstr (b ++ 0 :: t) 0 := by rw [h]
  have hca := @cstr_append [] a s ha
  have hcb := @cstr_append [] b t hb
  simp only [List.nil_append, List.length_nil] at hca hcb
  obtain rfl : a = b := by rw [← hca, hab, hcb]
  exact ⟨rfl, (List.cons.inj (List.append_cancel_left h)).2⟩

theorem length_takeWhile_add (p : UInt8 → Bool) (l : List UInt8) :
    (l.takeWhile p).length + (l.dropWhile p).length = l.length := by
  rw [← List.length_append, List.takeWhile_append_dropWhile]

theorem numeralStop_le (s : List UInt8) : numeralStop s ≤ s.length := by
  have hs := length_takeWhile_add isSpace s
  rw [numeralStop]
  cases hr : s.dropWhile isSpace with
  | nil =>
    rw [hr] at hs
    simp at hs ⊢
    omega
  | cons c r =>
    rw [hr, List.length_cons] at hs
    split_ifs
    · have hd := length_takeWhile_add isDigit r
      simp only [List.drop_succ_cons, List.drop_zero]
      omega
    · have hd := length_takeWhile_add isDigit (c :: r)
      rw [List.length_cons] at hd
      rw [List.drop_zero]
      omega

theorem numeral_append {s : List UInt8} (h : numeralStop s < s.length) (t : List UInt8) :
    numeral (s ++ t) = numeral s ∧ numeralStop (s ++ t) = numeralStop s := by
  have hs := length_takeWhile_add isSpace s
  have hcut : ∀ l : List UInt8, (l.takeWhile isDigit).length < l.length →
      (l ++ t).takeWhile isDigit = l.takeWhile isDigit := by
    intro l hl
    rw [List.takeWhile_append, if_neg (Nat.ne_of_lt hl)]
  rw [numeralStop] at h
  rw [numeral, numeral, numeralStop, numeralStop]
  cases hr : s.dropWhile isSpace with
  | nil =>
    rw [hr] at h hs
    simp at h hs
    omega
  | cons c r =>
    rw [hr] at h hs
    have hspace : (s ++ t).takeWhile isSpace = s.takeWhile isSpace := by
      rw [List.takeWhile_append, if_neg]
      rw [List.length_cons] at hs
      omega
    have hdrop : (s ++ t).dropWhile isSpace = c :: (r ++ t) := by
      rw [List.dropWhile_append, hr]
      rfl
    rw [hspace, hdrop]
    simp only [List.head?_cons, List.tail_cons, Option.some.injEq] at h ⊢
    by_cases hsign : c = 45 ∨ c = 43
    · rw [if_pos hsign] at h ⊢
      have hd := hcut r (by
        simp only [List.drop_succ_cons, List.drop_zero, List.length_cons] at h hs
        omega)
      simp only [List.drop_succ_cons, List.drop_zero, hd, and_true]
      rcases hsign with rfl | rfl <;> rfl
    · rw [if_neg hsign] at h ⊢
      have hd := hcut (c :: r) (by
        rw [List.drop_zero] at h
        omega)
      rw [List.cons_append] at hd
      rw [not_or] at hsign
      simp only [List.drop_zero, hd, hsign.1, hsign.2, if_false, and_self]

theorem numeralStop_append_lt {s t : List UInt8} :
    numeralStop (s ++ t) < s.length ↔ numeralStop s < s.length := by
  constructor
  · intro h
    by_contra hge
    have hle := numeralStop_le s
    have hs := length_takeWhile_add isSpace s
    rw [numeralStop] at h hge hle
    cases hr : s.dropWhile isSpace with
    | nil =>
      rw [hr, List.length_nil, Nat.add_zero] at hs
      rw [List.takeWhile_append, if_pos hs, List.length_append] at h
      omega
    | cons c r =>
      have hspace : (s ++ t).takeWhile isSpace = s.takeWhile isSpace := by
        rw [List.takeWhile_append, if_neg]
        rw [hr, List.length_cons] at hs
        omega
      have hdrop : (s ++ t).dropWhile isSpace = c :: (r ++ t) := by
        rw [List.dropWhile_append, hr]
        rfl
      have hlong : ∀ l : List UInt8, (l.takeWhile isDigit).length = l.length →
          l.length ≤ ((l ++ t).takeWhile isDigit).length := by
        intro l hl
        rw [List.takeWhile_append, if_pos hl, List.length_append]
        omega
      rw [hspace, hdrop] at h
      rw [hr] at hge hle hs
      simp only [List.head?_cons, Option.some.injEq] at h hge hle
      by_cases hsign : c = 45 ∨ c = 43
      · rw [if_pos hsign] at h hge hle
        simp only [List.drop_succ_cons, List.drop_zero, List.length_cons] at h hge hle hs
        have hl := hlong r (by omega)
        omega
      · rw [if_neg hsign] at h hge hle
        rw [List.drop_zero] at h hge hle
        have hl := hlong (c :: r) (by omega)
        rw [List.cons_append] at hl
        omega
  · intro h
    rw [(numeral_append h t).2]
    exact h

theorem peek_append_zeros (l : List UInt8) (n j : Nat) :
    peek (l ++ List.replicate n 0) j = peek l j := by
  by_cases hj : j < l.length
  · exact peek_append_left _ hj
  · rw [peek_append_right _ (Nat.le_of_not_lt hj)]
    simp [peek, List.getD_eq_getElem?_getD, List.getElem?_replicate, Nat.le_of_not_lt hj]
    split_ifs <;> rfl

/-- Any bytes of the memory are a beginning of it with zeros behind. -/
theorem read_zeros (l : List UInt8) (i n : Nat) :
    ∃ t u, l.drop i ++ 0 :: t = read l i n ++ u := by
  refine ⟨List.replicate (i + n - (i - l.length)) 0,
    ((l ++ List.replicate (i + n + 1) 0).drop i).drop n, ?_⟩
  have hread : read l i n = ((l ++ List.replicate (i + n + 1) 0).drop i).take n := by
    rw [← read_eq_take (by rw [List.length_append, List.length_replicate]; omega), read, read]
    simp only [peek_append_zeros]
  have hn : i + n + 1 - (i - l.length) = (i + n - (i - l.length)) + 1 := by omega
  rw [hread, List.take_append_drop, List.drop_append, List.drop_replicate, hn,
    List.replicate_succ]

theorem atoi_congr {mem mem' : List UInt8} {i : Nat}
    (h : ∀ j < i + numeralStop (mem.drop i) + 1, peek mem j = peek mem' j) :
    atoi mem' i = atoi mem i := by
  have hread : read mem i (numeralStop (mem.drop i) + 1) =
      read mem' i (numeralStop (mem.drop i) + 1) := by
    apply List.map_congr_left
    intro j hj
    rw [List.mem_range] at hj
    exact h (i + j) (by omega)
  obtain ⟨t, u, hu⟩ := read_zeros mem i (numeralStop (mem.drop i) + 1)
  obtain ⟨t', u', hu'⟩ := read_zeros mem' i (numeralStop (mem.drop i) + 1)
  rw [← hread] at hu'
  have hmem := numeral_append_zero (mem.drop i) t
  have hlt : numeralStop (read mem i (numeralStop (mem.drop i) + 1)) <
      (read mem i (numeralStop (mem.drop i) + 1)).length := by
    rw [← numeralStop_append_lt, ← hu, hmem.2, length_read]
    exact Nat.lt_succ_self _
  rw [atoi, atoi, ← hmem.1, ← (numeral_append_zero (mem'.drop i) t').1, hu, hu',
    (numeral_append hlt u).1, (numeral_append hlt u').1]

theorem memchr_congr {mem mem' : List UInt8} {c : UInt8} {i n : Nat}
    (h : ∀ j < memchrEnd mem c i n, peek mem j = peek mem' j) :
    memchr mem' c i n = memchr mem c i n := by
  rw [memchrEnd] at h
  cases hk : memchr mem c i n with
  | none =>
    rw [hk] at h
    exact memchr_eq_none.mpr fun j hj hlt => h j hlt ▸ memchr_eq_none.mp hk j hj hlt
  | some k =>
    rw [hk] at h
    obtain ⟨h₁, h₂, h₃, h₄⟩ := memchr_eq_some.mp hk
    refine memchr_eq_some.mpr ⟨h₁, h₂, h k (Nat.lt_succ_self k) ▸ h₃, fun j hj hjk => ?_⟩
    exact h j (Nat.lt_succ_of_lt hjk) ▸ h₄ j hj hjk

theorem decimal_eq (n : Nat) :
    decimal n = (if n < 10 then [] else decimal (n / 10)) ++ [UInt8.ofNat (48 + n % 10)] := by
  have hd : ∀ d < 10, UInt8.ofNat (Nat.digitChar d).toNat = UInt8.ofNat (48 + d) := by decide
  by_cases h : n < 10
  · simp [decimal, Nat.toDigits_of_lt_base h, h, hd n h, Nat.mod_eq_of_lt h]
  · have hm := hd (n % 10) (Nat.mod_lt _ (by decide))
    simp only [decimal, Nat.toDigits_of_base_le (by decide : 1 < 10) (Nat.le_of_not_lt h),
      List.map_append, List.map_cons, List.map_nil, hm, h, if_false]

theorem decimal_isDigit (n : Nat) : ∀ c ∈ decimal n, isDigit c = true := by
  induction n using Nat.strong_induction_on with
  | _ n ih =>
    intro c hc
    rw [decimal_eq, List.mem_append, List.mem_singleton] at hc
    rcases hc with hc | rfl
    · by_cases h : n < 10
      · simp [h] at hc
      · exact ih (n / 10) (by omega) c (by simpa [h] using hc)
    · have hm : n % 10 < 10 := Nat.mod_lt _ (by decide)
      generalize n % 10 = d at hm
      interval_cases d <;> decide

theorem zero_notMem_decimal (n : Nat) : (0 : UInt8) ∉ decimal n :=
  fun h => absurd (decimal_isDigit n 0 h) (by decide)

theorem digitsValue_decimal (n : Nat) : digitsValue (decimal n) = n := by
  induction n using Nat.strong_induction_on with
  | _ n ih =>
    have hd : ∀ d < 10, (UInt8.ofNat (48 + d)).toNat - 48 = d := by decide
    have hm := hd (n % 10) (Nat.mod_lt _ (by decide))
    rw [decimal_eq, digitsValue, List.foldl_append, List.foldl_cons, List.foldl_nil, hm]
    by_cases h : n < 10
    · simp [h, Nat.mod_eq_of_lt h]
    · have hh := ih (n / 10) (by omega)
      rw [digitsValue] at hh
      simp only [h, if_false, hh]
      omega

theorem digit_not_space : ∀ c : UInt8, isDigit c = true → isSpace c = false ∧ c ≠ 45 ∧ c ≠ 43 := by
  intro c h
  simp only [isDigit, Bool.and_eq_true, decide_eq_true_eq, UInt8.le_iff_toNat_le] at h
  have h48 : (48 : UInt8).toNat = 48 := rfl
  have h57 : (57 : UInt8).toNat = 57 := rfl
  rw [h48, h57] at h
  refine ⟨?_, ?_, ?_⟩
  · have h13 : (13 : UInt8).toNat = 13 := rfl
    simp only [isSpace, Bool.or_eq_false_iff, Bool.and_eq_false_iff, decide_eq_false_iff_not,
      UInt8.le_iff_toNat_le, h13]
    refine ⟨?_, Or.inr (by omega)⟩
    rintro rfl
    exact absurd h.1 (by decide)
  · rintro rfl
    exact absurd h.1 (by decide)
  · rintro rfl
    exact absurd h.1 (by decide)

theorem atoi_digits (a : List UInt8) {ds rest : List UInt8} (hne : ds ≠ [])
    (hdigits : ∀ c ∈ ds, isDigit c = true) (hstop : rest.takeWhile isDigit = [])
    (hlt : digitsValue ds < 2 ^ 31) : atoi (a ++ (ds ++ rest)) a.length = digitsValue ds := by
  obtain ⟨d, l, rfl⟩ := List.exists_cons_of_ne_nil hne
  have hd := digit_not_space d (hdigits d List.mem_cons_self)
  have htake : (d :: l ++ rest).takeWhile isDigit = d :: l := by
    rw [List.takeWhile_append_of_pos hdigits, hstop, List.append_nil]
  have hdrop : (d :: l ++ rest).dropWhile isSpace = d :: l ++ rest :=
    List.dropWhile_cons_of_neg (by rw [hd.1]; exact Bool.false_ne_true)
  have hhead : (d :: l ++ rest).head? = some d := rfl
  have hnum : numeral (d :: l ++ rest) = digitsValue (d :: l) := by
    simp only [numeral, hdrop, hhead, Option.some.injEq, hd.2.1, hd.2.2, if_false, htake]
  rw [atoi, List.drop_left, hnum]
  omega

/-- `atoi` reads back a canonical numeral followed by anything but a digit. -/
theorem atoi_decimal {a t : List UInt8} {c : UInt8} {n : Nat} (hn : n < 2 ^ 31)
    (hc : isDigit c = false) : atoi (a ++ (decimal n ++ c :: t)) a.length = n := by
  have hne : decimal n ≠ [] := by
    rw [decimal_eq]
    simp
  have hstop : (c :: t).takeWhile isDigit = [] :=
    List.takeWhile_cons_of_neg (Bool.eq_false_iff.mp hc)
  have h := atoi_digits a hne (decimal_isDigit n) hstop (by rwa [digitsValue_decimal])
  rwa [digitsValue_decimal] at h

theorem decode16_toNat (mem : List UInt8) (i : Nat) :
    (decode16 mem i).toNat = (peek mem i).toNat + 256 * (peek mem (i + 1)).toNat := by
  have h₁ := (peek mem i).toNat_lt
  have h₂ := (peek mem (i + 1)).toNat_lt
  rw [decode16, UInt16.toNat_ofNat']
  omega

@[simp] theorem length_encode16 (v : UInt16) : (encode16 v).length = 2 := rfl

theorem decode16_append (a b : List UInt8) (i : Nat) :
    decode16 (a ++ b) (a.length + i) = decode16 b i := by
  rw [decode16, decode16, Nat.add_assoc, peek_append_add, peek_append_add]

theorem decode16_append_left {t : List UInt8} (h : 2 ≤ t.length) (rest : List UInt8) :
    decode16 (t ++ rest) 0 = decode16 t 0 := by
  rw [decode16, decode16, peek_append_left _ (by omega), peek_append_left _ (by omega)]

theorem decode16_encode16 (a : List UInt8) (v : UInt16) (t : List UInt8) :
    decode16 (a ++ (encode16 v ++ t)) a.length = v := by
  have hv := v.toNat_lt
  apply UInt16.toNat_inj.mp
  rw [decode16_toNat, peek_append_length, peek_append_add]
  simp only [encode16, List.cons_append, List.nil_append, peek_cons_zero, peek_cons_succ,
    UInt8.toNat_ofNat']
  omega

end CString
