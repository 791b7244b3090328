import Mathlib.Data.List.Basic

/-! Options in a row: a byte for the kind, one for the length, and the value. Two kinds stand for
themselves: `pad` between two options, and `stop` behind the last. -/

namespace Tlv

structure Marks where
  pad : UInt8
  stop : UInt8
  ne : pad ≠ stop

structure Field (M : Marks) where
  kind : UInt8
  value : List UInt8
  short : value.length < 256
  not_pad : kind ≠ M.pad
  not_stop : kind ≠ M.stop
  deriving DecidableEq

variable {M : Marks}

def Field.bytes (f : Field M) : List UInt8 := f.kind :: UInt8.ofNat f.value.length :: f.value

def encode (fs : List (Field M)) : List UInt8 := fs.flatMap Field.bytes

/-- The options up to `stop`, or up to the end; none if the last one is cut off. -/
def decodeFuel (M : Marks) : Nat → List UInt8 → Option (List (Field M))
  | _, [] => some []
  | 0, _ :: _ => none
  | n + 1, b :: bs =>
    if hp : b = M.pad then decodeFuel M n bs
    else if hs : b = M.stop then some []
    else match bs with
      | [] => none
      | len :: bs =>
        if len.toNat ≤ bs.length then
          (decodeFuel M n (bs.drop len.toNat)).map
            (⟨b, bs.take len.toNat, Nat.lt_of_le_of_lt (List.length_take_le ..) len.toNat_lt, hp,
            hs⟩ :: ·)
        else none

def decode (M : Marks) (bs : List UInt8) : Option (List (Field M)) := decodeFuel M bs.length bs

theorem decodeFuel_encode (fs : List (Field M)) (rest : List UInt8) {n : Nat}
    (hn : (encode fs).length < n) : decodeFuel M n (encode fs ++ M.stop :: rest) = some fs := by
  induction fs generalizing n with
  | nil =>
    obtain ⟨n, rfl⟩ := Nat.exists_eq_succ_of_ne_zero (Nat.ne_zero_of_lt hn)
    simp [encode, decodeFuel, M.ne.symm]
  | cons f fs ih =>
    obtain ⟨n, rfl⟩ := Nat.exists_eq_succ_of_ne_zero (Nat.ne_zero_of_lt hn)
    have hlen : (UInt8.ofNat f.value.length).toNat = f.value.length := by
      rw [UInt8.toNat_ofNat']
      exact Nat.mod_eq_of_lt f.short
    have hbytes : encode (f :: fs) ++ M.stop :: rest =
        f.kind :: UInt8.ofNat f.value.length :: (f.value ++ (encode fs ++ M.stop :: rest)) := by
      simp [encode, Field.bytes]
    have hlt : (encode fs).length < n := by
      simp only [encode, List.flatMap_cons, List.length_append, Field.bytes,
        List.length_cons] at hn ⊢
      omega
    rw [hbytes, decodeFuel, dif_neg f.not_pad, dif_neg f.not_stop]
    simp only [hlen, List.length_append, Nat.le_add_right, if_pos, List.drop_left, ih hlt,
      List.take_left, Option.map_some]

/-- What is encoded is read back, whatever comes behind it. -/
theorem decode_encode (fs : List (Field M)) (rest : List UInt8) :
    decode M (encode fs ++ M.stop :: rest) = some fs :=
  decodeFuel_encode fs rest (by simp)

end Tlv
