import NucleoW5500.StartParsing

/-! Which bytes of a fragment packet `receive_bigfile_from_packet` reads, and when it turns a
malformed fragment away. -/

namespace NucleoW5500

open CString

/-- One past the last byte `fragmentPayload` reads. Through a `p_next` that was `NULL` it reads
none of them. -/
def fragmentEnd (mem : List UInt8) (contentsSize : Int) (next remainSize : UInt32) : Option Nat :=
  let pCur := 1
  let n := sizeT (contentsSize - 1)
  let reads := max (memchrEnd mem 0 pCur n) (pCur + numeralStop (mem.drop pCur) + 1)
  if fragmentNumber mem ≠ next then some reads
  else match memchr mem 0 pCur n with
    | none => none
    | some k =>
      let reads := max reads (k + 1 + tcpPacket3DataSizeLen)
      let fragSize := (convertBuf2short mem (k + 1)).toUInt32
      if fragSize > remainSize then some reads
      else if fragSize ≠ UInt32.ofInt (contentsSize - (k + 1 + tcpPacket3DataSizeLen : Nat)) then
        some reads
      else some (max reads (k + 1 + tcpPacket3DataSizeLen + fragSize.toNat))

/-- What the checks on a fragment read and decide. -/
inductive FragmentView (mem : List UInt8) (contentsSize : Int) (next remainSize : UInt32) :
    Except Fault (Option (List UInt8)) → Option Nat → Prop
  | other : fragmentNumber mem ≠ next →
      FragmentView mem contentsSize next remainSize (.ok none)
        (some (max (memchrEnd mem 0 1 (sizeT (contentsSize - 1))) (1 + numeralStop (mem.drop 1) + 1)))
  | unended : fragmentNumber mem = next → memchr mem 0 1 (sizeT (contentsSize - 1)) = none →
      FragmentView mem contentsSize next remainSize (.error .nullPointer) none
  | refused {k : Nat} : fragmentNumber mem = next →
      memchr mem 0 1 (sizeT (contentsSize - 1)) = some k →
      ((decode16 mem (k + 1)).toNat ≤ remainSize.toNat →
        (decode16 mem (k + 1)).toUInt32 ≠ UInt32.ofInt (contentsSize - (k + 3 : Nat))) →
      FragmentView mem contentsSize next remainSize (.ok none)
        (some (max (max (memchrEnd mem 0 1 (sizeT (contentsSize - 1)))
          (1 + numeralStop (mem.drop 1) + 1)) (k + 3)))
  | accepted {k : Nat} : fragmentNumber mem = next →
      memchr mem 0 1 (sizeT (contentsSize - 1)) = some k →
      (decode16 mem (k + 1)).toNat ≤ remainSize.toNat →
      (decode16 mem (k + 1)).toUInt32 = UInt32.ofInt (contentsSize - (k + 3 : Nat)) →
      FragmentView mem contentsSize next remainSize
        (.ok (some (read mem (k + 3) (decode16 mem (k + 1)).toNat)))
        (some (max (max (max (memchrEnd mem 0 1 (sizeT (contentsSize - 1)))
          (1 + numeralStop (mem.drop 1) + 1)) (k + 3)) (k + 3 + (decode16 mem (k + 1)).toNat)))

theorem fragment_view (mem : List UInt8) (contentsSize : Int) (next remainSize : UInt32) :
    FragmentView mem contentsSize next remainSize
      (fragmentPayload mem contentsSize next remainSize)
      (fragmentEnd mem contentsSize next remainSize) := by
  rw [fragmentPayload, fragmentEnd]
  by_cases hnum : fragmentNumber mem = next
  swap
  · have hnum' : UInt32.ofInt (atoi mem 1) ≠ next := hnum
    simp only [ne_eq, hnum, hnum', not_false_eq_true, if_true]
    exact .other hnum
  have hnum' : UInt32.ofInt (atoi mem 1) = next := hnum
  simp only [ne_eq, hnum, hnum', not_true_eq_false, if_false]
  cases hk : memchr mem 0 1 (sizeT (contentsSize - 1)) with
  | none => exact .unended hnum hk
  | some k =>
    have hle : (convertBuf2short mem (k + 1)).toUInt32 > remainSize ↔
        ¬ (decode16 mem (k + 1)).toNat ≤ remainSize.toNat := by
      rw [gt_iff_lt, UInt32.lt_iff_toNat_lt, UInt16.toNat_toUInt32, Nat.not_le]
      rfl
    dsimp only
    by_cases hrem : (decode16 mem (k + 1)).toNat ≤ remainSize.toNat
    · rw [if_neg (fun h => hle.mp h hrem), if_neg (fun h => hle.mp h hrem)]
      by_cases hcalc : (decode16 mem (k + 1)).toUInt32 =
          UInt32.ofInt (contentsSize - (k + 3 : Nat))
      · have hcalc' : (convertBuf2short mem (k + 1)).toUInt32 =
            UInt32.ofInt (contentsSize - (k + 1 + tcpPacket3DataSizeLen : Nat)) := hcalc
        rw [if_neg (not_not.mpr hcalc'), if_neg (not_not.mpr hcalc'), UInt16.toNat_toUInt32]
        exact .accepted hnum hk hrem hcalc
      · have hcalc' : ¬ (convertBuf2short mem (k + 1)).toUInt32 =
            UInt32.ofInt (contentsSize - (k + 1 + tcpPacket3DataSizeLen : Nat)) := hcalc
        rw [if_pos hcalc', if_pos hcalc']
        exact .refused hnum hk fun _ => hcalc
    · rw [if_pos (hle.mpr hrem), if_pos (hle.mpr hrem)]
      exact .refused hnum hk fun h => absurd h hrem

/-- No terminator ends the number, or the two bytes of a size are not behind it, or they are
not the number of the bytes that follow them. -/
inductive Malformed : List UInt8 → Prop
  | unended {id : UInt8} {number : List UInt8} : (0 : UInt8) ∉ number → Malformed (id :: number)
  | short {id : UInt8} {number t : List UInt8} : (0 : UInt8) ∉ number → t.length < 2 →
      Malformed (id :: (number ++ 0 :: t))
  | size {id : UInt8} {number t : List UInt8} : (0 : UInt8) ∉ number →
      (decode16 t 0).toNat + 2 ≠ t.length → Malformed (id :: (number ++ 0 :: t))

/-- One past the last byte of the contents that a fragment of the transfer `big` has read. -/
def contentsRead (st : BigfileState) (big : Block BigfileRecv) (mem : List UInt8)
    (contentsSize : Int) : Option Nat :=
  if (firstFragment st big).remainCount = 0 then some 1
  else fragmentEnd mem contentsSize big.val.next (firstFragment st big).remainSize

/-- Whatever lies behind the contents, only they are read, and if they are malformed the
packet is turned away and the transfer stands. -/
structure FragmentClean (q : TcpPacket3) (st : BigfileState) (big : Block BigfileRecv) : Prop where
  inside : ∀ rest, ∃ e, contentsRead st big (extracted q ++ rest) (getPacketPlainContentsSize q) =
    some e ∧ e ≤ (extracted q).length
  rejects : Malformed (extracted q) → ∀ env w args, env.ok w.next = true → ∃ st' w',
    receiveBigfileFromPacket env st (some q) args w = .ok (-1, {}, st') w' ∧
      st'.pBig = st.pBig ∧
      (big.val.next ≠ 0 → st'.remainSize = st.remainSize ∧ st'.remainCount = st.remainCount)

/-- `contents` in a packet that announces `m` bytes: the searches for the terminator and for
the end of the number stop inside, and if it is the number that is due, then so do the two
bytes of the size, and a size that fits is not one that stops short of the contents. -/
structure FragmentBounded (contents : List UInt8) (m : Nat) (next remainSize : UInt32) : Prop where
  announced : 1 ≤ m
  terminator : m ≤ contents.length ∨ (0 : UInt8) ∈ contents.tail
  numeral : numeralStop contents.tail < contents.tail.length
  due : fieldValue contents.tail = next → ∃ number t, contents.tail = number ++ 0 :: t ∧
    (0 : UInt8) ∉ number ∧ number.length + 1 < m ∧ 2 ≤ t.length ∧
    ((decode16 t 0).toNat ≤ remainSize.toNat → number.length + 4 + (decode16 t 0).toNat = m →
      m = contents.length)

theorem fragmentNumber_cons {id : UInt8} {t rest : List UInt8} (h : numeralStop t < t.length) :
    fragmentNumber (id :: (t ++ rest)) = fieldValue t := by
  rw [fragmentNumber, fieldValue, atoi, atoi, List.drop_succ_cons, List.drop_zero, List.drop_zero,
    (numeral_append h rest).1]

section View

variable {id : UInt8} {t : List UInt8} {m : Nat} {next remainSize : UInt32}

theorem memchrEnd_cons_le_iff (hlt : m < 2 ^ 16) (hm : t.length ≤ m) (rest : List UInt8) :
    memchrEnd (id :: (t ++ rest)) 0 1 (sizeT (m - 1)) ≤ 1 + t.length ↔
      1 ≤ m ∧ (m ≤ t.length + 1 ∨ (0 : UInt8) ∈ t) := by
  have h := @memchrEnd_le_iff [id] t rest 0 (sizeT (m - 1))
  rw [List.singleton_append, List.length_singleton] at h
  rw [h]
  rcases Nat.eq_zero_or_pos m with rfl | hpos
  · have ht : t = [] := List.length_eq_zero_iff.mp (by omega)
    subst ht
    have hbig : ¬ sizeT (((0 : Nat) : Int) - 1) ≤ ([] : List UInt8).length := by decide
    exact ⟨fun h => h.elim (fun h => absurd h hbig) (fun h => absurd h List.not_mem_nil),
      fun h => absurd h.1 (by decide)⟩
  · have hs : sizeT ((m : Int) - 1) = m - 1 := by
      rw [sizeT, UInt32.ofInt, UInt32.toNat_ofNat']
      omega
    have hiff : m - 1 ≤ t.length ↔ m ≤ t.length + 1 := by omega
    rw [hs, hiff]
    exact ⟨fun h => ⟨hpos, h⟩, fun h => h.2⟩

theorem FragmentView.reads_le {mem : List UInt8} {contentsSize : Int}
    {r : Except Fault (Option (List UInt8))} {e : Nat}
    (hv : FragmentView mem contentsSize next remainSize r (some e)) :
    memchrEnd mem 0 1 (sizeT (contentsSize - 1)) ≤ e ∧ 1 + numeralStop (mem.drop 1) + 1 ≤ e := by
  cases hv <;> omega

theorem fragmentPayload_congr {mem mem' : List UInt8} {contentsSize : Int} {e : Nat}
    (h : fragmentEnd mem contentsSize next remainSize = some e)
    (hagree : ∀ j < e, peek mem j = peek mem' j) :
    fragmentPayload mem' contentsSize next remainSize =
      fragmentPayload mem contentsSize next remainSize := by
  have hv := fragment_view mem contentsSize next remainSize
  rw [h] at hv
  obtain ⟨hend, hstop⟩ := hv.reads_le
  have hchr : memchr mem' 0 1 (sizeT (contentsSize - 1)) =
      memchr mem 0 1 (sizeT (contentsSize - 1)) :=
    memchr_congr fun j hj => hagree j (by omega)
  have hnum : atoi mem' 1 = atoi mem 1 := atoi_congr fun j hj => hagree j (by omega)
  have hdec : ∀ i, i + 2 ≤ e → decode16 mem' i = decode16 mem i := by
    intro i hi
    rw [decode16, decode16, hagree i (by omega), hagree (i + 1) (by omega)]
  rw [fragmentPayload, fragmentPayload, hchr, hnum]
  generalize fragmentPayload mem contentsSize next remainSize = r at hv
  cases hv with
  | other hne =>
    have hne' : UInt32.ofInt (atoi mem 1) ≠ next := hne
    rw [if_pos hne', if_pos hne']
  | @refused k _ hk hno =>
    have hd : convertBuf2short mem' (k + 1) = convertBuf2short mem (k + 1) :=
      hdec (k + 1) (by omega)
    rw [hk]
    dsimp only
    rw [hd]
    split_ifs with h₁ h₂ h₃
    · rfl
    · rfl
    · rfl
    · refine absurd (not_not.mp h₃) (hno ?_)
      exact UInt32.le_iff_toNat_le.mp (UInt32.not_lt.mp h₂)
  | @accepted k _ hk _ _ =>
    have hd : convertBuf2short mem' (k + 1) = convertBuf2short mem (k + 1) :=
      hdec (k + 1) (by omega)
    have hread : read mem' (k + 3) (decode16 mem (k + 1)).toNat =
        read mem (k + 3) (decode16 mem (k + 1)).toNat := by
      apply List.map_congr_left
      intro j hj
      rw [List.mem_range] at hj
      exact (hagree (k + 3 + j) (by omega)).symm
    rw [hk]
    dsimp only
    rw [hd]
    split_ifs
    · rfl
    · rfl
    · rfl
    · exact congrArg (fun l => Except.ok (some l)) hread

theorem terminator_inside {rest : List UInt8} {k : Nat}
    (hk : memchr (id :: (t ++ rest)) 0 1 (sizeT (m - 1)) = some k) (hin : k + 3 ≤ t.length + 1) :
    ∃ number u, t = number ++ 0 :: u ∧ (0 : UInt8) ∉ number ∧ k = 1 + number.length ∧
      2 ≤ u.length := by
  obtain ⟨number, u, rfl, hnumber, hkn⟩ :=
    @memchr_append_inside [id] t rest 0 _ k hk (by rw [List.length_singleton]; omega)
  rw [List.length_singleton] at hkn
  simp only [List.length_append, List.length_cons] at hin
  exact ⟨number, u, rfl, hnumber, hkn, by omega⟩

theorem decode16_behind {number u rest : List UInt8} (hu : 2 ≤ u.length) :
    decode16 (id :: ((number ++ 0 :: u) ++ rest)) (1 + number.length + 1) = decode16 u 0 := by
  have hmem : id :: ((number ++ 0 :: u) ++ rest) = (id :: (number ++ [0])) ++ (u ++ rest) := by simp
  have hat : 1 + number.length + 1 = (id :: (number ++ [0])).length := by simp; omega
  rw [hmem, hat]
  exact (decode16_append _ _ 0).trans (decode16_append_left hu rest)

theorem toUInt32_eq_ofInt {i : Nat} {size : UInt16} (hlt : m < 2 ^ 16) (hi : i ≤ m + 1) :
    size.toUInt32 = UInt32.ofInt ((m : Int) - i) ↔ i + size.toNat = m := by
  have hs := size.toNat_lt
  rw [← UInt32.toNat_inj, UInt16.toNat_toUInt32, UInt32.ofInt, UInt32.toNat_ofNat']
  omega

theorem FragmentBounded.found (h : FragmentBounded (id :: t) m next remainSize) (hlt : m < 2 ^ 16)
    {rest : List UInt8} (hnum : fragmentNumber (id :: (t ++ rest)) = next) :
    ∃ number u, t = number ++ 0 :: u ∧ (0 : UInt8) ∉ number ∧ 2 ≤ u.length ∧
      memchr (id :: (t ++ rest)) 0 1 (sizeT (m - 1)) = some (1 + number.length) ∧
      ((decode16 u 0).toNat ≤ remainSize.toNat → number.length + 4 + (decode16 u 0).toNat = m →
        m = t.length + 1) := by
  have hstop : numeralStop t < t.length := h.numeral
  rw [fragmentNumber_cons hstop] at hnum
  obtain ⟨number, u, htl, hnumber, hk, hu, hfit⟩ := h.due hnum
  rw [List.tail_cons] at htl
  subst htl
  have hcut : id :: ((number ++ 0 :: u) ++ rest) = [id] ++ (number ++ 0 :: (u ++ rest)) := by simp
  refine ⟨number, u, rfl, hnumber, hu, ?_, hfit⟩
  rw [hcut]
  exact memchr_append hnumber ((lt_sizeT (by omega) (by omega) (by omega)).mpr (by omega))

theorem FragmentBounded.inside (h : FragmentBounded (id :: t) m next remainSize)
    (hlt : m < 2 ^ 16) (hm : t.length ≤ m) (rest : List UInt8)
    {r : Except Fault (Option (List UInt8))} {e : Option Nat}
    (hv : FragmentView (id :: (t ++ rest)) m next remainSize r e) :
    ∃ e', e = some e' ∧ e' ≤ t.length + 1 := by
  have hend : memchrEnd (id :: (t ++ rest)) 0 1 (sizeT (m - 1)) ≤ 1 + t.length :=
    (memchrEnd_cons_le_iff hlt hm rest).mpr ⟨h.announced, h.terminator⟩
  have hstop : numeralStop ((id :: (t ++ rest)).drop 1) < t.length :=
    numeralStop_append_lt.mpr h.numeral
  cases hv with
  | other => exact ⟨_, rfl, by omega⟩
  | unended hnum hnone =>
    obtain ⟨number, u, -, -, -, hsome, -⟩ := h.found hlt hnum
    rw [hnone] at hsome
    cases hsome
  | refused hnum hk =>
    obtain ⟨number, u, rfl, -, hu, hsome, -⟩ := h.found hlt hnum
    obtain rfl := Option.some.inj (hk.symm.trans hsome)
    simp only [List.length_append, List.length_cons] at hend hstop ⊢
    exact ⟨_, rfl, by omega⟩
  | accepted hnum hk hrem hcalc =>
    obtain ⟨number, u, rfl, -, hu, hsome, hfit⟩ := h.found hlt hnum
    obtain rfl := Option.some.inj (hk.symm.trans hsome)
    simp only [List.length_append, List.length_cons] at hend hstop hfit hm ⊢
    rw [decode16_behind hu] at hrem hcalc ⊢
    have hsum := (toUInt32_eq_ofInt hlt (by omega)).mp hcalc
    have := hfit hrem (by omega)
    exact ⟨_, rfl, by omega⟩

theorem FragmentBounded.rejects (h : FragmentBounded (id :: t) m next remainSize)
    (hlt : m < 2 ^ 16) (hm : t.length ≤ m) (hbad : Malformed (id :: t)) (rest : List UInt8)
    {r : Except Fault (Option (List UInt8))} {e : Option Nat}
    (hv : FragmentView (id :: (t ++ rest)) m next remainSize r e) : r = .ok none := by
  cases hv with
  | other => rfl
  | refused => rfl
  | unended hnum hnone =>
    obtain ⟨number, u, -, -, -, hsome, -⟩ := h.found hlt hnum
    rw [hnone] at hsome
    cases hsome
  | accepted hnum hk hrem hcalc =>
    obtain ⟨number, u, rfl, hnumber, hu, hsome, hfit⟩ := h.found hlt hnum
    obtain rfl := Option.some.inj (hk.symm.trans hsome)
    rw [decode16_behind hu] at hrem hcalc
    simp only [List.length_append, List.length_cons] at hfit hm
    have hsum := (toUInt32_eq_ofInt hlt (by omega)).mp hcalc
    have hmn := hfit hrem (by omega)
    exfalso
    generalize hc : number ++ 0 :: u = t' at hbad
    cases hbad with
    | unended hno => exact hno (hc ▸ by simp)
    | short hno hlen =>
      obtain ⟨-, rfl⟩ := eq_of_append_zero hnumber hno hc
      omega
    | size hno hlen =>
      obtain ⟨-, rfl⟩ := eq_of_append_zero hnumber hno hc
      omega

/-- What has to be there can be read off what is read, and off what is turned away. -/
theorem fragmentBounded_of_clean (hlt : m < 2 ^ 16) (hm : t.length ≤ m)
    {r : Except Fault (Option (List UInt8))} {e : Nat}
    (hv : FragmentView (id :: (t ++ [])) m next remainSize r (some e)) (he : e ≤ t.length + 1)
    (hrej : Malformed (id :: t) → r = .ok none) :
    FragmentBounded (id :: t) m next remainSize := by
  obtain ⟨hend, hstop⟩ := hv.reads_le
  obtain ⟨hpos, hterm⟩ := (@memchrEnd_cons_le_iff id t m hlt hm []).mp (by omega)
  rw [List.drop_succ_cons, List.drop_zero, List.append_nil] at hstop
  have hnumeral : numeralStop t < t.length := by omega
  have hsize : ∀ k, memchr (id :: (t ++ [])) 0 1 (sizeT (m - 1)) = some k → k < m := by
    intro k hk
    obtain ⟨-, hkm, -, -⟩ := memchr_eq_some.mp hk
    rw [sizeT, UInt32.ofInt, UInt32.toNat_ofNat'] at hkm
    omega
  refine ⟨hpos, hterm, hnumeral, fun hdue => ?_⟩
  rw [List.tail_cons] at hdue ⊢
  cases hv with
  | other hnum => exact absurd ((fragmentNumber_cons hnumeral).trans hdue) hnum
  | refused hnum hk hno =>
    have hkm := hsize _ hk
    obtain ⟨number, u, rfl, hnumber, rfl, hu⟩ := terminator_inside hk (by omega)
    refine ⟨number, u, rfl, hnumber, by omega, hu, fun hrem hsum => ?_⟩
    rw [decode16_behind hu] at hno
    exact absurd ((toUInt32_eq_ofInt hlt (by omega)).mpr (by omega)) (hno hrem)
  | accepted hnum hk hrem hcalc =>
    have hkm := hsize _ hk
    obtain ⟨number, u, rfl, hnumber, rfl, hu⟩ := terminator_inside hk (by omega)
    refine ⟨number, u, rfl, hnumber, by omega, hu, fun hrem hsum => ?_⟩
    rw [decode16_behind hu] at he
    simp only [List.length_append, List.length_cons] at he hm ⊢
    by_contra hne
    have hbad := hrej (.size hnumber (by omega))
    cases hbad

end View

section Call

variable {env : HeapEnv} {q : TcpPacket3} {st : BigfileState} {big : Block BigfileRecv}
  {args : BigfileArgs} {buf : Buf} {w w₁ : World}

theorem receiveBigfileFromPacket_frag (ht : q.type = tcpPacket3TypeBigfileFrag)
    (hz : q.dataSize ≠ 0) (hbig : st.pBig = some big)
    (hx : extractPacketContents env q w = .ok (some buf) w₁)
    (hid : peek buf.mem 0 = big.val.id) :
    receiveBigfileFromPacket env st (some q) args w =
      bigfileFrag st big buf (getPacketPlainContentsSize q) w₁ := by
  have hstart : q.type ≠ tcpPacket3TypeBigfileStart := by rw [ht]; decide
  have hend : q.type ≠ tcpPacket3TypeBigfileEnd := by rw [ht]; decide
  rw [receiveBigfileFromPacket, receiveBigfileFromPacketBy, if_neg hz, if_neg hstart,
    if_neg (fun h => h.1 ht), hbig]
  dsimp only
  rw [CM.bind_ok hx]
  dsimp only
  rw [if_neg (not_not.mpr hid), if_neg hend, bigfileFrag]

theorem bigfileFrag_refuses {contentsSize : Int}
    (h : (firstFragment st big).remainCount = 0 ∨
      fragmentPayload buf.mem contentsSize big.val.next (firstFragment st big).remainSize = .ok none) :
    bigfileFrag st big buf contentsSize w =
      .ok (-1, {}, firstFragment st big) { w with frees := buf.addr :: w.frees } := by
  rw [bigfileFrag, bigfileFragBy]
  by_cases hcount : (firstFragment st big).remainCount = 0
  · rw [if_pos hcount]
    rfl
  · rw [if_neg hcount, h.resolve_left hcount]
    rfl

theorem bigfileFrag_refused {contentsSize : Int} {out : BigfileOut} {st' : BigfileState} {w' : World}
    (hcount : (firstFragment st big).remainCount ≠ 0)
    (h : bigfileFrag st big buf contentsSize w = .ok (-1, out, st') w') :
    fragmentPayload buf.mem contentsSize big.val.next (firstFragment st big).remainSize =
      .ok none := by
  rw [bigfileFrag, bigfileFragBy, if_neg hcount] at h
  cases hp : fragmentPayload buf.mem contentsSize big.val.next (firstFragment st big).remainSize with
  | error f =>
    rw [hp] at h
    cases h
  | ok r =>
    cases r with
    | none => rfl
    | some payload =>
      rw [hp] at h
      obtain ⟨contents, w₂, -, h⟩ := CM.bind_eq_ok.mp h
      have hret : (1 : Int) = -1 := congrArg Prod.fst (EStateM.Result.ok.inj h).1
      exact absurd hret (by decide)

end Call

theorem receiveBigfileFromPacket_extracted {q : WirePacket} (hq : q.data ≠ [])
    (ht : q.type = tcpPacket3TypeBigfileFrag) (hs : Sized q.record) {st : BigfileState}
    {big : Block BigfileRecv} (hbig : st.pBig = some big) {t : List UInt8}
    (hb : extracted q.record = big.val.id :: t) {env : HeapEnv} {w : World} {args : BigfileArgs}
    (hok : env.ok w.next = true) :
    ∃ rest size, receiveBigfileFromPacket env st (some q.record) args w =
        bigfileFrag st big ⟨w.next, size, big.val.id :: (t ++ rest)⟩
          (getPacketPlainContentsSize q.record) { w with next := w.next + 1 } ∧
      rest = (env.leftover w.next).drop (t.length + 1) := by
  have hp := WirePacket.whole hq
  have hx := extractPacketContents_ok hp hs hok
  rw [hb] at hx
  have htype : q.record.type = tcpPacket3TypeBigfileFrag := q.received_record.type.trans ht
  exact ⟨_, _, receiveBigfileFromPacket_frag htype hp.pos hbig hx rfl, rfl⟩

theorem receiveBigfileFromPacket_frag_clean_iff (q : WirePacket) (hq : q.data ≠ [])
    (ht : q.type = tcpPacket3TypeBigfileFrag) (hs : Sized q.record) {st : BigfileState}
    {big : Block BigfileRecv} (hbig : st.pBig = some big)
    (hid : (extracted q.record).head? = some big.val.id) :
    FragmentClean q.record st big ↔ (firstFragment st big).remainCount = 0 ∨
      FragmentBounded (extracted q.record) q.record.orgSize.toNat big.val.next
        (firstFragment st big).remainSize := by
  have hm := WirePacket.length_extracted_le hs
  have hlt : q.record.orgSize.toNat < 2 ^ 16 := q.record.orgSize.toNat_lt
  obtain ⟨t, hb⟩ : ∃ t, extracted q.record = big.val.id :: t := by
    cases hb : extracted q.record with
    | nil => rw [hb] at hid; cases hid
    | cons c t => rw [hb] at hid; exact ⟨t, by rw [Option.some.inj hid]⟩
  rw [hb, List.length_cons] at hm
  constructor
  · intro h
    by_cases hcount : (firstFragment st big).remainCount = 0
    · exact Or.inl hcount
    · right
      obtain ⟨e, he, hle⟩ := h.inside []
      rw [contentsRead, if_neg hcount, hb, List.cons_append] at he
      rw [hb, List.length_cons] at hle
      have hv := fragment_view (big.val.id :: (t ++ [])) (getPacketPlainContentsSize q.record)
        big.val.next (firstFragment st big).remainSize
      rw [he] at hv
      rw [hb]
      refine fragmentBounded_of_clean hlt (by omega) hv hle fun hbad => ?_
      obtain ⟨rest, size, hrun, hrest⟩ := @receiveBigfileFromPacket_extracted q hq ht hs st big hbig
        t hb .ample {} ⟨true, true, true⟩ rfl
      obtain ⟨st', w', hret, -, -⟩ := h.rejects (hb ▸ hbad) .ample {} ⟨true, true, true⟩ rfl
      rw [hrun] at hret
      have hpay := bigfileFrag_refused hcount hret
      have hnil : rest = [] := hrest.trans List.drop_nil
      rwa [hnil] at hpay
  · intro h
    refine ⟨fun rest => ?_, fun hbad env w args hok => ?_⟩
    · rw [contentsRead, hb, List.cons_append, List.length_cons]
      by_cases hcount : (firstFragment st big).remainCount = 0
      · rw [if_pos hcount]
        exact ⟨1, rfl, by omega⟩
      · have hbounded := h.resolve_left hcount
        rw [hb] at hbounded
        rw [if_neg hcount]
        exact hbounded.inside hlt (by omega) rest (fragment_view _ _ _ _)
    · obtain ⟨rest, size, hrun, -⟩ := @receiveBigfileFromPacket_extracted q hq ht hs st big hbig t hb
        env w args hok
      have hrefuse : (firstFragment st big).remainCount = 0 ∨
          fragmentPayload (big.val.id :: (t ++ rest)) (getPacketPlainContentsSize q.record)
            big.val.next (firstFragment st big).remainSize = .ok none := by
        refine h.imp_right fun hbounded => ?_
        rw [hb] at hbounded hbad
        exact hbounded.rejects hlt (by omega) hbad rest (fragment_view _ _ _ _)
      rw [hrun, @bigfileFrag_refuses st big ⟨w.next, size, big.val.id :: (t ++ rest)⟩ _ _ hrefuse]
      refine ⟨_, _, rfl, firstFragment_pBig st big, fun hnext => ?_⟩
      rw [firstFragment_later hnext]
      exact ⟨rfl, rfl⟩

/-- What lies behind the contents of a clean fragment decides nothing. -/
theorem FragmentClean.decided {q : TcpPacket3} {st : BigfileState} {big : Block BigfileRecv}
    (h : FragmentClean q st big) (hcount : (firstFragment st big).remainCount ≠ 0)
    (rest : List UInt8) :
    fragmentPayload (extracted q ++ rest) (getPacketPlainContentsSize q) big.val.next
        (firstFragment st big).remainSize =
      fragmentPayload (extracted q) (getPacketPlainContentsSize q) big.val.next
        (firstFragment st big).remainSize := by
  obtain ⟨e, he, hle⟩ := h.inside rest
  rw [contentsRead, if_neg hcount] at he
  have hagree : ∀ j < e, peek (extracted q ++ rest) j = peek (extracted q) j :=
    fun j hj => peek_append_left _ (Nat.lt_of_lt_of_le hj hle)
  exact (fragmentPayload_congr he hagree).symm

def fragPacket (contents : List UInt8) (h : contents.length < 65536) : WirePacket :=
  ⟨tcpPacket3Version, tcpPacket3FlagNone, tcpPacket3TypeBigfileFrag, contents, h⟩

/-- Transfer 7, a file `"f"` of one byte in one fragment, has just begun. -/
def oneByteBig : Block BigfileRecv := ⟨3, BigfileInfo.record ⟨7, [102], 1, 1⟩⟩

theorem receiveBigfileFromPacket_frag_clean_one :
    FragmentClean (fragPacket [7, 48, 0, 1, 0, 65] (by decide)).record
      ⟨some oneByteBig, 0, 0, none⟩ oneByteBig := by
  refine (receiveBigfileFromPacket_frag_clean_iff _ (by decide) rfl (by decide) rfl
    (by decide)).mpr (Or.inr ⟨by decide, by decide, by decide, fun _ => ?_⟩)
  exact ⟨[48], [1, 0, 65], by decide, by decide, by decide, by decide, fun _ _ => by decide⟩

/-- A number without its terminator is read through `NULL`. -/
theorem receiveBigfileFromPacket_frag_unended :
    Malformed (extracted (fragPacket [7, 48] (by decide)).record) ∧
      receiveBigfileFromPacket .ample ⟨some oneByteBig, 0, 0, none⟩
        (some (fragPacket [7, 48] (by decide)).record) ⟨true, true, true⟩ {} =
          .error (.fault .nullPointer) { next := 1 } := by
  refine ⟨?_, by decide⟩
  have hb : extracted (fragPacket [7, 48] (by decide)).record = [7, 48] := by decide
  rw [hb]
  exact .unended (by decide)

end NucleoW5500
