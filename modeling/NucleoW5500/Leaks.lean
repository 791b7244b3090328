import NucleoW5500.FragmentParsing
import NucleoW5500.Ownership
import NucleoW5500.SmallFile

/-! Which calls of `tcp_packet3_processor` lose a block. -/

namespace NucleoW5500

open CString Ledger

def fragmentAccepted (mem : List UInt8) (contentsSize : Int) (next remainSize : UInt32) : Bool :=
  fragmentNumber mem = next && match memchr mem 0 1 (sizeT (contentsSize - 1)) with
    | none => false
    | some k => (decode16 mem (k + 1)).toNat ≤ remainSize.toNat &&
        (decode16 mem (k + 1)).toUInt32 = UInt32.ofInt (contentsSize - (k + 3 : Nat))

/-- A fragment is accepted, and its buffer is not freed. `n` numbers the next allocation. -/
def fragKept (env : HeapEnv) (st : BigfileState) (p : TcpPacket3) (n : Nat) : Bool :=
  p.type = tcpPacket3TypeBigfileFrag && p.dataSize ≠ 0 && env.ok n && match st.pBig with
    | none => false
    | some big => peek (plaintext env p n) 0 = big.val.id &&
        (firstFragment st big).remainCount ≠ 0 &&
        fragmentAccepted (plaintext env p n) (getPacketPlainContentsSize p) big.val.next
          (firstFragment st big).remainSize

/-- The end packet of a complete transfer finds memory for the name but not for the file. -/
def endKept (env : HeapEnv) (st : BigfileState) (p : TcpPacket3) (n : Nat) : Bool :=
  p.type = tcpPacket3TypeBigfileEnd && p.dataSize ≠ 0 && env.ok n && match st.pBig with
    | none => false
    | some big => peek (plaintext env p n) 0 = big.val.id && st.remainSize = 0 &&
        st.remainCount = 0 && peek (plaintext env p n) 1 = tcpPacket3BigfileChecksumTypeNone &&
        big.val.count = big.val.next && env.ok (n + 1) && !env.ok (n + 2)

/-- The name of a small file is copied, and then its size does not fit or is 0, or there is no
memory for the file. -/
def smallKept (env : HeapEnv) (p : TcpPacket3) (n : Nat) : Bool :=
  p.type = tcpPacket3TypeSmallfile && p.dataSize ≠ 0 && env.ok n &&
    match memchr (plaintext env p n) 0 0 (sizeT (getPacketPlainContentsSize p)) with
    | none => false
    | some k => env.ok (n + 1) &&
        (((decode16 (plaintext env p n) (k + 1)).toNat : Int) ≠
            getPacketPlainContentsSize p - (k + 3 : Nat) ||
          !env.ok (n + 2) || decode16 (plaintext env p n) (k + 1) = 0)

def echoAllocs (env : HeapEnv) (p : TcpPacket3) (n : Nat) : Nat :=
  if isPacketEncrypted p = true ∧ p.dataSize ≠ 0 then
    if env.ok n = true ∧ (p.orgSize.toNat : Int) ≤ tcpPacket3MaxContentsSize then 2 else 1
  else 0

def typeLeaks (env : HeapEnv) (st : BigfileState) (p : TcpPacket3) (n : Nat) : Bool :=
  smallKept env p n || endKept env st p n || fragKept env st p n

def leaks (env : HeapEnv) (st : BigfileState) (phead : List (Block TcpPacket3)) (w : World) : Bool :=
  match phead with
  | [] => false
  | p :: _ => typeLeaks env st p.val (w.next + echoAllocs env p.val w.next)

theorem fragmentAccepted_iff (mem : List UInt8) (contentsSize : Int) (next remainSize : UInt32) :
    fragmentAccepted mem contentsSize next remainSize = true ↔
      ∃ payload, fragmentPayload mem contentsSize next remainSize = .ok (some payload) := by
  have hv := fragment_view mem contentsSize next remainSize
  rw [fragmentAccepted]
  generalize fragmentPayload mem contentsSize next remainSize = r at hv
  generalize fragmentEnd mem contentsSize next remainSize = e at hv
  cases hv with
  | other hne => simp [hne]
  | unended hnum hk => simp [hk]
  | refused hnum hk hno =>
    simp only [hk, hnum, decide_true, Bool.true_and, Bool.and_eq_true, decide_eq_true_eq]
    constructor
    · rintro ⟨hle, hcalc⟩
      exact absurd hcalc (hno hle)
    · rintro ⟨payload, hp⟩
      cases hp
  | accepted hnum hk hle hcalc => simp [hk, hnum, hle, hcalc]

theorem memcpy_still {dst b : Buf} {j : Nat} {src : List UInt8} {i : Nat} {n : Int} {w w' : World}
    (h : memcpy dst j src i n w = .ok b w') : w' = w := by
  rcases memcpy_cases dst j src i n w with hc | ⟨f, -, hc⟩
  · rw [hc] at h
    exact (EStateM.Result.ok.inj h).2.symm
  · rw [hc] at h
    cases h

theorem strndup_granted {env : HeapEnv} {mem : List UInt8} {i n : Nat} {w w' : World}
    {r : Option Buf} (h : strndup env mem i n w = .ok r w') :
    r.isSome = env.ok w.next ∧ w'.next = w.next + 1 := by
  rw [strndup] at h
  cases hok : env.ok w.next with
  | false =>
    rw [CM.bind_ok (malloc_none hok)] at h
    cases h
    exact ⟨rfl, rfl⟩
  | true =>
    rw [CM.bind_ok (malloc_some hok)] at h
    obtain ⟨buf, w₁, hcopy, h⟩ := CM.bind_eq_ok.mp h
    obtain rfl := memcpy_still hcopy
    cases h
    exact ⟨rfl, rfl⟩

theorem copyFilename_granted {env : HeapEnv} {big : BigfileRecv} {w w' : World}
    {r : Option (Option Buf)} (h : copyFilename env big true w = .ok r w') :
    (r = none ∧ env.ok w.next = false ∨ ∃ b, r = some (some b) ∧ env.ok w.next = true) ∧
      w'.next = w.next + 1 := by
  rw [copyFilename, if_pos rfl] at h
  obtain ⟨name, w₁, hdup, h⟩ := CM.bind_eq_ok.mp h
  obtain ⟨hsome, hnext⟩ := strndup_granted hdup
  cases name with
  | none =>
    cases h
    exact ⟨Or.inl ⟨rfl, hsome.symm⟩, hnext⟩
  | some name =>
    cases h
    exact ⟨Or.inr ⟨name, rfl, hsome.symm⟩, hnext⟩

theorem copyContents_granted {env : HeapEnv} {big : BigfileRecv} {w w' : World}
    {r : Option (Option Buf)} (h : copyContents env big true w = .ok r w') :
    r = none ∧ env.ok w.next = false ∨ ∃ b, r = some (some b) ∧ env.ok w.next = true := by
  rw [copyContents, if_pos rfl] at h
  cases hok : env.ok w.next with
  | false =>
    rw [CM.bind_ok (malloc_none hok)] at h
    cases h
    exact Or.inl ⟨rfl, rfl⟩
  | true =>
    rw [CM.bind_ok (malloc_some hok)] at h
    dsimp only at h
    by_cases hlt : big.contents.length < big.size.toNat
    · rw [if_pos hlt] at h
      cases h
    · rw [if_neg hlt] at h
      obtain ⟨file, w₁, -, h⟩ := CM.bind_eq_ok.mp h
      obtain ⟨file', w₂, -, h⟩ := CM.bind_eq_ok.mp h
      cases h
      exact Or.inr ⟨file', rfl, rfl⟩

theorem deliverBigfile_lost {env : HeapEnv} {st st' : BigfileState} {big : Block BigfileRecv}
    {ret : Int} {out : BigfileOut} {w w' : World}
    (h : deliverBigfile env st big ⟨true, true, true⟩ w = .ok (ret, out, st') w') :
    (if ret = 0 then 0 else out.bufs) = 0 ↔
      ¬ (big.val.count = big.val.next ∧ env.ok w.next = true ∧ env.ok (w.next + 1) = false) := by
  obtain ⟨⟨ret₁, out₁⟩, w₁, hext, h⟩ := CM.bind_eq_ok.mp h
  have hret : ret = ret₁ ∧ out = out₁ := by
    have hspec := extractBigfile_spec env big.val ⟨true, true, true⟩ w
    rw [hext] at hspec
    rcases hspec with rfl | ⟨rfl, -⟩
    · cases h
      exact ⟨rfl, rfl⟩
    · obtain ⟨-, w₂, -, h⟩ := CM.bind_eq_ok.mp h
      cases h
      exact ⟨rfl, rfl⟩
  obtain ⟨rfl, rfl⟩ := hret
  rw [extractBigfile] at hext
  by_cases hcount : big.val.count = big.val.next
  swap
  · rw [if_pos hcount] at hext
    cases hext
    simp [hcount, BigfileOut.bufs, bufs]
  rw [if_neg (not_not.mpr hcount)] at hext
  obtain ⟨name, w₂, hname, hext⟩ := CM.bind_eq_ok.mp hext
  obtain ⟨⟨rfl, hno⟩ | ⟨b, rfl, hyes⟩, hnext⟩ := copyFilename_granted hname
  · cases hext
    simp [hno, BigfileOut.bufs, bufs]
  obtain ⟨file, w₃, hfile, hext⟩ := CM.bind_eq_ok.mp hext
  rw [← hnext]
  obtain ⟨rfl, hno'⟩ | ⟨b', rfl, hyes'⟩ := copyContents_granted hfile
  · cases hext
    simp [hcount, hyes, hno', BigfileOut.bufs, bufs]
  · cases hext
    simp [hyes']

theorem copySmallfile_lost {env : HeapEnv} {buf name : Buf} {contentsSize : Int} {k : Nat}
    {r : Int × Option Buf × Option Buf} {w w' : World}
    (h : copySmallfile env buf name contentsSize k w = .ok r w') :
    (if 0 < r.1 then 0 else fileBufs r) = 0 ↔
      ((decode16 buf.mem k).toNat : Int) = contentsSize - k - tcpPacket3DataSizeLen ∧
        env.ok w.next = true ∧ decode16 buf.mem k ≠ 0 := by
  have hsize : convertBuf2short buf.mem k = decode16 buf.mem k := rfl
  by_cases hfit : ((decode16 buf.mem k).toNat : Int) = contentsSize - k - tcpPacket3DataSizeLen
  swap
  · rw [copySmallfile_mismatch (hsize ▸ hfit)] at h
    cases h
    simp [hfit, fileBufs, bufs]
  cases hok : env.ok w.next with
  | false =>
    rw [copySmallfile, hsize, if_neg (not_not.mpr hfit), CM.bind_ok (malloc_none hok)] at h
    cases h
    simp [fileBufs, bufs]
  | true =>
    rw [copySmallfile_match hok rfl (hsize ▸ hfit)] at h
    cases h
    have hpos : (0 : Int) < (decode16 buf.mem k).toNat ↔ decode16 buf.mem k ≠ 0 := by
      rw [Ne, ← UInt16.toNat_inj]
      exact Int.natCast_pos.trans Nat.pos_iff_ne_zero
    rw [hsize]
    by_cases hzero : decode16 buf.mem k = 0
    · simp [hzero, fileBufs, bufs]
    · rw [if_pos (hpos.mpr hzero)]
      simp [hzero, hfit]

theorem getFileFromPacket_lost {env : HeapEnv} {p : TcpPacket3} {r : Int × Option Buf × Option Buf}
    {w w' : World} (h : getFileFromPacket env p w = .ok r w') :
    (if 0 < r.1 then 0 else fileBufs r) = 0 ↔ smallKept env p w.next = false := by
  rw [getFileFromPacket] at h
  by_cases hno : p.type ≠ tcpPacket3TypeSmallfile ∨ p.dataSize = 0
  · rw [if_pos hno] at h
    cases h
    have hkept : smallKept env p w.next = false := by
      rcases hno with ht | hz
      · simp [smallKept, ht]
      · simp [smallKept, hz]
    simp [hkept, fileBufs, bufs]
  rw [if_neg hno] at h
  simp only [not_or, not_not] at hno
  obtain ⟨b, w₁, hx, h⟩ := CM.bind_eq_ok.mp h
  have hspec := extractPacketContents_spec env p w
  rw [hx] at hspec
  cases hspec with
  | empty hz => exact absurd hz hno.2
  | refused hz hok =>
    cases h
    simp [smallKept, hok, fileBufs, bufs]
  | extracted hz hok =>
    rw [smallKept]
    simp only [hno.1, hno.2, hok, decide_true, Bool.true_and, decide_not, ne_eq, not_false_eq_true]
    dsimp only at h
    cases hk : memchr (plaintext env p w.next) 0 0 (sizeT (getPacketPlainContentsSize p)) with
    | none =>
      rw [hk] at h
      cases h
      simp [fileBufs, bufs]
    | some k =>
      rw [hk] at h
      dsimp only at h ⊢
      obtain ⟨name, w₂, hdup, h⟩ := CM.bind_eq_ok.mp h
      obtain ⟨hsome, hnext⟩ := strndup_granted hdup
      dsimp only at hsome hnext
      cases name with
      | none =>
        cases h
        simp [fileBufs, bufs, ← hsome]
      | some name =>
        dsimp only at h
        have hlost := copySmallfile_lost h
        have hcalc : getPacketPlainContentsSize p - (k + 1 : Nat) - tcpPacket3DataSizeLen =
            getPacketPlainContentsSize p - (k + 3 : Nat) := by
          rw [tcpPacket3DataSizeLen]
          omega
        rw [hcalc, hnext] at hlost
        rw [hlost, ← hsome, Option.isSome_some, Bool.true_and]
        simp [and_assoc]

/-- A call that returns `r` has lost `L`, the copies of a successful one apart. -/
def BigfileLoses (env : HeapEnv) (st : BigfileState) (w w' : World)
    (r : Int × BigfileOut × BigfileState) (L : Multiset Nat) : Prop :=
  (heap env).Trades (blocks st.pBig)
    (blocks r.2.2.pBig + (if r.1 = 0 then r.2.1.bufs else 0) + L) w w'

theorem BigfileLoses.nothing {env : HeapEnv} {st : BigfileState} {w w' : World}
    {r : Int × BigfileOut × BigfileState}
    (h : (heap env).Trades (blocks st.pBig) (callBufs r) w w') (hr : r.1 = 0 ∨ r.2.1 = {}) :
    BigfileLoses env st w w' r 0 := by
  refine h.congr rfl ?_
  rw [add_zero, callBufs]
  rcases hr with h0 | hout
  · rw [if_pos h0]
  · rw [hout]
    split_ifs <;> rfl

theorem callBufs_split (r : Int × BigfileOut × BigfileState) :
    callBufs r = blocks r.2.2.pBig + (if r.1 = 0 then r.2.1.bufs else 0) +
      if r.1 = 0 then 0 else r.2.1.bufs := by
  rw [callBufs]
  split_ifs
  · rw [add_zero]
  · rw [add_zero]

theorem bigfileEnd_lost {env : HeapEnv} {st : BigfileState} {big : Block BigfileRecv} {buf : Buf}
    {r : Int × BigfileOut × BigfileState} {w w' : World}
    (h : bigfileEnd env st big buf ⟨true, true, true⟩ w = .ok r w') :
    (if r.1 = 0 then 0 else r.2.1.bufs) = 0 ↔ ¬ (st.remainSize = 0 ∧ st.remainCount = 0 ∧
      peek buf.mem 1 = tcpPacket3BigfileChecksumTypeNone ∧ big.val.count = big.val.next ∧
      env.ok w.next = true ∧ env.ok (w.next + 1) = false) := by
  by_cases hdone : st.remainSize = 0 ∧ st.remainCount = 0 ∧
      peek buf.mem 1 = tcpPacket3BigfileChecksumTypeNone
  · rw [bigfileEnd_complete hdone] at h
    rw [deliverBigfile_lost h]
    simp only [hdone, true_and]
  · rw [bigfileEnd_pending hdone] at h
    cases h
    refine ⟨fun _ hall => ?_, fun _ => rfl⟩
    exact hdone ⟨hall.1, hall.2.1, hall.2.2.1⟩

theorem bigfileEnd_loses {env : HeapEnv} {st : BigfileState} {big : Block BigfileRecv} {buf : Buf}
    {r : Int × BigfileOut × BigfileState} {w w' : World} (hbig : st.pBig = some big)
    (h : bigfileEnd env st big buf ⟨true, true, true⟩ w = .ok r w') :
    ∃ L, (heap env).Trades (blocks st.pBig + {buf.addr})
        (blocks r.2.2.pBig + (if r.1 = 0 then r.2.1.bufs else 0) + L) w w' ∧
      (L = 0 ↔ ¬ (st.remainSize = 0 ∧ st.remainCount = 0 ∧
        peek buf.mem 1 = tcpPacket3BigfileChecksumTypeNone ∧ big.val.count = big.val.next ∧
        env.ok w.next = true ∧ env.ok (w.next + 1) = false)) := by
  have hspends := spends_bigfileEnd buf ⟨true, true, true⟩ hbig w r w' h
  refine ⟨if r.1 = 0 then 0 else r.2.1.bufs, ?_, bigfileEnd_lost h⟩
  rw [← callBufs_split, hbig]
  exact hspends

theorem bigfileStart_loses {env : HeapEnv} {st : BigfileState} {p : TcpPacket3}
    {r : Int × BigfileOut × BigfileState} {w w' : World} (h : bigfileStart env st p w = .ok r w') :
    BigfileLoses env st w w' r 0 := by
  refine .nothing (spends_bigfileStart st p w r w' h) (Or.inr ?_)
  obtain ⟨-, w₁, -, h⟩ := CM.bind_eq_ok.mp h
  obtain ⟨big, w₂, -, h⟩ := CM.bind_eq_ok.mp h
  cases big with
  | none => cases h; rfl
  | some big => cases h; rfl

theorem bigfileFrag_result {st : BigfileState} {big : Block BigfileRecv} {buf : Buf}
    {contentsSize : Int} {r : Int × BigfileOut × BigfileState} {w w' : World}
    (h : bigfileFrag st big buf contentsSize w = .ok r w') :
    r.2.1 = {} ∧ (r.1 = 1 ↔ (firstFragment st big).remainCount ≠ 0 ∧
      fragmentAccepted buf.mem contentsSize big.val.next (firstFragment st big).remainSize =
        true) := by
  have hne : (-1 : Int) ≠ 1 := by decide
  by_cases hcount : (firstFragment st big).remainCount = 0
  · rw [bigfileFrag_refuses (Or.inl hcount)] at h
    cases h
    exact ⟨rfl, fun h => absurd h hne, fun h => absurd hcount h.1⟩
  rw [fragmentAccepted_iff]
  cases hp : fragmentPayload buf.mem contentsSize big.val.next (firstFragment st big).remainSize with
  | error f =>
    rw [bigfileFrag, bigfileFragBy, if_neg hcount, hp] at h
    cases h
  | ok payload =>
    cases payload with
    | none =>
      rw [bigfileFrag_refuses (Or.inr hp)] at h
      cases h
      refine ⟨rfl, fun h => absurd h hne, ?_⟩
      rintro ⟨-, payload, hpay⟩
      cases hpay
    | some payload =>
      rw [bigfileFrag, bigfileFragBy, if_neg hcount, hp] at h
      obtain ⟨contents, w₁, -, h⟩ := CM.bind_eq_ok.mp h
      cases h
      exact ⟨rfl, fun _ => ⟨hcount, payload, rfl⟩, fun _ => rfl⟩

theorem bigfileFrag_loses {env : HeapEnv} {st : BigfileState} {big : Block BigfileRecv} {buf : Buf}
    {contentsSize : Int} {r : Int × BigfileOut × BigfileState} {w w' : World}
    (hbig : st.pBig = some big) (h : bigfileFrag st big buf contentsSize w = .ok r w') :
    ∃ L, (heap env).Trades (blocks st.pBig + {buf.addr})
        (blocks r.2.2.pBig + (if r.1 = 0 then r.2.1.bufs else 0) + L) w w' ∧
      (L = 0 ↔ ¬ ((firstFragment st big).remainCount ≠ 0 ∧
        fragmentAccepted buf.mem contentsSize big.val.next (firstFragment st big).remainSize =
          true)) := by
  have hspends := @spends_bigfileFrag env st big buf contentsSize hbig w r w' h
  obtain ⟨hout, hret⟩ := bigfileFrag_result h
  refine ⟨if r.1 = 1 then {buf.addr} else 0, hspends.congr (by rw [hbig]; rfl) ?_, ?_⟩
  · have hnone : (if r.1 = 0 then r.2.1.bufs else 0) = r.2.1.bufs := by
      rw [hout]
      split_ifs <;> rfl
    rw [hnone]
    rfl
  · rw [← hret]
    split_ifs with hone <;> simp [hone]

theorem receiveBigfileFromPacket_loses {env : HeapEnv} {st : BigfileState} {p : TcpPacket3}
    {r : Int × BigfileOut × BigfileState} {w w' : World}
    (h : receiveBigfileFromPacket env st (some p) ⟨true, true, true⟩ w = .ok r w') :
    ∃ L, BigfileLoses env st w w' r L ∧
      (L = 0 ↔ endKept env st p w.next = false ∧ fragKept env st p w.next = false) := by
  have hnothing : ∀ {r : Int × BigfileOut × BigfileState} {w'},
      (heap env).Trades (blocks st.pBig) (callBufs r) w w' → r.2.1 = {} →
      endKept env st p w.next = false ∧ fragKept env st p w.next = false →
      ∃ L, BigfileLoses env st w w' r L ∧
        (L = 0 ↔ endKept env st p w.next = false ∧ fragKept env st p w.next = false) :=
    fun ht hout hno => ⟨0, .nothing ht (Or.inr hout), fun _ => hno, fun _ => rfl⟩
  have hidle : callBufs (-1, {}, st) = blocks st.pBig := add_zero _
  rw [receiveBigfileFromPacket, receiveBigfileFromPacketBy] at h
  by_cases hz : p.dataSize = 0
  · rw [if_pos hz] at h
    cases h
    exact hnothing (hidle ▸ .refl _ _ _) rfl (by simp [endKept, fragKept, hz])
  rw [if_neg hz] at h
  by_cases hstart : p.type = tcpPacket3TypeBigfileStart
  · rw [if_pos hstart] at h
    refine ⟨0, bigfileStart_loses h, fun _ => ?_, fun _ => rfl⟩
    constructor
    · rw [endKept, hstart]
      rfl
    · rw [fragKept, hstart]
      rfl
  rw [if_neg hstart] at h
  by_cases hother : p.type ≠ tcpPacket3TypeBigfileFrag ∧ p.type ≠ tcpPacket3TypeBigfileEnd
  · rw [if_pos hother] at h
    cases h
    exact hnothing (hidle ▸ .refl _ _ _) rfl (by simp [endKept, fragKept, hother])
  rw [if_neg hother] at h
  cases hbig : st.pBig with
  | none =>
    rw [hbig] at h
    cases h
    exact hnothing (hidle ▸ .refl _ _ _) rfl (by simp [endKept, fragKept, hbig])
  | some big =>
    rw [hbig] at h
    dsimp only at h
    obtain ⟨b, w₁, hx, h⟩ := CM.bind_eq_ok.mp h
    have hxspends := spends_extractPacketContents p w b w₁ hx
    have hspec := extractPacketContents_spec env p w
    rw [hx] at hspec
    cases hspec with
    | empty hz' => exact absurd hz' hz
    | refused _ hok =>
      have hdrop : (heap env).Trades (blocks st.pBig) 0 w
          { w with next := w.next + 1, frees := big.addr :: w.frees } :=
        ((hxspends.frame {big.addr}).congr (by rw [hbig]; exact zero_add _) (zero_add _)).trans
          (spends_free big.addr _ () _ rfl)
      cases h
      exact hnothing hdrop rfl (by simp [endKept, fragKept, hok])
    | extracted _ hok =>
      have hpre := (hxspends.frame (blocks st.pBig)).congr (zero_add _) (add_comm _ _)
      dsimp only at h
      by_cases hid : peek (plaintext env p w.next) 0 = big.val.id
      swap
      · rw [if_pos hid] at h
        cases h
        have hfree := ((@spends_free env w.next { w with next := w.next + 1 } () _ rfl).frame
          (blocks st.pBig)).congr (add_comm _ _) (zero_add _)
        exact hnothing (hidle ▸ hpre.trans hfree) rfl (by simp [endKept, fragKept, hbig, hid])
      rw [if_neg (not_not.mpr hid)] at h
      by_cases hend : p.type = tcpPacket3TypeBigfileEnd
      · rw [if_pos hend] at h
        obtain ⟨L, htrades, hL⟩ := bigfileEnd_loses hbig h
        refine ⟨L, hpre.trans htrades, hL.trans ?_⟩
        simp [endKept, fragKept, hend, hz, hok, hbig, hid, tcpPacket3TypeBigfileFrag,
          tcpPacket3TypeBigfileEnd]
      · rw [if_neg hend] at h
        have hfrag : p.type = tcpPacket3TypeBigfileFrag := by
          by_contra hne
          exact hother ⟨hne, hend⟩
        obtain ⟨L, htrades, hL⟩ := @bigfileFrag_loses env _ _ _ _ _ _ _ hbig h
        refine ⟨L, hpre.trans htrades, hL.trans ?_⟩
        simp [endKept, fragKept, hfrag, hz, hok, hbig, hid, tcpPacket3TypeBigfileFrag,
          tcpPacket3TypeBigfileEnd]

theorem processPacketType_loses {env : HeapEnv} {st st' : BigfileState} {p : TcpPacket3}
    {w w' : World} (h : processPacketType env st p w = .ok st' w') :
    ∃ L, (heap env).Trades (blocks st.pBig) (blocks st'.pBig + L) w w' ∧
      (L = 0 ↔ typeLeaks env st p w.next = false) := by
  rw [typeLeaks, processPacketType] at *
  by_cases hcmd : p.type = tcpPacket3TypeCmdline
  · rw [if_pos hcmd] at h
    obtain ⟨⟨⟩, w₁, hrun, h⟩ := CM.bind_eq_ok.mp h
    cases h
    refine ⟨0, ((spends_processCmdline p w () _ hrun).frame _).congr (zero_add _) ?_, ?_⟩
    · rw [zero_add, add_zero]
    · simp [smallKept, endKept, fragKept, hcmd, tcpPacket3TypeCmdline, tcpPacket3TypeSmallfile,
        tcpPacket3TypeBigfileFrag, tcpPacket3TypeBigfileEnd]
  rw [if_neg hcmd] at h
  by_cases hsmall : p.type = tcpPacket3TypeSmallfile
  · rw [if_pos hsmall] at h
    obtain ⟨⟨⟩, w₁, hrun, h⟩ := CM.bind_eq_ok.mp h
    cases h
    obtain ⟨r, w₂, hget, hrun⟩ := CM.bind_eq_ok.mp hrun
    have hgot := spends_getFileFromPacket p w r w₂ hget
    refine ⟨if 0 < r.1 then 0 else fileBufs r, ?_, (getFileFromPacket_lost hget).trans ?_⟩
    · have hpost : (heap env).Trades (fileBufs r) (if 0 < r.1 then 0 else fileBufs r) w₂ w' := by
        obtain ⟨size, name, file⟩ := r
        dsimp only at hrun ⊢
        by_cases hpos : size > 0
        · rw [if_pos hpos] at hrun ⊢
          exact spends_showFile size name file w₂ () w' hrun
        · rw [if_neg hpos] at hrun ⊢
          cases hrun
          exact .refl _ _ _
      exact ((hgot.trans hpost).frame (blocks st.pBig)).congr (zero_add _) (add_comm _ _)
    · simp [endKept, fragKept, hsmall, tcpPacket3TypeSmallfile, tcpPacket3TypeBigfileFrag,
        tcpPacket3TypeBigfileEnd]
  rw [if_neg hsmall] at h
  by_cases hbigfile : p.type = tcpPacket3TypeBigfileStart ∨ p.type = tcpPacket3TypeBigfileFrag ∨
      p.type = tcpPacket3TypeBigfileEnd
  · rw [if_pos hbigfile] at h
    obtain ⟨⟨ret, out, st₁⟩, w₁, hrecv, h⟩ := CM.bind_eq_ok.mp h
    obtain ⟨L, htrades, hL⟩ := receiveBigfileFromPacket_loses hrecv
    have hquiet : smallKept env p w.next = false := by simp [smallKept, hsmall]
    refine ⟨L, ?_, hL.trans (by simp [hquiet])⟩
    dsimp only at h
    by_cases hret : ret = 0
    · rw [if_pos hret] at h
      obtain ⟨⟨⟩, w₂, hshow, h⟩ := CM.bind_eq_ok.mp h
      cases h
      have hfreed := (@spends_showFile env _ out.name out.file w₁ () _ hshow).frame (blocks st'.pBig + L)
      refine htrades.trans (hfreed.congr ?_ (zero_add _))
      dsimp only
      rw [if_pos hret, add_left_comm, ← add_assoc]
      rfl
    · rw [if_neg hret] at h
      cases h
      exact htrades.congr rfl (by dsimp only; rw [if_neg hret, add_zero])
  · rw [if_neg hbigfile] at h
    cases h
    refine ⟨0, (add_zero (blocks st.pBig)).symm ▸ .refl _ _ _, ?_⟩
    simp only [not_or] at hbigfile
    simp [smallKept, endKept, fragKept, hsmall, hbigfile]

theorem still_fillPacketData (flag : UInt32) (p : TcpPacket3) (buf : List UInt8)
    (bufSize : UInt16) (contentsSize : Int) :
    Lockstep.Moves Still (fillPacketData flag p buf bufSize contentsSize) := by
  have hstore : ∀ f buf i bs, Lockstep.Moves Still (store f buf i bs) :=
    fun f buf i bs => .ite (.pure _) fun _ => ⟨rfl, rfl⟩
  exact .bind (hstore _ _ _ _) fun _ => .bind (.ite (hstore _ _ _ _) (.pure _)) fun _ =>
    .ite (.bind (hstore _ _ _ _) fun _ => .pure _) (.pure _)

theorem createTcpPacket3_plain_next {env : HeapEnv} {mem : List UInt8} {n : Int} {w w' : World}
    {r : Option (Block TcpPacket3)} (h : createTcpPacket3 env 0 0 (some mem) n w = .ok r w') :
    w'.next = w.next + if n ≤ tcpPacket3MaxContentsSize then 1 else 0 := by
  have he : argHasEncryption 0 = false := rfl
  have hrecord : ∀ buf bufSize size,
      createTcpPacket3Record env 0 0 buf bufSize size w = .ok r w' → w'.next = w.next + 1 := by
    intro buf bufSize size h
    obtain ⟨p, w₁, halloc, h⟩ := CM.bind_eq_ok.mp h
    obtain ⟨b, w₂, hmalloc, halloc⟩ := CM.bind_eq_ok.mp halloc
    cases hmalloc
    cases hb : env.ok w.next with
    | false =>
      rw [hb] at halloc
      cases halloc
      cases h
      rfl
    | true =>
      rw [hb] at halloc
      cases halloc
      dsimp only at h
      by_cases hpos : size > 0
      · rw [if_pos hpos] at h
        obtain ⟨val, w₃, hfill, h⟩ := CM.bind_eq_ok.mp h
        cases h
        exact (Still.of_ok (still_fillPacketData _ _ _ _ _) hfill).1
      · rw [if_neg hpos] at h
        cases h
        rfl
  rw [createTcpPacket3] at h
  by_cases hmax : n > tcpPacket3MaxContentsSize
  · rw [if_pos hmax] at h
    cases h
    rw [if_neg (not_le.mpr hmax), add_zero]
  · rw [if_neg hmax, he] at h
    rw [if_pos (not_lt.mp hmax)]
    dsimp only at h
    by_cases hpos : n ≤ 0
    · rw [if_pos hpos] at h
      exact hrecord _ _ _ h
    · rw [if_neg hpos, if_neg (by decide)] at h
      exact hrecord _ _ _ h

theorem echoPlainPacket_next {env : HeapEnv} {p : TcpPacket3} {w w' : World}
    (h : echoPlainPacket env p w = .ok () w') :
    w'.next = w.next + echoAllocs env p w.next := by
  rw [echoPlainPacket] at h
  rw [echoAllocs]
  by_cases he : isPacketEncrypted p = true
  swap
  · rw [if_neg he] at h
    cases h
    rw [if_neg (fun hh => he hh.1), add_zero]
  rw [if_pos he] at h
  obtain ⟨b, w₁, hx, h⟩ := CM.bind_eq_ok.mp h
  have hspec := extractPacketContents_spec env p w
  rw [hx] at hspec
  cases hspec with
  | empty hz =>
    cases h
    rw [if_neg (fun hh => hh.2 hz), add_zero]
  | refused hz hok =>
    cases h
    rw [if_pos ⟨he, hz⟩, hok, if_neg (fun hh => absurd hh.1 (by decide))]
  | extracted hz hok =>
    obtain ⟨⟨⟩, w₂, hshow, h⟩ := CM.bind_eq_ok.mp h
    obtain ⟨pSend, w₃, hcreate, h⟩ := CM.bind_eq_ok.mp h
    obtain ⟨⟨⟩, w₄, hsend, h⟩ := CM.bind_eq_ok.mp h
    cases h
    cases hshow
    have hnext := createTcpPacket3_plain_next hcreate
    have hsent : w₄.next = w₃.next := by
      cases pSend with
      | none => cases hsend; rfl
      | some b =>
        obtain ⟨r, w₅, hs, hsend⟩ := CM.bind_eq_ok.mp hsend
        cases hsend
        exact (Still.of_ok (still_sendTcpPacket3 b.val) hs).1
    have henc : isPacketEncrypted p = true ∧ p.dataSize ≠ 0 := ⟨he, hz⟩
    show w₄.next = _
    rw [hsent, hnext, if_pos henc]
    by_cases hmax : (p.orgSize.toNat : Int) ≤ tcpPacket3MaxContentsSize
    · rw [if_pos hmax, if_pos ⟨hok, hmax⟩]
    · rw [if_neg hmax, if_neg (fun hh => hmax hh.2)]

theorem tcpPacket3Processor_loses {env : HeapEnv} {st st' : BigfileState}
    {phead phead' : List (Block TcpPacket3)} {w w' : World}
    (h : tcpPacket3Processor env st phead w = .ok (phead', st') w') :
    ∃ L, (heap env).Trades (owned st phead) (owned st' phead' + L) w w' ∧
      (L = 0 ↔ leaks env st phead w = false) := by
  cases phead with
  | nil =>
    cases h
    exact ⟨0, (add_zero (owned st [])).symm ▸ .refl _ _ _, fun _ => rfl, fun _ => rfl⟩
  | cons p phead =>
    obtain ⟨⟨⟩, w₀, hline, h⟩ := CM.bind_eq_ok.mp h
    obtain ⟨⟨⟩, w₁, hprint, h⟩ := CM.bind_eq_ok.mp h
    obtain ⟨⟨⟩, w₂, hecho, h⟩ := CM.bind_eq_ok.mp h
    obtain ⟨st₁, w₃, htype, h⟩ := CM.bind_eq_ok.mp h
    obtain ⟨⟨⟩, w₄, hfree, h⟩ := CM.bind_eq_ok.mp h
    cases h
    have hshown : Still w w₀ := Still.of_ok (still_printLine (receivedLine p.val)) hline
    have hstill : Still w w₁ :=
      IsTrans.trans _ _ _ hshown (Still.of_ok (still_printTcpPacket3 p.val 40) hprint)
    have hnext := echoPlainPacket_next hecho
    obtain ⟨L, htrades, hL⟩ := processPacketType_loses htype
    rw [hnext, hstill.1] at hL
    refine ⟨L, ?_, hL⟩
    have hbefore := (@Still.trades env _ _ hstill).trans (spends_echoPlainPacket p.val w₁ () w₂ hecho)
    have hqueue := (((hbefore.frame _).congr (zero_add _) (zero_add _)).trans htrades).frame
      ({p.addr} + (phead'.map Block.addr : Multiset Nat))
    have hdone := (@spends_free env p.addr w₃ () w' hfree).frame
      (blocks st'.pBig + L + (phead'.map Block.addr : Multiset Nat))
    refine (hqueue.trans (hdone.congr ?_ (zero_add _))).congr ?_ ?_
    · rw [add_left_comm]
    · rw [owned, List.map_cons, ← Multiset.cons_coe, Multiset.singleton_add]
    · rw [owned, add_right_comm]

/-- Packets are queued and processed, in any order and with any contents. The flag says that
no call has met the condition of `leaks`. -/
inductive ProcessorRun (env : HeapEnv) :
    Bool → BigfileState → List (Block TcpPacket3) → World → Prop
  | start {w : World} : w.next = 0 → w.frees = [] → ProcessorRun env true .start [] w
  | queued {clean : Bool} {st : BigfileState} {phead : List (Block TcpPacket3)} {w : World}
      (p : TcpPacket3) : ProcessorRun env clean st phead w → env.ok w.next = true →
      ProcessorRun env clean st (phead ++ [⟨w.next, p⟩]) { w with next := w.next + 1 }
  | refused {clean : Bool} {st : BigfileState} {phead : List (Block TcpPacket3)} {w : World} :
      ProcessorRun env clean st phead w → env.ok w.next = false →
      ProcessorRun env clean st phead { w with next := w.next + 1 }
  | network {clean : Bool} {st : BigfileState} {phead : List (Block TcpPacket3)} {w w' : World} :
      ProcessorRun env clean st phead w → Still w w' → ProcessorRun env clean st phead w'
  | processed {clean : Bool} {st st' : BigfileState} {phead phead' : List (Block TcpPacket3)}
      {w w' : World} : ProcessorRun env clean st phead w →
      tcpPacket3Processor env st phead w = .ok (phead', st') w' →
      ProcessorRun env (clean && !leaks env st phead w) st' phead' w'

theorem ProcessorRun.holds {env : HeapEnv} {clean : Bool} {st : BigfileState}
    {phead : List (Block TcpPacket3)} {w : World} (h : ProcessorRun env clean st phead w) :
    ∃ F, (heap env).Holds w (owned st phead + F) ∧ (F = 0 ↔ clean = true) := by
  induction h with
  | start hnext hfrees =>
    refine ⟨0, ?_, fun _ => rfl, fun _ => rfl⟩
    simp [Holds, heap, hnext, hfrees, owned, BigfileState.start, blocks]
  | queued p _ hok ih =>
    obtain ⟨F, hF, hclean⟩ := ih
    refine ⟨F, ?_, hclean⟩
    have hgain := (spends_malloc 0 _ _ _ (malloc_some hok)).gain hF
    have heq : ∀ (A B C : Multiset Nat), A + (B + C + F) = B + (C + A) + F := by
      intro A B C
      simp only [add_comm, add_left_comm]
    rw [owned, List.map_append, ← Multiset.coe_add, ← heq]
    exact hgain
  | refused _ hok ih =>
    obtain ⟨F, hF, hclean⟩ := ih
    have hgain := (spends_malloc 0 _ _ _ (malloc_none hok)).gain hF
    refine ⟨F, ?_, hclean⟩
    rwa [bufs, zero_add] at hgain
  | network _ hstill ih =>
    obtain ⟨F, hF, hclean⟩ := ih
    have hsame := (@Still.trades env _ _ hstill).gain hF
    exact ⟨F, by rwa [zero_add] at hsame, hclean⟩
  | processed _ hcall ih =>
    obtain ⟨F, hF, hclean⟩ := ih
    obtain ⟨L, htrades, hL⟩ := tcpPacket3Processor_loses hcall
    refine ⟨L + F, add_assoc _ L F ▸ htrades.holds hF, ?_⟩
    rw [← Multiset.card_eq_zero, Multiset.card_add, Nat.add_eq_zero_iff, Multiset.card_eq_zero,
      Multiset.card_eq_zero, hL, hclean, Bool.and_eq_true, Bool.not_eq_true', and_comm]

/-- In every run no block is freed twice, and none that is still in use has been freed. -/
theorem ProcessorRun.freed_once {env : HeapEnv} {clean : Bool} {st : BigfileState}
    {phead : List (Block TcpPacket3)} {w : World} (h : ProcessorRun env clean st phead w) :
    w.frees.Nodup ∧ ∀ addr ∈ owned st phead, addr ∉ w.frees := by
  obtain ⟨F, hF, -⟩ := h.holds
  obtain ⟨-, hfrees, hlive⟩ := hF.freed_once (heap_nodup env w)
  refine ⟨Multiset.coe_nodup.mp hfrees, fun addr hown hfreed => ?_⟩
  exact Multiset.disjoint_left.mp hlive (Multiset.mem_add.mpr (Or.inl hown)) hfreed

theorem tcpPacket3Processor_ledger {env : HeapEnv} {clean : Bool} {st : BigfileState}
    {phead : List (Block TcpPacket3)} {w : World} (h : ProcessorRun env clean st phead w) :
    ((heap env).Holds w (owned st phead) ↔ clean = true) ∧
      ∀ phead' st' w', tcpPacket3Processor env st phead w = .ok (phead', st') w' →
        ∃ F, (heap env).Holds w (owned st phead + F) ∧
          ((heap env).Holds w' (owned st' phead' + F) ↔ leaks env st phead w = false) := by
  obtain ⟨F, hF, hclean⟩ := h.holds
  constructor
  · rw [← hclean]
    constructor
    · intro hown
      exact add_eq_left.mp (hF.unique hown)
    · rintro rfl
      rwa [add_zero] at hF
  · intro phead' st' w' hcall
    obtain ⟨L, htrades, hL⟩ := tcpPacket3Processor_loses hcall
    have hafter := htrades.holds hF
    refine ⟨F, hF, ?_⟩
    rw [← hL]
    constructor
    · intro hown
      have heq := hafter.unique hown
      rw [add_right_comm] at heq
      exact add_eq_left.mp heq
    · rintro rfl
      rwa [add_zero] at hafter

/-- Transfer 7 of a file `"f"` of one byte. -/
def oneByteStart : TcpPacket3 := (startPacket [7, 102, 0, 49, 0, 49, 0] (by decide)).record

def oneByteFrag : TcpPacket3 := (fragPacket [7, 48, 0, 1, 0, 65] (by decide)).record

def oneByteState (next : UInt32) (contents : List UInt8) (remain : UInt32)
    (pContents : Option (Nat × Nat)) : BigfileState :=
  ⟨some ⟨2, { BigfileInfo.record ⟨7, [102], 1, 1⟩ with next, contents }⟩, remain, remain, pContents⟩

/-- The start packet has been processed and the fragment is waiting. -/
def oneByteWorld : World where
  next := 4
  frees := [0, 1]
  console := oneByteStart.data
  lines := [receivedLine oneByteStart, packetLine oneByteStart]

theorem oneByteRun :
    ProcessorRun .ample true (oneByteState 0 (List.replicate 7 0) 0 none) [⟨3, oneByteFrag⟩]
      oneByteWorld := by
  have hqueued := ProcessorRun.queued oneByteStart (@ProcessorRun.start .ample {} rfl rfl) rfl
  have hcall : tcpPacket3Processor .ample .start [⟨0, oneByteStart⟩] { next := 1 } =
      .ok ([], oneByteState 0 (List.replicate 7 0) 0 none)
        { oneByteWorld with next := 3 } := by
    decide +kernel
  have hclean : leaks .ample .start [⟨0, oneByteStart⟩] { next := 1 } = false := by decide
  have hrun := ProcessorRun.processed hqueued hcall
  have hlast := hrun.queued oneByteFrag rfl
  rwa [List.nil_append, List.nil_append, hclean] at hlast

theorem tcpPacket3Processor_ledger_start :
    (heap .ample).Holds oneByteWorld
      (owned (oneByteState 0 (List.replicate 7 0) 0 none) [⟨3, oneByteFrag⟩]) :=
  (tcpPacket3Processor_ledger oneByteRun).1.mpr rfl

/-- The fragment is accepted, and the fifth block is lost. -/
theorem tcpPacket3Processor_leaks :
    ∃ st' w', tcpPacket3Processor .ample (oneByteState 0 (List.replicate 7 0) 0 none)
        [⟨3, oneByteFrag⟩] oneByteWorld = .ok ([], st') w' ∧
      ProcessorRun .ample true (oneByteState 0 (List.replicate 7 0) 0 none) [⟨3, oneByteFrag⟩]
        oneByteWorld ∧
      (heap .ample).Holds w' (owned st' [] + {4}) ∧ ¬ (heap .ample).Holds w' (owned st' []) := by
  obtain ⟨w', hw'⟩ : ∃ w', w' = { oneByteWorld with
      next := 5, frees := [3, 0, 1], console := oneByteStart.data ++ oneByteFrag.data
      lines := oneByteWorld.lines ++ [receivedLine oneByteFrag, packetLine oneByteFrag] } := ⟨_, rfl⟩
  have hcall : tcpPacket3Processor .ample (oneByteState 0 (List.replicate 7 0) 0 none)
      [⟨3, oneByteFrag⟩] oneByteWorld =
        .ok ([], oneByteState 1 (65 :: List.replicate 6 0) 0 (some (2, 1))) w' := by
    rw [hw']
    decide +kernel
  have hlost : (heap .ample).Holds w'
      (owned (oneByteState 1 (65 :: List.replicate 6 0) 0 (some (2, 1))) [] + {4}) := by
    rw [Holds, hw']
    decide +kernel
  refine ⟨_, _, hcall, oneByteRun, hlost, fun h => ?_⟩
  have heq := hlost.unique h
  rw [add_eq_left] at heq
  exact absurd heq (by decide)

end NucleoW5500
