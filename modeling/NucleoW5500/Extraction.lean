import NucleoW5500.Contents
import NucleoW5500.Framer

/-! `extract_packet_contents` on a packet from the wire: when its lengths fit, and what it
then puts into the buffer. -/

namespace NucleoW5500

open CString

/-- The source and the number of bytes of the `memcpy` in `extract_packet_contents`. -/
def copiedFrom (p : TcpPacket3) : Nat :=
  if isPacketEncrypted p then getPacketContentsBuf p + 8 else getPacketContentsBuf p

def copiedSize (p : TcpPacket3) : Int :=
  if isPacketEncrypted p then getPacketContentsSize p - 8 else getPacketContentsSize p

def blockSize (p : TcpPacket3) : Nat :=
  (UInt32.ofInt
    ((if isPacketEncrypted p then getPacketPlainContentsSize p else getPacketContentsSize p) + 1)).toNat

theorem extractPacketContents_granted {env : HeapEnv} {p : TcpPacket3} {w : World}
    (hz : p.dataSize ≠ 0) (hok : env.ok w.next = true) :
    extractPacketContents env p w =
      (memcpy ⟨w.next, blockSize p, env.leftover w.next⟩ 0 p.data (copiedFrom p) (copiedSize p) >>=
        fun buf => pure (some buf)) { w with next := w.next + 1 } := by
  rw [extractPacketContents, if_neg hz]
  dsimp only
  by_cases he : isPacketEncrypted p = true
  · rw [if_pos he, CM.bind_ok (malloc_some hok), blockSize, copiedFrom, copiedSize, if_pos he,
      if_pos he, if_pos he]
    dsimp only
    rw [decryptContents, Lockstep.bind_apply, Lockstep.bind_apply, Lockstep.bind_apply]
    cases memcpy ⟨w.next, (UInt32.ofInt (getPacketPlainContentsSize p + 1)).toNat,
      env.leftover w.next⟩ 0 p.data (getPacketContentsBuf p + 8) (getPacketContentsSize p - 8)
      { w with next := w.next + 1 } <;> rfl
  · rw [if_neg he, CM.bind_ok (malloc_some hok), blockSize, copiedFrom, copiedSize, if_neg he,
      if_neg he, if_neg he]

theorem extractPacketContents_refused {env : HeapEnv} {p : TcpPacket3} {w : World}
    (hz : p.dataSize ≠ 0) (hok : env.ok w.next = false) :
    extractPacketContents env p w = .ok none { w with next := w.next + 1 } := by
  rw [extractPacketContents, if_neg hz]
  dsimp only
  by_cases he : isPacketEncrypted p = true
  · rw [if_pos he, CM.bind_ok (malloc_none hok)]
    rfl
  · rw [if_neg he, CM.bind_ok (malloc_none hok)]
    rfl

/-- A record whose `data` holds as many bytes as its header announces, at least one. -/
structure Whole (p : TcpPacket3) : Prop where
  length : p.data.length = p.dataSize.toNat
  pos : p.dataSize ≠ 0

theorem WirePacket.whole {q : WirePacket} (hq : q.data ≠ []) : Whole q.record := by
  have hr := q.received_record
  have hpos := List.length_pos_iff.mpr hq
  refine ⟨by rw [hr.data, hr.dataSize], fun hz => ?_⟩
  rw [← hr.dataSize, hz] at hpos
  exact absurd hpos (by decide)

/-- The lengths of the packet agree: the prefix its flags ask for is there, and an encrypted
packet announces a size that holds what it carries, or one byte less. -/
def Sized (p : TcpPacket3) : Prop :=
  if isPacketEncrypted p then
    getPacketContentsBuf p + 8 ≤ p.dataSize.toNat ∧
      p.dataSize.toNat ≤ getPacketContentsBuf p + 8 + p.orgSize.toNat + 1
  else getPacketContentsBuf p ≤ p.dataSize.toNat

instance (p : TcpPacket3) : Decidable (Sized p) := by
  unfold Sized
  infer_instance

/-- The bytes that end up in the buffer. -/
def extracted (p : TcpPacket3) : List UInt8 := p.data.drop (copiedFrom p)

theorem getPacketContentsSize_eq (p : TcpPacket3) :
    getPacketContentsSize p = p.dataSize.toNat - (getPacketContentsBuf p : Int) := by
  rw [getPacketContentsSize, getPacketContentsBuf]
  omega

theorem copiedSize_eq (p : TcpPacket3) : copiedSize p = p.dataSize.toNat - (copiedFrom p : Int) := by
  rw [copiedSize, copiedFrom, getPacketContentsSize_eq]
  split_ifs <;> omega

theorem blockSize_plain {p : TcpPacket3} (he : isPacketEncrypted p = false)
    (hle : getPacketContentsBuf p ≤ p.dataSize.toNat) :
    blockSize p = p.dataSize.toNat - getPacketContentsBuf p + 1 := by
  have hlt := p.dataSize.toNat_lt
  rw [blockSize, he, getPacketContentsSize_eq]
  simp only [Bool.false_eq_true, if_false, UInt32.ofInt, UInt32.toNat_ofNat']
  omega

theorem blockSize_encrypted {p : TcpPacket3} (he : isPacketEncrypted p = true) :
    blockSize p = p.orgSize.toNat + 1 := by
  have hlt := p.orgSize.toNat_lt
  rw [blockSize, he, getPacketPlainContentsSize]
  simp only [if_true, UInt32.ofInt, UInt32.toNat_ofNat']
  omega

theorem sized_iff (p : TcpPacket3) :
    Sized p ↔ copiedFrom p ≤ p.dataSize.toNat ∧ p.dataSize.toNat - copiedFrom p ≤ blockSize p := by
  rw [Sized, copiedFrom]
  by_cases he : isPacketEncrypted p = true
  · rw [if_pos he, if_pos he, blockSize_encrypted he]
    omega
  · rw [if_neg he, if_neg he]
    constructor
    · intro hle
      rw [blockSize_plain (Bool.eq_false_iff.mpr he) hle]
      omega
    · exact And.left

theorem length_extracted {p : TcpPacket3} (hp : Whole p) :
    (extracted p).length = p.dataSize.toNat - copiedFrom p := by
  rw [extracted, List.length_drop, hp.length]

theorem fillTcpPacket3DataField_plain {p : TcpPacket3} (he : isPacketEncrypted p = false)
    (hle : getPacketContentsBuf p ≤ p.dataSize.toNat) :
    (fillTcpPacket3DataField p).orgSize.toNat = p.dataSize.toNat - getPacketContentsBuf p := by
  have hlt := p.dataSize.toNat_lt
  have he' : flagHasEncryption p.flag = false := he
  rw [getPacketContentsBuf, he'] at hle ⊢
  rw [fillTcpPacket3DataField]
  by_cases hz : p.dataSize = 0
  · rw [if_pos hz, hz]
    simp
  · rw [if_neg hz, he']
    simp only [Bool.false_eq_true, if_false, Nat.add_zero] at hle ⊢
    have hmod : (UInt16.ofNat (if flagHasChecksum p.flag = true then tcpPacket3DataChecksumLen
        else 0)).toNat = if flagHasChecksum p.flag = true then tcpPacket3DataChecksumLen else 0 := by
      rw [UInt16.toNat_ofNat']
      omega
    rw [UInt16.toNat_sub_of_le _ _ (UInt16.le_iff_toNat_le.mpr (hmod.trans_le hle)), hmod]

theorem plain_contentsSize {q : WirePacket} (he : isPacketEncrypted q.record = false)
    (hk : getPacketContentsBuf q.record ≤ q.data.length) :
    getPacketPlainContentsSize q.record = ((extracted q.record).length : Int) := by
  have hr := q.received_record
  have hflag : q.record.flag = (partialRecord q.header q.data).flag := hr.flag
  have hsize : (partialRecord q.header q.data).dataSize.toNat = q.data.length := q.dataSize_header
  have hbuf : getPacketContentsBuf q.record = getPacketContentsBuf (partialRecord q.header q.data) := by
    rw [getPacketContentsBuf, hflag]
    rfl
  have hplain := @fillTcpPacket3DataField_plain (partialRecord q.header q.data)
    (by rw [isPacketEncrypted, ← hflag]; exact he) (by rw [← hbuf, hsize]; exact hk)
  rw [extracted, copiedFrom, he, List.length_drop, hr.data, hbuf, ← hsize]
  exact congrArg Nat.cast hplain

theorem WirePacket.length_extracted_le {q : WirePacket} (hs : Sized q.record) :
    (extracted q.record).length ≤ q.record.orgSize.toNat + 1 := by
  have hr := q.received_record
  rw [Sized, hr.dataSize] at hs
  by_cases he : isPacketEncrypted q.record = true
  · rw [if_pos he] at hs
    rw [extracted, copiedFrom, if_pos he, List.length_drop, hr.data]
    omega
  · rw [if_neg he] at hs
    have hplain := plain_contentsSize (Bool.eq_false_iff.mpr he) hs
    rw [getPacketPlainContentsSize] at hplain
    omega

theorem extractPacketContents_tail {env : HeapEnv} {p : TcpPacket3} {w : World} (hp : Whole p)
    (hs : Sized p) (hok : env.ok w.next = true) (tail : List UInt8) :
    extractPacketContents env { p with data := p.data ++ tail } w =
      .ok (some ⟨w.next, blockSize p,
          extracted p ++ (env.leftover w.next).drop (extracted p).length⟩)
        { w with next := w.next + 1 } := by
  obtain ⟨hfrom, hblock⟩ := (sized_iff p).mp hs
  have hlen := length_extracted hp
  have hcount : copiedSize p = ((extracted p).length : Int) := by
    rw [copiedSize_eq, hlen]
    omega
  have hread : read (p.data ++ tail) (copiedFrom p) (extracted p).length = extracted p := by
    rw [read_eq_take (by rw [List.length_append, hp.length]; omega),
      List.drop_append_of_le_length (by rw [hp.length]; exact hfrom)]
    exact List.take_left
  have hcopy : memcpy ⟨w.next, blockSize p, env.leftover w.next⟩ 0 (p.data ++ tail) (copiedFrom p)
      (copiedSize p) { w with next := w.next + 1 } =
      .ok ⟨w.next, blockSize p, extracted p ++ (env.leftover w.next).drop (extracted p).length⟩
        { w with next := w.next + 1 } := by
    rw [hcount, memcpy_ok (by dsimp only; omega), hread, overwrite_zero]
  rw [@extractPacketContents_granted env { p with data := p.data ++ tail } w hp.pos hok]
  exact CM.bind_ok hcopy

theorem extractPacketContents_ok {env : HeapEnv} {p : TcpPacket3} {w : World} (hp : Whole p)
    (hs : Sized p) (hok : env.ok w.next = true) :
    extractPacketContents env p w =
      .ok (some ⟨w.next, blockSize p,
          extracted p ++ (env.leftover w.next).drop (extracted p).length⟩)
        { w with next := w.next + 1 } := by
  have h := extractPacketContents_tail hp hs hok []
  rwa [List.append_nil] at h

theorem extractPacketContents_fault {env : HeapEnv} {p : TcpPacket3} {w : World} (hp : Whole p)
    (hs : ¬ Sized p) (hok : env.ok w.next = true) :
    ∃ f, extractPacketContents env p w = .error (.fault f) { w with next := w.next + 1 } := by
  rw [sized_iff, not_and_or] at hs
  rw [extractPacketContents_granted hp.pos hok, copiedSize_eq, memcpy]
  by_cases hneg : (p.dataSize.toNat - (copiedFrom p : Int)) < 0
  · rw [if_pos hneg]
    exact ⟨_, rfl⟩
  · have hlong : blockSize p < 0 + (p.dataSize.toNat - (copiedFrom p : Int)).toNat := by omega
    rw [if_neg hneg, if_pos hlong]
    exact ⟨_, rfl⟩

/-- A copy with a negative length or one longer than the block faults, and one that leaves
the `data_size` bytes depends on what lies behind them. -/
structure LengthSafe (p : TcpPacket3) : Prop where
  returns : ∀ env w, ∃ r w', extractPacketContents env p w = .ok r w'
  inside : ∀ env w tail, extractPacketContents env { p with data := p.data ++ tail } w =
    extractPacketContents env p w

theorem extractPacketContents_lengthSafe_iff (q : WirePacket) (hq : q.data ≠ []) :
    LengthSafe q.record ↔ Sized q.record := by
  have hp := WirePacket.whole hq
  constructor
  · intro h
    by_contra hs
    obtain ⟨f, hf⟩ := @extractPacketContents_fault HeapEnv.ample q.record {} hp hs rfl
    obtain ⟨r, w', hr⟩ := h.returns HeapEnv.ample {}
    rw [hf] at hr
    cases hr
  · intro hs
    refine ⟨fun env w => ?_, fun env w tail => ?_⟩
    · cases hok : env.ok w.next with
      | false => exact ⟨_, _, extractPacketContents_refused hp.pos hok⟩
      | true => exact ⟨_, _, extractPacketContents_ok hp hs hok⟩
    · cases hok : env.ok w.next with
      | false =>
        rw [extractPacketContents_refused hp.pos hok]
        exact extractPacketContents_refused hp.pos hok
      | true => rw [extractPacketContents_tail hp hs hok tail, extractPacketContents_ok hp hs hok]

/-- `"hi"` with a checksum, encrypted. -/
def hiPacket : WirePacket :=
  ⟨tcpPacket3Version, tcpPacket3FlagBitChecksum ||| tcpPacket3FlagBitEncryption,
    tcpPacket3TypeCmdline, [0, 0, 2, 0] ++ encryptMark ++ [104, 105], by decide⟩

theorem extractPacketContents_lengthSafe_hi : LengthSafe hiPacket.record :=
  (extractPacketContents_lengthSafe_iff hiPacket (by decide)).mpr (by decide)

/-- A packet of one byte whose flags announce the two bytes of a checksum. -/
def loneBytePacket : WirePacket :=
  ⟨tcpPacket3Version, tcpPacket3FlagBitChecksum, tcpPacket3TypeCmdline, [65], by decide⟩

/-- The copy of minus one byte is one of `2 ^ 32 - 1` bytes. -/
theorem extractPacketContents_lone_byte :
    extractPacketContents HeapEnv.ample loneBytePacket.record {} =
        .error (.fault .copyLength) { next := 1 } ∧
      ¬ LengthSafe loneBytePacket.record := by
  have hf : extractPacketContents HeapEnv.ample loneBytePacket.record {} =
      .error (.fault .copyLength) { next := 1 } := by decide
  refine ⟨hf, fun h => ?_⟩
  obtain ⟨r, w', hr⟩ := h.returns HeapEnv.ample {}
  rw [hf] at hr
  cases hr

end NucleoW5500
