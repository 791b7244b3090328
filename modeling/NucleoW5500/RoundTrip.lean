import NucleoW5500.Sending

/-! A packet that `create_tcp_packet3` packs and `send_tcp_packet3` writes is received
as the record it was sent from, and its contents come out unchanged. -/

namespace NucleoW5500

open CString

structure Contents where
  bytes : List UInt8
  nonempty : bytes ≠ []
  fits : bytes.length ≤ 50000

section Layout

variable (flag : UInt32) (contents : List UInt8)

def wireBody : List UInt8 := if argHasEncryption flag then encryptMark ++ contents else contents

def wireOrgSize : List UInt8 :=
  if argHasEncryption flag then encode16 (UInt16.ofNat contents.length) else []

def wireChecksum : List UInt8 :=
  if argHasChecksum flag then
    encode16 (calcChecksum (wireOrgSize flag contents ++ wireBody flag contents) 0)
  else []

def wireData : List UInt8 :=
  wireChecksum flag contents ++ (wireOrgSize flag contents ++ wireBody flag contents)

theorem length_wireBody :
    (wireBody flag contents).length = contents.length + if argHasEncryption flag then 8 else 0 := by
  unfold wireBody
  split_ifs
  · rw [List.length_append, Nat.add_comm]
    rfl
  · rfl

theorem length_wireOrgSize :
    (wireOrgSize flag contents).length = if argHasEncryption flag then 2 else 0 := by
  unfold wireOrgSize
  split_ifs <;> simp

theorem length_wireChecksum :
    (wireChecksum flag contents).length = if argHasChecksum flag then 2 else 0 := by
  unfold wireChecksum
  split_ifs <;> simp

theorem length_wireData : (wireData flag contents).length =
    (if argHasChecksum flag then 2 else 0) +
      ((if argHasEncryption flag then 2 else 0) + (wireBody flag contents).length) := by
  simp [wireData, length_wireChecksum, length_wireOrgSize]

end Layout

theorem Contents.length_pos (c : Contents) : 0 < c.bytes.length :=
  List.length_pos_iff.mpr c.nonempty

theorem Contents.length_wireBody_le (c : Contents) (flag : UInt32) :
    0 < (wireBody flag c.bytes).length ∧ (wireBody flag c.bytes).length ≤ 50008 := by
  have h := c.length_pos
  have h' := c.fits
  rw [length_wireBody]
  split_ifs <;> omega

theorem Contents.length_wireData_lt (c : Contents) (flag : UInt32) :
    0 < (wireData flag c.bytes).length ∧ (wireData flag c.bytes).length < 65536 := by
  have h := c.length_wireBody_le flag
  rw [length_wireData]
  split_ifs <;> omega

def createdPacket (flag type : UInt32) (c : Contents) : WirePacket where
  version := tcpPacket3Version
  flag := (flag &&& tcpPacket3FieldMask).toUInt8
  type := (type &&& tcpPacket3FieldMask).toUInt8
  data := wireData flag c.bytes
  fits := (c.length_wireData_lt flag).2

theorem toUInt8_and_eq_zero {flag m : UInt32} (hm : m.toNat < 256) :
    (flag &&& tcpPacket3FieldMask).toUInt8 &&& m.toUInt8 = 0 ↔ flag &&& m = 0 := by
  have hff : tcpPacket3FieldMask &&& m = m := by
    apply UInt32.toNat_inj.mp
    rw [UInt32.toNat_and, Nat.and_comm]
    exact Nat.and_two_pow_sub_one_of_lt_two_pow (n := 8) hm
  rw [← UInt32.toUInt8_and, UInt32.and_assoc, hff]
  have hle : (flag &&& m).toNat < 256 := by
    rw [UInt32.toNat_and]
    exact lt_of_le_of_lt Nat.and_le_right hm
  rw [← UInt8.toNat_inj, ← UInt32.toNat_inj, UInt32.toNat_toUInt8, Nat.mod_eq_of_lt hle]
  rfl

theorem flagHasChecksum_created (flag : UInt32) :
    flagHasChecksum (flag &&& tcpPacket3FieldMask).toUInt8 = argHasChecksum flag :=
  decide_eq_decide.mpr (not_congr (@toUInt8_and_eq_zero flag 0x80 (by decide)))

theorem flagHasEncryption_created (flag : UInt32) :
    flagHasEncryption (flag &&& tcpPacket3FieldMask).toUInt8 = argHasEncryption flag :=
  decide_eq_decide.mpr (not_congr (@toUInt8_and_eq_zero flag 0x01 (by decide)))

theorem createTcpPacket3Header_created (flag type : UInt32) (c : Contents) :
    createTcpPacket3Header flag type (wireBody flag c.bytes).length =
      ((createdPacket flag type c).header, ((wireData flag c.bytes).length : Int)) := by
  have hlen : (wireData flag c.bytes).length = ((wireBody flag c.bytes).length +
      if argHasChecksum flag then 2 else 0) + if argHasEncryption flag then 2 else 0 := by
    rw [length_wireData]
    omega
  have hsize : (if argHasEncryption flag then
        (if argHasChecksum flag then ((wireBody flag c.bytes).length : Int) + 2
          else (wireBody flag c.bytes).length) + 2
      else if argHasChecksum flag then ((wireBody flag c.bytes).length : Int) + 2
        else (wireBody flag c.bytes).length) = ((wireData flag c.bytes).length : Int) := by
    rw [hlen]
    split_ifs <;> simp
  have h16 : UInt16.ofInt ((wireData flag c.bytes).length : Int) =
      UInt16.ofNat (wireData flag c.bytes).length := by
    apply UInt16.toNat_inj.mp
    rw [toNat_ofInt_of_lt (c.length_wireData_lt flag).2, UInt16.toNat_ofNat',
      Nat.mod_eq_of_lt (c.length_wireData_lt flag).2]
  simp only [createTcpPacket3Header, tcpPacket3DataChecksumLen, tcpPacket3DataSizeLen,
    Nat.cast_ofNat, hsize, h16]
  rfl

theorem store_middle (f : Fault) {a b bs c : List UInt8} (hb : bs.length = b.length) (w : World) :
    store f (a ++ (b ++ c)) a.length bs w = .ok (a ++ (bs ++ c)) w := by
  rw [store_ok (by simp [hb]), overwrite_at_length, hb, List.drop_left, List.append_assoc]

theorem calcChecksum_append (a b : List UInt8) :
    calcChecksum (a ++ b) a.length = calcChecksum b 0 := by
  simp [calcChecksum]

theorem ofInt_natCast (n : Nat) : UInt16.ofInt n = UInt16.ofNat n := by
  apply UInt16.toNat_inj.mp
  rw [UInt16.ofInt, UInt16.toNat_ofNat', UInt16.toNat_ofNat']
  omega

theorem fillPacketData_created {flag : UInt32} {c : Contents} {p : TcpPacket3}
    {buf : List UInt8} {bufSize : UInt16}
    (hbuf : read buf 0 bufSize.toNat = wireBody flag c.bytes)
    (hp : p.data = List.replicate (wireData flag c.bytes).length 0) (w : World) :
    fillPacketData flag p buf bufSize c.bytes.length w =
      .ok { p with
            data := wireData flag c.bytes
            orgSize := UInt16.ofNat c.bytes.length
            checksum := if argHasChecksum flag then
              calcChecksum (wireOrgSize flag c.bytes ++ wireBody flag c.bytes) 0 else p.checksum }
        w := by
  obtain ⟨zc, hzc⟩ : ∃ zc, zc = List.replicate (wireChecksum flag c.bytes).length (0 : UInt8) :=
    ⟨_, rfl⟩
  obtain ⟨zo, hzo⟩ : ∃ zo, zo = List.replicate (wireOrgSize flag c.bytes).length (0 : UInt8) :=
    ⟨_, rfl⟩
  obtain ⟨zb, hzb⟩ : ∃ zb, zb = List.replicate (wireBody flag c.bytes).length (0 : UInt8) :=
    ⟨_, rfl⟩
  have hcl : zc.length = if argHasChecksum flag then 2 else 0 := by
    rw [hzc, List.length_replicate, length_wireChecksum]
  have hol : zo.length = if argHasEncryption flag then 2 else 0 := by
    rw [hzo, List.length_replicate, length_wireOrgSize]
  have hdata : p.data = (zc ++ zo) ++ (zb ++ []) := by
    rw [hp, wireData, List.length_append, List.length_append, List.replicate_add,
      List.replicate_add, ← hzc, ← hzo, ← hzb, List.append_nil, List.append_assoc]
  have hoff : (if argHasEncryption flag then tcpPacket3DataSizeLen else 0) +
      (if argHasChecksum flag then tcpPacket3DataChecksumLen else 0) = (zc ++ zo).length := by
    rw [List.length_append, hcl, hol, Nat.add_comm]
    rfl
  have hbody := @store_middle .dataBounds (zc ++ zo) zb (wireBody flag c.bytes) [] (by simp [hzb]) w
  rw [← hdata] at hbody
  have horg : fillOrgSize flag ((zc ++ zo) ++ (wireBody flag c.bytes ++ [])) (zc ++ zo).length
      (UInt16.ofNat c.bytes.length) w =
        .ok (zc ++ (wireOrgSize flag c.bytes ++ wireBody flag c.bytes)) w := by
    rw [List.append_nil, List.append_assoc, List.length_append, hol, wireOrgSize, fillOrgSize]
    by_cases he : argHasEncryption flag = true
    · simp only [he, if_true, tcpPacket3DataSizeLen, Nat.add_sub_cancel]
      exact store_middle _ (by simp [hol, he, convertShort2buf]) w
    · have hz : zo = [] := List.eq_nil_of_length_eq_zero (by rw [hol, if_neg he])
      simp [he, hz]
  rw [fillPacketData, hbuf, hoff, CM.bind_ok hbody, ofInt_natCast, CM.bind_ok horg,
    fillChecksum]
  by_cases hk : argHasChecksum flag = true
  · have hk2 : tcpPacket3DataChecksumLen = zc.length := by rw [hcl, if_pos hk]; rfl
    have hlast := @store_middle .dataBounds [] zc
      (convertShort2buf (calcChecksum (wireOrgSize flag c.bytes ++ wireBody flag c.bytes) 0))
      (wireOrgSize flag c.bytes ++ wireBody flag c.bytes) (by simp [hcl, hk, convertShort2buf]) w
    simp only [List.nil_append, List.length_nil, Nat.cast_zero] at hlast
    rw [if_pos hk, hk2, calcChecksum_append, CM.bind_ok hlast, if_pos hk]
    simp only [CM.pure_apply, wireData, wireChecksum, hk, if_true]
    rfl
  · have hz : zc = [] := List.eq_nil_of_length_eq_zero (by rw [hcl, if_neg hk])
    rw [if_neg hk, if_neg hk, hz]
    simp [wireData, wireChecksum, hk]

theorem encryptContents_ok {bytes rest : List UInt8} {out : Buf}
    (hsize : out.size = bytes.length + 8) (w : World) :
    ∃ tail, encryptContents (bytes ++ rest) bytes.length out w =
      .ok ({ out with mem := (encryptMark ++ bytes) ++ tail }, (bytes.length : Int) + 8) w := by
  have hmark : read encryptMark 0 8 = encryptMark := rfl
  have hfirst := @memcpy_ok out encryptMark 0 0 8 (by omega) w
  have hsecond := @memcpy_ok { out with mem := overwrite out.mem 0 encryptMark } (bytes ++ rest) 0 8
    bytes.length (by dsimp only; omega) w
  have hm : overwrite out.mem 0 encryptMark = encryptMark ++ out.mem.drop 8 := by
    simp [overwrite, CString.read, encryptMark]
  have hb : overwrite (encryptMark ++ out.mem.drop 8) 8 bytes =
      (encryptMark ++ bytes) ++ (out.mem.drop 8).drop bytes.length :=
    overwrite_at_length encryptMark bytes (out.mem.drop 8)
  rw [hmark] at hfirst
  rw [read_append_left, hm, hb] at hsecond
  rw [hm] at hfirst
  refine ⟨(out.mem.drop 8).drop bytes.length, ?_⟩
  rw [encryptContents]
  exact (CM.bind_ok hfirst).trans (CM.bind_ok hsecond)

section Created

variable (flag type : UInt32) (c : Contents)

theorem partialRecord_full (p : WirePacket) :
    partialRecord p.header p.data = { partialRecord p.header [] with data := p.data } := by
  simp [partialRecord, tcpPacket3HeaderToField, p.dataSize_header]

theorem createdPacket_dataSize :
    (partialRecord (createdPacket flag type c).header []).dataSize =
      UInt16.ofNat (wireData flag c.bytes).length := by
  apply UInt16.toNat_inj.mp
  rw [UInt16.toNat_ofNat', Nat.mod_eq_of_lt (c.length_wireData_lt flag).2]
  exact (createdPacket flag type c).dataSize_header

theorem createdPacket_record :
    (createdPacket flag type c).record =
      { partialRecord (createdPacket flag type c).header [] with
        data := wireData flag c.bytes
        orgSize := UInt16.ofNat c.bytes.length
        checksum := if argHasChecksum flag then
          calcChecksum (wireOrgSize flag c.bytes ++ wireBody flag c.bytes) 0 else 0 } := by
  have hsize := createdPacket_dataSize flag type c
  have hlt := c.length_wireData_lt flag
  have hne : UInt16.ofNat (wireData flag c.bytes).length ≠ 0 := by
    intro h0
    have := congrArg UInt16.toNat h0
    rw [UInt16.toNat_ofNat', Nat.mod_eq_of_lt hlt.2, UInt16.toNat_zero] at this
    omega
  have hck : (if argHasChecksum flag then convertBuf2short (wireData flag c.bytes) 0 else 0) =
      if argHasChecksum flag then
        calcChecksum (wireOrgSize flag c.bytes ++ wireBody flag c.bytes) 0 else 0 := by
    split_ifs with hk
    · rw [wireData, wireChecksum, if_pos hk]
      exact decode16_encode16 [] _ _
    · rfl
  have horg : (if argHasEncryption flag then convertBuf2short (wireData flag c.bytes)
        (if argHasChecksum flag then tcpPacket3DataChecksumLen else 0)
      else UInt16.ofNat (wireData flag c.bytes).length -
        UInt16.ofNat (if argHasChecksum flag then tcpPacket3DataChecksumLen else 0)) =
          UInt16.ofNat c.bytes.length := by
    have hoff : (if argHasChecksum flag then tcpPacket3DataChecksumLen else 0) =
        (wireChecksum flag c.bytes).length := (length_wireChecksum flag c.bytes).symm
    rw [hoff]
    split_ifs with he
    · rw [wireData, wireOrgSize, if_pos he]
      exact decode16_encode16 _ _ _
    · have hlen := length_wireData flag c.bytes
      rw [if_neg he, length_wireBody, if_neg he, ← length_wireChecksum flag c.bytes] at hlen
      simp only [hlen, Nat.zero_add, Nat.add_zero, UInt16.ofNat_add]
      rw [UInt16.add_comm, UInt16.add_sub_cancel]
  rw [WirePacket.record, finishedRecord, partialRecord_full, fillTcpPacket3DataField]
  have hfc : flagHasChecksum (partialRecord (createdPacket flag type c).header []).flag =
      argHasChecksum flag := flagHasChecksum_created flag
  have hfe : flagHasEncryption (partialRecord (createdPacket flag type c).header []).flag =
      argHasEncryption flag := flagHasEncryption_created flag
  have hd : (createdPacket flag type c).data = wireData flag c.bytes := rfl
  simp only [hsize, hne, if_false, hd, hfc, hfe, hck, horg]

theorem createTcpPacket3Record_created {env : HeapEnv} {w : World} {buf : List UInt8}
    {bufSize : UInt16} (hok : env.ok w.next = true)
    (hsize : bufSize.toNat = (wireBody flag c.bytes).length)
    (hbuf : read buf 0 bufSize.toNat = wireBody flag c.bytes) :
    createTcpPacket3Record env flag type buf bufSize c.bytes.length w =
      .ok (some ⟨w.next, (createdPacket flag type c).record⟩) { w with next := w.next + 1 } := by
  have hpos : ((c.bytes.length : Int) > 0) := by
    have := c.length_pos
    omega
  have hds : ((UInt16.ofInt ((wireData flag c.bytes).length : Int)).toNat : Int) =
      (getTcpPacket3HeaderDataSize (createdPacket flag type c).header).toNat := by
    rw [toNat_ofInt_of_lt (c.length_wireData_lt flag).2, (createdPacket flag type c).dataSize_header]
    rfl
  have halloc := allocTcpPacket3Mem_some (createdPacket flag type c).length_header hok
  rw [← hds] at halloc
  have hp : (partialRecord (createdPacket flag type c).header []).data =
      List.replicate (wireData flag c.bytes).length 0 := by
    simp only [partialRecord, tcpPacket3HeaderToField, (createdPacket flag type c).dataSize_header,
      List.nil_append, List.length_nil, Nat.sub_zero]
    rfl
  rw [createTcpPacket3Record, hsize, createTcpPacket3Header_created]
  dsimp only
  rw [CM.bind_ok halloc]
  dsimp only
  rw [if_pos hpos, CM.bind_ok (fillPacketData_created hbuf hp _), createdPacket_record]
  rfl

theorem createTcpPacket3_created {env : HeapEnv} {w : World} (rest : List UInt8)
    (hok : env.ok w.next = true) (hok' : env.ok (w.next + 1) = true) :
    ∃ addr w', createTcpPacket3 env flag type (some (c.bytes ++ rest)) c.bytes.length w =
        .ok (some ⟨addr, (createdPacket flag type c).record⟩) w' ∧
      w'.sent = w.sent ∧ w'.txScript = w.txScript := by
  have hmax : ¬ ((c.bytes.length : Int) > tcpPacket3MaxContentsSize) := by
    have := c.fits
    simp only [tcpPacket3MaxContentsSize]
    omega
  have hpos : ¬ ((c.bytes.length : Int) ≤ 0) := by
    have := c.length_pos
    omega
  have hbody := c.length_wireBody_le flag
  rw [createTcpPacket3, if_neg hmax]
  dsimp only
  rw [if_neg hpos]
  by_cases he : argHasEncryption flag = true
  · have hb : wireBody flag c.bytes = encryptMark ++ c.bytes := by rw [wireBody, if_pos he]
    have hsize : (UInt32.ofInt ((c.bytes.length : Int) + 8)).toNat = c.bytes.length + 8 := by
      have := c.fits
      rw [UInt32.ofInt, UInt32.toNat_ofNat']
      omega
    have h16 : (UInt16.ofInt ((c.bytes.length : Int) + 8)).toNat = (wireBody flag c.bytes).length := by
      have hlen : (wireBody flag c.bytes).length = c.bytes.length + 8 := by
        rw [length_wireBody, if_pos he]
      rw [hlen]
      have := c.fits
      exact_mod_cast @toNat_ofInt_of_lt (c.bytes.length + 8) (by omega)
    obtain ⟨tail, henc⟩ := @encryptContents_ok c.bytes rest
      ⟨w.next, c.bytes.length + 8, env.leftover w.next⟩ rfl { w with next := w.next + 1 }
    have hrec := @createTcpPacket3Record_created flag type c env { w with next := w.next + 1 }
      (encryptMark ++ c.bytes ++ tail) _ hok' h16 (by rw [h16, hb, read_append_left])
    rw [if_pos he, CM.bind_ok (malloc_some hok), hsize]
    dsimp only
    rw [CM.bind_ok henc]
    dsimp only
    rw [CM.bind_ok hrec]
    exact ⟨_, _, rfl, rfl, rfl⟩
  · have hb : wireBody flag c.bytes = c.bytes := by rw [wireBody, if_neg he]
    have h16 : (UInt16.ofInt (c.bytes.length : Int)).toNat = c.bytes.length :=
      toNat_ofInt_of_lt (by have := c.fits; omega)
    have hrec := @createTcpPacket3Record_created flag type c env w (c.bytes ++ rest) _ hok
      (h16.trans (by rw [hb])) (by rw [h16, hb, read_append_left])
    rw [if_neg he]
    exact ⟨_, _, hrec, rfl, rfl⟩

theorem createdPacket_plainSize :
    getPacketPlainContentsSize (createdPacket flag type c).record = c.bytes.length := by
  have := c.fits
  rw [getPacketPlainContentsSize, createdPacket_record, UInt16.toNat_ofNat']
  omega

theorem createdPacket_dataSize_ne : (createdPacket flag type c).record.dataSize ≠ 0 := by
  intro h0
  have hsize : (createdPacket flag type c).record.dataSize.toNat = (wireData flag c.bytes).length :=
    (createdPacket flag type c).received_record.dataSize
  have hlt := c.length_wireData_lt flag
  rw [h0, UInt16.toNat_zero] at hsize
  omega

theorem createdPacket_encrypted :
    isPacketEncrypted (createdPacket flag type c).record = argHasEncryption flag := by
  rw [isPacketEncrypted, (createdPacket flag type c).received_record.flag]
  exact flagHasEncryption_created flag

theorem createdPacket_contentsBuf : getPacketContentsBuf (createdPacket flag type c).record =
    (wireChecksum flag c.bytes ++ wireOrgSize flag c.bytes).length := by
  have hflag : (createdPacket flag type c).record.flag = (flag &&& tcpPacket3FieldMask).toUInt8 :=
    (createdPacket flag type c).received_record.flag
  rw [getPacketContentsBuf, hflag, flagHasChecksum_created, flagHasEncryption_created,
    List.length_append, length_wireChecksum, length_wireOrgSize]
  rfl

theorem createdPacket_contentsSize : getPacketContentsSize (createdPacket flag type c).record =
    (wireBody flag c.bytes).length := by
  have hflag : (createdPacket flag type c).record.flag = (flag &&& tcpPacket3FieldMask).toUInt8 :=
    (createdPacket flag type c).received_record.flag
  have hsize : (createdPacket flag type c).record.dataSize.toNat = (wireData flag c.bytes).length :=
    (createdPacket flag type c).received_record.dataSize
  rw [getPacketContentsSize, hsize, hflag, flagHasChecksum_created, flagHasEncryption_created,
    length_wireData, tcpPacket3DataChecksumLen, tcpPacket3DataSizeLen]
  split_ifs <;> omega

theorem decryptContents_ok {mem : List UInt8} {i n : Nat} {out : Buf} (h : n ≤ out.size)
    (w : World) : decryptContents mem i ((n : Int) + 8) out w =
      .ok ({ out with mem := overwrite out.mem 0 (read mem (i + 8) n) }, (n : Int)) w := by
  rw [decryptContents, Int.add_sub_cancel]
  exact CM.bind_ok (memcpy_ok (by omega) w)

theorem extractPacketContents_created {env : HeapEnv} {w : World} (hok : env.ok w.next = true) :
    extractPacketContents env (createdPacket flag type c).record w =
      .ok (some ⟨w.next, c.bytes.length + 1,
        c.bytes ++ (env.leftover w.next).drop c.bytes.length⟩) { w with next := w.next + 1 } := by
  have hfits := c.fits
  have hdata : (createdPacket flag type c).record.data = wireData flag c.bytes :=
    (createdPacket flag type c).received_record.data
  have hsize : (UInt32.ofInt ((c.bytes.length : Int) + 1)).toNat = c.bytes.length + 1 := by
    rw [UInt32.ofInt, UInt32.toNat_ofNat']
    omega
  have hwire : wireData flag c.bytes =
      (wireChecksum flag c.bytes ++ wireOrgSize flag c.bytes) ++ (wireBody flag c.bytes ++ []) := by
    rw [wireData, List.append_nil, List.append_assoc]
  have hmem : overwrite (env.leftover w.next) 0 c.bytes =
      c.bytes ++ (env.leftover w.next).drop c.bytes.length := by
    simpa using overwrite_at_length [] c.bytes (env.leftover w.next)
  rw [extractPacketContents, if_neg (createdPacket_dataSize_ne flag type c),
    createdPacket_encrypted, createdPacket_contentsBuf, createdPacket_contentsSize,
    createdPacket_plainSize, hdata]
  dsimp only
  by_cases he : argHasEncryption flag = true
  · have hb : wireBody flag c.bytes = encryptMark ++ c.bytes := by rw [wireBody, if_pos he]
    have hlen : ((wireBody flag c.bytes).length : Int) = (c.bytes.length : Int) + 8 := by
      rw [length_wireBody, if_pos he]
      rfl
    have hread : read (wireData flag c.bytes)
        ((wireChecksum flag c.bytes ++ wireOrgSize flag c.bytes).length + 8) c.bytes.length =
          c.bytes := by
      have hm := read_middle (wireChecksum flag c.bytes ++ wireOrgSize flag c.bytes ++ encryptMark)
        c.bytes []
      rw [List.length_append, List.append_assoc _ encryptMark, ← List.append_assoc encryptMark,
        ← hb, ← hwire] at hm
      exact hm
    rw [if_pos he, CM.bind_ok (malloc_some hok), hsize, hlen]
    dsimp only
    rw [CM.bind_ok (decryptContents_ok (by dsimp only; omega) _), hread, hmem]
    rfl
  · have hb : wireBody flag c.bytes = c.bytes := by rw [wireBody, if_neg he]
    have hread : read (wireData flag c.bytes)
        (wireChecksum flag c.bytes ++ wireOrgSize flag c.bytes).length c.bytes.length =
          c.bytes := by
      have hm := read_middle (wireChecksum flag c.bytes ++ wireOrgSize flag c.bytes)
        (wireBody flag c.bytes) []
      rw [← hwire, hb] at hm
      exact hm
    rw [if_neg he, hb, CM.bind_ok (malloc_some hok), hsize]
    dsimp only
    rw [CM.bind_ok (memcpy_ok (by dsimp only; omega) _), hread, hmem]
    rfl

end Created

theorem sendTcpPacket3_sent {p : TcpPacket3} {w w' : World} (hh : p.header.length = 8)
    (hd : p.data.length = p.dataSize.toNat) (h : sendTcpPacket3 p w = .ok 0 w') :
    w'.sent = w.sent ++ (p.header ++ p.data) := by
  rcases sendTcpPacket3_wrote hh hd h with ⟨-, hall⟩ | ⟨hret, -⟩ | ⟨hret, -⟩
  · exact hall.sent
  · exact absurd hret (by decide)
  · exact absurd hret (by decide)

/-- The round trip. What `create_tcp_packet3` builds is sent if the socket takes it, in whatever
pieces. What `send_tcp_packet3` writes is received as the very record it was sent from, and its
contents are extracted from it. -/
theorem tcpPacket3_round_trip {env env' : HeapEnv} (hok : ∀ n, env.ok n = true)
    (hok' : ∀ n, env'.ok n = true) (flag type : UInt32) (c : Contents) (rest : List UInt8)
    (w : World) :
    ∃ addr p w₁, createTcpPacket3 env flag type (some (c.bytes ++ rest)) c.bytes.length w =
        .ok (some ⟨addr, p⟩) w₁ ∧ getPacketPlainContentsSize p = c.bytes.length ∧
      (∀ ws : World, (∀ code, .fail code ∉ ws.txScript) →
        p.header.length + p.data.length ≤ ws.room → ∃ w₂, sendTcpPacket3 p ws = .ok 0 w₂) ∧
      (∀ ws w₂ wr, sendTcpPacket3 p ws = .ok 0 w₂ → w₂.sent = ws.sent ++ wr.incoming →
        (∀ n out st wr', recvCalls env' n Receiver.start wr = .ok (out, st) wr' →
          wr'.incoming = [] → out = [⟨wr.next, p⟩]) ∧
        (2 * wr.incoming.length ≤ wr.supply → ∃ n wr',
          recvCalls env' n Receiver.start wr = .ok ([⟨wr.next, p⟩], Receiver.start) wr' ∧
            wr'.incoming = [])) ∧
      ∀ wx, ∃ buf wx', extractPacketContents env' p wx = .ok (some buf) wx' ∧
        read buf.mem 0 c.bytes.length = c.bytes := by
  obtain ⟨addr, w₁, hcreate, -, -⟩ := @createTcpPacket3_created flag type c env w rest (hok _) (hok _)
  have hrec := (createdPacket flag type c).received_record
  have hhead : (createdPacket flag type c).record.header.length = 8 := by
    rw [hrec.header]
    rfl
  have hdata : (createdPacket flag type c).record.data.length =
      (createdPacket flag type c).record.dataSize.toNat := by
    rw [hrec.data, hrec.dataSize]
  refine ⟨addr, _, w₁, hcreate, createdPacket_plainSize flag type c, ?_, ?_, ?_⟩
  · intro ws hfail hroom
    rw [hhead, hdata] at hroom
    exact sendTcpPacket3_sends hfail hroom
  · intro ws w₂ wr hsend hsent
    have hbytes := sendTcpPacket3_sent hhead hdata hsend
    rw [hsent, List.append_cancel_left_eq, hrec.header, hrec.data] at hbytes
    have hrun := framer_packet env' wr.next (createdPacket flag type c)
    rw [if_pos (hok' _), WirePacket.bytes, ← hbytes] at hrun
    exact ⟨fun n out st wr' h hnil => ((recvCalls_aligned hrun h).2 hnil).1,
      recvCalls_complete hrun⟩
  · intro wx
    exact ⟨_, _, extractPacketContents_created flag type c (hok' _), read_append_left _ _⟩

/-- `"hi"`, with a checksum and encrypted -/
def letters : Contents := ⟨[104, 105], by decide, by decide⟩

/-- The packet goes out and comes in three bytes at a time. -/
theorem tcpPacket3_round_trip_letters :
    ∃ addr p w₁ w₂ n wr', createTcpPacket3 .ample 0x81 1 (some [104, 105]) 2 {} =
        .ok (some ⟨addr, p⟩) w₁ ∧ getPacketPlainContentsSize p = 2 ∧
      sendTcpPacket3 p { txScript := List.replicate 30 (.room 3) } = .ok 0 w₂ ∧
      recvCalls .ample n Receiver.start
        { incoming := w₂.sent, rxScript := List.replicate 60 (.ready 3) } =
          .ok ([⟨0, p⟩], Receiver.start) wr' ∧
      ∀ wx, ∃ buf wx', extractPacketContents .ample p wx = .ok (some buf) wx' ∧
        read buf.mem 0 2 = [104, 105] := by
  obtain ⟨addr, p, w₁, hcreate, hsize, hsends, hrecv, hextract⟩ :=
    @tcpPacket3_round_trip .ample .ample (fun _ => rfl) (fun _ => rfl) 0x81 1 letters [] {}
  have hbuilt : createTcpPacket3 .ample 0x81 1 (some [104, 105]) 2 {} =
      .ok (some ⟨1, (createdPacket 0x81 1 letters).record⟩) { next := 2, frees := [0] } := by
    decide +kernel
  cases hcreate.symm.trans hbuilt
  obtain ⟨w₂, hsend⟩ := hsends { txScript := List.replicate 30 (.room 3) }
    (fun code h => nomatch List.eq_of_mem_replicate h) (by decide +kernel)
  have hwire := sendTcpPacket3_sent (by decide +kernel) (by decide +kernel) hsend
  have hlen : w₂.sent.length = 22 := by
    rw [hwire]
    decide +kernel
  obtain ⟨n, wr', hrun, -⟩ := (hrecv _ w₂
    { incoming := w₂.sent, rxScript := List.replicate 60 (.ready 3) } hsend rfl).2 (by
      rw [hlen]
      simp [World.supply, RxEvent.productive])
  exact ⟨1, _, _, w₂, n, wr', hbuilt, hsize, hsend, hrun, hextract⟩

end NucleoW5500
