import NucleoW5500.RoundTrip

/-! Which of the packets that `create_tcp_packet3` builds pass `veryfy_tcp_packet3_checksum`,
before they are sent and after they have been received. -/

namespace NucleoW5500

open CString

/-- A received packet passes if its data begins with the checksum of the byte after it. -/
theorem veryfy_record_iff (p : WirePacket) :
    veryfyTcpPacket3Checksum p.record = true ↔
      p.data = [] ∨ flagHasChecksum p.flag = false ∨
        calcChecksum p.data tcpPacket3DataChecksumLen = convertBuf2short p.data 0 := by
  have hrec := p.received_record
  have hsize : p.record.dataSize > 0 ↔ p.data ≠ [] := by
    rw [gt_iff_lt, UInt16.lt_iff_toNat_lt, hrec.dataSize, UInt16.toNat_zero, List.length_pos_iff]
  rw [veryfyTcpPacket3Checksum, hrec.flag, hrec.data]
  by_cases hnil : p.data = []
  · simp [hsize, hnil]
  · cases hck : flagHasChecksum p.flag with
    | false => simp
    | true =>
      have hne : (partialRecord p.header p.data).dataSize ≠ 0 := by
        intro h0
        have hlen := p.dataSize_header
        rw [show getTcpPacket3HeaderDataSize p.header = 0 from h0] at hlen
        exact hnil (List.eq_nil_of_length_eq_zero hlen.symm)
      have hdata := congrArg TcpPacket3.data (partialRecord_full p)
      have hchecksum : p.record.checksum = convertBuf2short p.data 0 := by
        rw [WirePacket.record, finishedRecord, fillTcpPacket3DataField, if_neg hne]
        show (if flagHasChecksum p.flag = true then _ else _) = _
        rw [if_pos hck, hdata]
      simp [hsize, hnil, hchecksum]

def emptyDataSize (flag : UInt32) : Nat :=
  (if argHasChecksum flag then tcpPacket3DataChecksumLen else 0) +
    if argHasEncryption flag then tcpPacket3DataSizeLen else 0

/-- What a call without contents puts on the wire: the fields that the flags promise, all zero. -/
def emptyPacket (flag type : UInt32) : WirePacket where
  version := tcpPacket3Version
  flag := (flag &&& tcpPacket3FieldMask).toUInt8
  type := (type &&& tcpPacket3FieldMask).toUInt8
  data := List.replicate (emptyDataSize flag) 0
  fits := by
    rw [List.length_replicate, emptyDataSize]
    split_ifs <;> decide

section Empty

variable (flag type : UInt32)

theorem createTcpPacket3Header_empty :
    createTcpPacket3Header flag type 0 =
      ((emptyPacket flag type).header, (emptyDataSize flag : Int)) := by
  rw [createTcpPacket3Header, WirePacket.header, emptyPacket]
  simp only [List.length_replicate, emptyDataSize]
  cases argHasChecksum flag <;> cases argHasEncryption flag <;> rfl

theorem createTcpPacket3Record_empty {env : HeapEnv} {w : World} (hok : env.ok w.next = true) :
    createTcpPacket3Record env flag type [] 0 0 w =
      .ok (some ⟨w.next, partialRecord (emptyPacket flag type).header []⟩)
        { w with next := w.next + 1 } := by
  have hsize : (UInt16.ofInt (emptyDataSize flag : Int)).toNat =
      (getTcpPacket3HeaderDataSize (emptyPacket flag type).header).toNat := by
    rw [(emptyPacket flag type).dataSize_header, emptyPacket, List.length_replicate, emptyDataSize]
    cases argHasChecksum flag <;> cases argHasEncryption flag <;> rfl
  have halloc := allocTcpPacket3Mem_some (emptyPacket flag type).length_header hok
  rw [← hsize] at halloc
  rw [createTcpPacket3Record, UInt16.toNat_zero, Nat.cast_zero, createTcpPacket3Header_empty]
  exact CM.bind_ok halloc

theorem createTcpPacket3_empty {env : HeapEnv} {w : World} (hok : env.ok w.next = true)
    {contents : Option (List UInt8)} {size : Int} (h : contents = none ∨ size ≤ 0)
    (hmax : size ≤ tcpPacket3MaxContentsSize) :
    createTcpPacket3 env flag type contents size w =
      .ok (some ⟨w.next, partialRecord (emptyPacket flag type).header []⟩)
        { w with next := w.next + 1 } := by
  cases contents with
  | none =>
    rw [createTcpPacket3, if_neg (by omega)]
    exact createTcpPacket3Record_empty flag type hok
  | some mem =>
    have hsize : size ≤ 0 := h.resolve_left (by simp)
    rw [createTcpPacket3, if_neg (by omega)]
    dsimp only
    rw [if_pos hsize]
    exact createTcpPacket3Record_empty flag type hok

theorem peek_replicate_zero (n i : Nat) : peek (List.replicate n 0) i = 0 := by
  have h := peek_append_zeros [] n i
  rwa [List.nil_append] at h

theorem flag_emptyPacket : flagHasChecksum (emptyPacket flag type).flag = argHasChecksum flag :=
  flagHasChecksum_created flag

theorem empty_data : (partialRecord (emptyPacket flag type).header []).data =
    (emptyPacket flag type).data := by
  show List.replicate ((getTcpPacket3HeaderDataSize (emptyPacket flag type).header).toNat - 0) 0 = _
  rw [(emptyPacket flag type).dataSize_header, emptyPacket, List.length_replicate, Nat.sub_zero]

/-- The zeros are not the checksum of a zero. -/
theorem veryfy_empty_created :
    veryfyTcpPacket3Checksum (partialRecord (emptyPacket flag type).header []) = true ↔
      argHasChecksum flag = false := by
  have hflag : (partialRecord (emptyPacket flag type).header []).flag =
    (emptyPacket flag type).flag := rfl
  have hchecksum : (partialRecord (emptyPacket flag type).header []).checksum = 0 := rfl
  have hdata : (emptyPacket flag type).data = List.replicate (emptyDataSize flag) 0 := rfl
  have hsize : (partialRecord (emptyPacket flag type).header []).dataSize.toNat =
      emptyDataSize flag := by
    show (getTcpPacket3HeaderDataSize (emptyPacket flag type).header).toNat = _
    rw [(emptyPacket flag type).dataSize_header, hdata, List.length_replicate]
  rw [veryfyTcpPacket3Checksum, hflag, flag_emptyPacket, empty_data, hdata, calcChecksum,
    peek_replicate_zero, hchecksum]
  cases hck : argHasChecksum flag with
  | false => simp
  | true =>
    have hpos : (partialRecord (emptyPacket flag type).header []).dataSize > 0 := by
      rw [gt_iff_lt, UInt16.lt_iff_toNat_lt, hsize, emptyDataSize, if_pos hck]
      exact Nat.add_pos_left (by decide) _
    simp [hpos]

theorem veryfy_empty_received :
    veryfyTcpPacket3Checksum (emptyPacket flag type).record = true ↔
      argHasChecksum flag = false := by
  have hdata : (emptyPacket flag type).data = List.replicate (emptyDataSize flag) 0 := rfl
  rw [veryfy_record_iff, flag_emptyPacket, hdata, calcChecksum, convertBuf2short, decode16]
  simp only [peek_replicate_zero]
  cases hck : argHasChecksum flag with
  | false => simp
  | true => simp [emptyDataSize, hck, tcpPacket3DataChecksumLen]

end Empty

theorem veryfy_createdPacket (flag type : UInt32) (c : Contents) :
    veryfyTcpPacket3Checksum (createdPacket flag type c).record = true := by
  have hflag : flagHasChecksum (createdPacket flag type c).flag = argHasChecksum flag :=
    flagHasChecksum_created flag
  have hdata : (createdPacket flag type c).data = wireData flag c.bytes := rfl
  rw [veryfy_record_iff, hflag, hdata]
  cases hck : argHasChecksum flag with
  | false => exact .inr (.inl rfl)
  | true =>
    have hlen : (wireChecksum flag c.bytes).length = tcpPacket3DataChecksumLen := by
      rw [length_wireChecksum, if_pos hck]
      rfl
    refine .inr (.inr ?_)
    rw [wireData, ← hlen, calcChecksum_append, wireChecksum, if_pos hck]
    exact (decode16_encode16 [] _ _).symm

section Verified

/-- A packet whose header promises a checksum has contents to go with it. -/
def Checked (flag : UInt32) (contents : Option (List UInt8)) (size : Int) : Prop :=
  argHasChecksum flag = false ∨ (contents ≠ none ∧ 0 < size)

theorem recvCalls_packet {env : HeapEnv} (hok : ∀ n, env.ok n = true) (p : WirePacket) (w : World)
    (hw : w.incoming = p.bytes) :
    (∀ n out st w', recvCalls env n Receiver.start w = .ok (out, st) w' → w'.incoming = [] →
        out = [⟨w.next, p.record⟩]) ∧
      (2 * w.incoming.length ≤ w.supply → ∃ n w',
        recvCalls env n Receiver.start w = .ok ([⟨w.next, p.record⟩], Receiver.start) w' ∧
          w'.incoming = []) := by
  have hrun := framer_packet env w.next p
  rw [if_pos (hok _), ← hw] at hrun
  exact ⟨fun n out st w' h hnil => ((recvCalls_aligned hrun h).2 hnil).1, recvCalls_complete hrun⟩

theorem createTcpPacket3_wire {env : HeapEnv} (hok : ∀ n, env.ok n = true) (flag type : UInt32)
    {contents : Option (List UInt8)} {size : Int} (hmax : size ≤ tcpPacket3MaxContentsSize)
    (hmem : ∀ mem, contents = some mem → size ≤ mem.length) (w : World) :
    ∃ addr p w' q, createTcpPacket3 env flag type contents size w = .ok (some ⟨addr, p⟩) w' ∧
      p.header ++ p.data = WirePacket.bytes q ∧
      (veryfyTcpPacket3Checksum p = true ↔ Checked flag contents size) ∧
      (veryfyTcpPacket3Checksum q.record = true ↔ Checked flag contents size) := by
  by_cases hempty : contents = none ∨ size ≤ 0
  · have hchecked : Checked flag contents size ↔ argHasChecksum flag = false := by
      refine ⟨fun h => h.resolve_right ?_, .inl⟩
      rintro ⟨hsome, hpos⟩
      rcases hempty with hnone | hsize
      · exact hsome hnone
      · omega
    refine ⟨w.next, _, _, emptyPacket flag type, createTcpPacket3_empty flag type (hok _) hempty hmax,
      ?_, ?_, ?_⟩
    · rw [empty_data]
      rfl
    · rw [hchecked, veryfy_empty_created]
    · rw [hchecked, veryfy_empty_received]
  · rw [not_or] at hempty
    obtain ⟨mem, rfl⟩ := Option.ne_none_iff_exists'.mp hempty.1
    have hlen := hmem mem rfl
    have htake : (mem.take size.toNat).length = size.toNat := by
      rw [List.length_take]
      omega
    simp only [tcpPacket3MaxContentsSize] at hmax
    have c : { c : Contents // c.bytes = mem.take size.toNat } :=
      ⟨⟨mem.take size.toNat, fun hnil => by rw [hnil, List.length_nil] at htake; omega,
        by omega⟩, rfl⟩
    obtain ⟨c, hc⟩ := c
    have hcsize : (c.bytes.length : Int) = size := by
      rw [hc, htake]
      omega
    obtain ⟨addr, w', hcreate, -, -⟩ :=
      @createTcpPacket3_created flag type c env w (mem.drop size.toNat) (hok _) (hok _)
    rw [hcsize, hc, List.take_append_drop] at hcreate
    have hrec := (createdPacket flag type c).received_record
    have hchecked : Checked flag (some mem) size := .inr ⟨by simp, by omega⟩
    refine ⟨addr, _, w', createdPacket flag type c, hcreate, ?_, ?_, ?_⟩
    · rw [hrec.header, hrec.data]
      rfl
    · exact iff_of_true (veryfy_createdPacket flag type c) hchecked
    · exact iff_of_true (veryfy_createdPacket flag type c) hchecked

/-- A packet passes as it is built, and as it is received, exactly when it has contents or its
flag asks for no checksum. -/
theorem createTcpPacket3_verified_iff {env env' : HeapEnv} (hok : ∀ n, env.ok n = true)
    (hok' : ∀ n, env'.ok n = true) (flag type : UInt32) (contents : Option (List UInt8)) {size : Int}
    (hmax : size ≤ tcpPacket3MaxContentsSize)
    (hmem : ∀ mem, contents = some mem → size ≤ mem.length) (w : World) :
    ∃ addr p w', createTcpPacket3 env flag type contents size w = .ok (some ⟨addr, p⟩) w' ∧
      (veryfyTcpPacket3Checksum p = true ↔ Checked flag contents size) ∧
      ∀ wr : World, wr.incoming = p.header ++ p.data → ∃ r,
        (veryfyTcpPacket3Checksum r = true ↔ Checked flag contents size) ∧
        (∀ n out st wr', recvCalls env' n Receiver.start wr = .ok (out, st) wr' →
          wr'.incoming = [] → out = [⟨wr.next, r⟩]) ∧
        (2 * wr.incoming.length ≤ wr.supply → ∃ n wr',
          recvCalls env' n Receiver.start wr = .ok ([⟨wr.next, r⟩], Receiver.start) wr' ∧
            wr'.incoming = []) := by
  obtain ⟨addr, p, w', q, hcreate, hwire, hbuilt, hreceived⟩ :=
    createTcpPacket3_wire hok flag type hmax hmem w
  exact ⟨addr, p, w', hcreate, hbuilt, fun wr hwr =>
    ⟨q.record, hreceived, recvCalls_packet hok' q wr (hwr.trans hwire)⟩⟩

/-- One letter, with a checksum and encrypted, as it is built and as it comes in. -/
theorem createTcpPacket3_verified_letter :
    ∃ addr p w' r n wr', createTcpPacket3 .ample 0x81 1 (some [104]) 1 {} =
        .ok (some ⟨addr, p⟩) w' ∧
      (veryfyTcpPacket3Checksum p = true ↔ Checked 0x81 (some [104]) 1) ∧
      recvCalls .ample n Receiver.start
        { incoming := p.header ++ p.data, rxScript := List.replicate 60 (.ready 3) } =
          .ok ([⟨0, r⟩], Receiver.start) wr' ∧
      (veryfyTcpPacket3Checksum r = true ↔ Checked 0x81 (some [104]) 1) := by
  have hmem : ∀ mem, some [104] = some mem → (1 : Int) ≤ (mem : List UInt8).length := by
    intro mem hmem
    cases hmem
    decide
  have hmax : (1 : Int) ≤ tcpPacket3MaxContentsSize := by decide
  have hample : ∀ n, HeapEnv.ample.ok n = true := fun _ => rfl
  obtain ⟨addr, p, w', hcreate, hbuilt, hrecv⟩ := createTcpPacket3_verified_iff hample hample 0x81 1
    (some [104]) hmax hmem {}
  have hletter : createTcpPacket3 .ample 0x81 1 (some [104]) 1 {} =
      .ok (some ⟨1, (createdPacket 0x81 1 ⟨[104], by decide, by decide⟩).record⟩)
        { next := 2, frees := [0] } := by
    decide +kernel
  cases hcreate.symm.trans hletter
  obtain ⟨r, hr, -, hcalls⟩ := hrecv
    { incoming := _, rxScript := List.replicate 60 (.ready 3) } rfl
  obtain ⟨n, wr', hrun, -⟩ := hcalls (by decide +kernel)
  exact ⟨1, _, _, r, n, wr', hletter, hbuilt, hrun, hr⟩

/-- A call without contents whose flag asks for a checksum. -/
theorem createTcpPacket3_unverified :
    ¬ ∀ (env : HeapEnv) (flag type : UInt32) (contents : Option (List UInt8)) (size : Int),
      (∀ n, env.ok n = true) → 0 ≤ size → size ≤ tcpPacket3MaxContentsSize →
      (∀ mem, contents = some mem → size ≤ mem.length) → ∀ (w : World) addr p w',
        createTcpPacket3 env flag type contents size w = .ok (some ⟨addr, p⟩) w' →
          veryfyTcpPacket3Checksum p = true := by
  intro h
  have hcreate := @createTcpPacket3_empty 0x80 1 .ample {} rfl none 0 (.inl rfl) (by decide)
  have hverified := h .ample 0x80 1 none 0 (fun _ => rfl) (by decide) (by decide)
    (fun _ hnone => nomatch hnone) {} _ _ _ hcreate
  rw [veryfy_empty_created] at hverified
  exact absurd hverified (by decide)

end Verified

end NucleoW5500
