import NucleoW5500.Packet

/-! Packing contents into a packet, sending it, and taking the contents out of a
received one. -/

namespace NucleoW5500

open CString

def tcpPacket3FieldMask : UInt32 := 0xff

/-- `flag & TCP_PACKET3_FLAG_BIT_CHECKSUM`, of the `int` argument. -/
def argHasChecksum (flag : UInt32) : Bool := flag &&& 0x80 ≠ 0

/-- `flag & TCP_PACKET3_FLAG_BIT_ENCRYPTION`, of the `int` argument. -/
def argHasEncryption (flag : UInt32) : Bool := flag &&& 0x01 ≠ 0

/-- `"encrypt "` -/
def encryptMark : List UInt8 := [101, 110, 99, 114, 121, 112, 116, 32]

def encryptContents (contents : List UInt8) (inSize : Int) (out : Buf) : CM (Buf × Int) := do
  let out ← memcpy out 0 encryptMark 0 8
  let out ← memcpy out 8 contents 0 inSize
  pure (out, inSize + 8)

def decryptContents (mem : List UInt8) (i : Nat) (inSize : Int) (out : Buf) : CM (Buf × Int) := do
  let outSize := inSize - 8
  let out ← memcpy out 0 mem (i + 8) outSize
  pure (out, outSize)

def extractPacketContents (env : HeapEnv) (p : TcpPacket3) : CM (Option Buf) :=
  if p.dataSize = 0 then pure none
  else do
    let contentsSize := getPacketContentsSize p
    if isPacketEncrypted p then
      match ← malloc env (getPacketPlainContentsSize p + 1) with
      | none => pure none
      | some buf =>
        let (buf, _) ← decryptContents p.data (getPacketContentsBuf p) contentsSize buf
        pure (some buf)
    else
      match ← malloc env (contentsSize + 1) with
      | none => pure none
      | some buf =>
        let buf ← memcpy buf 0 p.data (getPacketContentsBuf p) contentsSize
        pure (some buf)

def fillDefaultHeader : List UInt8 :=
  [rcFs, rcMagic, tcpPacket3Version, tcpPacket3FlagNone, tcpPacket3TypeNone, 0, 0, rcGs]

/-- The header, and the size of the data it announces. -/
def createTcpPacket3Header (flag type : UInt32) (contentsSize : Int) : List UInt8 × Int :=
  let header := fillDefaultHeader
  let header := header.set tcpPacket3HeaderIdxFlag (flag &&& tcpPacket3FieldMask).toUInt8
  let header := header.set tcpPacket3HeaderIdxType (type &&& tcpPacket3FieldMask).toUInt8
  let dataSize := contentsSize
  let dataSize := if argHasChecksum flag then dataSize + tcpPacket3DataChecksumLen else dataSize
  let dataSize := if argHasEncryption flag then dataSize + tcpPacket3DataSizeLen else dataSize
  (overwrite header tcpPacket3HeaderIdxDatasize0 (convertShort2buf (UInt16.ofInt dataSize)),
    dataSize)

def fillOrgSize (flag : UInt32) (data : List UInt8) (offset : Nat) (orgSize : UInt16) :
    CM (List UInt8) :=
  if argHasEncryption flag then
    store .dataBounds data (offset - tcpPacket3DataSizeLen : Nat) (convertShort2buf orgSize)
  else pure data

def fillChecksum (flag : UInt32) (p : TcpPacket3) : CM TcpPacket3 :=
  if argHasChecksum flag then do
    let checksum := calcChecksum p.data tcpPacket3DataChecksumLen
    let data ← store .dataBounds p.data 0 (convertShort2buf checksum)
    pure { p with data, checksum }
  else pure p

/-- The end of `create_tcp_packet3`: the data of a packet that has contents. -/
def fillPacketData (flag : UInt32) (p : TcpPacket3) (buf : List UInt8) (bufSize : UInt16)
    (contentsSize : Int) : CM TcpPacket3 := do
  let offset := (if argHasEncryption flag then tcpPacket3DataSizeLen else 0) +
    (if argHasChecksum flag then tcpPacket3DataChecksumLen else 0)
  let data ← store .dataBounds p.data offset (read buf 0 bufSize.toNat)
  let orgSize := UInt16.ofInt contentsSize
  let data ← fillOrgSize flag data offset orgSize
  fillChecksum flag { p with data, orgSize }

/-- The header and the record of `create_tcp_packet3`, once `buf` holds what goes into it. -/
def createTcpPacket3Record (env : HeapEnv) (flag type : UInt32) (buf : List UInt8)
    (bufSize : UInt16) (contentsSize : Int) : CM (Option (Block TcpPacket3)) := do
  let (header, dataSize) := createTcpPacket3Header flag type bufSize.toNat
  match ← allocTcpPacket3Mem env header (UInt16.ofInt dataSize).toNat with
  | none => pure none
  | some p =>
    if contentsSize > 0 then
      let val ← fillPacketData flag p.val buf bufSize contentsSize
      pure (some { p with val })
    else pure (some p)

/-- `contents` is the memory the pointer points to, if it is not `NULL`. -/
def createTcpPacket3 (env : HeapEnv) (flag type : UInt32) (contents : Option (List UInt8))
    (contentsSize : Int) : CM (Option (Block TcpPacket3)) :=
  if contentsSize > tcpPacket3MaxContentsSize then pure none
  else match contents with
    | none => createTcpPacket3Record env flag type [] 0 0
    | some contents =>
      if contentsSize ≤ 0 then createTcpPacket3Record env flag type [] 0 0
      else if argHasEncryption flag then do
        match ← malloc env (contentsSize + 8) with
        | none => pure none
        | some buf =>
          let (buf, bufSize) ← encryptContents contents contentsSize buf
          let p ← createTcpPacket3Record env flag type buf.mem (UInt16.ofInt bufSize) contentsSize
          free buf.addr
          pure p
      else createTcpPacket3Record env flag type contents (UInt16.ofInt contentsSize) contentsSize

def sendTcpPacket3 (p : TcpPacket3) : CM Int := do
  let ret ← wizSendb p.header tcpPacket3HeaderSize
  if ret < 0 ∨ ret ≠ tcpPacket3HeaderSize then pure (-1)
  else if p.dataSize > 0 then
    let ret ← wizSendb p.data p.dataSize.toNat
    if ret < 0 ∨ ret ≠ p.dataSize.toNat then pure (-2)
    else pure 0
  else pure 0

/-- The buffer of the `n`th allocation once the contents of `p` are in it. -/
def plaintext (env : HeapEnv) (p : TcpPacket3) (n : Nat) : List UInt8 :=
  let i := getPacketContentsBuf p
  let size := getPacketContentsSize p
  overwrite (env.leftover n) 0
    (if isPacketEncrypted p then read p.data (i + 8) (size - 8).toNat else read p.data i size.toNat)

inductive ExtractSpec (env : HeapEnv) (p : TcpPacket3) (w : World) :
    EStateM.Result Halt World (Option Buf) → Prop
  | empty : p.dataSize = 0 → ExtractSpec env p w (.ok none w)
  | refused : p.dataSize ≠ 0 → env.ok w.next = false →
      ExtractSpec env p w (.ok none { w with next := w.next + 1 })
  | extracted {size : Nat} : p.dataSize ≠ 0 → env.ok w.next = true →
      ExtractSpec env p w
        (.ok (some ⟨w.next, size, plaintext env p w.next⟩) { w with next := w.next + 1 })
  | fault {f : Fault} : f = .copyLength ∨ f = .blockBounds → env.ok w.next = true →
      ExtractSpec env p w (.error (.fault f) { w with next := w.next + 1 })

theorem extractPacketContents_spec (env : HeapEnv) (p : TcpPacket3) (w : World) :
    ExtractSpec env p w (extractPacketContents env p w) := by
  rw [extractPacketContents]
  by_cases hz : p.dataSize = 0
  · rw [if_pos hz]
    exact .empty hz
  rw [if_neg hz]
  dsimp only
  cases hok : env.ok w.next with
  | false =>
    by_cases he : isPacketEncrypted p = true
    · rw [if_pos he, CM.bind_ok (malloc_none hok)]
      exact .refused hz hok
    · rw [if_neg he, CM.bind_ok (malloc_none hok)]
      exact .refused hz hok
  | true =>
    by_cases he : isPacketEncrypted p = true
    · rw [if_pos he, CM.bind_ok (malloc_some hok)]
      dsimp only
      rcases memcpy_cases ⟨w.next, (UInt32.ofInt (getPacketPlainContentsSize p + 1)).toNat,
          env.leftover w.next⟩ 0 p.data (getPacketContentsBuf p + 8) (getPacketContentsSize p - 8)
          { w with next := w.next + 1 } with hc | ⟨f, hf, hc⟩
      · have hs := @ExtractSpec.extracted env p w
          (UInt32.ofInt (getPacketPlainContentsSize p + 1)).toNat hz hok
        simp only [plaintext, he, if_true] at hs
        simpa only [decryptContents, Lockstep.bind_apply, hc, CM.pure_apply] using hs
      · simp only [decryptContents, Lockstep.bind_apply, hc]
        exact .fault hf hok
    · rw [if_neg he, CM.bind_ok (malloc_some hok)]
      dsimp only
      rcases memcpy_cases ⟨w.next, (UInt32.ofInt (getPacketContentsSize p + 1)).toNat,
          env.leftover w.next⟩ 0 p.data (getPacketContentsBuf p) (getPacketContentsSize p)
          { w with next := w.next + 1 } with hc | ⟨f, hf, hc⟩
      · have hs := @ExtractSpec.extracted env p w
          (UInt32.ofInt (getPacketContentsSize p + 1)).toNat hz hok
        rw [CM.bind_ok hc]
        simp only [plaintext, he, Bool.false_eq_true, if_false] at hs
        exact hs
      · rw [CM.bind_error hc]
        exact .fault hf hok

end NucleoW5500
