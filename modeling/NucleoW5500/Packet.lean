import NucleoW5500.Socket

/-! The packet record of `comm_tcp3`, its header and the layout of its data. -/

namespace NucleoW5500

open CString

def tcpPacket3HeaderIdxFs : Nat := 0
def tcpPacket3HeaderIdxMagic : Nat := 1
def tcpPacket3HeaderIdxVer : Nat := 2
def tcpPacket3HeaderIdxFlag : Nat := 3
def tcpPacket3HeaderIdxType : Nat := 4
def tcpPacket3HeaderIdxDatasize0 : Nat := 5
def tcpPacket3HeaderIdxGs : Nat := 7
def tcpPacket3HeaderSize : Nat := 8

def tcpPacket3DataChecksumLen : Nat := 2
def tcpPacket3DataSizeLen : Nat := 2
def tcpPacket3MaxContentsSize : Int := 50000
def tcpPacket3Version : UInt8 := 1

def tcpPacket3FlagNone : UInt8 := 0
def tcpPacket3FlagBitChecksum : UInt8 := 0x80
def tcpPacket3FlagBitEncryption : UInt8 := 0x01

def tcpPacket3TypeNone : UInt8 := 0
def tcpPacket3TypeCmdline : UInt8 := 1
def tcpPacket3TypeSmallfile : UInt8 := 2
def tcpPacket3TypeBigfileStart : UInt8 := 3
def tcpPacket3TypeBigfileFrag : UInt8 := 4
def tcpPacket3TypeBigfileEnd : UInt8 := 5

def tcpPacket3BigfileChecksumTypeNone : UInt8 := 0

def rcMagic : UInt8 := 0x42
def rcFs : UInt8 := 0x1c
def rcGs : UInt8 := 0x1d

/-- `sizeof(struct tcp_packet3_rec)`, with `data[1]` at offset 26. -/
def sizeofTcpPacket3Rec : Int := 28

/-- `data` holds `data_size` bytes; the block goes on with six zero bytes. -/
structure TcpPacket3 where
  version : UInt8
  flag : UInt8
  type : UInt8
  dataSize : UInt16
  checksum : UInt16
  orgSize : UInt16
  header : List UInt8
  data : List UInt8
  deriving DecidableEq, Repr

def convertBuf2short (buf : List UInt8) (i : Nat) : UInt16 := decode16 buf i

def convertShort2buf (val : UInt16) : List UInt8 := encode16 val

def getTcpPacket3HeaderDataSize (header : List UInt8) : UInt16 :=
  convertBuf2short header tcpPacket3HeaderIdxDatasize0

def tcpPacket3HeaderToField (header : List UInt8) (p : TcpPacket3) : TcpPacket3 :=
  { p with
    version := peek header tcpPacket3HeaderIdxVer
    flag := peek header tcpPacket3HeaderIdxFlag
    type := peek header tcpPacket3HeaderIdxType
    dataSize := getTcpPacket3HeaderDataSize header }

/-- `flag & TCP_PACKET3_FLAG_BIT_CHECKSUM` -/
def flagHasChecksum (flag : UInt8) : Bool := flag &&& tcpPacket3FlagBitChecksum ≠ 0

/-- `flag & TCP_PACKET3_FLAG_BIT_ENCRYPTION` -/
def flagHasEncryption (flag : UInt8) : Bool := flag &&& tcpPacket3FlagBitEncryption ≠ 0

def fillTcpPacket3DataField (p : TcpPacket3) : TcpPacket3 :=
  if p.dataSize = 0 then { p with checksum := 0, orgSize := 0 }
  else
    let offset := if flagHasChecksum p.flag then tcpPacket3DataChecksumLen else 0
    { p with
      checksum := if flagHasChecksum p.flag then convertBuf2short p.data 0 else 0
      orgSize :=
        if flagHasEncryption p.flag then convertBuf2short p.data offset
        else p.dataSize - UInt16.ofNat offset }

def isTcpPacket3Header (header : List UInt8) : Bool :=
  peek header tcpPacket3HeaderIdxFs = rcFs && peek header tcpPacket3HeaderIdxMagic = rcMagic &&
    peek header tcpPacket3HeaderIdxGs = rcGs

def containsTcpPacket3Fragment (header : List UInt8) : Int :=
  match memchr header rcFs 1 (tcpPacket3HeaderSize - 1) with
  | none => -1
  | some p =>
    if p = tcpPacket3HeaderSize - 1 then tcpPacket3HeaderSize - 1
    else if peek header (p + 1) = rcMagic then p
    else -1

/-- The record `memset` leaves in a fresh block. -/
def TcpPacket3.zero (dataSize : Nat) : TcpPacket3 :=
  ⟨0, 0, 0, 0, 0, 0, List.replicate tcpPacket3HeaderSize 0, List.replicate dataSize 0⟩

def allocTcpPacket3Mem (env : HeapEnv) (header : List UInt8) (dataSize : Int) :
    CM (Option (Block TcpPacket3)) := do
  let dataSize := if dataSize < 0 then 0 else dataSize
  match ← malloc env (sizeofTcpPacket3Rec + dataSize + 4) with
  | none => pure none
  | some buf =>
    let p := { TcpPacket3.zero dataSize.toNat with header := read header 0 tcpPacket3HeaderSize }
    pure (some ⟨buf.addr, tcpPacket3HeaderToField header p⟩)

def calcChecksum (contents : List UInt8) (i : Nat) : UInt16 :=
  UInt16.ofNat ((peek contents i).toNat + 0x0100)

def veryfyTcpPacket3Checksum (p : TcpPacket3) : Bool :=
  if p.dataSize > 0 && flagHasChecksum p.flag then
    calcChecksum p.data tcpPacket3DataChecksumLen = p.checksum
  else true

def isPacketEncrypted (p : TcpPacket3) : Bool := flagHasEncryption p.flag

def getPacketPlainContentsSize (p : TcpPacket3) : Int := p.orgSize.toNat

def getPacketContentsSize (p : TcpPacket3) : Int :=
  p.dataSize.toNat - (if flagHasChecksum p.flag then tcpPacket3DataChecksumLen else 0 : Nat) -
    (if flagHasEncryption p.flag then tcpPacket3DataSizeLen else 0 : Nat)

/-- The offset in `data` of `get_packet_contents_buf`. -/
def getPacketContentsBuf (p : TcpPacket3) : Nat :=
  (if flagHasChecksum p.flag then tcpPacket3DataChecksumLen else 0) +
    (if flagHasEncryption p.flag then tcpPacket3DataSizeLen else 0)

end NucleoW5500
