import NucleoW5500.Packet

/-! `recv_tcp_packet3`: one call reads at most one piece of a header or of the
data of a packet, and keeps the rest of its state in statics. -/

namespace NucleoW5500

open CString

inductive RecvMode
  | header
  | data
  deriving DecidableEq, Repr

structure Receiver where
  header : List UInt8
  receivedSize : Int
  recvMode : RecvMode
  packet : Option (Block TcpPacket3)
  deriving DecidableEq, Repr

def Receiver.start : Receiver :=
  ⟨List.replicate tcpPacket3HeaderSize 0, 0, .header, none⟩

def Receiver.clearHeader (st : Receiver) : Receiver :=
  { st with header := List.replicate tcpPacket3HeaderSize 0, receivedSize := 0 }

/-- The loop of `eat_tcp_data`. Each turn is one `recv`, so the fuel is one more
than the calls left in the script. -/
def eatTcpDataLoop (size : Int) : Nat → Int → Int → Int → CM Unit
  | 0, _, _, _ => CM.halt .blocked
  | fuel + 1, readSize, remain, receivedSize => do
    let readSize := if remain < readSize then remain else readSize
    let ret ← recv (UInt16.ofInt readSize)
    match ret with
    | .got bs =>
      let receivedSize := receivedSize + bs.length
      if receivedSize < size then
        eatTcpDataLoop size fuel readSize (remain - bs.length) receivedSize
      else pure ()
    | .err _ =>
      if receivedSize < size then eatTcpDataLoop size fuel readSize remain receivedSize
      else pure ()

def eatTcpData (size : Int) : CM Unit := fun w =>
  eatTcpDataLoop size (w.rxScript.length + 1) 128 size 0 w

/-- `memcpy(header, &header[start_idx], TCP_PACKET3_HEADER_SIZE - start_idx)`.
With `start_idx = -1` it reads `header[-1]` and writes `header[8]`. The regions
overlap, and the byte-wise `memcpy` of the C library copies them in order. -/
def shiftHeader (header : List UInt8) (startIdx : Int) : CM (List UInt8) :=
  if 0 ≤ startIdx ∧ startIdx ≤ tcpPacket3HeaderSize then
    pure (overwrite header 0 (header.drop startIdx.toNat))
  else CM.halt (.fault .headerBounds)

def rejectHeader (st : Receiver) : CM (Option (Block TcpPacket3) × Receiver) := do
  let startIdx := containsTcpPacket3Fragment st.header
  if startIdx = 0 then pure (none, st.clearHeader)
  else
    let header ← shiftHeader st.header startIdx
    pure (none, { st with header, receivedSize := st.receivedSize - startIdx })

def acceptHeader (env : HeapEnv) (st : Receiver) : CM (Option (Block TcpPacket3) × Receiver) := do
  let dataSize : Int := (getTcpPacket3HeaderDataSize st.header).toNat
  let p ← allocTcpPacket3Mem env st.header dataSize
  match p with
  | none =>
    eatTcpData dataSize
    pure (none, st.clearHeader)
  | some p =>
    if dataSize > 0 then pure (none, { st.clearHeader with packet := some p, recvMode := .data })
    else pure (some p, st.clearHeader)

/-- `recv` stored `bs` at `header[received_size]`. -/
def gotHeader (env : HeapEnv) (st : Receiver) (bs : List UInt8) :
    CM (Option (Block TcpPacket3) × Receiver) := do
  let header ← store .headerBounds st.header st.receivedSize bs
  let st := { st with header, receivedSize := st.receivedSize + bs.length }
  if st.receivedSize < (tcpPacket3HeaderSize : Int) then pure (none, st)
  else if isTcpPacket3Header st.header then acceptHeader env st
  else rejectHeader st

/-- `case RECV_HEADER` -/
def recvHeader (env : HeapEnv) (st : Receiver) : CM (Option (Block TcpPacket3) × Receiver) := do
  let recvSize : Int := tcpPacket3HeaderSize - st.receivedSize
  let ret ← recv (UInt16.ofInt recvSize)
  match ret with
  | .err _ => pure (none, st)
  | .got bs => gotHeader env st bs

def gotData (st : Receiver) (packet : Block TcpPacket3) (bs : List UInt8) :
    CM (Option (Block TcpPacket3) × Receiver) := do
  let data ← store .dataBounds packet.val.data st.receivedSize bs
  let packet : Block TcpPacket3 := { packet with val := { packet.val with data } }
  let receivedSize := st.receivedSize + bs.length
  if receivedSize < packet.val.dataSize.toNat then
    pure (none, { st with receivedSize, packet := some packet })
  else
    let p := { packet with val := fillTcpPacket3DataField packet.val }
    pure (some p, { st.clearHeader with packet := none, recvMode := .header })

def recvData (st : Receiver) (packet : Block TcpPacket3) :
    CM (Option (Block TcpPacket3) × Receiver) := do
  let recvSize : Int := packet.val.dataSize.toNat - st.receivedSize
  let ret ← recv (UInt16.ofInt recvSize)
  match ret with
  | .err _ => pure (none, st)
  | .got bs => gotData st packet bs

def recvTcpPacket3 (env : HeapEnv) (st : Receiver) : CM (Option (Block TcpPacket3) × Receiver) :=
  match st.recvMode, st.packet with
  | .data, some packet => recvData st packet
  | .data, none => CM.halt (.fault .nullPointer)
  | .header, _ => recvHeader env st

def recvCalls (env : HeapEnv) : Nat → Receiver → CM (List (Block TcpPacket3) × Receiver)
  | 0, st => pure ([], st)
  | n + 1, st => do
    let (p, st) ← recvTcpPacket3 env st
    let (ps, st) ← recvCalls env n st
    pure (p.toList ++ ps, st)

end NucleoW5500
