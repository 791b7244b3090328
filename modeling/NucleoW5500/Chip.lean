import NucleoW5500.Interleaved
import NucleoW5500.RingBuffer

/-! The W5500 as the comments of its register header describe it: for each socket a page of
registers and two memories that wrap. The host reads and writes single bytes; the chip moves
by itself in between. -/

namespace NucleoW5500.Chip

open RingBuffer

def wizchipSockNum : Nat := 8

/-- `SIPR`, among the common registers -/
def sipr : UInt16 := 0x000F

/-- `Sn_MR` and the other registers of a socket: their addresses in its block -/
def snMR : UInt16 := 0x0000
def snCR : UInt16 := 0x0001
def snIR : UInt16 := 0x0002
def snSR : UInt16 := 0x0003
def snPORT : UInt16 := 0x0004
def snDIPR : UInt16 := 0x000C
def snDPORT : UInt16 := 0x0010
def snRXBUFSIZE : UInt16 := 0x001E
def snTXBUFSIZE : UInt16 := 0x001F
def snTXFSR : UInt16 := 0x0020
def snTXRD : UInt16 := 0x0022
def snTXWR : UInt16 := 0x0024
def snRXRSR : UInt16 := 0x0026
def snRXRD : UInt16 := 0x0028
def snRXWR : UInt16 := 0x002A

def snMrTcp : UInt8 := 0x01
def snMrUdp : UInt8 := 0x02
def snMrIpraw : UInt8 := 0x03
def snMrMacraw : UInt8 := 0x04

def snCrOpen : UInt8 := 0x01
def snCrConnect : UInt8 := 0x04
def snCrDiscon : UInt8 := 0x08
def snCrClose : UInt8 := 0x10
def snCrSend : UInt8 := 0x20
def snCrRecv : UInt8 := 0x40

def snIrSendok : UInt8 := 0x10
def snIrTimeout : UInt8 := 0x08

def sockClosed : UInt8 := 0x00
def sockInit : UInt8 := 0x13
def sockSynsent : UInt8 := 0x15
def sockEstablished : UInt8 := 0x17
def sockCloseWait : UInt8 := 0x1C
def sockUdp : UInt8 := 0x22

def ofBytes (hi lo : UInt8) : UInt16 := UInt16.ofNat (256 * hi.toNat + lo.toNat)

def hiByte (v : UInt16) : UInt8 := UInt8.ofNat (v.toNat / 256)

def loByte (v : UInt16) : UInt8 := UInt8.ofNat v.toNat

structure Sock where
  /-- the registers that only the host writes, each at its address -/
  page : Nat → UInt8
  cr : UInt8
  ir : UInt8
  sr : UInt8
  txMem : Nat → UInt8
  rxMem : Nat → UInt8
  /-- what lies between here and `txEnd` is still to be transmitted -/
  txRd : UInt16
  /-- what lies between here and `txRd` waits for the peer's acknowledgement -/
  txAck : UInt16
  /-- `Sn_TX_WR` as of the last SEND -/
  txEnd : UInt16
  /-- `Sn_RX_RD` as of the last RECV -/
  rxDone : UInt16
  rxWr : UInt16
  /-- history since OPEN: what came into the receive memory -/
  received : List UInt8
  /-- history since OPEN or CONNECT: what SEND took over -/
  given : List UInt8
  /-- history since OPEN or CONNECT: what went out, without repetitions -/
  wire : List UInt8

namespace Sock

variable (k : Sock)

def word (a : UInt16) : UInt16 := ofBytes (k.page a.toNat) (k.page (a.toNat + 1))

def setByte (a : UInt16) (b : UInt8) : Sock := { k with page := Function.update k.page a.toNat b }

def setWord (a v : UInt16) : Sock := (k.setByte a (hiByte v)).setByte (a + 1) (loByte v)

def rxSize : Nat := (k.page snRXBUFSIZE.toNat).toNat * 1024

def txSize : Nat := (k.page snTXBUFSIZE.toNat).toNat * 1024

/-- `Sn_RX_RSR` -/
def rsr : UInt16 := k.rxWr - k.rxDone

/-- `Sn_TX_FSR` -/
def fsr : UInt16 := UInt16.ofNat k.txSize - (k.txEnd - k.txAck)

/-- What is received and not yet released by RECV. -/
def unread : List UInt8 := window k.rxMem k.rxSize k.rxDone.toNat k.rsr.toNat

/-- `bs` comes in. -/
def take (bs : List UInt8) : Sock :=
  { k with
    rxMem := put k.rxMem k.rxSize k.rxWr.toNat bs
    rxWr := k.rxWr + UInt16.ofNat bs.length
    received := k.received ++ bs }

/-- The transmit pointers start anew at `ptr`. -/
def txInit (ptr : UInt16) : Sock :=
  { k.setWord snTXWR ptr with txRd := ptr, txAck := ptr, txEnd := ptr, given := [], wire := [] }

def rxInit (ptr : UInt16) : Sock :=
  { k.setWord snRXRD ptr with rxDone := ptr, rxWr := ptr, received := [] }

/-- The status after OPEN. -/
def openStatus : UInt8 :=
  if k.page snMR.toNat &&& 0x0F = snMrTcp then sockInit
  else if k.page snMR.toNat &&& 0x0F = snMrUdp then sockUdp
  else k.sr

/-- SEND takes over what is in the transmit memory up to `Sn_TX_WR`. -/
def sendCommand : Sock :=
  { k with
    txEnd := k.word snTXWR
    given := k.given ++ window k.txMem k.txSize k.txEnd.toNat (k.word snTXWR - k.txEnd).toNat }

/-- What the command in `Sn_CR` does. DISCON shows in the status later, if at all. -/
def command (ptr : UInt16) : Sock :=
  if k.cr = snCrOpen then { (k.txInit ptr).rxInit ptr with sr := k.openStatus }
  else if k.cr = snCrConnect then { k.txInit ptr with sr := sockSynsent }
  else if k.cr = snCrClose then { k with sr := sockClosed }
  else if k.cr = snCrSend then k.sendCommand
  else if k.cr = snCrRecv then { k with rxDone := k.word snRXRD }
  else k

end Sock

/-- What the chip does by itself. -/
inductive SockEvent
  /-- it takes the command in `Sn_CR` and clears the register -/
  | accept (ptr : UInt16)
  /-- a segment comes in, and as much of it is kept as there is room for -/
  | arrive (bs : List UInt8)
  /-- a datagram comes in, and is dropped if there is no room for all of it -/
  | datagram (bs : List UInt8)
  | status (sr : UInt8)
  | transmit (n : Nat)
  | ack (n : Nat)
  | interrupt (ir : UInt8)
  deriving DecidableEq, Repr

def Sock.move (k : Sock) : SockEvent → Sock
  | .accept ptr => if k.cr = 0 then k else { k.command ptr with cr := 0 }
  | .arrive bs => k.take (bs.take (k.rxSize - k.rsr.toNat))
  | .datagram bs => if bs.length ≤ k.rxSize - k.rsr.toNat then k.take bs else k
  | .status sr => { k with sr }
  | .transmit n =>
    let n := min n (k.txEnd - k.txRd).toNat
    { k with
      txRd := k.txRd + UInt16.ofNat n
      wire := k.wire ++ window k.txMem k.txSize k.txRd.toNat n }
  | .ack n => { k with txAck := k.txAck + UInt16.ofNat (min n (k.txRd - k.txAck).toNat) }
  | .interrupt ir => { k with ir := k.ir ||| ir }

structure W5500 where
  common : Nat → UInt8
  socks : Nat → Sock

structure Event where
  sn : Nat
  what : SockEvent
  deriving DecidableEq, Repr

def W5500.setSock (c : W5500) (sn : Nat) (k : Sock) : W5500 :=
  { c with socks := Function.update c.socks sn k }

def W5500.move (e : Event) (c : W5500) : W5500 := c.setSock e.sn ((c.socks e.sn).move e.what)

def Sock.readReg (k : Sock) (a : UInt16) : UInt8 :=
  if a = snCR then k.cr
  else if a = snIR then k.ir
  else if a = snSR then k.sr
  else if a = snTXFSR then hiByte k.fsr
  else if a = snTXFSR + 1 then loByte k.fsr
  else if a = snTXRD then hiByte k.txRd
  else if a = snTXRD + 1 then loByte k.txRd
  else if a = snRXRSR then hiByte k.rsr
  else if a = snRXRSR + 1 then loByte k.rsr
  else if a = snRXWR then hiByte k.rxWr
  else if a = snRXWR + 1 then loByte k.rxWr
  else k.page a.toNat

/-- A bit of `Sn_IR` is cleared by writing it. -/
def Sock.writeReg (k : Sock) (a : UInt16) (b : UInt8) : Sock :=
  if a = snCR then { k with cr := b }
  else if a = snIR then { k with ir := k.ir &&& ~~~b }
  else k.setByte a b

/-- `WIZCHIP_SREG_BLOCK` and its neighbours -/
def sregBlock (n : Nat) : Nat := 1 + 4 * n
def txbufBlock (n : Nat) : Nat := 2 + 4 * n
def rxbufBlock (n : Nat) : Nat := 3 + 4 * n

/-- The byte at an address of a block. -/
def W5500.read (c : W5500) (block : Nat) (a : UInt16) : UInt8 :=
  let k := c.socks (block / 4)
  if block % 4 = 1 then k.readReg a
  else if block % 4 = 2 then k.txMem (a.toNat % k.txSize)
  else if block % 4 = 3 then k.rxMem (a.toNat % k.rxSize)
  else c.common a.toNat

def W5500.write (c : W5500) (block : Nat) (a : UInt16) (b : UInt8) : W5500 :=
  let k := c.socks (block / 4)
  if block % 4 = 1 then c.setSock (block / 4) (k.writeReg a b)
  else if block % 4 = 2 then
    c.setSock (block / 4) { k with txMem := Function.update k.txMem (a.toNat % k.txSize) b }
  else if block % 4 = 3 then
    c.setSock (block / 4) { k with rxMem := Function.update k.rxMem (a.toNat % k.rxSize) b }
  else { c with common := Function.update c.common a.toNat b }

end NucleoW5500.Chip
