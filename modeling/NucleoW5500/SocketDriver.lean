import NucleoW5500.Socket
import NucleoW5500.SockMemory

/-! The socket library over the registers of the chip: `wiz_send_data`, `wiz_recv_data`, and the
calls of `socket.c` on TCP and UDP sockets. A negative `Int` is an error of the library. -/

namespace NucleoW5500.Driver

open CString Chip Interleaved Spi

/-- The statics of `socket.c`. -/
structure Statics where
  sockAnyPort : UInt16
  sockIoMode : UInt16
  sockIsSending : UInt16
  sockRemainedSize : Nat → UInt16
  sockPackInfo : Nat → UInt8

abbrev SM (α : Type) := DM Statics α

abbrev Board := Interleaved.World (Host Statics) W5500 Event

def sockAnyPortNum : UInt16 := 0xC000

def sockOk : Int := 1
def sockBusy : Int := 0
def sockerrSocknum : Int := -1
def sockerrSockinit : Int := -3
def sockerrSockclosed : Int := -4
def sockerrSockmode : Int := -5
def sockerrSockflag : Int := -6
def sockerrSockstatus : Int := -7
def sockerrPortzero : Int := -11
def sockerrIpinvalid : Int := -12
def sockerrTimeout : Int := -13
def sockerrDatalen : Int := -14

def packFirst : UInt8 := 0x80
def packRemained : UInt8 := 0x01
def packCompleted : UInt8 := 0x00

/-- `1 << sn` -/
def snBit (n : Nat) : UInt16 := 1 <<< UInt16.ofNat n

def Statics.nonblock (v : Statics) (n : Nat) : Bool := v.sockIoMode &&& snBit n ≠ 0

def Statics.isSending (v : Statics) (n : Nat) : Bool := v.sockIsSending &&& snBit n ≠ 0

def Statics.setSending (v : Statics) (n : Nat) : Statics :=
  { v with sockIsSending := v.sockIsSending ||| snBit n }

def Statics.clearSending (v : Statics) (n : Nat) : Statics :=
  { v with sockIsSending := v.sockIsSending &&& ~~~snBit n }

/-- What `close` makes of the statics of a socket. -/
def Statics.forget (v : Statics) (n : Nat) : Statics where
  sockAnyPort := v.sockAnyPort
  sockIoMode := v.sockIoMode &&& ~~~snBit n
  sockIsSending := v.sockIsSending &&& ~~~snBit n
  sockRemainedSize := Function.update v.sockRemainedSize n 0
  sockPackInfo := Function.update v.sockPackInfo n packCompleted

/-- The port that `socket` takes when it is given none. -/
def Statics.anyPort (v : Statics) : Statics :=
  let port := v.sockAnyPort + 1
  { v with sockAnyPort := if port = 0xFFF0 then sockAnyPortNum else port }

/-- What `socket` makes of the statics of a socket. -/
def Statics.opened (v : Statics) (n : Nat) (flag : UInt8) : Statics :=
  { v.forget n with
    sockIoMode := v.sockIoMode &&& ~~~snBit n ||| (flag &&& 0x01).toUInt16 <<< UInt16.ofNat n }

def modifyVars (f : Statics → Statics) : SM Unit := do
  setVars (f (← getVars))

/-- `setSn_CR(sn, cr); while(getSn_CR(sn));` -/
def command (n : Nat) (cr : UInt8) : SM Unit := do
  setSnByte snCR n cr
  poll .blocked do
    return if (← getSnByte snCR n) = 0 then some () else none

/-- `while(getSn_SR(sn) != SOCK_CLOSED);` and its negation -/
def waitSr (n : Nat) (p : UInt8 → Bool) : SM Unit :=
  poll .blocked do
    return if p (← getSnByte snSR n) then some () else none

def wizSendData (n : Nat) (wizdata : List UInt8) (len : UInt16) : SM Unit := do
  if len = 0 then pure ()
  else
    let ptr ← getSnWord snTXWR n
    wizchipWriteBuf (addrSel ptr (txbufBlock n)) wizdata len
    setSnWord snTXWR n (ptr + len)

def wizRecvData (n : Nat) (len : UInt16) : SM (List UInt8) := do
  if len = 0 then pure []
  else
    let ptr ← getSnWord snRXRD n
    let wizdata ← wizchipReadBuf (addrSel ptr (rxbufBlock n)) len
    setSnWord snRXRD n (ptr + len)
    return wizdata

def close (n : Nat) : SM Int := do
  if n ≥ wizchipSockNum then return sockerrSocknum
  else
    command n snCrClose
    setSnByte snIR n 0xFF
    modifyVars fun v => v.forget n
    waitSr n (· = sockClosed)
    return sockOk

def getSipr : SM (List UInt8) := wizchipReadBuf (addrSel sipr 0) 4

/-- `CHECK_SOCKMODE(mode)` -/
def badMode (n : Nat) (mode : UInt8) : SM Bool := do
  return (← getSnByte snMR n) &&& 0x0F ≠ mode

def setSnDipr (n : Nat) (addr : List UInt8) : SM Unit := wizchipWriteBuf (snReg snDIPR n) addr 4

/-- Whether the chip has no address yet, which only TCP minds. -/
def noAddress (protocol : UInt8) : SM Bool :=
  if protocol = snMrTcp then do
    return (← getSipr) = [0, 0, 0, 0]
  else pure false

/-- What `socket` says about its arguments: an error, if they do not go together. -/
def socketRefused (protocol flag : UInt8) : SM (Option Int) := do
  if ← noAddress protocol then return some sockerrSockinit
  else if protocol ≠ snMrTcp ∧ protocol ≠ snMrUdp ∧ protocol ≠ snMrMacraw ∧
      protocol ≠ snMrIpraw then
    return some sockerrSockmode
  else if flag &&& 0x04 ≠ 0 then return some sockerrSockflag
  else if flag ≠ 0 ∧ protocol = snMrTcp ∧ flag &&& 0x21 = 0 then return some sockerrSockflag
  else if protocol = snMrUdp ∧ flag &&& 0x20 ≠ 0 ∧ flag &&& 0x80 = 0 then
    return some sockerrSockflag
  else if protocol = snMrUdp ∧ flag &&& 0x10 ≠ 0 ∧ flag &&& 0x80 = 0 then
    return some sockerrSockflag
  else return none

/-- `if(!port) { port = sock_any_port++; .. }` -/
def choosePort (port : UInt16) : SM UInt16 := do
  if port ≠ 0 then return port
  else
    let v ← getVars
    modifyVars fun v => v.anyPort
    return v.sockAnyPort

def socket (n : Nat) (protocol : UInt8) (port : UInt16) (flag : UInt8) : SM Int := do
  if n ≥ wizchipSockNum then return sockerrSocknum
  else
    match ← socketRefused protocol flag with
    | some ret => return ret
    | none =>
      let _ ← close n
      setSnByte snMR n (protocol ||| (flag &&& 0xF0))
      let port ← choosePort port
      setSnWord snPORT n port
      command n snCrOpen
      modifyVars fun v => v.opened n flag
      waitSr n (· ≠ sockClosed)
      return n

def connect (n : Nat) (addr : List UInt8) (port : UInt16) : SM Int := do
  if n ≥ wizchipSockNum then return sockerrSocknum
  else if ← badMode n snMrTcp then return sockerrSockmode
  else if (← getSnByte snSR n) ≠ sockInit then return sockerrSockinit
  else if addr = [0xFF, 0xFF, 0xFF, 0xFF] ∨ addr = [0, 0, 0, 0] then return sockerrIpinvalid
  else if port = 0 then return sockerrPortzero
  else
    setSnDipr n addr
    setSnWord snDPORT n port
    command n snCrConnect
    let v ← getVars
    if v.nonblock n then return sockBusy
    else
      poll .blocked do
        if (← getSnByte snSR n) = sockEstablished then return some sockOk
        else if (← getSnByte snIR n) &&& snIrTimeout ≠ 0 then
          setSnByte snIR n snIrTimeout
          return some sockerrTimeout
        else if (← getSnByte snSR n) = sockClosed then return some sockerrSockclosed
        else return none

def disconnect (n : Nat) : SM Int := do
  if n ≥ wizchipSockNum then return sockerrSocknum
  else if ← badMode n snMrTcp then return sockerrSockmode
  else
    command n snCrDiscon
    modifyVars fun v => v.clearSending n
    let v ← getVars
    if v.nonblock n then return sockBusy
    else
      poll .blocked do
        if (← getSnByte snSR n) = sockClosed then return some sockOk
        else if (← getSnByte snIR n) &&& snIrTimeout ≠ 0 then
          let _ ← close n
          return some sockerrTimeout
        else return none

/-- `getSn_TX_FSR(sn) == getSn_TxMAX(sn)` -/
def txEmpty (n : Nat) : SM Bool := do
  let freesize ← getSnTxFsr n
  return freesize = (← getSnTxMax n)

/-- Whether `recv` gives the socket up, at the status `tmp`. -/
def recvRefused (n : Nat) (recvsize : UInt16) (tmp : UInt8) : SM Bool :=
  if tmp = sockEstablished then pure false
  else if tmp = sockCloseWait then if recvsize ≠ 0 then pure false else txEmpty n
  else pure true

/-- What `recv` finds in its loop: what it returns, or how much there is to read. -/
def recvWait (n : Nat) : SM (RxReply ⊕ UInt16) :=
  poll .blocked do
    let recvsize ← getSnRxRsr n
    let tmp ← getSnByte snSR n
    if ← recvRefused n recvsize tmp then
      let _ ← close n
      return some (.inl (.err 6)) -- `SOCKERR_SOCKSTATUS`
    else
      let v ← getVars
      if v.nonblock n ∧ recvsize = 0 then return some (.inl (.got []))
      else if recvsize ≠ 0 then return some (.inr recvsize)
      else return none

/-- What is read and released. -/
def recvData (n : Nat) (len : UInt16) : SM (List UInt8) := do
  let buf ← wizRecvData n len
  command n snCrRecv
  return buf

def recv (n : Nat) (len : UInt16) : SM RxReply := do
  if n ≥ wizchipSockNum then return .err 0
  else if ← badMode n snMrTcp then return .err 4
  else if len = 0 then return .err NucleoW5500.sockerrDatalen
  else
    let recvsize ← getSnRxMax n
    let len := if recvsize < len then recvsize else len
    match ← recvWait n with
    | .inl r => return r
    | .inr recvsize => return .got (← recvData n (if recvsize < len then recvsize else len))

/-- The end of the last `send` on the socket: a return value, or `none` if there is nothing left
to wait for. -/
def sendPrevious (n : Nat) : SM (Option Int) := do
  let v ← getVars
  if v.isSending n = false then return none
  else
    let tmp ← getSnByte snIR n
    if tmp &&& snIrSendok ≠ 0 then
      setSnByte snIR n snIrSendok
      modifyVars fun v => v.clearSending n
      return none
    else if tmp &&& snIrTimeout ≠ 0 then
      let _ ← close n
      return some sockerrTimeout
    else return some sockBusy

/-- The wait for room for `len` bytes. -/
def sendWait (n : Nat) (len : UInt16) : SM (Option Int) :=
  poll .blocked do
    let freesize ← getSnTxFsr n
    let tmp ← getSnByte snSR n
    if tmp ≠ sockEstablished ∧ tmp ≠ sockCloseWait then
      let _ ← close n
      return some (some sockerrSockstatus)
    else
      let v ← getVars
      if v.nonblock n ∧ len > freesize then return some (some sockBusy)
      else if len ≤ freesize then return some none
      else return none

/-- What is stored and handed over. -/
def giveData (n : Nat) (buf : List UInt8) (len : UInt16) : SM Unit := do
  wizSendData n buf len
  command n snCrSend

def send (n : Nat) (buf : List UInt8) (len : UInt16) : SM Int := do
  if n ≥ wizchipSockNum then return sockerrSocknum
  else if ← badMode n snMrTcp then return sockerrSockmode
  else if len = 0 then return sockerrDatalen
  else
    let tmp ← getSnByte snSR n
    if tmp ≠ sockEstablished ∧ tmp ≠ sockCloseWait then return sockerrSockstatus
    else
      match ← sendPrevious n with
      | some ret => return ret
      | none =>
        let freesize ← getSnTxMax n
        let len := if len > freesize then freesize else len
        match ← sendWait n len with
        | some ret => return ret
        | none =>
          giveData n buf len
          modifyVars fun v => v.setSending n
          return len.toNat

end NucleoW5500.Driver
