import NucleoW5500.Client

/-! The UDP server: `recvfrom` and `sendto` of the socket driver, and `comm_udp_server`
over them. A datagram is in the receive buffer behind eight bytes with its sender. -/

namespace NucleoW5500.Udp

open CString

structure Datagram where
  sender : IpPort
  data : List UInt8
  address : sender.ip.length = 4
  fits : data.length < 65536
  deriving DecidableEq

def word (head : List UInt8) (i : Nat) : UInt16 :=
  UInt16.ofNat (256 * (peek head i).toNat + (peek head (i + 1)).toNat)

def wordBytes (n : Nat) : List UInt8 := [UInt8.ofNat (n / 256), UInt8.ofNat (n % 256)]

def Datagram.head (d : Datagram) : List UInt8 :=
  d.sender.ip ++ (wordBytes d.sender.port.toNat ++ wordBytes d.data.length)

def Datagram.bytes (d : Datagram) : List UInt8 := d.head ++ d.data

def stream (ds : List Datagram) : List UInt8 := ds.flatMap Datagram.bytes

inductive Status
  | closed
  | udp
  | other
  deriving DecidableEq, Repr

structure Socket where
  /-- the receive buffer of the chip -/
  rx : List UInt8
  remainedSize : UInt16
  /-- how many bytes have left the buffer -/
  taken : Nat
  deriving DecidableEq, Repr

def sockBusy : Int := 0
def sockerrSockclosed : Int := -4

def wizRecvData (s : Socket) (n : Nat) : List UInt8 × Socket :=
  (read s.rx 0 n, { s with rx := s.rx.drop n, taken := s.taken + n })

def recvfromHead (s : Socket) : IpPort × Socket :=
  let (head, s) := wizRecvData s 8
  (⟨head.take 4, word head 4⟩, { s with remainedSize := word head 6 })

def recvfromData (s : Socket) (len : UInt16) : Int × List UInt8 × Socket :=
  let packLen := if len < s.remainedSize then len else s.remainedSize
  let (buf, s) := wizRecvData s packLen.toNat
  (packLen.toNat, buf, { s with remainedSize := s.remainedSize - packLen })

/-- What `recvfrom` returns, what it stores at `buf`, and `*addr` and `*port` behind it. With
`closes` it finds the socket closed while it looks for a datagram. -/
def recvfrom (closes : Bool) (len : UInt16) (addr : IpPort) (s : Socket) :
    Int × List UInt8 × IpPort × Socket :=
  if s.remainedSize = 0 then
    if closes then (sockerrSockclosed, [], addr, s)
    else if s.rx = [] then (sockBusy, [], addr, s)
    else
      let (addr, s) := recvfromHead s
      let (ret, buf, s) := recvfromData s len
      (ret, buf, addr, s)
  else
    let (ret, buf, s) := recvfromData s len
    (ret, buf, addr, s)

/-- The datagram that `sendto` gets out, if any. It refuses an address or a port of zero, and
without `room` the chip is busy or times out. -/
def sendto (room : Bool) (buf : List UInt8) (addr : IpPort) : List (IpPort × List UInt8) :=
  if buf = [] ∨ addr.ip = [0, 0, 0, 0] ∨ addr.port = 0 ∨ room = false then [] else [(addr, buf)]

/-- `strncmp(mem, text, strlen(text)) == 0`; a zero at the end of `text` asks for the
end of the string. -/
def strncmpEq (mem text : List UInt8) : Bool := read mem 0 text.length = text

/-- `strtok(s, " ")`, with what is left for the next call. -/
def strtok (s : List UInt8) : Option (List UInt8 × List UInt8) :=
  let s := s.dropWhile (· == 32)
  if s = [] then none else some (s.takeWhile (· != 32), (s.dropWhile (· != 32)).drop 1)

-- "ew hello", "ew con ", "ew delay ", "ew ready w5500", and "w5500" with its terminator
def ewHello : List UInt8 := [101, 119, 32, 104, 101, 108, 108, 111]
def ewCon : List UInt8 := [101, 119, 32, 99, 111, 110, 32]
def ewDelay : List UInt8 := [101, 119, 32, 100, 101, 108, 97, 121, 32]
def ewReady : List UInt8 := [101, 119, 32, 114, 101, 97, 100, 121, 32, 119, 53, 53, 48, 48]
def w5500 : List UInt8 := [119, 53, 53, 48, 48, 0]

inductive Command
  | hello
  | con
  | delay
  deriving DecidableEq, Repr

def command (mem : List UInt8) : Option Command :=
  if strncmpEq mem ewHello then some .hello
  else if strncmpEq mem ewCon then some .con
  else if strncmpEq mem ewDelay then some .delay
  else none

def ewConPort (mem : List UInt8) : Option UInt16 :=
  match strtok (cstr mem 7) with
  | none => none
  | some (portPtr, rest) =>
    match strtok rest with
    | none => none
    | some (idPtr, _) => if strncmpEq idPtr w5500 then some (UInt16.ofInt (atoi portPtr 0)) else none

inductive Event
  | command (pos : Nat) (c : Command)
  | reply (pos : Nat) (addr : IpPort) (bs : List UInt8)
  | host (pos : Nat) (h : IpPort)
  deriving DecidableEq, Repr

def replies (pos : Nat) (out : List (IpPort × List UInt8)) : List Event :=
  out.map fun r => .reply pos r.1 r.2

structure Server where
  socket : Socket
  comm : CommMeta
  delay : Int
  deriving DecidableEq, Repr

def Server.start : Server := ⟨⟨[], 0, 0⟩, ⟨⟨[0, 0, 0, 0], 0⟩, .dhcp⟩, 0⟩

/-- What a turn of the server meets. `stack` is what its local `sender` happens to hold. -/
structure Turn where
  status : Status
  arrived : List Datagram := []
  closes : Bool := false
  stack : IpPort := ⟨[0, 0, 0, 0], 0⟩
  room : Bool := true
  deriving DecidableEq

def Socket.arrive (s : Socket) (ds : List Datagram) : Socket := { s with rx := s.rx ++ stream ds }

/-- `socket()` closes the socket first, and drops what is in its buffer. -/
def Socket.reopen (s : Socket) : Socket := ⟨[], 0, s.taken + s.rx.length⟩

/-- `ret > 0`: the bytes `buf`, said to be from `sender`. -/
def answer (t : Turn) (s : Server) (pos : Nat) (buf : List UInt8) (sender : IpPort) :
    Server × List Event :=
  let recvDgram := buf ++ [0]
  match command recvDgram with
  | some .hello => (s, .command pos .hello :: replies pos (sendto t.room ewReady sender))
  | some .con =>
    match ewConPort recvDgram with
    | none => (s, [.command pos .con])
    | some port =>
      ({ s with comm := ⟨⟨sender.ip, port⟩, .connectHost⟩ },
        [.command pos .con, .host pos ⟨sender.ip, port⟩])
  | some .delay => ({ s with delay := atoi recvDgram 9 }, [.command pos .delay])
  | none => (s, replies pos (sendto t.room buf sender))

def maxEwDgram : UInt16 := 40

def commUdpServer (t : Turn) (s : Server) : Server × List Event :=
  let socket := s.socket.arrive t.arrived
  match t.status with
  | .closed => ({ s with socket := socket.reopen }, [])
  | .udp =>
    let (ret, recvDgram, sender, socket) := recvfrom t.closes maxEwDgram t.stack socket
    if ret > 0 then answer t { s with socket } (socket.taken - ret.toNat) recvDgram sender
    else ({ s with socket }, [])
  | .other => ({ s with socket }, [])

def runTurns : List Turn → Server → Server × List Event
  | [], s => (s, [])
  | t :: ts, s =>
    let (s, events) := commUdpServer t s
    let (s, events') := runTurns ts s
    (s, events ++ events')

def arrivals (ts : List Turn) : List Datagram := ts.flatMap Turn.arrived

end NucleoW5500.Udp
