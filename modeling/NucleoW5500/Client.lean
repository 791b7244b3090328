import NucleoW5500.Processor
import NucleoW5500.Receiver

/-! The TCP client. Each turn of the event loop looks at the status of the socket once,
reads at most one piece of a packet, and processes a packet that it completes. -/

namespace NucleoW5500

open CString

/-- The values of the status register that `comm_tcp_client` tells apart. -/
inductive SockStatus
  | closed
  | init
  | established
  | closeWait
  | other
  deriving DecidableEq, Repr

/-- `enum operation_list` -/
inductive Operation
  | dhcp
  | wait
  | connectHost
  deriving DecidableEq, Repr

structure IpPort where
  ip : List UInt8
  port : UInt16
  deriving DecidableEq, Repr

structure CommMeta where
  host : IpPort
  operation : Operation
  deriving DecidableEq, Repr

/-- The statics of the client and of the functions it calls. -/
structure Client where
  receiver : Receiver
  bigfile : BigfileState
  packetList : List (Block TcpPacket3)
  comm : CommMeta
  deriving DecidableEq, Repr

def Client.start : Client :=
  ⟨.start, .start, [], ⟨⟨[0, 0, 0, 0], 0⟩, .dhcp⟩⟩

/-- What one turn of the event loop meets: the status register, the bytes that come in up
to its end, the host of an `ew con` datagram if `comm_udp_server` takes one, a random
port, and what `socket` returns. -/
structure Turn where
  status : SockStatus
  arrived : List UInt8 := []
  ewCon : Option IpPort := none
  port : UInt16 := 0
  socketRet : Int := 0
  deriving DecidableEq, Repr

def Turn.established (bs : List UInt8) : Turn where
  status := .established
  arrived := bs

inductive ClientEvent
  | queued (p : Block TcpPacket3)
  | processed (p : Block TcpPacket3)
  | disconnected
  | closed
  | opened (port : UInt16)
  | connected (host : IpPort)
  deriving DecidableEq, Repr

def sockerrSockinit : Int := -3

def Turn.arrive (t : Turn) : CM Unit := CM.modify fun w => { w with incoming := w.incoming ++ t.arrived }

/-- `close(sock)` drops the receive buffer. -/
def closeSocket : CM Unit := CM.modify fun w => { w with incoming := [] }

def dumpTcpPacket3List : List (Block TcpPacket3) → CM Unit
  | [] => pure ()
  | p :: ps => do
    printTcpPacket3 p.val 8
    dumpTcpPacket3List ps

def freeTcpPacket3List : List (Block TcpPacket3) → CM Unit
  | [] => pure ()
  | p :: ps => do
    free p.addr
    freeTcpPacket3List ps

def clientEstablished (env : HeapEnv) (c : Client) : CM (Bool × Client × List ClientEvent) := do
  let (p, receiver) ← recvTcpPacket3 env c.receiver
  match p with
  | none => pure (false, { c with receiver }, [])
  | some p => pure (true, { c with receiver, packetList := c.packetList ++ [p] }, [.queued p])

def clientClosed (t : Turn) (c : Client) : CM (Bool × Client × List ClientEvent) := do
  closeSocket
  dumpTcpPacket3List c.packetList
  freeTcpPacket3List c.packetList
  let operation := if t.socketRet = sockerrSockinit then .dhcp else c.comm.operation
  pure (false, { c with packetList := [], comm := { c.comm with operation } },
    [.closed, .opened t.port])

def clientInit (c : Client) : Bool × Client × List ClientEvent :=
  if c.comm.operation = .connectHost then
    (false, { c with comm := { c.comm with operation := .wait } }, [.connected c.comm.host])
  else (false, c, [])

/-- Whether a packet was received, the statics, and what was done on the way. -/
def commTcpClient (env : HeapEnv) (t : Turn) (c : Client) : CM (Bool × Client × List ClientEvent) :=
  match t.status with
  | .established => clientEstablished env c
  | .closeWait => pure (false, c, [.disconnected])
  | .closed => clientClosed t c
  | .init => pure (clientInit c)
  | .other => pure (false, c, [])

/-- A call of `comm_tcp_client` that returns. -/
inductive ClientCall (env : HeapEnv) (t : Turn) (c : Client) (w : World) :
    Bool → Client → List ClientEvent → World → Prop
  | nothing {receiver : Receiver} {w' : World} : t.status = .established →
      recvTcpPacket3 env c.receiver w = .ok (none, receiver) w' →
      ClientCall env t c w false { c with receiver } [] w'
  | packet {p : Block TcpPacket3} {receiver : Receiver} {w' : World} : t.status = .established →
      recvTcpPacket3 env c.receiver w = .ok (some p, receiver) w' →
      ClientCall env t c w true { c with receiver, packetList := c.packetList ++ [p] } [.queued p] w'
  | closeWait : t.status = .closeWait → ClientCall env t c w false c [.disconnected] w
  | closed {w₁ w' : World} : t.status = .closed →
      dumpTcpPacket3List c.packetList { w with incoming := [] } = .ok () w₁ →
      freeTcpPacket3List c.packetList w₁ = .ok () w' →
      ClientCall env t c w false
        { c with
          packetList := []
          comm := ⟨c.comm.host, if t.socketRet = sockerrSockinit then .dhcp else c.comm.operation⟩ }
        [.closed, .opened t.port] w'
  | connect : t.status = .init → c.comm.operation = .connectHost →
      ClientCall env t c w false { c with comm := ⟨c.comm.host, .wait⟩ } [.connected c.comm.host] w
  | init : t.status = .init → c.comm.operation ≠ .connectHost → ClientCall env t c w false c [] w
  | other : t.status = .other → ClientCall env t c w false c [] w

theorem commTcpClient_call {env : HeapEnv} {t : Turn} {c c' : Client} {w w' : World}
    {received : Bool} {es : List ClientEvent}
    (h : commTcpClient env t c w = .ok (received, c', es) w') :
    ClientCall env t c w received c' es w' := by
  rw [commTcpClient] at h
  cases hs : t.status with
  | established =>
    rw [hs] at h
    obtain ⟨⟨p, receiver⟩, w₁, hrecv, h⟩ := CM.bind_eq_ok.mp h
    cases p with
    | none =>
      cases h
      exact .nothing hs hrecv
    | some p =>
      cases h
      exact .packet hs hrecv
  | closeWait =>
    rw [hs] at h
    cases h
    exact .closeWait hs
  | closed =>
    have hclose : closeSocket w = .ok () { w with incoming := [] } := rfl
    have h : clientClosed t c w = .ok (received, c', es) w' := by rwa [hs] at h
    rw [clientClosed, CM.bind_ok hclose] at h
    obtain ⟨⟨⟩, w₁, hdump, h⟩ := CM.bind_eq_ok.mp h
    obtain ⟨⟨⟩, w₂, hfree, h⟩ := CM.bind_eq_ok.mp h
    cases h
    exact .closed hs hdump hfree
  | init =>
    have h : (pure (clientInit c) : CM _) w = .ok (received, c', es) w' := by rwa [hs] at h
    rw [clientInit] at h
    by_cases hop : c.comm.operation = .connectHost
    · rw [if_pos hop] at h
      cases h
      exact .connect hs hop
    · rw [if_neg hop] at h
      cases h
      exact .init hs hop
  | other =>
    rw [hs] at h
    cases h
    exact .other hs

/-- What `comm_udp_server` does to `comm`. -/
def commUdpServer (t : Turn) (c : Client) : Client :=
  match t.ewCon with
  | none => c
  | some host => { c with comm := ⟨host, .connectHost⟩ }

def commTcpPacketHandler (env : HeapEnv) (c : Client) : CM (Client × List ClientEvent) := do
  let (packetList, bigfile) ← tcpPacket3Processor env c.bigfile c.packetList
  pure ({ c with packetList, bigfile }, c.packetList.head?.toList.map .processed)

def commHandler (env : HeapEnv) (t : Turn) (c : Client) : CM (Client × List ClientEvent) := do
  t.arrive
  match c.comm.operation with
  | .dhcp => pure ({ c with comm := { c.comm with operation := .wait } }, [])
  | .wait | .connectHost =>
    let (received, c, events) ← commTcpClient env t (commUdpServer t c)
    if received then
      let (c, events') ← commTcpPacketHandler env c
      pure (c, events ++ events')
    else pure (c, events)

def clientTurn (env : HeapEnv) (t : Turn) (c : Client) : CM (Client × List ClientEvent) := do
  t.arrive
  let (_, c, events) ← commTcpClient env t c
  pure (c, events)

def runTurns (turn : Turn → Client → CM (Client × List ClientEvent)) :
    List Turn → Client → CM (Client × List ClientEvent)
  | [], c => pure (c, [])
  | t :: ts, c => do
    let (c, events) ← turn t c
    let (c, events') ← runTurns turn ts c
    pure (c, events ++ events')

def arrivals (ts : List Turn) : List UInt8 := ts.flatMap Turn.arrived

/-- The bytes that turns have read, when some of what came in is still in the buffer. -/
def bytesRead (ts : List Turn) (w : World) : List UInt8 :=
  (arrivals ts).take ((arrivals ts).length - w.incoming.length)

end NucleoW5500
