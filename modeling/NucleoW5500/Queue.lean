import NucleoW5500.PacketList

/-! The event loop over the ring of packets. The list is empty between two turns, so that
every packet goes from `recv_tcp_packet3` to the processor in the turn that finishes it. -/

namespace NucleoW5500.Linked

open CString Lockstep

structure Client where
  receiver : Receiver
  bigfile : BigfileState
  packetList : PacketList
  comm : CommMeta

def Client.start : Client := ⟨.start, .start, .start, ⟨⟨[0, 0, 0, 0], 0⟩, .dhcp⟩⟩

def clientEstablished (env : HeapEnv) (c : Client) : CM (Bool × Client × List ClientEvent) := do
  let (p, receiver) ← recvTcpPacket3 env c.receiver
  match p with
  | none => pure (false, { c with receiver }, [])
  | some p =>
    pure (true, { c with receiver, packetList := listAddTail p c.packetList }, [.queued p])

def clientClosed (t : Turn) (c : Client) : CM (Bool × Client × List ClientEvent) := do
  closeSocket
  dumpTcpPacket3List c.packetList
  let packetList ← freeTcpPacket3List c.packetList
  let operation := if t.socketRet = sockerrSockinit then .dhcp else c.comm.operation
  pure (false, { c with packetList, comm := { c.comm with operation } }, [.closed, .opened t.port])

def clientInit (c : Client) : Bool × Client × List ClientEvent :=
  if c.comm.operation = .connectHost then
    (false, { c with comm := { c.comm with operation := .wait } }, [.connected c.comm.host])
  else (false, c, [])

def commTcpClient (env : HeapEnv) (t : Turn) (c : Client) : CM (Bool × Client × List ClientEvent) :=
  match t.status with
  | .established => clientEstablished env c
  | .closeWait => pure (false, c, [.disconnected])
  | .closed => clientClosed t c
  | .init => pure (clientInit c)
  | .other => pure (false, c, [])

def commUdpServer (t : Turn) (c : Client) : Client :=
  match t.ewCon with
  | none => c
  | some host => { c with comm := ⟨host, .connectHost⟩ }

/-- The event carries the packet as it is in memory when it is taken off the list. -/
def commTcpPacketHandler (env : HeapEnv) (c : Client) : CM (Client × List ClientEvent) := do
  let (p, _) ← getReceivedPacket c.packetList
  let (packetList, bigfile) ← tcpPacket3Processor env c.bigfile c.packetList
  pure ({ c with packetList, bigfile }, p.toList.map .processed)

def commHandler (env : HeapEnv) (t : Turn) (c : Client) : CM (Client × List ClientEvent) := do
  t.arrive
  match c.comm.operation with
  | .dhcp => pure ({ c with comm := { c.comm with operation := .wait } }, [])
  | .wait | .connectHost =>
    let (received, c, events) ← commTcpClient env t (commUdpServer t c)
    if received then
      let (c, events') ← commTcpPacketHandler env c
      pure (c, events ++ events')
    else pure (c, events)

def runTurns (env : HeapEnv) : List Turn → Client → CM (Client × List ClientEvent)
  | [], c => pure (c, [])
  | t :: ts, c => do
    let (c, events) ← commHandler env t c
    let (c, events') ← runTurns env ts c
    pure (c, events ++ events')

/-- The client over the plain list. -/
def Client.view (c : Client) (ps : List (Block TcpPacket3)) : NucleoW5500.Client :=
  ⟨c.receiver, c.bigfile, ps, c.comm⟩

/-- Between two turns: nothing is waiting, and all that was received has been processed. -/
structure Between (r : Client × List ClientEvent) (r' : NucleoW5500.Client × List ClientEvent) :
    Prop where
  holds : Holds r.1.packetList []
  view : r'.1 = r.1.view []
  events : r.2 = r'.2
  processed : processed r.2 = queued r.2

theorem Holds.udp {t : Turn} {c : Client} (h : Holds c.packetList []) :
    Holds (commUdpServer t c).packetList [] := by
  rw [commUdpServer]
  cases t.ewCon <;> exact h

end NucleoW5500.Linked
