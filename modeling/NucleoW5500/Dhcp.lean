import NucleoW5500.Mealy
import NucleoW5500.Ticks
import NucleoW5500.Udp

/-! The DHCP client: its messages, what it takes from those of a server, and `DHCP_run`. -/

namespace NucleoW5500.Dhcp

open CString Ticks

/-- A datagram that does not fit into the buffer of `wiz_get_dhcp_ip`. -/
inductive Fault
  | msgBounds
  deriving DecidableEq, Repr

/-- `STATE_DHCP_RELEASE` is not used. -/
inductive State
  | init
  | discover
  | request
  | leased
  | rerequest
  | stop
  deriving DecidableEq, Repr

structure Ip where
  b0 : UInt8
  b1 : UInt8
  b2 : UInt8
  b3 : UInt8
  deriving DecidableEq, Repr

structure Mac where
  b0 : UInt8
  b1 : UInt8
  b2 : UInt8
  b3 : UInt8
  b4 : UInt8
  b5 : UInt8
  deriving DecidableEq, Repr

def Ip.bytes (a : Ip) : List UInt8 := [a.b0, a.b1, a.b2, a.b3]

def Mac.bytes (m : Mac) : List UInt8 := [m.b0, m.b1, m.b2, m.b3, m.b4, m.b5]

def Ip.zero : Ip := ⟨0, 0, 0, 0⟩

def Ip.broadcast : Ip := ⟨255, 255, 255, 255⟩

def Mac.zero : Mac := ⟨0, 0, 0, 0, 0, 0⟩

/-- Four reads of `*p++` -/
def peekIp (mem : List UInt8) (i : Nat) : Ip :=
  ⟨peek mem i, peek mem (i + 1), peek mem (i + 2), peek mem (i + 3)⟩

def peekMac (mem : List UInt8) (i : Nat) : Mac :=
  ⟨peek mem i, peek mem (i + 1), peek mem (i + 2), peek mem (i + 3), peek mem (i + 4),
    peek mem (i + 5)⟩

def infiniteLeasetime : UInt32 := 0xffffffff
def dhcpWaitTime : UInt32 := 2
def maxDhcpRetry : Int := 2
def dhcpServerPort : UInt16 := 67
def magicCookie : UInt32 := 0x63825363
def optSize : Nat := 312
def ripMsgSize : Nat := 236 + optSize

/-- `uint8_t buf[1024]` of `wiz_get_dhcp_ip` -/
def msgSize : Nat := 1024

def dhcpDiscover : UInt8 := 1
def dhcpOffer : UInt8 := 2
def dhcpRequest : UInt8 := 3
def dhcpDecline : UInt8 := 4
def dhcpAck : UInt8 := 5
def dhcpNak : UInt8 := 6

def padOption : UInt8 := 0
def subnetMask : UInt8 := 1
def routersOnSubnet : UInt8 := 3
def dns : UInt8 := 6
def hostName : UInt8 := 12
def domainName : UInt8 := 15
def performRouterDiscovery : UInt8 := 31
def staticRoute : UInt8 := 33
def dhcpRequestedIpAddr : UInt8 := 50
def dhcpIpAddrLeaseTime : UInt8 := 51
def dhcpMessageType : UInt8 := 53
def dhcpServerIdentifier : UInt8 := 54
def dhcpParamRequest : UInt8 := 55
def dhcpT1value : UInt8 := 58
def dhcpT2value : UInt8 := 59
def dhcpClientIdentifier : UInt8 := 61
def endOption : UInt8 := 255

/-- `HOST_NAME`, up to its terminator -/
def hostNameBytes : List UInt8 := [87, 73, 90, 110, 101, 116]

/-- What the options of a message set. -/
structure Params where
  sip : Ip
  gw : Ip
  sn : Ip
  dns : Ip
  leaseTime : UInt32
  deriving DecidableEq, Repr

/-- The common registers of the chip that the client reads or writes. -/
structure Net where
  shar : Mac
  sipr : Ip
  subr : Ip
  gar : Ip
  rcr : UInt8
  deriving DecidableEq, Repr

/-- What can be seen of the client from outside. -/
inductive Io
  /-- a message from a server for this client, of type `type`, with its `yiaddr` -/
  | received (type : UInt8) (yiaddr : Ip)
  /-- `RIP_MSG_SIZE` bytes to port 67 -/
  | sent (ip : Ip) (msg : List UInt8)
  /-- the ARP probe for an address, and what `sendto` returned -/
  | probed (ip : Ip) (ret : Int)
  | assigned (ip sn gw : Ip)
  /-- a software reset of the chip -/
  | reset
  deriving DecidableEq, Repr

/-- The statics of `dhcp.c`, the memory from the message buffer on, and the chip. -/
structure Client where
  state : State
  retryCount : Int
  tick1s : UInt32
  tickNext : UInt32
  xid : UInt32
  chaddr : Mac
  ip : Ip
  oldIp : Ip
  params : Params
  mem : List UInt8
  net : Net
  socket : Udp.Socket
  /-- the receive memory of the socket -/
  rxSize : UInt16
  log : List Io
  deriving DecidableEq, Repr

def Client.note (c : Client) (e : Io) : Client := { c with log := c.log ++ [e] }

section Messages

def be32 (v : UInt32) : List UInt8 :=
  [((v &&& 0xFF000000) >>> 24).toUInt8, ((v &&& 0x00FF0000) >>> 16).toUInt8,
    ((v &&& 0x0000FF00) >>> 8).toUInt8, ((v &&& 0x000000FF) >>> 0).toUInt8]

def nibbleToHex (nibble : UInt8) : UInt8 :=
  let nibble := nibble &&& 0x0F
  if nibble ≤ 9 then nibble + 48 else nibble + (65 - 0x0A)

/-- `makeDHCPMSG` up to the options, with the two fields that some messages set anew. -/
def makeDhcpMsg (xid : UInt32) (flags : List UInt8) (ciaddr : Ip) (chaddr : Mac) : List UInt8 :=
  [1, 1, 6, 0] ++ be32 xid ++ [0, 0] ++ flags ++ ciaddr.bytes ++ Ip.zero.bytes ++ Ip.zero.bytes ++
    Ip.zero.bytes ++ chaddr.bytes ++ List.replicate 10 0 ++ List.replicate 64 0 ++
    List.replicate 128 0

def dhcpFlagsBroadcast : List UInt8 := [0x80, 0x00]
def dhcpFlagsUnicast : List UInt8 := [0x00, 0x00]

/-- `OPT`, which ends in zeros -/
def padOpt (opt : List UInt8) : List UInt8 := opt ++ List.replicate (optSize - opt.length) 0

def typeOption (type : UInt8) : List UInt8 := [dhcpMessageType, 0x01, type]

def clientIdOption (chaddr : Mac) : List UInt8 := [dhcpClientIdentifier, 0x07, 0x01] ++ chaddr.bytes

/-- The length is filled in at the end. -/
def hostNameOption (suffix : List UInt8) : List UInt8 :=
  [hostName, UInt8.ofNat (hostNameBytes.length + suffix.length)] ++ hostNameBytes ++ suffix

def addressOptions (ip sip : Ip) : List UInt8 :=
  [dhcpRequestedIpAddr, 0x04] ++ ip.bytes ++ [dhcpServerIdentifier, 0x04] ++ sip.bytes

def discoverMsg (c : Client) : List UInt8 :=
  makeDhcpMsg c.xid dhcpFlagsBroadcast .zero c.chaddr ++ padOpt (be32 magicCookie ++
    typeOption dhcpDiscover ++ clientIdOption c.chaddr ++
    hostNameOption [c.chaddr.b3, c.chaddr.b4, c.chaddr.b5] ++
    [dhcpParamRequest, 0x06, subnetMask, routersOnSubnet, dns, domainName, dhcpT1value,
      dhcpT2value] ++ [endOption])

/-- Where a REQUEST goes to. -/
def requestIp (c : Client) : Ip :=
  if c.state = .leased ∨ c.state = .rerequest then c.params.sip else .broadcast

def hexSuffix (m : Mac) : List UInt8 :=
  [nibbleToHex (m.b3 >>> 4), nibbleToHex m.b3, nibbleToHex (m.b4 >>> 4), nibbleToHex m.b4,
    nibbleToHex (m.b5 >>> 4), nibbleToHex m.b5]

def requestMsg (c : Client) : List UInt8 :=
  (if c.state = .leased ∨ c.state = .rerequest then
    makeDhcpMsg c.xid dhcpFlagsUnicast c.ip c.chaddr
  else makeDhcpMsg c.xid dhcpFlagsBroadcast .zero c.chaddr) ++ padOpt (be32 magicCookie ++
    typeOption dhcpRequest ++ clientIdOption c.chaddr ++
    (if (requestIp c).b3 = 255 then addressOptions c.ip c.params.sip else []) ++
    hostNameOption (hexSuffix c.chaddr) ++
    [dhcpParamRequest, 0x08, subnetMask, routersOnSubnet, dns, domainName, dhcpT1value,
      dhcpT2value, performRouterDiscovery, staticRoute] ++ [endOption])

def declineMsg (c : Client) : List UInt8 :=
  makeDhcpMsg c.xid dhcpFlagsUnicast .zero c.chaddr ++ padOpt (be32 magicCookie ++
    typeOption dhcpDecline ++ clientIdOption c.chaddr ++ addressOptions c.ip c.params.sip ++
    [endOption])

/-- The message is built in the buffer. -/
def sendMsg (c : Client) (ip : Ip) (msg : List UInt8) : Client :=
  { c with mem := overwrite c.mem 0 msg }.note (.sent ip msg)

def sendDhcpDiscover (c : Client) : Client := sendMsg c .broadcast (discoverMsg c)

def sendDhcpRequest (c : Client) : Client := sendMsg c (requestIp c) (requestMsg c)

def sendDhcpDecline (c : Client) : Client := sendMsg c .broadcast (declineMsg c)

end Messages

section Parsing

/-- One pass of the loop over the options, at an option other than `endOption`: where the next
option starts, the type, and the parameters. -/
def parseOption (mem : List UInt8) (p : Nat) (type : UInt8) (q : Params) : Nat × UInt8 × Params :=
  let kind := peek mem p
  let optLen := (peek mem (p + 1)).toNat
  if kind = padOption then (p + 1, type, q)
  else if kind = dhcpMessageType then (p + 3, peek mem (p + 2), q)
  else if kind = subnetMask then (p + 6, type, { q with sn := peekIp mem (p + 2) })
  else if kind = routersOnSubnet then
    (p + 6 + optLen - 4, type, { q with gw := peekIp mem (p + 2) })
  else if kind = dns then (p + 6 + optLen - 4, type, { q with dns := peekIp mem (p + 2) })
  else if kind = dhcpIpAddrLeaseTime then
    let lease := (peek mem (p + 2)).toUInt32
    let lease := (lease <<< 8) + (peek mem (p + 3)).toUInt32
    let lease := (lease <<< 8) + (peek mem (p + 4)).toUInt32
    let lease := (lease <<< 8) + (peek mem (p + 5)).toUInt32
    (p + 6, type, { q with leaseTime := lease })
  else if kind = dhcpServerIdentifier then (p + 6, type, { q with sip := peekIp mem (p + 2) })
  else (p + 2 + optLen, type, q)

/-- `while(p < e)`. Each pass moves `p` on. -/
def parseOptions (mem : List UInt8) (e : Int) : Nat → Nat → UInt8 → Params → UInt8 × Params
  | 0, _, type, q => (type, q)
  | fuel + 1, p, type, q =>
    if (p : Int) < e then
      if peek mem p = endOption then (type, q)
      else
        let (p, type, q) := parseOption mem p type q
        parseOptions mem e fuel p type q
    else (type, q)

/-- What a call of `DHCP_run` meets: whether the socket is open, what the stack holds at
`svr_port`, and what the ARP probe comes to. -/
structure Turn where
  udp : Bool := true
  svrPort : UInt16 := 0
  probe : Int := Udp.sockBusy
  deriving DecidableEq, Repr

def parseDhcpMsg (t : Turn) (c : Client) : Except Fault (UInt8 × Client) :=
  let len := UInt16.ofNat c.socket.rx.length
  if len = 0 then .ok (0, c)
  else
    let (ret, buf, svr, socket) := Udp.recvfrom false len ⟨[], t.svrPort⟩ c.socket
    if msgSize < buf.length then .error .msgBounds
    else
      let c := { c with socket, mem := overwrite c.mem 0 buf }
      let len := UInt16.ofInt ret
      if svr.port ≠ dhcpServerPort then .ok (0, c)
      else if peekMac c.mem 28 ≠ c.chaddr then .ok (0, c)
      else
        let (type, params) := parseOptions c.mem len.toNat len.toNat 240 0 c.params
        .ok (type, { c with params }.note (.received type (peekIp c.mem 16)))

end Parsing

section Running

def resetDhcpTimeout (c : Client) : Client :=
  { c with tick1s := 0, tickNext := dhcpWaitTime, retryCount := 0 }

def dhcpTimeHandler (c : Client) : Client := { c with tick1s := c.tick1s + 1 }

def defaultIpAssign (c : Client) : Client :=
  { c with net := { c.net with sipr := c.ip, subr := c.params.sn, gar := c.params.gw } }.note
    (.assigned c.ip c.params.sn c.params.gw)

/-- `setMR(MR_RST)`, which closes all sockets too -/
def softwareReset (c : Client) : Client :=
  { c with net := ⟨.zero, .zero, .zero, .zero, 8⟩, socket := c.socket.reopen }.note .reset

def setShar (c : Client) (mac : Mac) : Client := { c with net := { c.net with shar := mac } }

/-- `default_ip_conflict` -/
def defaultIpConflict (c : Client) : Client := setShar (softwareReset c) c.chaddr

/-- `default_ip_update` -/
def defaultIpUpdate (c : Client) : Client := setShar (defaultIpAssign (softwareReset c)) c.chaddr

def sockerrIpinvalid : Int := -12
def sockerrTimeout : Int := -13

def setRcr (c : Client) (rcr : UInt8) : Client := { c with net := { c.net with rcr } }

/-- `check_DHCP_leasedIP`. After a DECLINE it waits for two seconds. -/
def checkDhcpLeasedIp (t : Turn) (c : Client) : Bool × Client :=
  let tmp := c.net.rcr
  let c := setRcr c 0x03
  let ret := if c.ip = .zero then sockerrIpinvalid else t.probe
  let c := setRcr (c.note (.probed c.ip ret)) tmp
  if ret = sockerrTimeout then (true, c)
  else
    let c := sendDhcpDecline c
    (false, { c with tick1s := c.tick1s + 2 })

def checkDhcpTimeout (c : Client) : DhcpRun × Client :=
  if c.retryCount < maxDhcpRetry then
    if c.tickNext < c.tick1s then
      let c := match c.state with
        | .discover => sendDhcpDiscover c
        | .request => sendDhcpRequest c
        | .rerequest => sendDhcpRequest c
        | _ => c
      (.running,
        { c with tick1s := 0, tickNext := 0 + dhcpWaitTime, retryCount := c.retryCount + 1 })
    else (.running, c)
  else
    match c.state with
    | .discover => (.failed, resetDhcpTimeout { c with state := .init })
    | .request => (.running, resetDhcpTimeout { sendDhcpDiscover c with state := .discover })
    | .rerequest => (.running, resetDhcpTimeout { sendDhcpDiscover c with state := .discover })
    | _ => (.running, resetDhcpTimeout c)

/-- `switch (dhcp_state)` of `DHCP_run`, for a message of type `type`. -/
def respond (t : Turn) (type : UInt8) (c : Client) : DhcpRun × Client :=
  match c.state with
  | .init => (.running, { sendDhcpDiscover { c with ip := .zero } with state := .discover })
  | .discover =>
    if type = dhcpOffer then
      (.running, { sendDhcpRequest { c with ip := peekIp c.mem 16 } with state := .request })
    else checkDhcpTimeout c
  | .request =>
    if type = dhcpAck then
      let (unique, c) := checkDhcpLeasedIp t c
      if unique then (.running, { resetDhcpTimeout (defaultIpAssign c) with state := .leased })
      else (.running, { defaultIpConflict (resetDhcpTimeout c) with state := .init })
    else if type = dhcpNak then (.running, { resetDhcpTimeout c with state := .discover })
    else checkDhcpTimeout c
  | .leased =>
    if c.params.leaseTime ≠ infiniteLeasetime ∧ c.params.leaseTime / 2 < c.tick1s then
      let c := { c with oldIp := c.ip, xid := c.xid + 1 }
      (.ipLeased, { resetDhcpTimeout (sendDhcpRequest c) with state := .rerequest })
    else (.ipLeased, c)
  | .rerequest =>
    if type = dhcpAck then
      let c := { c with retryCount := 0 }
      let (ret, c) := if c.oldIp ≠ c.ip then (.ipChanged, defaultIpUpdate c) else (.ipLeased, c)
      (ret, { resetDhcpTimeout c with state := .leased })
    else if type = dhcpNak then (.ipLeased, { resetDhcpTimeout c with state := .discover })
    else checkDhcpTimeout c
  | .stop => (.running, c)

def dhcpRun (t : Turn) (c : Client) : Except Fault (DhcpRun × Client) :=
  if c.state = .stop then .ok (.stopped, c)
  else
    let c := if t.udp then c else { c with socket := c.socket.reopen }
    match parseDhcpMsg t c with
    | .error f => .error f
    | .ok (type, c) => .ok (respond t type c)

def dhcpInit (c : Client) : Client :=
  let chaddr := c.net.shar
  let c := if chaddr = .zero then
      setShar { c with chaddr := ⟨0x00, 0x08, 0xdc, 0x00, 0x00, 0x00⟩ } ⟨0x00, 0x08, 0xdc, 0, 0, 0⟩
    else { c with chaddr }
  let c := { c with xid := 0x12345678, net := { c.net with sipr := .zero, gar := .zero } }
  { resetDhcpTimeout c with state := .init }

def dhcpStop (c : Client) : Client := { c with socket := c.socket.reopen, state := .stop }

end Running

inductive Step
  | arrive (d : Udp.Datagram)
  | second
  | run (t : Turn)
  deriving DecidableEq

/-- The chip drops a datagram for which there is no room. -/
def Client.arrive (c : Client) (d : Udp.Datagram) : Client :=
  if c.socket.rx.length + d.bytes.length ≤ c.rxSize.toNat then
    { c with socket := c.socket.arrive [d] }
  else c

/-- What `DHCP_run` returns, if it is called, and the client after that. -/
def Client.step (c : Client) : Step → Except Fault (List DhcpRun × Client)
  | .arrive d => .ok ([], c.arrive d)
  | .second => .ok ([], dhcpTimeHandler c)
  | .run t => (dhcpRun t c).map fun r => ([r.1], r.2)

def Client.steps (ss : List Step) (c : Client) : Except Fault (List DhcpRun × Client) :=
  Mealy.run Client.step ss c

end NucleoW5500.Dhcp
