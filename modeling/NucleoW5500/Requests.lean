import NucleoW5500.Datagrams

/-! The event loop over both sockets, and what becomes of a request to connect. The server,
the client and the DHCP branch share one variable for it. -/

namespace NucleoW5500

structure System where
  client : Client
  udp : Udp.Socket
  delay : Int
  deriving DecidableEq, Repr

def System.start : System := ⟨.start, Udp.Server.start.socket, 0⟩

structure SystemTurn where
  udp : Udp.Turn
  tcp : Turn

/-- What happens to requests: `comm_udp_server` accepts one, `comm_tcp_client` calls `connect`,
or finds in `SOCK_CLOSED` that the chip has no address. -/
inductive Request
  | accept (h : IpPort)
  | connect (h : IpPort)
  | unaddressed
  deriving DecidableEq, Repr

def connects (es : List ClientEvent) : List Request :=
  es.filterMap fun
    | .connected h => some (.connect h)
    | _ => none

def unaddressed (t : Turn) : List Request :=
  if t.status = .closed ∧ t.socketRet = sockerrSockinit then [.unaddressed] else []

/-- `default` -/
def System.commSockets (env : HeapEnv) (t : SystemTurn) (s : System) :
    CM (System × List Request) := do
  let (server, events) := Udp.commUdpServer t.udp ⟨s.udp, s.client.comm, s.delay⟩
  let (received, c, events') ← commTcpClient env t.tcp { s.client with comm := server.comm }
  let log := (Udp.hosts events).map .accept ++ (connects events' ++ unaddressed t.tcp)
  if received then
    let (c, _) ← commTcpPacketHandler env c
    pure (⟨c, server.socket, server.delay⟩, log)
  else pure (⟨c, server.socket, server.delay⟩, log)

def System.commHandler (env : HeapEnv) (t : SystemTurn) (s : System) :
    CM (System × List Request) := do
  t.tcp.arrive
  match s.client.comm.operation with
  | .dhcp =>
    pure (⟨{ s.client with comm := { s.client.comm with operation := .wait } },
      s.udp.arrive t.udp.arrived, s.delay⟩, [])
  | .wait | .connectHost => s.commSockets env t

def System.runTurns (env : HeapEnv) : List SystemTurn → System → CM (System × List Request)
  | [], s => pure (s, [])
  | t :: ts, s => do
    let (s, log) ← s.commHandler env t
    let (s, log') ← runTurns env ts s
    pure (s, log ++ log')

/-- `connect` is only called for the request that has just been accepted. -/
def Requested (log : List Request) : Prop :=
  ∀ before h after, log = before ++ .connect h :: after → before.getLast? = some (.accept h)

/-- The request in `comm` is the last thing that has happened. -/
structure Pending (comm : CommMeta) (log : List Request) : Prop where
  requested : Requested log
  last : ∀ h, comm = ⟨h, .connectHost⟩ ↔ log.getLast? = some (.accept h)

theorem Requested.concat {log : List Request} (h : Requested log) {r : Request}
    (hr : ∀ h, r = .connect h → log.getLast? = some (.accept h)) : Requested (log ++ [r]) := by
  intro before host after heq
  rcases List.eq_nil_or_concat after with rfl | ⟨after, x, rfl⟩
  · obtain ⟨rfl, hlast⟩ := List.append_inj' heq rfl
    exact hr host (List.singleton_inj.mp hlast)
  · rw [List.concat_eq_append, ← List.cons_append, ← List.append_assoc] at heq
    obtain ⟨heq, -⟩ := List.append_inj' heq rfl
    exact h before host after heq

theorem Pending.start : Pending Client.start.comm [] := by
  refine ⟨fun before h after heq => ?_, fun h => ?_⟩
  · simp at heq
  · simp [Client.start]

section Pending

variable {comm : CommMeta} {log : List Request}

theorem Pending.accept (hp : Pending comm log) (h : IpPort) :
    Pending ⟨h, .connectHost⟩ (log ++ [.accept h]) := by
  refine ⟨hp.requested.concat fun _ hr => (nomatch hr), fun h' => ?_⟩
  rw [List.getLast?_concat]
  simp

theorem Pending.connect (hp : Pending comm log) (hop : comm.operation = .connectHost) :
    Pending { comm with operation := .wait } (log ++ [.connect comm.host]) := by
  refine ⟨hp.requested.concat fun h hr => ?_, fun h => ?_⟩
  · obtain rfl := Request.connect.inj hr
    rw [← hp.last, ← hop]
  · rw [List.getLast?_concat]
    simp

theorem Pending.unaddressed (hp : Pending comm log) :
    Pending { comm with operation := .dhcp } (log ++ [.unaddressed]) := by
  refine ⟨hp.requested.concat fun _ hr => (nomatch hr), fun h => ?_⟩
  rw [List.getLast?_concat]
  simp

theorem Pending.wait (hp : Pending comm log) (hop : comm.operation = .dhcp) :
    Pending { comm with operation := .wait } log := by
  refine ⟨hp.requested, fun h => ?_⟩
  rw [← hp.last]
  constructor
  · intro heq
    cases congrArg CommMeta.operation heq
  · rintro rfl
    cases hop

end Pending

theorem commTcpClient_pending {env : HeapEnv} {t : Turn} {c c' : Client} {w w' : World}
    {received : Bool} {es : List ClientEvent} {log : List Request} (hp : Pending c.comm log)
    (h : commTcpClient env t c w = .ok (received, c', es) w') :
    Pending c'.comm (log ++ (connects es ++ unaddressed t)) := by
  rw [unaddressed]
  cases commTcpClient_call h with
  | nothing hs _ => simpa [connects, hs] using hp
  | packet hs _ => simpa [connects, hs] using hp
  | closeWait hs => simpa [connects, hs] using hp
  | closed hs _ _ =>
    by_cases hret : t.socketRet = sockerrSockinit
    · simpa [connects, hs, hret] using hp.unaddressed
    · simpa [connects, hs, hret] using hp
  | connect hs hop => simpa [connects, hs] using hp.connect hop
  | init hs _ => simpa [connects, hs] using hp
  | other hs => simpa [connects, hs] using hp

theorem commTcpPacketHandler_comm {env : HeapEnv} {c c' : Client} {w w' : World}
    {es : List ClientEvent} (h : commTcpPacketHandler env c w = .ok (c', es) w') :
    c'.comm = c.comm := by
  obtain ⟨⟨packetList, bigfile⟩, w₁, -, h⟩ := CM.bind_eq_ok.mp h
  cases h
  rfl

def System.server (s : System) (t : SystemTurn) : Udp.Server × List Udp.Event :=
  Udp.commUdpServer t.udp ⟨s.udp, s.client.comm, s.delay⟩

/-- A turn on both sockets that returns, and the calls it makes. -/
inductive Handles (env : HeapEnv) (t : SystemTurn) (s : System) (w : World) :
    System → List Request → World → Prop
  | idle {c : Client} {es : List ClientEvent} {w' : World} :
      commTcpClient env t.tcp { s.client with comm := (s.server t).1.comm } w =
        .ok (false, c, es) w' →
      Handles env t s w ⟨c, (s.server t).1.socket, (s.server t).1.delay⟩
        ((Udp.hosts (s.server t).2).map .accept ++ (connects es ++ unaddressed t.tcp)) w'
  | packet {c c' : Client} {es es' : List ClientEvent} {w₁ w' : World} :
      commTcpClient env t.tcp { s.client with comm := (s.server t).1.comm } w =
        .ok (true, c, es) w₁ →
      commTcpPacketHandler env c w₁ = .ok (c', es') w' →
      Handles env t s w ⟨c', (s.server t).1.socket, (s.server t).1.delay⟩
        ((Udp.hosts (s.server t).2).map .accept ++ (connects es ++ unaddressed t.tcp)) w'

theorem System.commSockets_handles {env : HeapEnv} {t : SystemTurn} {s s' : System} {w w' : World}
    {log : List Request} (h : s.commSockets env t w = .ok (s', log) w') :
    Handles env t s w s' log w' := by
  obtain ⟨⟨received, c, es⟩, w₁, hcall, h⟩ := CM.bind_eq_ok.mp h
  cases received with
  | false =>
    cases h
    exact .idle hcall
  | true =>
    obtain ⟨⟨c', es'⟩, w₂, hpacket, h⟩ := CM.bind_eq_ok.mp h
    cases h
    exact .packet hcall hpacket

/-- The turn as the client alone sees it, with the request that the server takes in it. -/
def SystemTurn.client (t : SystemTurn) (s : System) : Turn :=
  { t.tcp with ewCon := (Udp.hosts (s.server t).2).head? }

theorem commUdpServer_client (t : SystemTurn) (s : System) :
    commUdpServer (t.client s) s.client = { s.client with comm := (s.server t).1.comm } := by
  rw [commUdpServer, SystemTurn.client, System.server]
  rcases Udp.commUdpServer_hosts t.udp ⟨s.udp, s.client.comm, s.delay⟩ with
    ⟨hnone, hcomm⟩ | ⟨h, hone, hcomm⟩
  · rw [hnone, hcomm]
    rfl
  · rw [hone, hcomm]
    rfl

/-- The event loop over both sockets does to the client what the loop of the client does. -/
theorem System.commHandler_client {env : HeapEnv} {t : SystemTurn} {s s' : System} {w w' : World}
    {log : List Request} (h : s.commHandler env t w = .ok (s', log) w') :
    ∃ es, NucleoW5500.commHandler env (t.client s) s.client w = .ok (s'.client, es) w' := by
  have harrive : (t.client s).arrive w = .ok () { w with incoming := w.incoming ++ t.tcp.arrived } :=
    rfl
  have hsame : commTcpClient env (t.client s) = commTcpClient env t.tcp := rfl
  rw [System.commHandler, Turn.arrive, CM.bind_ok (CM.modify_apply _ w)] at h
  rw [NucleoW5500.commHandler, CM.bind_ok harrive, commUdpServer_client, hsame]
  have hsockets : s.commSockets env t { w with incoming := w.incoming ++ t.tcp.arrived } =
      .ok (s', log) w' → ∃ es, (do
        let (received, c, events) ←
          commTcpClient env t.tcp { s.client with comm := (s.server t).1.comm }
        if received then
          let (c, events') ← commTcpPacketHandler env c
          pure (c, events ++ events')
        else pure (c, events) : CM (Client × List ClientEvent))
          { w with incoming := w.incoming ++ t.tcp.arrived } = .ok (s'.client, es) w' := by
    intro h
    cases System.commSockets_handles h with
    | idle hcall =>
      rw [CM.bind_ok hcall]
      exact ⟨_, rfl⟩
    | packet hcall hpacket =>
      rw [CM.bind_ok hcall]
      exact ⟨_, CM.bind_ok hpacket⟩
  cases hop : s.client.comm.operation with
  | dhcp =>
    rw [hop] at h
    cases h
    exact ⟨[], rfl⟩
  | wait =>
    rw [hop] at h
    exact hsockets h
  | connectHost =>
    rw [hop] at h
    exact hsockets h

theorem Pending.server {s : System} {log : List Request} (hp : Pending s.client.comm log)
    (t : SystemTurn) :
    Pending (s.server t).1.comm (log ++ (Udp.hosts (s.server t).2).map .accept) := by
  rw [System.server]
  rcases Udp.commUdpServer_hosts t.udp ⟨s.udp, s.client.comm, s.delay⟩ with
    ⟨hnone, hcomm⟩ | ⟨h, hone, hcomm⟩
  · rw [hnone, hcomm, List.map_nil, List.append_nil]
    exact hp
  · rw [hone, hcomm]
    exact hp.accept h

theorem System.commSockets_pending {env : HeapEnv} {t : SystemTurn} {s s' : System} {w w' : World}
    {log log' : List Request} (hp : Pending s.client.comm log)
    (h : s.commSockets env t w = .ok (s', log') w') : Pending s'.client.comm (log ++ log') := by
  have hserver := hp.server t
  cases System.commSockets_handles h with
  | idle hcall =>
    have hturn := commTcpClient_pending (c := { s.client with comm := (s.server t).1.comm }) hserver
      hcall
    rwa [List.append_assoc] at hturn
  | packet hcall hpacket =>
    have hturn := commTcpClient_pending (c := { s.client with comm := (s.server t).1.comm }) hserver
      hcall
    rw [List.append_assoc] at hturn
    rwa [commTcpPacketHandler_comm hpacket]

theorem System.commHandler_pending {env : HeapEnv} {t : SystemTurn} {s s' : System} {w w' : World}
    {log log' : List Request} (hp : Pending s.client.comm log)
    (h : s.commHandler env t w = .ok (s', log') w') : Pending s'.client.comm (log ++ log') := by
  rw [System.commHandler, Turn.arrive, CM.bind_ok (CM.modify_apply _ w)] at h
  cases hop : s.client.comm.operation with
  | dhcp =>
    rw [hop] at h
    cases h
    rw [List.append_nil]
    exact hp.wait hop
  | wait =>
    rw [hop] at h
    exact System.commSockets_pending hp h
  | connectHost =>
    rw [hop] at h
    exact System.commSockets_pending hp h

theorem System.runTurns_pending {env : HeapEnv} {ts : List SystemTurn} {s s' : System}
    {w w' : World} {log log' : List Request} (hp : Pending s.client.comm log)
    (hrun : s.runTurns env ts w = .ok (s', log') w') : Pending s'.client.comm (log ++ log') := by
  induction ts generalizing s w log log' with
  | nil =>
    cases hrun
    rwa [List.append_nil]
  | cons t ts ih =>
    obtain ⟨⟨s₁, log₁⟩, w₁, hfirst, hrun⟩ := CM.bind_eq_ok.mp hrun
    obtain ⟨⟨s₂, log₂⟩, w₂, hrest, hret⟩ := CM.bind_eq_ok.mp hrun
    cases hret
    rw [← List.append_assoc]
    exact ih (System.commHandler_pending hp hfirst) hrest

/-- A request to connect. Between two turns of any run, `comm` holds a request exactly when
nothing has happened to it since it was accepted: no `connect`, no later request, and no
closed socket on a chip without an address. And every `connect` goes to the host that
had been accepted just before, with no other `connect` in between. -/
theorem System.runTurns_requests {env : HeapEnv} {ts : List SystemTurn} {s : System}
    {w w' : World} {log : List Request}
    (hrun : System.runTurns env ts .start w = .ok (s, log) w') :
    (∀ h, s.client.comm = ⟨h, .connectHost⟩ ↔ log.getLast? = some (.accept h)) ∧
      ∀ before h after, log = before ++ .connect h :: after →
        before.getLast? = some (.accept h) := by
  have hp := System.runTurns_pending (s := .start) Pending.start hrun
  rw [List.nil_append] at hp
  exact ⟨hp.last, hp.requested⟩

theorem connectDatagram_address : ([10, 0, 0, 1] : List UInt8).length = 4 := rfl

theorem connectDatagram_fits :
    (Udp.ewCon ++ [53, 48, 48, 48, 32, 119, 53, 53, 48, 48]).length < 65536 := by decide

/-- `"ew con 5000 w5500"` -/
def connectDatagram : Udp.Datagram where
  sender := ⟨[10, 0, 0, 1], 8279⟩
  data := Udp.ewCon ++ [53, 48, 48, 48, 32, 119, 53, 53, 48, 48]
  address := connectDatagram_address
  fits := connectDatagram_fits

/-- The datagram comes in on the turn after the first, which sees to the address. -/
def requestTurns (t : Turn) : List SystemTurn :=
  [⟨{ status := .udp }, { status := .other }⟩, ⟨.receive [connectDatagram], t⟩]

theorem System.runTurns_requests_init :
    ∃ s w', System.runTurns .ample (requestTurns { status := .init }) .start {} =
        .ok (s, [.accept ⟨[10, 0, 0, 1], 5000⟩, .connect ⟨[10, 0, 0, 1], 5000⟩]) w' ∧
      (∀ h, s.client.comm ≠ ⟨h, .connectHost⟩) := by
  have hrun : System.runTurns .ample (requestTurns { status := .init }) .start {} =
      .ok (⟨⟨.start, .start, [], ⟨⟨[10, 0, 0, 1], 5000⟩, .wait⟩⟩, ⟨[], 0, 25⟩, 0⟩,
        [.accept ⟨[10, 0, 0, 1], 5000⟩, .connect ⟨[10, 0, 0, 1], 5000⟩]) {} := by
    decide +kernel
  refine ⟨_, _, hrun, fun h hcomm => ?_⟩
  have hlast := ((System.runTurns_requests hrun).1 h).mp hcomm
  cases hlast

/-- The request is accepted, and lost in the same turn: the closed socket has no address. The
next turn sees to the address, and the one after that has nothing to connect to. -/
theorem System.runTurns_forgets :
    let ts := requestTurns { status := .closed, socketRet := sockerrSockinit } ++
      [⟨{ status := .udp }, { status := .init }⟩, ⟨{ status := .udp }, { status := .init }⟩]
    ∃ s w', System.runTurns .ample ts .start {} =
        .ok (s, [.accept ⟨[10, 0, 0, 1], 5000⟩, .unaddressed]) w' ∧
      s.client.comm = ⟨⟨[10, 0, 0, 1], 5000⟩, .wait⟩ := by
  intro ts
  have hrun : System.runTurns .ample ts .start {} =
      .ok (⟨⟨.start, .start, [], ⟨⟨[10, 0, 0, 1], 5000⟩, .wait⟩⟩, ⟨[], 0, 25⟩, 0⟩,
        [.accept ⟨[10, 0, 0, 1], 5000⟩, .unaddressed]) {} := by
    decide +kernel
  exact ⟨_, _, hrun, rfl⟩

end NucleoW5500
