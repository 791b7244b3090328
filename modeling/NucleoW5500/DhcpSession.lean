import NucleoW5500.DhcpInbox
import NucleoW5500.DhcpLease

/-! The DHCP client with a server that answers it, and `wiz_get_dhcp_ip` around the client. -/

namespace NucleoW5500.Dhcp

open CString Ticks Udp

section Handshake

def wait (n : Nat) : List Step := List.replicate n .second

/-- What `r` leaves behind in a client that has waited. -/
structure Took (c : Client) (r : Reply) (gone : List Datagram) (q : Params) (c₁ : Client) :
    Prop where
  state : c₁.state = c.state
  chaddr : c₁.chaddr = c.chaddr
  ip : c₁.ip = c.ip
  params : c₁.params = q
  net : c₁.net = c.net
  rxSize : c₁.rxSize = c.rxSize
  socket : Between c₁.socket (gone ++ [r.datagram]) []
  yiaddr : peekIp c₁.mem 16 = r.yiaddr

end Handshake

section Address

/-- What `wiz_get_dhcp_ip` takes from the client behind its loop, once it has stopped it. -/
def Client.lease (c : Client) : Lease :=
  let c := dhcpStop c
  ⟨c.ip.bytes, c.params.gw.bytes, c.params.sn.bytes, c.params.dns.bytes⟩

/-- If `wiz_get_dhcp_ip` succeeds, then the client has been granted an address, and this is the one
that it returns unless the client has lost it again. -/
theorem leased_address {c₀ c : Client} {ss : List Step} {rets : List DhcpRun}
    {status : List UInt8} {mac : Mac} {netinfo : WizNetInfo} {start : UInt32}
    {turns : List (UInt32 × DhcpRun)} (hlog : c₀.log = [])
    (hrun : (dhcpInit (setShar c₀ mac)).steps ss = .ok (rets, c))
    (hpolls : (timeLoop start 5 turns).1 = rets)
    (hret : (wizGetDhcpIp status mac.bytes netinfo c.lease start turns).ret = some 0) :
    ∃ a, Granted a c.log ∧ (c.state = .leased ∨ c.state = .rerequest →
      (wizGetDhcpIp status mac.bytes netinfo c.lease start turns).netinfo.ip = a.bytes) := by
  have hlog' : (setShar c₀ mac).log = [] := hlog
  have htold := Told.run hlog' hrun
  rw [wizGetDhcpIp] at hret ⊢
  cases hsock : wizGetAvailableSocketNo status with
  | none =>
    rw [hsock] at hret
    cases hret
  | some sock =>
    rw [hsock] at hret
    simp only [hpolls] at hret ⊢
    split_ifs at hret ⊢ with hended hleased
    · cases htold.honest _ hleased with
      | leased hg =>
        by_cases hbound : c.state = .leased ∨ c.state = .rerequest
        · exact ⟨c.ip, htold.lawful.granted hbound, fun _ => rfl⟩
        · exact ⟨_, hg, fun hb => absurd hb hbound⟩
    · cases hret

/-- The polls of a client to which the server answers at once. -/
def servedTurns : List (UInt32 × DhcpRun) :=
  [(0, .running), (100, .running), (200, .running), (300, .ipLeased), (5000, .running)]

theorem leased_address_served : ∃ (c : Client) (a : Ip),
    let got := wizGetDhcpIp [0] [0, 8, 0xdc, 1, 2, 3] ⟨[], [], [], [], [], .static⟩ c.lease 0
      servedTurns
    got.ret = some 0 ∧ Granted a c.log ∧
      (c.state = .leased ∨ c.state = .rerequest → got.netinfo.ip = a.bytes) := by
  obtain ⟨rets, c, h, rfl, -⟩ := served_run
  have h' : (dhcpInit (setShar poweredOn ⟨0, 8, 0xdc, 1, 2, 3⟩)).steps served = .ok (_, c) := h
  have hpolls : (timeLoop 0 5 servedTurns).1 = [.running, .running, .running, .ipLeased] := rfl
  have hret : (wizGetDhcpIp [0] [0, 8, 0xdc, 1, 2, 3] ⟨[], [], [], [], [], .static⟩ c.lease 0
      servedTurns).ret = some 0 := rfl
  obtain ⟨a, ha⟩ := leased_address rfl h' hpolls hret
  exact ⟨c, a, hret, ha⟩

end Address

end NucleoW5500.Dhcp
