import NucleoW5500.Dhcp
import NucleoW5500.Tlv

/-! What a server reads in the messages of the DHCP client. -/

namespace NucleoW5500.Dhcp

open CString

def marks : Tlv.Marks := ⟨padOption, endOption, by decide⟩

def peek32 (mem : List UInt8) (i : Nat) : UInt32 :=
  UInt32.ofNat (16777216 * (peek mem i).toNat + 65536 * (peek mem (i + 1)).toNat +
    256 * (peek mem (i + 2)).toNat + (peek mem (i + 3)).toNat)

/-- A message as a server reads it. -/
structure Message where
  xid : UInt32
  flags : List UInt8
  ciaddr : Ip
  chaddr : Mac
  options : List (Tlv.Field marks)
  deriving DecidableEq

/-- `none` for what is no request of a client on Ethernet. -/
def readMessage (m : List UInt8) : Option Message :=
  if m.length = ripMsgSize ∧ read m 0 4 = [1, 1, 6, 0] ∧ peek32 m 236 = magicCookie then
    (Tlv.decode marks (m.drop 240)).map fun options =>
      ⟨peek32 m 4, read m 10 2, peekIp m 12, peekMac m 28, options⟩
  else none

theorem toNat_be32 (v : UInt32) :
    be32 v = [UInt8.ofNat (v.toNat / 16777216), UInt8.ofNat (v.toNat / 65536),
      UInt8.ofNat (v.toNat / 256), UInt8.ofNat v.toNat] := by
  have h (k : Nat) := Nat.and_two_pow_sub_one_eq_mod (v.toNat >>> k) 8
  have h₀ := h 24
  have h₁ := h 16
  have h₂ := h 8
  have h₃ := h 0
  simp only [be32, List.cons.injEq, and_true, ← UInt8.toNat_inj, UInt32.toNat_toUInt8,
    UInt32.toNat_shiftRight, UInt32.toNat_and, UInt8.toNat_ofNat', Nat.shiftRight_and_distrib]
  refine ⟨?_, ?_, ?_, ?_⟩
  · rw [show (0xFF000000 : UInt32).toNat >>> ((24 : UInt32).toNat % 32) = 2 ^ 8 - 1 from rfl]
    rw [show (24 : UInt32).toNat % 32 = 24 from rfl, h₀, Nat.shiftRight_eq_div_pow]
    omega
  · rw [show (0x00FF0000 : UInt32).toNat >>> ((16 : UInt32).toNat % 32) = 2 ^ 8 - 1 from rfl]
    rw [show (16 : UInt32).toNat % 32 = 16 from rfl, h₁, Nat.shiftRight_eq_div_pow]
    omega
  · rw [show (0x0000FF00 : UInt32).toNat >>> ((8 : UInt32).toNat % 32) = 2 ^ 8 - 1 from rfl]
    rw [show (8 : UInt32).toNat % 32 = 8 from rfl, h₂, Nat.shiftRight_eq_div_pow]
    omega
  · rw [show (0x000000FF : UInt32).toNat >>> ((0 : UInt32).toNat % 32) = 2 ^ 8 - 1 from rfl]
    rw [show (0 : UInt32).toNat % 32 = 0 from rfl, h₃, Nat.shiftRight_eq_div_pow]
    omega

theorem peek32_be32 (a rest : List UInt8) (v : UInt32) :
    peek32 (a ++ (be32 v ++ rest)) a.length = v := by
  have hv := v.toNat_lt
  have h0 := peek_append_add a (be32 v ++ rest) 0
  rw [Nat.add_zero] at h0
  rw [peek32, h0, peek_append_add, peek_append_add, peek_append_add, toNat_be32, ← UInt32.toNat_inj]
  simp only [List.cons_append, peek, List.getD_cons_zero, List.getD_cons_succ, UInt8.toNat_ofNat',
    UInt32.toNat_ofNat']
  omega

theorem length_makeDhcpMsg (xid : UInt32) {flags : List UInt8} (hf : flags.length = 2) (ciaddr : Ip)
    (chaddr : Mac) : (makeDhcpMsg xid flags ciaddr chaddr).length = 236 := by
  simp only [makeDhcpMsg, be32, Ip.bytes, Mac.bytes, List.length_append, List.length_replicate,
    List.length_cons, List.length_nil, hf]

/-- The fields of the header, whatever the options. -/
theorem make_fields {xid : UInt32} {flags : List UInt8} (hf : flags.length = 2) (ciaddr : Ip)
    (chaddr : Mac) (opt : List UInt8) :
    let m := makeDhcpMsg xid flags ciaddr chaddr ++ opt
    read m 0 4 = [1, 1, 6, 0] ∧ peek32 m 4 = xid ∧ read m 10 2 = flags ∧ peekIp m 12 = ciaddr ∧
      peekMac m 28 = chaddr := by
  obtain ⟨f₀, f₁, rfl⟩ := List.length_eq_two.mp hf
  have hxid := peek32_be32 [1, 1, 6, 0] ([0, 0] ++ ([f₀, f₁] ++ (ciaddr.bytes ++ (Ip.zero.bytes ++
    (Ip.zero.bytes ++ (Ip.zero.bytes ++ (chaddr.bytes ++ (List.replicate 10 0 ++
      (List.replicate 64 0 ++ (List.replicate 128 0 ++ opt)))))))))) xid
  simp only [makeDhcpMsg, List.append_assoc] at hxid ⊢
  refine ⟨?_, hxid, ?_, ?_, ?_⟩
  all_goals
    simp only [be32, Ip.bytes, Mac.bytes, Ip.zero, List.cons_append, List.nil_append]
    rfl

theorem readMessage_make {xid : UInt32} {flags : List UInt8} (hf : flags.length = 2) {ciaddr : Ip}
    {chaddr : Mac} {fs : List (Tlv.Field marks)} (hfs : (Tlv.encode fs).length ≤ 307) :
    readMessage (makeDhcpMsg xid flags ciaddr chaddr ++
      padOpt (be32 magicCookie ++ Tlv.encode fs ++ [endOption])) =
        some ⟨xid, flags, ciaddr, chaddr, fs⟩ := by
  obtain ⟨hop, hxid, hflags, hci, hch⟩ := @make_fields xid flags hf ciaddr chaddr
    (padOpt (be32 magicCookie ++ Tlv.encode fs ++ [endOption]))
  have hhead := length_makeDhcpMsg xid hf ciaddr chaddr
  have hcookie : (be32 magicCookie).length = 4 := rfl
  have hlen : (makeDhcpMsg xid flags ciaddr chaddr ++
      padOpt (be32 magicCookie ++ Tlv.encode fs ++ [endOption])).length = ripMsgSize := by
    simp only [List.length_append, padOpt, List.length_replicate, List.length_cons, List.length_nil,
      hhead, hcookie, ripMsgSize, optSize]
    omega
  have hmagic : peek32 (makeDhcpMsg xid flags ciaddr chaddr ++
      padOpt (be32 magicCookie ++ Tlv.encode fs ++ [endOption])) 236 = magicCookie := by
    rw [← hhead, padOpt, List.append_assoc, List.append_assoc]
    exact peek32_be32 _ _ _
  have hdrop : (makeDhcpMsg xid flags ciaddr chaddr ++
      padOpt (be32 magicCookie ++ Tlv.encode fs ++ [endOption])).drop 240 =
        Tlv.encode fs ++ marks.stop :: List.replicate (optSize - (be32 magicCookie ++
          Tlv.encode fs ++ [endOption]).length) 0 := by
    rw [show (240 : Nat) = (makeDhcpMsg xid flags ciaddr chaddr ++ be32 magicCookie).length by
      rw [List.length_append, hhead, hcookie]]
    rw [padOpt, List.append_assoc, List.append_assoc, ← List.append_assoc, List.drop_left]
    simp [marks]
  rw [readMessage, if_pos ⟨hlen, hop, hmagic⟩, hdrop, Tlv.decode_encode, hxid, hflags, hci, hch]
  rfl

section Options

def typeField (type : UInt8) : Tlv.Field marks :=
  ⟨dhcpMessageType, [type], by simp, by decide, by decide⟩

def clientIdField (chaddr : Mac) : Tlv.Field marks :=
  ⟨dhcpClientIdentifier, 0x01 :: chaddr.bytes, by simp [Mac.bytes], by decide, by decide⟩

def addressFields (ip sip : Ip) : List (Tlv.Field marks) :=
  [⟨dhcpRequestedIpAddr, ip.bytes, by simp [Ip.bytes], by decide, by decide⟩,
    ⟨dhcpServerIdentifier, sip.bytes, by simp [Ip.bytes], by decide, by decide⟩]

def discoverFields (c : Client) : List (Tlv.Field marks) :=
  [typeField dhcpDiscover, clientIdField c.chaddr,
    ⟨hostName, hostNameBytes ++ [c.chaddr.b3, c.chaddr.b4, c.chaddr.b5],
      by simp [hostNameBytes], by decide, by decide⟩,
    ⟨dhcpParamRequest, [subnetMask, routersOnSubnet, dns, domainName, dhcpT1value, dhcpT2value],
      by decide, by decide, by decide⟩]

def requestFields (c : Client) : List (Tlv.Field marks) :=
  [typeField dhcpRequest, clientIdField c.chaddr] ++
    (if (requestIp c).b3 = 255 then addressFields c.ip c.params.sip else []) ++
    [⟨hostName, hostNameBytes ++ hexSuffix c.chaddr, by simp [hostNameBytes, hexSuffix], by decide,
      by decide⟩,
    ⟨dhcpParamRequest, [subnetMask, routersOnSubnet, dns, domainName, dhcpT1value, dhcpT2value,
      performRouterDiscovery, staticRoute], by decide, by decide, by decide⟩]

def declineFields (c : Client) : List (Tlv.Field marks) :=
  [typeField dhcpDecline, clientIdField c.chaddr] ++ addressFields c.ip c.params.sip

theorem readMessage_of_eq {xid : UInt32} {flags opt : List UInt8} (hf : flags.length = 2)
    {ciaddr : Ip} {chaddr : Mac} {fs : List (Tlv.Field marks)}
    (ho : opt = be32 magicCookie ++ Tlv.encode fs ++ [endOption])
    (hfs : (Tlv.encode fs).length ≤ 307) :
    readMessage (makeDhcpMsg xid flags ciaddr chaddr ++ padOpt opt) =
      some ⟨xid, flags, ciaddr, chaddr, fs⟩ := by
  rw [ho, readMessage_make hf hfs]

theorem readMessage_discover (c : Client) :
    readMessage (discoverMsg c) =
      some ⟨c.xid, dhcpFlagsBroadcast, .zero, c.chaddr, discoverFields c⟩ := by
  refine readMessage_of_eq rfl ?_ ?_
  · simp only [discoverFields, Tlv.encode, Tlv.Field.bytes, typeField, clientIdField, typeOption,
      clientIdOption, hostNameOption, List.flatMap_cons, List.flatMap_nil, List.append_assoc,
      List.append_nil]
    rfl
  · simp [discoverFields, Tlv.encode, Tlv.Field.bytes, typeField, clientIdField, Mac.bytes,
      hostNameBytes]

theorem readMessage_request (c : Client) :
    readMessage (requestMsg c) =
      some (if c.state = .leased ∨ c.state = .rerequest then
        ⟨c.xid, dhcpFlagsUnicast, c.ip, c.chaddr, requestFields c⟩
      else ⟨c.xid, dhcpFlagsBroadcast, .zero, c.chaddr, requestFields c⟩) := by
  have hopt : be32 magicCookie ++ typeOption dhcpRequest ++ clientIdOption c.chaddr ++
      (if (requestIp c).b3 = 255 then addressOptions c.ip c.params.sip else []) ++
      hostNameOption (hexSuffix c.chaddr) ++
      [dhcpParamRequest, 0x08, subnetMask, routersOnSubnet, dns, domainName, dhcpT1value,
        dhcpT2value, performRouterDiscovery, staticRoute] ++ [endOption] =
      be32 magicCookie ++ Tlv.encode (requestFields c) ++ [endOption] := by
    by_cases h : (requestIp c).b3 = 255
    all_goals
      simp only [requestFields, h, if_true, if_false, addressFields, addressOptions, Tlv.encode,
        Tlv.Field.bytes, typeField, clientIdField, typeOption, clientIdOption, hostNameOption,
        List.flatMap_cons, List.flatMap_nil, List.flatMap_append, List.append_assoc,
        List.append_nil]
      rfl
  have hlen : (Tlv.encode (requestFields c)).length ≤ 307 := by
    simp only [requestFields]
    split_ifs
    all_goals
      simp [addressFields, Tlv.encode, Tlv.Field.bytes, typeField, clientIdField, Mac.bytes,
        Ip.bytes, hostNameBytes, hexSuffix]
  by_cases h : c.state = .leased ∨ c.state = .rerequest
  · rw [requestMsg, if_pos h, if_pos h]
    exact readMessage_of_eq rfl hopt hlen
  · rw [requestMsg, if_neg h, if_neg h]
    exact readMessage_of_eq rfl hopt hlen

theorem readMessage_decline (c : Client) :
    readMessage (declineMsg c) =
      some ⟨c.xid, dhcpFlagsUnicast, .zero, c.chaddr, declineFields c⟩ := by
  refine readMessage_of_eq rfl ?_ ?_
  · simp only [declineFields, addressFields, addressOptions, Tlv.encode, Tlv.Field.bytes, typeField,
      clientIdField, typeOption, clientIdOption, List.flatMap_cons, List.flatMap_nil,
      List.flatMap_append, List.append_assoc, List.append_nil]
    rfl
  · simp [declineFields, addressFields, Tlv.encode, Tlv.Field.bytes, typeField, clientIdField,
      Mac.bytes, Ip.bytes]

end Options

end NucleoW5500.Dhcp
