import NucleoW5500.Datagrams
import NucleoW5500.DhcpMessages

/-! What the DHCP client takes from a message, and how far it reads. -/

namespace NucleoW5500.Dhcp

open CString

section Reading

theorem peek_read (mem : List UInt8) (i : Nat) {n k : Nat} (h : k < n) :
    peek (CString.read mem i n) k = peek mem (i + k) := by
  rw [peek, CString.read, List.getD_eq_getElem?_getD, List.getElem?_map, List.getElem?_range h]
  rfl

theorem drop_read (mem : List UInt8) (i : Nat) {n k : Nat} (h : k ≤ n) :
    (read mem i n).drop k = read mem (i + k) (n - k) := by
  obtain ⟨m, rfl⟩ := Nat.exists_eq_add_of_le h
  rw [read_add, List.drop_left' (length_read ..), Nat.add_sub_cancel_left]

theorem take_read (mem : List UInt8) (i : Nat) {n k : Nat} (h : k ≤ n) :
    (read mem i n).take k = read mem i k := by
  obtain ⟨m, rfl⟩ := Nat.exists_eq_add_of_le h
  rw [read_add, List.take_left' (length_read ..)]

theorem peekIp_read (mem : List UInt8) (i : Nat) {n : Nat} (h : 4 ≤ n) :
    peekIp (read mem i n) 0 = peekIp mem i := by
  simp only [peekIp]
  rw [peek_read mem i (by omega), peek_read mem i (by omega), peek_read mem i (by omega),
    peek_read mem i (by omega)]
  rfl

end Reading

section Options

/-- The options of which the client knows the length have that length. -/
structure Standard (f : Tlv.Field marks) : Prop where
  type : f.kind = dhcpMessageType → f.value.length = 1
  four : f.kind = subnetMask ∨ f.kind = dhcpIpAddrLeaseTime ∨ f.kind = dhcpServerIdentifier →
    f.value.length = 4
  list : f.kind = routersOnSubnet ∨ f.kind = dns → 4 ≤ f.value.length

/-- What an option sets. -/
def takeField (s : UInt8 × Params) (f : Tlv.Field marks) : UInt8 × Params :=
  if f.kind = dhcpMessageType then (peek f.value 0, s.2)
  else if f.kind = subnetMask then (s.1, { s.2 with sn := peekIp f.value 0 })
  else if f.kind = routersOnSubnet then (s.1, { s.2 with gw := peekIp f.value 0 })
  else if f.kind = dns then (s.1, { s.2 with dns := peekIp f.value 0 })
  else if f.kind = dhcpIpAddrLeaseTime then (s.1, { s.2 with leaseTime := peek32 f.value 0 })
  else if f.kind = dhcpServerIdentifier then (s.1, { s.2 with sip := peekIp f.value 0 })
  else s

theorem shift_lease (b₀ b₁ b₂ b₃ : UInt8) :
    ((((b₀.toUInt32 <<< 8) + b₁.toUInt32) <<< 8 + b₂.toUInt32) <<< 8) + b₃.toUInt32 =
      UInt32.ofNat (16777216 * b₀.toNat + 65536 * b₁.toNat + 256 * b₂.toNat + b₃.toNat) := by
  have h₀ := b₀.toNat_lt
  have h₁ := b₁.toNat_lt
  have h₂ := b₂.toNat_lt
  have h₃ := b₃.toNat_lt
  have h8 : 2 ^ ((8 : UInt32).toNat % 32) = 256 := rfl
  rw [← UInt32.toNat_inj]
  simp only [UInt32.toNat_add, UInt32.toNat_shiftLeft, UInt8.toNat_toUInt32, UInt32.toNat_ofNat',
    Nat.shiftLeft_eq, h8]
  omega

/-- The pass at a standard option. -/
theorem parseOption_field {mem : List UInt8} {p : Nat} {f : Tlv.Field marks} (hf : Standard f)
    (hk : peek mem p = f.kind) (hl : (peek mem (p + 1)).toNat = f.value.length)
    (hv : read mem (p + 2) f.value.length = f.value) (type : UInt8) (q : Params) :
    parseOption mem p type q = (p + 2 + f.value.length, takeField (type, q) f) := by
  have hpeek : ∀ k < f.value.length, peek f.value k = peek mem (p + 2 + k) := by
    intro k hlt
    rw [← peek_read mem (p + 2) hlt, hv]
  have hip : 4 ≤ f.value.length → peekIp f.value 0 = peekIp mem (p + 2) := by
    intro h4
    rw [← peekIp_read mem (p + 2) h4, hv]
  have hp : f.kind ≠ padOption := f.not_pad
  have hfour : f.kind = subnetMask ∨ f.kind = dhcpIpAddrLeaseTime ∨
      f.kind = dhcpServerIdentifier → p + 6 = p + 2 + f.value.length := fun h => by
    rw [hf.four h]
  have hlist : f.kind = routersOnSubnet ∨ f.kind = dns →
      p + 6 + f.value.length - 4 = p + 2 + f.value.length := fun h => by omega
  simp only [parseOption, hk, hl, takeField]
  rw [if_neg hp]
  by_cases h53 : f.kind = dhcpMessageType
  · have h1 := hf.type h53
    rw [if_pos h53, if_pos h53, hpeek 0 (by omega), h1]
  rw [if_neg h53, if_neg h53]
  by_cases h1 : f.kind = subnetMask
  · rw [if_pos h1, if_pos h1, hip (hf.four (Or.inl h1)).ge, hfour (Or.inl h1)]
  rw [if_neg h1, if_neg h1]
  by_cases h3 : f.kind = routersOnSubnet
  · rw [if_pos h3, if_pos h3, hip (hf.list (Or.inl h3)), hlist (Or.inl h3)]
  rw [if_neg h3, if_neg h3]
  by_cases h6 : f.kind = dns
  · rw [if_pos h6, if_pos h6, hip (hf.list (Or.inr h6)), hlist (Or.inr h6)]
  rw [if_neg h6, if_neg h6]
  by_cases h51 : f.kind = dhcpIpAddrLeaseTime
  · have h4 := hf.four (Or.inr (Or.inl h51))
    rw [if_pos h51, if_pos h51, hfour (Or.inr (Or.inl h51)), peek32, hpeek 0 (by omega),
      hpeek 1 (by omega), hpeek 2 (by omega), hpeek 3 (by omega), ← shift_lease]
  rw [if_neg h51, if_neg h51]
  by_cases h54 : f.kind = dhcpServerIdentifier
  · rw [if_pos h54, if_pos h54, hip (hf.four (Or.inr (Or.inr h54))).ge,
      hfour (Or.inr (Or.inr h54))]
  rw [if_neg h54, if_neg h54]

theorem parseOptions_end {mem : List UInt8} {e p : Nat} (h : e ≤ p) (fuel : Nat) (type : UInt8)
    (q : Params) : parseOptions mem e fuel p type q = (type, q) := by
  cases fuel with
  | zero => rfl
  | succ fuel => rw [parseOptions, if_neg (by omega)]

/-- On options of standard length the loop reads what they say. -/
theorem parseOptions_fields {mem : List UInt8} {e n fuel p : Nat} {fs : List (Tlv.Field marks)}
    (hd : Tlv.decodeFuel marks n (read mem p (e - p)) = some fs) (hf : ∀ f ∈ fs, Standard f)
    (hfuel : e - p ≤ fuel) (type : UInt8) (q : Params) :
    parseOptions mem e fuel p type q = fs.foldl takeField (type, q) := by
  induction n generalizing fuel p fs type q with
  | zero =>
    by_cases hp : e ≤ p
    · rw [Nat.sub_eq_zero_of_le hp] at hd
      obtain rfl : [] = fs := Option.some.inj hd
      exact parseOptions_end hp fuel type q
    · obtain ⟨k, hk⟩ := Nat.exists_eq_succ_of_ne_zero (show e - p ≠ 0 by omega)
      rw [hk, read_succ, Tlv.decodeFuel] at hd
      exact absurd hd (by simp)
  | succ n ih =>
    by_cases hp : e ≤ p
    · rw [Nat.sub_eq_zero_of_le hp] at hd
      obtain rfl : [] = fs := Option.some.inj hd
      exact parseOptions_end hp fuel type q
    obtain ⟨k, hk⟩ := Nat.exists_eq_succ_of_ne_zero (show e - p ≠ 0 by omega)
    obtain ⟨fuel, rfl⟩ := Nat.exists_eq_succ_of_ne_zero (show fuel ≠ 0 by omega)
    have hk' : k = e - (p + 1) := by omega
    rw [hk, read_succ, Tlv.decodeFuel] at hd
    rw [parseOptions, if_pos (by omega)]
    by_cases hpad : peek mem p = marks.pad
    · rw [dif_pos hpad, hk'] at hd
      have hstop : peek mem p ≠ endOption := by rw [hpad]; decide
      have hopt : parseOption mem p type q = (p + 1, type, q) := if_pos hpad
      rw [if_neg hstop, hopt]
      exact ih hd hf (by omega) type q
    rw [dif_neg hpad] at hd
    by_cases hstop : peek mem p = marks.stop
    · rw [dif_pos hstop] at hd
      obtain rfl : [] = fs := Option.some.inj hd
      exact if_pos hstop
    rw [dif_neg hstop] at hd
    rw [if_neg (show peek mem p ≠ endOption from hstop)]
    cases k with
    | zero => exact absurd hd (by simp [CString.read])
    | succ k =>
      rw [read_succ] at hd
      dsimp only at hd
      rw [length_read] at hd
      by_cases hlen : (peek mem (p + 1)).toNat ≤ k
      · rw [if_pos hlen, Option.map_eq_some_iff] at hd
        obtain ⟨fs, hd, rfl⟩ := hd
        have hvalue : ((read mem (p + 1 + 1) k).take (peek mem (p + 1)).toNat).length =
            (peek mem (p + 1)).toNat := by
          rw [take_read mem _ hlen, length_read]
        rw [parseOption_field (hf _ List.mem_cons_self) rfl hvalue.symm
          (by simp only [hvalue]; rw [take_read mem _ hlen])]
        dsimp only
        have hrest : e - (p + 2 + (peek mem (p + 1)).toNat) = k - (peek mem (p + 1)).toNat := by
          omega
        rw [drop_read mem _ hlen, ← hrest] at hd
        rw [hvalue, List.foldl_cons]
        exact ih hd (fun f hf' => hf f (List.mem_cons_of_mem _ hf')) (by omega) _ _
      · rw [if_neg hlen] at hd
        exact absurd hd (by simp)

end Options

section Datagrams

open Udp

variable {t : Turn} {c : Client} {d : Datagram} {done todo : List Datagram}

/-- A client that has stored `d` in its buffer. -/
def Client.store (c : Client) (d : Datagram) (done todo : List Datagram) : Client :=
  { c with
    socket := ⟨stream todo, 0, (stream done).length + 8 + d.data.length⟩
    mem := overwrite c.mem 0 d.data }

/-- What the options of `d` come to. -/
def Client.parsed (c : Client) (d : Datagram) : UInt8 × Params :=
  parseOptions (overwrite c.mem 0 d.data) d.data.length d.data.length 240 0 c.params

theorem parseDhcpMsg_nil (h : c.socket.rx = []) : parseDhcpMsg t c = .ok (0, c) := by
  rw [parseDhcpMsg, h]
  rfl

/-- What `d` leaves behind if it is for this client. -/
def Client.heard (c : Client) (d : Datagram) (done todo : List Datagram) : Client :=
  { c.store d done todo with params := (c.parsed d).2 }.note
    (.received (c.parsed d).1 (peekIp (overwrite c.mem 0 d.data) 16))

theorem parseDhcpMsg_cons (h : Between c.socket done (d :: todo))
    (hlt : c.socket.rx.length < 65536) :
    parseDhcpMsg t c = if msgSize < d.data.length then .error .msgBounds
      else if d.sender.port ≠ dhcpServerPort then .ok (0, c.store d done todo)
      else if peekMac (overwrite c.mem 0 d.data) 28 ≠ c.chaddr then .ok (0, c.store d done todo)
      else .ok ((c.parsed d).1, c.heard d done todo) := by
  have hrx : c.socket.rx.length = 8 + d.data.length + (stream todo).length := by
    rw [h.rx, stream_cons, List.length_append, d.length_bytes]
  have hlen : (UInt16.ofNat c.socket.rx.length).toNat = c.socket.rx.length := by
    rw [UInt16.toNat_ofNat', Nat.mod_eq_of_lt hlt]
  have hne : UInt16.ofNat c.socket.rx.length ≠ 0 := by
    intro h0
    rw [h0] at hlen
    have hz : (0 : UInt16).toNat = 0 := rfl
    omega
  have hret : (UInt16.ofInt (d.data.length : Int)).toNat = d.data.length :=
    toNat_ofInt_of_lt (by omega)
  rw [parseDhcpMsg, if_neg hne, recvfrom_whole h (by omega)]
  simp only [hret]
  rfl

theorem dhcpRun_stop (h : c.state = .stop) : dhcpRun t c = .ok (.stopped, c) := if_pos h

theorem dhcpRun_reopen (hstop : c.state ≠ .stop) (hudp : t.udp = false) :
    dhcpRun t c = .ok (respond t 0 { c with socket := c.socket.reopen }) := by
  rw [dhcpRun, if_neg hstop, hudp, if_neg Bool.false_ne_true]
  simp only [parseDhcpMsg_nil (c := { c with socket := c.socket.reopen }) rfl]

theorem dhcpRun_silent (hstop : c.state ≠ .stop) (hudp : t.udp = true) (hrx : c.socket.rx = []) :
    dhcpRun t c = .ok (respond t 0 c) := by
  rw [dhcpRun, if_neg hstop, hudp, if_pos rfl]
  simp only [parseDhcpMsg_nil hrx]

theorem dhcpRun_cons (hstop : c.state ≠ .stop) (hudp : t.udp = true)
    (h : Between c.socket done (d :: todo)) (hlt : c.socket.rx.length < 65536) :
    dhcpRun t c = if msgSize < d.data.length then .error .msgBounds
      else if d.sender.port ≠ dhcpServerPort then .ok (respond t 0 (c.store d done todo))
      else if peekMac (overwrite c.mem 0 d.data) 28 ≠ c.chaddr then
        .ok (respond t 0 (c.store d done todo))
      else .ok (respond t (c.parsed d).1 (c.heard d done todo)) := by
  rw [dhcpRun, if_neg hstop, hudp, if_pos rfl]
  simp only [parseDhcpMsg_cons h hlt]
  split_ifs
  all_goals rfl

theorem peek_overwrite {bs : List UInt8} {i : Nat} (hi : i < bs.length) (mem : List UInt8) :
    peek (overwrite mem 0 bs) i = peek bs i := by
  rw [overwrite_zero, peek_append_left _ hi]

theorem peekMac_overwrite {bs : List UInt8} {i : Nat} (hi : i + 5 < bs.length) (mem : List UInt8) :
    peekMac (overwrite mem 0 bs) i = peekMac bs i := by
  simp only [peekMac]
  rw [peek_overwrite (by omega), peek_overwrite (by omega), peek_overwrite (by omega),
    peek_overwrite (by omega), peek_overwrite (by omega), peek_overwrite hi]

theorem peekIp_overwrite {bs : List UInt8} {i : Nat} (hi : i + 3 < bs.length) (mem : List UInt8) :
    peekIp (overwrite mem 0 bs) i = peekIp bs i := by
  simp only [peekIp]
  rw [peek_overwrite (by omega), peek_overwrite (by omega), peek_overwrite (by omega),
    peek_overwrite hi]

/-- The options of `d` are well formed and of their standard lengths. -/
structure Formed (d : Datagram) (fs : List (Tlv.Field marks)) : Prop where
  long : 240 ≤ d.data.length
  decode : Tlv.decode marks (d.data.drop 240) = some fs
  standard : ∀ f ∈ fs, Standard f

theorem Formed.parsed {fs : List (Tlv.Field marks)} (h : Formed d fs) (c : Client) :
    c.parsed d = fs.foldl takeField (0, c.params) := by
  have hread : read (overwrite c.mem 0 d.data) 240 (d.data.length - 240) = d.data.drop 240 := by
    have hle : 240 + (d.data.length - 240) ≤ d.data.length := by
      have hlong := h.long
      omega
    rw [overwrite_zero, read_eq_take (by rw [List.length_append]; omega),
      List.drop_append_of_le_length h.long, List.take_append_of_le_length (by simp)]
    exact List.take_of_length_le (by simp)
  have hfs := h.decode
  rw [← hread] at hfs
  exact parseOptions_fields hfs h.standard (by omega) 0 c.params

end Datagrams

section Servers

open Udp

/-- A message of a server to a client. -/
structure Reply where
  server : Ip
  yiaddr : Ip
  chaddr : Mac
  fields : List (Tlv.Field marks)
  standard : ∀ f ∈ fields, Standard f
  short : (Tlv.encode fields).length ≤ 783

def Reply.msg (r : Reply) : List UInt8 :=
  [2, 1, 6, 0] ++ List.replicate 12 0 ++ r.yiaddr.bytes ++ List.replicate 8 0 ++ r.chaddr.bytes ++
    List.replicate 202 0 ++ be32 magicCookie ++ Tlv.encode r.fields ++ [endOption]

theorem Reply.length_msg (r : Reply) : r.msg.length = 241 + (Tlv.encode r.fields).length := by
  simp only [Reply.msg, be32, Ip.bytes, Mac.bytes, List.length_append, List.length_replicate,
    List.length_cons, List.length_nil]
  omega

def Reply.datagram (r : Reply) : Datagram :=
  ⟨⟨r.server.bytes, dhcpServerPort⟩, r.msg, rfl, by
    have hshort := r.short
    rw [r.length_msg]
    omega⟩

theorem Reply.length_le (r : Reply) : r.datagram.data.length ≤ msgSize := by
  have hshort := r.short
  rw [show r.datagram.data = r.msg from rfl, r.length_msg, msgSize]
  omega

theorem Reply.formed (r : Reply) : Formed r.datagram r.fields := by
  have hdata : r.datagram.data = r.msg := rfl
  have hdrop : r.msg.drop 240 = Tlv.encode r.fields ++ marks.stop :: [] := by
    have hhead : ([2, 1, 6, 0] ++ List.replicate 12 0 ++ r.yiaddr.bytes ++ List.replicate 8 0 ++
        r.chaddr.bytes ++ List.replicate 202 0 ++ be32 magicCookie).length = 240 := by
      simp only [be32, Ip.bytes, Mac.bytes, List.length_append, List.length_replicate,
        List.length_cons, List.length_nil]
    rw [Reply.msg, List.append_assoc _ (Tlv.encode r.fields), ← hhead, List.drop_left]
    rfl
  refine ⟨?_, ?_, r.standard⟩
  · rw [hdata, r.length_msg]
    omega
  · rw [hdata, hdrop, Tlv.decode_encode]

theorem standard_typeField (type : UInt8) : Standard (typeField type) :=
  ⟨fun _ => rfl, by simp [typeField, dhcpMessageType, subnetMask, dhcpIpAddrLeaseTime,
    dhcpServerIdentifier], by simp [typeField, dhcpMessageType, routersOnSubnet, dns]⟩

/-- A message of the type alone. -/
def plainReply (type : UInt8) : Reply :=
  ⟨⟨192, 168, 0, 1⟩, ⟨192, 168, 0, 9⟩, ⟨0, 8, 0xdc, 1, 2, 3⟩, [typeField type],
    by simpa using standard_typeField type, by simp [Tlv.encode, Tlv.Field.bytes, typeField]⟩

/-- The statics at the start, and the chip with its address set. -/
def poweredOn : Client :=
  ⟨.init, 0, 0, dhcpWaitTime, 0, .zero, .zero, .zero,
    ⟨.zero, .zero, .zero, .zero, infiniteLeasetime⟩, [],
    ⟨⟨0, 8, 0xdc, 1, 2, 3⟩, .zero, .zero, .zero, 8⟩, ⟨[], 0, 0⟩, 2048, []⟩

end Servers

section Probing

/-- What the ARP probe of `check_DHCP_leasedIP` comes to. -/
def probeRet (t : Turn) (ip : Ip) : Int := if ip = .zero then sockerrIpinvalid else t.probe

theorem checkDhcpLeasedIp_unique {t : Turn} {c : Client} (h : probeRet t c.ip = sockerrTimeout) :
    checkDhcpLeasedIp t c = (true, c.note (.probed c.ip sockerrTimeout)) := by
  rw [checkDhcpLeasedIp]
  exact (if_pos h).trans (by rw [← h]; rfl)

theorem checkDhcpLeasedIp_conflict {t : Turn} {c : Client} (h : probeRet t c.ip ≠ sockerrTimeout) :
    checkDhcpLeasedIp t c = (false,
      { sendDhcpDecline (c.note (.probed c.ip (probeRet t c.ip))) with
        tick1s := c.tick1s + 2 }) := by
  rw [checkDhcpLeasedIp]
  exact if_neg h

end Probing

section Stale

theorem parseOption_congr {mem mem' : List UInt8} {p : Nat}
    (h : ∀ i < 6, peek mem (p + i) = peek mem' (p + i)) (type : UInt8) (q : Params) :
    parseOption mem p type q = parseOption mem' p type q := by
  have h₀ := h 0 (by omega)
  have h₁ := h 1 (by omega)
  have h₂ := h 2 (by omega)
  have h₃ := h 3 (by omega)
  have h₄ := h 4 (by omega)
  have h₅ := h 5 (by omega)
  rw [Nat.add_zero] at h₀
  simp only [parseOption, peekIp, Nat.add_assoc, h₀, h₁, h₂, h₃, h₄, h₅]

/-- The loop reads at most five bytes behind the end. -/
theorem parseOptions_congr {mem mem' : List UInt8} {e : Nat}
    (h : ∀ i < e + 5, peek mem i = peek mem' i) (fuel p : Nat) (type : UInt8) (q : Params) :
    parseOptions mem e fuel p type q = parseOptions mem' e fuel p type q := by
  induction fuel generalizing p type q with
  | zero => rfl
  | succ fuel ih =>
    by_cases hp : (p : Int) < e
    · have hopt := parseOption_congr (fun i hi => h (p + i) (by omega)) type q
      rw [parseOptions, parseOptions, if_pos hp, if_pos hp, h p (by omega), hopt]
      split_ifs
      · rfl
      · exact ih _ _ _
    · rw [parseOptions, parseOptions, if_neg hp, if_neg hp]

open Udp

theorem peek_overwrite_congr {mem mem' bs : List UInt8} {n : Nat}
    (h : ∀ i, bs.length ≤ i → i < n → peek mem i = peek mem' i) :
    ∀ i < n, peek (overwrite mem 0 bs) i = peek (overwrite mem' 0 bs) i := by
  intro i hi
  rw [overwrite_zero, overwrite_zero]
  by_cases hlt : i < bs.length
  · rw [peek_append_left _ hlt, peek_append_left _ hlt]
  · have hle := Nat.not_lt.mp hlt
    have hdrop (m : List UInt8) : peek (m.drop bs.length) (i - bs.length) = peek m i := by
      simp only [peek, List.getD_eq_getElem?_getD, List.getElem?_drop, Nat.add_sub_cancel' hle]
    rw [peek_append_right _ hle, peek_append_right _ hle, hdrop, hdrop, h i hle hi]

/-- A client of which nobody knows what is in its buffer. -/
def Client.forget (c : Client) : Client := { c with mem := [] }

/-- `d` comes to the same over the buffer of `c` and over `mem'`. -/
structure Agrees (c : Client) (mem' : List UInt8) (d : Datagram) : Prop where
  chaddr : peekMac (overwrite mem' 0 d.data) 28 = peekMac (overwrite c.mem 0 d.data) 28
  yiaddr : peekIp (overwrite mem' 0 d.data) 16 = peekIp (overwrite c.mem 0 d.data) 16
  parsed : ({ c with mem := mem' } : Client).parsed d = c.parsed d

theorem agrees_of_peek {c : Client} {mem' : List UInt8} {d : Datagram}
    (h : ∀ i, d.data.length ≤ i → i < max (d.data.length + 5) 34 → peek c.mem i = peek mem' i) :
    Agrees c mem' d := by
  have hsame := peek_overwrite_congr h
  refine ⟨?_, ?_, ?_⟩
  · simp only [peekMac]
    rw [hsame 28 (by omega), hsame 29 (by omega), hsame 30 (by omega), hsame 31 (by omega),
      hsame 32 (by omega), hsame 33 (by omega)]
  · simp only [peekIp]
    rw [hsame 16 (by omega), hsame 17 (by omega), hsame 18 (by omega), hsame 19 (by omega)]
  · exact (parseOptions_congr (fun i hi => hsame i (by omega)) _ _ _ _).symm

theorem Formed.agrees {d : Datagram} {fs : List (Tlv.Field marks)} (h : Formed d fs) (c : Client)
    (mem' : List UInt8) : Agrees c mem' d := by
  have hlong := h.long
  refine ⟨?_, ?_, ?_⟩
  · rw [peekMac_overwrite (by omega), peekMac_overwrite (by omega)]
  · rw [peekIp_overwrite (by omega), peekIp_overwrite (by omega)]
  · rw [h.parsed, h.parsed]

theorem checkDhcpTimeout_forget (c : Client) (mem' : List UInt8) :
    Prod.map id Client.forget (checkDhcpTimeout { c with mem := mem' }) =
      Prod.map id Client.forget (checkDhcpTimeout c) := by
  obtain ⟨state, _⟩ := c
  cases state
  all_goals
    simp only [checkDhcpTimeout]
    split_ifs
  all_goals
    simp only [sendDhcpDiscover, sendDhcpRequest, sendMsg, Client.note, discoverMsg, requestMsg,
      requestIp, resetDhcpTimeout, Client.forget, Prod.map]

/-- Apart from an OFFER nothing is taken from the buffer any more. -/
theorem respond_forget (t : Turn) {type : UInt8} (c : Client) (mem' : List UInt8)
    (h : type = dhcpOffer → peekIp mem' 16 = peekIp c.mem 16) :
    Prod.map id Client.forget (respond t type { c with mem := mem' }) =
      Prod.map id Client.forget (respond t type c) := by
  have htimeout := checkDhcpTimeout_forget c mem'
  obtain ⟨state, retryCount, tick1s, tickNext, xid, chaddr, ip, oldIp, params, mem, net, socket,
    rxSize, log⟩ := c
  cases state with
  | init =>
    simp only [respond, sendDhcpDiscover, sendMsg, Client.note, discoverMsg, Client.forget,
      Prod.map]
  | discover =>
    simp only [respond]
    by_cases hoffer : type = dhcpOffer
    · rw [if_pos hoffer, if_pos hoffer, h hoffer]
      simp only [sendDhcpRequest, sendMsg, Client.note, requestMsg, requestIp, Client.forget,
        Prod.map]
    · rw [if_neg hoffer, if_neg hoffer]
      exact htimeout
  | request =>
    simp only [respond]
    by_cases hack : type = dhcpAck
    · rw [if_pos hack, if_pos hack]
      by_cases hprobe : probeRet t ip = sockerrTimeout
      · rw [checkDhcpLeasedIp_unique hprobe, checkDhcpLeasedIp_unique hprobe]
        simp only [if_true, resetDhcpTimeout, defaultIpAssign, Client.note, Client.forget, Prod.map]
      · rw [checkDhcpLeasedIp_conflict hprobe, checkDhcpLeasedIp_conflict hprobe]
        simp only [Bool.false_eq_true, if_false, sendDhcpDecline, sendMsg, declineMsg,
          resetDhcpTimeout, defaultIpConflict, softwareReset, setShar, Client.note, Client.forget,
          Prod.map]
    rw [if_neg hack, if_neg hack]
    by_cases hnak : type = dhcpNak
    · rw [if_pos hnak, if_pos hnak]
      simp only [resetDhcpTimeout, Client.forget, Prod.map]
    · rw [if_neg hnak, if_neg hnak]
      exact htimeout
  | leased =>
    simp only [respond]
    split_ifs
    all_goals
      simp only [sendDhcpRequest, sendMsg, Client.note, requestMsg, requestIp, resetDhcpTimeout,
        Client.forget, Prod.map]
  | rerequest =>
    simp only [respond]
    by_cases hack : type = dhcpAck
    · rw [if_pos hack, if_pos hack]
      split_ifs
      all_goals
        simp only [resetDhcpTimeout, defaultIpUpdate, defaultIpAssign, softwareReset, setShar,
          Client.note, Client.forget, Prod.map]
    rw [if_neg hack, if_neg hack]
    by_cases hnak : type = dhcpNak
    · rw [if_pos hnak, if_pos hnak]
      simp only [resetDhcpTimeout, Client.forget, Prod.map]
    · rw [if_neg hnak, if_neg hnak]
      exact htimeout
  | stop => simp only [respond, Client.forget, Prod.map]

theorem dhcpRun_forget (t : Turn) {c : Client} {done todo : List Datagram} (mem' : List UInt8)
    (h : Between c.socket done todo) (hlt : c.socket.rx.length < 65536)
    (hagrees : ∀ d ∈ todo.head?, d.sender.port = dhcpServerPort → Agrees c mem' d) :
    (dhcpRun t { c with mem := mem' }).map (Prod.map id Client.forget) =
      (dhcpRun t c).map (Prod.map id Client.forget) := by
  have hsilent (c : Client) (mem' : List UInt8) : Except.map (Prod.map id Client.forget)
      (.ok (respond t 0 { c with mem := mem' }) : Except Fault _) =
        Except.map (Prod.map id Client.forget) (.ok (respond t 0 c)) :=
    congrArg Except.ok (respond_forget t c mem' (fun h0 => absurd h0 (by decide)))
  by_cases hstop : c.state = .stop
  · rw [dhcpRun_stop hstop, dhcpRun_stop (c := { c with mem := mem' }) hstop]
    exact congrArg Except.ok rfl
  cases hudp : t.udp with
  | false =>
    rw [dhcpRun_reopen hstop hudp, dhcpRun_reopen (c := { c with mem := mem' }) hstop hudp]
    exact hsilent { c with socket := c.socket.reopen } mem'
  | true =>
    cases todo with
    | nil =>
      rw [dhcpRun_silent hstop hudp h.rx,
        dhcpRun_silent (c := { c with mem := mem' }) hstop hudp h.rx]
      exact hsilent c mem'
    | cons d todo =>
      rw [dhcpRun_cons hstop hudp h hlt,
        dhcpRun_cons (c := { c with mem := mem' }) hstop hudp h hlt]
      by_cases hbig : msgSize < d.data.length
      · rw [if_pos hbig, if_pos hbig]
      rw [if_neg hbig, if_neg hbig]
      by_cases hport : d.sender.port ≠ dhcpServerPort
      · rw [if_pos hport, if_pos hport]
        exact hsilent (c.store d done todo) _
      rw [if_neg hport, if_neg hport]
      have hag := hagrees d rfl (not_not.mp hport)
      dsimp only
      rw [hag.chaddr, hag.parsed]
      by_cases hmac : peekMac (overwrite c.mem 0 d.data) 28 ≠ c.chaddr
      · rw [if_pos hmac, if_pos hmac]
        exact hsilent (c.store d done todo) _
      · have hheard : ({ c with mem := mem' } : Client).heard d done todo =
            { c.heard d done todo with mem := overwrite mem' 0 d.data } := by
          simp only [Client.heard, Client.store, Client.note, hag.parsed, hag.yiaddr]
        rw [if_neg hmac, if_neg hmac, hheard]
        exact congrArg Except.ok (respond_forget t (c.heard d done todo) _ fun _ => hag.yiaddr)

/-- Of what the buffer held before the datagram, no more than the five bytes behind it make a
difference; if it ends before the address of the client does, those up to there too. -/
theorem dhcpRun_stale {t : Turn} {c : Client} {d : Datagram} {done todo : List Datagram}
    {mem' : List UInt8} (h : Between c.socket done (d :: todo)) (hlt : c.socket.rx.length < 65536)
    (hmem : ∀ i, d.data.length ≤ i → i < max (d.data.length + 5) 34 → peek c.mem i = peek mem' i) :
    (dhcpRun t { c with mem := mem' }).map (Prod.map id Client.forget) =
      (dhcpRun t c).map (Prod.map id Client.forget) := by
  refine dhcpRun_forget t mem' h hlt ?_
  rintro d' hd' -
  obtain rfl : d = d' := Option.some.inj hd'
  exact agrees_of_peek hmem

theorem dhcpRun_stale_offer :
    let c := { poweredOn with
      state := .discover, socket := ⟨(plainReply dhcpOffer).datagram.bytes, 0, 0⟩ }
    (dhcpRun ⟨true, 0, 0⟩ { c with mem := List.replicate 249 0 ++ [1] }).map
        (Prod.map id Client.forget) =
      (dhcpRun ⟨true, 0, 0⟩ c).map (Prod.map id Client.forget) := by
  have hb : Between ⟨(plainReply dhcpOffer).datagram.bytes, 0, 0⟩ []
      [(plainReply dhcpOffer).datagram] := ⟨rfl, by simp [stream], rfl⟩
  refine dhcpRun_stale hb ?_ ?_
  · have hle := (plainReply dhcpOffer).length_le
    rw [msgSize] at hle
    rw [Datagram.length_bytes]
    omega
  · intro i _ hlt
    rw [show (plainReply dhcpOffer).datagram.data = (plainReply dhcpOffer).msg from rfl,
      Reply.length_msg, show (Tlv.encode (plainReply dhcpOffer).fields).length = 3 from rfl] at hlt
    rw [peek_append_left _ (by rw [List.length_replicate]; omega)]
    exact (peek_append_zeros [] 249 i).symm

end Stale

end NucleoW5500.Dhcp
