import NucleoW5500.ChipStream
import NucleoW5500.Datagrams

/-! `recvfrom` over the registers of the chip, and that a UDP socket behaves as the queue of bytes
that the server is modelled with. -/

namespace NucleoW5500.Driver

open CString Chip Interleaved RingBuffer Spi

def sockfatalPacklen : Int := -1001

def Statics.packet (v : Statics) (n : Nat) (size : UInt16) : Statics :=
  { v with
    sockRemainedSize := Function.update v.sockRemainedSize n size
    sockPackInfo := Function.update v.sockPackInfo n packFirst }

def Statics.piece (v : Statics) (n : Nat) (packLen : UInt16) : Statics :=
  let size := v.sockRemainedSize n - packLen
  let info := if size ≠ 0 then v.sockPackInfo n ||| packRemained else packCompleted
  { v with
    sockRemainedSize := Function.update v.sockRemainedSize n size
    sockPackInfo := Function.update v.sockPackInfo n info }

def recvfromWait (n : Nat) : SM (Option Int) :=
  poll .blocked do
    let packLen ← getSnRxRsr n
    if (← getSnByte snSR n) = sockClosed then return some (some sockerrSockclosed)
    else
      let v ← getVars
      if v.nonblock n ∧ packLen = 0 then return some (some sockBusy)
      else if packLen ≠ 0 then return some none
      else return none

def recvfromHead (n : Nat) (mode : UInt8) (addr : IpPort) : SM (Option IpPort) := do
  if mode = snMrUdp then
    let head ← recvData n 8
    modifyVars fun v => v.packet n (Udp.word head 6)
    return some ⟨head.take 4, Udp.word head 4⟩
  else if mode = snMrMacraw then
    let head ← recvData n 2
    let size := Udp.word head 0 - 2
    if size > 1514 then
      let _ ← close n
      return none
    else
      modifyVars fun v => v.packet n size
      return some addr
  else
    let head ← recvData n 6
    modifyVars fun v => v.packet n (Udp.word head 4)
    return some ⟨head.take 4, addr.port⟩

/-- What `recvfrom` does between two packets: what it returns, or the sender of the next one. -/
def recvfromNext (n : Nat) (mode : UInt8) (addr : IpPort) : SM (Int ⊕ IpPort) := do
  match ← recvfromWait n with
  | some ret => return .inl ret
  | none =>
    match ← recvfromHead n mode addr with
    | none => return .inl sockfatalPacklen
    | some addr => return .inr addr

def recvfromData (n : Nat) (len : UInt16) : SM (Int × List UInt8) := do
  let v ← getVars
  let packLen := if len < v.sockRemainedSize n then len else v.sockRemainedSize n
  let buf ← recvData n packLen
  modifyVars fun v => v.piece n packLen
  return (packLen.toNat, buf)

def recvfrom (n : Nat) (len : UInt16) (addr : IpPort) : SM (Int × List UInt8 × IpPort) := do
  if n ≥ wizchipSockNum then return (sockerrSocknum, [], addr)
  else
    let mode := (← getSnByte snMR n) &&& 0x0F
    if mode ≠ snMrUdp ∧ mode ≠ snMrIpraw ∧ mode ≠ snMrMacraw then
      return (sockerrSockmode, [], addr)
    else if len = 0 then return (sockerrDatalen, [], addr)
    else
      let v ← getVars
      let sender ← if v.sockRemainedSize n = 0 then recvfromNext n mode addr else pure (.inr addr)
      match sender with
      | .inl ret => return (ret, [], addr)
      | .inr addr =>
        let (ret, buf) ← recvfromData n len
        return (ret, buf, addr)

variable {n : Nat} {D : Udp.Datagram → Prop} {past : List UInt8}

/-- Socket `n` receives nothing but whole datagrams, and `D` holds of each. -/
def Delivers (D : Udp.Datagram → Prop) (n : Nat) (e : Event) : Prop :=
  e.sn = n → (∀ bs, e.what ≠ .arrive bs) ∧
    ∀ bs, e.what = .datagram bs → ∃ d : Udp.Datagram, D d ∧ d.bytes = bs

section History

/-- A UDP socket into which whole datagrams have come since there was `past`. -/
def Framed (D : Udp.Datagram → Prop) (past : List UInt8) (k : Sock) : Prop :=
  k.page snMR.toNat &&& 0x0F = snMrUdp ∧
    ∃ ds : List Udp.Datagram, (∀ d ∈ ds, D d) ∧ k.received = past ++ Udp.stream ds

def Receiving (D : Udp.Datagram → Prop) (past : List UInt8) (k : Sock) : Prop :=
  (k.cr = 0 ∨ k.cr = snCrRecv) ∧ Framed D past k

theorem Framed.take {k : Sock} (hk : Framed D past k) {d : Udp.Datagram} (hd : D d) :
    Framed D past (k.take d.bytes) := by
  obtain ⟨hmode, ds, hds, hr⟩ := hk
  refine ⟨hmode, ds ++ [d], ?_, ?_⟩
  · simpa [or_imp, forall_and] using ⟨hds, hd⟩
  · show k.received ++ d.bytes = _
    simp [hr, Udp.stream]

theorem Framed.move {k : Sock} (hk : Framed D past k) {e : SockEvent} (he : Delivers D n ⟨n, e⟩)
    (hc : k.cr = 0 ∨ ∀ ptr, e ≠ .accept ptr) : Framed D past (k.move e) := by
  obtain ⟨hnone, hwhole⟩ := he rfl
  cases e with
  | accept ptr => rwa [k.move_accept hc]
  | arrive bs => exact absurd rfl (hnone bs)
  | datagram bs =>
    obtain ⟨d, hd, rfl⟩ := hwhole bs rfl
    rw [Sock.move]
    split_ifs
    · exact hk.take hd
    · exact hk
  | status | transmit | ack | interrupt => exact hk

theorem lasting_framed : Lasting (Delivers D n) n (Framed D past) where
  move _ _ he hk hc := hk.move he hc
  control _ _ _ _ hk := hk

theorem Receiving.move {k : Sock} (hk : Receiving D past k) {e : SockEvent}
    (he : Delivers D n ⟨n, e⟩) : Receiving D past (k.move e) := by
  obtain ⟨hcr, hk⟩ := hk
  cases e with
  | accept ptr =>
    rcases hcr with h0 | hr
    · rw [k.move_accept (Or.inl h0)]
      exact ⟨Or.inl h0, hk⟩
    · rw [Sock.move, Sock.command_recv hr, if_neg (by rw [hr]; decide)]
      exact ⟨Or.inl rfl, hk⟩
  | datagram bs =>
    refine ⟨?_, hk.move he (Or.inr (by simp))⟩
    rw [Sock.move]
    split_ifs <;> exact hcr
  | arrive bs => exact absurd rfl ((he rfl).1 bs)
  | status | transmit | ack | interrupt => exact ⟨hcr, hk⟩

theorem receiving_stable : Stable W5500.move (Delivers D n) fun (_ : Statics) c =>
    Receiving D past (c.socks n) :=
  stable_socks (P := fun _ k => Receiving D past k) fun _ _ _ he hk => hk.move he

theorem setSnByte_receiving {a : UInt16} (b : UInt8) (hn : n < wizchipSockNum)
    (ha : a = snRXRD ∨ a = snRXRD + 1) :
    Keeps (Delivers D n) (fun _ c => Receiving D past (c.socks n)) (setSnByte a n b) := by
  refine keeps_of_spec (setSnByte_spec hn receiving_stable fun v c hk => ?_)
  rw [setSock_self]
  rcases ha with rfl | rfl <;> exact hk

theorem recvData_receiving (len : UInt16) (hn : n < wizchipSockNum) :
    Keeps (Delivers D n) (fun _ c => Receiving D past (c.socks n)) (recvData n len) := by
  have hst : Stable W5500.move (Delivers D n) fun (_ : Statics) c =>
    Receiving D past (c.socks n) := receiving_stable
  refine Keeps.bind ?_ fun buf => Keeps.bind ?_ fun _ => .pure buf
  · refine .ite (.pure _) (Keeps.bind ?_ fun ptr => Keeps.bind ?_ fun bs => Keeps.bind ?_
      fun _ => .pure bs)
    · rw [getSnWord, offsetInc_snReg hn (by decide)]
      exact Keeps.bind (wizchipRead_keeps _ (snReg_lt hn) hst) fun _ =>
        (wizchipRead_keeps _ (snReg_lt hn) hst).map
    · exact wizchipReadBuf_keeps _ _ (rxbufBlock_lt hn) hst
    · rw [setSnWord, offsetInc_snReg hn (by decide)]
      exact (setSnByte_receiving _ hn (Or.inl rfl)).bind fun _ =>
        setSnByte_receiving _ hn (Or.inr rfl)
  · refine Keeps.bind ?_ fun _ => .poll (wizchipRead_keeps _ (snReg_lt hn) hst).map
    refine keeps_of_spec (setSnByte_spec hn hst fun v c hk => ?_)
    rw [setSock_self]
    exact ⟨Or.inr rfl, hk.2⟩

end History

section Queue

/-- Socket `n` is the queue `s`, into which `all` has come, and more datagrams meanwhile. -/
structure Follows (D : Udp.Datagram → Prop) (n : Nat) (all : List UInt8) (s : Udp.Socket)
    (v : Statics) (c : W5500) : Prop where
  remained : v.sockRemainedSize n = s.remainedSize
  calm : (c.socks n).cr = 0
  mode : (c.socks n).page snMR.toNat &&& 0x0F = snMrUdp
  stream : ∃ got gave ds, (c.socks n).Synced got gave ∧ (got ++ s.rx = all ∧
    got.length = s.taken) ∧ (∀ d ∈ ds, D d) ∧ (c.socks n).unread = s.rx ++ Udp.stream ds

variable {s : Udp.Socket} {all : List UInt8}

theorem follows_iff {v : Statics} {c : W5500} : Follows D n all s v c ↔ ∃ got gave,
    (got ++ s.rx = all ∧ got.length = s.taken) ∧
      Calm n (·.sockRemainedSize n = s.remainedSize) (·.Synced got gave) v c ∧
        Receiving D all (c.socks n) := by
  constructor
  · rintro ⟨hr, hc, hm, got, gave, ds, hk, hg, hds, hu⟩
    refine ⟨got, gave, hg, ⟨hr, hc, hk⟩, Or.inl hc, hm, ds, hds, ?_⟩
    rw [hk.received, hu, ← List.append_assoc, hg.1]
  · rintro ⟨got, gave, hg, ⟨hr, hc, hk⟩, -, hm, ds, hds, hrec⟩
    refine ⟨hr, hc, hm, got, gave, ds, hk, hg, hds, ?_⟩
    rw [hk.received, ← hg.1, List.append_assoc] at hrec
    exact List.append_cancel_left hrec

theorem follows_stable : Stable W5500.move (Delivers D n) (Follows D n all s) := by
  intro e he v c hp
  obtain ⟨got, gave, hg, hcalm, hrec⟩ := follows_iff.mp hp
  exact follows_iff.mpr ⟨got, gave, hg, (lasting_synced got gave).stable e he v c hcalm,
    receiving_stable e he v c hrec⟩

theorem recvData_follows {len : UInt16} (hn : n < wizchipSockNum)
    (hlen : len.toNat ≤ s.rx.length) :
    DSpec (Delivers D n) (Follows D n all s) (recvData n len) fun bs v c =>
      bs = (Udp.wizRecvData s len.toNat).1 ∧
        Follows D n all (Udp.wizRecvData s len.toNat).2 v c := by
  refine (Spec.exists fun got => Spec.exists fun gave => ?_).pre fun u c hp => follows_iff.mp hp
  refine .fact (fun u c hp => hp.1) fun hg => ?_
  refine ((recvData_spec hn).meet (recvData_receiving len hn)).mono
    (P := fun u c => (Calm n (·.sockRemainedSize n = s.remainedSize) (fun k =>
      k.Synced got gave ∧ len ≤ k.rsr) u.vars c) ∧ Receiving D all (c.socks n)) ?_ ?_
  · rintro u c ⟨-, ⟨hr, hc, hk⟩, hrec⟩
    obtain ⟨-, ds, -, hds⟩ := hrec.2
    rw [hk.received, ← hg.1, List.append_assoc] at hds
    have hu := congrArg List.length (List.append_cancel_left hds)
    rw [Sock.length_unread, List.length_append] at hu
    exact ⟨⟨hr, hc, hk, UInt16.le_iff_toNat_le.mpr (by omega)⟩, hrec⟩
  · rintro bs u c ⟨⟨hbs, hr, hc, hk⟩, hrec⟩
    obtain ⟨ds, hds, heq⟩ := hrec.2.2
    rw [hk.received, ← hg.1, List.append_assoc, List.append_assoc] at heq
    have hcut := List.append_cancel_left heq
    have htake := congrArg (List.take len.toNat) hcut
    have hdrop := congrArg (List.drop len.toNat) hcut
    rw [← hbs, List.take_left, hbs, List.take_append_of_le_length hlen] at htake
    rw [← hbs, List.drop_left, hbs, List.drop_append_of_le_length hlen] at hdrop
    have hread : read s.rx 0 len.toNat = s.rx.take len.toNat := by
      rw [read_eq_take (by omega), List.drop_zero]
    refine ⟨htake.trans hread.symm, hr, hc, hrec.2.1, got ++ bs, gave, ds, hk, ⟨?_, ?_⟩, hds, hdrop⟩
    · show got ++ bs ++ s.rx.drop len.toNat = all
      rw [htake, List.append_assoc, List.take_append_drop, hg.1]
    · rw [List.length_append, hg.2, hbs]
      rfl

theorem Follows.resize {v v' : Statics} {c : W5500} {x : UInt16} (h : Follows D n all s v c)
    (hv : v'.sockRemainedSize n = x) : Follows D n all { s with remainedSize := x } v' c :=
  ⟨hv, h.calm, h.mode, h.stream⟩

theorem recvfromHead_follows {addr : IpPort} (hn : n < wizchipSockNum) (hlen : 8 ≤ s.rx.length) :
    DSpec (Delivers D n) (Follows D n all s) (recvfromHead n snMrUdp addr) fun sender v c =>
      sender = some (Udp.recvfromHead s).1 ∧ Follows D n all (Udp.recvfromHead s).2 v c := by
  have hlen' : (8 : UInt16).toNat ≤ s.rx.length := hlen
  rw [recvfromHead, if_pos rfl]
  refine (recvData_follows hn hlen').bind fun head => .fact (fun u c hp => hp.1) fun hhead => ?_
  subst hhead
  exact ((modifyVars_rule (P := Follows D n all (Udp.wizRecvData s 8).2)
    (Q := Follows D n all (Udp.recvfromHead s).2) fun v c hp => hp.resize
      (Function.update_self ..)).pre fun u c hp => hp.2).bind fun _ => .pure fun u c hp => ⟨rfl, hp⟩

theorem recvfromData_follows {len : UInt16} (hn : n < wizchipSockNum)
    (hlen : s.remainedSize.toNat ≤ s.rx.length) :
    DSpec (Delivers D n) (Follows D n all s) (recvfromData n len) fun r v c =>
      r = ((Udp.recvfromData s len).1, (Udp.recvfromData s len).2.1) ∧
        Follows D n all (Udp.recvfromData s len).2.2 v c := by
  refine (getVars_spec (Q := fun v v' c => v.sockRemainedSize n = s.remainedSize ∧
    Follows D n all s v' c) fun v c hp => ⟨hp.remained, hp⟩).bind fun v => ?_
  refine .fact (fun u c hp => hp.1) fun hv => ?_
  rw [hv]
  obtain ⟨x, hx⟩ : ∃ x, (if len < s.remainedSize then len else s.remainedSize) = x := ⟨_, rfl⟩
  have hle : x ≤ s.remainedSize := by
    rw [← hx]
    split_ifs with h
    · exact UInt16.le_of_lt h
    · exact UInt16.le_refl _
  have hdata : Udp.recvfromData s len = ((x.toNat : Int), (Udp.wizRecvData s x.toNat).1,
      { (Udp.wizRecvData s x.toNat).2 with remainedSize := s.remainedSize - x }) := by
    rw [Udp.recvfromData, hx]
    rfl
  simp only [hdata, hx]
  refine ((recvData_follows hn ((UInt16.le_iff_toNat_le.mp hle).trans hlen)).pre
    fun u c hp => hp.2).bind fun buf => .fact (fun u c hp => hp.1) fun hbuf => ?_
  subst hbuf
  refine ((modifyVars_rule (P := Follows D n all (Udp.wizRecvData s x.toNat).2)
    (Q := Follows D n all { (Udp.wizRecvData s x.toNat).2 with
      remainedSize := s.remainedSize - x }) fun v c hp => hp.resize ?_).pre
        fun u c hp => hp.2).bind fun _ => .pure fun u c hp => ⟨rfl, hp⟩
  have hsize : (v.piece n x).sockRemainedSize n = v.sockRemainedSize n - x :=
    Function.update_self ..
  rw [hsize, hp.remained]
  rfl

theorem counts_follows : Counts (Delivers D n) (Follows D n all s) n snRXRSR
    (fun c => (c.socks n).rsr) fun _ => True :=
  counts_rsr follows_stable (fun v c hp => by
    obtain ⟨got, gave, ds, hk, -⟩ := hp.stream
    exact ⟨hp.calm, hk.sized, hk.rx⟩) fun _ _ _ => trivial

theorem recvfromWait_follows (hn : n < wizchipSockNum) :
    DSpec (Delivers D n) (Follows D n all s) (recvfromWait n) fun r v c =>
      (∀ ret, r = some ret → ret = sockBusy ∨ ret = sockerrSockclosed) ∧
        (r = none → (c.socks n).rsr ≠ 0) ∧ Follows D n all s v c := by
  refine Spec.poll (E := (· = Stop.blocked)) (I := fun (u : Host Statics) c =>
    Follows D n all s u.vars c) ?_ rfl
  refine ((counts_follows.getSnSize hn (by decide) 0).pre fun u c hp =>
    ⟨UInt16.zero_le, hp⟩).bind fun x => ?_
  refine ((getSnByte_spec (Q := fun _ v c => True ∧ x ≤ (c.socks n).rsr ∧ Follows D n all s v c) hn
    (counts_follows.above True x) fun v c hp => hp).pre fun u c hp =>
      ⟨trivial, hp.2.1, hp.2.2⟩).bind fun sr => ?_
  refine .ite (fun _ => .pure fun u c hp => ⟨fun ret h => ?_, nofun, hp.2.2⟩) fun _ => ?_
  · exact Or.inr (Option.some.inj h).symm
  refine (getVars_spec (Q := fun _ v c => True ∧ x ≤ (c.socks n).rsr ∧ Follows D n all s v c)
    fun v c hp => hp).bind fun v => ?_
  refine .ite (fun _ => .pure fun u c hp => ⟨fun ret h => ?_, nofun, hp.2.2⟩) fun _ => ?_
  · exact Or.inl (Option.some.inj h).symm
  refine .ite (fun h0 => .pure fun u c hp => ⟨nofun, fun _ hz => h0 ?_, hp.2.2⟩) fun _ =>
    .pure fun u c hp => hp.2.2
  have hle := hp.2.1
  rw [hz] at hle
  exact UInt16.le_antisymm hle UInt16.zero_le

end Queue

section Packets

variable {s : Udp.Socket}

/-- The rest of a datagram and then whole ones. -/
def Whole (s : Udp.Socket) : Prop :=
  ∃ tail todo, s.rx = tail ++ Udp.stream todo ∧ tail.length = s.remainedSize.toNat

theorem Whole.arrive (h : Whole s) (ds : List Udp.Datagram) : Whole (s.arrive ds) := by
  obtain ⟨tail, todo, hrx, hlen⟩ := h
  refine ⟨tail, todo ++ ds, ?_, hlen⟩
  rw [Udp.Socket.arrive, hrx, Udp.stream_append, List.append_assoc]

theorem Whole.remained_le (h : Whole s) : s.remainedSize.toNat ≤ s.rx.length := by
  obtain ⟨tail, todo, hrx, hlen⟩ := h
  rw [hrx, List.length_append]
  omega

theorem Whole.next (h : Whole s) (h0 : s.remainedSize = 0) (hne : s.rx ≠ []) :
    ∃ (d : Udp.Datagram) (todo : List Udp.Datagram), s.rx = d.bytes ++ Udp.stream todo := by
  obtain ⟨tail, todo, hrx, hlen⟩ := h
  rw [h0] at hlen
  have hnil : tail = [] := List.length_eq_zero_iff.mp hlen
  rw [hnil, List.nil_append] at hrx
  cases todo with
  | nil => exact absurd hrx hne
  | cons d todo => exact ⟨d, todo, hrx.trans (Udp.stream_cons d todo)⟩

theorem Whole.head (h : Whole s) (h0 : s.remainedSize = 0) (hne : s.rx ≠ []) :
    8 ≤ s.rx.length ∧ Whole (Udp.recvfromHead s).2 := by
  obtain ⟨d, todo, hrx⟩ := h.next h0 hne
  obtain ⟨rx, size, taken⟩ := s
  dsimp only at hrx
  subst hrx
  rw [Udp.recvfromHead_bytes]
  refine ⟨?_, d.data, todo, rfl, ?_⟩
  · rw [List.length_append, d.length_bytes]
    omega
  · exact (UInt16.toNat_ofNat_of_lt' d.fits).symm

theorem Whole.data (h : Whole s) (len : UInt16) : Whole (Udp.recvfromData s len).2.2 := by
  obtain ⟨tail, todo, hrx, hlen⟩ := h
  obtain ⟨x, hx⟩ : ∃ x, (if len < s.remainedSize then len else s.remainedSize) = x := ⟨_, rfl⟩
  have hle : x ≤ s.remainedSize := by
    rw [← hx]
    split_ifs with h
    · exact UInt16.le_of_lt h
    · exact UInt16.le_refl _
  have hlt := UInt16.le_iff_toNat_le.mp hle
  rw [Udp.recvfromData, hx]
  refine ⟨tail.drop x.toNat, todo, ?_, ?_⟩
  · show s.rx.drop x.toNat = _
    rw [hrx, List.drop_append_of_le_length (by omega)]
  · show _ = (s.remainedSize - x).toNat
    rw [UInt16.toNat_sub_of_le _ _ hle, List.length_drop, hlen]

theorem recvfrom_next {len : UInt16} {addr : IpPort} (h0 : s.remainedSize = 0) (hne : s.rx ≠ []) :
    Udp.recvfrom false len addr s =
      ((Udp.recvfromData (Udp.recvfromHead s).2 len).1,
        (Udp.recvfromData (Udp.recvfromHead s).2 len).2.1, (Udp.recvfromHead s).1,
        (Udp.recvfromData (Udp.recvfromHead s).2 len).2.2) := by
  rw [Udp.recvfrom, if_pos h0, if_neg Bool.false_ne_true, if_neg hne]

theorem recvfrom_rest {len : UInt16} {addr : IpPort} (h0 : s.remainedSize ≠ 0) :
    Udp.recvfrom false len addr s = ((Udp.recvfromData s len).1, (Udp.recvfromData s len).2.1, addr,
      (Udp.recvfromData s len).2.2) := by
  rw [Udp.recvfrom, if_neg h0]

/-- What a call on the queue `s` can come to: it leaves the queue as it is, or it takes from it
what `recvfrom` takes when the datagrams `ds` have come too. -/
inductive Serves (s : Udp.Socket) (len : UInt16) (addr : IpPort) :
    List Udp.Datagram → Int × List UInt8 × IpPort → Udp.Socket → Prop
  | nothing {ret : Int} : ret = sockerrDatalen ∨ ret = sockBusy ∨ ret = sockerrSockclosed →
      Serves s len addr [] (ret, [], addr) s
  | takes {ds : List Udp.Datagram} {ret : Int} {buf : List UInt8} {sender : IpPort}
      {s' : Udp.Socket} : s.remainedSize ≠ 0 ∨ (s.arrive ds).rx ≠ [] →
      Udp.recvfrom false len addr (s.arrive ds) = (ret, buf, sender, s') →
      Serves s len addr ds (ret, buf, sender) s'

theorem Serves.whole {s' : Udp.Socket} {len : UInt16} {addr : IpPort}
    {ds : List Udp.Datagram} {r : Int × List UInt8 × IpPort} (hs : Serves s len addr ds r s')
    (h : Whole s) : Whole s' := by
  cases hs with
  | nothing => exact h
  | @takes ds ret buf sender s' hsome hr =>
    have hw := h.arrive ds
    by_cases h0 : (s.arrive ds).remainedSize = 0
    · have hne := hsome.resolve_left fun h => h h0
      rw [recvfrom_next h0 hne] at hr
      cases hr
      exact (hw.head h0 hne).2.data len
    · rw [recvfrom_rest h0] at hr
      cases hr
      exact hw.data len

end Packets

section Calls

variable {s : Udp.Socket} {all : List UInt8} {len : UInt16} {addr : IpPort}

theorem Follows.arrived {v : Statics} {c : W5500} (h : Follows D n all s v c) :
    ∃ ds, (∀ d ∈ ds, D d) ∧ (c.socks n).unread = (s.arrive ds).rx ∧
      Follows D n (all ++ Udp.stream ds) (s.arrive ds) v c := by
  obtain ⟨got, gave, ds, hk, hg, hds, hu⟩ := h.stream
  refine ⟨ds, hds, hu, h.remained, h.calm, h.mode, got, gave, [], hk, ⟨?_, hg.2⟩, nofun, ?_⟩
  · rw [← hg.1, List.append_assoc]
    rfl
  simp [hu, Udp.Socket.arrive, Udp.stream]

theorem recvfromNext_follows (hn : n < wizchipSockNum) (hw : Whole s) (h0 : s.remainedSize = 0) :
    DSpec (Delivers D n) (Follows D n all s) (recvfromNext n snMrUdp addr) fun r v c =>
      match r with
      | .inl ret => (ret = sockBusy ∨ ret = sockerrSockclosed) ∧ Follows D n all s v c
      | .inr sender => ∃ ds, (∀ d ∈ ds, D d) ∧ (s.arrive ds).rx ≠ [] ∧
          sender = (Udp.recvfromHead (s.arrive ds)).1 ∧
            Follows D n (all ++ Udp.stream ds) (Udp.recvfromHead (s.arrive ds)).2 v c := by
  refine (recvfromWait_follows hn).bind fun r => ?_
  cases r with
  | some ret => exact .pure fun u c hp => ⟨hp.1 ret rfl, hp.2.2⟩
  | none =>
    refine (Spec.exists (P := fun ds (u : Host Statics) c => (∀ d ∈ ds, D d) ∧
      (s.arrive ds).rx ≠ [] ∧ Follows D n (all ++ Udp.stream ds) (s.arrive ds) u.vars c)
        fun ds => ?_).pre ?_
    · refine .fact (p := (∀ d ∈ ds, D d) ∧ (s.arrive ds).rx ≠ []) (fun u c hp => ⟨hp.1, hp.2.1⟩)
        fun hfact => ?_
      obtain ⟨hds, hne⟩ := hfact
      have h8 := ((hw.arrive ds).head h0 hne).1
      refine ((recvfromHead_follows hn h8).pre fun u c hp => hp.2.2).bind fun sender =>
        .fact (fun u c hp => hp.1) fun hs => ?_
      subst hs
      exact .pure fun u c hp => ⟨ds, hds, hne, rfl, hp.2⟩
    · rintro u c ⟨-, hne, hp⟩
      obtain ⟨ds, hds, hu, hf⟩ := hp.arrived
      refine ⟨ds, hds, fun hnil => hne rfl ?_, hf⟩
      have hlen := Sock.length_unread (c.socks n)
      rw [hu, hnil] at hlen
      exact UInt16.toNat_inj.mp hlen.symm

/-- A call on a UDP socket does what `Udp.recvfrom` does, or nothing. -/
theorem recvfrom_follows (hn : n < wizchipSockNum) (hw : Whole s) :
    DSpec (Delivers D n) (Follows D n all s) (recvfrom n len addr) fun r v c =>
      ∃ ds s', (∀ d ∈ ds, D d) ∧ Serves s len addr ds r s' ∧
        Follows D n (all ++ Udp.stream ds) s' v c := by
  have hall : all ++ Udp.stream [] = all := List.append_nil all
  rw [recvfrom, if_neg (by omega)]
  refine (getSnByte_spec (a := snMR) (Q := fun mr v c => mr &&& 0x0F = snMrUdp ∧
    Follows D n all s v c) hn follows_stable fun v c hp => ⟨hp.mode, hp⟩).bind fun mr =>
      .fact (fun u c hp => hp.1) fun hmode => ?_
  simp only [hmode]
  rw [if_neg (by simp)]
  refine .ite (fun _ => .pure fun u c hp => ⟨[], s, nofun, .nothing (Or.inl rfl),
    hall.symm ▸ hp.2⟩) fun hlen => ?_
  refine ((getVars_spec (P := Follows D n all s) (Q := fun v v' c =>
    v.sockRemainedSize n = s.remainedSize ∧ Follows D n all s v' c) fun v c hp =>
      ⟨hp.remained, hp⟩).pre fun u c hp => hp.2).bind fun v => .fact (fun u c hp => hp.1)
        fun hv => ?_
  rw [hv]
  by_cases h0 : s.remainedSize = 0
  · rw [if_pos h0]
    refine ((recvfromNext_follows hn hw h0).pre fun u c hp => hp.2).bind fun r => ?_
    cases r with
    | inl ret => exact .pure fun u c hp => ⟨[], s, nofun, .nothing (Or.inr hp.1), hall.symm ▸ hp.2⟩
    | inr sender =>
      refine Spec.exists fun ds => .fact (p := (∀ d ∈ ds, D d) ∧ (s.arrive ds).rx ≠ [] ∧
        sender = (Udp.recvfromHead (s.arrive ds)).1) (fun u c hp => ⟨hp.1, hp.2.1, hp.2.2.1⟩) ?_
      rintro ⟨hds, hne, rfl⟩
      have hhead := ((hw.arrive ds).head h0 hne).2
      refine ((recvfromData_follows hn hhead.remained_le).pre fun u c hp => hp.2.2.2).bind fun r =>
        .fact (fun u c hp => hp.1) fun hr => ?_
      subst hr
      exact .pure fun u c hp => ⟨ds, _, hds, .takes (Or.inr hne) (recvfrom_next h0 hne), hp.2⟩
  · rw [if_neg h0]
    refine ((recvfromData_follows hn hw.remained_le).pre fun u c hp => hp.2).bind fun r =>
      .fact (fun u c hp => hp.1) fun hr => ?_
    subst hr
    refine .pure fun u c hp => ⟨[], _, nofun, .takes (Or.inl h0) ?_, hall.symm ▸ hp.2⟩
    have hsame : s.arrive [] = s := by
      simp [Udp.Socket.arrive, Udp.stream]
    rw [hsame, recvfrom_rest h0]

end Calls

section Opened

theorem udpMode (flag : UInt8) : (snMrUdp ||| (flag &&& 0xF0)) &&& 0x0F = snMrUdp := by
  have hor : ∀ a b c : UInt8, (a ||| b) &&& c = a &&& c ||| b &&& c := fun a b c =>
    UInt8.toBitVec_inj.mp BitVec.and_or_distrib_right
  have hand : (flag &&& 0xF0) &&& 0x0F = 0 := by
    rw [UInt8.and_assoc]
    exact UInt8.and_zero
  rw [hor, hand]
  rfl

theorem framed_open {k : Sock} {flag : UInt8}
    (hmr : k.page snMR.toNat = (snMrUdp ||| (flag &&& 0xF0))) (hcr : k.cr = snCrOpen)
    (ptr : UInt16) : Framed D [] (k.command ptr) := by
  have hnew : (k.command ptr).received = [] := by
    rw [Sock.command, if_pos hcr]
    rfl
  exact ⟨by rw [page_open hcr, hmr, udpMode], [], List.forall_mem_nil D, hnew⟩

theorem socketUdp_spec {port : UInt16} {flag : UInt8} (hn : n < wizchipSockNum) :
    DSpec (Delivers D n) (Calm n (fun _ => True) Sock.Sized) (socket n snMrUdp port flag)
      fun ret v c => ret = n → Follows D n [] ⟨[], 0, 0⟩ v c := by
  refine (socket_spec (B := fun k => k.Synced [] [] ∧ Framed D [] k) hn lasting_sized
    (fun _ hs => hs) ((lasting_synced [] []).and lasting_framed) fun k ptr hk hmr hcr =>
      ⟨synced_open hk hcr ptr, framed_open hmr hcr ptr⟩).post fun ret u c hp hret => ?_
  rcases hp with ⟨hneg, -⟩ | ⟨-, -, ⟨v₀, hv⟩, hcr, hk, hframed⟩
  · omega
  · refine follows_iff.mpr ⟨[], [], ⟨rfl, rfl⟩, ⟨?_, hcr, hk⟩, Or.inl hcr, hframed⟩
    rw [hv]
    exact (v₀.opened_self flag hn).2.2.1

end Opened

section Runs

variable {s s' : Udp.Socket} {all : List UInt8} {calls : List (UInt16 × IpPort)}
  {ds : List Udp.Datagram} {rs : List (Int × List UInt8 × IpPort)} {w w' : Board}

/-- One call of `recvfrom` after the other, each with its `len` and what `*addr` holds before. -/
def listen (n : Nat) : List (UInt16 × IpPort) → SM (List (Int × List UInt8 × IpPort))
  | [] => pure []
  | (len, addr) :: calls => do
    let r ← recvfrom n len addr
    let rs ← listen n calls
    return r :: rs

inductive Served : Udp.Socket → List (UInt16 × IpPort) → List Udp.Datagram →
    List (Int × List UInt8 × IpPort) → Udp.Socket → Prop
  | nil {s : Udp.Socket} : Served s [] [] [] s
  | cons {s s₁ s' : Udp.Socket} {len : UInt16} {addr : IpPort} {calls : List (UInt16 × IpPort)}
      {ds ds' : List Udp.Datagram} {r : Int × List UInt8 × IpPort}
      {rs : List (Int × List UInt8 × IpPort)} : Serves s len addr ds r s₁ →
      Served s₁ calls ds' rs s' → Served s ((len, addr) :: calls) (ds ++ ds') (r :: rs) s'

theorem listen_spec (hn : n < wizchipSockNum) (hw : Whole s) :
    DSpec (Delivers D n) (Follows D n all s) (listen n calls) fun rs v c =>
      ∃ ds s', (∀ d ∈ ds, D d) ∧ Served s calls ds rs s' ∧
        Follows D n (all ++ Udp.stream ds) s' v c := by
  induction calls generalizing all s with
  | nil =>
    refine .pure fun u c hp => ⟨[], s, nofun, .nil, ?_⟩
    rwa [Udp.stream, List.flatMap_nil, List.append_nil]
  | cons call calls ih =>
    refine (recvfrom_follows hn hw).bind fun r => Spec.exists fun ds => Spec.exists fun s₁ => ?_
    refine .fact (p := (∀ d ∈ ds, D d) ∧ Serves s call.1 call.2 ds r s₁)
      (fun u c hp => ⟨hp.1, hp.2.1⟩) fun hfact => ?_
    obtain ⟨hds, hs⟩ := hfact
    refine ((ih (hs.whole hw)).pre fun u c hp => hp.2.2).bind fun rs => .pure ?_
    rintro u c ⟨ds', s', hds', hs', hp⟩
    refine ⟨ds ++ ds', s', fun d hd => ?_, .cons hs hs', ?_⟩
    · exact (List.mem_append.mp hd).elim (hds d) (hds' d)
    · rwa [Udp.stream_append, ← List.append_assoc]

/-- The calls that return data have taken whole datagrams, if there is room for them. -/
theorem Served.taken {todo done : List Udp.Datagram} (h : Served s calls ds rs s')
    (hb : Udp.Between s done todo)
    (hfit : ∀ d ∈ todo ++ ds, ∀ call ∈ calls, d.data.length ≤ call.1.toNat) :
    ∃ taken left, todo ++ ds = taken ++ left ∧ Udp.Between s' (done ++ taken) left ∧
      rs.filter (fun r => r.2.1 ≠ []) = (taken.filter fun d => d.data ≠ []).map fun d =>
        ((d.data.length : Int), d.data, d.sender) := by
  induction h generalizing todo done with
  | nil => exact ⟨[], todo, List.append_nil _, by rwa [List.append_nil], rfl⟩
  | @cons s s₁ s' len addr calls ds ds' r rs hs hrest ih =>
    cases hs with
    | nothing =>
      obtain ⟨taken, left, hsplit, hb', hrs⟩ := ih hb fun d hd call hc =>
        hfit d hd call (List.mem_cons_of_mem _ hc)
      refine ⟨taken, left, hsplit, hb', ?_⟩
      simpa using hrs
    | takes hsome hr =>
      have harr := hb.arrive ds
      have hne := hsome.resolve_left fun h => h hb.remainedSize
      obtain ⟨d, todo', hd⟩ : ∃ d todo', todo ++ ds = d :: todo' := by
        cases hl : todo ++ ds with
        | nil =>
          rw [harr.rx, hl] at hne
          exact absurd rfl hne
        | cons d todo' => exact ⟨d, todo', rfl⟩
      rw [hd] at harr
      rw [← List.append_assoc, hd] at hfit
      rw [Udp.recvfrom_whole harr (hfit d List.mem_cons_self _ List.mem_cons_self)] at hr
      cases hr
      have hb₁ : Udp.Between ⟨Udp.stream todo', 0, (Udp.stream done).length + 8 + d.data.length⟩
          (done ++ [d]) todo' := by
        refine ⟨rfl, rfl, ?_⟩
        rw [Udp.stream_append, List.length_append, Udp.stream_cons, List.length_append,
          d.length_bytes]
        simp [Udp.stream, Nat.add_assoc]
      obtain ⟨taken, left, hsplit, hb', hrs⟩ := ih hb₁ fun d' hd' call hc =>
        hfit d' (List.mem_cons_of_mem d hd') call (List.mem_cons_of_mem _ hc)
      refine ⟨d :: taken, left, ?_, ?_, ?_⟩
      · rw [← List.append_assoc, hd, List.cons_append, hsplit, List.cons_append]
      · rwa [List.append_assoc] at hb'
      · by_cases hnil : d.data = []
        · simpa [hnil] using hrs
        · simpa [hnil] using hrs

/-- All that a run from the empty queue has taken, and what is left in the chip. -/
theorem Served.whole {v : Statics} {c : W5500} (h : Served ⟨[], 0, 0⟩ calls ds rs s')
    (hfit : ∀ d ∈ ds, ∀ call ∈ calls, d.data.length ≤ call.1.toNat)
    (hf : Follows D n ([] ++ Udp.stream ds) s' v c) :
    ∃ taken left, (c.socks n).received = Udp.stream (taken ++ left) ∧
      (c.socks n).unread = Udp.stream left ∧
      rs.filter (fun r => r.2.1 ≠ []) = (taken.filter fun d => d.data ≠ []).map fun d =>
        ((d.data.length : Int), d.data, d.sender) := by
  have hstart : Udp.Between ⟨[], 0, 0⟩ [] [] := ⟨rfl, rfl, rfl⟩
  obtain ⟨taken, left, hsplit, hb, hrs⟩ := h.taken hstart hfit
  obtain ⟨got, gave, more, hk, hall, -, hu⟩ := hf.stream
  rw [List.nil_append] at hall hsplit
  rw [hb.rx] at hall hu
  refine ⟨taken, left ++ more, ?_, ?_, hrs⟩
  · rw [hk.received, hu, ← List.append_assoc, hall.1, ← List.append_assoc, ← hsplit,
      Udp.stream_append]
  · rw [hu, Udp.stream_append]

theorem exists_ok_map {α β : Type} {x : SM α} {f : α → β} {w : Board} {b : β}
    (h : (outcome (x w)).map f = some b) : ∃ a w', x w = .ok a w' ∧ f a = b := by
  cases hx : x w with
  | ok a w' =>
    rw [hx] at h
    exact ⟨a, w', rfl, Option.some.inj h⟩
  | error e w' =>
    rw [hx] at h
    cases h

def udpSock : Sock :=
  { freshSock 0 with
    page := fun a => if a = 0 then snMrUdp else (freshSock 0).page a
    sr := sockUdp }

def udpBoard (script : List (List Event)) : Board :=
  { freshBoard script with dev := ⟨fun _ => 1, fun _ => udpSock⟩ }

theorem udpBoard_follows (script : List (List Event)) :
    Follows D n [] ⟨[], 0, 0⟩ (udpBoard script).host.vars (udpBoard script).dev := by
  have hs : udpSock.Sized := (freshSock_synced (by decide)).sized.congr rfl rfl
  have hk : udpSock.Synced [] [] :=
    ⟨⟨hs, rxHolds_of_empty rfl rfl, txHolds_of_empty rfl rfl rfl rfl, rfl, rfl⟩, rfl, rfl⟩
  have hu : udpSock.unread = [] := hk.received.symm
  have hmode : udpSock.page snMR.toNat &&& 0x0F = snMrUdp := by decide
  exact ⟨rfl, rfl, hmode, [], [], [], hk, ⟨rfl, rfl⟩, nofun, hu⟩

def firstDatagram : Udp.Datagram where
  sender := ⟨[10, 0, 0, 3], 6000⟩
  data := [200, 201]
  address := rfl
  fits := Nat.le_of_ble_eq_true rfl

def secondDatagram : Udp.Datagram where
  sender := ⟨[10, 0, 0, 4], 6001⟩
  data := [33]
  address := rfl
  fits := Nat.le_of_ble_eq_true rfl

def twoArrivals : List (List Event) :=
  [⟨0, .datagram firstDatagram.bytes⟩] :: prompt 8 ++
    [⟨0, .datagram secondDatagram.bytes⟩] :: prompt 60

theorem twoArrivals_deliver (h₁ : D firstDatagram) (h₂ : D secondDatagram) :
    Interleaved.Within (Delivers D 0) twoArrivals := by
  intro es hes e he
  simp only [twoArrivals, prompt, List.mem_cons, List.mem_append, List.mem_replicate] at hes
  rcases hes with (rfl | ⟨-, rfl⟩) | rfl | ⟨-, rfl⟩
  all_goals obtain rfl := List.mem_singleton.mp he
  · exact fun _ => ⟨nofun, fun bs h => ⟨_, h₁, SockEvent.datagram.inj h⟩⟩
  · exact fun _ => ⟨nofun, nofun⟩
  · exact fun _ => ⟨nofun, fun bs h => ⟨_, h₂, SockEvent.datagram.inj h⟩⟩
  · exact fun _ => ⟨nofun, nofun⟩

def openedArrivals : List (List Event) :=
  prompt 10 ++ twoArrivals

/-- Calls on a UDP socket of the chip come to what `Udp.recvfrom` makes of a queue of datagrams,
whatever comes in between two accesses. -/
theorem listen_serves (hn : n < wizchipSockNum) (hw : Whole s)
    (hin : Interleaved.Within (Delivers D n) w.script) (hf : Follows D n all s w.host.vars w.dev)
    (hrun : listen n calls w = .ok rs w') :
    ∃ ds s', (∀ d ∈ ds, D d) ∧ Served s calls ds rs s' ∧
      Follows D n (all ++ Udp.stream ds) s' w'.host.vars w'.dev :=
  ((listen_spec hn hw).ok hin hf hrun).2

theorem listen_serves_piece :
    let calls : List (UInt16 × IpPort) := [(1, ⟨[], 7⟩)]
    ∃ rs w', listen 0 calls (udpBoard twoArrivals) = .ok rs w' ∧ rs.map Prod.fst = [1] ∧
      ∃ ds s', (∀ d ∈ ds, True) ∧ Served ⟨[], 0, 0⟩ calls ds rs s' ∧
        Follows (fun _ => True) 0 ([] ++ Udp.stream ds) s' w'.host.vars w'.dev := by
  intro calls
  have hw : Whole ⟨[], 0, 0⟩ := ⟨[], [], rfl, rfl⟩
  have hret : (outcome (listen 0 calls (udpBoard twoArrivals))).map (List.map Prod.fst) =
      some [1] := by
    decide +kernel
  obtain ⟨rs, w', h, hrs⟩ := exists_ok_map hret
  exact ⟨rs, w', h, hrs, listen_serves (by decide) hw (twoArrivals_deliver trivial trivial)
    (udpBoard_follows _) h⟩

/-- From `socket` on, whatever was in a socket that has memory and no command on its way, the
datagrams that come in are handed out whole, each of them once and with its sender, in the
order in which they have come. -/
theorem socket_listens {port : UInt16} {flag : UInt8} {w₁ : Board} (hn : n < wizchipSockNum)
    (hin : Interleaved.Within (Delivers (fun d =>
      ∀ call ∈ calls, d.data.length ≤ call.1.toNat) n) w.script)
    (hcr : (w.dev.socks n).cr = 0) (hs : (w.dev.socks n).Sized)
    (hopen : socket n snMrUdp port flag w = .ok n w₁) (hrun : listen n calls w₁ = .ok rs w') :
    ∃ taken left, (w'.dev.socks n).received = Udp.stream (taken ++ left) ∧
      (w'.dev.socks n).unread = Udp.stream left ∧
      rs.filter (fun r => r.2.1 ≠ []) = (taken.filter fun d => d.data ≠ []).map fun d =>
        ((d.data.length : Int), d.data, d.sender) := by
  obtain ⟨hin₁, hf⟩ := (socketUdp_spec hn).ok hin ⟨trivial, hcr, hs⟩ hopen
  obtain ⟨-, ds, s', hds, hserved, hf'⟩ :=
    (listen_spec hn ⟨[], [], rfl, rfl⟩).ok hin₁ (hf rfl) hrun
  exact hserved.whole hds hf'

theorem socket_listens_first :
    let calls : List (UInt16 × IpPort) := [(40, ⟨[], 7⟩)]
    ∃ w₁ rs w', socket 0 snMrUdp 5000 1 (freshBoard openedArrivals) = .ok 0 w₁ ∧
      listen 0 calls w₁ = .ok rs w' ∧ rs.map Prod.fst = [2] ∧
      ∃ taken left, (w'.dev.socks 0).received = Udp.stream (taken ++ left) ∧
        (w'.dev.socks 0).unread = Udp.stream left ∧
        rs.filter (fun r => r.2.1 ≠ []) = (taken.filter fun d => d.data ≠ []).map fun d =>
          ((d.data.length : Int), d.data, d.sender) := by
  intro calls
  obtain ⟨w₁, hopen⟩ := exists_ok (x := socket 0 snMrUdp 5000 1)
    (w := freshBoard openedArrivals) (a := 0) (by decide +kernel)
  have hret : (outcome ((socket 0 snMrUdp 5000 1 >>= fun _ => listen 0 calls)
      (freshBoard openedArrivals))).map (List.map Prod.fst) = some [2] := by
    set_option maxRecDepth 8000 in decide +kernel
  rw [Lockstep.bind_ok hopen] at hret
  obtain ⟨rs, w', h, hrs⟩ := exists_ok_map hret
  have hin : Interleaved.Within (Delivers (fun d => ∀ call ∈ calls, d.data.length ≤ call.1.toNat) 0)
      openedArrivals := by
    intro es hes e he
    rcases List.mem_append.mp hes with htaken | hrest
    · rw [List.eq_of_mem_replicate htaken, List.mem_singleton] at he
      rw [he]
      exact fun _ => ⟨nofun, nofun⟩
    · exact twoArrivals_deliver (by decide) (by decide) es hrest e he
  exact ⟨w₁, rs, w', hopen, h, hrs,
    socket_listens (by decide) hin rfl (freshSock_synced (by decide)).sized hopen h⟩

end Runs

end NucleoW5500.Driver
