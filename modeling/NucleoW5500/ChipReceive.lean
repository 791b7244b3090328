import NucleoW5500.SockCalls

/-! What `recv` of the socket library does to the socket it is called for, whatever the chip does
between any two bytes on the bus. -/

namespace NucleoW5500.Driver

open CString Chip Interleaved RingBuffer Spi

variable {R : Event → Prop} {n : Nat} {Φ : Statics → Prop} {A : Sock → Prop}
  {got gave bs : List UInt8}

section Memory

theorem rxbufBlock_lt {n : Nat} (hn : n < wizchipSockNum) : rxbufBlock n < 32 := by
  rw [wizchipSockNum] at hn
  rw [rxbufBlock]
  omega

theorem read_rxbufBlock (c : W5500) (n : Nat) (a : UInt16) :
    c.read (rxbufBlock n) a = (c.socks n).rxMem (a.toNat % (c.socks n).rxSize) := by
  have hd : rxbufBlock n / 4 = n := by rw [rxbufBlock]; omega
  have hm : rxbufBlock n % 4 = 3 := by rw [rxbufBlock]; omega
  rw [W5500.read, hd, if_neg (by omega), if_neg (by omega), if_pos hm]

theorem prefix_concat {l xs : List UInt8} {x : UInt8} (h : xs <+: l) (hx : l[xs.length]? = some x) :
    xs ++ [x] <+: l := by
  obtain ⟨ys, rfl⟩ := h
  rw [List.getElem?_append_right (Nat.le_refl _), Nat.sub_self] at hx
  cases ys with
  | nil => simp at hx
  | cons y ys =>
    obtain rfl : y = x := by simpa using hx
    exact ⟨ys, by simp⟩

theorem next_unread {k : Sock} (hs : k.Sized) {ms : List UInt8} (hlt : ms.length < k.rsr.toNat)
    (hpre : ms <+: k.unread) :
    ms ++ [k.rxMem ((k.rxDone + UInt16.ofNat ms.length).toNat % k.rxSize)] <+: k.unread := by
  refine prefix_concat hpre ?_
  rw [Sock.unread, getElem?_window hlt, add_congr hs.rxDvd k.rxDone ms.length]

end Memory

section Release

/-- `bs` has been read and `Sn_RX_RD` moved on behind it, and RECV is still to come. -/
structure Released (bs : List UInt8) (k : Sock) (got gave : List UInt8) : Prop extends
    k.Holds got gave where
  rd : k.word snRXRD = k.rxDone + UInt16.ofNat bs.length
  wr : k.word snTXWR = k.txEnd
  next : bs <+: k.unread

theorem lasting_released (bs got gave : List UInt8) : Lasting R n (Released bs · got gave) where
  move k e _ hk he := by
    have hsame := k.same_move he
    refine ⟨hk.toHolds.move he, ?_, ?_, hk.next.trans (Sock.prefix_move hk.sized hk.rx he)⟩
    · rw [hsame.word, hsame.rxDone, hk.rd]
    · rw [hsame.word, hsame.txEnd, hk.wr]
  control _ cr ir sr hk := ⟨hk.toHolds.control cr ir sr, hk.rd, hk.wr, hk.next⟩

theorem Released.command {k : Sock} (hk : Released bs k got gave) (hcr : k.cr = snCrRecv)
    (ptr : UInt16) : (k.command ptr).Synced (got ++ bs) gave := by
  have hcmd : k.command ptr = k.release bs.length := by
    rw [Sock.command_recv hcr, hk.rd]
    rfl
  rw [hcmd]
  exact ⟨hk.toHolds.release hk.next, hk.rd, hk.wr⟩

/-- The driver reads from the chip's own pointer, and the chip leaves the bytes alone. -/
theorem lasting_reading (got gave bs : List UInt8) (len ptr : UInt16) :
    Lasting R n fun k => (k.Synced got gave ∧ len ≤ k.rsr ∧ k.rxDone = ptr) ∧ bs <+: k.unread where
  move k e _ hk he := by
    obtain ⟨⟨hk, hl, hp⟩, hpre⟩ := hk
    exact ⟨⟨hk.move he, UInt16.le_trans hl (hk.rx.move hk.sized he).2.2,
      (k.same_move he).rxDone.trans hp⟩, hpre.trans (Sock.prefix_move hk.sized hk.rx he)⟩
  control _ cr ir sr hk := ⟨⟨hk.1.1.control cr ir sr, hk.1.2⟩, hk.2⟩

/-- The driver moves `Sn_RX_RD` on, one byte after the other. -/
theorem lasting_moving (got gave bs : List UInt8) (ptr : UInt16) :
    Lasting R n fun k => k.Holds got gave ∧ k.word snTXWR = k.txEnd ∧ k.rxDone = ptr ∧
      bs <+: k.unread where
  move k e _ hk he := by
    obtain ⟨hk, hw, hp, hpre⟩ := hk
    have hsame := k.same_move he
    refine ⟨hk.move he, ?_, hsame.rxDone.trans hp, hpre.trans (Sock.prefix_move hk.sized hk.rx he)⟩
    rw [hsame.word, hsame.txEnd, hw]
  control _ cr ir sr hk := ⟨hk.1.control cr ir sr, hk.2⟩

theorem wizRecvData_spec {len : UInt16} (hn : n < wizchipSockNum) :
    DSpec R (Calm n Φ fun k => k.Synced got gave ∧ len ≤ k.rsr) (wizRecvData n len) fun bs v c =>
      bs.length = len.toNat ∧ Calm n Φ (Released bs · got gave) v c := by
  rw [wizRecvData]
  refine Spec.ite (fun h0 => .pure ?_) fun h0 => ?_
  · rintro u c ⟨hv, hc, hk, -⟩
    subst h0
    exact ⟨rfl, hv, hc, hk.toHolds, by simp [hk.rd], hk.wr, List.nil_prefix⟩
  -- the position of the pointer is fixed until the driver moves it
  refine (Spec.exists fun ptr => ?_).pre (P := fun u c => ∃ ptr, Calm n Φ (fun k =>
    (k.Synced got gave ∧ len ≤ k.rsr ∧ k.rxDone = ptr) ∧ [] <+: k.unread) u.vars c)
      fun u c hp => ⟨_, hp.1, hp.2.1, ⟨hp.2.2.1, hp.2.2.2, rfl⟩, List.nil_prefix⟩
  refine .fact (p := len.toNat + 3 ≤ maxWizBuf) (fun u c hp => ?_) fun hmax => ?_
  · obtain ⟨-, -, ⟨hk, hl, -⟩, -⟩ := hp
    have hle := UInt16.le_iff_toNat_le.mp hl
    exact (Nat.add_le_add_right (hle.trans hk.rx.fits) 3).trans hk.sized.rxLe
  refine (getSnWord_page hn (Or.inr rfl) (lasting_reading got gave [] len ptr) fun k hk =>
    hk.1.1.rd.trans hk.1.2.2).bind fun x => .fact (fun u c hp => hp.1) fun hx => ?_
  subst hx
  refine ((wizchipReadBuf_spec (J := fun ms => Calm n Φ fun k =>
    (k.Synced got gave ∧ len ≤ k.rsr ∧ k.rxDone = x) ∧ ms <+: k.unread) (rxbufBlock_lt hn) hmax
      (fun ms _ => (lasting_reading got gave ms len x).stable) ?_).pre fun u c hp => hp.2).bind
        fun bs => .fact (fun u c hp => hp.1) fun hlen => ?_
  · rintro ms hms v c ⟨hv, hc, ⟨hk, hl, rfl⟩, hpre⟩
    refine ⟨hv, hc, ⟨hk, hl, rfl⟩, ?_⟩
    rw [read_rxbufBlock]
    exact next_unread hk.sized (hms.trans_le (UInt16.le_iff_toNat_le.mp hl)) hpre
  refine ((setSnWord_page hn (by decide) (by decide) (lasting_moving got gave bs x) ?_ :
    DSpec R (Calm n Φ _) _ _).pre ?_).bind fun _ => .pure ?_
  · rintro k b ⟨hk, hw, hp, hpre⟩
    have hkeep : ∀ a, snRXRD.toNat ≤ a.toNat → a.toNat ≤ snRXRD.toNat + 1 →
        (k.setByte a b).Holds got gave ∧ (k.setByte a b).word snTXWR = k.txEnd ∧ k.rxDone = x ∧
          bs <+: (k.setByte a b).unread := by
      intro a h₁ h₂
      have hrd : snRXRD.toNat = 40 := rfl
      have hne : ∀ r : UInt16, r.toNat < 40 → r.toNat ≠ a.toNat := fun r hr => by omega
      rw [Sock.word_setByte (hne _ (by decide)) (by rw [show snTXWR.toNat = 36 from rfl]; omega),
        Sock.unread_setByte (hne _ (by decide))]
      exact ⟨hk.setByte (hne _ (by decide)) (hne _ (by decide)), hw, hp, hpre⟩
    exact ⟨hkeep _ (by decide) (by decide), hkeep _ (by decide) (by decide)⟩
  · rintro u c ⟨-, hv, hc, ⟨hk, -, hp⟩, hpre⟩
    exact ⟨hv, hc, hk.toHolds, hk.wr, hp, hpre⟩
  · rintro u c ⟨hv, hc, ⟨hk, hw, rfl, hpre⟩, hrd⟩
    refine ⟨hlen, hv, hc, hk, ?_, hw, hpre⟩
    rw [hrd, hlen, UInt16.ofNat_toNat]

theorem recvData_spec {len : UInt16} (hn : n < wizchipSockNum) :
    DSpec R (Calm n Φ fun k => k.Synced got gave ∧ len ≤ k.rsr) (recvData n len) fun bs v c =>
      bs.length = len.toNat ∧ Calm n Φ (·.Synced (got ++ bs) gave) v c := by
  refine (wizRecvData_spec hn).bind fun bs => .fact (fun u c hp => hp.1) fun hlen => ?_
  refine ((command_spec hn (by decide) (lasting_released bs got gave) (lasting_synced _ _)
    fun k ptr hk hcr => hk.command hcr ptr).pre fun u c hp => hp.2).bind fun _ => ?_
  exact .pure fun u c hp => ⟨hlen, hp⟩

end Release

section Sizes

theorem getSnRxMax_spec {P : Statics → W5500 → Prop} (hn : n < wizchipSockNum)
    (hP : Stable W5500.move R P) (hs : ∀ v c, P v c → (c.socks n).Sized) :
    DSpec R P (getSnRxMax n) fun max v c => max ≠ 0 ∧ P v c := by
  have hz : (0 : UInt16).toNat = 0 := rfl
  have hz' : (0 : UInt8).toNat = 0 := rfl
  refine (getSnByte_spec (Q := fun b v c => (b.toNat < 64 ∧ b ≠ 0) ∧ P v c) hn hP
    fun v c hp => ⟨?_, hp⟩).bind fun b => .pure ?_
  · have hsz := hs v c hp
    have hdvd := hsz.rxDvd
    have hle := hsz.rxLe
    obtain ⟨b, hb⟩ : ∃ b, (c.socks n).readReg snRXBUFSIZE = b := ⟨_, rfl⟩
    have hrx : (c.socks n).rxSize = b.toNat * 1024 := by rw [← hb]; rfl
    rw [hb]
    rw [hrx] at hdvd hle
    refine ⟨by rw [maxWizBuf] at hle; omega, ?_⟩
    rintro rfl
    exact absurd hdvd (by decide)
  · rintro u c ⟨⟨hlt, h0⟩, hp⟩
    refine ⟨fun he => h0 (UInt8.toNat_inj.mp ?_), hp⟩
    have ht := shiftLeft_ten hlt
    rw [he, hz] at ht
    omega

theorem getSnTxMax_spec {P : Statics → W5500 → Prop} (hn : n < wizchipSockNum)
    (hP : Stable W5500.move R P) : DSpec R P (getSnTxMax n) fun _ => P :=
  (getSnByte_spec (Q := fun _ => P) hn hP fun _ _ hp => hp).bind fun _ => .pure fun _ _ hp => hp

theorem txEmpty_spec {P : Statics → W5500 → Prop} (hn : n < wizchipSockNum)
    (hP : Stable W5500.move R P)
    (htx : ∀ v c, P v c → (c.socks n).cr = 0 ∧ (c.socks n).Sized ∧ (c.socks n).TxHolds) :
    DSpec R P (txEmpty n) fun _ => P := by
  refine (((counts_fsr (H := fun _ => True) hP htx fun _ _ _ => trivial).getSnSize hn (by decide)
    0).pre fun u c hp => ⟨UInt16.zero_le, hp⟩).bind fun freesize => ?_
  exact ((getSnTxMax_spec hn hP).pre fun u c hp => hp.2.2).bind fun _ => .pure fun _ _ hp => hp

theorem clip_le (x y : UInt16) : (if x < y then x else y) ≤ x := by
  split_ifs with h
  · exact UInt16.le_refl _
  · exact UInt16.not_lt.mp h

theorem clip_spec {x y : UInt16} (hx : x ≠ 0) (hy : y ≠ 0) :
    (if x < y then x else y) ≠ 0 ∧ (if x < y then x else y) ≤ x ∧ (if x < y then x else y) ≤ y := by
  refine ⟨?_, clip_le x y, ?_⟩
  · split_ifs
    · exact hx
    · exact hy
  · split_ifs with h
    · exact UInt16.le_of_lt h
    · exact UInt16.le_refl _

end Sizes

section Receiving

/-- With bytes to read, `recv` does not give up a socket that is only closed by the peer. -/
theorem recvRefused_spec {P : Statics → W5500 → Prop} {recvsize : UInt16} {tmp : UInt8}
    (hn : n < wizchipSockNum) (hP : Stable W5500.move R P)
    (htx : ∀ v c, P v c → (c.socks n).cr = 0 ∧ (c.socks n).Sized ∧ (c.socks n).TxHolds) :
    DSpec R P (recvRefused n recvsize tmp) fun refused v c =>
      (refused = true → tmp = sockEstablished ∨ tmp = sockCloseWait → recvsize = 0) ∧ P v c := by
  refine Spec.ite (fun _ => .pure fun u c hp => ⟨nofun, hp⟩) fun hest => ?_
  refine Spec.ite (fun _ => ?_) fun hwait => .pure fun u c hp => ⟨fun _ h => ?_, hp⟩
  · refine Spec.ite (fun _ => .pure fun u c hp => ⟨nofun, hp⟩) fun h0 => ?_
    exact (txEmpty_spec hn hP htx).post fun _ u c hp => ⟨fun _ _ => not_not.mp h0, hp⟩
  · exact absurd h (by simp [hest, hwait])

/-- What `recv` has found when it stops waiting. -/
def Waited (v₀ : Statics) (n : Nat) (got gave : List UInt8) :
    RxReply ⊕ UInt16 → Statics → W5500 → Prop
  | .inl (.err code), v, c => code = 6 ∧ Calm n (· = v₀.forget n) (·.Synced got gave) v c
  | .inl (.got bs), v, c => bs = [] ∧ v₀.nonblock n ∧ Calm n (· = v₀) (·.Synced got gave) v c
  | .inr m, v, c => m ≠ 0 ∧ Calm n (· = v₀) (fun k => k.Synced got gave ∧ m ≤ k.rsr) v c

theorem lasting_rsr (got gave : List UInt8) (x : UInt16) :
    Lasting R n fun k => k.Synced got gave ∧ x ≤ k.rsr where
  move _ _ _ hk he := ⟨hk.1.move he, UInt16.le_trans hk.2 (hk.1.rx.move hk.1.sized he).2.2⟩
  control _ cr ir sr hk := ⟨hk.1.control cr ir sr, hk.2⟩

theorem recvWait_spec {v₀ : Statics} (hn : n < wizchipSockNum) :
    DSpec R (Calm n (· = v₀) (·.Synced got gave)) (recvWait n) (Waited v₀ n got gave) := by
  refine Spec.poll (E := (· = Stop.blocked)) (I := fun (u : Host Statics) c =>
    Calm n (· = v₀) (·.Synced got gave) u.vars c) ?_ rfl
  refine (((counts_rsr (H := fun _ => True) (lasting_synced got gave).stable
    (Calm.rx fun _ hk => hk) fun _ _ _ => trivial).getSnSize hn (by decide) 0).pre fun u c hp =>
      ⟨UInt16.zero_le, hp⟩).bind fun recvsize => ?_
  have hroom := lasting_rsr (R := R) (n := n) got gave recvsize
  refine ((getSnByte_calm snSR hn hroom : DSpec R (Calm n (· = v₀) _) _ _).pre fun u c hp =>
    ⟨hp.2.2.1, hp.2.2.2.1, hp.2.2.2.2, hp.2.1⟩).bind fun tmp => ?_
  refine (recvRefused_spec hn hroom.stable (Calm.tx fun _ hk => hk.1)).bind fun refused => ?_
  refine Spec.ite (fun _ => ?_) fun _ => ?_
  · refine ((close_spec (Φ := (· = v₀)) (Ψ := (· = v₀.forget n)) hn hroom fun v hv => by
      rw [hv]).pre fun u c hp => hp.2).bind fun _ => .pure ?_
    rintro u c ⟨hv, hc, hk, -⟩
    exact ⟨rfl, hv, hc, hk⟩
  · refine ((getVars_spec (P := Calm n (· = v₀) fun k => k.Synced got gave ∧ recvsize ≤ k.rsr)
      (Q := fun v v' c => v = v₀ ∧ Calm n (· = v₀) (fun k => k.Synced got gave ∧
        recvsize ≤ k.rsr) v' c) fun v c hp => ⟨hp.1, hp⟩).pre fun u c hp => hp.2).bind fun v => ?_
    refine Spec.ite (fun hnb => .pure ?_) fun hnb => Spec.ite (fun h0 => .pure ?_)
      fun h0 => .pure ?_
    · rintro u c ⟨rfl, hv, hc, hk, -⟩
      exact ⟨rfl, hnb.1, hv, hc, hk⟩
    · exact fun u c hp => ⟨h0, hp.2⟩
    · rintro u c ⟨-, hv, hc, hk, -⟩
      exact ⟨hv, hc, hk⟩

/-- What `recv` does to a socket: the bytes it returns are the next ones of the stream. -/
def Received (v₀ : Statics) (n : Nat) (got gave : List UInt8) : RxReply → Statics → W5500 → Prop
  | .err code, v, c => Calm n (· = if code = 6 then v₀.forget n else v₀) (·.Synced got gave) v c
  | .got bs, v, c => (bs = [] → v₀.nonblock n) ∧ Calm n (· = v₀) (·.Synced (got ++ bs) gave) v c

theorem recv_spec {v₀ : Statics} {len : UInt16} (hn : n < wizchipSockNum) :
    DSpec R (Calm n (· = v₀) (·.Synced got gave)) (recv n len) fun r v c =>
      (∀ bs, r = .got bs → bs.length ≤ len.toNat) ∧ Received v₀ n got gave r v c := by
  have hsync := lasting_synced (R := R) (n := n) got gave
  have herr : ∀ (code : Nat) v c, code ≠ 6 → Calm n (· = v₀) (·.Synced got gave) v c →
      (∀ bs, RxReply.err code = .got bs → bs.length ≤ len.toNat) ∧
        Received v₀ n got gave (.err code) v c := by
    rintro code v c h6 ⟨hv, hk⟩
    refine ⟨nofun, ?_, hk⟩
    rw [if_neg h6]
    exact hv
  rw [recv, if_neg (by omega)]
  refine (badMode_spec snMrTcp hn hsync.stable).bind fun bad => ?_
  refine Spec.ite (fun _ => .pure fun u c hp => herr 4 _ c (by decide) hp) fun _ => ?_
  refine Spec.ite (fun _ => .pure fun u c hp => herr 13 _ c (by decide) hp) fun h0 => ?_
  refine (getSnRxMax_spec hn hsync.stable fun v c hk => hk.2.2.sized).bind fun max => ?_
  refine .fact (fun u c hp => hp.1) fun hmax => ?_
  obtain ⟨hlen, -, hle⟩ := clip_spec hmax h0
  refine ((recvWait_spec hn).pre fun u c hp => hp.2).bind fun r => ?_
  cases r with
  | inl r =>
    refine .pure fun u c hp => ?_
    cases r with
    | err code =>
      obtain ⟨rfl, hk⟩ := hp
      exact ⟨nofun, hk⟩
    | got bs =>
      obtain ⟨rfl, hnb, hv, hk⟩ := hp
      refine ⟨fun bs hbs => ?_, fun _ => hnb, hv, by rwa [List.append_nil]⟩
      cases hbs
      exact Nat.zero_le _
  | inr m =>
    refine .fact (fun u c hp => hp.1) fun hm => ?_
    obtain ⟨hl0, hlm, hll⟩ := clip_spec hm hlen
    refine ((recvData_spec hn : DSpec R (Calm n (· = v₀) fun k => k.Synced got gave ∧ _ ≤ k.rsr)
      _ _).pre ?_).bind fun bs => .pure ?_
    · rintro u c ⟨-, hv, hc, hk, hr⟩
      exact ⟨hv, hc, hk, UInt16.le_trans hlm hr⟩
    · rintro u c ⟨hbs, hr⟩
      refine ⟨fun bs' hbs' => ?_, fun hnil => ?_, hr⟩
      · cases hbs'
        rw [hbs]
        exact UInt16.le_iff_toNat_le.mp (UInt16.le_trans hll hle)
      · rw [hnil] at hbs
        exact absurd (UInt16.toNat_inj.mp hbs.symm) hl0

end Receiving

section Closing

/-- Nothing comes in on socket `n`, which stays connected at least from the peer's side. -/
def Quiet (n : Nat) (e : Event) : Prop :=
  e.sn = n → (∀ bs, e.what ≠ .arrive bs) ∧ (∀ bs, e.what ≠ .datagram bs) ∧
    ∀ sr, e.what = .status sr → sr = sockEstablished ∨ sr = sockCloseWait

/-- The receive memory of a socket that is connected, or closed by the peer only, with `x` bytes
to read. -/
def Holding (got gave : List UInt8) (x : UInt16) (k : Sock) : Prop :=
  k.cr = 0 ∧ k.Synced got gave ∧ k.rsr = x ∧ (k.sr = sockEstablished ∨ k.sr = sockCloseWait)

variable {x : UInt16}

theorem holding_move {k : Sock} {e : SockEvent} (he : Quiet n ⟨n, e⟩) (hk : Holding got gave x k) :
    Holding got gave x (k.move e) := by
  obtain ⟨hc, hk, hx, hsr⟩ := hk
  obtain ⟨harr, hdgram, hstat⟩ := he rfl
  refine ⟨(k.same_move (Or.inl hc)).cr.trans hc, hk.move (Or.inl hc), ?_, ?_⟩
  · cases e with
    | arrive bs => exact absurd rfl (harr bs)
    | datagram bs => exact absurd rfl (hdgram bs)
    | accept ptr =>
      rw [Sock.move, if_pos hc]
      exact hx
    | status | transmit | ack | interrupt => exact hx
  · cases e with
    | datagram bs => exact absurd rfl (hdgram bs)
    | accept ptr =>
      rw [Sock.move, if_pos hc]
      exact hsr
    | status sr => exact hstat sr rfl
    | arrive | transmit | ack | interrupt => exact hsr

theorem holding_stable : Stable W5500.move (Quiet n) fun (_ : Statics) c =>
    Holding got gave x (c.socks n) :=
  stable_socks (P := fun _ k => Holding got gave x k) fun _ _ _ he hk => holding_move he hk

theorem counts_holding : Counts (Quiet n) (fun (_ : Statics) c => Holding got gave x (c.socks n))
    n snRXRSR (fun c => (c.socks n).rsr) (· = x) where
  stable := holding_stable
  up e he v c hp := by
    rw [hp.2.2.1, (holding_stable e he v c hp).2.2.1]
    exact UInt16.le_refl _
  hi _ _ _ := rfl
  lo _ _ _ := rfl
  held _ _ hp := hp.2.2.1

/-- `recv` gives up a socket that the peer has closed only when there is nothing left to read. -/
theorem recvWait_quiet (hn : n < wizchipSockNum) :
    DSpec (Quiet n) (fun _ c => Holding got gave x (c.socks n)) (recvWait n) fun r _ _ =>
      ∀ code, r = .inl (.err code) → x = 0 := by
  refine Spec.poll (E := (· = Stop.blocked)) (I := fun (_ : Host Statics) (c : W5500) =>
    Holding got gave x (c.socks n)) ?_ rfl
  refine ((counts_holding.getSnSize hn (by decide) 0).pre fun u c hp =>
    ⟨UInt16.zero_le, hp⟩).bind fun recvsize => ?_
  refine .fact (p := recvsize = x) (fun u c hp => ?_) fun hsize => ?_
  · rcases hp.1 with ⟨-, hx⟩ | ⟨rfl, r₁, r₂, ht, -⟩
    · exact hx
    · exact ht.eq_zero.symm
  refine ((getSnByte_spec (a := snSR) (P := fun (_ : Statics) c => Holding got gave x (c.socks n))
    (Q := fun tmp _ c => (tmp = sockEstablished ∨ tmp = sockCloseWait) ∧
      Holding got gave x (c.socks n)) hn holding_stable fun v c hp => ⟨hp.2.2.2, hp⟩).pre
        fun u c hp => hp.2.2).bind fun tmp => .fact (fun u c hp => hp.1) fun htmp => ?_
  refine ((recvRefused_spec hn holding_stable fun v c hp =>
    ⟨hp.1, hp.2.1.sized, hp.2.1.tx⟩).pre fun u c hp => hp.2).bind fun refused => ?_
  refine Spec.ite (fun href => ?_) fun _ => ?_
  · refine .fact (fun u c hp => hp.1 href htmp) fun h0 => ?_
    refine ((close_spec (Φ := fun _ => True) (Ψ := fun _ => True) hn (lasting_synced got gave)
      fun _ _ => trivial : DSpec _ (Calm n _ _) _ _).pre fun u c hp =>
        ⟨trivial, hp.2.1, hp.2.2.1⟩).bind fun _ => .pure fun u c _ code _ => ?_
    rw [← hsize, h0]
  · refine ((getVars_spec (P := fun _ c => Holding got gave x (c.socks n)) (Q := fun _ _ c =>
      Holding got gave x (c.socks n)) fun v c hp => hp).pre fun u c hp => hp.2).bind fun v => ?_
    refine Spec.ite (fun _ => .pure fun u c _ => nofun) fun _ => Spec.ite
      (fun _ => .pure fun u c _ => nofun) fun _ => .pure fun u c hp => hp

theorem recv_quiet {len : UInt16} (hn : n < wizchipSockNum) :
    DSpec (Quiet n) (fun _ c => Holding got gave x (c.socks n)) (recv n len) fun r _ _ =>
      r = .err 6 → x = 0 := by
  have hhold : Stable W5500.move (Quiet n) fun (_ : Statics) c =>
    Holding got gave x (c.socks n) := holding_stable
  rw [recv, if_neg (by omega)]
  refine (badMode_spec snMrTcp hn hhold).bind fun bad => ?_
  refine Spec.ite (fun _ => .pure fun u c _ => nofun) fun _ => ?_
  refine Spec.ite (fun _ => .pure fun u c _ => nofun) fun h0 => ?_
  refine (getSnRxMax_spec hn hhold fun v c hk => hk.2.1.sized).bind fun max => ?_
  refine (Spec.exists fun v₀ => ?_).pre (P := fun u c => ∃ v₀, Holding got gave x (c.socks n) ∧
    Calm n (· = v₀) (·.Synced got gave) u.vars c) fun u c hp => ⟨_, hp.2, rfl, hp.2.1, hp.2.2.1⟩
  refine ((recvWait_quiet hn).meet (recvWait_spec hn)).bind fun r => ?_
  cases r with
  | inl r =>
    refine .pure fun u c hp h6 => hp.1 6 ?_
    rw [h6]
  | inr m =>
    refine ((recvData_spec hn : DSpec _ (Calm n (· = v₀) fun k => k.Synced got gave ∧ _ ≤ k.rsr)
      _ _).pre ?_).bind fun bs => .pure fun u c _ => nofun
    rintro u c ⟨-, -, hv, hc, hk, hr⟩
    exact ⟨hv, hc, hk, UInt16.le_trans (clip_le _ _) hr⟩

end Closing

end NucleoW5500.Driver
