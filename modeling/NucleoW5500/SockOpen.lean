import NucleoW5500.ChipSend

/-! How a socket comes into order: `socket` opens it, whatever was in its registers, and `connect`
starts the transmit memory anew. -/

namespace NucleoW5500.Driver

open CString Chip Interleaved RingBuffer Spi

variable {R : Event → Prop} {n : Nat} {Φ : Statics → Prop} {A : Sock → Prop}
  {got gave : List UInt8} {k : Sock}

section Opening

theorem lasting_sized : Lasting R n Sock.Sized where
  move k _ _ hs he := (k.same_move he).sized hs
  control _ _ _ _ hs := ⟨hs.rxDvd, hs.txDvd, hs.rxLe, hs.txLe⟩

/-- The transmit memory is empty after OPEN and CONNECT. -/
theorem txHolds_of_empty (hend : k.txEnd = k.txAck) (hrd : k.txRd = k.txAck) (hg : k.given = [])
    (hw : k.wire = []) : k.TxHolds := by
  have hz : (0 : UInt16).toNat = 0 := rfl
  have hp : k.pending = 0 := by rw [Sock.pending, hend, UInt16.sub_self, hz]
  have hu : k.unsent = 0 := by rw [Sock.unsent, hend, hrd, UInt16.sub_self, hz]
  constructor
  · rw [hp]
    exact Nat.zero_le _
  · rw [hp]
    exact Nat.zero_le _
  · rw [hu]
    exact Nat.zero_le _
  · rw [hp, hg]
    rfl
  · rw [hw, hg, List.take_nil]

theorem rxHolds_of_empty (hwr : k.rxWr = k.rxDone) (hr : k.received = []) : k.RxHolds := by
  have hz : (0 : UInt16).toNat = 0 := rfl
  have hp : k.rsr.toNat = 0 := by rw [Sock.rsr, hwr, UInt16.sub_self, hz]
  constructor
  · rw [hp]
    exact Nat.zero_le _
  · rw [hp]
    exact Nat.zero_le _
  · rw [Sock.unread, hp, hr, List.drop_nil]
    rfl

theorem sized_setWord (hs : k.Sized) {a v : UInt16} (ha : snTXBUFSIZE.toNat < a.toNat)
    (ha' : a.toNat < 65535) : (k.setWord a v).Sized := by
  have h1 : (1 : UInt16).toNat = 1 := rfl
  have hr : snRXBUFSIZE.toNat = 30 := rfl
  have ht : snTXBUFSIZE.toNat = 31 := rfl
  have hsucc : (a + 1).toNat = a.toNat + 1 := by
    rw [UInt16.toNat_add, h1]
    omega
  exact (hs.setByte (by omega) (by omega)).setByte (by omega) (by omega)

/-- OPEN. -/
theorem synced_open (hs : k.Sized) (hcr : k.cr = snCrOpen) (ptr : UInt16) :
    (k.command ptr).Synced [] [] := by
  have hcmd : k.command ptr = { (k.txInit ptr).rxInit ptr with sr := k.openStatus } := by
    rw [Sock.command, if_pos hcr]
  have hsized : ((k.setWord snTXWR ptr).setWord snRXRD ptr).Sized :=
    sized_setWord (sized_setWord hs (by decide) (by decide)) (by decide) (by decide)
  have htx : (k.command ptr).TxHolds := by
    rw [hcmd]
    exact txHolds_of_empty rfl rfl rfl rfl
  have hrx : (k.command ptr).RxHolds := by
    rw [hcmd]
    exact rxHolds_of_empty rfl rfl
  have hwr : ((k.setWord snTXWR ptr).setWord snRXRD ptr).word snTXWR = ptr := by
    rw [Sock.setWord, Sock.word_setByte (by decide) (by decide),
      Sock.word_setByte (by decide) (by decide), Sock.word_setWord (by decide)]
  refine ⟨⟨?_, hrx, htx, ?_, ?_⟩, ?_, ?_⟩
  · rw [hcmd]
    exact ⟨hsized.rxDvd, hsized.txDvd, hsized.rxLe, hsized.txLe⟩
  · rw [hcmd]
    exact List.take_nil
  · rw [hcmd]
    rfl
  · rw [hcmd]
    exact Sock.word_setWord (k := k.setWord snTXWR ptr) (by decide)
  · rw [hcmd]
    exact hwr

/-- CONNECT. -/
theorem synced_connect (hk : k.Synced got gave) (hcr : k.cr = snCrConnect) (ptr : UInt16) :
    (k.command ptr).Synced got [] := by
  have hcmd : k.command ptr = { k.txInit ptr with sr := sockSynsent } := by
    rw [Sock.command, if_neg (by rw [hcr]; decide), if_pos hcr]
  have hsized : (k.setWord snTXWR ptr).Sized := sized_setWord hk.sized (by decide) (by decide)
  have hrx : ((k.setByte snTXWR (hiByte ptr)).setByte (snTXWR + 1) (loByte ptr)).RxHolds :=
    ((hk.toHolds.setByte (by decide) (by decide)).setByte (by decide) (by decide)).rx
  have htx : (k.command ptr).TxHolds := by
    rw [hcmd]
    exact txHolds_of_empty rfl rfl rfl rfl
  refine ⟨⟨?_, ?_, htx, ?_, ?_⟩, ?_, ?_⟩
  · rw [hcmd]
    exact ⟨hsized.rxDvd, hsized.txDvd, hsized.rxLe, hsized.txLe⟩
  · rw [hcmd]
    exact ⟨hrx.fits, hrx.count, hrx.content⟩
  · rw [hcmd]
    exact hk.taken
  · rw [hcmd]
    rfl
  · rw [hcmd]
    show (k.setWord snTXWR ptr).word snRXRD = k.rxDone
    rw [Sock.setWord, Sock.word_setByte (by decide) (by decide),
      Sock.word_setByte (by decide) (by decide), hk.rd]
  · rw [hcmd]
    exact Sock.word_setWord (k := k) (by decide)

/-- OPEN leaves the mode as it was set. -/
theorem page_open (hcr : k.cr = snCrOpen) (ptr : UInt16) :
    (k.command ptr).page snMR.toNat = k.page snMR.toNat := by
  rw [Sock.command, if_pos hcr]
  rfl

end Opening

section Pages

/-- `A` says nothing about the registers in front of `Sn_RXBUF_SIZE`. -/
def Paged (A : Sock → Prop) : Prop :=
  ∀ k a b, a.toNat < snRXBUFSIZE.toNat → A k → A (k.setByte a b)

theorem paged_synced (got gave : List UInt8) : Paged (·.Synced got gave) := by
  intro k a b ha hk
  have hr : snRXBUFSIZE.toNat = 30 := rfl
  have hne : ∀ r : UInt16, 30 ≤ r.toNat → r.toNat ≠ a.toNat ∧ r.toNat + 1 ≠ a.toNat := by
    intro r h
    omega
  have hrd := hne snRXRD (by decide)
  have hwr := hne snTXWR (by decide)
  refine ⟨hk.toHolds.setByte (hne _ (by decide)).1 (hne _ (by decide)).1, ?_, ?_⟩
  · rw [Sock.word_setByte hrd.1 hrd.2, hk.rd]
    rfl
  · rw [Sock.word_setByte hwr.1 hwr.2, hk.wr]
    rfl

theorem setSnPort_spec {a x : UInt16} (hn : n < wizchipSockNum) (ha : snIR.toNat < a.toNat)
    (ha' : a.toNat + 1 < snRXBUFSIZE.toNat) (hA : Lasting R n A) (hp : Paged A) :
    DSpec R (Calm n Φ A) (setSnWord a n x) fun _ => Calm n Φ A := by
  have h1 : (1 : UInt16).toNat = 1 := rfl
  have hr : snRXBUFSIZE.toNat = 30 := rfl
  have hsucc : (a + 1).toNat = a.toNat + 1 := by
    rw [UInt16.toNat_add, h1]
    omega
  refine (setSnWord_page hn ha (by omega) hA fun k b hk =>
    ⟨hp _ _ _ (by omega) hk, hp _ _ _ (by omega) hk⟩).post fun _ u c hc => ?_
  exact ⟨hc.1, hc.2.1, hc.2.2.1⟩

theorem setSnDipr_spec (addr : List UInt8) (hn : n < wizchipSockNum) (hA : Lasting R n A)
    (hp : Paged A) : DSpec R (Calm n Φ A) (setSnDipr n addr) fun _ => Calm n Φ A := by
  refine wizchipWriteBuf_spec (J := fun _ => Calm n Φ A) (snReg_lt hn) (by decide)
    (fun _ _ => hA.stable) ?_
  rintro i b hb v c hc
  obtain ⟨hi, -⟩ := List.getElem?_eq_some_iff.mp hb
  rw [length_read] at hi
  have h4 : (4 : UInt16).toNat = 4 := rfl
  have hd : snDIPR.toNat = 12 := rfl
  have ha : (snDIPR + UInt16.ofNat i).toNat = 12 + i := by
    rw [UInt16.toNat_add, UInt16.toNat_ofNat', hd]
    omega
  have hne : ∀ r : UInt16, r.toNat < 12 → snDIPR + UInt16.ofNat i ≠ r := by
    rintro r hr rfl
    omega
  rw [write_sregBlock, Calm, setSock_self,
    Sock.writeReg_page (hne _ (by decide)) (hne _ (by decide))]
  have hr : snRXBUFSIZE.toNat = 30 := rfl
  exact ⟨hc.1, hc.2.1, hp _ _ _ (by omega) hc.2.2⟩

theorem getSipr_spec (hA : Lasting R n A) :
    DSpec R (Calm n Φ A) getSipr fun _ => Calm n Φ A :=
  (wizchipReadBuf_spec (J := fun _ => Calm n Φ A) (by decide) (by decide) (fun _ _ => hA.stable)
    fun _ _ _ _ hp => hp).post fun _ _ _ hp => hp.2

end Pages

section Calls

theorem socketRefused_spec (protocol flag : UInt8) (hA : Lasting R n A) :
    DSpec R (Calm n Φ A) (socketRefused protocol flag) fun r v c =>
      (∀ ret, r = some ret → ret < 0) ∧ Calm n Φ A v c := by
  refine .bind (Q := fun _ (u : Host Statics) c => Calm n Φ A u.vars c) ?_ fun x => ?_
  · exact Spec.ite (fun _ => (getSipr_spec hA).bind fun _ => .pure fun u c hp => hp)
      fun _ => .pure fun u c hp => hp
  have hsome : ∀ ret : Int, ret < 0 → DSpec R (Calm n Φ A) (pure (some ret)) fun r v c =>
      (∀ ret, r = some ret → ret < 0) ∧ Calm n Φ A v c :=
    fun ret hret => .pure fun u c hp => ⟨fun ret' h => by cases h; exact hret, hp⟩
  refine Spec.ite (fun _ => hsome _ (by decide)) fun _ => ?_
  refine Spec.ite (fun _ => hsome _ (by decide)) fun _ => ?_
  refine Spec.ite (fun _ => hsome _ (by decide)) fun _ => ?_
  refine Spec.ite (fun _ => hsome _ (by decide)) fun _ => ?_
  refine Spec.ite (fun _ => hsome _ (by decide)) fun _ => ?_
  refine Spec.ite (fun _ => hsome _ (by decide)) fun _ => ?_
  exact .pure fun u c hp => ⟨nofun, hp⟩

theorem choosePort_spec (port : UInt16) :
    DSpec R (Calm n (fun _ => True) A) (choosePort port) fun _ => Calm n (fun _ => True) A := by
  refine Spec.ite (fun _ => .pure fun u c hp => hp) fun _ => ?_
  refine (getVars_spec (Q := fun _ => Calm n (fun _ => True) A) fun v c hp => hp).bind fun v => ?_
  exact (modifyVars_spec fun _ _ => trivial).bind fun _ => .pure fun u c hp => hp

theorem lasting_mode (mr : UInt8) : Lasting R n fun k => k.page snMR.toNat = mr where
  move k e _ hk he := by rw [(k.same_move he).page, hk]
  control _ _ _ _ hk := hk

theorem setSnPort_opening {mr : UInt8} {port : UInt16} (hn : n < wizchipSockNum) :
    DSpec R (Calm n Φ fun k => k.Sized ∧ k.page snMR.toNat = mr) (setSnWord snPORT n port) fun _ =>
      Calm n Φ fun k => k.Sized ∧ k.page snMR.toNat = mr := by
  refine (setSnWord_page hn (by decide) (by decide) (lasting_sized.and (lasting_mode mr))
    fun k b hk => ?_).post
    fun _ u c hc => ⟨hc.1, hc.2.1, hc.2.2.1⟩
  have hpage : ∀ a : UInt16, a.toNat ≠ snMR.toNat → (k.setByte a b).page snMR.toNat = mr := by
    intro a ha
    rw [Sock.page_setByte, Function.update_of_ne ha.symm, hk.2]
  exact ⟨⟨hk.1.setByte (by decide) (by decide), hpage _ (by decide)⟩,
    ⟨hk.1.setByte (by decide) (by decide), hpage _ (by decide)⟩⟩

/-- `socket` opens a socket in any state, or refuses and leaves it as it was. What OPEN makes of
the socket is `B`. -/
theorem socket_spec {protocol flag : UInt8} {port : UInt16} {B : Sock → Prop}
    (hn : n < wizchipSockNum) (hA : Lasting R n A) (hs : ∀ k, A k → k.Sized) (hB : Lasting R n B)
    (hopen : ∀ (k : Sock) ptr, k.Sized → k.page snMR.toNat = (protocol ||| (flag &&& 0xF0)) →
      k.cr = snCrOpen → B (k.command ptr)) :
    DSpec R (Calm n (fun _ => True) A) (socket n protocol port flag) fun ret v c =>
      ret < 0 ∧ Calm n (fun _ => True) A v c ∨
        ret = n ∧ (c.socks n).sr ≠ sockClosed ∧
          Calm n (fun v => ∃ v₀ : Statics, v = v₀.opened n flag) B v c := by
  rw [socket, if_neg (by omega)]
  refine (socketRefused_spec protocol flag hA).bind fun r => ?_
  cases r with
  | some ret => exact .pure fun u c hp => Or.inl ⟨hp.1 ret rfl, hp.2⟩
  | none =>
    have hsz := lasting_sized (R := R) (n := n)
    have hset := hsz.and (lasting_mode (protocol ||| (flag &&& 0xF0)))
    refine ((close_spec (Φ := fun _ => True) (Ψ := fun _ => True) hn hsz fun _ _ => trivial).pre
      fun u c hp => ⟨hp.2.1, hp.2.2.1, hs _ hp.2.2.2⟩).bind fun _ => ?_
    refine (setSnByte_spec (Q := Calm n (fun _ => True) fun k => k.Sized ∧
      k.page snMR.toNat = (protocol ||| (flag &&& 0xF0))) hn hsz.stable fun v c hc => ?_).bind
        fun _ => (choosePort_spec port).bind fun port => ?_
    · rw [Calm, setSock_self, Sock.writeReg_page (by decide) (by decide)]
      refine ⟨trivial, hc.2.1, hc.2.2.setByte (by decide) (by decide), ?_⟩
      rw [Sock.page_setByte, Function.update_self]
    refine (setSnPort_opening hn).bind fun _ => ?_
    refine (command_spec hn (by decide) hset hB fun k ptr hk hcr =>
      hopen k ptr hk.1 hk.2 hcr).bind fun _ => ?_
    refine (modifyVars_spec (Ψ := fun v => ∃ v₀ : Statics, v = v₀.opened n flag)
      fun v _ => ⟨v, rfl⟩).bind fun _ => ?_
    exact (waitSr_spec hn hB).bind fun _ => .pure fun u c hp =>
      Or.inr ⟨rfl, of_decide_eq_true hp.1, hp.2⟩

/-- The return values of `connect` once the command is out. -/
def connected (ret : Int) : Bool :=
  ret = sockBusy ∨ ret = sockOk ∨ ret = sockerrTimeout ∨ ret = sockerrSockclosed

theorem connect_spec {addr : List UInt8} {port : UInt16} (hn : n < wizchipSockNum) :
    DSpec R (Calm n (fun _ => True) (·.Synced got gave)) (connect n addr port) fun ret =>
      Calm n (fun _ => True) (·.Synced got (if connected ret then [] else gave)) := by
  have hsync := lasting_synced (R := R) (n := n) got gave
  have hnew := lasting_synced (R := R) (n := n) got []
  have hpage := paged_synced got gave
  rw [connect, if_neg (by omega)]
  refine (badMode_spec snMrTcp hn hsync.stable).bind fun bad => ?_
  refine Spec.ite (fun _ => .pure fun u c hp => hp) fun _ => ?_
  refine (getSnByte_calm snSR hn hsync).bind fun sr => ?_
  refine Spec.ite (fun _ => .pure fun u c hp => hp) fun _ => ?_
  refine Spec.ite (fun _ => .pure fun u c hp => hp) fun _ => ?_
  refine Spec.ite (fun _ => .pure fun u c hp => hp) fun _ => ?_
  refine (setSnDipr_spec addr hn hsync hpage).bind fun _ => ?_
  refine (setSnPort_spec hn (by decide) (by decide) hsync hpage).bind fun _ => ?_
  refine (command_spec hn (by decide) hsync hnew fun k ptr hk hcr =>
    synced_connect hk hcr ptr).bind fun _ => ?_
  refine (getVars_spec (Q := fun _ => Calm n (fun _ => True) (·.Synced got []))
    fun v c hp => hp).bind fun v => ?_
  refine Spec.ite (fun _ => .pure fun u c hp => hp) fun _ => ?_
  refine Spec.poll (E := (· = Stop.blocked)) (I := fun (u : Host Statics) c =>
    Calm n (fun _ => True) (·.Synced got []) u.vars c) ?_ rfl
  refine (getSnByte_calm snSR hn hnew).bind fun sr => ?_
  refine Spec.ite (fun _ => .pure fun u c hp => hp) fun _ => ?_
  refine (getSnByte_calm snIR hn hnew).bind fun ir => ?_
  refine Spec.ite (fun _ => ?_) fun _ => ?_
  · exact (setSnIr_spec snIrTimeout hn hnew).bind fun _ => .pure fun u c hp => hp
  · refine (getSnByte_calm snSR hn hnew).bind fun sr => ?_
    exact Spec.ite (fun _ => .pure fun u c hp => hp) fun _ => .pure fun u c hp => hp

theorem disconnect_spec (hn : n < wizchipSockNum) :
    DSpec R (Calm n (fun _ => True) (·.Synced got gave)) (disconnect n) fun _ =>
      Calm n (fun _ => True) (·.Synced got gave) := by
  have hsync := lasting_synced (R := R) (n := n) got gave
  rw [disconnect, if_neg (by omega)]
  refine (badMode_spec snMrTcp hn hsync.stable).bind fun bad => ?_
  refine Spec.ite (fun _ => .pure fun u c hp => hp) fun _ => ?_
  refine (command_spec hn (by decide) hsync hsync fun k ptr hk hcr => ?_).bind fun _ => ?_
  · rw [Sock.command_discon hcr]
    exact hk
  refine (modifyVars_spec (Ψ := fun _ => True) fun _ _ => trivial).bind fun _ => ?_
  refine (getVars_spec (Q := fun _ => Calm n (fun _ => True) (·.Synced got gave))
    fun v c hp => hp).bind fun v => ?_
  refine Spec.ite (fun _ => .pure fun u c hp => hp) fun _ => ?_
  refine Spec.poll (E := (· = Stop.blocked)) (I := fun (u : Host Statics) c =>
    Calm n (fun _ => True) (·.Synced got gave) u.vars c) ?_ rfl
  refine (getSnByte_calm snSR hn hsync).bind fun sr => ?_
  refine Spec.ite (fun _ => .pure fun u c hp => hp) fun _ => ?_
  refine (getSnByte_calm snIR hn hsync).bind fun ir => ?_
  refine Spec.ite (fun _ => ?_) fun _ => .pure fun u c hp => hp
  exact (close_spec (Ψ := fun _ => True) hn hsync fun _ _ => trivial).bind
    fun _ => .pure fun u c hp => hp

end Calls

end NucleoW5500.Driver
