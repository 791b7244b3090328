import NucleoW5500.ChipReceive

/-! What `send` of the socket library does to the socket it is called for. The room that the
driver reads is never more than there is, so nothing is stored over bytes that the peer has not
acknowledged. -/

namespace NucleoW5500.Driver

open CString Chip Interleaved RingBuffer Spi

variable {R : Event → Prop} {n : Nat} {Φ : Statics → Prop} {got gave bs : List UInt8} {k : Sock}

section Memory

/-- `bs` lies in the transmit memory behind what SEND has taken over. -/
structure Filled (bs : List UInt8) (k : Sock) (got gave : List UInt8) : Prop extends
    k.Holds got gave where
  room : k.pending + bs.length ≤ k.txSize
  mem : window k.txMem k.txSize k.txEnd.toNat bs.length = bs

theorem txMem_move (k : Sock) {e : SockEvent} (he : k.cr = 0 ∨ ∀ ptr, e ≠ .accept ptr) :
    (k.move e).txMem = k.txMem ∧ (k.move e).txSize = k.txSize := by
  have hsame := k.same_move he
  refine ⟨?_, by rw [Sock.txSize, Sock.txSize, hsame.page]⟩
  cases e with
  | accept ptr => rw [k.move_accept he]
  | datagram bs =>
    rw [Sock.move]
    split_ifs <;> rfl
  | arrive | status | transmit | ack | interrupt => rfl

theorem Filled.move (hk : Filled bs k got gave) {e : SockEvent}
    (he : k.cr = 0 ∨ ∀ ptr, e ≠ .accept ptr) : Filled bs (k.move e) got gave := by
  obtain ⟨hmem, hsize⟩ := txMem_move k he
  have hp := Sock.pending_move hk.tx he
  have hroom := hk.room
  refine ⟨hk.toHolds.move he, ?_, ?_⟩
  · rw [hsize]
    omega
  · rw [hmem, hsize, (k.same_move he).txEnd, hk.mem]

theorem Filled.setByte (hk : Filled bs k got gave) {a : UInt16} {b : UInt8}
    (hrx : snRXBUFSIZE.toNat ≠ a.toNat) (htx : snTXBUFSIZE.toNat ≠ a.toNat) :
    Filled bs (k.setByte a b) got gave := by
  refine ⟨hk.toHolds.setByte hrx htx, ?_, ?_⟩
  · rw [Sock.txSize_setByte htx]
    exact hk.room
  · rw [Sock.txSize_setByte htx]
    exact hk.mem

/-- The next byte goes behind those that are stored, and past what is not acknowledged. -/
theorem Filled.store (hk : Filled bs k got gave) {b : UInt8}
    (hroom : k.pending + bs.length < k.txSize) :
    Filled (bs ++ [b]) { k with
      txMem := Function.update k.txMem ((k.txEnd + UInt16.ofNat bs.length).toNat % k.txSize) b }
      got gave := by
  have hpos : k.txEnd.toNat ≡ k.txAck.toNat + k.pending [MOD k.txSize] :=
    (add_sub_congr hk.sized.txDvd k.txEnd k.txAck).symm
  have hcell : (k.txEnd + UInt16.ofNat bs.length).toNat % k.txSize =
      (k.txEnd.toNat + bs.length) % k.txSize := add_congr hk.sized.txDvd _ _
  have hcell' : (k.txEnd.toNat + bs.length) % k.txSize =
      (k.txAck.toNat + k.pending + bs.length) % k.txSize := hpos.add_right bs.length
  have hkeep : window (Function.update k.txMem _ b) k.txSize k.txAck.toNat k.pending = _ :=
    window_update b (Nat.le_add_right _ bs.length) (by omega)
  have hone : bs.length + [b].length ≤ k.txSize := by
    rw [List.length_singleton]
    omega
  have hnew : window (put k.txMem k.txSize (k.txEnd.toNat + bs.length) [b]) _ _ _ = _ :=
    window_put_append hone
  rw [hk.mem, put, put] at hnew
  refine ⟨⟨⟨hk.sized.rxDvd, hk.sized.txDvd, hk.sized.rxLe, hk.sized.txLe⟩,
    ⟨hk.rx.fits, hk.rx.count, hk.rx.content⟩,
    ⟨hk.tx.fits, hk.tx.count, hk.tx.order, ?_, hk.tx.wire⟩, hk.taken, hk.given⟩, ?_, ?_⟩
  · rw [hcell, hcell']
    exact hkeep.trans hk.tx.content
  · rw [List.length_append, List.length_singleton]
    exact hroom
  · rw [List.length_append, hcell]
    exact hnew

theorem txbufBlock_lt {n : Nat} (hn : n < wizchipSockNum) : txbufBlock n < 32 := by
  rw [wizchipSockNum] at hn
  rw [txbufBlock]
  omega

theorem write_txbufBlock (c : W5500) (n : Nat) (a : UInt16) (b : UInt8) :
    c.write (txbufBlock n) a b = c.setSock n { c.socks n with
      txMem := Function.update (c.socks n).txMem (a.toNat % (c.socks n).txSize) b } := by
  have hd : txbufBlock n / 4 = n := by rw [txbufBlock]; omega
  have hm : txbufBlock n % 4 = 2 := by rw [txbufBlock]; omega
  rw [W5500.write, hd, if_neg (by omega), if_pos hm]

end Memory

section Give

/-- `bs` is stored behind `Sn_TX_WR` of the last SEND, which is `ptr`. -/
theorem lasting_storing (got gave bs : List UInt8) (len : Nat) (ptr : UInt16) :
    Lasting R n fun k => k.Synced got gave ∧ Filled bs k got gave ∧ k.pending + len ≤ k.txSize ∧
      k.txEnd = ptr where
  move k e _ hk he := by
    obtain ⟨hk, hfill, hroom, hp⟩ := hk
    have hpend := Sock.pending_move hk.tx he
    refine ⟨hk.move he, hfill.move he, ?_, (k.same_move he).txEnd.trans hp⟩
    rw [(txMem_move k he).2]
    omega
  control _ cr ir sr hk := ⟨hk.1.control cr ir sr,
    ⟨hk.2.1.toHolds.control cr ir sr, hk.2.1.room, hk.2.1.mem⟩, hk.2.2⟩

theorem lasting_filled (got gave bs : List UInt8) (ptr : UInt16) :
    Lasting R n fun k => Filled bs k got gave ∧ k.word snRXRD = k.rxDone ∧ k.txEnd = ptr where
  move k e _ hk he := by
    have hsame := k.same_move he
    refine ⟨hk.1.move he, ?_, hsame.txEnd.trans hk.2.2⟩
    rw [hsame.word, hsame.rxDone, hk.2.1]
  control _ cr ir sr hk := ⟨⟨hk.1.toHolds.control cr ir sr, hk.1.room, hk.1.mem⟩, hk.2⟩

/-- `bs` is stored and `Sn_TX_WR` moved on behind it, and SEND is still to come. -/
structure Offered (bs : List UInt8) (k : Sock) (got gave : List UInt8) : Prop extends
    Filled bs k got gave where
  rd : k.word snRXRD = k.rxDone
  wr : k.word snTXWR = k.txEnd + UInt16.ofNat bs.length

theorem lasting_offered (bs got gave : List UInt8) : Lasting R n (Offered bs · got gave) where
  move k e _ hk he := by
    have hsame := k.same_move he
    refine ⟨hk.toFilled.move he, ?_, ?_⟩
    · rw [hsame.word, hsame.rxDone, hk.rd]
    · rw [hsame.word, hsame.txEnd, hk.wr]
  control _ cr ir sr hk :=
    ⟨⟨hk.toHolds.control cr ir sr, hk.room, hk.mem⟩, hk.rd, hk.wr⟩

theorem Offered.command (hk : Offered bs k got gave) (hcr : k.cr = snCrSend) (ptr : UInt16) :
    (k.command ptr).Synced got (gave ++ bs) := by
  have hlt : bs.length < 65536 := by
    have hroom := hk.room
    have htx := hk.sized.tx_lt
    omega
  have hsub : (k.txEnd + UInt16.ofNat bs.length - k.txEnd).toNat = bs.length := by
    have hz := toNat_sub_add (p := k.txEnd) (q := k.txEnd) (n := bs.length)
      (by rw [UInt16.sub_self]; exact (Nat.zero_add _).trans_lt hlt)
    rw [hz, UInt16.sub_self]
    exact Nat.zero_add _
  have hcmd : k.command ptr = k.hand bs := by
    rw [Sock.command_send hcr, Sock.sendCommand, hk.wr, hsub, hk.mem]
    rfl
  rw [hcmd]
  exact ⟨⟨⟨hk.sized.rxDvd, hk.sized.txDvd, hk.sized.rxLe, hk.sized.txLe⟩,
    ⟨hk.rx.fits, hk.rx.count, hk.rx.content⟩, hk.tx.hand hk.sized hk.room hk.mem, hk.taken,
    congrArg (· ++ bs) hk.given⟩, hk.rd, hk.wr⟩

theorem room_of_fsr {len : UInt16} (hs : k.Sized) (ht : k.TxHolds) (h : len ≤ k.fsr) :
    k.pending + len.toNat ≤ k.txSize := by
  have hfit := ht.fits
  have hle := UInt16.le_iff_toNat_le.mp h
  rw [Sock.fsr_toNat hs hfit] at hle
  omega

theorem wizSendData_spec {buf : List UInt8} {len : UInt16} (hn : n < wizchipSockNum) :
    DSpec R (Calm n Φ fun k => k.Synced got gave ∧ len ≤ k.fsr) (wizSendData n buf len)
      fun _ => Calm n Φ (Offered (read buf 0 len.toNat) · got gave) := by
  rw [wizSendData]
  refine Spec.ite (fun h0 => .pure ?_) fun h0 => ?_
  · rintro u c ⟨hv, hc, hk, -⟩
    subst h0
    exact ⟨hv, hc, ⟨hk.toHolds, hk.tx.fits, rfl⟩, hk.rd, by simp [hk.wr]⟩
  have hlen := length_read buf 0 len.toNat
  -- nothing is stored yet
  refine (Spec.exists fun ptr => ?_).pre (P := fun u c => ∃ ptr, Calm n Φ (fun k =>
    k.Synced got gave ∧ Filled [] k got gave ∧ k.pending + len.toNat ≤ k.txSize ∧ k.txEnd = ptr)
      u.vars c) fun u c hp => ?_
  rotate_left
  · obtain ⟨hv, hc, hk, hl⟩ := hp
    exact ⟨_, hv, hc, hk, ⟨hk.toHolds, hk.tx.fits, rfl⟩, room_of_fsr hk.sized hk.tx hl, rfl⟩
  refine .fact (p := len.toNat + 3 ≤ maxWizBuf) (fun u c hp => ?_) fun hmax => ?_
  · obtain ⟨-, -, hk, -, hroom, -⟩ := hp
    have hle := hk.sized.txLe
    omega
  refine (getSnWord_page hn (Or.inl rfl) (lasting_storing got gave [] len.toNat ptr) fun k hk =>
    hk.1.wr.trans hk.2.2.2).bind fun x => .fact (fun u c hp => hp.1) fun hx => ?_
  subst hx
  refine ((wizchipWriteBuf_spec (J := fun i => Calm n Φ fun k => k.Synced got gave ∧
    Filled ((read buf 0 len.toNat).take i) k got gave ∧ k.pending + len.toNat ≤ k.txSize ∧
      k.txEnd = x) (txbufBlock_lt hn) hmax (fun i _ => (lasting_storing _ _ _ _ x).stable) ?_).pre
        fun u c hp => hp.2).bind fun _ => ?_
  · rintro i b hb v c ⟨hv, hc, hk, hfill, hroom, hx⟩
    obtain ⟨hi, -⟩ := List.getElem?_eq_some_iff.mp hb
    rw [hlen] at hi
    have htake : ((read buf 0 len.toNat).take i).length = i := by
      rw [List.length_take, hlen]
      omega
    have hnext := hfill.store (b := b) (by omega)
    rw [htake] at hnext
    rw [Calm, write_txbufBlock, setSock_self, List.take_add_one, hb, ← hx]
    exact ⟨hv, hc, ⟨hnext.toHolds, hk.rd, hk.wr⟩, hnext, hroom, rfl⟩
  refine ((setSnWord_page hn (by decide) (by decide)
    (lasting_filled got gave (read buf 0 len.toNat) x) ?_ :
      DSpec R (Calm n Φ _) _ _).pre ?_).post ?_
  · rintro k b ⟨hfill, hrd, hx⟩
    have hkeep : ∀ a, snTXWR.toNat ≤ a.toNat → a.toNat ≤ snTXWR.toNat + 1 →
        Filled (read buf 0 len.toNat) (k.setByte a b) got gave ∧
          (k.setByte a b).word snRXRD = k.rxDone ∧ k.txEnd = x := by
      intro a h₁ h₂
      have hwr : snTXWR.toNat = 36 := rfl
      have hne : ∀ r : UInt16, r.toNat < 36 → r.toNat ≠ a.toNat := fun r hr => by omega
      rw [Sock.word_setByte (by rw [show snRXRD.toNat = 40 from rfl]; omega)
        (by rw [show snRXRD.toNat = 40 from rfl]; omega)]
      exact ⟨hfill.setByte (hne _ (by decide)) (hne _ (by decide)), hrd, hx⟩
    exact ⟨hkeep _ (by decide) (by decide), hkeep _ (by decide) (by decide)⟩
  · rintro u c ⟨hv, hc, hk, hfill, -, hx⟩
    rw [List.take_of_length_le hlen.le] at hfill
    exact ⟨hv, hc, hfill, hk.rd, hx⟩
  · rintro - u c ⟨hv, hc, ⟨hfill, hrd, rfl⟩, hwr⟩
    refine ⟨hv, hc, hfill, hrd, ?_⟩
    rw [hwr, hlen, UInt16.ofNat_toNat]

theorem giveData_spec {buf : List UInt8} {len : UInt16} (hn : n < wizchipSockNum) :
    DSpec R (Calm n Φ fun k => k.Synced got gave ∧ len ≤ k.fsr) (giveData n buf len)
      fun _ => Calm n Φ (·.Synced got (gave ++ read buf 0 len.toNat)) :=
  (wizSendData_spec hn).bind fun _ => command_spec hn (by decide) (lasting_offered _ got gave)
    (lasting_synced _ _) fun _ ptr hk hcr => hk.command hcr ptr

end Give

section Sending

theorem sendPrevious_spec (hn : n < wizchipSockNum) :
    DSpec R (Calm n (fun _ => True) (·.Synced got gave)) (sendPrevious n) fun r v c =>
      (∀ ret, r = some ret → ret ≤ 0) ∧ Calm n (fun _ => True) (·.Synced got gave) v c := by
  have hsync := lasting_synced (R := R) (n := n) got gave
  refine (getVars_spec (Q := fun _ => Calm n (fun _ => True) (·.Synced got gave))
    fun v c hp => hp).bind fun v => ?_
  refine Spec.ite (fun _ => .pure fun u c hp => ⟨nofun, hp⟩) fun _ => ?_
  refine (getSnByte_calm snIR hn hsync).bind fun tmp => ?_
  refine Spec.ite (fun _ => ?_) fun _ => Spec.ite (fun _ => ?_) fun _ => ?_
  · refine (setSnIr_spec snIrSendok hn hsync).bind fun _ => ?_
    exact (modifyVars_spec fun _ _ => trivial).bind fun _ => .pure fun u c hp => ⟨nofun, hp⟩
  · exact (close_spec hn hsync fun _ _ => trivial).bind fun _ => .pure fun u c hp =>
      ⟨fun ret hret => by cases hret; decide, hp⟩
  · exact .pure fun u c hp => ⟨fun ret hret => by cases hret; decide, hp⟩

theorem lasting_fsr (got gave : List UInt8) (x : UInt16) :
    Lasting R n fun k => k.Synced got gave ∧ x ≤ k.fsr where
  move _ _ _ hk he := ⟨hk.1.move he, UInt16.le_trans hk.2 (Sock.fsr_move hk.1.sized hk.1.tx he)⟩
  control _ cr ir sr hk := ⟨hk.1.control cr ir sr, hk.2⟩

theorem sendWait_spec {len : UInt16} (hn : n < wizchipSockNum) :
    DSpec R (Calm n (fun _ => True) (·.Synced got gave)) (sendWait n len) fun r v c =>
      (∀ ret, r = some ret → ret ≤ 0) ∧ Calm n (fun _ => True)
        (fun k => k.Synced got gave ∧ (r = none → len ≤ k.fsr)) v c := by
  refine Spec.poll (E := (· = Stop.blocked)) (I := fun (u : Host Statics) c =>
    Calm n (fun _ => True) (·.Synced got gave) u.vars c) ?_ rfl
  refine (((counts_fsr (H := fun _ => True) (lasting_synced got gave).stable
    (Calm.tx fun _ hk => hk) fun _ _ _ => trivial).getSnSize hn (by decide) 0).pre fun u c hp =>
      ⟨UInt16.zero_le, hp⟩).bind fun freesize => ?_
  have hfree := lasting_fsr (R := R) (n := n) got gave freesize
  refine ((getSnByte_calm snSR hn hfree : DSpec R (Calm n (fun _ => True) _) _ _).pre
    fun u c hp => ⟨trivial, hp.2.2.2.1, hp.2.2.2.2, hp.2.1⟩).bind fun tmp => ?_
  refine Spec.ite (fun _ => ?_) fun _ => ?_
  · refine (close_spec (Ψ := fun _ => True) hn hfree fun _ _ => trivial).bind
      fun _ => .pure fun u c hp => ?_
    exact ⟨fun ret hret => by cases hret; decide, hp.1, hp.2.1, hp.2.2.1, nofun⟩
  refine (getVars_spec (Q := fun _ => Calm n (fun _ => True) fun k => k.Synced got gave ∧
    freesize ≤ k.fsr) fun v c hp => hp).bind fun v => ?_
  refine Spec.ite (fun _ => .pure fun u c hp => ?_) fun _ => Spec.ite
    (fun hle => .pure fun u c hp => ?_) fun _ => .pure fun u c hp => ⟨hp.1, hp.2.1, hp.2.2.1⟩
  · exact ⟨fun ret hret => by cases hret; decide, hp.1, hp.2.1, hp.2.2.1, nofun⟩
  · exact ⟨nofun, hp.1, hp.2.1, hp.2.2.1, fun _ => UInt16.le_trans hle hp.2.2.2⟩

/-- What `send` does to a socket. A return value above 0 is the number of bytes taken over. -/
def Sent (n : Nat) (got gave buf : List UInt8) (ret : Int) : Statics → W5500 → Prop :=
  Calm n (fun _ => True) (·.Synced got (gave ++ read buf 0 ret.toNat))

theorem send_spec {buf : List UInt8} {len : UInt16} (hn : n < wizchipSockNum) :
    DSpec R (Calm n (fun _ => True) (·.Synced got gave)) (send n buf len) fun ret v c =>
      ret ≤ len.toNat ∧ Sent n got gave buf ret v c := by
  have hsync := lasting_synced (R := R) (n := n) got gave
  have hneg : ∀ (ret : Int) v c, ret ≤ 0 → Calm n (fun _ => True) (·.Synced got gave) v c →
      ret ≤ len.toNat ∧ Sent n got gave buf ret v c := by
    intro ret v c hret hk
    refine ⟨hret.trans (Int.natCast_nonneg _), ?_⟩
    rw [Sent, Int.toNat_of_nonpos hret]
    show Calm n (fun _ => True) (·.Synced got (gave ++ [])) v c
    rw [List.append_nil]
    exact hk
  rw [send, if_neg (by omega)]
  refine (badMode_spec snMrTcp hn hsync.stable).bind fun bad => ?_
  refine Spec.ite (fun _ => .pure fun u c hp => hneg _ _ _ (by decide) hp) fun _ => ?_
  refine Spec.ite (fun _ => .pure fun u c hp => hneg _ _ _ (by decide) hp) fun _ => ?_
  refine (getSnByte_calm snSR hn hsync).bind fun tmp => ?_
  refine Spec.ite (fun _ => .pure fun u c hp => hneg _ _ _ (by decide) hp) fun _ => ?_
  refine (sendPrevious_spec hn).bind fun r => ?_
  cases r with
  | some ret => exact .pure fun u c hp => hneg _ _ _ (hp.1 ret rfl) hp.2
  | none =>
    refine ((getSnTxMax_spec hn hsync.stable : DSpec R (Calm n (fun _ => True) _) _ _).pre
      fun u c hp => hp.2).bind fun max => ?_
    obtain ⟨l, hl⟩ : ∃ l, (if len > max then max else len) = l := ⟨_, rfl⟩
    have hle : l ≤ len := by
      rw [← hl]
      split_ifs with hlt
      · exact UInt16.le_of_lt hlt
      · exact UInt16.le_refl _
    dsimp only
    rw [hl]
    refine (sendWait_spec hn).bind fun r => ?_
    cases r with
    | some ret =>
      refine .pure fun u c hp => hneg _ _ _ (hp.1 ret rfl) ?_
      exact ⟨hp.2.1, hp.2.2.1, hp.2.2.2.1⟩
    | none =>
      refine ((giveData_spec hn : DSpec R (Calm n (fun _ => True) _) _ _).pre fun u c hp =>
        ⟨hp.2.1, hp.2.2.1, hp.2.2.2.1, hp.2.2.2.2 rfl⟩).bind fun _ => ?_
      refine (modifyVars_spec (Ψ := fun _ => True) fun _ _ => trivial).bind
        fun _ => .pure fun u c hp => ?_
      exact ⟨Int.ofNat_le.mpr (UInt16.le_iff_toNat_le.mp hle), hp⟩

end Sending

end NucleoW5500.Driver
