import NucleoW5500.SockOpen

/-! A call of the socket library leaves every other socket alone, on the chip and in the statics,
whatever the chip does meanwhile. -/

namespace NucleoW5500.Driver

open CString Chip Interleaved Spi

variable {α β : Type}

/-- The statics say the same of socket `m`. -/
structure Statics.Agree (m : Nat) (v v' : Statics) : Prop where
  nonblock : v'.nonblock m = v.nonblock m
  isSending : v'.isSending m = v.isSending m
  remained : v'.sockRemainedSize m = v.sockRemainedSize m
  packInfo : v'.sockPackInfo m = v.sockPackInfo m

def Statics.Apart (n : Nat) (v v' : Statics) : Prop := ∀ m < wizchipSockNum, m ≠ n → v.Agree m v'

/-- What `P` says is not about socket `n`, and the moves in `R` keep it. -/
structure Apart (R : Event → Prop) (n : Nat) (P : Statics → W5500 → Prop) : Prop where
  stable : Stable W5500.move R P
  sock : ∀ v c k, P v c → P v (c.setSock n k)
  vars : ∀ v v' c, v.Apart n v' → P v c → P v' c

/-- `P` still holds if `x` returns. -/
def Keeps (R : Event → Prop) (P : Statics → W5500 → Prop) (x : SM α) : Prop :=
  Spec R (fun h c => P h.vars c) x (fun _ h c => P h.vars c) fun _ => True

variable {R : Event → Prop} {n : Nat} {P : Statics → W5500 → Prop} {x : SM α}

section Rules

/-- A specification also bounds the errors. -/
theorem keeps_of_spec (hx : DSpec R P x fun _ => P) : Keeps R P x :=
  Spec.stops hx fun _ _ => trivial

theorem Keeps.pure (a : α) : Keeps R P (pure a) := Spec.pure fun _ _ hp => hp

theorem Keeps.bind {f : α → SM β} (hx : Keeps R P x) (hf : ∀ a, Keeps R P (f a)) :
    Keeps R P (x >>= f) :=
  Spec.bind hx hf

theorem Keeps.map {f : α → β} (hx : Keeps R P x) : Keeps R P (do return f (← x)) :=
  hx.bind fun _ => .pure _

theorem Keeps.ite {c : Prop} [Decidable c] {y : SM α} (hx : Keeps R P x) (hy : Keeps R P y) :
    Keeps R P (if c then x else y) :=
  Spec.ite (fun _ => hx) fun _ => hy

theorem Keeps.poll {x : SM (Option α)} (hx : Keeps R P x) : Keeps R P (poll .blocked x) := by
  refine Spec.poll (I := fun (u : Host Statics) c => P u.vars c) (Spec.post hx fun r u c hp => ?_)
    trivial
  cases r <;> exact hp

theorem Keeps.getVars : Keeps R P getVars :=
  (Spec.getHost (Q := fun _ (u : Host Statics) c => P u.vars c) fun _ _ hp => hp).bind fun u =>
    Keeps.pure u.vars

theorem Keeps.modifyVars {f : Statics → Statics} (h : ∀ v c, P v c → P (f v) c) :
    Keeps R P (modifyVars f) := by
  refine Spec.bind (Q := fun v (u : Host Statics) c => v = u.vars ∧ P u.vars c) ?_ fun v => ?_
  · exact (Spec.getHost (Q := fun (u u' : Host Statics) c => u.vars = u'.vars ∧ P u'.vars c)
      fun u c hp => ⟨rfl, hp⟩).bind fun u => .pure fun _ _ hq => hq
  · refine (Spec.getHost (Q := fun (u u' : Host Statics) c => v = u.vars ∧ P u.vars c)
      fun u c hp => hp).bind fun u => .setHost ?_
    rintro u' c ⟨rfl, hp⟩
    exact h _ c hp

end Rules

section Frames

variable {hdr bs mosi : List UInt8} {len a : UInt16} {block : Nat} {write : Bool}

theorem keeps_frameData (hP : Stable W5500.move R P)
    (hw : write = true → ∀ a b v c, P v c → P v (c.write block a b)) (a : UInt16)
    (mosi : List UInt8) : Keeps R P (frameData block write a mosi) := by
  induction mosi generalizing a with
  | nil => exact .pure _
  | cons b mosi ih =>
    rw [frameData]
    refine Keeps.bind (Spec.access (stable_vars hP) trivial fun u c hp => ?_) fun m =>
      (ih _).bind fun ms => .pure _
    cases write with
    | false => exact hp
    | true => exact hw rfl a b u.vars c hp

/-- The frame that starts with `hdr` writes nothing that `P` is about. -/
structure Harmless (P : Statics → W5500 → Prop) (hdr : List UInt8) : Prop where
  length : hdr.length = 3
  write : ∀ hi lo control, hdr = [hi, lo, control] → control &&& 0x04 ≠ 0 →
    ∀ a b v c, P v c → P v (c.write (control.toNat / 8) a b)

theorem keeps_frame (hP : Stable W5500.move R P) (hh : Harmless P hdr) (bs : List UInt8)
    (len : Nat) : Keeps R P (frame (read (hdr ++ bs) 0 len)) := by
  obtain ⟨hi, lo, control, rfl⟩ := List.length_eq_three.mp hh.length
  rcases len with _ | _ | _ | len
  · exact .pure _
  · exact .pure _
  · exact .pure _
  · rw [read_succ, read_succ, read_succ]
    exact (keeps_frameData hP (fun hw => hh.write hi lo control rfl (of_decide_eq_true hw)) _ _).map

theorem Harmless.fixed (hh : Harmless P hdr) (v₀ : Statics) :
    Harmless (fun v c => v = v₀ ∧ P v c) hdr where
  length := hh.length
  write hi lo control he hw a b v c hp := ⟨hp.1, hh.write hi lo control he hw a b v c hp.2⟩

theorem stable_fixed (hP : Stable W5500.move R P) (v₀ : Statics) :
    Stable W5500.move R fun v c => v = v₀ ∧ P v c :=
  fun e he v c hp => ⟨hp.1, hP e he v c hp.2⟩

theorem keeps_hal {tx : DmaBuf} (hP : Stable W5500.move R P) (hh : Harmless P hdr)
    (htx : ∃ rest, tx.bytes = hdr ++ rest) : Keeps R P (halSpiTransmitReceiveDma tx len) := by
  obtain ⟨rest, hr⟩ := htx
  rw [halSpiTransmitReceiveDma, hr]
  exact .ite (keeps_frame hP hh rest _) fun _ _ _ => trivial

theorem put_keeps {d : DmaBuf} {P : Host Statics → W5500 → Prop} :
    Spec R P (d.put bs) (fun d' u c => (∃ rest, d'.bytes = bs ++ rest) ∧ P u c)
      fun _ => True := by
  rw [DmaBuf.put]
  split_ifs with h
  · exact .pure fun u c hp => ⟨⟨_, overwrite_zero _ _⟩, hp⟩
  · exact fun _ _ _ => trivial

theorem startFrame_keeps :
    Spec R (fun u c => P u.vars c) (startFrame bs)
      (fun _ u c => (∃ rest, u.dmaBuf.bytes = bs ++ rest) ∧ P u.vars c) fun _ => True := by
  refine (Spec.getHost (Q := fun (h u : Host Statics) c => h.vars = u.vars ∧ P u.vars c)
    fun u c hp => ⟨rfl, hp⟩).bind fun h => ?_
  refine put_keeps.bind fun d => .setHost ?_
  rintro u c ⟨hd, hv, hp⟩
  exact ⟨hd, hv ▸ hp⟩

theorem w5500ReadBuff_keeps (hP : Stable W5500.move R P) (hh : Harmless P hdr) :
    Spec R (fun u c => (∃ rest, u.dmaBuf.bytes = hdr ++ rest) ∧ P u.vars c) (w5500ReadBuff len)
      (fun _ u c => P u.vars c) fun _ => True := by
  refine (Spec.getHost (Q := fun (h u : Host Statics) c => u.vars = h.vars ∧
    (∃ rest, h.dmaBuf.bytes = hdr ++ rest) ∧ P u.vars c) fun u c hp => ⟨rfl, hp⟩).bind fun h => ?_
  refine .fact (fun u c hp => hp.2.1) fun ⟨rest, hr⟩ => ?_
  have hread : read h.dmaBuf.bytes 0 3 = hdr := by rw [hr, ← hh.length, read_append_left]
  rw [hread]
  refine put_keeps.bind fun dummy => .fact (fun u c hp => hp.1) fun hd => ?_
  refine (Spec.pre (keeps_hal (stable_fixed hP h.vars) (hh.fixed h.vars) hd) fun u c hp =>
    ⟨hp.2.1, hp.2.2.2⟩).bind fun miso => ?_
  refine put_keeps.bind fun dma => .setHost ?_
  rintro u c ⟨-, hv, hp⟩
  exact hv ▸ hp

theorem w5500WriteBuff_keeps (hP : Stable W5500.move R P) (hh : Harmless P hdr) :
    Spec R (fun u c => (∃ rest, u.dmaBuf.bytes = hdr ++ rest) ∧ P u.vars c) (w5500WriteBuff len)
      (fun _ u c => P u.vars c) fun _ => True := by
  refine (Spec.getHost (Q := fun (h u : Host Statics) c => u.vars = h.vars ∧
    (∃ rest, h.dmaBuf.bytes = hdr ++ rest) ∧ P u.vars c) fun u c hp => ⟨rfl, hp⟩).bind fun h => ?_
  refine .fact (fun u c hp => hp.2.1) fun hd => ?_
  refine (Spec.pre (keeps_hal (stable_fixed hP h.vars) (hh.fixed h.vars) hd) fun u c hp =>
    ⟨hp.1, hp.2.2⟩).bind fun miso => ?_
  refine put_keeps.bind fun dummy => .setHost ?_
  rintro u c ⟨-, hv, hp⟩
  exact hv ▸ hp

end Frames

section Registers

variable {a len : UInt16} {block : Nat}

theorem harmless_read (a : UInt16) (hb : block < 32) :
    Harmless P (addrBytes (addrSel a block ||| (w5500SpiRead ||| w5500SpiVdmOp))) := by
  have hop : (w5500SpiRead ||| w5500SpiVdmOp).toNat = 0 := rfl
  rw [addrBytes_addrSel a hb (by rw [hop]; omega), hop]
  refine ⟨rfl, fun hi lo control he hw => ?_⟩
  simp only [List.cons.injEq, and_true] at he
  rw [← he.2.2] at hw
  exact absurd hw (read_control block hb).2

theorem harmless_write (a : UInt16) (hb : block < 32)
    (hw : ∀ a b v c, P v c → P v (c.write block a b)) :
    Harmless P (addrBytes (addrSel a block ||| (w5500SpiWrite ||| w5500SpiVdmOp))) := by
  have hop : (w5500SpiWrite ||| w5500SpiVdmOp).toNat = 4 := rfl
  rw [addrBytes_addrSel a hb (by rw [hop]; omega), hop]
  refine ⟨rfl, fun hi lo control he _ => ?_⟩
  simp only [List.cons.injEq, and_true] at he
  rw [← he.2.2, (write_control block hb).1]
  exact hw

theorem wizchipRead_keeps (a : UInt16) (hb : block < 32) (hP : Stable W5500.move R P) :
    Keeps R P (wizchipRead (addrSel a block)) := by
  refine startFrame_keeps.bind fun _ =>
    (w5500ReadBuff_keeps hP (harmless_read a hb)).bind fun _ => ?_
  exact (Spec.getHost (Q := fun _ (u : Host Statics) c => P u.vars c) fun _ _ hp => hp).bind
    fun u => Keeps.pure (peek u.dmaBuf.bytes 3)

theorem wizchipReadBuf_keeps (a len : UInt16) (hb : block < 32) (hP : Stable W5500.move R P) :
    Keeps R P (wizchipReadBuf (addrSel a block) len) := by
  refine startFrame_keeps.bind fun _ =>
    (w5500ReadBuff_keeps hP (harmless_read a hb)).bind fun _ => ?_
  exact (Spec.getHost (Q := fun _ (u : Host Statics) c => P u.vars c) fun _ _ hp => hp).bind
    fun u => Keeps.pure (read u.dmaBuf.bytes 3 len.toNat)

theorem framed_append {hdr bs : List UInt8} {d : DmaBuf} (h : ∃ rest, d.bytes = hdr ++ bs ++ rest) :
    ∃ rest, d.bytes = hdr ++ rest := by
  obtain ⟨rest, hr⟩ := h
  exact ⟨bs ++ rest, by rw [hr, List.append_assoc]⟩

theorem wizchipWrite_keeps (a : UInt16) (b : UInt8) (hb : block < 32) (hP : Stable W5500.move R P)
    (hw : ∀ a b v c, P v c → P v (c.write block a b)) :
    Keeps R P (wizchipWrite (addrSel a block) b) :=
  startFrame_keeps.bind fun _ => (w5500WriteBuff_keeps hP (harmless_write a hb hw)).pre
    fun _ _ hp => ⟨framed_append hp.1, hp.2⟩

theorem wizchipWriteBuf_keeps (a : UInt16) (buf : List UInt8) (len : UInt16) (hb : block < 32)
    (hP : Stable W5500.move R P) (hw : ∀ a b v c, P v c → P v (c.write block a b)) :
    Keeps R P (wizchipWriteBuf (addrSel a block) buf len) :=
  startFrame_keeps.bind fun _ => (w5500WriteBuff_keeps hP (harmless_write a hb hw)).pre
    fun _ _ hp => ⟨framed_append hp.1, hp.2⟩

theorem Apart.write_block (hP : Apart R n P) (h : block / 4 = n) (h0 : block % 4 ≠ 0) (a : UInt16)
    (b : UInt8) (v : Statics) (c : W5500) (hp : P v c) : P v (c.write block a b) := by
  rw [W5500.write, h]
  split_ifs with h1 h2 h3
  · exact hP.sock v c _ hp
  · exact hP.sock v c _ hp
  · exact hP.sock v c _ hp
  · omega

variable (hn : n < wizchipSockNum) (hP : Apart R n P)

include hn hP

theorem getSnByte_keeps (a : UInt16) : Keeps R P (getSnByte a n) :=
  wizchipRead_keeps a (snReg_lt hn) hP.stable

theorem setSnByte_keeps (a : UInt16) (b : UInt8) : Keeps R P (setSnByte a n b) :=
  wizchipWrite_keeps a b (snReg_lt hn) hP.stable
    (hP.write_block (by rw [sregBlock]; omega) (by rw [sregBlock]; omega))

theorem getSnWord_keeps {a : UInt16} (ha : a.toNat < 65535) : Keeps R P (getSnWord a n) := by
  rw [getSnWord, offsetInc_snReg hn ha]
  exact (getSnByte_keeps hn hP a).bind fun _ => (getSnByte_keeps hn hP _).map

theorem setSnWord_keeps {a : UInt16} (x : UInt16) (ha : a.toNat < 65535) :
    Keeps R P (setSnWord a n x) := by
  rw [setSnWord, offsetInc_snReg hn ha]
  exact (setSnByte_keeps hn hP a _).bind fun _ => setSnByte_keeps hn hP _ _

theorem getSnSize_keeps {a : UInt16} (ha : a.toNat < 65535) : Keeps R P (getSnSize a n) := by
  refine Spec.loop (I := fun _ (u : Host Statics) c => P u.vars c) (fun val => ?_) trivial 0
  refine Spec.bind (getSnWord_keeps hn hP ha) fun val1 => ?_
  refine Spec.ite (fun _ => Spec.bind (getSnWord_keeps hn hP ha) fun val => ?_)
    fun _ => Spec.bind (Keeps.pure val) fun val => ?_
  all_goals
    refine .pure fun u c hp => ?_
    split_ifs <;> exact hp

omit hn hP

end Registers

section Calls

/-- Taking the bit of socket `n` out of a mask, or putting it in, says nothing of socket `m`. -/
theorem snBit_apart {n m : Nat} (hn : n < wizchipSockNum) (hm : m < wizchipSockNum) (h : m ≠ n) :
    ~~~snBit n &&& snBit m = snBit m ∧ snBit n &&& snBit m = 0 := by
  rw [wizchipSockNum] at hn hm
  have hall : ∀ n < 8, ∀ m < 8, m ≠ n → ~~~snBit n &&& snBit m = snBit m ∧
      snBit n &&& snBit m = 0 := by decide
  exact hall n hn m hm h

theorem snBit_self {n : Nat} (hn : n < wizchipSockNum) :
    ~~~snBit n &&& snBit n = 0 ∧ snBit n ≠ 0 := by
  rw [wizchipSockNum] at hn
  have hall : ∀ n < 8, ~~~snBit n &&& snBit n = 0 ∧ snBit n ≠ 0 := by decide
  exact hall n hn

theorem clear_and {n m : Nat} (x : UInt16) (hn : n < wizchipSockNum) (hm : m < wizchipSockNum)
    (h : m ≠ n) : x &&& ~~~snBit n &&& snBit m = x &&& snBit m := by
  rw [UInt16.and_assoc, (snBit_apart hn hm h).1]

theorem or_and (x y b : UInt16) : (x ||| y) &&& b = x &&& b ||| y &&& b :=
  UInt16.toBitVec_inj.mp BitVec.and_or_distrib_right

theorem set_and {n m : Nat} (x : UInt16) (hn : n < wizchipSockNum) (hm : m < wizchipSockNum)
    (h : m ≠ n) : (x ||| snBit n) &&& snBit m = x &&& snBit m := by
  rw [or_and, (snBit_apart hn hm h).2, UInt16.or_zero]

/-- `(flag & SF_IO_NONBLOCK) << sn` -/
theorem ioFlag_shift (flag : UInt8) (n : Nat) :
    flag &&& 0x01 = 0 ∧ (flag &&& 0x01).toUInt16 <<< UInt16.ofNat n = 0 ∨
      flag &&& 0x01 = 1 ∧ (flag &&& 0x01).toUInt16 <<< UInt16.ofNat n = snBit n := by
  have h1 : (flag &&& 0x01).toNat = flag.toNat % 2 := Nat.and_one_is_mod _
  rcases Nat.mod_two_eq_zero_or_one flag.toNat with h | h
  · have h0 : flag &&& 0x01 = 0 := UInt8.toNat_inj.mp (h1.trans h)
    rw [h0]
    exact Or.inl ⟨rfl, UInt16.zero_shiftLeft⟩
  · have h0 : flag &&& 0x01 = 1 := UInt8.toNat_inj.mp (h1.trans h)
    rw [h0]
    exact Or.inr ⟨rfl, rfl⟩

theorem Statics.apart_forget (v : Statics) (hn : n < wizchipSockNum) : v.Apart n (v.forget n) := by
  intro m hm hne
  refine ⟨?_, ?_, Function.update_of_ne hne .., Function.update_of_ne hne ..⟩
  · rw [nonblock, nonblock, forget, clear_and _ hn hm hne]
  · rw [isSending, isSending, forget, clear_and _ hn hm hne]

theorem Statics.apart_opened (v : Statics) (flag : UInt8) (hn : n < wizchipSockNum) :
    v.Apart n (v.opened n flag) := by
  intro m hm hne
  obtain ⟨-, h₂, h₃, h₄⟩ := v.apart_forget hn m hm hne
  refine ⟨?_, h₂, h₃, h₄⟩
  rw [nonblock, nonblock, opened]
  rcases ioFlag_shift flag n with ⟨-, h⟩ | ⟨-, h⟩
  · rw [h, UInt16.or_zero, clear_and _ hn hm hne]
  · rw [h, set_and _ hn hm hne, clear_and _ hn hm hne]

/-- What the statics say of a socket that has just been opened. -/
theorem Statics.opened_self (v : Statics) (flag : UInt8) (hn : n < wizchipSockNum) :
    (v.opened n flag).nonblock n = decide (flag &&& 0x01 ≠ 0) ∧
      (v.opened n flag).isSending n = false ∧ (v.opened n flag).sockRemainedSize n = 0 ∧
      (v.opened n flag).sockPackInfo n = packCompleted := by
  obtain ⟨hclear, hset⟩ := snBit_self hn
  refine ⟨?_, ?_, Function.update_self .., Function.update_self ..⟩
  · rw [nonblock, opened, or_and, UInt16.and_assoc, hclear, UInt16.and_zero, UInt16.zero_or]
    rcases ioFlag_shift flag n with ⟨h0, h⟩ | ⟨h1, h⟩
    · rw [h, h0, UInt16.zero_and]
      rfl
    · rw [h, h1, UInt16.and_self, decide_eq_true hset]
      rfl
  · rw [isSending, opened, forget, UInt16.and_assoc, hclear, UInt16.and_zero]
    rfl

theorem Statics.apart_clearSending (v : Statics) (hn : n < wizchipSockNum) :
    v.Apart n (v.clearSending n) := by
  intro m hm hne
  refine ⟨rfl, ?_, rfl, rfl⟩
  rw [isSending, isSending, clearSending, clear_and _ hn hm hne]

theorem Statics.apart_setSending (v : Statics) (hn : n < wizchipSockNum) :
    v.Apart n (v.setSending n) := by
  intro m hm hne
  refine ⟨rfl, ?_, rfl, rfl⟩
  rw [isSending, isSending, setSending, set_and _ hn hm hne]

variable (hn : n < wizchipSockNum) (hP : Apart R n P)

include hP in
theorem Apart.modify {f : Statics → Statics} (hf : ∀ v : Statics, v.Apart n (f v)) :
    Keeps R P (modifyVars f) :=
  .modifyVars fun v c hp => hP.vars v (f v) c (hf v) hp

include hn hP

theorem command_keeps (cr : UInt8) : Keeps R P (command n cr) :=
  (setSnByte_keeps hn hP snCR cr).bind fun _ => .poll (getSnByte_keeps hn hP snCR).map

theorem waitSr_keeps (p : UInt8 → Bool) : Keeps R P (waitSr n p) :=
  .poll (getSnByte_keeps hn hP snSR).map

theorem badMode_keeps (mode : UInt8) : Keeps R P (badMode n mode) :=
  (getSnByte_keeps hn hP snMR).map

theorem close_keeps : Keeps R P (close n) := by
  rw [close, if_neg (by omega)]
  refine (command_keeps hn hP snCrClose).bind fun _ => (setSnByte_keeps hn hP snIR 0xFF).bind
    fun _ => ?_
  refine (hP.modify fun v => v.apart_forget hn).bind fun _ => ?_
  exact (waitSr_keeps hn hP (· = sockClosed)).map

omit hn in
theorem socketRefused_keeps (protocol flag : UInt8) : Keeps R P (socketRefused protocol flag) := by
  refine Keeps.bind (Keeps.ite ?_ (.pure _)) fun _ => ?_
  · exact (wizchipReadBuf_keeps sipr 4 (by omega) hP.stable).map
  · exact .ite (.pure _) (.ite (.pure _) (.ite (.pure _) (.ite (.pure _) (.ite (.pure _)
      (.ite (.pure _) (.pure _))))))

omit hn in
theorem choosePort_keeps (port : UInt16) : Keeps R P (choosePort port) :=
  .ite (.pure _) (Keeps.getVars.bind fun _ =>
    (hP.modify (f := Statics.anyPort) fun _ _ _ _ => ⟨rfl, rfl, rfl, rfl⟩).bind fun _ => .pure _)

theorem socket_keeps (protocol : UInt8) (port : UInt16) (flag : UInt8) :
    Keeps R P (socket n protocol port flag) := by
  rw [socket, if_neg (by omega)]
  refine (socketRefused_keeps hP protocol flag).bind fun r => ?_
  cases r with
  | some ret => exact .pure _
  | none =>
    refine (close_keeps hn hP).bind fun _ => (setSnByte_keeps hn hP snMR _).bind fun _ => ?_
    refine (choosePort_keeps hP port).bind fun port => ?_
    refine (setSnWord_keeps hn hP port (by decide)).bind fun _ => ?_
    refine (command_keeps hn hP snCrOpen).bind fun _ => ?_
    refine (hP.modify fun v => v.apart_opened flag hn).bind fun _ => ?_
    exact (waitSr_keeps hn hP (· ≠ sockClosed)).map

theorem connect_keeps (addr : List UInt8) (port : UInt16) : Keeps R P (connect n addr port) := by
  have hsr := getSnByte_keeps hn hP snSR
  rw [connect, if_neg (by omega)]
  refine (badMode_keeps hn hP snMrTcp).bind fun bad => .ite (.pure _) ?_
  refine hsr.bind fun sr => .ite (.pure _) (.ite (.pure _) (.ite (.pure _) ?_))
  refine (wizchipWriteBuf_keeps snDIPR addr 4 (snReg_lt hn) hP.stable
    (hP.write_block (by rw [sregBlock]; omega) (by rw [sregBlock]; omega))).bind fun _ => ?_
  refine (setSnWord_keeps hn hP port (by decide)).bind fun _ => ?_
  refine (command_keeps hn hP snCrConnect).bind fun _ => Keeps.getVars.bind fun v => ?_
  refine .ite (.pure _) (.poll (hsr.bind fun _ => .ite (.pure _) ?_))
  refine (getSnByte_keeps hn hP snIR).bind fun _ => .ite ?_ ?_
  · exact (setSnByte_keeps hn hP snIR snIrTimeout).map
  · exact hsr.bind fun _ => .ite (.pure _) (.pure _)

theorem disconnect_keeps : Keeps R P (disconnect n) := by
  rw [disconnect, if_neg (by omega)]
  refine (badMode_keeps hn hP snMrTcp).bind fun bad => .ite (.pure _) ?_
  refine (command_keeps hn hP snCrDiscon).bind fun _ => ?_
  refine (hP.modify fun v => v.apart_clearSending hn).bind fun _ => Keeps.getVars.bind fun v => ?_
  refine .ite (.pure _) (.poll ((getSnByte_keeps hn hP snSR).bind fun _ => .ite (.pure _) ?_))
  exact (getSnByte_keeps hn hP snIR).bind fun _ => .ite (close_keeps hn hP).map (.pure _)

theorem recvRefused_keeps (recvsize : UInt16) (tmp : UInt8) :
    Keeps R P (recvRefused n recvsize tmp) := by
  refine .ite (.pure _) (.ite (.ite (.pure _) ?_) (.pure _))
  exact (getSnSize_keeps hn hP (by decide)).bind fun _ =>
    ((getSnByte_keeps hn hP snTXBUFSIZE).map).map

theorem recvWait_keeps : Keeps R P (recvWait n) := by
  refine .poll ((getSnSize_keeps hn hP (by decide)).bind fun recvsize => ?_)
  refine (getSnByte_keeps hn hP snSR).bind fun tmp => ?_
  refine (recvRefused_keeps hn hP recvsize tmp).bind fun refused => .ite (close_keeps hn hP).map ?_
  exact Keeps.getVars.bind fun v => .ite (.pure _) (.ite (.pure _) (.pure _))

theorem wizRecvData_keeps (len : UInt16) : Keeps R P (wizRecvData n len) := by
  refine .ite (.pure _) ((getSnWord_keeps hn hP (by decide)).bind fun ptr => ?_)
  refine (wizchipReadBuf_keeps ptr len (rxbufBlock_lt hn) hP.stable).bind fun bs => ?_
  exact (setSnWord_keeps hn hP (ptr + len) (by decide)).map

theorem recv_keeps (len : UInt16) : Keeps R P (recv n len) := by
  rw [recv, if_neg (by omega)]
  refine (badMode_keeps hn hP snMrTcp).bind fun bad => .ite (.pure _) (.ite (.pure _) ?_)
  refine ((getSnByte_keeps hn hP snRXBUFSIZE).map).bind fun max => ?_
  refine (recvWait_keeps hn hP).bind fun r => ?_
  cases r with
  | inl r => exact .pure _
  | inr m => exact Keeps.map ((wizRecvData_keeps hn hP _).bind fun bs =>
      (command_keeps hn hP snCrRecv).map)

theorem sendPrevious_keeps : Keeps R P (sendPrevious n) := by
  refine Keeps.getVars.bind fun v =>
    .ite (.pure _) ((getSnByte_keeps hn hP snIR).bind fun tmp => ?_)
  refine .ite ?_ (.ite (close_keeps hn hP).map (.pure _))
  exact (setSnByte_keeps hn hP snIR snIrSendok).bind fun _ =>
    (hP.modify fun v => v.apart_clearSending hn).map

theorem sendWait_keeps (len : UInt16) : Keeps R P (sendWait n len) := by
  refine .poll ((getSnSize_keeps hn hP (by decide)).bind fun freesize => ?_)
  refine (getSnByte_keeps hn hP snSR).bind fun tmp => .ite (close_keeps hn hP).map ?_
  exact Keeps.getVars.bind fun v => .ite (.pure _) (.ite (.pure _) (.pure _))

theorem wizSendData_keeps (buf : List UInt8) (len : UInt16) :
    Keeps R P (wizSendData n buf len) := by
  refine .ite (.pure _) ((getSnWord_keeps hn hP (by decide)).bind fun ptr => ?_)
  refine (wizchipWriteBuf_keeps ptr buf len (txbufBlock_lt hn) hP.stable
    (hP.write_block (by rw [txbufBlock]; omega) (by rw [txbufBlock]; omega))).bind fun _ => ?_
  exact setSnWord_keeps hn hP (ptr + len) (by decide)

theorem send_keeps (buf : List UInt8) (len : UInt16) : Keeps R P (send n buf len) := by
  rw [send, if_neg (by omega)]
  refine (badMode_keeps hn hP snMrTcp).bind fun bad => .ite (.pure _) (.ite (.pure _) ?_)
  refine (getSnByte_keeps hn hP snSR).bind fun tmp => .ite (.pure _) ?_
  refine (sendPrevious_keeps hn hP).bind fun r => ?_
  cases r with
  | some ret => exact .pure _
  | none =>
    refine ((getSnByte_keeps hn hP snTXBUFSIZE).map).bind fun max => ?_
    refine (sendWait_keeps hn hP _).bind fun r => ?_
    cases r with
    | some ret => exact .pure _
    | none =>
      refine Keeps.bind ((wizSendData_keeps hn hP buf _).bind fun _ =>
        command_keeps hn hP snCrSend) fun _ => ?_
      exact (hP.modify fun v => v.apart_setSending hn).map

end Calls

end NucleoW5500.Driver
