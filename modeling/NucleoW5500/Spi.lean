import NucleoW5500.CString
import NucleoW5500.Chip

/-! Access to the chip over SPI. Every access is one frame, two address bytes and a control
byte in front of the data, sent and received by DMA through two static buffers. The chip is
free to move before each byte of data. -/

namespace NucleoW5500.Spi

open CString Chip Interleaved

def maxWizBuf : Nat := 8 * 1024 + 4

structure DmaBuf where
  bytes : List UInt8
  full : bytes.length = maxWizBuf

/-- The variables of the program and, static as well, the two DMA buffers. -/
structure Host (η : Type) where
  vars : η
  /-- `w5500_dma_buf` -/
  dmaBuf : DmaBuf
  /-- `w5500_dummy_buf` -/
  dummyBuf : DmaBuf

/-- `dmaBounds`: a frame that is longer than its buffer. -/
inductive Stop
  | blocked
  | dmaBounds
  deriving DecidableEq, Repr

abbrev DM (η α : Type) := Prog (Host η) W5500 Event Stop α

variable {η α : Type}

def chip (f : W5500 → α × W5500) : DM η α := access W5500.move .blocked f

def stop (s : Stop) : DM η α := fun w => .error s w

def getVars : DM η η := do
  return (← getHost).vars

def setVars (u : η) : DM η Unit := do
  setHost { ← getHost with vars := u }

/-- `OpMode`, `RWB` and `BSB` of the control byte. The host reads with `write = false`, and
what the chip sends while it is written to is of no interest. -/
def frameData (block : Nat) (write : Bool) (a : UInt16) : List UInt8 → DM η (List UInt8)
  | [] => pure []
  | b :: bs => do
    let m ← chip fun c => if write then (0, c.write block a b) else (c.read block a, c)
    let ms ← frameData block write (a + 1) bs
    pure (m :: ms)

def frame : List UInt8 → DM η (List UInt8)
  | hi :: lo :: control :: data => do
    let ms ← frameData (control.toNat / 8) (control &&& 0x04 ≠ 0) (ofBytes hi lo) data
    pure (0 :: 0 :: 0 :: ms)
  | mosi => pure (mosi.map fun _ => 0)

/-- Put `bs` over the start of the buffer. -/
def DmaBuf.fill (d : DmaBuf) (bs : List UInt8) (h : bs.length ≤ maxWizBuf) : DmaBuf where
  bytes := overwrite d.bytes 0 bs
  full := by rw [length_overwrite (by rw [d.full]; omega), d.full]

def DmaBuf.put (d : DmaBuf) (bs : List UInt8) : DM η DmaBuf :=
  if h : bs.length ≤ maxWizBuf then pure (d.fill bs h) else stop .dmaBounds

/-- `HAL_SPI_TransmitReceive_DMA(&hspi2, tx, ., len)`, up to its completion: what comes in. -/
def halSpiTransmitReceiveDma (tx : DmaBuf) (len : UInt16) : DM η (List UInt8) :=
  if len.toNat ≤ maxWizBuf then frame (read tx.bytes 0 len.toNat) else stop .dmaBounds

/-- `W5500_ReadBuff(w5500_dma_buf, len)` -/
def w5500ReadBuff (len : UInt16) : DM η Unit := do
  let h ← getHost
  let dummy ← h.dummyBuf.put (read h.dmaBuf.bytes 0 3)
  let miso ← halSpiTransmitReceiveDma dummy len
  let dma ← h.dmaBuf.put miso
  setHost { h with dmaBuf := dma, dummyBuf := dummy }

/-- `W5500_WriteBuff(w5500_dma_buf, len)` -/
def w5500WriteBuff (len : UInt16) : DM η Unit := do
  let h ← getHost
  let miso ← halSpiTransmitReceiveDma h.dmaBuf len
  let dummy ← h.dummyBuf.put miso
  setHost { h with dummyBuf := dummy }

def w5500SpiRead : UInt32 := (0x00 : UInt32) <<< 2
def w5500SpiWrite : UInt32 := (0x01 : UInt32) <<< 2
def w5500SpiVdmOp : UInt32 := 0x00

/-- `((uint32_t) a << 8) + (block << 3)` -/
def addrSel (a : UInt16) (block : Nat) : UInt32 := (a.toUInt32 <<< 8) + (UInt32.ofNat block <<< 3)

def addrBytes (sel : UInt32) : List UInt8 :=
  [((sel &&& 0x00FF0000) >>> 16).toUInt8, ((sel &&& 0x0000FF00) >>> 8).toUInt8,
    (sel &&& 0x000000FF).toUInt8]

def startFrame (bs : List UInt8) : DM η Unit := do
  let h ← getHost
  setHost { h with dmaBuf := ← h.dmaBuf.put bs }

def wizchipRead (sel : UInt32) : DM η UInt8 := do
  startFrame (addrBytes (sel ||| (w5500SpiRead ||| w5500SpiVdmOp)))
  w5500ReadBuff 4
  return peek (← getHost).dmaBuf.bytes 3

def wizchipWrite (sel : UInt32) (wb : UInt8) : DM η Unit := do
  startFrame (addrBytes (sel ||| (w5500SpiWrite ||| w5500SpiVdmOp)) ++ [wb])
  w5500WriteBuff 4

def wizchipReadBuf (sel : UInt32) (len : UInt16) : DM η (List UInt8) := do
  startFrame (addrBytes (sel ||| (w5500SpiRead ||| w5500SpiVdmOp)))
  w5500ReadBuff (len + 3)
  return read (← getHost).dmaBuf.bytes 3 len.toNat

def wizchipWriteBuf (sel : UInt32) (buf : List UInt8) (len : UInt16) : DM η Unit := do
  startFrame (addrBytes (sel ||| (w5500SpiWrite ||| w5500SpiVdmOp)) ++ read buf 0 len.toNat)
  w5500WriteBuff (len + 3)

/-- From `P`, among moves in `R`, the program returns in `Q` if it returns. It never runs over
a buffer. `P` and `Q` speak about the variables and the chip only. -/
def DSpec (R : Event → Prop) (P : η → W5500 → Prop) (x : DM η α) (Q : α → η → W5500 → Prop) : Prop :=
  Spec R (fun h c => P h.vars c) x (fun a h c => Q a h.vars c) (· = .blocked)

section Addresses

theorem addrSel_toNat (a : UInt16) {block : Nat} (hb : block < 32) :
    (addrSel a block).toNat = 256 * a.toNat + 8 * block := by
  have ha := a.toNat_lt
  have h8 : 2 ^ ((8 : UInt32).toNat % 32) = 256 := rfl
  have h3 : 2 ^ ((3 : UInt32).toNat % 32) = 8 := rfl
  simp only [addrSel, UInt32.toNat_add, UInt32.toNat_shiftLeft, UInt16.toNat_toUInt32,
    UInt32.toNat_ofNat', Nat.shiftLeft_eq, h8, h3]
  omega

theorem addrBytes_eq (sel : UInt32) :
    addrBytes sel = [UInt8.ofNat (sel.toNat / 65536), UInt8.ofNat (sel.toNat / 256),
      UInt8.ofNat sel.toNat] := by
  have h₁ := Nat.and_two_pow_sub_one_eq_mod (sel.toNat >>> 16) 8
  have h₂ := Nat.and_two_pow_sub_one_eq_mod (sel.toNat >>> 8) 8
  have h₃ := Nat.and_two_pow_sub_one_eq_mod sel.toNat 8
  simp only [addrBytes, List.cons.injEq, and_true, ← UInt8.toNat_inj, UInt32.toNat_toUInt8,
    UInt32.toNat_shiftRight, UInt32.toNat_and, UInt8.toNat_ofNat', Nat.shiftRight_and_distrib]
  refine ⟨?_, ?_, ?_⟩
  · rw [show (0x00FF0000 : UInt32).toNat >>> ((16 : UInt32).toNat % 32) = 2 ^ 8 - 1 from rfl]
    rw [show (16 : UInt32).toNat % 32 = 16 from rfl, h₁, Nat.shiftRight_eq_div_pow]
    omega
  · rw [show (0x0000FF00 : UInt32).toNat >>> ((8 : UInt32).toNat % 32) = 2 ^ 8 - 1 from rfl]
    rw [show (8 : UInt32).toNat % 32 = 8 from rfl, h₂, Nat.shiftRight_eq_div_pow]
    omega
  · rw [show (0x000000FF : UInt32).toNat = 2 ^ 8 - 1 from rfl, h₃]
    omega

/-- The address phase, as it stands in the buffer. -/
theorem addrBytes_addrSel (a : UInt16) {block : Nat} (hb : block < 32) {op : UInt32}
    (hop : op.toNat < 8) :
    addrBytes (addrSel a block ||| op) =
      [hiByte a, loByte a, UInt8.ofNat (8 * block + op.toNat)] := by
  have ha := a.toNat_lt
  have hn : (addrSel a block ||| op).toNat = 256 * a.toNat + 8 * block + op.toNat := by
    have hor := Nat.two_pow_add_eq_or_of_lt (i := 3) (b := op.toNat) hop (32 * a.toNat + block)
    rw [UInt32.toNat_or, addrSel_toNat a hb]
    rw [show 256 * a.toNat + 8 * block = 2 ^ 3 * (32 * a.toNat + block) by omega, ← hor]
  rw [addrBytes_eq, hn]
  simp only [hiByte, loByte, List.cons.injEq, and_true, ← UInt8.toNat_inj, UInt8.toNat_ofNat']
  omega

end Addresses

section Frames

variable {R : Event → Prop} {block n : Nat} {a : UInt16}

theorem ofNat_succ (n : Nat) : UInt16.ofNat (n + 1) = UInt16.ofNat n + 1 := by
  rw [← UInt16.toNat_inj, UInt16.toNat_add, UInt16.toNat_ofNat', UInt16.toNat_ofNat']
  have h1 : (1 : UInt16).toNat = 1 := rfl
  omega

theorem chip_spec {P : Host η → W5500 → Prop} {Q : α → Host η → W5500 → Prop}
    {f : W5500 → α × W5500} (hst : Stable W5500.move R P)
    (h : ∀ u c, P u c → Q (f c).1 u (f c).2) : Spec R P (chip f) Q (· = .blocked) :=
  .access hst rfl h

/-- `J ms`: the bytes `ms` are read. It must survive what the chip does meanwhile. -/
theorem frameData_read {J : List UInt8 → Host η → W5500 → Prop}
    (hst : ∀ ms, ms.length < n → Stable W5500.move R (J ms))
    (hstep : ∀ ms, ms.length < n → ∀ h c, J ms h c →
      J (ms ++ [c.read block (a + UInt16.ofNat ms.length)]) h c)
    (mosi ms : List UInt8) (hn : ms.length + mosi.length = n) :
    Spec R (J ms) (frameData block false (a + UInt16.ofNat ms.length) mosi)
      (fun ms' h c => ms'.length = mosi.length ∧ J (ms ++ ms') h c) (· = .blocked) := by
  induction mosi generalizing ms with
  | nil => exact .pure fun h c hj => ⟨rfl, by rwa [List.append_nil]⟩
  | cons b mosi ih =>
    rw [List.length_cons] at hn
    rw [frameData]
    refine (chip_spec (Q := fun m => J (ms ++ [m])) (hst ms (by omega)) ?_).bind fun m => ?_
    · exact hstep ms (by omega)
    have hlen : (ms ++ [m]).length = ms.length + 1 := by simp
    have hrest := ih (ms ++ [m]) (by omega)
    rw [hlen, ofNat_succ, ← UInt16.add_assoc] at hrest
    refine hrest.bind fun ms' => .pure fun h c hj => ⟨?_, ?_⟩
    · rw [List.length_cons, List.length_cons, hj.1]
    · rw [List.append_cons]
      exact hj.2

/-- `J i`: the first `i` bytes are written. -/
theorem frameData_write {J : Nat → Host η → W5500 → Prop} {bs : List UInt8}
    (hst : ∀ i < bs.length, Stable W5500.move R (J i))
    (hstep : ∀ i b, bs[i]? = some b → ∀ h c, J i h c →
      J (i + 1) h (c.write block (a + UInt16.ofNat i) b))
    (mosi : List UInt8) (i : Nat) (hi : bs.drop i = mosi) :
    Spec R (J i) (frameData block true (a + UInt16.ofNat i) mosi)
      (fun ms h c => ms.length = mosi.length ∧ J (i + mosi.length) h c) (· = .blocked) := by
  induction mosi generalizing i with
  | nil => exact .pure fun h c hj => ⟨rfl, hj⟩
  | cons b mosi ih =>
    have hlt : i < bs.length := by
      have hl := congrArg List.length hi
      simp only [List.length_drop, List.length_cons] at hl
      omega
    have hb : bs[i]? = some b := by
      rw [← Nat.add_zero i, ← List.getElem?_drop, hi]
      rfl
    have htail : bs.drop (i + 1) = mosi := by rw [← List.tail_drop, hi, List.tail_cons]
    rw [frameData]
    refine (chip_spec (Q := fun _ => J (i + 1)) (hst i hlt) ?_).bind fun m => ?_
    · exact hstep i b hb
    have hrest := ih (i + 1) htail
    rw [ofNat_succ, ← UInt16.add_assoc] at hrest
    refine hrest.bind fun ms => .pure fun h c hj => ⟨?_, ?_⟩
    · rw [List.length_cons, List.length_cons, hj.1]
    · rw [List.length_cons, Nat.add_comm mosi.length 1, ← Nat.add_assoc]
      exact hj.2

end Frames

section Buffers

variable {R : Event → Prop} {P : η → W5500 → Prop} {block : Nat}

theorem read_control : ∀ block < 32, (UInt8.ofNat (8 * block + 0)).toNat / 8 = block ∧
    ¬ (UInt8.ofNat (8 * block + 0) &&& 0x04 ≠ 0) := by
  decide

theorem write_control : ∀ block < 32, (UInt8.ofNat (8 * block + 4)).toNat / 8 = block ∧
    UInt8.ofNat (8 * block + 4) &&& 0x04 ≠ 0 := by
  decide

theorem ofBytes_hi_lo (a : UInt16) : ofBytes (hiByte a) (loByte a) = a := by
  have ha := a.toNat_lt
  rw [← UInt16.toNat_inj, ofBytes, hiByte, loByte, UInt16.toNat_ofNat', UInt8.toNat_ofNat',
    UInt8.toNat_ofNat']
  omega

theorem put_spec {P : Host η → W5500 → Prop} (d : DmaBuf) {bs : List UInt8}
    (h : bs.length ≤ maxWizBuf) :
    Spec R P (d.put bs) (fun d' u c => d'.bytes = bs ++ d.bytes.drop bs.length ∧ P u c)
      (· = .blocked) := by
  rw [DmaBuf.put, dif_pos h]
  exact .pure fun u c hp => ⟨overwrite_zero _ _, hp⟩

theorem startFrame_spec {bs : List UInt8} (h : bs.length ≤ maxWizBuf) :
    Spec R (fun u c => P u.vars c) (startFrame bs)
      (fun _ u c => (∃ rest, u.dmaBuf.bytes = bs ++ rest) ∧ P u.vars c) (· = .blocked) := by
  refine (Spec.getHost (Q := fun (h u : Host η) c => h.vars = u.vars ∧ P u.vars c)
    fun u c hp => ⟨rfl, hp⟩).bind fun h₀ => ?_
  refine (put_spec h₀.dmaBuf h).bind fun d => .setHost ?_
  rintro u c ⟨hd, hv, hp⟩
  exact ⟨⟨_, hd⟩, hv ▸ hp⟩

theorem frame_read {J : List UInt8 → Host η → W5500 → Prop} {a : UInt16} {mosi : List UInt8}
    (hb : block < 32) (hst : ∀ ms, ms.length < mosi.length → Stable W5500.move R (J ms))
    (hstep : ∀ ms, ms.length < mosi.length → ∀ u c, J ms u c →
      J (ms ++ [c.read block (a + UInt16.ofNat ms.length)]) u c) :
    Spec R (J []) (frame (hiByte a :: loByte a :: UInt8.ofNat (8 * block + 0) :: mosi))
      (fun miso u c => ∃ ms, miso = 0 :: 0 :: 0 :: ms ∧ ms.length = mosi.length ∧ J ms u c)
      (· = .blocked) := by
  have hctl := read_control block hb
  rw [frame, hctl.1, decide_eq_false hctl.2, ofBytes_hi_lo]
  have hdata := frameData_read hst hstep mosi [] (by simp)
  rw [List.length_nil, show a + UInt16.ofNat 0 = a by simp] at hdata
  exact hdata.bind fun ms => .pure fun u c hj => ⟨ms, rfl, hj⟩

theorem frame_write {J : Nat → Host η → W5500 → Prop} {a : UInt16} {bs : List UInt8}
    (hb : block < 32) (hst : ∀ i < bs.length, Stable W5500.move R (J i))
    (hstep : ∀ i b, bs[i]? = some b → ∀ u c, J i u c →
      J (i + 1) u (c.write block (a + UInt16.ofNat i) b)) :
    Spec R (J 0) (frame (hiByte a :: loByte a :: UInt8.ofNat (8 * block + 4) :: bs))
      (fun miso u c => miso.length = bs.length + 3 ∧ J bs.length u c) (· = .blocked) := by
  have hctl := write_control block hb
  rw [frame, hctl.1, decide_eq_true hctl.2, ofBytes_hi_lo]
  have hdata := frameData_write hst hstep bs 0 rfl
  rw [show a + UInt16.ofNat 0 = a by simp, Nat.zero_add] at hdata
  refine hdata.bind fun ms => .pure fun u c hj => ⟨?_, hj.2⟩
  rw [List.length_cons, List.length_cons, List.length_cons, hj.1]

/-- The buffer goes out up to `len`. -/
theorem halSpiTransmitReceiveDma_eq {tx : DmaBuf} {len : UInt16} {x y z : UInt8} {n : Nat}
    {rest : List UInt8} (htx : tx.bytes = x :: y :: z :: rest) (hlen : len.toNat = n + 3)
    (hmax : n + 3 ≤ maxWizBuf) :
    (halSpiTransmitReceiveDma tx len : DM η _) = frame (x :: y :: z :: read rest 0 n) := by
  rw [halSpiTransmitReceiveDma, if_pos (by omega), htx, hlen, Nat.add_comm n 3, read_add]
  rw [read_cons_succ, read_cons_succ, read_cons_succ]
  rfl

/-- The frame of a read; its data bytes go out as they stand in `w5500_dummy_buf`. -/
theorem w5500ReadBuff_spec {J : List UInt8 → η → W5500 → Prop} {a len : UInt16} {n : Nat}
    (hb : block < 32) (hlen : len.toNat = n + 3) (hmax : n + 3 ≤ maxWizBuf)
    (hst : ∀ ms, ms.length < n → Stable W5500.move R fun (u : Host η) c => J ms u.vars c)
    (hstep : ∀ ms, ms.length < n → ∀ u c, J ms u c →
      J (ms ++ [c.read block (a + UInt16.ofNat ms.length)]) u c) :
    Spec R (fun u c => (∃ rest, u.dmaBuf.bytes =
        hiByte a :: loByte a :: UInt8.ofNat (8 * block + 0) :: rest) ∧ J [] u.vars c)
      (w5500ReadBuff len)
      (fun _ u c => ∃ ms, ms.length = n ∧ read u.dmaBuf.bytes 3 n = ms ∧ J ms u.vars c)
      (· = .blocked) := by
  refine (Spec.getHost (Q := fun (h u : Host η) c => u = h ∧ (∃ rest, h.dmaBuf.bytes =
    hiByte a :: loByte a :: UInt8.ofNat (8 * block + 0) :: rest) ∧ J [] h.vars c)
    fun u c hp => ⟨rfl, hp⟩).bind fun h₀ => ?_
  refine (put_spec h₀.dummyBuf (by simp [maxWizBuf])).bind fun dummy => ?_
  refine .fact (p := ∃ rest, dummy.bytes =
    hiByte a :: loByte a :: UInt8.ofNat (8 * block + 0) :: rest) ?_ fun hdummy => ?_
  · rintro u c ⟨hd, -, ⟨rest, hr⟩, -⟩
    exact ⟨_, by rw [hd, hr]; rfl⟩
  obtain ⟨rest, hdummy⟩ := hdummy
  rw [halSpiTransmitReceiveDma_eq hdummy hlen hmax]
  refine ((frame_read (J := fun ms (u : Host η) c => u = h₀ ∧ J ms h₀.vars c) hb ?_ ?_).pre
    fun u c hp => ⟨hp.2.1, hp.2.2.2⟩).bind fun miso => ?_
  · rintro ms hms e he u c ⟨rfl, hj⟩
    exact ⟨rfl, hst ms (by simpa using hms) e he u c hj⟩
  · rintro ms hms u c ⟨rfl, hj⟩
    exact ⟨rfl, hstep ms (by simpa using hms) u.vars c hj⟩
  refine .fact (p := ∃ ms, miso = 0 :: 0 :: 0 :: ms ∧ ms.length = n)
    (fun u c ⟨ms, hm, hl, _⟩ => ⟨ms, hm, by simpa using hl⟩) fun ⟨ms, hm, hl⟩ => ?_
  subst hm
  have hfit : (0 :: 0 :: 0 :: ms : List UInt8).length ≤ maxWizBuf := by
    simp only [List.length_cons]
    omega
  refine (put_spec h₀.dmaBuf hfit).bind fun dma => .setHost ?_
  rintro u c ⟨hd, ms', he, -, -, hj⟩
  obtain rfl : ms = ms' := by simpa using he
  refine ⟨ms, hl, ?_, hj⟩
  have hmid := read_middle [0, 0, 0] ms (h₀.dmaBuf.bytes.drop (ms.length + 3))
  rw [hl] at hmid
  rw [hd]
  simpa [hl] using hmid

theorem w5500WriteBuff_spec {J : Nat → η → W5500 → Prop} {a len : UInt16} {bs : List UInt8}
    (hb : block < 32) (hlen : len.toNat = bs.length + 3) (hmax : bs.length + 3 ≤ maxWizBuf)
    (hst : ∀ i < bs.length, Stable W5500.move R fun (u : Host η) c => J i u.vars c)
    (hstep : ∀ i b, bs[i]? = some b → ∀ u c, J i u c →
      J (i + 1) u (c.write block (a + UInt16.ofNat i) b)) :
    Spec R (fun u c => (∃ rest, u.dmaBuf.bytes =
        hiByte a :: loByte a :: UInt8.ofNat (8 * block + 4) :: (bs ++ rest)) ∧ J 0 u.vars c)
      (w5500WriteBuff len) (fun _ u c => J bs.length u.vars c) (· = .blocked) := by
  refine (Spec.getHost (Q := fun (h u : Host η) c => u = h ∧ (∃ rest, h.dmaBuf.bytes =
    hiByte a :: loByte a :: UInt8.ofNat (8 * block + 4) :: (bs ++ rest)) ∧ J 0 h.vars c)
    fun u c hp => ⟨rfl, hp⟩).bind fun h₀ => ?_
  refine .fact (fun u c hp => hp.2.1) fun ⟨rest, hr⟩ => ?_
  rw [halSpiTransmitReceiveDma_eq hr hlen hmax, read_append_left]
  refine ((frame_write (J := fun i (u : Host η) c => u = h₀ ∧ J i h₀.vars c) hb ?_ ?_).pre
    fun u c hp => ⟨hp.1, hp.2.2⟩).bind fun miso => ?_
  · rintro i hi e he u c ⟨rfl, hj⟩
    exact ⟨rfl, hst i hi e he u c hj⟩
  · rintro i b hib u c ⟨rfl, hj⟩
    exact ⟨rfl, hstep i b hib u.vars c hj⟩
  refine .fact (fun u c hp => hp.1) fun hl => ?_
  refine (put_spec h₀.dummyBuf (by omega)).bind fun dummy => .setHost ?_
  exact fun u c hp => hp.2.2.2

theorem stable_vars {P : η → W5500 → Prop} (h : Stable W5500.move R P) :
    Stable W5500.move R fun (u : Host η) c => P u.vars c :=
  fun e he u c hp => h e he u.vars c hp

theorem frame_len {len : UInt16} (h : len.toNat + 3 ≤ maxWizBuf) :
    (len + 3).toNat = len.toNat + 3 := by
  have h3 : (3 : UInt16).toNat = 3 := rfl
  rw [maxWizBuf] at h
  rw [UInt16.toNat_add, h3]
  omega

/-- A read of `len` bytes, in terms of what the chip holds at each address. -/
theorem wizchipReadBuf_spec {J : List UInt8 → η → W5500 → Prop} {a len : UInt16}
    (hb : block < 32) (hmax : len.toNat + 3 ≤ maxWizBuf)
    (hst : ∀ ms, ms.length < len.toNat → Stable W5500.move R (J ms))
    (hstep : ∀ ms, ms.length < len.toNat → ∀ u c, J ms u c →
      J (ms ++ [c.read block (a + UInt16.ofNat ms.length)]) u c) :
    DSpec R (J []) (wizchipReadBuf (addrSel a block) len)
      (fun ms u c => ms.length = len.toNat ∧ J ms u c) := by
  have hop : (w5500SpiRead ||| w5500SpiVdmOp).toNat = 0 := rfl
  refine (startFrame_spec (by simp [addrBytes, maxWizBuf])).bind fun _ => ?_
  rw [addrBytes_addrSel a hb (by rw [hop]; omega), hop]
  refine (w5500ReadBuff_spec hb (frame_len hmax) hmax (fun ms hms => stable_vars (hst ms hms))
    hstep).bind fun _ => ?_
  refine (Spec.getHost (Q := fun (h u : Host η) c => h = u ∧ ∃ ms, ms.length = len.toNat ∧
    read u.dmaBuf.bytes 3 len.toNat = ms ∧ J ms u.vars c) fun u c hp => ⟨rfl, hp⟩).bind fun h => ?_
  refine .pure ?_
  rintro u c ⟨rfl, ms, hl, hread, hj⟩
  rw [hread]
  exact ⟨hl, hj⟩

theorem wizchipWriteBuf_spec {J : Nat → η → W5500 → Prop} {a len : UInt16} {buf : List UInt8}
    (hb : block < 32) (hmax : len.toNat + 3 ≤ maxWizBuf)
    (hst : ∀ i < len.toNat, Stable W5500.move R (J i))
    (hstep : ∀ i b, (read buf 0 len.toNat)[i]? = some b → ∀ u c, J i u c →
      J (i + 1) u (c.write block (a + UInt16.ofNat i) b)) :
    DSpec R (J 0) (wizchipWriteBuf (addrSel a block) buf len) (fun _ => J len.toNat) := by
  have hop : (w5500SpiWrite ||| w5500SpiVdmOp).toNat = 4 := rfl
  have hlen := length_read buf 0 len.toNat
  refine (startFrame_spec (by simp [addrBytes]; omega)).bind fun _ => ?_
  rw [addrBytes_addrSel a hb (by rw [hop]; omega), hop]
  refine (w5500WriteBuff_spec hb (by rw [hlen, frame_len hmax]) (by rwa [hlen])
    (fun i hi => stable_vars (hst i (by rwa [hlen] at hi))) hstep).post fun _ u c hj => ?_
  rwa [hlen] at hj

theorem wizchipRead_spec {Q : UInt8 → η → W5500 → Prop} {a : UInt16} (hb : block < 32)
    (hst : Stable W5500.move R P) (h : ∀ u c, P u c → Q (c.read block a) u c) :
    DSpec R P (wizchipRead (addrSel a block)) Q := by
  have hop : (w5500SpiRead ||| w5500SpiVdmOp).toNat = 0 := rfl
  refine (startFrame_spec (by simp [addrBytes, maxWizBuf])).bind fun _ => ?_
  rw [addrBytes_addrSel a hb (by rw [hop]; omega), hop]
  refine ((w5500ReadBuff_spec (n := 1) (J := fun ms u c => match ms with
    | [] => P u c
    | m :: _ => Q m u c) hb rfl (by simp [maxWizBuf]) ?_ ?_).bind fun _ => ?_)
  · intro ms hms
    obtain rfl : ms = [] := List.eq_nil_of_length_eq_zero (by omega)
    exact stable_vars hst
  · intro ms hms u c hj
    obtain rfl : ms = [] := List.eq_nil_of_length_eq_zero (by omega)
    have h0 : a + UInt16.ofNat ([] : List UInt8).length = a := by simp
    rw [h0]
    exact h u c hj
  · refine (Spec.getHost (Q := fun (h u : Host η) c => Q (peek h.dmaBuf.bytes 3) u.vars c)
      ?_).bind fun h => .pure fun u c hp => hp
    rintro u c ⟨ms, hl, hread, hj⟩
    obtain ⟨m, rfl⟩ := List.length_eq_one_iff.mp hl
    rw [read_succ] at hread
    rw [(List.cons.inj hread).1]
    exact hj

theorem wizchipWrite_spec {Q : η → W5500 → Prop} {a : UInt16} {b : UInt8} (hb : block < 32)
    (hst : Stable W5500.move R P) (h : ∀ u c, P u c → Q u (c.write block a b)) :
    DSpec R P (wizchipWrite (addrSel a block) b) (fun _ => Q) := by
  have hop : (w5500SpiWrite ||| w5500SpiVdmOp).toNat = 4 := rfl
  refine (startFrame_spec (by simp [addrBytes, maxWizBuf])).bind fun _ => ?_
  rw [addrBytes_addrSel a hb (by rw [hop]; omega), hop]
  refine w5500WriteBuff_spec (J := fun i u c => if i = 0 then P u c else Q u c) hb rfl
    (by simp [maxWizBuf]) ?_ ?_
  · intro i hi
    obtain rfl : i = 0 := by simpa using hi
    exact stable_vars hst
  · intro i b' hi u c hj
    obtain ⟨rfl, rfl⟩ : i = 0 ∧ b' = b := by
      cases i with
      | zero => exact ⟨rfl, by simpa using hi.symm⟩
      | succ i => simp at hi
    have h0 : a + UInt16.ofNat 0 = a := by simp
    rw [h0]
    exact h u c hj

end Buffers

end NucleoW5500.Spi
