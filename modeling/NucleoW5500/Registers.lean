import NucleoW5500.Spi

/-! The registers of a socket, as the macros of the driver read and write them: a 16-bit
register is two accesses, and the chip may move in between. -/

namespace NucleoW5500.Spi

open Chip Interleaved

variable {η α : Type}

def snReg (a : UInt16) (n : Nat) : UInt32 := addrSel a (sregBlock n)

def offsetInc (sel : UInt32) : UInt32 := sel + ((1 : UInt32) <<< 8)

/-- `getSn_MR` and the other macros that read a byte -/
def getSnByte (a : UInt16) (n : Nat) : DM η UInt8 := wizchipRead (snReg a n)

def setSnByte (a : UInt16) (n : Nat) (b : UInt8) : DM η Unit := wizchipWrite (snReg a n) b

/-- `getSn_TX_WR`, `getSn_RX_RD` -/
def getSnWord (a : UInt16) (n : Nat) : DM η UInt16 := do
  let hi ← wizchipRead (snReg a n)
  let lo ← wizchipRead (offsetInc (snReg a n))
  return (hi.toUInt16 <<< 8) + lo.toUInt16

def setSnWord (a : UInt16) (n : Nat) (v : UInt16) : DM η Unit := do
  wizchipWrite (snReg a n) (v >>> 8).toUInt8
  wizchipWrite (offsetInc (snReg a n)) v.toUInt8

/-- `getSn_TX_FSR`, `getSn_RX_RSR`: the chip changes the register, so it is read until two
readings agree. `val` is what the last pass left in the variable of that name. -/
def getSnSize (a : UInt16) (n : Nat) : DM η UInt16 :=
  loop .blocked (fun val : UInt16 => do
    let val1 ← getSnWord a n
    let val ← if val1 ≠ 0 then getSnWord a n else pure val
    return if val ≠ val1 then .inl val else .inr val) 0

def getSnTxFsr (n : Nat) : DM η UInt16 := getSnSize snTXFSR n

def getSnRxRsr (n : Nat) : DM η UInt16 := getSnSize snRXRSR n

def getSnRxMax (n : Nat) : DM η UInt16 := do
  return (← getSnByte snRXBUFSIZE n).toUInt16 <<< 10

def getSnTxMax (n : Nat) : DM η UInt16 := do
  return (← getSnByte snTXBUFSIZE n).toUInt16 <<< 10

theorem snReg_lt {n : Nat} (hn : n < wizchipSockNum) : sregBlock n < 32 := by
  rw [wizchipSockNum] at hn
  rw [sregBlock]
  omega

theorem offsetInc_snReg {a : UInt16} {n : Nat} (hn : n < wizchipSockNum) (ha : a.toNat < 65535) :
    offsetInc (snReg a n) = snReg (a + 1) n := by
  have h1 : (1 : UInt16).toNat = 1 := rfl
  have h256 : ((1 : UInt32) <<< 8).toNat = 256 := rfl
  have hb := snReg_lt hn
  rw [← UInt32.toNat_inj, offsetInc, snReg, snReg, UInt32.toNat_add, addrSel_toNat _ hb,
    addrSel_toNat _ hb, UInt16.toNat_add, h1, h256]
  omega

theorem shift_add (hi lo : UInt8) : (hi.toUInt16 <<< 8) + lo.toUInt16 = ofBytes hi lo := by
  have hh := hi.toNat_lt
  have hl := lo.toNat_lt
  have h8 : 2 ^ ((8 : UInt16).toNat % 16) = 256 := rfl
  rw [← UInt16.toNat_inj, ofBytes, UInt16.toNat_add, UInt16.toNat_shiftLeft, UInt8.toNat_toUInt16,
    UInt8.toNat_toUInt16, UInt16.toNat_ofNat', Nat.shiftLeft_eq, h8]
  omega

theorem shiftRight_toUInt8 (v : UInt16) : (v >>> 8).toUInt8 = hiByte v := by
  have h8 : (8 : UInt16).toNat % 16 = 8 := rfl
  rw [← UInt8.toNat_inj, hiByte, UInt16.toNat_toUInt8, UInt16.toNat_shiftRight, h8,
    Nat.shiftRight_eq_div_pow, UInt8.toNat_ofNat']

theorem toUInt8_eq (v : UInt16) : v.toUInt8 = loByte v := by
  rw [← UInt8.toNat_inj, loByte, UInt16.toNat_toUInt8, UInt8.toNat_ofNat']

theorem shiftLeft_ten {b : UInt8} (hb : b.toNat < 64) :
    (b.toUInt16 <<< 10).toNat = b.toNat * 1024 := by
  have h10 : 2 ^ ((10 : UInt16).toNat % 16) = 1024 := rfl
  rw [UInt16.toNat_shiftLeft, UInt8.toNat_toUInt16, Nat.shiftLeft_eq, h10]
  omega

theorem read_sregBlock (c : W5500) (n : Nat) (a : UInt16) :
    c.read (sregBlock n) a = (c.socks n).readReg a := by
  have hd : sregBlock n / 4 = n := by rw [sregBlock]; omega
  have hm : sregBlock n % 4 = 1 := by rw [sregBlock]; omega
  rw [W5500.read, hd, if_pos hm]

theorem write_sregBlock (c : W5500) (n : Nat) (a : UInt16) (b : UInt8) :
    c.write (sregBlock n) a b = c.setSock n ((c.socks n).writeReg a b) := by
  have hd : sregBlock n / 4 = n := by rw [sregBlock]; omega
  have hm : sregBlock n % 4 = 1 := by rw [sregBlock]; omega
  rw [W5500.write, hd, if_pos hm]

section Specs

variable {R : Event → Prop} {P : η → W5500 → Prop} {n : Nat} {a : UInt16}

theorem getSnByte_spec {Q : UInt8 → η → W5500 → Prop} (hn : n < wizchipSockNum)
    (hst : Stable W5500.move R P) (h : ∀ u c, P u c → Q ((c.socks n).readReg a) u c) :
    DSpec R P (getSnByte a n) Q :=
  wizchipRead_spec (snReg_lt hn) hst fun u c hp => by
    rw [read_sregBlock]
    exact h u c hp

theorem setSnByte_spec {Q : η → W5500 → Prop} {b : UInt8} (hn : n < wizchipSockNum)
    (hst : Stable W5500.move R P)
    (h : ∀ u c, P u c → Q u (c.setSock n ((c.socks n).writeReg a b))) :
    DSpec R P (setSnByte a n b) (fun _ => Q) :=
  wizchipWrite_spec (snReg_lt hn) hst fun u c hp => by
    rw [write_sregBlock]
    exact h u c hp

theorem getSnWord_spec {Q : UInt16 → η → W5500 → Prop} {v : UInt16} (hn : n < wizchipSockNum)
    (ha : a.toNat < 65535) (hst : Stable W5500.move R P)
    (hhi : ∀ u c, P u c → (c.socks n).readReg a = hiByte v)
    (hlo : ∀ u c, P u c → (c.socks n).readReg (a + 1) = loByte v)
    (h : ∀ u c, P u c → Q v u c) : DSpec R P (getSnWord a n) Q := by
  refine (getSnByte_spec (Q := fun hi u c => hi = hiByte v ∧ P u c) hn hst
    fun u c hp => ⟨hhi u c hp, hp⟩).bind fun hi => .fact (fun u c hp => hp.1) fun h₁ => ?_
  rw [offsetInc_snReg hn ha]
  refine ((getSnByte_spec (Q := fun lo u c => lo = loByte v ∧ P u c) hn hst
    fun u c hp => ⟨hlo u c hp, hp⟩).pre fun u c hp => hp.2).bind fun lo =>
      .fact (fun u c hp => hp.1) fun h₂ => .pure fun u c hp => ?_
  rw [shift_add, h₁, h₂, ofBytes_hi_lo]
  exact h _ _ hp.2

/-- The high byte goes first, and the register is in between for a while. -/
theorem setSnWord_spec {S Q : η → W5500 → Prop} {v : UInt16} (hn : n < wizchipSockNum)
    (ha : a.toNat < 65535) (hst : Stable W5500.move R P) (hmid : Stable W5500.move R S)
    (hhi : ∀ u c, P u c → S u (c.setSock n ((c.socks n).writeReg a (hiByte v))))
    (hlo : ∀ u c, S u c → Q u (c.setSock n ((c.socks n).writeReg (a + 1) (loByte v)))) :
    DSpec R P (setSnWord a n v) (fun _ => Q) := by
  rw [setSnWord, shiftRight_toUInt8, toUInt8_eq, offsetInc_snReg hn ha]
  exact (setSnByte_spec hn hst hhi).bind fun _ => setSnByte_spec hn hmid hlo

end Specs

/-! A register that the chip counts up while it is read, one byte after the other. -/

section Sizes

variable {n : Nat} {a : UInt16} {reg : W5500 → UInt16} {R : Event → Prop} {I : η → W5500 → Prop}
  {H : UInt16 → Prop}

/-- In `I` the register `a` of socket `n` holds `reg`, which only grows, and `H` of it. -/
structure Counts (R : Event → Prop) (I : η → W5500 → Prop) (n : Nat) (a : UInt16)
    (reg : W5500 → UInt16) (H : UInt16 → Prop) : Prop where
  stable : Stable W5500.move R I
  up : ∀ e, R e → ∀ u c, I u c → reg c ≤ reg (c.move e)
  hi : ∀ u c, I u c → (c.socks n).readReg a = hiByte (reg c)
  lo : ∀ u c, I u c → (c.socks n).readReg (a + 1) = loByte (reg c)
  held : ∀ u c, I u c → H (reg c)

theorem hiByte_mono {v w : UInt16} (h : v ≤ w) : (hiByte v).toNat ≤ (hiByte w).toNat := by
  have hv := v.toNat_lt
  have hw := w.toNat_lt
  have hle := UInt16.le_iff_toNat_le.mp h
  rw [hiByte, hiByte, UInt8.toNat_ofNat', UInt8.toNat_ofNat']
  omega

theorem Counts.above (hc : Counts R I n a reg H) (p : Prop) (v : UInt16) :
    Stable W5500.move R fun u c => p ∧ v ≤ reg c ∧ I u c :=
  fun e he u c h => ⟨h.1, UInt16.le_trans h.2.1 (hc.up e he u c h.2.2), hc.stable e he u c h.2.2⟩

/-- The bytes of `x` belong to two values that the register has had since it was `v`. -/
structure Torn (H : UInt16 → Prop) (v x r₁ r₂ : UInt16) : Prop where
  above : v ≤ r₁
  order : r₁ ≤ r₂
  first : H r₁
  second : H r₂
  eq : x = ofBytes (hiByte r₁) (loByte r₂)

theorem Counts.torn (hc : Counts R I n a reg H) (hn : n < wizchipSockNum) (ha : a.toNat < 65535)
    (v : UInt16) :
    DSpec R (fun u c => v ≤ reg c ∧ I u c) (getSnWord a n) fun x u c =>
      ∃ r₁ r₂, Torn H v x r₁ r₂ ∧ r₂ ≤ reg c ∧ I u c := by
  refine ((getSnByte_spec (Q := fun x u c => ∃ r₁, (v ≤ r₁ ∧ H r₁ ∧ x = hiByte r₁) ∧ r₁ ≤ reg c ∧
    I u c) hn (hc.above True v) fun u c h =>
      ⟨reg c, ⟨h.2.1, hc.held u c h.2.2, hc.hi u c h.2.2⟩, UInt16.le_refl _, h.2.2⟩).pre
    fun u c h => ⟨trivial, h⟩).bind fun x => ?_
  refine .exists fun r₁ => ?_
  rw [offsetInc_snReg hn ha]
  refine (getSnByte_spec (Q := fun y u c => (v ≤ r₁ ∧ H r₁ ∧ x = hiByte r₁) ∧ ∃ r₂,
    (r₁ ≤ r₂ ∧ H r₂ ∧ y = loByte r₂) ∧ r₂ ≤ reg c ∧ I u c) hn (hc.above _ r₁) fun u c h =>
      ⟨h.1, reg c, ⟨h.2.1, hc.held u c h.2.2, hc.lo u c h.2.2⟩, UInt16.le_refl _, h.2.2⟩).bind
    fun y => .pure ?_
  rintro u c ⟨⟨hv, hH₁, rfl⟩, r₂, ⟨hle, hH₂, rfl⟩, hr⟩
  exact ⟨r₁, r₂, ⟨hv, hle, hH₁, hH₂, shift_add _ _⟩, hr⟩

theorem eq_of_agree {r₁ r₂ r₃ r₄ : UInt16} (h₁₂ : r₁ ≤ r₂) (h₂₃ : r₂ ≤ r₃)
    (h : ofBytes (hiByte r₁) (loByte r₂) = ofBytes (hiByte r₃) (loByte r₄)) :
    ofBytes (hiByte r₁) (loByte r₂) = r₂ := by
  have hm₁ := hiByte_mono h₁₂
  have hm₂ := hiByte_mono h₂₃
  have hl₂ := (loByte r₂).toNat_lt
  have hl₄ := (loByte r₄).toNat_lt
  have hh₁ := (hiByte r₁).toNat_lt
  have hh₃ := (hiByte r₃).toNat_lt
  have he := congrArg UInt16.toNat h
  rw [ofBytes, ofBytes, UInt16.toNat_ofNat', UInt16.toNat_ofNat'] at he
  have hhi : hiByte r₁ = hiByte r₂ := UInt8.toNat_inj.mp (by omega)
  rw [hhi, ofBytes_hi_lo]

/-- What the driver takes for the register: a value that the register has had while it was read,
or 0 read over a carry. It is never more than what is there when it goes on. -/
theorem Counts.getSnSize (hc : Counts R I n a reg H) (hn : n < wizchipSockNum)
    (ha : a.toNat < 65535) (v : UInt16) :
    DSpec R (fun u c => v ≤ reg c ∧ I u c) (getSnSize a n) fun x u c =>
      (v ≤ x ∧ H x ∨ x = 0 ∧ ∃ r₁ r₂, Torn H v 0 r₁ r₂ ∧ r₂ ≤ reg c) ∧ x ≤ reg c ∧ I u c := by
  refine Spec.loop (I := fun (_ : UInt16) (u : Host η) c => v ≤ reg c ∧ I u.vars c)
    (E := (· = Stop.blocked)) (fun val => ?_) rfl 0
  refine (hc.torn hn ha v).bind fun val1 => .exists fun r₁ => .exists fun r₂ =>
    .fact (fun u c h => h.1) fun h₁ => ?_
  have hup := UInt16.le_trans h₁.above h₁.order
  by_cases h0 : val1 ≠ 0
  · rw [if_pos h0]
    refine ((hc.torn hn ha r₂).pre fun u c h => h.2).bind fun val' => .exists fun r₃ =>
      .exists fun r₄ => .fact (fun u c h => h.1) fun h₂ => .pure fun u c h => ?_
    have hup' := UInt16.le_trans h₂.above h₂.order
    by_cases he : val' ≠ val1
    · rw [if_pos he]
      exact ⟨UInt16.le_trans (UInt16.le_trans hup hup') h.2.1, h.2.2⟩
    · rw [if_neg he]
      have hval : val' = r₂ := by
        have hag := not_not.mp he
        rw [hag, h₁.eq]
        exact eq_of_agree h₁.order h₂.above (by rw [← h₁.eq, ← h₂.eq, hag])
      rw [hval]
      exact ⟨Or.inl ⟨hup, h₁.second⟩, UInt16.le_trans hup' h.2.1, h.2.2⟩
  · rw [if_neg h0]
    refine .bind (Q := fun x u c => x = val ∧ r₂ ≤ reg c ∧ I u.vars c)
      (.pure fun u c h => ⟨rfl, h.2⟩) fun val' => .pure fun u c h => ?_
    rw [not_not.mp h0] at h₁ ⊢
    by_cases he : val' ≠ 0
    · rw [if_pos he]
      exact ⟨UInt16.le_trans hup h.2.1, h.2.2⟩
    · rw [if_neg he, not_not.mp he]
      exact ⟨Or.inr ⟨rfl, r₁, r₂, h₁, h.2.1⟩, UInt16.zero_le, h.2.2⟩

theorem Torn.carry {v r₁ r₂ : UInt16} (h : Torn H v 0 r₁ r₂) (hv : v ≠ 0) :
    v.toNat < 256 ∧ 256 ≤ r₂.toNat := by
  have hz : (0 : UInt16).toNat = 0 := rfl
  have h₁ := r₁.toNat_lt
  have h₂ := r₂.toNat_lt
  have hle := UInt16.le_iff_toNat_le.mp h.above
  have hle' := UInt16.le_iff_toNat_le.mp h.order
  have hpos : v.toNat ≠ 0 := fun h0 => hv (UInt16.toNat_inj.mp (by rw [h0, hz]))
  have he := congrArg UInt16.toNat h.eq
  rw [hz, ofBytes, UInt16.toNat_ofNat', hiByte, loByte, UInt8.toNat_ofNat',
    UInt8.toNat_ofNat'] at he
  omega

theorem Torn.eq_zero {v r₁ r₂ r : UInt16} (h : Torn (· = r) v 0 r₁ r₂) : r = 0 := by
  have he := h.eq
  rw [h.first, h.second, ofBytes_hi_lo] at he
  exact he.symm

end Sizes

end NucleoW5500.Spi
