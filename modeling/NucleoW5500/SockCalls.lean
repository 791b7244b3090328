import Mathlib.Data.List.Infix
import NucleoW5500.SocketDriver

/-! The steps that the calls of the socket library share, and what they keep of a socket. What
the driver knows about it between two accesses must outlast the moves of the chip. -/

namespace NucleoW5500.Driver

open CString Chip Interleaved RingBuffer Spi

variable {R : Event → Prop} {n : Nat} {Φ Ψ : Statics → Prop} {A B : Sock → Prop}

/-- The moves of socket `n` that are in `R` keep `A`, unless the chip takes a command, and so do
writes to the registers outside the page. -/
structure Lasting (R : Event → Prop) (n : Nat) (A : Sock → Prop) : Prop where
  move : ∀ k e, R ⟨n, e⟩ → A k → (k.cr = 0 ∨ ∀ ptr, e ≠ .accept ptr) → A (k.move e)
  control : ∀ k cr ir sr, A k → A { k with cr, ir, sr }

/-- No command is on its way to socket `n`, and `Φ` and `A` hold. -/
def Calm (n : Nat) (Φ : Statics → Prop) (A : Sock → Prop) (v : Statics) (c : W5500) : Prop :=
  Φ v ∧ (c.socks n).cr = 0 ∧ A (c.socks n)

theorem Lasting.and (hA : Lasting R n A) (hB : Lasting R n B) : Lasting R n fun k => A k ∧ B k where
  move k e he hk hc := ⟨hA.move k e he hk.1 hc, hB.move k e he hk.2 hc⟩
  control k cr ir sr hk := ⟨hA.control k cr ir sr hk.1, hB.control k cr ir sr hk.2⟩

theorem lasting_synced (got gave : List UInt8) : Lasting R n (·.Synced got gave) where
  move _ _ _ hk he := hk.move he
  control _ cr ir sr hk := hk.control cr ir sr

section Chip

theorem socks_move (c : W5500) (e : Event) (n : Nat) :
    (c.move e).socks n = if e.sn = n then (c.socks n).move e.what else c.socks n := by
  rw [W5500.move, W5500.setSock]
  by_cases h : e.sn = n
  · subst h
    rw [if_pos rfl]
    exact Function.update_self ..
  · rw [if_neg h]
    exact Function.update_of_ne (Ne.symm h) ..

@[simp] theorem setSock_self (c : W5500) (n : Nat) (k : Sock) : (c.setSock n k).socks n = k :=
  Function.update_self ..

/-- An assertion about one socket. -/
theorem stable_socks {P : Statics → Sock → Prop}
    (h : ∀ v k e, R ⟨n, e⟩ → P v k → P v (k.move e)) :
    Stable W5500.move R fun v c => P v (c.socks n) := by
  intro e he v c hp
  show P v ((c.move e).socks n)
  rw [socks_move]
  split_ifs with hn
  · subst hn
    exact h v _ _ he hp
  · exact hp

theorem Lasting.stable (hA : Lasting R n A) : Stable W5500.move R (Calm n Φ A) :=
  stable_socks (P := fun v k => Φ v ∧ k.cr = 0 ∧ A k) fun _ k e he hp =>
    ⟨hp.1, (k.same_move (Or.inl hp.2.1)).cr.trans hp.2.1, hA.move k e he hp.2.2 (Or.inl hp.2.1)⟩

end Chip

theorem Calm.rx {got gave : List UInt8} (hA : ∀ k, A k → k.Synced got gave) (v : Statics) (c : W5500)
    (h : Calm n Φ A v c) : (c.socks n).cr = 0 ∧ (c.socks n).Sized ∧ (c.socks n).RxHolds :=
  ⟨h.2.1, (hA _ h.2.2).sized, (hA _ h.2.2).rx⟩

theorem Calm.tx {got gave : List UInt8} (hA : ∀ k, A k → k.Synced got gave) (v : Statics) (c : W5500)
    (h : Calm n Φ A v c) : (c.socks n).cr = 0 ∧ (c.socks n).Sized ∧ (c.socks n).TxHolds :=
  ⟨h.2.1, (hA _ h.2.2).sized, (hA _ h.2.2).tx⟩

section Registers

theorem getVars_spec {P : Statics → W5500 → Prop} {Q : Statics → Statics → W5500 → Prop}
    (h : ∀ v c, P v c → Q v v c) : DSpec R P getVars Q :=
  (Spec.getHost (Q := fun (u u' : Host Statics) c => Q u.vars u'.vars c)
    fun u c hp => h u.vars c hp).bind fun _ => .pure fun _ _ hq => hq

theorem modifyVars_rule {P Q : Statics → W5500 → Prop} {f : Statics → Statics}
    (h : ∀ v c, P v c → Q (f v) c) : DSpec R P (modifyVars f) fun _ => Q := by
  refine (getVars_spec (Q := fun v v' c => v = v' ∧ P v' c) fun v c hp => ⟨rfl, hp⟩).bind
    fun v => ?_
  refine (Spec.getHost (Q := fun (u u' : Host Statics) c => v = u.vars ∧ P u.vars c)
    fun u c hp => hp).bind fun u => .setHost ?_
  rintro u' c ⟨rfl, hp⟩
  exact h _ c hp

theorem modifyVars_spec {f : Statics → Statics} (h : ∀ v, Φ v → Ψ (f v)) :
    DSpec R (Calm n Φ A) (modifyVars f) fun _ => Calm n Ψ A :=
  modifyVars_rule fun _ _ hp => ⟨h _ hp.1, hp.2⟩

/-- A reading of which nothing is needed. -/
theorem getSnByte_calm (a : UInt16) (hn : n < wizchipSockNum) (hA : Lasting R n A) :
    DSpec R (Calm n Φ A) (getSnByte a n) fun _ => Calm n Φ A :=
  getSnByte_spec hn hA.stable fun _ _ hp => hp

theorem badMode_spec {P : Statics → W5500 → Prop} (mode : UInt8) (hn : n < wizchipSockNum)
    (hP : Stable W5500.move R P) : DSpec R P (badMode n mode) fun _ => P :=
  (getSnByte_spec (Q := fun _ => P) hn hP fun _ _ hp => hp).bind fun _ => .pure fun _ _ hp => hp

theorem setSnIr_spec (b : UInt8) (hn : n < wizchipSockNum) (hA : Lasting R n A) :
    DSpec R (Calm n Φ A) (setSnByte snIR n b) fun _ => Calm n Φ A := by
  refine setSnByte_spec hn hA.stable fun v c hp => ?_
  rw [Calm, setSock_self]
  exact ⟨hp.1, hp.2.1, hA.control _ _ _ _ hp.2.2⟩

/-- Nothing happens between the reading that ends the wait and the return. -/
theorem waitSr_spec {p : UInt8 → Bool} (hn : n < wizchipSockNum) (hA : Lasting R n A) :
    DSpec R (Calm n Φ A) (waitSr n p) fun _ v c => p (c.socks n).sr = true ∧ Calm n Φ A v c := by
  refine Spec.poll (E := (· = Stop.blocked)) ?_ rfl
  refine (getSnByte_spec (Q := fun x v c => x = (c.socks n).sr ∧ Calm n Φ A v c) hn hA.stable
    fun v c hp => ⟨rfl, hp⟩).bind fun x => .pure fun u c hp => ?_
  by_cases hx : p x = true
  · rw [if_pos hx]
    exact ⟨hp.1 ▸ hx, hp.2⟩
  · rw [if_neg hx]
    exact hp.2

/-- Both bytes of a register of the page. `A` is about none of the two. -/
theorem setSnWord_page {a x : UInt16} (hn : n < wizchipSockNum) (ha : snIR.toNat < a.toNat)
    (ha' : a.toNat < 65535) (hA : Lasting R n A)
    (hset : ∀ k b, A k → A (k.setByte a b) ∧ A (k.setByte (a + 1) b)) :
    DSpec R (Calm n Φ A) (setSnWord a n x) fun _ => Calm n Φ fun k => A k ∧ k.word a = x := by
  have h1 : (1 : UInt16).toNat = 1 := rfl
  have h2 : snIR.toNat = 2 := rfl
  have h3 : snCR.toNat = 1 := rfl
  have hsucc : (a + 1).toNat = a.toNat + 1 := by
    rw [UInt16.toNat_add, h1]
    omega
  have hne : ∀ b : UInt16, snIR.toNat < b.toNat → b ≠ snCR ∧ b ≠ snIR := by
    refine fun b hb => ⟨?_, ?_⟩ <;> rintro rfl <;> omega
  obtain ⟨hc, hi⟩ := hne a ha
  obtain ⟨hc', hi'⟩ := hne (a + 1) (by omega)
  have hhi : Lasting R n fun k => A k ∧ k.page a.toNat = hiByte x := by
    refine ⟨fun k e he hk hcr => ⟨hA.move k e he hk.1 hcr, ?_⟩,
      fun k cr ir sr hk => ⟨hA.control k cr ir sr hk.1, hk.2⟩⟩
    rw [(k.same_move hcr).page, hk.2]
  refine setSnWord_spec (S := Calm n Φ fun k => A k ∧ k.page a.toNat = hiByte x) hn ha' hA.stable
    hhi.stable ?_ ?_
  · intro v c hp
    rw [Calm, setSock_self, Sock.writeReg_page hc hi]
    refine ⟨hp.1, hp.2.1, (hset _ _ hp.2.2).1, ?_⟩
    rw [Sock.page_setByte, Function.update_self]
  · intro v c hp
    rw [Calm, setSock_self, Sock.writeReg_page hc' hi']
    refine ⟨hp.1, hp.2.1, (hset _ _ hp.2.2.1).2, ?_⟩
    rw [Sock.word, Sock.page_setByte, hsucc, Function.update_self,
      Function.update_of_ne (Nat.succ_ne_self _).symm, hp.2.2.2, ofBytes_hi_lo]

theorem readReg_word {a : UInt16} {k : Sock} (h : a = snTXWR ∨ a = snRXRD) :
    k.readReg a = hiByte (k.word a) ∧ k.readReg (a + 1) = loByte (k.word a) := by
  have hb : ∀ x y : UInt8, hiByte (ofBytes x y) = x ∧ loByte (ofBytes x y) = y := by
    intro x y
    have hx := x.toNat_lt
    have hy := y.toNat_lt
    constructor
    all_goals
      rw [← UInt8.toNat_inj]
      simp only [hiByte, loByte, ofBytes, UInt8.toNat_ofNat', UInt16.toNat_ofNat']
      omega
  rw [Sock.word, (hb _ _).1, (hb _ _).2]
  rcases h with rfl | rfl <;> exact ⟨rfl, rfl⟩

theorem getSnWord_page {a x : UInt16} (hn : n < wizchipSockNum) (ha : a = snTXWR ∨ a = snRXRD)
    (hA : Lasting R n A) (hx : ∀ k, A k → k.word a = x) :
    DSpec R (Calm n Φ A) (getSnWord a n) fun y v c => y = x ∧ Calm n Φ A v c := by
  have hlt : a.toNat < 65535 := by rcases ha with rfl | rfl <;> decide
  refine getSnWord_spec (v := x) hn hlt hA.stable ?_ ?_ fun v c hp => ⟨rfl, hp⟩
  · intro v c hp
    rw [(readReg_word ha).1, hx _ hp.2.2]
  · intro v c hp
    rw [(readReg_word ha).2, hx _ hp.2.2]

/-- The count of bytes received only goes up, as long as nothing is released. -/
theorem counts_rsr {P : Statics → W5500 → Prop} {H : UInt16 → Prop} (hP : Stable W5500.move R P)
    (hrx : ∀ v c, P v c → (c.socks n).cr = 0 ∧ (c.socks n).Sized ∧ (c.socks n).RxHolds)
    (hH : ∀ v c, P v c → H (c.socks n).rsr) :
    Counts R P n snRXRSR (fun c => (c.socks n).rsr) H where
  stable := hP
  up e _ v c hp := by
    obtain ⟨hc, hs, hr⟩ := hrx v c hp
    rw [socks_move]
    split_ifs
    · exact (hr.move hs (Or.inl hc)).2.2
    · exact UInt16.le_refl _
  hi _ _ _ := rfl
  lo _ _ _ := rfl
  held := hH

theorem counts_fsr {P : Statics → W5500 → Prop} {H : UInt16 → Prop} (hP : Stable W5500.move R P)
    (htx : ∀ v c, P v c → (c.socks n).cr = 0 ∧ (c.socks n).Sized ∧ (c.socks n).TxHolds)
    (hH : ∀ v c, P v c → H (c.socks n).fsr) :
    Counts R P n snTXFSR (fun c => (c.socks n).fsr) H where
  stable := hP
  up e _ v c hp := by
    obtain ⟨hc, hs, ht⟩ := htx v c hp
    rw [socks_move]
    split_ifs
    · exact Sock.fsr_move hs ht (Or.inl hc)
    · exact UInt16.le_refl _
  hi _ _ _ := rfl
  lo _ _ _ := rfl
  held := hH

end Registers

section Commands

/-- `A` holds while the command waits in `Sn_CR`, and `B` from when the chip takes it. -/
theorem command_spec {cr : UInt8} (hn : n < wizchipSockNum) (hcr : cr ≠ 0) (hA : Lasting R n A)
    (hB : Lasting R n B) (hAB : ∀ k ptr, A k → k.cr = cr → B (k.command ptr)) :
    DSpec R (Calm n Φ A) (command n cr) fun _ => Calm n Φ B := by
  have hwait : Stable W5500.move R fun v c => Φ v ∧
      ((c.socks n).cr = cr ∧ A (c.socks n) ∨ (c.socks n).cr = 0 ∧ B (c.socks n)) := by
    refine stable_socks (P := fun v k => Φ v ∧ (k.cr = cr ∧ A k ∨ k.cr = 0 ∧ B k)) ?_
    rintro v k e hR ⟨hv, ⟨hk, ha⟩ | ⟨hk, hb⟩⟩
    · by_cases he : ∃ ptr, e = .accept ptr
      · obtain ⟨ptr, rfl⟩ := he
        rw [Sock.move, if_neg (by rw [hk]; exact hcr)]
        exact ⟨hv, Or.inr ⟨rfl, hB.control _ 0 _ _ (hAB k ptr ha hk)⟩⟩
      · have hne : ∀ ptr, e ≠ .accept ptr := fun ptr h => he ⟨ptr, h⟩
        exact ⟨hv, Or.inl ⟨(k.same_move (Or.inr hne)).cr.trans hk, hA.move k e hR ha (Or.inr hne)⟩⟩
    · exact ⟨hv, Or.inr ⟨(k.same_move (Or.inl hk)).cr.trans hk, hB.move k e hR hb (Or.inl hk)⟩⟩
  refine (setSnByte_spec (Q := fun v c => Φ v ∧ ((c.socks n).cr = cr ∧ A (c.socks n) ∨
    (c.socks n).cr = 0 ∧ B (c.socks n))) hn hA.stable ?_).bind fun _ => ?_
  · intro v c hp
    rw [setSock_self, Sock.writeReg, if_pos rfl]
    exact ⟨hp.1, Or.inl ⟨rfl, hA.control _ cr _ _ hp.2.2⟩⟩
  · refine Spec.poll (E := (· = Stop.blocked)) ?_ rfl
    refine (getSnByte_spec (a := snCR) (Q := fun x v c => (x = 0 → (c.socks n).cr = 0) ∧ Φ v ∧
      ((c.socks n).cr = cr ∧ A (c.socks n) ∨ (c.socks n).cr = 0 ∧ B (c.socks n))) hn hwait
        fun v c hp => ⟨fun hx => hx, hp⟩).bind fun x => .pure ?_
    rintro u c ⟨hx, hp⟩
    by_cases h0 : x = 0
    · rw [if_pos h0]
      rcases hp with ⟨hv, ⟨hk, -⟩ | hb⟩
      · exact absurd (hk.symm.trans (hx h0)) hcr
      · exact ⟨hv, hb⟩
    · rw [if_neg h0]
      exact hp

/-- `close` keeps what is in the memories, and with it what has not been read. -/
theorem close_spec (hn : n < wizchipSockNum) (hA : Lasting R n A)
    (hf : ∀ v, Φ v → Ψ (v.forget n)) :
    DSpec R (Calm n Φ A) (close n) fun _ => Calm n Ψ A := by
  rw [close, if_neg (by omega)]
  refine (command_spec hn (by decide) hA hA fun k ptr hk hcr => ?_).bind fun _ => ?_
  · rw [Sock.command_close hcr]
    exact hA.control k k.cr k.ir sockClosed hk
  refine (setSnIr_spec 0xFF hn hA).bind fun _ => (modifyVars_spec hf).bind fun _ => ?_
  exact (waitSr_spec hn hA).bind fun _ => .pure fun u c hp => hp.2

end Commands

end NucleoW5500.Driver
