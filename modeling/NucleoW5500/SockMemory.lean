import NucleoW5500.Registers

/-! What the two memories of a socket hold. The receive memory holds the end of what came in,
from the first byte that is not released; the transmit memory holds the end of what was given to
the chip, from the first byte that is not acknowledged. -/

namespace NucleoW5500.Chip

open RingBuffer

/-- The memories are a power of two in size and fit into the buffers of the driver. -/
structure Sock.Sized (k : Sock) : Prop where
  rxDvd : k.rxSize ∣ 65536
  txDvd : k.txSize ∣ 65536
  rxLe : k.rxSize + 3 ≤ Spi.maxWizBuf
  txLe : k.txSize + 3 ≤ Spi.maxWizBuf

/-- How many bytes have been read and released. -/
def Sock.handed (k : Sock) : Nat := k.received.length - k.rsr.toNat

structure Sock.RxHolds (k : Sock) : Prop where
  fits : k.rsr.toNat ≤ k.rxSize
  count : k.rsr.toNat ≤ k.received.length
  content : k.unread = k.received.drop k.handed

/-- The bytes that SEND has taken over and the peer has not acknowledged. -/
def Sock.pending (k : Sock) : Nat := (k.txEnd - k.txAck).toNat

/-- Those of them that have not gone out. -/
def Sock.unsent (k : Sock) : Nat := (k.txEnd - k.txRd).toNat

structure Sock.TxHolds (k : Sock) : Prop where
  fits : k.pending ≤ k.txSize
  count : k.pending ≤ k.given.length
  order : k.unsent ≤ k.pending
  content : window k.txMem k.txSize k.txAck.toNat k.pending =
    k.given.drop (k.given.length - k.pending)
  wire : k.wire = k.given.take (k.given.length - k.unsent)

section Pointers

theorem toNat_sub_add {p q : UInt16} {n : Nat} (h : (p - q).toNat + n < 65536) :
    (p + UInt16.ofNat n - q).toNat = (p - q).toNat + n := by
  have hp := p.toNat_lt
  have hq := q.toNat_lt
  simp only [UInt16.toNat_sub, UInt16.toNat_add, UInt16.toNat_ofNat'] at h ⊢
  omega

theorem toNat_sub_sub {p q : UInt16} {n : Nat} (h : n ≤ (p - q).toNat) :
    (p - (q + UInt16.ofNat n)).toNat = (p - q).toNat - n := by
  have hp := p.toNat_lt
  have hq := q.toNat_lt
  simp only [UInt16.toNat_sub, UInt16.toNat_add, UInt16.toNat_ofNat'] at h ⊢
  omega

theorem add_sub_congr {size : Nat} (hd : size ∣ 65536) (p q : UInt16) :
    q.toNat + (p - q).toNat ≡ p.toNat [MOD size] := by
  have hp := p.toNat_lt
  have hq := q.toNat_lt
  have h : q.toNat + (p - q).toNat ≡ p.toNat [MOD 65536] := by
    rw [UInt16.toNat_sub, Nat.ModEq]
    omega
  exact h.of_dvd hd

theorem add_congr {size : Nat} (hd : size ∣ 65536) (p : UInt16) (n : Nat) :
    (p + UInt16.ofNat n).toNat ≡ p.toNat + n [MOD size] := by
  have h : (p + UInt16.ofNat n).toNat ≡ p.toNat + n [MOD 65536] := by
    rw [UInt16.toNat_add, UInt16.toNat_ofNat', Nat.ModEq]
    omega
  exact h.of_dvd hd

end Pointers

namespace Sock

variable {k : Sock}

theorem Sized.rx_lt (hs : k.Sized) : k.rxSize < 65536 := by
  have h := hs.rxLe
  rw [Spi.maxWizBuf] at h
  omega

theorem Sized.tx_lt (hs : k.Sized) : k.txSize < 65536 := by
  have h := hs.txLe
  rw [Spi.maxWizBuf] at h
  omega

theorem length_unread (k : Sock) : k.unread.length = k.rsr.toNat := length_window ..

/-- New bytes that fit go behind the unread ones. -/
theorem rsr_take (hs : k.Sized) {bs : List UInt8} (hfit : k.rsr.toNat + bs.length ≤ k.rxSize) :
    (k.take bs).rsr.toNat = k.rsr.toNat + bs.length := by
  have h := hs.rx_lt
  have h' : (k.rxWr - k.rxDone).toNat + bs.length < 65536 := by
    rw [rsr] at hfit
    omega
  exact toNat_sub_add h'

theorem unread_take (hs : k.Sized) {bs : List UInt8} (hfit : k.rsr.toNat + bs.length ≤ k.rxSize) :
    (k.take bs).unread = k.unread ++ bs := by
  have hput : window (put k.rxMem k.rxSize (k.rxDone.toNat + k.rsr.toNat) bs) _ _ _ = _ :=
    window_put_append hfit
  rw [unread, rsr_take hs hfit, unread, ← hput]
  congr 1
  exact put_congr (add_sub_congr hs.rxDvd k.rxWr k.rxDone).symm bs

theorem handed_take (hs : k.Sized) {bs : List UInt8} (hfit : k.rsr.toNat + bs.length ≤ k.rxSize) :
    (k.take bs).handed = k.handed := by
  rw [handed, handed, rsr_take hs hfit, take, List.length_append]
  omega

theorem RxHolds.take (hs : k.Sized) (hr : k.RxHolds) {bs : List UInt8}
    (hfit : k.rsr.toNat + bs.length ≤ k.rxSize) : (k.take bs).RxHolds where
  fits := by rwa [rsr_take hs hfit]
  count := by
    have hc := hr.count
    rw [rsr_take hs hfit, Sock.take, List.length_append]
    omega
  content := by
    have hle : k.handed ≤ k.received.length := Nat.sub_le ..
    rw [unread_take hs hfit, handed_take hs hfit, hr.content, Sock.take,
      List.drop_append_of_le_length hle]

/-- RECV, when the host has moved `Sn_RX_RD` on by `n`. -/
def release (k : Sock) (n : Nat) : Sock := { k with rxDone := k.rxDone + UInt16.ofNat n }

theorem rsr_release {n : Nat} (h : n ≤ k.rsr.toNat) : (k.release n).rsr.toNat = k.rsr.toNat - n :=
  toNat_sub_sub h

theorem handed_release (hr : k.RxHolds) {n : Nat} (h : n ≤ k.rsr.toNat) :
    (k.release n).handed = k.handed + n := by
  have hc := hr.count
  rw [handed, rsr_release h, handed]
  show k.received.length - (k.rsr.toNat - n) = k.received.length - k.rsr.toNat + n
  omega

theorem RxHolds.release (hs : k.Sized) (hr : k.RxHolds) {n : Nat} (h : n ≤ k.rsr.toNat) :
    (k.release n).RxHolds where
  fits := by
    have hf := hr.fits
    rw [rsr_release h]
    exact (Nat.sub_le ..).trans hf
  count := by
    have hc := hr.count
    rw [rsr_release h]
    exact (Nat.sub_le ..).trans hc
  content := by
    have hdrop := drop_window k.rxMem k.rxSize k.rxDone.toNat h
    rw [handed_release hr h, Sock.unread, rsr_release h]
    show window k.rxMem k.rxSize (k.rxDone + UInt16.ofNat n).toNat _ = k.received.drop _
    rw [window_congr (add_congr hs.rxDvd k.rxDone n), ← hdrop, ← Sock.unread, hr.content,
      List.drop_drop]

/-- What SEND takes over when the host has stored `bs` and moved `Sn_TX_WR` on. -/
def hand (k : Sock) (bs : List UInt8) : Sock :=
  { k with txEnd := k.txEnd + UInt16.ofNat bs.length, given := k.given ++ bs }

theorem TxHolds.hand (hs : k.Sized) (ht : k.TxHolds) {bs : List UInt8}
    (hfit : k.pending + bs.length ≤ k.txSize)
    (hmem : window k.txMem k.txSize k.txEnd.toNat bs.length = bs) : (k.hand bs).TxHolds := by
  have hlt := hs.tx_lt
  have hp : (k.hand bs).pending = k.pending + bs.length := by
    have h' : (k.txEnd - k.txAck).toNat + bs.length < 65536 := by
      rw [pending] at hfit
      omega
    exact toNat_sub_add h'
  have hu : (k.hand bs).unsent = k.unsent + bs.length := by
    have h' : (k.txEnd - k.txRd).toNat + bs.length < 65536 := by
      have ho := ht.order
      rw [unsent] at ho
      omega
    exact toNat_sub_add h'
  have hc := ht.count
  have ho := ht.order
  have hg : (k.hand bs).given.length - (k.hand bs).pending = k.given.length - k.pending := by
    rw [hp, Sock.hand, List.length_append]
    omega
  have hw : (k.hand bs).given.length - (k.hand bs).unsent = k.given.length - k.unsent := by
    rw [hu, Sock.hand, List.length_append]
    omega
  constructor
  · rw [hp]
    exact hfit
  · rw [hp, Sock.hand, List.length_append]
    omega
  · rw [hp, hu]
    omega
  · rw [hg, hp]
    show window k.txMem k.txSize k.txAck.toNat _ = (k.given ++ bs).drop _
    have hpos : window k.txMem k.txSize _ bs.length = _ :=
      window_congr (add_sub_congr hs.txDvd k.txEnd k.txAck) bs.length
    rw [pending, window_add, hpos, hmem, ← pending, ht.content,
      List.drop_append_of_le_length (Nat.sub_le ..)]
  · rw [hw]
    show k.wire = (k.given ++ bs).take _
    rw [ht.wire, List.take_append_of_le_length (Nat.sub_le ..)]

theorem TxHolds.transmit (hs : k.Sized) (ht : k.TxHolds) (n : Nat) :
    (k.move (.transmit n)).TxHolds := by
  obtain ⟨m, hm⟩ : ∃ m, min n (k.txEnd - k.txRd).toNat = m := ⟨_, rfl⟩
  have hle : m ≤ k.unsent := by
    rw [← hm]
    exact Nat.min_le_right ..
  have hu : (k.move (.transmit n)).unsent = k.unsent - m := by
    rw [Sock.move, hm]
    exact toNat_sub_sub hle
  have ho := ht.order
  have hc := ht.count
  refine ⟨ht.fits, ht.count, ?_, ht.content, ?_⟩
  · rw [hu]
    exact (Nat.sub_le ..).trans ho
  · rw [hu, Sock.move, hm]
    show k.wire ++ window k.txMem k.txSize k.txRd.toNat m =
      k.given.take (k.given.length - (k.unsent - m))
    -- what goes out starts `pending - unsent` bytes behind the oldest one
    have hpos : k.txRd.toNat ≡ k.txAck.toNat + (k.pending - k.unsent) [MOD k.txSize] := by
      have h : k.txRd.toNat ≡ k.txAck.toNat + (k.pending - k.unsent) [MOD 65536] := by
        have h₁ := k.txRd.toNat_lt
        have h₂ := k.txAck.toNat_lt
        have h₃ := k.txEnd.toNat_lt
        simp only [pending, unsent, UInt16.toNat_sub, Nat.ModEq] at ho ⊢
        omega
      exact h.of_dvd hs.txDvd
    have hdrop := drop_window k.txMem k.txSize k.txAck.toNat (Nat.sub_le k.pending k.unsent)
    have htake := take_window k.txMem k.txSize (k.txAck.toNat + (k.pending - k.unsent))
      (show m ≤ k.pending - (k.pending - k.unsent) by omega)
    have hstart : k.given.length - k.pending + (k.pending - k.unsent) =
        k.given.length - k.unsent := by omega
    rw [window_congr hpos, ← htake, ← hdrop, ht.content, List.drop_drop, hstart, ht.wire,
      ← List.take_add]
    congr 1
    omega

theorem TxHolds.ack (hs : k.Sized) (ht : k.TxHolds) (n : Nat) : (k.move (.ack n)).TxHolds := by
  obtain ⟨m, hm⟩ : ∃ m, min n (k.txRd - k.txAck).toNat = m := ⟨_, rfl⟩
  have ho := ht.order
  have hc := ht.count
  have hle : m ≤ k.pending - k.unsent := by
    have h₁ := k.txRd.toNat_lt
    have h₂ := k.txAck.toNat_lt
    have h₃ := k.txEnd.toNat_lt
    simp only [pending, unsent, UInt16.toNat_sub] at hm ho ⊢
    omega
  have hp : (k.move (.ack n)).pending = k.pending - m := by
    rw [Sock.move, hm]
    exact toNat_sub_sub (show m ≤ k.pending by omega)
  have hf := ht.fits
  refine ⟨?_, ?_, ?_, ?_, ht.wire⟩
  · rw [hp]
    exact (Nat.sub_le ..).trans hf
  · rw [hp]
    exact (Nat.sub_le ..).trans hc
  · rw [hp]
    show k.unsent ≤ k.pending - m
    omega
  · rw [hp, Sock.move, hm]
    show window k.txMem k.txSize (k.txAck + UInt16.ofNat m).toNat (k.pending - m) =
      k.given.drop (k.given.length - (k.pending - m))
    rw [window_congr (add_congr hs.txDvd k.txAck m), ← drop_window _ _ _ (by omega), ht.content,
      List.drop_drop]
    congr 1
    omega

/-- There is no command for the chip to take. -/
theorem move_accept (k : Sock) {ptr : UInt16}
    (he : k.cr = 0 ∨ ∀ p, SockEvent.accept ptr ≠ .accept p) : k.move (.accept ptr) = k :=
  if_pos (he.resolve_right fun h => h ptr rfl)

/-- What a move of the chip keeps, unless the chip takes a command. -/
theorem RxHolds.move (hs : k.Sized) (hr : k.RxHolds) {e : SockEvent}
    (he : k.cr = 0 ∨ ∀ ptr, e ≠ .accept ptr) :
    (k.move e).RxHolds ∧ (k.move e).handed = k.handed ∧ k.rsr ≤ (k.move e).rsr := by
  have hfits := hr.fits
  cases e with
  | accept ptr =>
    rw [k.move_accept he]
    exact ⟨hr, rfl, UInt16.le_refl _⟩
  | arrive bs =>
    have hfit : k.rsr.toNat + (bs.take (k.rxSize - k.rsr.toNat)).length ≤ k.rxSize := by
      rw [List.length_take]
      omega
    refine ⟨hr.take hs hfit, handed_take hs hfit, ?_⟩
    rw [UInt16.le_iff_toNat_le, Sock.move, rsr_take hs hfit]
    omega
  | datagram bs =>
    rw [Sock.move]
    by_cases hle : bs.length ≤ k.rxSize - k.rsr.toNat
    · have hfit : k.rsr.toNat + bs.length ≤ k.rxSize := by omega
      rw [if_pos hle]
      refine ⟨hr.take hs hfit, handed_take hs hfit, ?_⟩
      rw [UInt16.le_iff_toNat_le, rsr_take hs hfit]
      omega
    · rw [if_neg hle]
      exact ⟨hr, rfl, UInt16.le_refl _⟩
  | status sr => exact ⟨⟨hr.fits, hr.count, hr.content⟩, rfl, UInt16.le_refl _⟩
  | transmit n => exact ⟨⟨hr.fits, hr.count, hr.content⟩, rfl, UInt16.le_refl _⟩
  | ack n => exact ⟨⟨hr.fits, hr.count, hr.content⟩, rfl, UInt16.le_refl _⟩
  | interrupt ir => exact ⟨⟨hr.fits, hr.count, hr.content⟩, rfl, UInt16.le_refl _⟩

theorem TxHolds.move (hs : k.Sized) (ht : k.TxHolds) {e : SockEvent}
    (he : k.cr = 0 ∨ ∀ ptr, e ≠ .accept ptr) : (k.move e).TxHolds := by
  cases e with
  | accept ptr =>
    rw [k.move_accept he]
    exact ht
  | arrive bs => exact ⟨ht.fits, ht.count, ht.order, ht.content, ht.wire⟩
  | datagram bs =>
    rw [Sock.move]
    split_ifs
    · exact ⟨ht.fits, ht.count, ht.order, ht.content, ht.wire⟩
    · exact ht
  | status sr => exact ⟨ht.fits, ht.count, ht.order, ht.content, ht.wire⟩
  | transmit n => exact ht.transmit hs n
  | ack n => exact ht.ack hs n
  | interrupt ir => exact ⟨ht.fits, ht.count, ht.order, ht.content, ht.wire⟩

/-- The parts of a socket that only commands and the host change. -/
structure Same (k k' : Sock) : Prop where
  page : k'.page = k.page
  cr : k'.cr = k.cr
  rxDone : k'.rxDone = k.rxDone
  txEnd : k'.txEnd = k.txEnd
  given : k'.given = k.given

theorem same_move (k : Sock) {e : SockEvent} (he : k.cr = 0 ∨ ∀ ptr, e ≠ .accept ptr) :
    k.Same (k.move e) := by
  cases e with
  | accept ptr =>
    rw [k.move_accept he]
    exact ⟨rfl, rfl, rfl, rfl, rfl⟩
  | datagram bs =>
    rw [Sock.move]
    split_ifs <;> exact ⟨rfl, rfl, rfl, rfl, rfl⟩
  | arrive | status | transmit | ack | interrupt => exact ⟨rfl, rfl, rfl, rfl, rfl⟩

theorem Sized.congr {k' : Sock} (hs : k.Sized) (hrx : k'.rxSize = k.rxSize)
    (htx : k'.txSize = k.txSize) : k'.Sized := by
  constructor
  · rw [hrx]
    exact hs.rxDvd
  · rw [htx]
    exact hs.txDvd
  · rw [hrx]
    exact hs.rxLe
  · rw [htx]
    exact hs.txLe

theorem Same.sized {k' : Sock} (h : k.Same k') (hs : k.Sized) : k'.Sized :=
  hs.congr (by rw [rxSize, rxSize, h.page]) (by rw [txSize, txSize, h.page])

theorem Same.word {k' : Sock} (h : k.Same k') (a : UInt16) : k'.word a = k.word a := by
  rw [Sock.word, Sock.word, h.page]

theorem received_move (k : Sock) {e : SockEvent} (he : k.cr = 0 ∨ ∀ ptr, e ≠ .accept ptr) :
    k.received <+: (k.move e).received := by
  cases e with
  | accept ptr =>
    simp [k.move_accept he]
  | arrive bs => exact List.prefix_append ..
  | datagram bs =>
    rw [Sock.move]
    split_ifs
    · exact List.prefix_append ..
    · exact List.prefix_refl _
  | status | transmit | ack | interrupt => exact List.prefix_refl _

/-- The memories are in order, the program has read `got` of what came in, and it has given
`gave` to the chip. -/
structure Holds (k : Sock) (got gave : List UInt8) : Prop where
  sized : k.Sized
  rx : k.RxHolds
  tx : k.TxHolds
  taken : k.received.take k.handed = got
  given : k.given = gave

variable {got gave bs : List UInt8}

theorem Holds.move (hk : k.Holds got gave) {e : SockEvent}
    (he : k.cr = 0 ∨ ∀ ptr, e ≠ .accept ptr) : (k.move e).Holds got gave := by
  have hsame := k.same_move he
  obtain ⟨hr, hh, -⟩ := hk.rx.move hk.sized he
  refine ⟨hsame.sized hk.sized, hr, hk.tx.move hk.sized he, ?_, hsame.given.trans hk.given⟩
  obtain ⟨bs, hbs⟩ := k.received_move he
  have hle : k.handed ≤ k.received.length := Nat.sub_le ..
  rw [hh, ← hbs, List.take_append_of_le_length hle, hk.taken]

theorem Holds.received (hk : k.Holds got gave) : k.received = got ++ k.unread := by
  rw [hk.rx.content, ← hk.taken, List.take_append_drop]

/-- What is unread only grows, at its end. -/
theorem prefix_move (hs : k.Sized) (hr : k.RxHolds) {e : SockEvent}
    (he : k.cr = 0 ∨ ∀ ptr, e ≠ .accept ptr) : k.unread <+: (k.move e).unread := by
  have hfits := hr.fits
  cases e with
  | accept ptr =>
    simp [k.move_accept he]
  | arrive bs =>
    rw [Sock.move, unread_take hs (by rw [List.length_take]; omega)]
    exact List.prefix_append ..
  | datagram bs =>
    rw [Sock.move]
    split_ifs with hle
    · rw [unread_take hs (by omega)]
      exact List.prefix_append ..
    · exact List.prefix_refl _
  | status | transmit | ack | interrupt => exact List.prefix_refl _

theorem fsr_toNat (hs : k.Sized) (hf : k.pending ≤ k.txSize) :
    k.fsr.toNat = k.txSize - k.pending := by
  have hlt := hs.tx_lt
  have hsub : (k.txEnd - k.txAck).toNat = k.pending := rfl
  rw [fsr, UInt16.toNat_sub, UInt16.toNat_ofNat', hsub]
  omega

theorem pending_move (ht : k.TxHolds) {e : SockEvent} (he : k.cr = 0 ∨ ∀ ptr, e ≠ .accept ptr) :
    (k.move e).pending ≤ k.pending := by
  cases e with
  | ack n =>
    have hle : min n (k.txRd - k.txAck).toNat ≤ k.pending := by
      have ho := ht.order
      have h₁ := k.txRd.toNat_lt
      have h₂ := k.txAck.toNat_lt
      have h₃ := k.txEnd.toNat_lt
      simp only [pending, unsent, UInt16.toNat_sub] at ho ⊢
      omega
    have hsub : (k.move (.ack n)).pending = k.pending - min n (k.txRd - k.txAck).toNat :=
      toNat_sub_sub hle
    rw [hsub]
    exact Nat.sub_le ..
  | accept ptr =>
    rw [k.move_accept he]
  | datagram bs =>
    rw [Sock.move]
    split_ifs <;> exact Nat.le_refl _
  | arrive | status | transmit | interrupt => exact Nat.le_refl _

theorem fsr_move (hs : k.Sized) (ht : k.TxHolds) {e : SockEvent}
    (he : k.cr = 0 ∨ ∀ ptr, e ≠ .accept ptr) : k.fsr ≤ (k.move e).fsr := by
  have hsame := k.same_move he
  have htx : (k.move e).txSize = k.txSize := by rw [txSize, txSize, hsame.page]
  have hp := pending_move ht he
  have hf := ht.fits
  rw [UInt16.le_iff_toNat_le, fsr_toNat hs hf, fsr_toNat (hsame.sized hs) (by omega), htx]
  omega

/-- The pointers that the host has written are those the chip works with. -/
structure Synced (k : Sock) (got gave : List UInt8) : Prop extends
    Holds k got gave where
  rd : k.word snRXRD = k.rxDone
  wr : k.word snTXWR = k.txEnd

theorem Synced.move (hk : k.Synced got gave) {e : SockEvent}
    (he : k.cr = 0 ∨ ∀ ptr, e ≠ .accept ptr) :
    (k.move e).Synced got gave := by
  have hsame := k.same_move he
  refine ⟨hk.toHolds.move he, ?_, ?_⟩
  · rw [hsame.word, hsame.rxDone, hk.rd]
  · rw [hsame.word, hsame.txEnd, hk.wr]

/-! What the host writes on the page. -/

theorem writeReg_page {a : UInt16} {b : UInt8} (ha : a ≠ snCR) (ha' : a ≠ snIR) :
    k.writeReg a b = k.setByte a b := by
  rw [writeReg, if_neg ha, if_neg ha']

theorem page_setByte (k : Sock) (a : UInt16) (b : UInt8) :
    (k.setByte a b).page = Function.update k.page a.toNat b := rfl

theorem word_setByte {a a' : UInt16} {b : UInt8} (h₀ : a'.toNat ≠ a.toNat)
    (h₁ : a'.toNat + 1 ≠ a.toNat) : (k.setByte a b).word a' = k.word a' := by
  rw [word, word, page_setByte, Function.update_of_ne h₀, Function.update_of_ne h₁]

theorem word_setWord {a v : UInt16} (ha : a.toNat < 65535) : (k.setWord a v).word a = v := by
  have h1 : (1 : UInt16).toNat = 1 := rfl
  have hsucc : (a + 1).toNat = a.toNat + 1 := by
    rw [UInt16.toNat_add, h1]
    omega
  rw [word, setWord, page_setByte, page_setByte, hsucc, Function.update_self,
    Function.update_of_ne (Nat.succ_ne_self _).symm, Function.update_self, Spi.ofBytes_hi_lo]

theorem rxSize_setByte {a : UInt16} {b : UInt8} (ha : snRXBUFSIZE.toNat ≠ a.toNat) :
    (k.setByte a b).rxSize = k.rxSize := by
  rw [rxSize, rxSize, page_setByte, Function.update_of_ne ha]

theorem txSize_setByte {a : UInt16} {b : UInt8} (ha : snTXBUFSIZE.toNat ≠ a.toNat) :
    (k.setByte a b).txSize = k.txSize := by
  rw [txSize, txSize, page_setByte, Function.update_of_ne ha]

theorem unread_setByte {a : UInt16} {b : UInt8} (ha : snRXBUFSIZE.toNat ≠ a.toNat) :
    (k.setByte a b).unread = k.unread := by
  rw [unread, rxSize_setByte ha]
  rfl

theorem Sized.setByte (hs : k.Sized) {a : UInt16} {b : UInt8}
    (hrx : snRXBUFSIZE.toNat ≠ a.toNat) (htx : snTXBUFSIZE.toNat ≠ a.toNat) :
    (k.setByte a b).Sized :=
  hs.congr (rxSize_setByte hrx) (txSize_setByte htx)

theorem Holds.setByte (hk : k.Holds got gave) {a : UInt16} {b : UInt8}
    (hrx : snRXBUFSIZE.toNat ≠ a.toNat) (htx : snTXBUFSIZE.toNat ≠ a.toNat) :
    (k.setByte a b).Holds got gave := by
  have hr := rxSize_setByte (k := k) (b := b) hrx
  have ht := txSize_setByte (k := k) (b := b) htx
  refine ⟨hk.sized.setByte hrx htx, ⟨?_, hk.rx.count, ?_⟩,
    ⟨?_, hk.tx.count, hk.tx.order, ?_, hk.tx.wire⟩, hk.taken, hk.given⟩
  · rw [hr]
    exact hk.rx.fits
  · rw [Sock.unread, hr]
    exact hk.rx.content
  · rw [ht]
    exact hk.tx.fits
  · rw [ht]
    exact hk.tx.content

/-- `Sn_CR`, `Sn_IR` and `Sn_SR` are not part of it. -/
theorem Holds.control (hk : k.Holds got gave) (cr ir sr : UInt8) :
    { k with cr := cr, ir := ir, sr := sr }.Holds got gave :=
  ⟨⟨hk.sized.rxDvd, hk.sized.txDvd, hk.sized.rxLe, hk.sized.txLe⟩,
    ⟨hk.rx.fits, hk.rx.count, hk.rx.content⟩,
    ⟨hk.tx.fits, hk.tx.count, hk.tx.order, hk.tx.content, hk.tx.wire⟩, hk.taken, hk.given⟩

theorem Synced.control (hk : k.Synced got gave) (cr ir sr : UInt8) :
    { k with cr := cr, ir := ir, sr := sr }.Synced got gave :=
  ⟨hk.toHolds.control cr ir sr, hk.rd, hk.wr⟩

theorem Holds.release (hk : k.Holds got gave) (hbs : bs <+: k.unread) :
    (k.release bs.length).Holds (got ++ bs) gave := by
  have hle : bs.length ≤ k.rsr.toNat := by
    rw [← length_unread]
    exact hbs.length_le
  refine ⟨⟨hk.sized.rxDvd, hk.sized.txDvd, hk.sized.rxLe, hk.sized.txLe⟩,
    hk.rx.release hk.sized hle,
    ⟨hk.tx.fits, hk.tx.count, hk.tx.order, hk.tx.content, hk.tx.wire⟩, ?_, hk.given⟩
  obtain ⟨rest, hrest⟩ := hbs
  rw [handed_release hk.rx hle, ← hk.taken]
  show k.received.take _ = _
  rw [List.take_add, ← hk.rx.content, ← hrest, List.take_left]

/-! What a command does. -/

theorem command_recv {ptr : UInt16} (hcr : k.cr = snCrRecv) :
    k.command ptr = { k with rxDone := k.word snRXRD } := by
  rw [command, if_neg (by rw [hcr]; decide), if_neg (by rw [hcr]; decide),
    if_neg (by rw [hcr]; decide), if_neg (by rw [hcr]; decide), if_pos hcr]

theorem command_send {ptr : UInt16} (hcr : k.cr = snCrSend) : k.command ptr = k.sendCommand := by
  rw [command, if_neg (by rw [hcr]; decide), if_neg (by rw [hcr]; decide),
    if_neg (by rw [hcr]; decide), if_pos hcr]

theorem command_close {ptr : UInt16} (hcr : k.cr = snCrClose) :
    k.command ptr = { k with sr := sockClosed } := by
  rw [command, if_neg (by rw [hcr]; decide), if_neg (by rw [hcr]; decide), if_pos hcr]

theorem command_discon {ptr : UInt16} (hcr : k.cr = snCrDiscon) : k.command ptr = k := by
  rw [command, if_neg (by rw [hcr]; decide), if_neg (by rw [hcr]; decide),
    if_neg (by rw [hcr]; decide), if_neg (by rw [hcr]; decide), if_neg (by rw [hcr]; decide)]

end Sock

end NucleoW5500.Chip
