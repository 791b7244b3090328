import NucleoW5500.Receiver
import NucleoW5500.Transducer

/-! The packet stream without its calls: a machine that reads one byte at a time,
and the wire format it takes apart. Its counter numbers the packet allocations. -/

namespace NucleoW5500

open CString

/-- A packet on the wire. The size field holds the length of its data. -/
structure WirePacket where
  version : UInt8
  flag : UInt8
  type : UInt8
  data : List UInt8
  fits : data.length < 65536

def WirePacket.header (p : WirePacket) : List UInt8 :=
  [rcFs, rcMagic, p.version, p.flag, p.type] ++ encode16 (UInt16.ofNat p.data.length) ++ [rcGs]

def WirePacket.bytes (p : WirePacket) : List UInt8 := p.header ++ p.data

def wireBytes (ps : List WirePacket) : List UInt8 := ps.flatMap WirePacket.bytes

/-- The record of a packet whose data is being received, `data_size` bytes long. -/
def partialRecord (h acc : List UInt8) : TcpPacket3 :=
  tcpPacket3HeaderToField h
    { TcpPacket3.zero 0 with
      header := h
      data := acc ++ List.replicate ((getTcpPacket3HeaderDataSize h).toNat - acc.length) 0 }

def finishedRecord (h data : List UInt8) : TcpPacket3 := fillTcpPacket3DataField (partialRecord h data)

def WirePacket.record (p : WirePacket) : TcpPacket3 := finishedRecord p.header p.data

structure WirePacket.Received (p : WirePacket) (r : TcpPacket3) : Prop where
  header : r.header = p.header
  data : r.data = p.data
  version : r.version = p.version
  flag : r.flag = p.flag
  type : r.type = p.type
  dataSize : r.dataSize.toNat = p.data.length

inductive Phase
  | header (acc : List UInt8)
  | data (addr : Nat) (h acc : List UInt8)
  | skip (remain : Nat)
  deriving DecidableEq, Repr

/-- Eight bytes of header have come in. A window to which C gives no next state is rejected. -/
def closeWindow (env : HeapEnv) (next : Nat) (window : List UInt8) :
    Option ((Nat × Phase) × List (Block TcpPacket3)) :=
  let size := (getTcpPacket3HeaderDataSize window).toNat
  let start := containsTcpPacket3Fragment window
  if isTcpPacket3Header window then
    if env.ok next then
      if size = 0 then some ((next + 1, .header []), [⟨next, finishedRecord window []⟩])
      else some ((next + 1, .data next window []), [])
    else some ((next + 1, if size = 0 then .header [] else .skip size), [])
  else if start < 0 then none
  else some ((next, .header (window.drop start.toNat)), [])

section CloseWindow

variable {env : HeapEnv} {n : Nat} {window : List UInt8}

theorem closeWindow_empty (hh : isTcpPacket3Header window = true)
    (hz : (getTcpPacket3HeaderDataSize window).toNat = 0) :
    closeWindow env n window = some ((n + 1, .header []),
      if env.ok n then [⟨n, finishedRecord window []⟩] else []) := by
  cases hok : env.ok n <;> simp [closeWindow, hh, hz, hok]

theorem closeWindow_data (hh : isTcpPacket3Header window = true) (hok : env.ok n = true)
    (hz : (getTcpPacket3HeaderDataSize window).toNat ≠ 0) :
    closeWindow env n window = some ((n + 1, .data n window []), []) := by
  simp [closeWindow, hh, hok, hz]

theorem closeWindow_skip (hh : isTcpPacket3Header window = true) (hok : env.ok n = false)
    (hz : (getTcpPacket3HeaderDataSize window).toNat ≠ 0) :
    closeWindow env n window =
      some ((n + 1, .skip (getTcpPacket3HeaderDataSize window).toNat), []) := by
  simp [closeWindow, hh, hok, hz]

theorem closeWindow_shift {k : Nat} (hh : isTcpPacket3Header window = false)
    (hk : containsTcpPacket3Fragment window = k) :
    closeWindow env n window = some ((n, .header (window.drop k)), []) := by
  simp [closeWindow, hh, hk]

theorem closeWindow_reject (hh : isTcpPacket3Header window = false)
    (hk : containsTcpPacket3Fragment window = -1) : closeWindow env n window = none := by
  simp [closeWindow, hh, hk]

end CloseWindow

def framer (env : HeapEnv) : Transducer (Nat × Phase) UInt8 (Block TcpPacket3) where
  step
    | (n, .header acc), b =>
      if acc.length + 1 < tcpPacket3HeaderSize then some ((n, .header (acc ++ [b])), [])
      else closeWindow env n (acc ++ [b])
    | (n, .data addr h acc), b =>
      if acc.length + 1 < (getTcpPacket3HeaderDataSize h).toNat then
        some ((n, .data addr h (acc ++ [b])), [])
      else some ((n, .header []), [⟨addr, finishedRecord h (acc ++ [b])⟩])
    | (n, .skip remain), _ => some ((n, if remain ≤ 1 then .header [] else .skip (remain - 1)), [])

/-- The packets a stream delivers when the allocations are numbered from `n`. -/
def delivered (env : HeapEnv) : Nat → List WirePacket → List (Block TcpPacket3)
  | _, [] => []
  | n, p :: ps => (if env.ok n then [⟨n, p.record⟩] else []) ++ delivered env (n + 1) ps

theorem containsTcpPacket3Fragment_range (window : List UInt8) :
    containsTcpPacket3Fragment window = -1 ∨
      1 ≤ containsTcpPacket3Fragment window ∧ containsTcpPacket3Fragment window ≤ 7 := by
  unfold containsTcpPacket3Fragment
  cases h : memchr window rcFs 1 (tcpPacket3HeaderSize - 1) with
  | none => exact Or.inl rfl
  | some p =>
    obtain ⟨h₁, h₂, -, -⟩ := memchr_eq_some.mp h
    simp only [tcpPacket3HeaderSize] at h₂ ⊢
    by_cases h₃ : p = 7
    · simp [h₃]
    · by_cases h₄ : peek window (p + 1) = rcMagic
      · right
        simp only [h₄, if_true]
        rw [if_neg (by omega)]
        omega
      · left
        simp [h₃, h₄]

section Bulk

variable (env : HeapEnv) (n : Nat)

theorem framer_header_short {acc bs : List UInt8} (h : acc.length + bs.length < 8) :
    (framer env).run (n, .header acc) bs = some ((n, .header (acc ++ bs)), []) := by
  induction bs generalizing acc with
  | nil => simp
  | cons b bs ih =>
    simp only [List.length_cons] at h
    have hs : (framer env).step (n, .header acc) b = some ((n, .header (acc ++ [b])), []) := by
      have hlt : acc.length + 1 < 8 := by omega
      simp [framer, tcpPacket3HeaderSize, hlt]
    have hlen : (acc ++ [b]).length = acc.length + 1 := by simp
    rw [Transducer.run_cons, hs, Option.bind_some, ih (by omega)]
    simp

theorem framer_header_full {acc bs : List UInt8} (hacc : acc.length < 8)
    (h : acc.length + bs.length = 8) :
    (framer env).run (n, .header acc) bs = closeWindow env n (acc ++ bs) := by
  obtain rfl | ⟨init, b, rfl⟩ := List.eq_nil_or_concat' bs
  · simp at h; omega
  simp only [List.length_append, List.length_singleton] at h
  have hs : (framer env).step (n, .header (acc ++ init)) b = closeWindow env n (acc ++ init ++ [b]) := by
    have hge : ¬ acc.length + init.length + 1 < 8 := by omega
    simp [framer, tcpPacket3HeaderSize, hge]
  rw [Transducer.run_append_of_some (framer_header_short env n (by omega)),
    Transducer.run_singleton, hs, List.append_assoc]
  cases closeWindow env n (acc ++ (init ++ [b])) <;> simp

theorem framer_data_short {addr : Nat} {h acc bs : List UInt8}
    (hlt : acc.length + bs.length < (getTcpPacket3HeaderDataSize h).toNat) :
    (framer env).run (n, .data addr h acc) bs = some ((n, .data addr h (acc ++ bs)), []) := by
  induction bs generalizing acc with
  | nil => simp
  | cons b bs ih =>
    simp only [List.length_cons] at hlt
    have hs : (framer env).step (n, .data addr h acc) b =
        some ((n, .data addr h (acc ++ [b])), []) := by
      have hb : acc.length + 1 < (getTcpPacket3HeaderDataSize h).toNat := by omega
      simp [framer, hb]
    have hlen : (acc ++ [b]).length = acc.length + 1 := by simp
    rw [Transducer.run_cons, hs, Option.bind_some, ih (by omega)]
    simp

theorem framer_data_full {addr : Nat} {h acc bs : List UInt8}
    (hacc : acc.length < (getTcpPacket3HeaderDataSize h).toNat)
    (heq : acc.length + bs.length = (getTcpPacket3HeaderDataSize h).toNat) :
    (framer env).run (n, .data addr h acc) bs =
      some ((n, .header []), [⟨addr, finishedRecord h (acc ++ bs)⟩]) := by
  obtain rfl | ⟨init, b, rfl⟩ := List.eq_nil_or_concat' bs
  · simp at heq; omega
  simp only [List.length_append, List.length_singleton] at heq
  have hs : (framer env).step (n, .data addr h (acc ++ init)) b =
      some ((n, .header []), [⟨addr, finishedRecord h (acc ++ init ++ [b])⟩]) := by
    have hge : ¬ acc.length + init.length + 1 < (getTcpPacket3HeaderDataSize h).toNat := by omega
    simp [framer, hge]
  rw [Transducer.run_append_of_some (framer_data_short env n (by omega)),
    Transducer.run_singleton, hs]
  simp [List.append_assoc]

theorem framer_skip {remain : Nat} {bs : List UInt8} (hlt : bs.length < remain) :
    (framer env).run (n, .skip remain) bs = some ((n, .skip (remain - bs.length)), []) := by
  induction bs generalizing remain with
  | nil => simp
  | cons b bs ih =>
    simp only [List.length_cons] at hlt
    have hs : (framer env).step (n, .skip remain) b = some ((n, .skip (remain - 1)), []) := by
      have hb : ¬ remain ≤ 1 := by omega
      simp [framer, hb]
    rw [Transducer.run_cons, hs, Option.bind_some, ih (by omega)]
    simp only [Option.map_some, List.nil_append, List.length_cons]
    congr 4
    omega

theorem framer_skip_full {remain : Nat} {bs : List UInt8} (hpos : 0 < remain)
    (heq : bs.length = remain) :
    (framer env).run (n, .skip remain) bs = some ((n, .header []), []) := by
  obtain rfl | ⟨init, b, rfl⟩ := List.eq_nil_or_concat' bs
  · simp at heq; omega
  simp only [List.length_append, List.length_singleton] at heq
  have hs : (framer env).step (n, .skip (remain - init.length)) b = some ((n, .header []), []) := by
    have hb : remain - init.length ≤ 1 := by omega
    simp [framer, hb]
  rw [Transducer.run_append_of_some (framer_skip env n (by omega)), Transducer.run_singleton, hs]
  simp

end Bulk

theorem WirePacket.length_header (p : WirePacket) : p.header.length = 8 := rfl

theorem WirePacket.isHeader (p : WirePacket) : isTcpPacket3Header p.header = true := rfl

theorem WirePacket.dataSize_header (p : WirePacket) :
    (getTcpPacket3HeaderDataSize p.header).toNat = p.data.length := by
  have h := decode16_encode16 [rcFs, rcMagic, p.version, p.flag, p.type]
    (UInt16.ofNat p.data.length) [rcGs]
  have hm := Nat.mod_eq_of_lt p.fits
  rw [getTcpPacket3HeaderDataSize, convertBuf2short, tcpPacket3HeaderIdxDatasize0,
    WirePacket.header, List.append_assoc]
  simp only [List.length_cons, List.length_nil] at h
  rw [h, UInt16.toNat_ofNat']
  exact hm

theorem WirePacket.received_record (p : WirePacket) : p.Received p.record := by
  have hfill : ∀ r : TcpPacket3, (fillTcpPacket3DataField r).header = r.header ∧
      (fillTcpPacket3DataField r).data = r.data ∧
      (fillTcpPacket3DataField r).version = r.version ∧
      (fillTcpPacket3DataField r).flag = r.flag ∧
      (fillTcpPacket3DataField r).type = r.type ∧
      (fillTcpPacket3DataField r).dataSize = r.dataSize := by
    intro r
    unfold fillTcpPacket3DataField
    split_ifs <;> simp
  obtain ⟨h₁, h₂, h₃, h₄, h₅, h₆⟩ := hfill (partialRecord p.header p.data)
  refine ⟨h₁, h₂.trans ?_, h₃, h₄, h₅, (congrArg UInt16.toNat h₆).trans p.dataSize_header⟩
  simp [partialRecord, tcpPacket3HeaderToField, p.dataSize_header]

theorem framer_packet (env : HeapEnv) (n : Nat) (p : WirePacket) :
    (framer env).run (n, .header []) p.bytes =
      some ((n + 1, .header []), if env.ok n then [⟨n, p.record⟩] else []) := by
  have hw : (framer env).run (n, .header []) p.header = closeWindow env n p.header := by
    simpa using @framer_header_full env n [] p.header (by simp) (by simp [p.length_header])
  have hsize := p.dataSize_header
  by_cases hz : p.data = []
  · have hb : p.bytes = p.header := by simp [WirePacket.bytes, hz]
    have h0 : (getTcpPacket3HeaderDataSize p.header).toNat = 0 := by simp [hsize, hz]
    rw [hb, hw, closeWindow_empty p.isHeader h0, WirePacket.record, hz]
  · have hpos : 0 < p.data.length := List.length_pos_iff.mpr hz
    have hne : (getTcpPacket3HeaderDataSize p.header).toNat ≠ 0 := by omega
    rw [WirePacket.bytes]
    cases hok : env.ok n with
    | true =>
      rw [Transducer.run_append_of_some (hw.trans (closeWindow_data p.isHeader hok hne)),
        framer_data_full env (n + 1) (by simpa [hsize] using hpos) (by simp [hsize])]
      simp [WirePacket.record]
    | false =>
      rw [Transducer.run_append_of_some (hw.trans (closeWindow_skip p.isHeader hok hne)), hsize,
        framer_skip_full env (n + 1) hpos rfl]
      simp

theorem framer_wireBytes (env : HeapEnv) (n : Nat) (ps : List WirePacket) :
    (framer env).run (n, .header []) (wireBytes ps) =
      some ((n + ps.length, .header []), delivered env n ps) := by
  induction ps generalizing n with
  | nil => simp [wireBytes, delivered]
  | cons p ps ih =>
    rw [wireBytes, List.flatMap_cons, Transducer.run_append_of_some (framer_packet env n p)]
    rw [wireBytes] at ih
    rw [ih (n + 1)]
    simp only [Option.map_some, delivered, List.length_cons]
    congr 3
    omega

end NucleoW5500
