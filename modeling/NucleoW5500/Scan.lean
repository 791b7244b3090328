import NucleoW5500.Resync

/-! What the scan of a rejected window keeps. A packet can begin at every `RC_FS` that
the window does not show to be followed by something else than `RC_MAGIC`; the scan
looks at the first `RC_FS` only. -/

namespace NucleoW5500

open CString

/-- The bytes of the window from `i` on can be the beginning of a packet. -/
def StartAt (window : List UInt8) (i : Nat) : Prop :=
  1 ≤ i ∧ i < tcpPacket3HeaderSize ∧ peek window i = rcFs ∧
    (i = tcpPacket3HeaderSize - 1 ∨ peek window (i + 1) = rcMagic)

def FirstStart (window : List UInt8) (i : Nat) : Prop :=
  StartAt window i ∧ ∀ j < i, ¬ StartAt window j

/-- The scan answers `i`, the receiver goes on with the window from `i` on, and no
packet begins at a byte in front of `i`, whatever comes in behind the window. -/
def ShiftsTo (window : List UInt8) (i : Nat) : Prop :=
  containsTcpPacket3Fragment window = i ∧
    (∀ (st : Receiver) (w : World), st.header = window → st.receivedSize = 8 →
      ∃ header, rejectHeader st w = .ok (none, { st with header, receivedSize := 8 - i }) w ∧
        read header 0 (8 - i) = window.drop i) ∧
    ∀ rest, GarbageBefore (window.take i) (window.drop i ++ rest)

instance (window : List UInt8) (i : Nat) : Decidable (StartAt window i) := by
  unfold StartAt
  infer_instance

instance (window : List UInt8) (i : Nat) : Decidable (FirstStart window i) := by
  unfold FirstStart
  infer_instance

variable {window : List UInt8} {i : Nat}

theorem peek_drop (l : List UInt8) (i j : Nat) : peek (l.drop i) j = peek l (i + j) := by
  simp [peek, List.getD_eq_getElem?_getD]

theorem isTcpPacket3Header_begins {header : List UInt8} (h : isTcpPacket3Header header = true) :
    peek header 0 = rcFs ∧ peek header 1 = rcMagic := by
  rw [isTcpPacket3Header, Bool.and_eq_true, Bool.and_eq_true] at h
  exact ⟨of_decide_eq_true h.1.1, of_decide_eq_true h.1.2⟩

theorem StartAt.of_header {rest : List UInt8} (hw : window.length = 8) (hi : 1 ≤ i) (hi' : i < 8)
    (h : isTcpPacket3Header (((window ++ rest).drop i).take 8) = true) : StartAt window i := by
  obtain ⟨hfs, hmagic⟩ := isTcpPacket3Header_begins h
  rw [peek_take (by omega), peek_drop, Nat.add_zero, peek_append_left _ (by omega)] at hfs
  rw [peek_take (by omega), peek_drop] at hmagic
  refine ⟨hi, hi', hfs, ?_⟩
  -- behind the last byte of the window nothing has come in yet
  by_cases hlast : i = 7
  · exact Or.inl hlast
  · rw [peek_append_left _ (by omega)] at hmagic
    exact Or.inr hmagic

theorem FirstStart.garbageBefore (h : FirstStart window i) (hw : window.length = 8)
    (hh : isTcpPacket3Header window = false) (rest : List UInt8) :
    GarbageBefore (window.take i) (window.drop i ++ rest) := by
  intro j hj
  have hlt : j < i := by rw [List.length_take] at hj; omega
  have hi : i < 8 := h.1.2.1
  rw [← List.append_assoc, List.take_append_drop]
  rw [← Bool.not_eq_true]
  intro hheader
  by_cases hj0 : j = 0
  · rw [hj0, List.drop_zero, tcpPacket3HeaderSize, ← hw, List.take_left, hh] at hheader
    exact absurd hheader (by simp)
  · exact h.2 j hlt (StartAt.of_header hw (by omega) (by omega) hheader)

theorem window_split (hw : window.length = 8) (h : StartAt window i) :
    (window.take i ++ rcFs :: window.drop (i + 1)).take 8 = window := by
  have hi : i < window.length := by rw [hw]; exact h.2.1
  have hget : window[i] = rcFs := by simpa [peek, hi] using h.2.2.1
  rw [← hget, ← List.drop_eq_getElem_cons hi, List.take_append_drop, ← hw, List.take_length]

theorem containsTcpPacket3Fragment_start (hw : window.length = 8) (h : StartAt window i)
    (hno : ∀ j, 1 ≤ j → j < i → peek window j ≠ rcFs) : containsTcpPacket3Fragment window = i := by
  have hi : 1 ≤ i := h.1
  have hi8 : i < 8 := h.2.1
  have hnext : i = 7 ∨ peek window (i + 1) = rcMagic := h.2.2.2
  have hlen : (window.take i).length = i := by rw [List.length_take]; omega
  have hk := @containsTcpPacket3Fragment_first (window.take i) (window.drop (i + 1))
    (fun j hj hlt => by rw [hlen] at hlt; rw [peek_take hlt]; exact hno j hj hlt)
    (List.ne_nil_of_length_pos (by omega)) (by omega)
  rw [window_split hw h, hlen, peek_drop, Nat.add_zero, if_pos hnext] at hk
  exact hk

theorem containsTcpPacket3Fragment_stopped {j : Nat} (hj : 1 ≤ j) (hj8 : j < 8)
    (hfs : peek window j = rcFs) (hfirst : ∀ k, 1 ≤ k → k < j → peek window k ≠ rcFs)
    (hno : ¬ StartAt window j) : containsTcpPacket3Fragment window = -1 := by
  have hm : memchr window rcFs 1 7 = some j :=
    memchr_eq_some.mpr ⟨hj, by omega, hfs, fun k hk hlt => hfirst k hk hlt⟩
  have hlast : j ≠ 7 := fun he => hno ⟨hj, hj8, hfs, Or.inl he⟩
  have hnext : peek window (j + 1) ≠ rcMagic := fun he => hno ⟨hj, hj8, hfs, Or.inr he⟩
  rw [containsTcpPacket3Fragment, tcpPacket3HeaderSize, hm]
  simp [hlast, hnext]

theorem FirstStart.shiftsTo (h : FirstStart window i) (hw : window.length = 8)
    (hh : isTcpPacket3Header window = false)
    (hno : ∀ j, 1 ≤ j → j < i → peek window j ≠ rcFs) : ShiftsTo window i := by
  have hk := containsTcpPacket3Fragment_start hw h.1 hno
  refine ⟨hk, fun st w hst hr => ?_, h.garbageBefore hw hh⟩
  subst hst
  refine ⟨st.header.drop i ++ st.header.drop (8 - i), ?_, ?_⟩
  · rw [rejectHeader_shift hw hk, hr]
  · have hlen : (st.header.drop i).length = 8 - i := by rw [List.length_drop, hw]
    rw [← hlen, read_append_left]

/-- The induction is on the place of the `RC_FS`: the first one stops the scan. -/
theorem FirstStart.no_fs_before (h : FirstStart window i)
    (hk : containsTcpPacket3Fragment window = i) {j : Nat} (hj : 1 ≤ j) (hlt : j < i) :
    peek window j ≠ rcFs := by
  have hi : i < 8 := h.1.2.1
  induction j using Nat.strong_induction_on with
  | _ j ih =>
    intro hfs
    have hfirst : ∀ k, 1 ≤ k → k < j → peek window k ≠ rcFs :=
      fun k hk' hkj => ih k hkj hk' (by omega)
    have hstop := containsTcpPacket3Fragment_stopped hj (by omega) hfs hfirst (h.2 j hlt)
    omega

/-- The scan of a window that is no header finds the first place at which a packet
can begin exactly when no other `RC_FS` stands behind the first byte and in front of it. -/
theorem containsTcpPacket3Fragment_keeps_start (hw : window.length = 8)
    (hh : isTcpPacket3Header window = false) :
    (∀ i, FirstStart window i → ShiftsTo window i) ↔
      ∀ i, FirstStart window i → ∀ j, 1 ≤ j → j < i → peek window j ≠ rcFs := by
  constructor
  · intro hs i h j hj hlt
    exact h.no_fs_before (hs i h).1 hj hlt
  · intro hno i h
    exact h.shiftsTo hw hh (hno i h)

/-- `RC_MAGIC` twice, then a start, then another one. -/
theorem containsTcpPacket3Fragment_keeps_start_third :
    let window := [rcMagic, rcMagic, 0, rcFs, rcMagic, 1, 0, rcFs]
    FirstStart window 3 ∧
      ((∀ i, FirstStart window i → ShiftsTo window i) ↔
        ∀ i, FirstStart window i → ∀ j, 1 ≤ j → j < i → peek window j ≠ rcFs) := by
  intro window
  exact ⟨by decide, containsTcpPacket3Fragment_keeps_start rfl rfl⟩

/-- Two times `RC_FS`, then `RC_MAGIC`: the packet may begin at the second one. -/
theorem containsTcpPacket3Fragment_fs_fs_magic :
    let window := [1, rcFs, rcFs, rcMagic, 1, 0, 2, 0]
    isTcpPacket3Header window = false ∧ FirstStart window 2 ∧
      containsTcpPacket3Fragment window = -1 ∧ ¬ ShiftsTo window 2 ∧
      rejectHeader ⟨window, 8, .header, none⟩ {} = .error (.fault .headerBounds) {} := by
  intro window
  have hk : containsTcpPacket3Fragment window = -1 := rfl
  refine ⟨rfl, by decide, hk, fun hs => ?_, rfl⟩
  have hk' := hs.1
  omega

end NucleoW5500
