import NucleoW5500.Reassembly

/-! Garbage in front of a packet stream. A window that is no header is moved on to
the place its fragment starts, and which garbage survives this is decided byte by
byte. -/

namespace NucleoW5500

open CString

/-- Whether the receiver gets over the rest of some garbage, `d` bytes into a window:
each window has `RC_FS` behind its first byte, and before its last byte `RC_MAGIC`
follows the first of them. -/
def resyncs : Nat → List UInt8 → Bool
  | _, [] => true
  | d, b :: g =>
    if b = rcFs ∧ d ≠ 0 then
      (d = tcpPacket3HeaderSize - 1 || g.head? = some rcMagic) && resyncs 1 g
    else d < tcpPacket3HeaderSize - 1 && resyncs (d + 1) g

/-- No window that starts in the garbage is a header. -/
def GarbageBefore (g s : List UInt8) : Prop :=
  ∀ i < g.length, isTcpPacket3Header (((g ++ s).drop i).take tcpPacket3HeaderSize) = false

/-- The stream is read to its end and delivers `out`, and no call returns anything else. -/
def Delivers (env : HeapEnv) (w : World) (out : List (Block TcpPacket3)) : Prop :=
  (∀ n ps st w', recvCalls env n Receiver.start w = .ok (ps, st) w' → ps <+: out) ∧
    ∃ n w', recvCalls env n Receiver.start w = .ok (out, Receiver.start) w' ∧ w'.incoming = []

theorem resyncs_fs {d : Nat} (hd : d ≠ 0) (g : List UInt8) :
    resyncs d (rcFs :: g) = true ↔ (d = 7 ∨ g.head? = some rcMagic) ∧ resyncs 1 g = true := by
  simp only [resyncs, ne_eq, hd, not_false_eq_true, and_self, if_true, Bool.and_eq_true,
    Bool.or_eq_true, decide_eq_true_eq]
  rfl

theorem resyncs_other {d : Nat} {b : UInt8} (hb : ¬ (b = rcFs ∧ d ≠ 0)) (g : List UInt8) :
    resyncs d (b :: g) = true ↔ d < 7 ∧ resyncs (d + 1) g = true := by
  simp only [resyncs, hb, if_false, Bool.and_eq_true, decide_eq_true_eq]
  rfl

theorem peek_take {l : List UInt8} {i n : Nat} (h : i < n) : peek (l.take n) i = peek l i := by
  simp [peek, List.getD_eq_getElem?_getD, h]

theorem containsTcpPacket3Fragment_first {pre rest : List UInt8}
    (hno : ∀ j, 1 ≤ j → j < pre.length → peek pre j ≠ rcFs) (hpos : pre ≠ [])
    (hle : pre.length ≤ 7) :
    containsTcpPacket3Fragment ((pre ++ rcFs :: rest).take 8) =
      if pre.length = 7 ∨ peek rest 0 = rcMagic then (pre.length : Int) else -1 := by
  have hlen := List.length_pos_iff.mpr hpos
  have hm : memchr ((pre ++ rcFs :: rest).take 8) rcFs 1 7 = some pre.length := by
    refine memchr_eq_some.mpr ⟨hlen, by omega, ?_, fun j hj hlt => ?_⟩
    · rw [peek_take (by omega), peek_append_length]
      rfl
    · rw [peek_take (by omega), peek_append_left _ hlt]
      exact hno j hj hlt
  rw [containsTcpPacket3Fragment, tcpPacket3HeaderSize, hm]
  by_cases h7 : pre.length = 7
  · simp [h7]
  · have hnext : peek ((pre ++ rcFs :: rest).take 8) (pre.length + 1) = peek rest 0 := by
      rw [peek_take (by omega), peek_append_add]
      rfl
    simp [h7, hnext]

theorem containsTcpPacket3Fragment_none {window : List UInt8}
    (hno : ∀ j, 1 ≤ j → j < 8 → peek window j ≠ rcFs) :
    containsTcpPacket3Fragment window = -1 := by
  have hm : memchr window rcFs 1 7 = none :=
    memchr_eq_none.mpr fun j hj hlt => hno j hj (by omega)
  rw [containsTcpPacket3Fragment, tcpPacket3HeaderSize, hm]

theorem GarbageBefore.append {a g s : List UInt8} (h : GarbageBefore (a ++ g) s) :
    GarbageBefore g s := by
  intro i hi
  have hw := h (a.length + i) (by rw [List.length_append]; omega)
  rwa [List.append_assoc, List.drop_length_add_append] at hw

theorem GarbageBefore.head {g s : List UInt8} (h : GarbageBefore g s) (hg : g ≠ []) :
    isTcpPacket3Header ((g ++ s).take 8) = false := by
  exact h 0 (List.length_pos_iff.mpr hg)

section Windows

variable (env : HeapEnv) (n : Nat) {s : List UInt8}

theorem framer_window (hs : 8 ≤ s.length) :
    (framer env).run (n, .header []) s = (closeWindow env n (s.take 8)).bind fun p =>
      ((framer env).run p.1 (s.drop 8)).map fun q => (q.1, p.2 ++ q.2) := by
  have hw : (s.take 8).length = 8 := by rw [List.length_take]; omega
  have hr : (framer env).run (n, .header []) (s.take 8) = closeWindow env n (s.take 8) := by
    simpa using @framer_header_full env n [] (s.take 8) (by simp) (by simpa using hw)
  rw [← hr, ← Transducer.run_append, List.take_append_drop]

theorem framer_shift (hs : 8 ≤ s.length) (hh : isTcpPacket3Header (s.take 8) = false) {k : Nat}
    (hk : containsTcpPacket3Fragment (s.take 8) = k) :
    (framer env).run (n, .header []) s = (framer env).run (n, .header []) (s.drop k) := by
  have hrange := containsTcpPacket3Fragment_range (s.take 8)
  rw [hk] at hrange
  have hsplit : s.drop k = (s.take 8).drop k ++ s.drop 8 := by
    conv_lhs => rw [← List.take_append_drop 8 s, List.drop_append]
    rw [List.length_take, Nat.min_eq_left hs, Nat.sub_eq_zero_of_le (by omega), List.drop_zero]
  have hshort : ((s.take 8).drop k).length < 8 := by
    rw [List.length_drop, List.length_take]
    omega
  have hr : (framer env).run (n, .header []) ((s.take 8).drop k) =
      some ((n, .header ((s.take 8).drop k)), []) := by
    simpa using @framer_header_short env n [] ((s.take 8).drop k) (by simpa using hshort)
  rw [framer_window env n hs, closeWindow_shift hh hk, hsplit, Transducer.run_append_of_some hr]
  rfl

theorem framer_reject (hs : 8 ≤ s.length) (hh : isTcpPacket3Header (s.take 8) = false)
    (hk : containsTcpPacket3Fragment (s.take 8) = -1) :
    (framer env).run (n, .header []) s = none := by
  rw [framer_window env n hs, closeWindow_reject hh hk]
  rfl

/-- The garbage `g` after the bytes `pre` of a window, in front of a header. The
induction is on the garbage; `pre` has no `RC_FS` behind its first byte. -/
theorem framer_garbage {g pre : List UInt8} {p : WirePacket} {rest : List UInt8}
    (hgar : GarbageBefore (pre ++ g) (p.header ++ rest))
    (hno : ∀ j, 1 ≤ j → j < pre.length → peek pre j ≠ rcFs) (hle : pre.length ≤ 7) :
    (framer env).run (n, .header []) (pre ++ (g ++ (p.header ++ rest))) =
      if resyncs pre.length g then (framer env).run (n, .header []) (p.header ++ rest)
      else none := by
  have hplen := p.length_header
  induction g generalizing pre with
  | nil =>
    rw [resyncs, if_pos rfl, List.nil_append]
    by_cases hpre : pre = []
    · rw [hpre, List.nil_append]
    · rw [List.append_nil] at hgar
      have hk := @containsTcpPacket3Fragment_first pre (p.header.tail ++ rest) hno hpre hle
      have hnext : peek (p.header.tail ++ rest) 0 = rcMagic := rfl
      rw [if_pos (Or.inr hnext)] at hk
      have hs : 8 ≤ (pre ++ (p.header ++ rest)).length := by simp [hplen]; omega
      rw [framer_shift env n hs (hgar.head hpre) hk, List.drop_left]
  | cons b g ih =>
    have hne : pre ++ b :: g ≠ [] := by simp
    have hs : 8 ≤ (pre ++ (b :: g ++ (p.header ++ rest))).length := by simp [hplen]; omega
    have hh := hgar.head hne
    rw [List.append_assoc] at hh
    by_cases hb : b = rcFs ∧ pre.length ≠ 0
    · obtain ⟨rfl, hpos⟩ := hb
      have hk := @containsTcpPacket3Fragment_first pre (g ++ (p.header ++ rest)) hno
        (List.ne_nil_of_length_pos (by omega)) hle
      have hnext : peek (g ++ (p.header ++ rest)) 0 = rcMagic ↔ g.head? = some rcMagic := by
        cases g with
        | nil =>
          have hfs : peek ([] ++ (p.header ++ rest)) 0 = rcFs := rfl
          exact iff_of_false (by rw [hfs]; decide) (by simp)
        | cons c g => simp
      simp only [hnext] at hk
      simp only [resyncs_fs hpos]
      by_cases hstart : pre.length = 7 ∨ g.head? = some rcMagic
      · rw [if_pos hstart] at hk
        rw [framer_shift env n hs hh hk, List.drop_left]
        simp only [hstart, true_and]
        exact @ih [rcFs] hgar.append (by intro j hj hlt; simp at hlt; omega) (by simp)
      · rw [if_neg hstart] at hk
        rw [framer_reject env n hs hh hk, if_neg (fun h => hstart h.1)]
    · simp only [resyncs_other hb]
      have hno' : ∀ j, 1 ≤ j → j < (pre ++ [b]).length → peek (pre ++ [b]) j ≠ rcFs := by
        intro j hj hlt
        rw [List.length_append, List.length_singleton] at hlt
        rcases Nat.lt_or_eq_of_le (Nat.le_of_lt_succ hlt) with hlt | rfl
        · rw [peek_append_left _ hlt]
          exact hno j hj hlt
        · rw [peek_append_length]
          exact fun he => hb ⟨he, by omega⟩
      by_cases h7 : pre.length < 7
      · have hih := @ih (pre ++ [b]) (by simpa using hgar) hno' (by simp; omega)
        simpa [h7] using hih
      · have hk : containsTcpPacket3Fragment
            ((pre ++ (b :: g ++ (p.header ++ rest))).take 8) = -1 := by
          refine containsTcpPacket3Fragment_none fun j hj hlt => ?_
          have hsplit : pre ++ (b :: g ++ (p.header ++ rest)) =
              (pre ++ [b]) ++ (g ++ (p.header ++ rest)) := by simp
          have hlen : (pre ++ [b]).length = 8 := by simp; omega
          rw [peek_take hlt, hsplit, peek_append_left _ (by omega)]
          exact hno' j hj (by omega)
        rw [framer_reject env n hs hh hk, if_neg (fun h => h7 h.1)]

end Windows

theorem framer_resyncs (env : HeapEnv) (n : Nat) {g : List UInt8} {ps : List WirePacket}
    (hps : ps ≠ []) (hgar : GarbageBefore g (wireBytes ps)) :
    (framer env).run (n, .header []) (g ++ wireBytes ps) =
      if resyncs 0 g then some ((n + ps.length, .header []), delivered env n ps) else none := by
  obtain ⟨p, ps', rfl⟩ := List.exists_cons_of_ne_nil hps
  have hw : wireBytes (p :: ps') = p.header ++ (p.data ++ wireBytes ps') := by
    simp [wireBytes, WirePacket.bytes]
  rw [← framer_wireBytes env n (p :: ps'), hw]
  rw [hw] at hgar
  exact @framer_garbage env n g [] p _ hgar (by simp) (by simp)

/-- Resynchronisation. A stream that begins with garbage is read to its end and
delivers the packets behind the garbage exactly when every window of the garbage
has a usable fragment. -/
theorem recvTcpPacket3_resyncs (env : HeapEnv) {g : List UInt8} {ps : List WirePacket} {w : World}
    (hps : ps ≠ []) (hgar : GarbageBefore g (wireBytes ps)) (hw : w.incoming = g ++ wireBytes ps)
    (hsupply : 2 * w.incoming.length ≤ w.supply) :
    Delivers env w (delivered env w.next ps) ↔ resyncs 0 g = true := by
  have hrun := framer_resyncs env w.next hps hgar
  rw [← hw] at hrun
  constructor
  · rintro ⟨-, n, w', h, hnil⟩
    obtain ⟨bs, ph', hi, hbs, -⟩ := recvCalls_run Tracks.start h
    rw [hnil, List.append_nil] at hi
    by_contra hno
    rw [hi, hbs, if_neg hno] at hrun
    simp at hrun
  · intro hyes
    rw [if_pos hyes] at hrun
    exact ⟨fun n out st w' h => (recvCalls_aligned hrun h).1, recvCalls_complete hrun hsupply⟩

/-- Five bytes of garbage, the last of them `RC_FS`, in front of a packet without data. -/
theorem recvTcpPacket3_resyncs_five :
    let p : WirePacket := ⟨1, 0, 2, [], by decide⟩
    let w : World :=
      { incoming := [1, rcFs, rcMagic, 7, rcFs] ++ wireBytes [p],
        rxScript := List.replicate 26 (.ready 5) }
    Delivers .ample w (delivered .ample w.next [p]) ↔
      resyncs 0 [1, rcFs, rcMagic, 7, rcFs] = true := by
  intro p w
  exact recvTcpPacket3_resyncs .ample (by simp) (by unfold GarbageBefore; decide) rfl (by decide)

/-- Two bytes of garbage, both `RC_FS`, in front of it: the window is given up. -/
theorem recvTcpPacket3_fs_fs_lost :
    let p : WirePacket := ⟨1, 0, 2, [], by decide⟩
    let w : World :=
      { incoming := [rcFs, rcFs] ++ wireBytes [p], rxScript := List.replicate 20 (.ready 8) }
    GarbageBefore [rcFs, rcFs] (wireBytes [p]) ∧ 2 * w.incoming.length ≤ w.supply ∧
      ¬ Delivers .ample w (delivered .ample w.next [p]) := by
  intro p w
  refine ⟨by unfold GarbageBefore; decide, by decide, ?_⟩
  rintro ⟨-, n, w', h, -⟩
  cases n with
  | zero => simp [recvCalls, delivered, HeapEnv.ample] at h
  | succ n =>
    obtain ⟨e, w₁, hf⟩ : ∃ e w₁, recvTcpPacket3 .ample Receiver.start w = .error e w₁ :=
      ⟨_, _, rfl⟩
    rw [recvCalls, CM.bind_error hf] at h
    simp at h

end NucleoW5500
