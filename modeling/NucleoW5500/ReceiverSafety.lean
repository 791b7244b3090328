import NucleoW5500.ReceiverSteps

/-! The buffers of `recv_tcp_packet3`. A call stays inside them, and never asks
`recv` for zero bytes, exactly when the window it completes is a safe one. -/

namespace NucleoW5500

open CString

def AskedMore (w w' : World) : Prop := ∃ l, w'.asked = w.asked ++ l ∧ ∀ n ∈ l, 0 < n

/-- No byte is read or written outside a buffer, every length asked for is positive,
and what a call returns is `good`. -/
def Inside {α : Type} (w : World) (good : α → Prop) : EStateM.Result Halt World α → Prop
  | .ok a w' => good a ∧ AskedMore w w'
  | .error h w' => h = .blocked ∧ AskedMore w w'

structure Receiver.Bounded (st : Receiver) : Prop where
  length_header : st.header.length = tcpPacket3HeaderSize
  header_mode : st.recvMode = .header → 0 ≤ st.receivedSize ∧ st.receivedSize < tcpPacket3HeaderSize
  data_mode : st.recvMode = .data → ∃ packet, st.packet = some packet ∧
    packet.val.data.length = packet.val.dataSize.toNat ∧
    0 ≤ st.receivedSize ∧ st.receivedSize < packet.val.dataSize.toNat

/-- The window that the next call in header mode completes, if it does. -/
def completedWindow (st : Receiver) (w : World) : Option (List UInt8) :=
  match st.recvMode, w.rxScript with
  | .header, .ready count :: _ =>
    let kept := st.header.take st.receivedSize.toNat
    let window := kept ++ w.incoming.take (min count (tcpPacket3HeaderSize - kept.length))
    if window.length = tcpPacket3HeaderSize then some window else none
  | _, _ => none

/-- A header comes with data or with memory for its record, and a window that is no
header has a place where one may start. -/
def SafeWindow (env : HeapEnv) (next : Nat) (window : List UInt8) : Prop :=
  if isTcpPacket3Header window then getTcpPacket3HeaderDataSize window ≠ 0 ∨ env.ok next = true
  else containsTcpPacket3Fragment window ≠ -1

instance (env : HeapEnv) (next : Nat) (window : List UInt8) :
    Decidable (SafeWindow env next window) := by
  unfold SafeWindow
  infer_instance

def SafeCall (env : HeapEnv) (st : Receiver) (w : World) : Prop :=
  ∀ window, completedWindow st w = some window → SafeWindow env w.next window

/-- The statics after any number of safe calls, whatever stream, script and heap
each of them met. -/
inductive RecvReachable : Receiver → Prop
  | start : RecvReachable Receiver.start
  | call {env : HeapEnv} {st st' : Receiver} {w w' : World} {p : Option (Block TcpPacket3)} :
      RecvReachable st → SafeCall env st w → recvTcpPacket3 env st w = .ok (p, st') w' →
        RecvReachable st'

theorem AskedMore.refl (w : World) : AskedMore w w := ⟨[], by simp⟩

theorem AskedMore.one {len : UInt16} (hne : len ≠ 0) {w w' : World}
    (h : w'.asked = w.asked ++ [len]) : AskedMore w w' := by
  refine ⟨[len], h, fun n hn => ?_⟩
  rw [List.mem_singleton.mp hn]
  exact UInt16.pos_iff_ne_zero.mpr hne

theorem AskedMore.trans {w₁ w₂ w₃ : World} (h : AskedMore w₁ w₂) (h' : AskedMore w₂ w₃) :
    AskedMore w₁ w₃ := by
  obtain ⟨l, hl, hpos⟩ := h
  obtain ⟨l', hl', hpos'⟩ := h'
  refine ⟨l ++ l', by rw [hl', hl, List.append_assoc], fun n hn => ?_⟩
  rcases List.mem_append.mp hn with hn | hn
  · exact hpos n hn
  · exact hpos' n hn

theorem AskedMore.inside {α : Type} {w₁ w₂ : World} {good : α → Prop}
    {r : EStateM.Result Halt World α} (h : AskedMore w₁ w₂) (hr : Inside w₂ good r) :
    Inside w₁ good r := by
  cases r with
  | ok a w₃ => exact ⟨hr.1, h.trans hr.2⟩
  | error e w₃ => exact ⟨hr.1, h.trans hr.2⟩

theorem recv_inside {α : Type} {good : α → Prop} {f : RxReply → CM α} {len : Nat} {w : World}
    (hpos : 0 < len) (hlt : len < 65536)
    (herr : ∀ code w', AskedMore w w' → Inside w good (f (.err code) w'))
    (hgot : ∀ count es w', w.rxScript = .ready count :: es → w'.next = w.next → AskedMore w w' →
      Inside w good (f (.got (w.incoming.take (min count len))) w')) :
    Inside w good ((recv (UInt16.ofInt len) >>= f) w) := by
  have hne := ofInt_ne_zero hpos hlt
  cases hs : w.rxScript with
  | nil =>
    rw [CM.bind_error (recv_blocked hs)]
    exact ⟨rfl, .one hne rfl⟩
  | cons e es =>
    cases e with
    | fail code =>
      rw [CM.bind_ok (recv_fail hne hs)]
      exact herr code _ (.one hne rfl)
    | ready count =>
      rw [CM.bind_ok (recv_ready hne hs), toNat_ofInt_of_lt hlt]
      exact hgot count es _ hs rfl (.one hne rfl)

theorem eatTcpDataLoop_inside (size : Nat) :
    ∀ (fuel readSize remain : Nat) (w : World), 0 < readSize → readSize ≤ 128 → 0 < remain →
      remain ≤ size → Inside w (fun _ => True)
        (eatTcpDataLoop size fuel readSize remain (size - remain : Nat) w) := by
  intro fuel
  induction fuel with
  | zero => intro readSize remain w _ _ _ _; exact ⟨rfl, .refl w⟩
  | succ fuel ih =>
    intro readSize remain w hr hr' hpos hle
    have hlen : (if (remain : Int) < readSize then (remain : Int) else readSize) =
        (min remain readSize : Nat) := by
      split_ifs <;> omega
    have hturn : ∀ (bs : List UInt8) (w' : World), AskedMore w w' →
        bs.length ≤ min remain readSize →
        Inside w (fun _ => True) ((if ((size - remain : Nat) : Int) + bs.length < size then
          eatTcpDataLoop size fuel (min remain readSize : Nat) (remain - bs.length)
            ((size - remain : Nat) + bs.length) else pure ()) w') := by
      intro bs w' hw' hb
      split_ifs with hmore
      · have h₁ : (remain : Int) - bs.length = (remain - bs.length : Nat) := by omega
        have h₂ : ((size - remain : Nat) : Int) + bs.length =
            (size - (remain - bs.length) : Nat) := by omega
        rw [h₁, h₂]
        exact hw'.inside (ih _ _ w' (by omega) (by omega) (by omega) (by omega))
      · exact ⟨trivial, hw'⟩
    simp only [eatTcpDataLoop, hlen]
    refine recv_inside (by omega) (by omega) ?_ ?_
    · intro code w' hw'
      simpa using hturn [] w' hw' (by simp)
    · intro count es w' _ _ hw'
      exact hturn _ w' hw' ((List.length_take_le _ _).trans (Nat.min_le_right _ _))

theorem eatTcpData_inside {size : Nat} (hpos : 0 < size) (w : World) :
    Inside w (fun _ => True) (eatTcpData size w) := by
  simpa [eatTcpData] using
    eatTcpDataLoop_inside size (w.rxScript.length + 1) 128 size w (by decide) (le_refl _) hpos
      (le_refl _)

theorem eatTcpData_zero_asked (w : World) :
    (∃ w', eatTcpData 0 w = .ok () w' ∧ w'.asked = w.asked ++ [0]) ∨
      ∃ w', eatTcpData 0 w = .error .blocked w' ∧ w'.asked = w.asked ++ [0] := by
  cases hs : w.rxScript with
  | nil =>
    refine Or.inr ⟨{ w with asked := w.asked ++ [0] }, ?_, rfl⟩
    rw [eatTcpData, eatTcpDataLoop]
    exact CM.bind_error (recv_blocked hs)
  | cons e es =>
    refine Or.inl ⟨{ w with asked := w.asked ++ [0], rxScript := es }, ?_, rfl⟩
    rw [eatTcpData, eatTcpDataLoop]
    exact CM.bind_ok (recv_zero hs)

theorem not_askedMore_zero {w w₁ w' : World} (h : AskedMore w w₁) (h' : w'.asked = w₁.asked ++ [0]) :
    ¬ AskedMore w w' := by
  rintro ⟨l, hl, hpos⟩
  obtain ⟨l₁, hl₁, -⟩ := h
  rw [h', hl₁, List.append_assoc, List.append_cancel_left_eq] at hl
  exact absurd (hpos 0 (hl ▸ by simp)) (by decide)

theorem Receiver.Bounded.start : Receiver.start.Bounded :=
  ⟨by simp [Receiver.start], fun _ => by decide, fun h => by simp [Receiver.start] at h⟩

theorem Receiver.Bounded.clear {st : Receiver} (hm : st.recvMode = .header) :
    st.clearHeader.Bounded :=
  ⟨by simp [Receiver.clearHeader], fun _ => by simp [Receiver.clearHeader, tcpPacket3HeaderSize],
    fun h => by simp [Receiver.clearHeader, hm] at h⟩

theorem rejectHeader_inside {st : Receiver} {w w₁ : World} (hh : st.header.length = 8)
    (hr : st.receivedSize = 8) (hm : st.recvMode = .header) (hw : AskedMore w w₁) :
    Inside w (fun r => r.2.Bounded) (rejectHeader st w₁) ↔
      containsTcpPacket3Fragment st.header ≠ -1 := by
  rcases containsTcpPacket3Fragment_range st.header with hk | ⟨hk, hk'⟩
  · have hf : rejectHeader st w₁ = .error (.fault .headerBounds) w₁ := by
      rw [rejectHeader, hk]
      exact CM.bind_error rfl
    simp [hf, hk, Inside]
  · refine iff_of_true ?_ (by omega)
    have hk0 : ¬ (containsTcpPacket3Fragment st.header = 0) := by omega
    have hrange : 0 ≤ containsTcpPacket3Fragment st.header ∧
        containsTcpPacket3Fragment st.header ≤ (tcpPacket3HeaderSize : Int) :=
      ⟨by omega, by simp only [tcpPacket3HeaderSize]; omega⟩
    simp only [rejectHeader, hk0, if_false, shiftHeader, hrange, and_self, if_true, Lockstep.bind_apply,
      CM.pure_apply]
    refine ⟨⟨?_, fun _ => ?_, fun h => by simp [hm] at h⟩, hw⟩
    · rw [length_overwrite (by simp), hh]
      rfl
    · simp only [hr, tcpPacket3HeaderSize]
      omega

theorem acceptHeader_inside {env : HeapEnv} {st : Receiver} {w w₁ : World}
    (hh : st.header.length = 8) (hm : st.recvMode = .header) (hw : AskedMore w w₁) :
    Inside w (fun r => r.2.Bounded) (acceptHeader env st w₁) ↔
      (getTcpPacket3HeaderDataSize st.header ≠ 0 ∨ env.ok w₁.next = true) := by
  rw [acceptHeader]
  cases hok : env.ok w₁.next with
  | true =>
    refine iff_of_true ?_ (Or.inr rfl)
    rw [CM.bind_ok (allocTcpPacket3Mem_some hh hok)]
    dsimp only
    split_ifs with hpos
    · refine ⟨⟨by simp [Receiver.clearHeader], fun h => by simp at h, fun _ => ?_⟩, hw⟩
      refine ⟨_, rfl, ?_, by simp [Receiver.clearHeader], by
        simpa [Receiver.clearHeader, partialRecord, tcpPacket3HeaderToField] using hpos⟩
      simp [partialRecord, tcpPacket3HeaderToField]
    · exact ⟨.clear hm, hw⟩
  | false =>
    rw [CM.bind_ok (allocTcpPacket3Mem_none hok)]
    dsimp only
    have hnext : AskedMore w { w₁ with next := w₁.next + 1 } := hw
    by_cases hz : getTcpPacket3HeaderDataSize st.header = 0
    · refine iff_of_false ?_ (by simp [hz])
      simp only [hz, UInt16.toNat_zero, Nat.cast_zero]
      rcases eatTcpData_zero_asked { w₁ with next := w₁.next + 1 } with
        ⟨w', he, ha⟩ | ⟨w', he, ha⟩
      · rw [CM.bind_ok he]
        exact fun h => not_askedMore_zero hnext ha h.2
      · rw [CM.bind_error he]
        exact fun h => not_askedMore_zero hnext ha h.2
    · refine iff_of_true ?_ (Or.inl hz)
      have hpos : 0 < (getTcpPacket3HeaderDataSize st.header).toNat :=
        UInt16.lt_iff_toNat_lt.mp (UInt16.pos_iff_ne_zero.mpr hz)
      have he := hnext.inside (eatTcpData_inside hpos { w₁ with next := w₁.next + 1 })
      cases hc : eatTcpData (getTcpPacket3HeaderDataSize st.header).toNat
          { w₁ with next := w₁.next + 1 } with
      | ok a w' =>
        rw [hc] at he
        rw [CM.bind_ok hc]
        exact ⟨.clear hm, he.2⟩
      | error e w' =>
        rw [hc] at he
        rw [CM.bind_error hc]
        exact he

theorem gotHeader_inside {env : HeapEnv} {st : Receiver} {w w₁ : World} {bs : List UInt8}
    (hst : st.Bounded) (hm : st.recvMode = .header)
    (hb : bs.length ≤ 8 - st.receivedSize.toNat) (hw : AskedMore w w₁) (hn : w₁.next = w.next) :
    Inside w (fun r => r.2.Bounded) (gotHeader env st bs w₁) ↔
      ((st.header.take st.receivedSize.toNat ++ bs).length = 8 →
        SafeWindow env w.next (st.header.take st.receivedSize.toNat ++ bs)) := by
  have hh : st.header.length = 8 := hst.length_header
  obtain ⟨h0, h8⟩ := hst.header_mode hm
  obtain ⟨k, hk⟩ : ∃ k : Nat, st.receivedSize = k := ⟨st.receivedSize.toNat, by omega⟩
  rw [hk, Int.toNat_natCast] at hb ⊢
  have hk8 : k < 8 := by simpa [hk, tcpPacket3HeaderSize] using h8
  have hfit : k + bs.length ≤ st.header.length := by omega
  have hlen : (st.header.take k ++ bs).length = k + bs.length := by
    rw [List.length_append, List.length_take]
    omega
  rw [gotHeader, hk, CM.bind_ok (store_ok hfit w₁)]
  dsimp only
  by_cases hshort : k + bs.length < 8
  · refine iff_of_true ?_ (fun he => by omega)
    have hc : (k : Int) + bs.length < (tcpPacket3HeaderSize : Int) := by
      simp only [tcpPacket3HeaderSize]
      omega
    rw [if_pos hc]
    refine ⟨⟨(length_overwrite hfit).trans hh, fun _ => ⟨?_, hc⟩, fun h => by simp [hm] at h⟩, hw⟩
    dsimp only
    omega
  · have hc : ¬ (k : Int) + bs.length < (tcpPacket3HeaderSize : Int) := by
      simp only [tcpPacket3HeaderSize]
      omega
    have hsum : k + bs.length = 8 := by omega
    have hwin : overwrite st.header k bs = st.header.take k ++ bs := by
      have ho := overwrite_at_length (st.header.take k) bs (st.header.drop k)
      rw [List.take_append_drop, List.length_take, Nat.min_eq_left (by omega), List.drop_drop,
        hsum, List.drop_eq_nil_of_le (by omega), List.append_nil] at ho
      exact ho
    have hwl : (st.header.take k ++ bs).length = 8 := hlen.trans hsum
    rw [if_neg hc, hwin]
    simp only [hwl, true_implies, SafeWindow]
    split_ifs with his
    · rw [← hn]
      exact acceptHeader_inside hwl hm hw
    · exact rejectHeader_inside hwl (by dsimp only; omega) hm hw

theorem gotData_inside {st : Receiver} {packet : Block TcpPacket3} {w w₁ : World}
    {bs : List UInt8} (hst : st.Bounded) (hm : st.recvMode = .data)
    (hp : st.packet = some packet)
    (hb : bs.length ≤ packet.val.dataSize.toNat - st.receivedSize.toNat) (hw : AskedMore w w₁) :
    Inside w (fun r => r.2.Bounded) (gotData st packet bs w₁) := by
  obtain ⟨packet', hp', hlen, h0, hlt⟩ := hst.data_mode hm
  rw [hp, Option.some.injEq] at hp'
  subst hp'
  obtain ⟨k, hk⟩ : ∃ k : Nat, st.receivedSize = k := ⟨st.receivedSize.toNat, by omega⟩
  rw [hk] at hlt
  rw [hk, Int.toNat_natCast] at hb
  have hfit : k + bs.length ≤ packet.val.data.length := by omega
  rw [gotData, hk, CM.bind_ok (store_ok hfit w₁)]
  dsimp only
  split_ifs with hc
  · refine ⟨⟨hst.length_header, fun h => by simp [hm] at h, fun _ => ⟨_, rfl, ?_, ?_, hc⟩⟩, hw⟩
    · exact (length_overwrite hfit).trans hlen
    · dsimp only
      omega
  · exact ⟨⟨by simp [Receiver.clearHeader], fun _ => by
      simp [Receiver.clearHeader, tcpPacket3HeaderSize], fun h => by simp at h⟩, hw⟩

theorem recvTcpPacket3_inside_iff {env : HeapEnv} {st : Receiver} (hst : st.Bounded) (w : World) :
    Inside w (fun r => r.2.Bounded) (recvTcpPacket3 env st w) ↔ SafeCall env st w := by
  cases hm : st.recvMode with
  | header =>
    have hh : st.header.length = 8 := hst.length_header
    obtain ⟨h0, h8⟩ := hst.header_mode hm
    obtain ⟨k, hk⟩ : ∃ k : Nat, st.receivedSize = k := ⟨st.receivedSize.toNat, by omega⟩
    have hk8 : k < 8 := by simpa [hk, tcpPacket3HeaderSize] using h8
    have hsize : (tcpPacket3HeaderSize : Int) - st.receivedSize = (8 - k : Nat) := by
      simp only [tcpPacket3HeaderSize]
      omega
    have hlt : 8 - k < 65536 := by omega
    have hne := ofInt_ne_zero (by omega : 0 < 8 - k) hlt
    have hkept : (st.header.take k).length = k := by
      rw [List.length_take]
      omega
    simp only [recvTcpPacket3, hm, recvHeader, hsize]
    cases hs : w.rxScript with
    | nil =>
      rw [CM.bind_error (recv_blocked hs)]
      exact iff_of_true ⟨rfl, .one hne rfl⟩ (by simp [SafeCall, completedWindow, hm, hs])
    | cons e es =>
      cases e with
      | fail code =>
        rw [CM.bind_ok (recv_fail hne hs)]
        exact iff_of_true ⟨hst, .one hne rfl⟩ (by simp [SafeCall, completedWindow, hm, hs])
      | ready count =>
        rw [CM.bind_ok (recv_ready hne hs), toNat_ofInt_of_lt hlt]
        have hb : (w.incoming.take (min count (8 - k))).length ≤ 8 - st.receivedSize.toNat := by
          rw [List.length_take, hk, Int.toNat_natCast]
          omega
        refine (gotHeader_inside (w := w) hst hm hb ?_ ?_).trans ?_
        · exact .one hne rfl
        · rfl
        simp only [SafeCall, completedWindow, hm, hs, hk, Int.toNat_natCast, hkept,
          tcpPacket3HeaderSize]
        constructor
        · intro h window hw
          split_ifs at hw with hfull
          rw [← Option.some.inj hw]
          exact h hfull
        · exact fun h hfull => h _ (if_pos hfull)
  | data =>
    obtain ⟨packet, hp, hlen, h0, hlt⟩ := hst.data_mode hm
    obtain ⟨k, hk⟩ : ∃ k : Nat, st.receivedSize = k := ⟨st.receivedSize.toNat, by omega⟩
    have hmax := packet.val.dataSize.toNat_lt
    have hsize : (packet.val.dataSize.toNat : Int) - st.receivedSize =
        (packet.val.dataSize.toNat - k : Nat) := by omega
    refine iff_of_true ?_ (by simp [SafeCall, completedWindow, hm])
    simp only [recvTcpPacket3, hm, hp, recvData, hsize]
    refine recv_inside (by omega) (by omega) (fun _ _ hw => ⟨hst, hw⟩) ?_
    intro count es w' _ _ hw
    refine gotData_inside hst hm hp ?_ hw
    rw [List.length_take, hk, Int.toNat_natCast]
    omega

theorem RecvReachable.bounded {st : Receiver} (h : RecvReachable st) : st.Bounded := by
  induction h with
  | start => exact Receiver.Bounded.start
  | @call env st st' w w' p _ hsafe hcall ih =>
    have hin := (recvTcpPacket3_inside_iff ih w).mpr hsafe
    rw [hcall] at hin
    exact hin.1

/-- The buffer invariant. Every state that safe calls reach has its counters in
range, and from it a call stays inside the buffers exactly when it is safe. -/
theorem recvTcpPacket3_buffers {st : Receiver} (h : RecvReachable st) :
    st.Bounded ∧ ∀ env w, Inside w (fun r => r.2.Bounded) (recvTcpPacket3 env st w) ↔
      SafeCall env st w :=
  ⟨h.bounded, fun _ w => recvTcpPacket3_inside_iff h.bounded w⟩

/-- Garbage that ends with `RC_FS` is a safe window. -/
theorem recvTcpPacket3_buffers_shifted :
    let w : World := { incoming := List.replicate 7 0 ++ [rcFs], rxScript := [.ready 8] }
    let st : Receiver := ⟨rcFs :: (List.replicate 6 0 ++ [rcFs]), 1, .header, none⟩
    SafeCall .ample Receiver.start w ∧ st.Bounded ∧
      ∀ env w, Inside w (fun r => r.2.Bounded) (recvTcpPacket3 env st w) ↔ SafeCall env st w := by
  intro w st
  have hsafe : SafeCall .ample Receiver.start w := by
    intro window h
    have hw : completedWindow Receiver.start w = some (List.replicate 7 0 ++ [rcFs]) := by decide
    obtain rfl := Option.some.inj (hw.symm.trans h)
    decide
  exact ⟨hsafe, recvTcpPacket3_buffers (.call .start hsafe rfl)⟩

/-- Eight zero bytes are not: the shift starts in front of `header`. -/
theorem recvTcpPacket3_zeros_fault :
    let w : World := { incoming := List.replicate 8 0, rxScript := [.ready 8] }
    containsTcpPacket3Fragment w.incoming = -1 ∧
      recvTcpPacket3 .ample Receiver.start w =
        .error (.fault .headerBounds) { asked := [8] } := by
  refine ⟨rfl, rfl⟩

end NucleoW5500
