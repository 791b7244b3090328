import NucleoW5500.Contents
import NucleoW5500.Reassembly

/-! What `send_tcp_packet3` has put on the wire when it returns. -/

namespace NucleoW5500

open CString

/-- The socket has accepted `bs`, in answer to some of the calls of the script. -/
structure Wrote (w w' : World) (bs : List UInt8) : Prop where
  sent : w'.sent = w.sent ++ bs
  script : w'.txScript <:+ w.txScript

/-- The last call of `send` has failed. -/
def SendFailed (w w' : World) : Prop := ∃ code, .fail code :: w'.txScript <:+ w.txScript

theorem Wrote.trans {w w₁ w' : World} {a b : List UInt8} (h : Wrote w w₁ a) (h' : Wrote w₁ w' b) :
    Wrote w w' (a ++ b) where
  sent := by rw [h'.sent, h.sent, List.append_assoc]
  script := h'.script.trans h.script

theorem Wrote.failed {w w₁ w' : World} {bs : List UInt8} (h : Wrote w w₁ bs)
    (hfail : SendFailed w₁ w') : SendFailed w w' := by
  obtain ⟨code, hsuffix⟩ := hfail
  exact ⟨code, hsuffix.trans h.script⟩

theorem send_wrote {buf : List UInt8} {i n : Nat} {ret : Int} {w w' : World} (hpos : 0 < n)
    (hlt : n < 65536) (h : send buf i (UInt16.ofInt n) w = .ok ret w') :
    (ret < 0 ∧ SendFailed w w' ∧ Wrote w w' []) ∨
      ∃ k ≤ n, ret = k ∧ Wrote w w' (read buf i k) := by
  have hne := ofInt_ne_zero hpos hlt
  have hlen := toNat_ofInt_of_lt hlt
  cases hs : w.txScript with
  | nil => simp [send, hs] at h
  | cons e es =>
    have hsuffix : es <:+ w.txScript := hs ▸ List.suffix_cons e es
    cases e with
    | fail code =>
      simp only [send, hs, hne, if_false, EStateM.Result.ok.injEq] at h
      obtain ⟨rfl, rfl⟩ := h
      exact .inl ⟨by omega, ⟨code, hs ▸ List.suffix_rfl⟩, (List.append_nil _).symm, hsuffix⟩
    | room count =>
      simp only [send, hs, hne, if_false, hlen, EStateM.Result.ok.injEq] at h
      obtain ⟨rfl, rfl⟩ := h
      exact .inr ⟨_, Nat.min_le_right _ _, rfl, rfl, hsuffix⟩

theorem wizSendbLoop_wrote (buf : List UInt8) {fuel sentSize remain : Nat} {ret : Int} {w w' : World}
    (hpos : 0 < remain) (hlt : remain < 65536)
    (h : wizSendbLoop buf fuel sentSize remain w = .ok ret w') :
    (ret = sentSize + remain ∧ Wrote w w' (read buf sentSize remain)) ∨
      (ret < 0 ∧ SendFailed w w' ∧ ∃ k < remain, Wrote w w' (read buf sentSize k)) := by
  induction fuel generalizing sentSize remain w with
  | zero => simp [wizSendbLoop] at h
  | succ fuel ih =>
    rw [wizSendbLoop, CM.bind_eq_ok] at h
    obtain ⟨got, w₁, hsend, h⟩ := h
    rcases send_wrote hpos hlt hsend with ⟨hneg, hfail, hwrote⟩ | ⟨k, hk, rfl, hwrote⟩
    · rw [if_pos hneg] at h
      cases h
      exact .inr ⟨hneg, hfail, 0, hpos, hwrote⟩
    · rw [if_neg (by omega), Int.toNat_natCast] at h
      have hrest : (remain : Int) - (k : Nat) = (remain - k : Nat) := by omega
      by_cases hmore : (remain : Int) - k > 0
      · rw [if_pos hmore, hrest] at h
        rcases ih (by omega) (by omega) h with ⟨hret, hall⟩ | ⟨hneg, hfail, j, hj, hpart⟩
        · refine .inl ⟨by rw [hret]; omega, ?_⟩
          have hsum : k + (remain - k) = remain := by omega
          rw [← hsum, read_add]
          exact hwrote.trans hall
        · refine .inr ⟨hneg, hwrote.failed hfail, k + j, by omega, ?_⟩
          rw [read_add]
          exact hwrote.trans hpart
      · have hall : k = remain := by omega
        rw [if_neg hmore] at h
        cases h
        subst hall
        exact .inl ⟨by omega, hwrote⟩

theorem wizSendb_wrote {buf : List UInt8} {ret : Int} {w w' : World} (hpos : 0 < buf.length)
    (hlt : buf.length < 65536) (h : wizSendb buf buf.length w = .ok ret w') :
    (ret = buf.length ∧ Wrote w w' buf) ∨
      (ret < 0 ∧ SendFailed w w' ∧ ∃ k < buf.length, Wrote w w' (buf.take k)) := by
  have htake : ∀ k ≤ buf.length, read buf 0 k = buf.take k := by
    intro k hk
    rw [read_eq_take (by omega), List.drop_zero]
  rcases wizSendbLoop_wrote buf hpos hlt h with ⟨hret, hall⟩ | ⟨hneg, hfail, k, hk, hpart⟩
  · rw [htake _ le_rfl, List.take_length] at hall
    exact .inl ⟨by omega, hall⟩
  · rw [htake k hk.le] at hpart
    exact .inr ⟨hneg, hfail, k, hk, hpart⟩

theorem sendTcpPacket3_wrote {p : TcpPacket3} {ret : Int} {w w' : World} (hh : p.header.length = 8)
    (hd : p.data.length = p.dataSize.toNat) (h : sendTcpPacket3 p w = .ok ret w') :
    (ret = 0 ∧ Wrote w w' (p.header ++ p.data)) ∨
      (ret = -1 ∧ SendFailed w w' ∧ ∃ k < p.header.length, Wrote w w' (p.header.take k)) ∨
      (ret = -2 ∧ SendFailed w w' ∧
        ∃ k < p.data.length, Wrote w w' (p.header ++ p.data.take k)) := by
  rw [sendTcpPacket3, CM.bind_eq_ok] at h
  obtain ⟨got, w₁, hhead, h⟩ := h
  have hsize : (tcpPacket3HeaderSize : Int) = p.header.length := by rw [hh]; rfl
  rw [hsize] at hhead h
  rcases wizSendb_wrote (by omega) (by omega) hhead with ⟨rfl, hall⟩ | ⟨hneg, hfail, k, hk, hpart⟩
  · rw [if_neg (by omega)] at h
    by_cases hdata : p.dataSize > 0
    · have hpos : 0 < p.data.length := by
        rw [hd]
        exact UInt16.lt_iff_toNat_lt.mp hdata
      have hlt : p.data.length < 65536 := hd ▸ p.dataSize.toNat_lt
      rw [if_pos hdata, CM.bind_eq_ok] at h
      obtain ⟨got, w₂, hrest, h⟩ := h
      rw [← hd] at hrest h
      rcases wizSendb_wrote hpos hlt hrest with ⟨rfl, hall'⟩ | ⟨hneg, hfail, k, hk, hpart⟩
      · rw [if_neg (by omega)] at h
        cases h
        exact .inl ⟨rfl, hall.trans hall'⟩
      · rw [if_pos (.inl hneg)] at h
        cases h
        exact .inr (.inr ⟨rfl, hall.failed hfail, k, hk, hall.trans hpart⟩)
    · have hnil : p.data = [] := by
        have h0 : ¬ 0 < p.dataSize.toNat := fun h0 => hdata (UInt16.lt_iff_toNat_lt.mpr h0)
        exact List.eq_nil_of_length_eq_zero (by omega)
      rw [if_neg hdata] at h
      cases h
      rw [hnil, List.append_nil]
      exact .inl ⟨rfl, hall⟩
  · rw [if_pos (.inl hneg)] at h
    cases h
    exact .inr (.inl ⟨rfl, hfail, k, hk, hpart⟩)

section Room

def TxEvent.productive : TxEvent → Bool
  | .fail _ => false
  | .room count => count ≠ 0

/-- The number of calls of `send` that are going to take something. -/
def World.room (w : World) : Nat := w.txScript.countP TxEvent.productive

/-- With room for the bytes and no failure the loop goes on to the end. -/
theorem wizSendbLoop_sends (buf : List UInt8) {fuel sentSize remain : Nat} {w : World}
    (hpos : 0 < remain) (hlt : remain < 65536) (hfuel : w.txScript.length < fuel)
    (hfail : ∀ code, .fail code ∉ w.txScript) (hroom : remain ≤ w.room) :
    ∃ w', wizSendbLoop buf fuel sentSize remain w = .ok ((sentSize + remain : Nat) : Int) w' ∧
      w'.txScript <:+ w.txScript ∧ w.room ≤ w'.room + remain := by
  induction fuel generalizing sentSize remain w with
  | zero => omega
  | succ fuel ih =>
    have hne := ofInt_ne_zero hpos hlt
    have hlen := toNat_ofInt_of_lt hlt
    cases hs : w.txScript with
    | nil =>
      rw [World.room, hs, List.countP_nil] at hroom
      omega
    | cons e es =>
      rw [hs] at hfuel hfail
      cases e with
      | fail code => exact absurd List.mem_cons_self (hfail code)
      | room count =>
        obtain ⟨k, hk⟩ : ∃ k, min count remain = k := ⟨_, rfl⟩
        obtain ⟨w₁, hw₁⟩ : ∃ w₁ : World,
          w₁ = { w with txScript := es, sent := w.sent ++ read buf sentSize k } := ⟨_, rfl⟩
        have hsend : send buf sentSize (UInt16.ofInt (remain : Int)) w = .ok (k : Int) w₁ := by
          simp only [send, hs, hne, if_false, hlen, hk, hw₁]
        have hscript : w₁.txScript = es := by rw [hw₁]
        have htaken : w.room ≤ w₁.room + k := by
          rw [World.room, World.room, hs, hscript, List.countP_cons]
          by_cases h0 : count = 0
          · simp [TxEvent.productive, h0]
          · have hk0 : 0 < k := by omega
            simp only [TxEvent.productive, h0, ne_eq, not_false_eq_true, decide_true, if_true]
            omega
        rw [wizSendbLoop, CM.bind_ok hsend, if_neg (by omega), Int.toNat_natCast]
        by_cases hmore : (remain : Int) - k > 0
        · have hrest : (remain : Int) - k = (remain - k : Nat) := by omega
          obtain ⟨w', hloop, hsuffix, hleft⟩ := @ih (sentSize + k) (remain - k) w₁ (by omega)
            (by omega) (by rw [hscript]; simpa using hfuel)
            (by rw [hscript]; exact fun code h => hfail code (List.mem_cons_of_mem _ h)) (by omega)
          rw [if_pos hmore, hrest, hloop]
          refine ⟨w', ?_, ?_, by omega⟩
          · rw [Nat.add_assoc, Nat.add_sub_cancel' (by omega)]
          · exact (hscript ▸ hsuffix).trans (List.suffix_cons _ _)
        · have hall : k = remain := by omega
          rw [if_neg hmore, ← hall]
          exact ⟨w₁, rfl, hscript ▸ List.suffix_cons _ _, htaken⟩

theorem wizSendb_sends (buf : List UInt8) {n : Nat} {w : World} (hpos : 0 < n) (hlt : n < 65536)
    (hfail : ∀ code, .fail code ∉ w.txScript) (hroom : n ≤ w.room) :
    ∃ w', wizSendb buf n w = .ok (n : Int) w' ∧ w'.txScript <:+ w.txScript ∧
      w.room ≤ w'.room + n := by
  have h := @wizSendbLoop_sends buf _ 0 n w hpos hlt (Nat.lt_succ_self _) hfail hroom
  rwa [Nat.zero_add] at h

/-- A packet is sent if the socket takes its bytes, in whatever pieces. -/
theorem sendTcpPacket3_sends {p : TcpPacket3} {w : World} (hfail : ∀ code, .fail code ∉ w.txScript)
    (hroom : 8 + p.dataSize.toNat ≤ w.room) : ∃ w', sendTcpPacket3 p w = .ok 0 w' := by
  obtain ⟨w₁, hhead, hsuffix, hleft⟩ :=
    wizSendb_sends p.header (by decide : 0 < 8) (by decide) hfail (by omega)
  have hhead' : wizSendb p.header tcpPacket3HeaderSize w = .ok (tcpPacket3HeaderSize : Int) w₁ :=
    hhead
  rw [sendTcpPacket3, CM.bind_ok hhead', if_neg (by decide)]
  by_cases hdata : p.dataSize > 0
  · obtain ⟨w₂, hrest, -, -⟩ := wizSendb_sends p.data (UInt16.lt_iff_toNat_lt.mp hdata)
      p.dataSize.toNat_lt
      (fun code h => hfail code (hsuffix.subset h)) (by omega)
    rw [if_pos hdata, CM.bind_ok hrest, if_neg (by omega)]
    exact ⟨w₂, rfl⟩
  · rw [if_neg hdata]
    exact ⟨w₁, rfl⟩

end Room

theorem exists_delivered {env : HeapEnv} {ps : List WirePacket} {n : Nat} {b : Block TcpPacket3}
    (h : b ∈ delivered env n ps) : ∃ q ∈ ps, b.val = q.record := by
  induction ps generalizing n with
  | nil => cases h
  | cons p ps ih =>
    rw [delivered, List.mem_append] at h
    rcases h with h | h
    · split at h
      · cases List.mem_singleton.mp h
        exact ⟨p, List.mem_cons_self, rfl⟩
      · cases h
    · obtain ⟨q, hq, hb⟩ := ih h
      exact ⟨q, List.mem_cons_of_mem p hq, hb⟩

/-- A received packet is sent on whole, or up to the byte at which a call has failed, and the
result says which of the two has happened. -/
theorem sendTcpPacket3_all_or_prefix {env : HeapEnv} {ps : List WirePacket} {n : Nat}
    {out : List (Block TcpPacket3)} {st : Receiver} {wr wr' : World}
    (hw : wr.incoming = wireBytes ps) (hrecv : recvCalls env n Receiver.start wr = .ok (out, st) wr')
    {b : Block TcpPacket3} (hb : b ∈ out) :
    ∃ q ∈ ps, b.val = q.record ∧
      ∀ ret w w', sendTcpPacket3 b.val w = .ok ret w' → ∃ bs, w'.sent = w.sent ++ bs ∧
        (ret = 0 ↔ bs = q.bytes) ∧
        (ret = -1 ↔ SendFailed w w' ∧ bs <+: q.header ∧ bs ≠ q.header) ∧
        (ret = -2 ↔ ∃ d, bs = q.header ++ d ∧ d <+: q.data ∧ d ≠ q.data) := by
  have hrun := framer_wireBytes env wr.next ps
  rw [← hw] at hrun
  obtain ⟨q, hq, hval⟩ := exists_delivered ((recvCalls_aligned hrun hrecv).1.subset hb)
  have hrec := q.received_record
  refine ⟨q, hq, hval, fun ret w w' hsend => ?_⟩
  rw [hval] at hsend
  have hwrote := sendTcpPacket3_wrote (by rw [hrec.header]; rfl) (by rw [hrec.data, hrec.dataSize])
    hsend
  rw [hrec.header, hrec.data] at hwrote
  rcases hwrote with ⟨rfl, hall⟩ | ⟨rfl, hfail, k, hk, hpart⟩ | ⟨rfl, hfail, k, hk, hpart⟩
  · refine ⟨_, hall.sent, iff_of_true rfl rfl, iff_of_false (by decide) ?_,
      iff_of_false (by decide) ?_⟩
    · rintro ⟨-, hpre, hne⟩
      exact hne (hpre.eq_of_length_le (by simp))
    · rintro ⟨d, heq, -, hne⟩
      exact hne (List.append_cancel_left heq).symm
  · have hlen : (q.header.take k).length = k := by
      rw [List.length_take]
      omega
    have hshort : ∀ d, q.header.take k ≠ q.header ++ d := by
      intro d heq
      have := congrArg List.length heq
      rw [hlen, List.length_append] at this
      omega
    refine ⟨_, hpart.sent, iff_of_false (by decide) (hshort q.data), iff_of_true rfl ?_,
      iff_of_false (by decide) ?_⟩
    · refine ⟨hfail, List.take_prefix k _, fun heq => hshort [] ?_⟩
      rw [heq, List.append_nil]
    · rintro ⟨d, heq, -, -⟩
      exact hshort d heq
  · have hlen : (q.data.take k).length = k := by
      rw [List.length_take]
      omega
    have hshort : q.data.take k ≠ q.data := by
      intro heq
      rw [heq] at hlen
      omega
    refine ⟨_, hpart.sent, iff_of_false (by decide) ?_, iff_of_false (by decide) ?_,
      iff_of_true rfl ⟨_, rfl, List.take_prefix k _, hshort⟩⟩
    · intro heq
      exact hshort (List.append_cancel_left heq)
    · rintro ⟨-, hpre, hne⟩
      exact hne (hpre.eq_of_length_le (by simp))

/-- Three bytes of the header go out before the connection is gone. -/
theorem sendTcpPacket3_all_or_prefix_three :
    let p : WirePacket := ⟨1, 0, 1, [104, 105], by decide⟩
    let w : World := { txScript := [.room 3, .fail 6] }
    ∃ w', sendTcpPacket3 p.record w = .ok (-1) w' ∧ SendFailed w w' := by
  intro p w
  let wr : World := { incoming := wireBytes [p], rxScript := List.replicate 40 (.ready 3) }
  obtain ⟨n, wr', hrecv, -⟩ :=
    (recvTcpPacket3_reassembles .ample [p] wr rfl).2.2.2 (by decide)
  obtain ⟨q, hq, hval, hsend⟩ :=
    sendTcpPacket3_all_or_prefix (b := ⟨0, p.record⟩) rfl hrecv (List.mem_singleton.mpr rfl)
  have hret : ∃ w', sendTcpPacket3 p.record w = .ok (-1) w' := ⟨_, rfl⟩
  obtain ⟨w', hret⟩ := hret
  obtain ⟨bs, -, -, hfailed, -⟩ := hsend (-1) w w' hret
  exact ⟨w', hret, (hfailed.mp rfl).1⟩

end NucleoW5500
