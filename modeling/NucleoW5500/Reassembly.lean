import NucleoW5500.ReceiverSteps

/-! Runs of `recv_tcp_packet3` over a byte stream. However the socket cuts the
stream, the calls return what the byte machine emits on it. -/

namespace NucleoW5500

open CString

def ReceiverCall (env : HeapEnv) (t : Receiver × World) (bs : List UInt8)
    (out : List (Block TcpPacket3)) (u : Receiver × World) : Prop :=
  t.2.incoming = bs ++ u.2.incoming ∧
    ∃ p, recvTcpPacket3 env t.1 t.2 = .ok (p, u.1) u.2 ∧ out = p.toList

def AtPhase (t : Receiver × World) (s : Nat × Phase) : Prop := s.1 = t.2.next ∧ Tracks t.1 s.2

theorem receiverCall_matched {env : HeapEnv} (t u : Receiver × World) (s : Nat × Phase)
    (bs : List UInt8) (out : List (Block TcpPacket3)) (hR : AtPhase t s)
    (hc : ReceiverCall env t bs out u) :
    ∃ s', (framer env).run s bs = some (s', out) ∧ AtPhase u s' := by
  obtain ⟨n, ph⟩ := s
  obtain ⟨rfl, htr⟩ := hR
  obtain ⟨hi, p, hcall, rfl⟩ := hc
  have hspec := recvTcpPacket3_spec env htr t.2
  rw [hcall] at hspec
  obtain ⟨bs', ph', hi', hrun, htr', -, -⟩ := hspec
  obtain rfl : bs = bs' := List.append_cancel_right (hi.symm.trans hi')
  exact ⟨_, hrun, rfl, htr'⟩

theorem recvCalls_calls {env : HeapEnv} {n : Nat} {st st' : Receiver} {ph : Phase} {w w' : World}
    {ps : List (Block TcpPacket3)} (htr : Tracks st ph)
    (h : recvCalls env n st w = .ok (ps, st') w') :
    ∃ bs, w.incoming = bs ++ w'.incoming ∧
      Transducer.Calls (ReceiverCall env) (st, w) bs ps (st', w') := by
  induction n generalizing st ph w ps with
  | zero =>
    simp only [recvCalls, CM.pure_apply, EStateM.Result.ok.injEq, Prod.mk.injEq] at h
    obtain ⟨⟨rfl, rfl⟩, rfl⟩ := h
    exact ⟨[], rfl, .nil _⟩
  | succ n ih =>
    rw [recvCalls, CM.bind_eq_ok] at h
    obtain ⟨⟨p, st₁⟩, w₁, hcall, h⟩ := h
    obtain ⟨⟨ps₁, st₂⟩, w₂, hrest, h⟩ := CM.bind_eq_ok.mp h
    simp only [CM.pure_apply, EStateM.Result.ok.injEq, Prod.mk.injEq] at h
    obtain ⟨⟨rfl, rfl⟩, rfl⟩ := h
    have hspec := recvTcpPacket3_spec env htr w
    rw [hcall] at hspec
    obtain ⟨bs, ph₁, hi, -, htr₁, -, -⟩ := hspec
    obtain ⟨bs', hi', hcalls⟩ := ih htr₁ hrest
    exact ⟨bs ++ bs', by rw [hi, hi', List.append_assoc], .cons ⟨hi, p, hcall, rfl⟩ hcalls⟩

theorem recvCalls_run {env : HeapEnv} {n : Nat} {st st' : Receiver} {ph : Phase} {w w' : World}
    {ps : List (Block TcpPacket3)} (htr : Tracks st ph)
    (h : recvCalls env n st w = .ok (ps, st') w') :
    ∃ bs ph', w.incoming = bs ++ w'.incoming ∧
      (framer env).run (w.next, ph) bs = some ((w'.next, ph'), ps) ∧ Tracks st' ph' := by
  obtain ⟨bs, hi, hcalls⟩ := recvCalls_calls htr h
  obtain ⟨⟨k, ph'⟩, hrun, rfl, htr'⟩ :=
    hcalls.run (R := AtPhase) receiverCall_matched (s := (w.next, ph))
      (⟨rfl, htr⟩ : AtPhase (st, w) (w.next, ph))
  exact ⟨bs, ph', hi, hrun, htr'⟩

theorem recvCalls_no_fault {env : HeapEnv} {n : Nat} {st : Receiver} {ph : Phase} {w w' : World}
    {f : Fault} (htr : Tracks st ph) (hrun : (framer env).run (w.next, ph) w.incoming ≠ none) :
    recvCalls env n st w ≠ .error (.fault f) w' := by
  induction n generalizing st ph w with
  | zero => simp [recvCalls]
  | succ n ih =>
    intro h
    have hspec := recvTcpPacket3_spec env htr w
    rw [recvCalls] at h
    cases hcall : recvTcpPacket3 env st w with
    | error e w₁ =>
      rw [CM.bind_error hcall] at h
      rw [hcall] at hspec
      simp only [EStateM.Result.error.injEq] at h
      obtain ⟨rfl, rfl⟩ := h
      obtain ⟨-, bs, hi, hnone⟩ := hspec
      exact hrun (by rw [hi, Transducer.run_append_of_none _ hnone])
    | ok r w₁ =>
      obtain ⟨p, st₁⟩ := r
      rw [CM.bind_ok hcall] at h
      rw [hcall] at hspec
      obtain ⟨bs, ph₁, hi, hsome, htr₁, -, -⟩ := hspec
      have hrun₁ : (framer env).run (w₁.next, ph₁) w₁.incoming ≠ none := by
        intro hnone
        exact hrun (by rw [hi, Transducer.run_append_of_some hsome, hnone, Option.map_none])
      dsimp only at h
      cases hrest : recvCalls env n st₁ w₁ with
      | error e w₂ =>
        rw [CM.bind_error hrest] at h
        simp only [EStateM.Result.error.injEq] at h
        obtain ⟨rfl, rfl⟩ := h
        exact ih htr₁ hrun₁ hrest
      | ok r w₂ =>
        rw [CM.bind_ok hrest] at h
        simp at h

theorem recvCalls_finish {env : HeapEnv} {st : Receiver} {ph ph' : Phase} {w : World} {k : Nat}
    {out : List (Block TcpPacket3)} (htr : Tracks st ph)
    (hrun : (framer env).run (w.next, ph) w.incoming = some ((k, ph'), out))
    (hph : ∀ remain, ph' ≠ .skip remain) (hsupply : 2 * w.incoming.length ≤ w.supply) :
    ∃ n st' w', recvCalls env n st w = .ok (out, st') w' ∧ w'.incoming = [] ∧ Tracks st' ph' := by
  obtain ⟨m, hm⟩ : ∃ m, w.rxScript.length = m := ⟨_, rfl⟩
  induction m using Nat.strong_induction_on generalizing st ph w out with
  | _ m ih =>
    by_cases hin : w.incoming = []
    · rw [hin] at hrun
      simp only [Transducer.run_nil, Option.some.injEq, Prod.mk.injEq] at hrun
      obtain ⟨⟨rfl, rfl⟩, rfl⟩ := hrun
      exact ⟨0, st, w, rfl, hin, htr⟩
    · have hlen := List.length_pos_iff.mpr hin
      have hspec := recvTcpPacket3_spec env htr w
      cases hcall : recvTcpPacket3 env st w with
      | error e w₁ =>
        rw [hcall] at hspec
        cases e with
        | blocked =>
          obtain ⟨-, hs | ⟨k', remain, hskip⟩⟩ := hspec
          · omega
          · rw [hrun] at hskip
            simp only [Option.some.injEq, Prod.mk.injEq] at hskip
            exact absurd hskip.1.2 (hph remain)
        | fault f =>
          obtain ⟨-, bs, hi, hnone⟩ := hspec
          rw [hi, Transducer.run_append_of_none _ hnone] at hrun
          simp at hrun
      | ok r w₁ =>
        obtain ⟨p, st₁⟩ := r
        rw [hcall] at hspec
        obtain ⟨bs, ph₁, hi, hsome, htr₁, hsc, hsup⟩ := hspec
        have hs := hsup hin
        have hl := congrArg List.length hi
        rw [List.length_append] at hl
        rw [hi, Transducer.run_append_of_some hsome] at hrun
        cases hr : (framer env).run (w₁.next, ph₁) w₁.incoming with
        | none => simp [hr] at hrun
        | some q =>
          obtain ⟨⟨k₁, ph₂⟩, out₁⟩ := q
          simp only [hr, Option.map_some, Option.some.injEq, Prod.mk.injEq] at hrun
          obtain ⟨⟨rfl, rfl⟩, rfl⟩ := hrun
          obtain ⟨n, st', w', hrest, hnil, htr'⟩ :=
            ih w₁.rxScript.length (by omega) htr₁ hr (by omega) rfl
          refine ⟨n + 1, st', w', ?_, hnil, htr'⟩
          rw [recvCalls, CM.bind_ok hcall]
          dsimp only
          rw [CM.bind_ok hrest]
          rfl

section Aligned

variable {env : HeapEnv} {w : World} {k : Nat} {out : List (Block TcpPacket3)}

theorem recvCalls_aligned {n : Nat} {ps : List (Block TcpPacket3)} {st : Receiver} {w' : World}
    (hrun : (framer env).run (w.next, .header []) w.incoming = some ((k, .header []), out))
    (h : recvCalls env n Receiver.start w = .ok (ps, st) w') :
    ps <+: out ∧ (w'.incoming = [] → ps = out ∧ st = Receiver.start) := by
  obtain ⟨bs, ph', hi, hbs, htr⟩ := recvCalls_run Tracks.start h
  rw [hi] at hrun
  obtain ⟨t, o₁, o₂, h₁, h₂, ho⟩ := Transducer.run_split hrun
  rw [hbs] at h₁
  simp only [Option.some.injEq, Prod.mk.injEq] at h₁
  obtain ⟨rfl, rfl⟩ := h₁
  refine ⟨⟨o₂, ho.symm⟩, fun hnil => ?_⟩
  rw [hnil] at h₂
  simp only [Transducer.run_nil, Option.some.injEq, Prod.mk.injEq] at h₂
  obtain ⟨⟨-, rfl⟩, rfl⟩ := h₂
  exact ⟨by simpa using ho.symm, htr.eq_start⟩

theorem recvCalls_complete
    (hrun : (framer env).run (w.next, .header []) w.incoming = some ((k, .header []), out))
    (hsupply : 2 * w.incoming.length ≤ w.supply) :
    ∃ n w', recvCalls env n Receiver.start w = .ok (out, Receiver.start) w' ∧
      w'.incoming = [] := by
  obtain ⟨n, st', w', h, hnil, htr⟩ := recvCalls_finish Tracks.start hrun (by simp) hsupply
  exact ⟨n, w', htr.eq_start ▸ h, hnil⟩

end Aligned

/-- Stream reassembly. The calls return the packets of the stream whose allocation
succeeds, in order and no others, however the stream is cut and whichever calls
fail; a run that has read all of it is back in the initial state, and a script
with enough productive calls reads all of it. -/
theorem recvTcpPacket3_reassembles (env : HeapEnv) (ps : List WirePacket) (w : World)
    (hw : w.incoming = wireBytes ps) :
    (∀ p ∈ ps, p.Received p.record) ∧
    (∀ n f w', recvCalls env n Receiver.start w ≠ .error (.fault f) w') ∧
    (∀ n out st w', recvCalls env n Receiver.start w = .ok (out, st) w' →
      out <+: delivered env w.next ps ∧
        (w'.incoming = [] → out = delivered env w.next ps ∧ st = Receiver.start)) ∧
    (2 * (wireBytes ps).length ≤ w.supply →
      ∃ n w', recvCalls env n Receiver.start w = .ok (delivered env w.next ps, Receiver.start) w' ∧
        w'.incoming = []) := by
  have hrun := framer_wireBytes env w.next ps
  rw [← hw] at hrun ⊢
  refine ⟨fun p _ => p.received_record,
    fun n f w' => recvCalls_no_fault Tracks.start (by simp [hrun]),
    fun n out st w' h => recvCalls_aligned hrun h, fun hs => recvCalls_complete hrun hs⟩

/-- Two packets, the memory of the first one refused, in pieces of up to three bytes. -/
theorem recvTcpPacket3_reassembles_two :
    let env : HeapEnv := ⟨fun n => n ≠ 0, fun _ => []⟩
    let ps : List WirePacket := [⟨1, 0, 1, [104, 105], by decide⟩, ⟨1, 0x80, 2, [7], by decide⟩]
    let w : World :=
      { incoming := wireBytes ps
        rxScript := [.fail 6, .ready 0] ++ List.replicate 40 (.ready 3) }
    ∃ n w', recvCalls env n Receiver.start w = .ok (delivered env w.next ps, Receiver.start) w' ∧
      w'.incoming = [] := by
  intro env ps w
  exact (recvTcpPacket3_reassembles env ps w rfl).2.2.2 (by decide)

end NucleoW5500
