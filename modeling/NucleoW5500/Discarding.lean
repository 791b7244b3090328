import NucleoW5500.ReceiverSteps
import NucleoW5500.Lockstep

/-! When the loop of `eat_tcp_data` comes to an end, whatever answers it gets. -/

namespace NucleoW5500

/-- The most that one call of the loop can take: it asks for 128 bytes at most. -/
def RxEvent.given : RxEvent → Nat
  | .fail _ => 0
  | .ready count => min count 128

/-- The most that the first `n` calls can take. -/
def given (s : Nat → RxEvent) : Nat → Nat
  | 0 => 0
  | n + 1 => given s n + (s n).given

def Disconnected (s : Nat → RxEvent) (n : Nat) : Prop := ∀ i, n ≤ i → ∃ code, s i = .fail code

/-- The world in which the first `n` answers of `s` come. -/
def World.answered (w : World) (s : Nat → RxEvent) (n : Nat) : World :=
  { w with rxScript := (List.range n).map s }

theorem given_mono (s : Nat → RxEvent) {n m : Nat} (h : n ≤ m) : given s n ≤ given s m := by
  induction h with
  | refl => exact le_rfl
  | step _ ih => exact ih.trans (Nat.le_add_right _ _)

theorem given_le {s : Nat → RxEvent} {n : Nat} (h : Disconnected s n) (m : Nat) :
    given s m ≤ given s n := by
  rcases Nat.le_total m n with hmn | hnm
  · exact given_mono s hmn
  · induction hnm with
    | refl => exact le_rfl
    | step hle ih =>
      obtain ⟨code, hcode⟩ := h _ hle
      rw [given, hcode]
      exact ih

theorem sum_given (s : Nat → RxEvent) (n : Nat) :
    (((List.range n).map s).map RxEvent.given).sum = given s n := by
  induction n with
  | zero => rfl
  | succ n ih => rw [List.range_succ, List.map_append, List.map_append, List.sum_append, ih]; rfl

/-- One turn of the loop takes what the call gives, as far as the stream has it. -/
theorem recv_given {e : RxEvent} {es : List RxEvent} {len : Nat} (hpos : 0 < len) (hlt : len ≤ 128)
    {w : World} (hs : w.rxScript = e :: es) :
    ∃ r w', recv (UInt16.ofInt len) w = .ok r w' ∧ w'.rxScript = es ∧
      w.incoming.length = r.bytes.length + w'.incoming.length ∧
      r.bytes.length = min (min e.given len) w.incoming.length := by
  have hne := ofInt_ne_zero hpos (by omega)
  have hl := toNat_ofInt_of_lt (show len < 65536 by omega)
  cases e with
  | fail code =>
    refine ⟨_, _, recv_fail hne hs, rfl, ?_, ?_⟩
    · simp [RxReply.bytes]
    · simp [RxReply.bytes, RxEvent.given]
  | ready count =>
    have hrecv := recv_ready hne hs
    rw [hl] at hrecv
    refine ⟨_, _, hrecv, rfl, ?_, ?_⟩
    · simp only [RxReply.bytes, List.length_take, List.length_drop]
      omega
    · simp only [RxReply.bytes, List.length_take, RxEvent.given]
      omega

theorem RxEvent.given_le (e : RxEvent) : e.given ≤ 128 := by
  cases e with
  | fail code => exact Nat.zero_le _
  | ready count => exact Nat.min_le_right _ _

theorem eatTcpDataLoop_ok_iff (size : Nat) (es : List RxEvent) {readSize remain : Nat} {w : World}
    (hs : w.rxScript = es) (hpos : 0 < remain) (hle : remain ≤ size)
    (hread : min remain readSize = min remain 128) :
    (∃ w', eatTcpDataLoop size (es.length + 1) readSize remain (size - remain : Nat) w =
        .ok () w') ↔
      remain ≤ w.incoming.length ∧ remain ≤ (es.map RxEvent.given).sum := by
  induction es generalizing readSize remain w with
  | nil =>
    rw [eatTcpDataLoop]
    refine iff_of_false ?_ ?_
    · rintro ⟨w', h⟩
      rw [CM.bind_error (recv_blocked hs)] at h
      cases h
    · rintro ⟨-, h⟩
      exact absurd (Nat.lt_of_lt_of_le hpos h) (by simp)
  | cons e es ih =>
    have hlen : (if (remain : Int) < readSize then (remain : Int) else readSize) =
        (min remain 128 : Nat) := by
      rw [← hread]
      split_ifs <;> omega
    have hgiven := e.given_le
    obtain ⟨r, w₁, hrecv, hs₁, hin, hbytes⟩ :=
      recv_given (show 0 < min remain 128 by omega) (Nat.min_le_right _ _) hs
    rw [List.length_cons, eatTcpDataLoop, hlen, CM.bind_ok hrecv, List.map_cons, List.sum_cons]
    -- an error takes nothing, so both answers end the turn in the same way
    have hturn : ∀ b : Nat, b = r.bytes.length →
        ((∃ w', (if ((size - remain : Nat) : Int) + b < size then
            eatTcpDataLoop size (es.length + 1) (min remain 128 : Nat) (remain - b)
              ((size - remain : Nat) + b) else pure ()) w₁ = .ok () w') ↔
          remain ≤ w.incoming.length ∧ remain ≤ e.given + (es.map RxEvent.given).sum) := by
      intro b hb
      by_cases hmore : b < remain
      · have hrest : (remain : Int) - b = (remain - b : Nat) := by omega
        have hgot : ((size - remain : Nat) : Int) + b = (size - (remain - b) : Nat) := by omega
        rw [if_pos (by omega), hrest, hgot, ih hs₁ (by omega) (by omega) (by omega)]
        omega
      · rw [if_neg (by omega)]
        exact iff_of_true ⟨w₁, rfl⟩ ⟨by omega, by omega⟩
    cases r with
    | got bs => exact hturn bs.length rfl
    | err code => simpa using hturn 0 rfl

theorem eatTcpData_ok_iff {size : Nat} (hpos : 1 ≤ size) (s : Nat → RxEvent) (w : World) (n : Nat) :
    (∃ w', eatTcpData size (w.answered s n) = .ok () w') ↔
      size ≤ w.incoming.length ∧ size ≤ given s n := by
  have hloop := eatTcpDataLoop_ok_iff size _ (w := w.answered s n) rfl hpos le_rfl rfl
  rw [Nat.sub_self] at hloop
  rw [← sum_given]
  exact hloop

/-- The loop comes to an end exactly if the connection has brought the packet before it is gone. -/
theorem eatTcpData_ends_iff {size : Nat} (hpos : 1 ≤ size) {s : Nat → RxEvent} {n : Nat}
    (hgone : Disconnected s n) (w : World) :
    (∃ m w', eatTcpData size (w.answered s m) = .ok () w') ↔
      size ≤ w.incoming.length ∧ size ≤ given s n := by
  constructor
  · rintro ⟨m, h⟩
    obtain ⟨hin, hm⟩ := (eatTcpData_ok_iff hpos s w m).mp h
    exact ⟨hin, hm.trans (given_le hgone m)⟩
  · intro h
    exact ⟨n, (eatTcpData_ok_iff hpos s w n).mpr h⟩

theorem eatTcpData_ends_after_two :
    ∃ m w', eatTcpData 2 (World.answered { incoming := [7, 8] }
      (fun i => if i < 2 then .ready 1 else .fail 6) m) = .ok () w' := by
  have hgone : Disconnected (fun i => if i < 2 then .ready 1 else .fail 6) 2 := fun i hi =>
    ⟨6, if_neg (by omega)⟩
  exact (eatTcpData_ends_iff (by decide) hgone { incoming := [7, 8] }).mpr ⟨by decide, by decide⟩

/-- One byte is left of the packet, and the connection is gone. -/
theorem eatTcpData_goes_on :
    ¬ ∀ (size : Nat) (s : Nat → RxEvent) (n : Nat) (w : World), 1 ≤ size → Disconnected s n →
      ∃ m w', eatTcpData size (w.answered s m) = .ok () w' := by
  intro h
  have hgone : Disconnected (fun _ => .fail 6) 0 := fun _ _ => ⟨6, rfl⟩
  obtain ⟨m, w', hend⟩ := h 1 (fun _ => .fail 6) 0 {} (by decide) hgone
  have hlen := ((eatTcpData_ok_iff (by decide) (fun _ => .fail 6) {} m).mp ⟨w', hend⟩).1
  exact absurd hlen (by decide)

end NucleoW5500
