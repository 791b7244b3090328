import NucleoW5500.Ticks

/-! When the program's time-limited loops stop and its periodic calls answer. -/

namespace NucleoW5500.Ticks

open Wrapping

theorem ticksSince_eq_elapsed (since now : UInt32) :
    ticksSince since now = elapsed (2 ^ 32) since.toNat now.toNat :=
  UInt32.toNat_sub now since

theorem toNat_ofInt_of_nonneg {n : Int} (h₀ : 0 ≤ n) (h : n < 2 ^ 32) :
    (UInt32.ofInt n).toNat = n.toNat := by
  obtain ⟨k, rfl⟩ := Int.eq_ofNat_of_zero_le h₀
  rw [UInt32.ofInt, UInt32.toNat_ofNat']
  omega

section Loops

variable {β : Type} {start : UInt32} {loopSeconds : Int}

theorem loopWhile_eq_cons_iff (test test' : UInt32 → Bool) (tick : UInt32) (b : β)
    (rest : List (UInt32 × β)) :
    loopWhile test ((tick, b) :: rest) = loopWhile test' ((tick, b) :: rest) ↔
      test tick = test' tick ∧ (test' tick = true → loopWhile test rest = loopWhile test' rest) := by
  rw [loopWhile, loopWhile]
  cases test tick <;> cases test' tick <;> simp [Prod.ext_iff]

theorem lt_endTick_iff (start limit tick : UInt32) :
    (tick < start + limit ↔ ticksSince start tick < limit.toNat) ↔
      (start.toNat + ticksSince start tick < 2 ^ 32 ↔ start.toNat + limit.toNat < 2 ^ 32) := by
  have hend : (start + limit).toNat = after (2 ^ 32) start.toNat limit.toNat :=
    UInt32.toNat_add start limit
  rw [UInt32.lt_iff_toNat_lt, hend, ticksSince_eq_elapsed]
  exact lt_after_iff start.toNat_lt tick.toNat_lt limit.toNat_lt

theorem loopWhile_eq_fullTime_iff (start limit : UInt32) (turns : List (UInt32 × β)) :
    loopWhile (fun tick => tick < start + limit) turns = fullTime start limit.toNat turns ↔
      SameSide start limit.toNat turns := by
  induction turns with
  | nil => exact iff_of_true rfl trivial
  | cons turn rest ih =>
    obtain ⟨tick, b⟩ := turn
    have htest := lt_endTick_iff start limit tick
    rw [fullTime, loopWhile_eq_cons_iff, SameSide, ← htest, decide_eq_decide, decide_eq_true_iff]
    exact and_congr_right fun _ => imp_congr_right fun _ => ih

theorem timeLoop_eq_iff (h₀ : 0 ≤ loopSeconds * ticksPerSecond)
    (h : loopSeconds * ticksPerSecond < 2 ^ 32) (turns : List (UInt32 × β)) :
    timeLoop start loopSeconds turns = fullTime start (loopSeconds * ticksPerSecond).toNat turns ↔
      SameSide start (loopSeconds * ticksPerSecond).toNat turns := by
  have hloop := loopWhile_eq_fullTime_iff start (UInt32.ofInt (loopSeconds * ticksPerSecond)) turns
  rwa [toNat_ofInt_of_nonneg h₀ h] at hloop

/-- `HAL_Delay` compares the ticks that have passed, and keeps to its time across the wrap. -/
theorem halDelay_eq (delay : UInt32) (turns : List (UInt32 × β)) :
    halDelay start delay turns = fullTime start delay.toNat turns := by
  unfold halDelay fullTime
  congr

end Loops

theorem wizGetDhcpIp_polls {status : List UInt8} {socket : ℕ}
    (hsocket : wizGetAvailableSocketNo status = some socket) (mac : List UInt8)
    (netinfo : WizNetInfo) (lease : Lease) (start : UInt32) (turns : List (UInt32 × DhcpRun)) :
    ((wizGetDhcpIp status mac netinfo lease start turns).polls,
      (wizGetDhcpIp status mac netinfo lease start turns).ended) = timeLoop start 5 turns := by
  rw [wizGetDhcpIp, hsocket]
  obtain ⟨polls, ended⟩ := timeLoop start 5 turns
  cases ended with
  | false => rfl
  | true => by_cases hleased : DhcpRun.ipLeased ∈ polls <;> simp [hleased]

/-- A time-limited loop keeps to its time exactly if its tests see the counter on the side of the
wrap on which the end tick is. -/
theorem timeLoop_keeps_time_iff {β : Type} (start : UInt32) {loopSeconds : Int}
    (h₀ : 0 < loopSeconds) (h : loopSeconds * ticksPerSecond < 2 ^ 31)
    (turns : List (UInt32 × β)) :
    (timeLoop start loopSeconds turns =
        fullTime start (loopSeconds * ticksPerSecond).toNat turns ↔
      SameSide start (loopSeconds * ticksPerSecond).toNat turns) ∧
    ∀ status mac netinfo lease dhcpTurns, wizGetAvailableSocketNo status ≠ none →
      (((wizGetDhcpIp status mac netinfo lease start dhcpTurns).polls,
        (wizGetDhcpIp status mac netinfo lease start dhcpTurns).ended) =
          fullTime start 5000 dhcpTurns ↔ SameSide start 5000 dhcpTurns) := by
  constructor
  · apply timeLoop_eq_iff
    · rw [ticksPerSecond]
      omega
    · omega
  · intro status mac netinfo lease dhcpTurns hsocket
    obtain ⟨socket, hsome⟩ := Option.ne_none_iff_exists'.mp hsocket
    rw [wizGetDhcpIp_polls hsome]
    exact timeLoop_eq_iff (by decide) (by decide) dhcpTurns

theorem timeLoop_keeps_time_from_zero :
    timeLoop 0 5 [(0, 'a'), (4999, 'b'), (5000, 'c')] =
        fullTime 0 5000 [(0, 'a'), (4999, 'b'), (5000, 'c')] ↔
      SameSide 0 5000 [(0, 'a'), (4999, 'b'), (5000, 'c')] :=
  have h : (0 : Int) < 5 ∧ 5 * ticksPerSecond < 2 ^ 31 := by decide
  (timeLoop_keeps_time_iff 0 h.1 h.2 _).1

/-- Entered a second before the wrap, the five seconds are over at once. -/
theorem timeLoop_skips_at_wrap :
    ¬ ∀ (start : UInt32) (loopSeconds : Int), 0 < loopSeconds →
      loopSeconds * ticksPerSecond < 2 ^ 31 → ∀ turns : List (UInt32 × DhcpRun),
        timeLoop start loopSeconds turns =
          fullTime start (loopSeconds * ticksPerSecond).toNat turns := by
  intro h
  have hloop := h 4294966296 5 (by decide) (by decide) [(4294966296, .running)]
  exact absurd hloop (by decide)

section Periodic

variable {amount limit : Int} {p : ℕ}

/-- What the answers of the two functions mean. -/
def due (b : Bool) : Int := if b then 1 else 0

/-- The calls at which a function that is armed at 0 or sees a smaller tick is still right. -/
def Steady (p : ℕ) (since now : UInt32) : Prop :=
  (since = 0 → now = 0) ∧ (now < since → p ≤ ticksSince since now)

instance (p : ℕ) (since now : UInt32) : Decidable (Steady p since now) :=
  inferInstanceAs (Decidable (_ ∧ _))

theorem runPerX_eq_poll_iff (ha : 0 < amount) (h₀ : 0 < limit) (h : limit < 2 ^ 31)
    (since now : UInt32) :
    runPerX amount limit since now =
        (due (poll ticksSince limit.toNat since now).1, (poll ticksSince limit.toNat since now).2) ↔
      Steady limit.toNat since now := by
  have hlimit := toNat_ofInt_of_nonneg (n := limit) (by omega) (by omega)
  have htest : now - since < UInt32.ofInt limit ↔ ¬ limit.toNat ≤ ticksSince since now := by
    rw [UInt32.lt_iff_toNat_lt, hlimit, ticksSince]
    omega
  rw [runPerX, if_neg (by omega), Steady, poll]
  by_cases hzero : since = 0
  · subst hzero
    have hnow : ticksSince 0 now = now.toNat := by rw [ticksSince, UInt32.sub_zero]
    by_cases hdue : limit.toNat ≤ ticksSince 0 now
    · have hne : now ≠ 0 := by
        rintro rfl
        rw [hnow, UInt32.toNat_zero] at hdue
        omega
      simp [hdue, due, hne]
    · simp [hdue, due]
  · by_cases hwrap : now < since
    · by_cases hdue : limit.toNat ≤ ticksSince since now <;> simp [hzero, hwrap, hdue, due]
    · by_cases hdue : limit.toNat ≤ ticksSince since now <;>
        simp [hzero, hwrap, hdue, htest, due]

theorem Periodic.call_eq (f : Periodic) : f.call = runPerX f.amount f.period := by
  cases f with
  | seconds second tickPerSecond =>
    funext prev cur
    rw [Periodic.period, Int.mul_comm]
    rfl
  | ticks xTicks => rfl

/-- A run whose first call is at `first` and arms the function. -/
def Periodic.OnTime (f : Periodic) (first : UInt32) (rest : List UInt32) : Prop :=
  outputs f.call 0 (first :: rest) = 0 :: (polls ticksSince f.period.toNat first rest).map due

theorem Periodic.onTime (f : Periodic) (h₀ : 0 < f.period) (h : f.period < 2 ^ 31)
    (ha : 0 < f.amount) (first : UInt32) (rest : List UInt32)
    (hrest : Along ticksSince f.period.toNat (Steady f.period.toNat) first rest) :
    f.OnTime first rest := by
  have hfirst : f.call 0 first = (0, first) := by
    rw [f.call_eq, runPerX, if_neg (by omega), if_pos rfl]
  have hstep : ∀ prev since now, prev = since → Steady f.period.toNat since now →
      (f.call prev now).1 = due (poll ticksSince f.period.toNat since now).1 ∧
        (f.call prev now).2 = (poll ticksSince f.period.toNat since now).2 := by
    rintro prev since now rfl hsteady
    rw [f.call_eq, (runPerX_eq_poll_iff ha h₀ h prev now).mpr hsteady]
    exact ⟨rfl, rfl⟩
  rw [OnTime, outputs, hfirst]
  exact congrArg (0 :: ·) (outputs_eq_polls hstep rfl hrest)

theorem Periodic.onTime_thousand :
    (Periodic.ticks 1000).OnTime 4294967290 [4294967295, 1000, 1999, 2000] :=
  Periodic.onTime (.ticks 1000) (by decide) (by decide) (by decide) _ _
    ⟨by decide, by decide, by decide, by decide, trivial⟩

/-- The readings of a counter that gains `advances`. -/
def readings : UInt32 → List ℕ → List UInt32
  | _, [] => []
  | now, n :: ns => (now + UInt32.ofNat n) :: readings (now + UInt32.ofNat n) ns

/-- Armed a second before the wrap, a call for every 100 seconds answers after two. -/
theorem Periodic.early_after_wrap :
    ¬ ∀ f : Periodic, 0 < f.period → f.period < 2 ^ 31 → ∀ (first : UInt32) (advances : List ℕ),
      (∀ n ∈ advances, n < 2 ^ 31) → f.OnTime first (readings first advances) := by
  intro h
  have hrun := h (.seconds 100 1000) (by decide) (by decide) 4294966296 [2000] (by decide)
  exact absurd hrun (by unfold Periodic.OnTime; decide)

end Periodic

section SysTick

/-- After `n` interrupts. -/
structure Counted (n : ℕ) (s : SysTick) : Prop where
  calls : s.calls = n / 1000
  since : ticksSince s.prevTick s.uwTick = n % 1000

theorem ticksSince_succ (since now : UInt32) :
    ticksSince since (now + 1) = (ticksSince since now + 1) % 2 ^ 32 := by
  have hshift : now + 1 - since = now - since + 1 := by
    rw [UInt32.sub_eq_add_neg, UInt32.sub_eq_add_neg, UInt32.add_assoc, UInt32.add_comm 1,
      UInt32.add_assoc]
  rw [ticksSince, hshift, UInt32.toNat_add]
  rfl

theorem Counted.sysTickHandler {n : ℕ} {s : SysTick} (h : Counted n s) :
    Counted (n + 1) (sysTickHandler s) := by
  have hsince : ticksSince s.prevTick (s.uwTick + 1) = n % 1000 + 1 := by
    rw [ticksSince_succ, h.since]
    omega
  have htest : UInt32.ofInt ticksPerSecond ≤ (halIncTick s).uwTick - (halIncTick s).prevTick ↔
      1000 ≤ n % 1000 + 1 := by
    rw [UInt32.le_iff_toNat_le, ← hsince]
    exact Iff.rfl
  have hcalls := h.calls
  rw [Ticks.sysTickHandler, halSystickCallback]
  by_cases hsecond : 1000 ≤ n % 1000 + 1
  · rw [if_pos (htest.mpr hsecond)]
    refine ⟨?_, ?_⟩
    · show s.calls + 1 = (n + 1) / 1000
      omega
    · show (s.uwTick + 1 - (s.uwTick + 1)).toNat = (n + 1) % 1000
      rw [UInt32.sub_self, UInt32.toNat_zero]
      omega
  · rw [if_neg fun hle => hsecond (htest.mp hle)]
    refine ⟨?_, ?_⟩
    · show s.calls = (n + 1) / 1000
      omega
    · show ticksSince s.prevTick (s.uwTick + 1) = (n + 1) % 1000
      omega

theorem Counted.run {n : ℕ} {s : SysTick} (h : Counted n s) (steps : List TickStep) :
    Counted (n + steps.count .interrupt) (steps.foldl TickStep.run s) := by
  induction steps generalizing n s with
  | nil => exact h
  | cons step rest ih =>
    cases step with
    | interrupt =>
      rw [List.count_cons_self, Nat.add_comm (rest.count _), ← Nat.add_assoc]
      exact ih h.sysTickHandler
    | reset =>
      rw [List.count_cons_of_ne (by decide)]
      exact ih ⟨h.calls, h.since⟩

/-- `DHCP_time_handler` has been called once for each full thousand of interrupts. -/
theorem dhcpTimeHandler_calls (steps : List TickStep) :
    (steps.foldl TickStep.run .start).calls = steps.count .interrupt / 1000 := by
  have hstart : Counted 0 SysTick.start := ⟨rfl, rfl⟩
  have hrun := (hstart.run steps).calls
  rwa [Nat.zero_add] at hrun

end SysTick

end NucleoW5500.Ticks
