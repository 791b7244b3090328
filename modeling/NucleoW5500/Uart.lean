import NucleoW5500.Socket

/-! The console writer of the board and the driver call it is a loop around. The driver
counts a byte off before it waits for room in the data register. -/

namespace NucleoW5500.Uart

open CString Lockstep

inductive HalStatus
  | ok
  | error
  | busy
  | timeout
  deriving DecidableEq, Repr

/-- What a call of the driver meets: a handle that is taken, or the number of its waits
for a flag that end in time. -/
inductive TxTurn
  | busy
  | waits (n : Nat)
  deriving DecidableEq, Repr

structure Handle where
  turns : List TxTurn := []
  txXferSize : UInt16 := 0
  txXferCount : UInt16 := 0
  tdr : List UInt8 := []
  asked : List (UInt16 × UInt32) := []
  deriving DecidableEq, Repr

abbrev UM := EStateM Halt Handle

/-- The driver's loop over `TxXferCount` from `pData = &buf[i]`, and the wait for the last
byte to leave: the status, the count it leaves and the bytes it puts in the data register. -/
def transmitLoop (buf : List UInt8) : Nat → Nat → Nat → HalStatus × Nat × List UInt8
  | 0, _, 0 => (.timeout, 0, [])
  | 0, _, _ + 1 => (.ok, 0, [])
  -- `TxXferCount` is down by one when the wait for `UART_FLAG_TXE` runs out
  | count + 1, _, 0 => (.timeout, count, [])
  | count + 1, i, waits + 1 =>
    let (status, left, bytes) := transmitLoop buf count (i + 1) waits
    (status, left, peek buf i :: bytes)

/-- `HAL_UART_Transmit(&huart3, &buf[i], Size, Timeout)`. On a timeout the handle is free
again for the next call. -/
def halUartTransmit (buf : List UInt8) (i : Nat) (size : UInt16) (timeout : UInt32) :
    UM HalStatus := fun u =>
  let u := { u with asked := u.asked ++ [(size, timeout)] }
  match u.turns with
  | [] => .error .blocked u
  | turn :: turns =>
    let u := { u with turns }
    match turn with
    | .busy => .ok .busy u
    | .waits n =>
      if size = 0 then .ok .error u
      else
        let (status, left, bytes) := transmitLoop buf size.toNat i n
        .ok status
          { u with txXferSize := size, txXferCount := UInt16.ofNat left, tdr := u.tdr ++ bytes }

def maxTransfer : Int := 65535

def writeTpms : Int := 115200 / 8 / 2 / 1000

/-- `while (HAL_BUSY == HAL_UART_Transmit(...))`. The fuel is one more than the calls
left in the script. -/
def transmitWhileBusy (buf : List UInt8) (i : Nat) (size : UInt16) (timeout : UInt32) :
    Nat → UM Unit
  | 0 => fun u => .error .blocked u
  | fuel + 1 => do
    let status ← halUartTransmit buf i size timeout
    if status = .busy then transmitWhileBusy buf i size timeout fuel else pure ()

def transferSize (remainSize : Int) : UInt16 :=
  if remainSize > maxTransfer then UInt16.ofInt maxTransfer else UInt16.ofInt remainSize

def transferWait (transfer : UInt16) (wait : Int) : Int :=
  if (transfer.toNat : Int) > writeTpms * wait then transfer.toNat / writeTpms + 1 else wait

/-- The loop of `console_writeb`. Each turn makes a call that is not busy, so the fuel is
one more than the calls left in the script. -/
def consoleWritebLoop (buf : List UInt8) : Nat → Int → Int → Int → UM Unit
  | 0, _, _, _ => fun u => .error .blocked u
  | fuel + 1, wait, writeSize, remainSize =>
    if remainSize > 0 then do
      let transfer := transferSize remainSize
      let wait := transferWait transfer wait
      transmitWhileBusy buf writeSize.toNat transfer (UInt32.ofInt wait) (fuel + 1)
      let left := (← get).txXferCount
      let transferred : Int := transfer.toNat - left.toNat
      consoleWritebLoop buf fuel wait (writeSize + transferred) (remainSize - transferred)
    else pure ()

def consoleWriteb (buf : List UInt8) (size : Int) : UM Unit := fun u =>
  consoleWritebLoop buf (u.turns.length + 1) 50 0 size u

def grants : List TxTurn → List Nat
  | [] => []
  | .busy :: turns => grants turns
  | .waits n :: turns => n :: grants turns

/-- No granted call runs out of time before the chunk it was given is in the data register. -/
def InTime (ns : List Nat) (size : Nat) : Prop :=
  ∀ j n, ns[j]? = some n → min 65535 (size - 65535 * j) ≤ n

/-- The time a call is given, at `WRITE_TPMS` bytes each millisecond. -/
def EnoughTime (ask : UInt16 × UInt32) : Prop := (ask.1.toNat : Int) ≤ writeTpms * ask.2.toNat

def AsksEnough (u u' : Handle) : Prop := ∀ ask ∈ u'.asked, ask ∈ u.asked ∨ EnoughTime ask

instance : Std.Refl AsksEnough := ⟨fun _ _ h => Or.inl h⟩

instance : IsTrans Handle AsksEnough where
  trans _ _ _ h h' ask hask := (h' ask hask).elim (h ask) Or.inr

/-- What the calls that find the handle free put in the data register when `remain` bytes
from `buf[i]` are still to be written; `none` if they do not end the loop. -/
def written (buf : List UInt8) : List Nat → Nat → Nat → Option (List UInt8)
  | _, _, 0 => some []
  | [], _, _ + 1 => none
  | n :: ns, i, remain + 1 =>
    let transfer := min 65535 (remain + 1)
    let transferred := min transfer (n + 1)
    (written buf ns (i + transferred) (remain + 1 - transferred)).map
      (read buf i (min transfer n) ++ ·)

theorem transmitLoop_eq (buf : List UInt8) (count i waits : Nat) :
    transmitLoop buf count i waits =
      (if count < waits then .ok else .timeout, count - (waits + 1),
        read buf i (min count waits)) := by
  induction count generalizing i waits with
  | zero => cases waits <;> simp [transmitLoop, CString.read]
  | succ count ih =>
    cases waits with
    | zero => simp [transmitLoop, CString.read]
    | succ waits =>
      have hmin : min (count + 1) (waits + 1) = min count waits + 1 := by omega
      simp only [transmitLoop, ih, hmin, read_succ]
      simp

theorem halUartTransmit_busy {buf : List UInt8} {i : Nat} {size : UInt16} {timeout : UInt32}
    {u : Handle} {turns : List TxTurn} (h : u.turns = .busy :: turns) :
    halUartTransmit buf i size timeout u =
      .ok .busy { u with turns, asked := u.asked ++ [(size, timeout)] } := by
  simp [halUartTransmit, h]

theorem halUartTransmit_waits {buf : List UInt8} {i : Nat} {size : UInt16} {timeout : UInt32}
    {u : Handle} {n : Nat} {turns : List TxTurn} (hsize : size ≠ 0)
    (h : u.turns = .waits n :: turns) :
    halUartTransmit buf i size timeout u =
      .ok (if size.toNat < n then .ok else .timeout)
        { turns, txXferSize := size, txXferCount := UInt16.ofNat (size.toNat - (n + 1)),
          tdr := u.tdr ++ read buf i (min size.toNat n)
          asked := u.asked ++ [(size, timeout)] } := by
  simp [halUartTransmit, h, hsize, transmitLoop_eq]

section Turns

variable (buf : List UInt8)

theorem transmitWhileBusy_ok {i : Nat} {size : UInt16} {timeout : UInt32} (hsize : size ≠ 0)
    {fuel : Nat} {u : Handle} {n : Nat} {ns : List Nat} (hfuel : u.turns.length < fuel)
    (h : grants u.turns = n :: ns) :
    ∃ u', transmitWhileBusy buf i size timeout fuel u = .ok () u' ∧ grants u'.turns = ns ∧
      u'.turns.length < u.turns.length ∧ u'.txXferCount.toNat = size.toNat - (n + 1) ∧
      u'.tdr = u.tdr ++ read buf i (min size.toNat n) := by
  induction fuel generalizing u with
  | zero => omega
  | succ fuel ih =>
    rw [transmitWhileBusy]
    cases hts : u.turns with
    | nil => simp [hts, grants] at h
    | cons turn turns =>
      rw [hts, List.length_cons] at hfuel
      rw [hts] at h
      cases turn with
      | busy =>
        obtain ⟨u', hu', hg, hl, hc, htdr⟩ :=
          @ih { u with turns, asked := u.asked ++ [(size, timeout)] } (Nat.lt_of_succ_lt_succ hfuel) h
        rw [bind_ok (halUartTransmit_busy hts)]
        exact ⟨u', hu', hg, Nat.lt_succ_of_lt hl, hc, htdr⟩
      | waits m =>
        obtain ⟨rfl, rfl⟩ := List.cons.inj h
        have hlt := size.toNat_lt
        rw [bind_ok (halUartTransmit_waits hsize hts)]
        have hcount : (UInt16.ofNat (size.toNat - (m + 1))).toNat = size.toNat - (m + 1) := by
          rw [UInt16.toNat_ofNat']
          omega
        by_cases hm : size.toNat < m
        · rw [if_pos hm]
          exact ⟨_, rfl, rfl, Nat.lt_succ_self _, hcount, rfl⟩
        · rw [if_neg hm]
          exact ⟨_, rfl, rfl, Nat.lt_succ_self _, hcount, rfl⟩

theorem transmitWhileBusy_blocked {i : Nat} {size : UInt16} {timeout : UInt32} {fuel : Nat}
    {u : Handle} (h : grants u.turns = []) :
    ∃ u', transmitWhileBusy buf i size timeout fuel u = .error .blocked u' ∧ u'.tdr = u.tdr := by
  induction fuel generalizing u with
  | zero => exact ⟨u, rfl, rfl⟩
  | succ fuel ih =>
    rw [transmitWhileBusy]
    cases hts : u.turns with
    | nil =>
      have hcall : halUartTransmit buf i size timeout u =
          .error .blocked { u with asked := u.asked ++ [(size, timeout)] } := by
        simp [halUartTransmit, hts]
      rw [bind_error hcall]
      exact ⟨_, rfl, rfl⟩
    | cons turn turns =>
      rw [hts] at h
      cases turn with
      | busy =>
        rw [bind_ok (halUartTransmit_busy hts)]
        exact @ih { u with turns, asked := u.asked ++ [(size, timeout)] } h
      | waits n => simp [grants] at h

theorem transferSize_toNat {remain : Nat} (hpos : 0 < remain) :
    (transferSize remain).toNat = min 65535 remain := by
  rw [transferSize]
  by_cases h : (remain : Int) > maxTransfer
  · have hmax : (UInt16.ofInt maxTransfer).toNat = 65535 := by decide
    rw [if_pos h, hmax]
    rw [maxTransfer] at h
    omega
  · rw [if_neg h]
    rw [maxTransfer] at h
    rw [toNat_ofInt_of_lt (by omega)]
    omega

theorem transferSize_ne_zero {remain : Nat} (hpos : 0 < remain) :
    transferSize remain ≠ 0 := by
  intro h
  have ht := transferSize_toNat hpos
  rw [h] at ht
  have hz : (0 : UInt16).toNat = 0 := rfl
  omega

theorem halUartTransmit_asked (i : Nat) (size : UInt16) (timeout : UInt32) (u : Handle) :
    (final (halUartTransmit buf i size timeout u)).asked = u.asked ++ [(size, timeout)] := by
  unfold halUartTransmit
  cases hts : u.turns with
  | nil => simp [final]
  | cons turn turns =>
    cases turn with
    | busy => simp [final]
    | waits n => by_cases hs : size = 0 <;> simp [hs, final]

theorem halUartTransmit_asks {i : Nat} {size : UInt16} {timeout : UInt32}
    (h : EnoughTime (size, timeout)) :
    Moves AsksEnough (halUartTransmit buf i size timeout) := by
  intro u ask hask
  rw [halUartTransmit_asked] at hask
  rcases List.mem_append.mp hask with hold | hlast
  · exact Or.inl hold
  · rw [List.mem_singleton.mp hlast]
    exact Or.inr h

theorem transmitWhileBusy_asks {i : Nat} {size : UInt16} {timeout : UInt32}
    (h : EnoughTime (size, timeout)) (fuel : Nat) :
    Moves AsksEnough (transmitWhileBusy buf i size timeout fuel) := by
  induction fuel with
  | zero => exact fun u => Std.Refl.refl u
  | succ fuel ih =>
    exact (halUartTransmit_asks buf h).bind fun _ => Moves.ite ih (Moves.pure ())

theorem transferWait_bounds {transfer : UInt16} {wait : Int} (h : 0 ≤ wait ∧ wait < 65536) :
    0 ≤ transferWait transfer wait ∧ transferWait transfer wait < 65536 := by
  have hlt := transfer.toNat_lt
  have htpms : writeTpms = 7 := by decide
  rw [transferWait, htpms]
  by_cases hw : (transfer.toNat : Int) > 7 * wait
  · rw [if_pos hw]
    omega
  · rw [if_neg hw]
    exact h

theorem transferWait_enough {transfer : UInt16} {wait : Int} (h : 0 ≤ wait ∧ wait < 65536) :
    EnoughTime (transfer, UInt32.ofInt (transferWait transfer wait)) := by
  have hb := @transferWait_bounds transfer wait h
  have hn : ((UInt32.ofInt (transferWait transfer wait)).toNat : Int) =
      transferWait transfer wait := by
    rw [UInt32.ofInt, UInt32.toNat_ofNat']
    omega
  have htpms : writeTpms = 7 := by decide
  rw [EnoughTime, hn, transferWait, htpms]
  show (transfer.toNat : Int) ≤ 7 * _
  by_cases hw : (transfer.toNat : Int) > 7 * wait
  · rw [if_pos hw]
    omega
  · rw [if_neg hw]
    omega

theorem consoleWritebLoop_asks {wait : Int} (h : 0 ≤ wait ∧ wait < 65536) (fuel : Nat)
    (writeSize remainSize : Int) :
    Moves AsksEnough (consoleWritebLoop buf fuel wait writeSize remainSize) := by
  induction fuel generalizing wait writeSize remainSize with
  | zero => exact fun u => Std.Refl.refl u
  | succ fuel ih =>
    apply Moves.ite
    · apply (transmitWhileBusy_asks buf (transferWait_enough h) (fuel + 1)).bind
      intro _
      have hget : Moves AsksEnough (get : UM Handle) := fun u => Std.Refl.refl u
      exact hget.bind fun _ => ih (transferWait_bounds h) _ _
    · exact Moves.pure ()

theorem consoleWriteb_asks (size : Int) : Moves AsksEnough (consoleWriteb buf size) :=
  fun u => consoleWritebLoop_asks buf (by omega) (u.turns.length + 1) 0 size u

/-- One turn: the count the driver leaves is one less than the bytes it has not put. -/
theorem consoleWritebLoop_granted {fuel : Nat} {u : Handle} {n : Nat} {ns : List Nat} (wait : Int)
    (i : Nat) {remain : Nat} (hpos : 0 < remain) (hfuel : u.turns.length < fuel + 1)
    (h : grants u.turns = n :: ns) :
    ∃ u', consoleWritebLoop buf (fuel + 1) wait i remain u =
        consoleWritebLoop buf fuel (transferWait (transferSize remain) wait)
          (i + min (min 65535 remain) (n + 1) : Nat)
          (remain - min (min 65535 remain) (n + 1) : Nat) u' ∧
      grants u'.turns = ns ∧ u'.turns.length < u.turns.length ∧
      u'.tdr = u.tdr ++ read buf i (min (min 65535 remain) n) := by
  have ht := transferSize_toNat hpos
  obtain ⟨u', hu', hg, hl, hc, htdr⟩ := @transmitWhileBusy_ok buf i (transferSize remain)
    (UInt32.ofInt (transferWait (transferSize remain) wait)) (transferSize_ne_zero hpos)
    (fuel + 1) u n ns hfuel h
  rw [ht] at hc htdr
  refine ⟨u', ?_, hg, hl, htdr⟩
  rw [consoleWritebLoop, if_pos (by omega), Int.toNat_natCast]
  dsimp only
  rw [bind_ok hu']
  show consoleWritebLoop buf fuel _ (i + ((transferSize remain).toNat - u'.txXferCount.toNat))
    (remain - ((transferSize remain).toNat - u'.txXferCount.toNat)) u' = _
  have hdone : ((min 65535 remain : Nat) : Int) - ((min 65535 remain - (n + 1) : Nat) : Int) =
      (min (min 65535 remain) (n + 1) : Nat) := by omega
  rw [hc, ht, hdone]
  congr 1
  omega

theorem consoleWritebLoop_blocked {fuel : Nat} {u : Handle} (wait : Int) (i : Nat) {remain : Nat}
    (hpos : 0 < remain) (h : grants u.turns = []) :
    ∃ u', consoleWritebLoop buf (fuel + 1) wait i remain u = .error .blocked u' := by
  obtain ⟨u', hu', -⟩ := @transmitWhileBusy_blocked buf i (transferSize remain)
    (UInt32.ofInt (transferWait (transferSize remain) wait)) (fuel + 1) u h
  refine ⟨u', ?_⟩
  rw [consoleWritebLoop, if_pos (by omega), Int.toNat_natCast]
  dsimp only
  rw [bind_error hu']

theorem consoleWritebLoop_run {fuel : Nat} {u : Handle} (wait : Int) (i remain : Nat)
    (hfuel : u.turns.length < fuel) :
    match written buf (grants u.turns) i remain with
    | some bs => ∃ u', consoleWritebLoop buf fuel wait i remain u = .ok () u' ∧ u'.tdr = u.tdr ++ bs
    | none => ∃ u', consoleWritebLoop buf fuel wait i remain u = .error .blocked u' := by
  induction fuel generalizing u wait i remain with
  | zero => omega
  | succ fuel ih =>
    cases remain with
    | zero =>
      rw [written]
      exact ⟨u, rfl, by simp⟩
    | succ remain =>
      cases hg : grants u.turns with
      | nil => exact consoleWritebLoop_blocked buf wait i (Nat.succ_pos remain) hg
      | cons n ns =>
        obtain ⟨u', hu', hg', hl, htdr⟩ :=
          consoleWritebLoop_granted buf wait i (Nat.succ_pos remain) hfuel hg
        have hih := @ih u' (transferWait (transferSize (remain + 1 : Nat)) wait)
          (i + min (min 65535 (remain + 1)) (n + 1))
          (remain + 1 - min (min 65535 (remain + 1)) (n + 1)) (by omega)
        rw [written, hu']
        rw [hg'] at hih
        cases hw : written buf ns (i + min (min 65535 (remain + 1)) (n + 1))
            (remain + 1 - min (min 65535 (remain + 1)) (n + 1)) with
        | none =>
          rw [hw] at hih
          exact hih
        | some bs =>
          rw [hw] at hih
          obtain ⟨u'', hu'', htdr'⟩ := hih
          refine ⟨u'', hu'', ?_⟩
          rw [htdr', htdr, List.append_assoc]

theorem consoleWriteb_run (size : Int) (u : Handle) :
    match written buf (grants u.turns) 0 size.toNat with
    | some bs => ∃ u', consoleWriteb buf size u = .ok () u' ∧ u'.tdr = u.tdr ++ bs
    | none => ∃ u', consoleWriteb buf size u = .error .blocked u' := by
  rcases Int.le_total 0 size with hpos | hneg
  · have hrun := @consoleWritebLoop_run buf (u.turns.length + 1) u 50 0 size.toNat
      (Nat.lt_succ_self _)
    rw [Int.toNat_of_nonneg hpos] at hrun
    exact hrun
  · rw [Int.toNat_of_nonpos hneg, written]
    refine ⟨u, ?_, by simp⟩
    have hno : ¬ (size > 0) := by omega
    simp only [consoleWriteb, consoleWritebLoop, hno, if_false]
    rfl

theorem consoleWriteb_written {size : Int} {u u' : Handle}
    (h : consoleWriteb buf size u = .ok () u') :
    ∃ bs, written buf (grants u.turns) 0 size.toNat = some bs ∧ u'.tdr = u.tdr ++ bs := by
  have hrun := consoleWriteb_run buf size u
  cases hw : written buf (grants u.turns) 0 size.toNat with
  | none =>
    rw [hw] at hrun
    obtain ⟨u'', hu''⟩ := hrun
    simp [h] at hu''
  | some bs =>
    rw [hw] at hrun
    obtain ⟨u'', hu'', htdr⟩ := hrun
    rw [h] at hu''
    cases hu''
    exact ⟨bs, rfl, htdr⟩

theorem written_length_le {ns : List Nat} {i remain : Nat} {bs : List UInt8}
    (h : written buf ns i remain = some bs) : bs.length ≤ remain := by
  induction ns generalizing i remain bs with
  | nil =>
    cases remain with
    | zero => simp_all [written]
    | succ remain => simp [written] at h
  | cons n ns ih =>
    cases remain with
    | zero => simp_all [written]
    | succ remain =>
      rw [written, Option.map_eq_some_iff] at h
      obtain ⟨bs', hbs', rfl⟩ := h
      have hle := ih hbs'
      rw [List.length_append, length_read]
      omega

theorem written_isSome {ns : List Nat} {i remain : Nat} (h : remain ≤ ns.length) :
    (written buf ns i remain).isSome := by
  induction ns generalizing i remain with
  | nil =>
    obtain rfl : remain = 0 := by simpa using h
    rfl
  | cons n ns ih =>
    cases remain with
    | zero => rfl
    | succ remain =>
      rw [written, Option.isSome_map]
      apply ih
      rw [List.length_cons] at h
      omega

theorem consoleWriteb_returns {size : Int} {u : Handle} (h : size.toNat ≤ (grants u.turns).length) :
    ∃ u', consoleWriteb buf size u = .ok () u' := by
  obtain ⟨bs, hbs⟩ := Option.isSome_iff_exists.mp (@written_isSome buf _ 0 _ h)
  have hrun := consoleWriteb_run buf size u
  rw [hbs] at hrun
  obtain ⟨u', hu', -⟩ := hrun
  exact ⟨u', hu'⟩

/-- A call that runs out of time leaves a byte out, and nothing after it makes up for that. -/
theorem written_eq_read_iff {ns : List Nat} {i remain : Nat} {bs : List UInt8}
    (h : written buf ns i remain = some bs) :
    bs = read buf i remain ↔ InTime ns remain := by
  induction ns generalizing i remain bs with
  | nil =>
    cases remain with
    | zero => simp_all [written, CString.read, InTime]
    | succ remain => simp [written] at h
  | cons n ns ih =>
    cases remain with
    | zero => simp_all [written, CString.read, InTime]
    | succ remain =>
      rw [written, Option.map_eq_some_iff] at h
      obtain ⟨bs', hbs', rfl⟩ := h
      by_cases hn : min 65535 (remain + 1) ≤ n
      · rw [Nat.min_eq_left (by omega : min 65535 (remain + 1) ≤ n + 1)] at hbs'
        have hsplit : remain + 1 =
            min 65535 (remain + 1) + (remain + 1 - min 65535 (remain + 1)) := by omega
        have hread := read_add buf i (min 65535 (remain + 1)) (remain + 1 - min 65535 (remain + 1))
        rw [← hsplit] at hread
        rw [Nat.min_eq_left hn, hread, List.append_cancel_left_eq, ih hbs']
        constructor
        · intro hall j m hm
          cases j with
          | zero =>
            obtain rfl : n = m := by simpa using hm
            omega
          | succ j =>
            have hj := hall j m (by simpa using hm)
            omega
        · intro hall j m hm
          have hj := hall (j + 1) m (by simpa using hm)
          omega
      · rw [Nat.min_eq_right (by omega : n + 1 ≤ min 65535 (remain + 1))] at hbs'
        have hle := written_length_le buf hbs'
        refine iff_of_false (fun he => ?_) (fun hall => ?_)
        · have hlen := congrArg List.length he
          rw [List.length_append, length_read, length_read] at hlen
          omega
        · have h0 := hall 0 n rfl
          omega

/-- What the programs that print take for their console is what the data register gets. -/
theorem consoleWriteb_refines {size : Int} {u u' : Handle} {w : World} (hw : w.console = u.tdr)
    (htime : InTime (grants u.turns) size.toNat) (h : consoleWriteb buf size u = .ok () u') :
    NucleoW5500.consoleWriteb buf size w = .ok () { w with console := u'.tdr } := by
  obtain ⟨bs, hbs, htdr⟩ := consoleWriteb_written buf h
  rw [consoleWriteb_ok, hw, htdr, (written_eq_read_iff buf hbs).mpr htime]

end Turns

/-- The bytes of the buffer are put in the data register, each once and in their order,
exactly when no call runs out of time with some of its bytes left. -/
theorem consoleWriteb_every_byte_iff {buf : List UInt8} {size : Int} {u u' : Handle}
    (h : consoleWriteb buf size u = .ok () u') :
    u'.tdr = u.tdr ++ read buf 0 size.toNat ↔ InTime (grants u.turns) size.toNat := by
  obtain ⟨bs, hbs, htdr⟩ := consoleWriteb_written buf h
  rw [htdr, List.append_cancel_left_eq, written_eq_read_iff buf hbs]

theorem consoleWriteb_every_byte_late_stop :
    let u : Handle := { turns := [.busy, .waits 3] }
    let u' : Handle :=
      { txXferSize := 3, tdr := [104, 105, 10], asked := [(3, 50), (3, 50)] }
    consoleWriteb [104, 105, 10] 3 u = .ok () u' ∧
      (u'.tdr = u.tdr ++ read [104, 105, 10] 0 3 ↔ InTime (grants u.turns) 3) := by
  intro u u'
  have h : consoleWriteb [104, 105, 10] 3 u = .ok () u' := rfl
  exact ⟨h, consoleWriteb_every_byte_iff h⟩

theorem consoleWriteb_skips_byte :
    let u : Handle := { turns := [.waits 0, .waits 9] }
    let u' : Handle := { txXferSize := 1, tdr := [105], asked := [(2, 50), (1, 50)] }
    consoleWriteb [104, 105] 2 u = .ok () u' ∧ u'.tdr ≠ u.tdr ++ read [104, 105] 0 2 := by
  exact ⟨rfl, by decide⟩

end NucleoW5500.Uart
