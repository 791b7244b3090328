import Mathlib.Algebra.Ring.Int.Defs
import Mathlib.Algebra.Ring.Nat
import NucleoW5500.Wrapping

/-! What the program does with its millisecond counter: the loops that run for some seconds, the
periodic calls, and the seconds of the DHCP client. -/

namespace NucleoW5500.Ticks

open Wrapping

def ticksPerSecond : Int := 1000

/-- `now - since` of the 32-bit counter -/
def ticksSince (since now : UInt32) : ℕ := (now - since).toNat

/-! A loop of C tests the counter before each pass. A turn is a reading and what the pass then
meets; the loop has ended when a test has failed. -/

section Loops

variable {β : Type}

def loopWhile (test : UInt32 → Bool) : List (UInt32 × β) → List β × Bool
  | [] => ([], false)
  | (tick, b) :: rest =>
    if test tick then (b :: (loopWhile test rest).1, (loopWhile test rest).2) else ([], true)

/-- `TIME_LOOP_START`, entered at `curTime` -/
def timeLoop (curTime : UInt32) (loopSeconds : Int) : List (UInt32 × β) → List β × Bool :=
  let endTick := curTime + UInt32.ofInt (loopSeconds * ticksPerSecond)
  loopWhile fun tick => tick < endTick

/-- `HAL_Delay`, entered at `tickstart` -/
def halDelay (tickstart delay : UInt32) : List (UInt32 × β) → List β × Bool :=
  loopWhile fun tick => tick - tickstart < delay

/-- A loop that goes on for `limit` ticks. -/
def fullTime (start : UInt32) (limit : ℕ) : List (UInt32 × β) → List β × Bool :=
  loopWhile fun tick => ticksSince start tick < limit

/-- Up to the first one after the `limit` ticks, every test sees the counter on the same side of
its wrap as the end tick. -/
def SameSide (start : UInt32) (limit : ℕ) : List (UInt32 × β) → Prop
  | [] => True
  | (tick, _) :: rest =>
    (start.toNat + ticksSince start tick < 2 ^ 32 ↔ start.toNat + limit < 2 ^ 32) ∧
      (ticksSince start tick < limit → SameSide start limit rest)

end Loops

/-! `DHCP_run` and the addresses it has got are those of the DHCP client. -/

inductive DhcpRun
  | failed
  | running
  | ipAssign
  | ipChanged
  | ipLeased
  | stopped
  deriving DecidableEq, Repr

inductive DhcpMode
  | static
  | dhcp
  deriving DecidableEq, Repr

structure WizNetInfo where
  mac : List UInt8
  ip : List UInt8
  sn : List UInt8
  gw : List UInt8
  dns : List UInt8
  dhcp : DhcpMode
  deriving DecidableEq, Repr

structure Lease where
  ip : List UInt8
  gw : List UInt8
  sn : List UInt8
  dns : List UInt8
  deriving DecidableEq, Repr

/-- `wiz_get_available_socket_no`, on the status registers -/
def wizGetAvailableSocketNo (status : List UInt8) : Option ℕ := status.findIdx? (· = 0)

/-- What a call of `wiz_get_dhcp_ip` has done. It has not returned while its loop still runs. -/
structure DhcpCall where
  polls : List DhcpRun
  ended : Bool
  ret : Option Int
  netinfo : WizNetInfo
  deriving DecidableEq, Repr

def wizGetDhcpIp (status mac : List UInt8) (netinfo : WizNetInfo) (lease : Lease) (start : UInt32)
    (turns : List (UInt32 × DhcpRun)) : DhcpCall :=
  match wizGetAvailableSocketNo status with
  | none => ⟨[], true, some (-1), netinfo⟩
  | some _ =>
    let (polls, ended) := timeLoop start 5 turns
    if ended = false then ⟨polls, false, none, netinfo⟩
    else if .ipLeased ∈ polls then
      ⟨polls, true, some 0, ⟨mac, lease.ip, lease.sn, lease.gw, lease.dns, .dhcp⟩⟩
    else ⟨polls, true, some (-1), netinfo⟩

/-! `run_per_x_seconds` and `run_per_x_ticks`. -/

/-- What the two do with `*prev`, given what they compare with 0 and the ticks to wait. -/
def runPerX (amount limit : Int) (prev curTick : UInt32) : Int × UInt32 :=
  if amount ≤ 0 then (1, prev)
  else if prev = 0 then (0, curTick)
  else if curTick < prev then (1, curTick) -- the tick has overflowed
  else if curTick - prev < UInt32.ofInt limit then (0, prev)
  else (1, curTick)

def runPerXSeconds (prev : UInt32) (second : Int) (curTick : UInt32) (tickPerSecond : Int) :
    Int × UInt32 :=
  runPerX second (tickPerSecond * second) prev curTick

def runPerXTicks (prev : UInt32) (xTicks : Int) (curTick : UInt32) : Int × UInt32 :=
  runPerX xTicks xTicks prev curTick

/-- A caller of one of the two, with the arguments it always passes. -/
inductive Periodic
  | seconds (second tickPerSecond : Int)
  | ticks (xTicks : Int)

def Periodic.call : Periodic → UInt32 → UInt32 → Int × UInt32
  | seconds second tickPerSecond => fun prev cur => runPerXSeconds prev second cur tickPerSecond
  | ticks xTicks => fun prev cur => runPerXTicks prev xTicks cur

def Periodic.period : Periodic → Int
  | seconds second tickPerSecond => second * tickPerSecond
  | ticks xTicks => xTicks

def Periodic.amount : Periodic → Int
  | seconds second _ => second
  | ticks xTicks => xTicks

/-! The system tick. -/

/-- The counter, the callback's `prev_tick`, how often `DHCP_time_handler` has been called, and
the seconds it counts, which the DHCP client sets back. -/
structure SysTick where
  uwTick : UInt32
  prevTick : UInt32
  calls : ℕ
  dhcpTick1s : UInt32
  deriving DecidableEq, Repr

def SysTick.start : SysTick := ⟨0, 0, 0, 0⟩

def halIncTick (s : SysTick) : SysTick := { s with uwTick := s.uwTick + 1 }

def dhcpTimeHandler (s : SysTick) : SysTick :=
  { s with calls := s.calls + 1, dhcpTick1s := s.dhcpTick1s + 1 }

def halSystickCallback (s : SysTick) : SysTick :=
  if UInt32.ofInt ticksPerSecond ≤ s.uwTick - s.prevTick then
    { dhcpTimeHandler s with prevTick := s.uwTick }
  else s

def sysTickHandler (s : SysTick) : SysTick := halSystickCallback (halIncTick s)

def resetDhcpTimeout (s : SysTick) : SysTick := { s with dhcpTick1s := 0 }

inductive TickStep
  | interrupt
  | reset
  deriving DecidableEq, Repr

def TickStep.run (s : SysTick) : TickStep → SysTick
  | interrupt => sysTickHandler s
  | reset => resetDhcpTimeout s

end NucleoW5500.Ticks
