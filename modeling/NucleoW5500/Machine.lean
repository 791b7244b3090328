import NucleoW5500.CString
import NucleoW5500.Lockstep

/-! The machine the C code runs on: the socket and heap it calls, what it has
sent and printed, and the two ways a call can fail to return. -/

namespace NucleoW5500

open CString

/-- Accesses to which C gives no meaning. The model stops there. -/
inductive Fault
  | headerBounds
  | dataBounds
  | blockBounds
  | recordBounds
  | copyLength
  | nullPointer
  | freedBlock
  deriving DecidableEq, Repr

/-- `blocked`: a loop is still polling the socket when the scripted calls end. -/
inductive Halt
  | blocked
  | fault (f : Fault)
  deriving DecidableEq, Repr

/-- What the chip reports at one `recv`: an error, or the bytes in its buffer. -/
inductive RxEvent
  | fail (code : Nat)
  | ready (count : Nat)
  deriving DecidableEq, Repr

/-- What the chip answers to one `send`: an error, or the room it has. -/
inductive TxEvent
  | fail (code : Nat)
  | room (count : Nat)
  deriving DecidableEq, Repr

/-- A `malloc`ed object: its address (the serial number of the call) and value. -/
structure Block (α : Type) where
  addr : Nat
  val : α
  deriving DecidableEq, Repr

/-- A block of bytes. Its memory runs from the first byte of the block past its
end, so that a read can go too far but a write cannot. -/
structure Buf where
  addr : Nat
  size : Nat
  mem : List UInt8
  deriving DecidableEq, Repr

/-- The outcome of each `malloc` of a run, and the bytes that memory held before,
from the start of the block on and past its end. -/
structure HeapEnv where
  ok : Nat → Bool
  leftover : Nat → List UInt8

/-- A heap that never runs out and is clear everywhere. -/
def HeapEnv.ample : HeapEnv := ⟨fun _ => true, fun _ => []⟩

/-- What a formatted line shows of a packet: that of the receive line
`"tcp_packet3 received. %d, %s"`, and that of the line of `print_tcp_packet3`, which has
a checksum and an `org_size` if the flags have. -/
inductive Line
  | received (size : Nat) (ok : Bool)
  | packet (version flag type : UInt8) (dataSize : UInt16) (checksum orgSize : Option UInt16)
  deriving DecidableEq, Repr

structure World where
  /-- bytes the peer has sent and `recv` has not returned -/
  incoming : List UInt8 := []
  rxScript : List RxEvent := []
  /-- the length of every `recv`, oldest first -/
  asked : List UInt16 := []
  txScript : List TxEvent := []
  /-- bytes `send` has accepted -/
  sent : List UInt8 := []
  /-- bytes of the raw dumps and of `"%s"` -/
  console : List UInt8 := []
  lines : List Line := []
  /-- number of `malloc`s made -/
  next : Nat := 0
  /-- addresses passed to `free`, latest first -/
  frees : List Nat := []
  deriving DecidableEq, Repr

abbrev CM := EStateM Halt World

instance decEqResult {ε σ α : Type} [DecidableEq ε] [DecidableEq σ] [DecidableEq α] :
    DecidableEq (EStateM.Result ε σ α)
  | .ok a s, .ok b t => decidable_of_iff (a = b ∧ s = t) (by simp)
  | .error e s, .error f t => decidable_of_iff (e = f ∧ s = t) (by simp)
  | .ok _ _, .error _ _ => .isFalse (by simp)
  | .error _ _, .ok _ _ => .isFalse (by simp)

def CM.halt {α : Type} (h : Halt) : CM α := fun w => .error h w

def CM.modify (f : World → World) : CM Unit := fun w => .ok () (f w)

@[simp] theorem CM.pure_apply {α : Type} (a : α) (w : World) : (pure a : CM α) w = .ok a w := rfl

@[simp] theorem CM.halt_apply {α : Type} (h : Halt) (w : World) :
    (CM.halt h : CM α) w = .error h w := rfl

@[simp] theorem CM.modify_apply (f : World → World) (w : World) :
    CM.modify f w = .ok () (f w) := rfl

theorem CM.bind_ok {α β : Type} {x : CM α} {f : α → CM β} {a : α} {w w' : World}
    (h : x w = .ok a w') : (x >>= f) w = f a w' :=
  Lockstep.bind_ok h

theorem CM.bind_error {α β : Type} {x : CM α} {f : α → CM β} {e : Halt} {w w' : World}
    (h : x w = .error e w') : (x >>= f) w = .error e w' :=
  Lockstep.bind_error h

theorem CM.bind_eq_ok {α β : Type} {x : CM α} {f : α → CM β} {b : β} {w w' : World} :
    (x >>= f) w = .ok b w' ↔ ∃ a w₁, x w = .ok a w₁ ∧ f a w₁ = .ok b w' := by
  rw [Lockstep.bind_apply]
  cases hx : x w with
  | ok a w₁ => simp
  | error e w₁ => simp

def malloc (env : HeapEnv) (size : Int) : CM (Option Buf) := fun w =>
  .ok (if env.ok w.next then some ⟨w.next, (UInt32.ofInt size).toNat, env.leftover w.next⟩ else none)
    { w with next := w.next + 1 }

def free (addr : Nat) : CM Unit := CM.modify fun w => { w with frees := addr :: w.frees }

/-- `memcpy(&dst[j], &src[i], n)`, with `n` an `int` that becomes a `size_t`. -/
def memcpy (dst : Buf) (j : Nat) (src : List UInt8) (i : Nat) (n : Int) : CM Buf :=
  if n < 0 then CM.halt (.fault .copyLength)
  else if dst.size < j + n.toNat then CM.halt (.fault .blockBounds)
  else pure { dst with mem := overwrite dst.mem j (read src i n.toNat) }

/-- Store `bs` at `buf[i]`, in an array that must hold all of it. -/
def store (f : Fault) (buf : List UInt8) (i : Int) (bs : List UInt8) : CM (List UInt8) :=
  if 0 ≤ i ∧ i + bs.length ≤ buf.length then pure (overwrite buf i.toNat bs)
  else CM.halt (.fault f)

theorem free_ok (addr : Nat) (w : World) :
    free addr w = .ok () { w with frees := addr :: w.frees } := rfl

theorem malloc_some {env : HeapEnv} {size : Int} {w : World} (h : env.ok w.next = true) :
    malloc env size w =
      .ok (some ⟨w.next, (UInt32.ofInt size).toNat, env.leftover w.next⟩)
        { w with next := w.next + 1 } := by
  simp [malloc, h]

theorem malloc_none {env : HeapEnv} {size : Int} {w : World} (h : env.ok w.next = false) :
    malloc env size w = .ok none { w with next := w.next + 1 } := by
  simp [malloc, h]

theorem memcpy_ok {dst : Buf} {src : List UInt8} {i j n : Nat} (h : j + n ≤ dst.size)
    (w : World) :
    memcpy dst j src i n w = .ok { dst with mem := overwrite dst.mem j (read src i n) } w := by
  have h₁ : ¬ ((n : Int) < 0) := by omega
  have h₂ : ¬ (dst.size < j + n) := by omega
  simp [memcpy, h₁, h₂]

theorem memcpy_cases (dst : Buf) (j : Nat) (src : List UInt8) (i : Nat) (n : Int) (w : World) :
    memcpy dst j src i n w =
        .ok { dst with mem := overwrite dst.mem j (read src i n.toNat) } w ∨
      ∃ f, (f = .copyLength ∨ f = .blockBounds) ∧
        memcpy dst j src i n w = .error (.fault f) w := by
  unfold memcpy
  split_ifs
  · exact Or.inr ⟨.copyLength, Or.inl rfl, rfl⟩
  · exact Or.inr ⟨.blockBounds, Or.inr rfl, rfl⟩
  · exact Or.inl rfl

theorem store_ok {f : Fault} {buf bs : List UInt8} {i : Nat} (h : i + bs.length ≤ buf.length)
    (w : World) : store f buf i bs w = .ok (overwrite buf i bs) w := by
  have h' : (0 : Int) ≤ i ∧ (i : Int) + bs.length ≤ buf.length := by omega
  simp [store, h']

end NucleoW5500
