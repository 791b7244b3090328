import NucleoW5500.Extraction
import NucleoW5500.Frames

/-! One program over two heaps that grant the same allocations and held different bytes. -/

namespace NucleoW5500

open CString Lockstep

instance : HeapAlike Eq where
  next_eq h := h ▸ rfl
  next h := h ▸ rfl
  frees _ h := h ▸ rfl

structure AgreeTo (n : Nat) (b b' : Buf) : Prop where
  addr : b.addr = b'.addr
  size : b.size = b'.size
  bytes : read b.mem 0 n = read b'.mem 0 n

/-- The bytes `bs` were stored in the block, and behind them is what it held before. -/
structure Filled (env : HeapEnv) (bs : List UInt8) (b : Buf) : Prop where
  mem : b.mem = bs ++ (env.leftover b.addr).drop bs.length
  le : bs.length ≤ b.size

/-- One block over two heaps. -/
structure Twin (env env' : HeapEnv) (bs : List UInt8) (b b' : Buf) : Prop where
  addr : b.addr = b'.addr
  size : b.size = b'.size
  left : Filled env bs b
  right : Filled env' bs b'

section Calls

variable {α β : Type} {L : World → World → Prop}

theorem runs_halt {R : α → β → Prop} (e : Halt) :
    Runs L R (CM.halt e : CM α) (CM.halt e : CM β) :=
  fun _ _ h => .error h

end Calls

section Heaps

variable {env env' : HeapEnv} {L : World → World → Prop} {bs : List UInt8} {b b' : Buf}

theorem Filled.read_eq (h : Filled env bs b) {n : Nat} (hn : n ≤ bs.length) :
    CString.read b.mem 0 n = bs.take n := by
  rw [h.mem, read_eq_take (by rw [List.length_append]; omega), List.drop_zero,
    List.take_append_of_le_length hn]

theorem Filled.read (h : Filled env bs b) : CString.read b.mem 0 bs.length = bs := by
  rw [h.read_eq le_rfl, List.take_length]

theorem Filled.cstr_eq (h : Filled env bs b) {s t : List UInt8} (hbs : bs = s ++ 0 :: t)
    (hs : (0 : UInt8) ∉ s) : cstr b.mem 0 = s := by
  rw [h.mem, hbs, List.append_assoc]
  exact @cstr_append [] s _ hs

theorem Filled.peek_eq (h : Filled env bs b) {i : Nat} (hi : i < bs.length) :
    peek b.mem i = peek bs i := by
  rw [h.mem, peek_append_left _ hi]

theorem Filled.memchr_eq_some (h : Filled env bs b) {c : UInt8} {s t : List UInt8}
    (hbs : bs = s ++ c :: t) (hs : c ∉ s) : memchr b.mem c 0 bs.length = some s.length := by
  have hm := (@memchr_append_eq_some [] bs ((env.leftover b.addr).drop bs.length) c s.length).mpr
    ⟨s, t, hbs, hs, (Nat.zero_add _).symm⟩
  rwa [List.nil_append, ← h.mem] at hm

theorem Filled.memchr_eq_none (h : Filled env bs b) {c : UInt8} (hc : c ∉ bs) :
    memchr b.mem c 0 bs.length = none := by
  have hm := (@memchr_append_eq_none [] bs ((env.leftover b.addr).drop bs.length) c).mpr hc
  rwa [List.nil_append, ← h.mem] at hm

theorem Twin.agree (h : Twin env env' bs b b') : AgreeTo bs.length b b' :=
  ⟨h.addr, h.size, h.left.read.trans h.right.read.symm⟩

theorem Filled.append (h : Filled env bs b) (src : List UInt8) (i : Nat) {n : Int}
    (hn : ¬ b.size < bs.length + n.toNat) : Filled env (bs ++ CString.read src i n.toNat)
      { b with mem := overwrite b.mem bs.length (CString.read src i n.toNat) } := by
  constructor
  · rw [h.mem, overwrite_at_length, List.drop_drop, List.length_append]
  · rw [List.length_append, length_read]
    exact Nat.le_of_not_lt hn

theorem runs_memcpy (h : Twin env env' bs b b') (src : List UInt8) (i : Nat) (n : Int) :
    Runs L (Twin env env' (bs ++ read src i n.toNat)) (memcpy b bs.length src i n)
      (memcpy b' bs.length src i n) := by
  rw [memcpy, memcpy, h.size]
  refine Runs.ite (fun _ => runs_halt _) fun _ => Runs.ite (fun _ => runs_halt _) fun hle =>
    Runs.pure ⟨h.addr, rfl, ?_, h.right.append src i hle⟩
  have hleft := h.left.append src i (n := n) (by rw [h.size]; exact hle)
  rwa [h.size] at hleft

variable [HeapAlike L]

theorem runs_malloc (hok : ∀ n, env.ok n = env'.ok n) (size : Int) :
    Runs L (Option.Rel (Twin env env' [])) (malloc env size) (malloc env' size) := by
  intro w w' hL
  have hnext := HeapAlike.next_eq hL
  refine .ok ?_ (HeapAlike.next hL)
  rw [hok, hnext]
  cases env'.ok w'.next with
  | false => exact .none
  | true => exact .some ⟨rfl, rfl, ⟨rfl, Nat.zero_le _⟩, rfl, Nat.zero_le _⟩

theorem twin_extractPacketContents (hok : ∀ n, env.ok n = env'.ok n) (p : TcpPacket3) :
    Runs L (Option.Rel (Twin env env' (read p.data (copiedFrom p) (copiedSize p).toNat)))
      (extractPacketContents env p) (extractPacketContents env' p) := by
  rw [extractPacketContents, extractPacketContents, copiedFrom, copiedSize]
  refine Runs.ite (fun _ => Runs.pure .none) fun _ => Runs.ite (fun he => ?_) fun he => ?_
  · rw [if_pos he, if_pos he]
    refine Runs.bind (runs_malloc hok _) fun r r' hr => ?_
    cases hr with
    | none => exact Runs.pure .none
    | @some b b' hb =>
      have hcopy := @runs_memcpy env env' L [] b b' hb p.data (getPacketContentsBuf p + 8)
        (getPacketContentsSize p - 8)
      have hdec : Runs L (fun q q' => Twin env env' (read p.data (getPacketContentsBuf p + 8)
            (getPacketContentsSize p - 8).toNat) q.1 q'.1)
          (decryptContents p.data (getPacketContentsBuf p) (getPacketContentsSize p) b)
          (decryptContents p.data (getPacketContentsBuf p) (getPacketContentsSize p) b') :=
        Runs.bind hcopy fun _ _ hbb => Runs.pure hbb
      exact Runs.bind hdec fun q q' hq => Runs.pure (.some hq)
  · rw [if_neg he, if_neg he]
    refine Runs.bind (runs_malloc hok _) fun r r' hr => ?_
    cases hr with
    | none => exact Runs.pure .none
    | @some b b' hb =>
      exact Runs.bind (@runs_memcpy env env' L [] b b' hb p.data _ _) fun _ _ hbb =>
        Runs.pure (.some hbb)

theorem runs_createTcpPacket3Record (hok : ∀ n, env.ok n = env'.ok n) (flag type : UInt32)
    {buf buf' : List UInt8} {bufSize : UInt16}
    (hbuf : read buf 0 bufSize.toNat = read buf' 0 bufSize.toNat) (contentsSize : Int) :
    Runs L Eq (createTcpPacket3Record env flag type buf bufSize contentsSize)
      (createTcpPacket3Record env' flag type buf' bufSize contentsSize) := by
  have hfill : ∀ p, fillPacketData flag p buf bufSize contentsSize =
      fillPacketData flag p buf' bufSize contentsSize := by
    intro p
    rw [fillPacketData, fillPacketData, hbuf]
  have halloc : ∀ header n, Runs L Eq (allocTcpPacket3Mem env header n)
      (allocTcpPacket3Mem env' header n) := by
    intro header n
    refine Runs.bind (runs_malloc hok _) fun r r' hr => ?_
    cases hr with
    | none => exact Runs.pure rfl
    | some hb => exact Runs.pure (by rw [hb.addr])
  refine Runs.bind (halloc _ _) fun r r' hr => ?_
  subst hr
  cases r with
  | none => exact Runs.pure rfl
  | some p =>
    dsimp only
    rw [hfill]
    exact Runs.ite (fun _ => Runs.bind (holds_fillPacketData (Q := .same L) _ _ _ _ _) fun _ _ h => by
      subst h; exact Runs.pure rfl) fun _ => Runs.pure rfl

theorem runs_createTcpPacket3_plain (hok : ∀ n, env.ok n = env'.ok n) {mem mem' : List UInt8}
    {n : Nat} (hn : n < 2 ^ 16) (hmem : n ≤ 50000 → read mem 0 n = read mem' 0 n) :
    Runs L Eq (createTcpPacket3 env 0 0 (some mem) n)
      (createTcpPacket3 env' 0 0 (some mem') n) := by
  have he : argHasEncryption 0 = false := rfl
  rw [createTcpPacket3, createTcpPacket3]
  refine Runs.ite (fun _ => Runs.pure rfl) fun hmax => Runs.ite
    (fun _ => runs_createTcpPacket3Record hok 0 0 rfl 0) fun _ => ?_
  rw [he]
  refine runs_createTcpPacket3Record hok 0 0 ?_ n
  rw [toNat_ofInt_of_lt hn]
  apply hmem
  simp only [tcpPacket3MaxContentsSize] at hmax
  omega

end Heaps

end NucleoW5500
