import NucleoW5500.SockApart

/-! The TCP sockets of a chip over any conversation of a program with them: each call, and which
socket it is for, depends on the replies so far, and the chip moves between any two bytes on the
bus. -/

namespace NucleoW5500.Driver

open CString Chip Interleaved RingBuffer Spi

inductive Call
  | socket (protocol : UInt8) (port : UInt16) (flag : UInt8)
  | connect (addr : List UInt8) (port : UInt16)
  | recv (len : UInt16)
  | send (buf : List UInt8) (len : UInt16)
  | disconnect
  | close
  deriving DecidableEq, Repr

inductive Reply
  | rx (r : RxReply)
  | ret (ret : Int)
  deriving DecidableEq, Repr

/-- The calls so far, each with the number of its socket. -/
abbrev Trace := List (Nat × Call × Reply)

def runCall (n : Nat) : Call → SM Reply
  | .socket protocol port flag => do return .ret (← socket n protocol port flag)
  | .connect addr port => do return .ret (← connect n addr port)
  | .recv len => do return .rx (← recv n len)
  | .send buf len => do return .ret (← send n buf len)
  | .disconnect => do return .ret (← disconnect n)
  | .close => do return .ret (← close n)

/-- `m` calls, each of them chosen by what the others have returned. -/
def converse (next : Trace → Nat × Call) : Nat → Trace → SM Trace
  | 0, t => pure t
  | m + 1, t => do
    let reply ← runCall (next t).1 (next t).2
    converse next m (t ++ [((next t).1, (next t).2, reply)])

def on (n : Nat) (t : Trace) : List (Call × Reply) :=
  t.filterMap fun e => if e.1 = n then some e.2 else none

/-- What a program has seen of a socket: the bytes it has got since the socket was opened, and
those it has given to the chip since it was opened or connected. -/
structure Seen where
  got : List UInt8
  gave : List UInt8
  deriving DecidableEq, Repr

/-- A call returns no more than it is asked for. -/
def Fits : Call × Reply → Prop
  | (.recv len, .rx (.got bs)) => bs.length ≤ len.toNat
  | (.send _ len, .ret ret) => ret ≤ len.toNat
  | (.recv _, .ret _) => False
  | (.send .., .rx _) => False
  | _ => True

def Seen.after (n : Nat) (s : Seen) : Call × Reply → Seen
  | (.socket .., .ret ret) => if ret = n then ⟨[], []⟩ else s
  | (.connect .., .ret ret) => if connected ret then { s with gave := [] } else s
  | (.recv _, .rx (.got bs)) => { s with got := s.got ++ bs }
  | (.send buf _, .ret ret) => { s with gave := s.gave ++ read buf 0 ret.toNat }
  | _ => s

/-- What has been seen of socket `n`, if it was `s` before. -/
def seen (n : Nat) (t : Trace) (s : Seen) : Seen := (on n t).foldl (Seen.after n) s

theorem seen_concat (n m : Nat) (t : Trace) (s : Seen) (e : Call × Reply) :
    seen m (t ++ [(n, e)]) s = if m = n then (seen m t s).after n e else seen m t s := by
  rw [seen, on, List.filterMap_append, List.foldl_append]
  by_cases h : m = n
  · subst h
    simp [seen, on]
  · simp [seen, on, h, Ne.symm h]

variable {R : Event → Prop} {n : Nat}

/-- What the program has seen of socket `n` is what the chip has done. -/
def InStep (n : Nat) (s : Seen) : Statics → W5500 → Prop :=
  Calm n (fun _ => True) (·.Synced s.got s.gave)

theorem runCall_spec {s : Seen} (call : Call) (hn : n < wizchipSockNum) :
    DSpec R (InStep n s) (runCall n call) fun reply v c =>
      Fits (call, reply) ∧ InStep n (s.after n (call, reply)) v c := by
  cases call with
  | socket protocol port flag =>
    refine (socket_spec hn (lasting_synced s.got s.gave) (fun k hk => hk.sized)
      (lasting_synced [] []) fun k ptr hk _ hcr => synced_open hk hcr ptr).bind fun ret =>
        .pure fun u c hp => ⟨trivial, ?_⟩
    rcases hp with ⟨hneg, hk⟩ | ⟨rfl, -, hk⟩
    · rw [Seen.after, if_neg (by omega)]
      exact hk
    · rw [Seen.after, if_pos rfl]
      exact ⟨trivial, hk.2⟩
  | connect addr port =>
    refine (connect_spec hn).bind fun ret => .pure fun u c hp => ⟨trivial, ?_⟩
    show InStep n (if connected ret = true then { s with gave := [] } else s) u.vars c
    by_cases hc : connected ret = true
    · simp only [if_pos hc] at hp ⊢
      exact hp
    · simp only [if_neg hc] at hp ⊢
      exact hp
  | recv len =>
    refine (Spec.exists fun v₀ => ?_).pre (P := fun u c => ∃ v₀, Calm n (· = v₀)
      (·.Synced s.got s.gave) u.vars c) fun u c hp => ⟨_, rfl, hp.2⟩
    refine (recv_spec hn).bind fun r => .pure fun u c hp => ?_
    cases r with
    | err code => exact ⟨trivial, trivial, hp.2.2⟩
    | got bs => exact ⟨hp.1 bs rfl, trivial, hp.2.2.2⟩
  | send buf len => exact (send_spec hn).bind fun ret => .pure fun u c hp => ⟨hp.1, hp.2⟩
  | disconnect => exact (disconnect_spec hn).bind fun ret => .pure fun u c hp => ⟨trivial, hp⟩
  | close =>
    exact (close_spec (Ψ := fun _ => True) hn (lasting_synced s.got s.gave)
      fun _ _ => trivial).bind fun ret => .pure fun u c hp => ⟨trivial, hp⟩

theorem runCall_none (call : Call) (hn : wizchipSockNum ≤ n) :
    ∃ reply, Fits (call, reply) ∧ runCall n call = pure reply := by
  cases call with
  | socket => exact ⟨.ret sockerrSocknum, trivial, by rw [runCall, socket, if_pos hn]; rfl⟩
  | connect => exact ⟨.ret sockerrSocknum, trivial, by rw [runCall, connect, if_pos hn]; rfl⟩
  | recv => exact ⟨.rx (.err 0), trivial, by rw [runCall, recv, if_pos hn]; rfl⟩
  | send buf len =>
    refine ⟨.ret sockerrSocknum, ?_, by rw [runCall, send, if_pos hn]; rfl⟩
    rw [Fits, sockerrSocknum]
    omega
  | disconnect => exact ⟨.ret sockerrSocknum, trivial, by rw [runCall, disconnect, if_pos hn]; rfl⟩
  | close => exact ⟨.ret sockerrSocknum, trivial, by rw [runCall, close, if_pos hn]; rfl⟩

theorem runCall_keeps {P : Statics → W5500 → Prop} (call : Call) (hP : Apart R n P) :
    Keeps R P (runCall n call) := by
  by_cases hn : n < wizchipSockNum
  · cases call with
    | socket protocol port flag => exact (socket_keeps hn hP protocol port flag).map
    | connect addr port => exact (connect_keeps hn hP addr port).map
    | recv len => exact (recv_keeps hn hP len).map
    | send buf len => exact (send_keeps hn hP buf len).map
    | disconnect => exact (disconnect_keeps hn hP).map
    | close => exact (close_keeps hn hP).map
  · obtain ⟨reply, -, hr⟩ := runCall_none call (Nat.le_of_not_lt hn)
    rw [hr]
    exact .pure reply

/-- From `k` on, socket `n` has only made moves of its own, and the statics say of it what they
said before. -/
def Alone (R : Event → Prop) (n : Nat) (v₀ : Statics) (k : Sock) (v : Statics) (c : W5500) : Prop :=
  (∃ es : List SockEvent, (∀ e ∈ es, R ⟨n, e⟩) ∧ c.socks n = es.foldl Sock.move k) ∧ v₀.Agree n v

theorem apart_alone {m : Nat} (hm : m < wizchipSockNum) (hne : m ≠ n) (v₀ : Statics) (k : Sock) :
    Apart R n (Alone R m v₀ k) where
  stable := by
    refine stable_socks (P := fun v k' => (∃ es : List SockEvent, (∀ e ∈ es, R ⟨m, e⟩) ∧
      k' = es.foldl Sock.move k) ∧ v₀.Agree m v) ?_
    rintro v k' e he ⟨⟨es, hes, rfl⟩, hv⟩
    refine ⟨⟨es ++ [e], fun e' he' => ?_, by rw [List.foldl_append]; rfl⟩, hv⟩
    rcases List.mem_append.mp he' with h | h
    · exact hes e' h
    · rwa [List.mem_singleton.mp h]
  sock v c k' hp := by
    have hsock : (c.setSock n k').socks m = c.socks m := Function.update_of_ne hne ..
    rw [Alone, hsock]
    exact hp
  vars v v' c hv hp := by
    obtain ⟨h₁, h₂, h₃, h₄⟩ := hv m hm hne
    exact ⟨hp.1, h₁.trans hp.2.1, h₂.trans hp.2.2, h₃.trans hp.2.3, h₄.trans hp.2.4⟩

/-- The sockets in `C` are in step, each with what has been seen of it. -/
def Together (C : Nat → Prop) (s : Nat → Seen) (v : Statics) (c : W5500) : Prop :=
  ∀ m < wizchipSockNum, C m → InStep m (s m) v c

variable {C : Nat → Prop} {s : Nat → Seen}

theorem apart_together (hn : ¬ C n) : Apart R n (Together C s) where
  stable e he v c hp m hm hC := (lasting_synced _ _).stable e he v c (hp m hm hC)
  sock v c k hp m hm hC := by
    have hne : m ≠ n := fun h => hn (h ▸ hC)
    have hsock : (c.setSock n k).socks m = c.socks m := Function.update_of_ne hne ..
    rw [InStep, Calm, hsock]
    exact hp m hm hC
  vars _ _ _ _ hp m hm hC := ⟨trivial, (hp m hm hC).2⟩

/-- One call. What it does to a socket outside `C` is left open. -/
theorem runCall_together (call : Call) :
    Spec R (fun u c => Together C s u.vars c) (runCall n call) (fun reply u c =>
      (C n → Fits (call, reply)) ∧
        Together C (fun m => if m = n then (s m).after n (call, reply) else s m) u.vars c)
      fun e => C n → e = .blocked := by
  by_cases hC : C n
  · by_cases hn : n < wizchipSockNum
    · have hothers := runCall_keeps (R := R) call
        (apart_together (C := fun m => C m ∧ m ≠ n) (s := s) fun h => h.2 rfl)
      refine (((runCall_spec call hn).meet hothers).mono
        (fun u c hp => ⟨hp n hn hC, fun m hm hm' => hp m hm hm'.1⟩) fun reply u c hp => ?_).stops
          fun e he _ => he
      refine ⟨fun _ => hp.1.1, fun m hm hCm => ?_⟩
      by_cases h : m = n
      · subst h
        dsimp only
        rw [if_pos rfl]
        exact hp.1.2
      · dsimp only
        rw [if_neg h]
        exact hp.2 m hm ⟨hCm, h⟩
    · obtain ⟨reply, hfit, hr⟩ := runCall_none call (Nat.le_of_not_lt hn)
      rw [hr]
      refine .pure fun u c hp => ⟨fun _ => hfit, fun m hm hCm => ?_⟩
      have hne : m ≠ n := by omega
      dsimp only
      rw [if_neg hne]
      exact hp m hm hCm
  · refine (Spec.stops (runCall_keeps call (apart_together hC)) fun e _ h => absurd h hC).post
      fun reply u c hp => ⟨fun h => absurd h hC, fun m hm hCm => ?_⟩
    have hne : m ≠ n := fun h => hC (h ▸ hCm)
    dsimp only
    rw [if_neg hne]
    exact hp m hm hCm

theorem converse_spec (next : Trace → Nat × Call) (m : Nat) (t : Trace) :
    Spec R (fun u c => (∀ e ∈ t, C e.1 → Fits e.2) ∧ Together C (fun n => seen n t (s n)) u.vars c)
      (converse next m t)
      (fun t u c => (∀ e ∈ t, C e.1 → Fits e.2) ∧ Together C (fun n => seen n t (s n)) u.vars c)
      fun e => (∀ t, C (next t).1) → e = .blocked := by
  induction m generalizing t with
  | zero => exact .pure fun u c hp => hp
  | succ m ih =>
    refine .fact (fun u c hp => hp.1) fun ht => ?_
    refine (((runCall_together (next t).2).stops fun e he hC => he (hC t)).pre
      fun u c hp => hp.2).bind fun reply => (ih _).pre fun u c hp => ⟨?_, fun n hn hC => ?_⟩
    · intro e he
      rcases List.mem_append.mp he with he | he
      · exact ht e he
      · rw [List.mem_singleton.mp he]
        exact hp.1
    · dsimp only
      rw [seen_concat]
      exact hp.2 n hn hC

section Boards

def outcome {α : Type} : EStateM.Result Stop Board α → Option α
  | .ok a _ => some a
  | .error _ _ => none

theorem exists_ok {α : Type} {x : SM α} {w : Board} {a : α} (h : outcome (x w) = some a) :
    ∃ w', x w = .ok a w' := by
  cases hx : x w with
  | ok b w' =>
    rw [hx] at h
    exact ⟨w', by rw [Option.some.inj h]⟩
  | error e w' =>
    rw [hx] at h
    simp [outcome] at h

def outcomeWith {α β : Type} (f : Board → β) : EStateM.Result Stop Board α → Option (α × β)
  | .ok a w => some (a, f w)
  | .error _ _ => none

theorem exists_ok_with {α β : Type} {x : SM α} {f : Board → β} {w : Board} {a : α} {b : β}
    (h : outcomeWith f (x w) = some (a, b)) : ∃ w', x w = .ok a w' ∧ f w' = b := by
  cases hx : x w with
  | ok a' w' =>
    rw [hx] at h
    obtain ⟨rfl, rfl⟩ := Prod.mk.inj (Option.some.inj h)
    exact ⟨w', rfl, rfl⟩
  | error e w' =>
    rw [hx] at h
    simp [outcomeWith] at h

def stopped {α : Type} : EStateM.Result Stop Board α → Option Stop
  | .ok _ _ => none
  | .error e _ => some e

theorem exists_error {α : Type} {x : SM α} {w : Board} {e : Stop} (h : stopped (x w) = some e) :
    ∃ w', x w = .error e w' := by
  cases hx : x w with
  | ok b w' =>
    rw [hx] at h
    simp [stopped] at h
  | error e w' =>
    rw [hx] at h
    exact ⟨w', by rw [Option.some.inj h]⟩

/-- What `wiz_init_chip` asks for: the kilobytes of memory of each socket, in both directions. -/
def wizMemSize : List UInt8 := [8, 2, 2, 2, 2, 0, 0, 0]

/-- A socket that has just been connected. Its pointers are about to wrap. -/
def freshSock (n : Nat) : Sock where
  page a := if a = 0 then 1 else if a = 0x1E ∨ a = 0x1F then wizMemSize.getD n 0
    else if a = 0x24 ∨ a = 0x25 ∨ a = 0x28 ∨ a = 0x29 then 0xFF else 0
  cr := 0
  ir := 0
  sr := sockEstablished
  txMem _ := 0
  rxMem _ := 0
  txRd := 0xFFFF
  txAck := 0xFFFF
  txEnd := 0xFFFF
  rxDone := 0xFFFF
  rxWr := 0xFFFF
  received := []
  given := []
  wire := []

theorem freshSock_synced {n : Nat} (hn : n < 5) : (freshSock n).Synced [] [] := by
  have hsize : (wizMemSize.getD n 0).toNat * 1024 = 8192 ∨
      (wizMemSize.getD n 0).toNat * 1024 = 2048 := by
    interval_cases n <;> simp [wizMemSize]
  have hfit : ∀ m : Nat, m = 8192 ∨ m = 2048 → m ∣ 65536 ∧ m + 3 ≤ maxWizBuf := by
    rintro m (rfl | rfl)
    · exact ⟨⟨8, rfl⟩, by simp [maxWizBuf]⟩
    · exact ⟨⟨32, rfl⟩, by simp [maxWizBuf]⟩
  have hs : (freshSock n).Sized :=
    ⟨(hfit _ hsize).1, (hfit _ hsize).1, (hfit _ hsize).2, (hfit _ hsize).2⟩
  exact ⟨⟨hs, rxHolds_of_empty rfl rfl, txHolds_of_empty rfl rfl rfl rfl, List.take_nil, rfl⟩,
    rfl, rfl⟩

def clearDma : DmaBuf := ⟨List.replicate maxWizBuf 0, List.length_replicate⟩

def freshBoard (script : List (List Event)) : Board where
  host := ⟨⟨sockAnyPortNum, 0, 0, fun _ => 0, fun _ => 0⟩, clearDma, clearDma⟩
  dev := ⟨fun _ => 1, freshSock⟩
  script

/-- The chip takes each command at once. -/
def prompt (m : Nat) : List (List Event) := List.replicate m [⟨0, .accept 0⟩]

theorem freshBoard_inStep (script : List (List Event)) {n : Nat} (hn : n < 5) :
    InStep n ⟨[], []⟩ (freshBoard script).host.vars (freshBoard script).dev :=
  ⟨trivial, rfl, freshSock_synced hn⟩

end Boards

section Runs

variable {α : Type} {s : Seen} {w w' : Board}

theorem run_ok {x : SM α} {P : Statics → W5500 → Prop} {Q : α → Statics → W5500 → Prop} {a : α}
    (hx : DSpec (fun _ => True) P x Q) (hp : P w.host.vars w.dev) (h : x w = .ok a w') :
    Q a w'.host.vars w'.dev :=
  (hx.ok (fun _ _ _ _ => trivial) hp h).2

/-- How far the reading `x` of a count can be off that goes from `v` up to `v'` meanwhile. It is
0 only where the count passes 256. -/
def Read (v v' x : UInt16) : Prop :=
  x ≤ v' ∧ (v ≤ x ∨ x = 0 ∧ v.toNat < 256 ∧ 256 ≤ v'.toNat)

theorem read_of_torn {v v' x : UInt16} {H : UInt16 → Prop}
    (h : v ≤ x ∧ H x ∨ x = 0 ∧ ∃ r₁ r₂, Torn H v 0 r₁ r₂ ∧ r₂ ≤ v') (hx : x ≤ v') :
    Read v v' x := by
  refine ⟨hx, ?_⟩
  rcases h with ⟨hv, -⟩ | ⟨rfl, r₁, r₂, ht, hr⟩
  · exact Or.inl hv
  · by_cases hv : v = 0
    · exact Or.inl (by rw [hv]; exact UInt16.zero_le)
    · obtain ⟨hlt, hge⟩ := ht.carry hv
      exact Or.inr ⟨rfl, hlt, hge.trans (UInt16.le_iff_toNat_le.mp hr)⟩

/-- What the driver reads of the received size and of the free size, while the chip receives and
while the peer acknowledges. -/
theorem getSnSize_reads {x : UInt16} (hn : n < wizchipSockNum) (hw : InStep n s w.host.vars w.dev) :
    (getSnRxRsr n w = .ok x w' → Read (w.dev.socks n).rsr (w'.dev.socks n).rsr x) ∧
      (getSnTxFsr n w = .ok x w' → Read (w.dev.socks n).fsr (w'.dev.socks n).fsr x) := by
  have hsync := lasting_synced (R := fun _ => True) (n := n) s.got s.gave
  constructor
  · intro h
    have hh := run_ok ((counts_rsr (H := fun _ => True) hsync.stable (Calm.rx fun _ hk => hk)
      fun _ _ _ => trivial).getSnSize hn (by decide) (w.dev.socks n).rsr) ⟨UInt16.le_refl _, hw⟩ h
    exact read_of_torn (H := fun _ => True) hh.1 hh.2.1
  · intro h
    have hh := run_ok ((counts_fsr (H := fun _ => True) hsync.stable (Calm.tx fun _ hk => hk)
      fun _ _ _ => trivial).getSnSize hn (by decide) (w.dev.socks n).fsr) ⟨UInt16.le_refl _, hw⟩ h
    exact read_of_torn (H := fun _ => True) hh.1 hh.2.1

/-- Two readings that do not agree, and two that do. -/
def growing : Board :=
  freshBoard [[⟨0, .arrive [1, 2]⟩], [], [⟨0, .arrive [3]⟩], [], [], [], [], []]

theorem getSnSize_reads_three :
    ∃ w', getSnRxRsr 0 growing = .ok 3 w' ∧ Read 0 (w'.dev.socks 0).rsr 3 := by
  obtain ⟨w', h⟩ := exists_ok (x := getSnRxRsr 0) (w := growing) (a := 3) (by decide +kernel)
  have hw : InStep 0 ⟨[], []⟩ growing.host.vars growing.dev := freshBoard_inStep _ (by decide)
  have hread := (getSnSize_reads (by decide) hw).1 h
  have h0 : (growing.dev.socks 0).rsr = 0 := by decide
  rw [h0] at hread
  exact ⟨w', h, hread⟩

/-- `recv` gives up a socket that the peer has closed only when there is nothing left to read,
provided that nothing comes in while it looks. -/
theorem recv_gives_up {len : UInt16} (hn : n < wizchipSockNum)
    (hw : InStep n s w.host.vars w.dev)
    (hsr : (w.dev.socks n).sr = sockEstablished ∨ (w.dev.socks n).sr = sockCloseWait)
    (hq : Within (Quiet n) w.script) (h : recv n len w = .ok (.err 6) w') :
    (w.dev.socks n).unread = [] ∧ (w.dev.socks n).received = s.got := by
  have hx := ((recv_quiet hn).ok hq ⟨hw.2.1, hw.2.2, rfl, hsr⟩ h).2 rfl
  have hnil : (w.dev.socks n).unread = [] := by
    rw [Sock.unread, hx]
    rfl
  refine ⟨hnil, ?_⟩
  rw [hw.2.2.received, hnil, List.append_nil]

def halfClosed (script : List (List Event)) : Board :=
  { freshBoard script with dev := ⟨fun _ => 1, fun n => { freshSock n with sr := sockCloseWait }⟩ }

theorem recv_gives_up_closed :
    ∃ w', recv 0 4 (halfClosed (prompt 20)) = .ok (.err 6) w' ∧
      ((halfClosed (prompt 20)).dev.socks 0).unread = [] ∧
        ((halfClosed (prompt 20)).dev.socks 0).received = [] := by
  obtain ⟨w', h⟩ := exists_ok (x := recv 0 4) (w := halfClosed (prompt 20)) (a := .err 6)
    (by decide +kernel)
  have hw : InStep 0 ⟨[], []⟩ (halfClosed (prompt 20)).host.vars (halfClosed (prompt 20)).dev :=
    ⟨trivial, rfl, (lasting_synced (R := fun _ => True) (n := 0) [] []).control (freshSock 0) 0 0 _
      (freshSock_synced (by decide))⟩
  have hq : Within (Quiet 0) (halfClosed (prompt 20)).script := by
    intro es hes e he _
    rw [List.eq_of_mem_replicate hes, List.mem_singleton] at he
    rw [he]
    exact ⟨nofun, nofun, nofun⟩
  exact ⟨w', h, recv_gives_up (by decide) hw (Or.inr rfl) hq h⟩

-- A segment and the FIN behind it, both between the reading of the size and that of the status:
-- the segment is never read.
example : outcome (recv 0 4 (freshBoard ([[], [], [], [],
    [⟨0, .arrive [1, 2]⟩, ⟨0, .status sockCloseWait⟩]] ++ prompt 12))) = some (.err 6) := by
  decide +kernel

variable {next : Trace → Nat × Call} {m : Nat} {t : Trace}

theorem converse_inStep (hn : n < wizchipSockNum) (hw : InStep n s w.host.vars w.dev)
    (hrun : converse next m [] w = .ok t w') :
    (∀ e, (n, e) ∈ t → Fits e) ∧ InStep n (seen n t s) w'.host.vars w'.dev := by
  have hone : Together (· = n) (fun _ => s) w.host.vars w.dev := fun m _ hm => hm ▸ hw
  have h := (converse_spec next m []).ok (R := fun _ => True) (fun _ _ _ _ => trivial)
    ⟨nofun, hone⟩ hrun
  exact ⟨fun e he => h.2.1 _ he rfl, h.2.2 n hn rfl⟩

/-- The bytes that the calls on a socket return are the bytes that came in, from the first one on,
and the rest of them is still in the memory of the chip. -/
theorem converse_receives (hn : n < wizchipSockNum) (hw : InStep n s w.host.vars w.dev)
    (hrun : converse next m [] w = .ok t w') :
    (w'.dev.socks n).received = (seen n t s).got ++ (w'.dev.socks n).unread :=
  (converse_inStep hn hw hrun).2.2.2.received

theorem converse_receives_two :
    ∃ t w', converse (fun _ => (0, .recv 2)) 1 []
        (freshBoard ([⟨0, .arrive [104, 105, 33]⟩] :: prompt 20)) = .ok t w' ∧
      (w'.dev.socks 0).received = (seen 0 t ⟨[], []⟩).got ++ (w'.dev.socks 0).unread := by
  obtain ⟨w', h⟩ := exists_ok (x := converse (fun _ => (0, .recv 2)) 1 [])
    (w := freshBoard ([⟨0, .arrive [104, 105, 33]⟩] :: prompt 20))
    (a := [(0, .recv 2, .rx (.got [104, 105]))]) (by decide +kernel)
  exact ⟨_, w', h, converse_receives (by decide) (freshBoard_inStep _ (by decide)) h⟩

/-- What goes out is what `send` took over, in order. Of that the memory of the chip holds all
that is not acknowledged. -/
theorem converse_transmits (hn : n < wizchipSockNum) (hw : InStep n s w.host.vars w.dev)
    (hrun : converse next m [] w = .ok t w') :
    let k := w'.dev.socks n
    let gave := (seen n t s).gave
    k.wire = gave.take (gave.length - k.unsent) ∧ k.unsent ≤ k.pending ∧ k.pending ≤ k.txSize ∧
      window k.txMem k.txSize k.txAck.toNat k.pending = gave.drop (gave.length - k.pending) := by
  have hk := (converse_inStep hn hw hrun).2.2.2
  have hg := hk.given
  refine ⟨?_, hk.tx.order, hk.tx.fits, ?_⟩
  · rw [← hg]
    exact hk.tx.wire
  · rw [← hg]
    exact hk.tx.content

theorem converse_transmits_three :
    ∃ t w', converse (fun _ => (0, .send [7, 8, 9] 3)) 1 []
        (freshBoard (prompt 20)) = .ok t w' ∧
      (let k := w'.dev.socks 0
       let gave := (seen 0 t ⟨[], []⟩).gave
       k.wire = gave.take (gave.length - k.unsent) ∧ k.unsent ≤ k.pending ∧ k.pending ≤ k.txSize ∧
         window k.txMem k.txSize k.txAck.toNat k.pending =
           gave.drop (gave.length - k.pending)) := by
  obtain ⟨w', h⟩ := exists_ok (x := converse (fun _ => (0, .send [7, 8, 9] 3)) 1 [])
    (w := freshBoard (prompt 20)) (a := [(0, .send [7, 8, 9] 3, .ret 3)]) (by decide +kernel)
  exact ⟨_, w', h, converse_transmits (by decide) (freshBoard_inStep _ (by decide)) h⟩

/-- No frame of a conversation is longer than the buffers of the driver, if the sockets that it is
about are in step. -/
theorem converse_bounds {r : Nat → Seen} {e : Stop} (hw : ∀ t, (next t).1 < wizchipSockNum →
      InStep (next t).1 (r (next t).1) w.host.vars w.dev)
    (hrun : converse next m [] w = .error e w') : e = .blocked := by
  have hall : Together (fun n => ∃ t, (next t).1 = n) r w.host.vars w.dev := by
    rintro _ hn ⟨t, rfl⟩
    exact hw t hn
  exact (converse_spec next m []).error (R := fun _ => True) (fun _ _ _ _ => trivial)
    ⟨nofun, hall⟩ hrun fun t => ⟨t, rfl⟩

theorem converse_bounds_blocked :
    ∃ e w', converse (fun _ => (0, .recv 2)) 1 [] (freshBoard []) = .error e w' ∧ e = .blocked := by
  obtain ⟨w', h⟩ := exists_error (x := converse (fun _ => (0, .recv 2)) 1 []) (w := freshBoard [])
    (e := .blocked) (by decide +kernel)
  exact ⟨_, w', h,
    converse_bounds (r := fun _ => ⟨[], []⟩) (fun _ _ => freshBoard_inStep _ (by decide)) h⟩

/-- A socket that no call is for goes its own way. -/
theorem converse_isolated {R : Event → Prop} (hn : n < wizchipSockNum)
    (hnext : ∀ t, (next t).1 ≠ n) (hw : Within R w.script)
    (hrun : converse next m [] w = .ok t w') :
    (∃ es : List SockEvent, (∀ e ∈ es, R ⟨n, e⟩) ∧
      w'.dev.socks n = es.foldl Sock.move (w.dev.socks n)) ∧ w.host.vars.Agree n w'.host.vars := by
  have hkeeps : ∀ m t, Keeps R (Alone R n w.host.vars (w.dev.socks n)) (converse next m t) := by
    intro m
    induction m with
    | zero => exact fun t => .pure t
    | succ m ih =>
      exact fun t => (runCall_keeps _ (apart_alone hn (hnext t).symm _ _)).bind fun _ => ih _
  exact ((hkeeps m []).ok hw ⟨⟨[], nofun, rfl⟩, rfl, rfl, rfl, rfl⟩ hrun).2

theorem converse_isolated_one :
    ∃ t w', converse (fun _ => (0, .recv 2)) 1 []
        (freshBoard ([⟨1, .arrive [5]⟩, ⟨0, .arrive [104, 105, 33]⟩] :: prompt 20)) = .ok t w' ∧
      (∃ es : List SockEvent, (∀ e ∈ es, True) ∧
        w'.dev.socks 1 = es.foldl Sock.move (freshSock 1)) ∧
      (freshBoard []).host.vars.Agree 1 w'.host.vars := by
  obtain ⟨w', h⟩ := exists_ok (x := converse (fun _ => (0, .recv 2)) 1 [])
    (w := freshBoard ([⟨1, .arrive [5]⟩, ⟨0, .arrive [104, 105, 33]⟩] :: prompt 20))
    (a := [(0, .recv 2, .rx (.got [104, 105]))]) (by decide +kernel)
  exact ⟨_, w', h, converse_isolated (R := fun _ => True) (by decide) (fun _ => by decide)
    (fun _ _ _ _ => trivial) h⟩

end Runs

end NucleoW5500.Driver
