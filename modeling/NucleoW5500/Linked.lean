import NucleoW5500.ChipStream
import NucleoW5500.Reassembly

/-! A program over the driver sees a connected socket as the packet protocol takes it to be, and
so packets cross two boards that are linked. -/

namespace NucleoW5500.Driver

open CString Chip Interleaved RingBuffer Spi

section Refinement

/-- Reads and writes of a connection, none of them of nothing. -/
def Streams : Call → Prop
  | .recv len => len ≠ 0
  | .send _ len => len ≠ 0
  | _ => False

def rxAnswer : Call × Reply → List RxEvent
  | (.recv _, .rx (.err code)) => [.fail code]
  | (.recv _, .rx (.got bs)) => [.ready bs.length]
  | _ => []

def txAnswer : Call × Reply → List TxEvent
  | (.send .., .ret ret) => [if ret < 0 then .fail (-ret - 1).toNat else .room ret.toNat]
  | _ => []

def asked : Call × Reply → List UInt16
  | (.recv len, _) => [len]
  | _ => []

def gotBytes : Call × Reply → List UInt8
  | (.recv _, .rx (.got bs)) => bs
  | _ => []

def gaveBytes : Call × Reply → List UInt8
  | (.send buf _, .ret ret) => read buf 0 ret.toNat
  | _ => []

/-- The socket answers as it does in `l`. -/
def answered (l : List (Call × Reply)) (w : NucleoW5500.World) : NucleoW5500.World :=
  { w with
    incoming := l.flatMap gotBytes
    rxScript := l.flatMap rxAnswer
    txScript := l.flatMap txAnswer }

def noted (l : List (Call × Reply)) (w : NucleoW5500.World) : NucleoW5500.World :=
  { w with asked := w.asked ++ l.flatMap asked, sent := w.sent ++ l.flatMap gaveBytes }

def doCall : Call → CM Reply
  | .recv len => do return .rx (← NucleoW5500.recv len)
  | .send buf len => do return .ret (← NucleoW5500.send buf 0 len)
  | _ => pure (.ret 0)

def doCalls : List Call → CM (List Reply)
  | [] => pure []
  | call :: calls => do
    let reply ← doCall call
    let replies ← doCalls calls
    return reply :: replies

theorem doCall_answered {e : Call × Reply} (he : Streams e.1) (hfit : Fits e)
    (l : List (Call × Reply)) (w : NucleoW5500.World) :
    doCall e.1 (answered (e :: l) w) = .ok e.2 (answered l (noted [e] w)) := by
  obtain ⟨call, reply⟩ := e
  cases call with
  | socket => exact absurd he id
  | connect => exact absurd he id
  | disconnect => exact absurd he id
  | close => exact absurd he id
  | recv len =>
    have hne : len ≠ 0 := he
    cases reply with
    | ret ret => exact absurd hfit id
    | rx r =>
      cases r with
      | err code =>
        have hs : (answered ((.recv len, .rx (.err code)) :: l) w).rxScript =
          .fail code :: l.flatMap rxAnswer := rfl
        rw [doCall, CM.bind_ok (recv_fail hne hs)]
        simp [answered, noted, asked, gotBytes, gaveBytes, txAnswer]
      | got bs =>
        have hle : bs.length ≤ len.toNat := hfit
        have hs : (answered ((.recv len, .rx (.got bs)) :: l) w).rxScript =
          .ready bs.length :: l.flatMap rxAnswer := rfl
        rw [doCall, CM.bind_ok (recv_ready hne hs)]
        simp [answered, noted, asked, gotBytes, gaveBytes, txAnswer, Nat.min_eq_left hle]
  | send buf len =>
    have hne : len ≠ 0 := he
    cases reply with
    | rx r => exact absurd hfit id
    | ret ret =>
      have hle : ret ≤ len.toNat := hfit
      by_cases hneg : ret < 0
      · have hnil : read buf 0 ret.toNat = [] := by
          rw [Int.toNat_of_nonpos (by omega)]
          rfl
        have hcode : -(((-ret - 1).toNat : Int) + 1) = ret := by omega
        simp [doCall, NucleoW5500.send, Lockstep.bind_apply, answered, noted, asked, gotBytes,
          gaveBytes, txAnswer, rxAnswer, hneg, hne, hnil]
      · have hmin : min ret.toNat len.toNat = ret.toNat := by omega
        simp [doCall, NucleoW5500.send, Lockstep.bind_apply, answered, noted, asked, gotBytes,
          gaveBytes, txAnswer, rxAnswer, hneg, hne, hmin, not_lt.mp hneg]

theorem doCalls_answered {l : List (Call × Reply)} (hl : ∀ e ∈ l, Streams e.1)
    (hfit : ∀ e ∈ l, Fits e) (w : NucleoW5500.World) :
    doCalls (l.map Prod.fst) (answered l w) = .ok (l.map Prod.snd) (answered [] (noted l w)) := by
  induction l generalizing w with
  | nil => simp [doCalls, noted]
  | cons e l ih =>
    have hhead := doCall_answered (hl e List.mem_cons_self) (hfit e List.mem_cons_self) l w
    have htail := ih (fun e' he' => hl e' (List.mem_cons_of_mem e he'))
      (fun e' he' => hfit e' (List.mem_cons_of_mem e he')) (noted [e] w)
    rw [List.map_cons, doCalls, CM.bind_ok hhead, CM.bind_ok htail]
    simp [noted]

/-- On a connection the program sees the bytes go by. -/
theorem foldl_streams (n : Nat) {l : List (Call × Reply)} (hl : ∀ e ∈ l, Streams e.1) (s : Seen) :
    l.foldl (Seen.after n) s =
      ⟨s.got ++ l.flatMap gotBytes, s.gave ++ l.flatMap gaveBytes⟩ := by
  induction l generalizing s with
  | nil => simp
  | cons e l ih =>
    rw [List.foldl_cons, ih fun e' he' => hl e' (List.mem_cons_of_mem e he')]
    have he := hl e List.mem_cons_self
    obtain ⟨call, reply⟩ := e
    cases call with
    | socket => exact absurd he id
    | connect => exact absurd he id
    | disconnect => exact absurd he id
    | close => exact absurd he id
    | recv len => rcases reply with ⟨_ | _⟩ | _ <;> simp [Seen.after, gotBytes, gaveBytes]
    | send buf len => cases reply <;> simp [Seen.after, gotBytes, gaveBytes]

variable {n m : Nat} {next : Trace → Nat × Call} {t : Trace} {s : Seen} {w w' : Board}

theorem mem_on {e : Call × Reply} : e ∈ on n t ↔ (n, e) ∈ t := by
  rw [on, List.mem_filterMap]
  constructor
  · rintro ⟨⟨k, e'⟩, he, h⟩
    by_cases hk : k = n
    · rw [if_pos hk] at h
      obtain rfl := Option.some.inj h
      rwa [hk] at he
    · simp [hk] at h
  · exact fun he => ⟨_, he, if_pos rfl⟩

/-- The chip and the driver do for a connected socket what `recv` and `send` of the packet protocol
are taken to do, with the bytes that come in before them, and the bytes that go out behind. -/
theorem converse_refines (hn : n < wizchipSockNum) (hw : InStep n s w.host.vars w.dev)
    (hrun : converse next m [] w = .ok t w') (hl : ∀ e ∈ on n t, Streams e.1) :
    ∃ v v' : NucleoW5500.World,
      doCalls ((on n t).map Prod.fst) v = .ok ((on n t).map Prod.snd) v' ∧
      (w'.dev.socks n).received = s.got ++ v.incoming ++ (w'.dev.socks n).unread ∧
      v'.incoming = [] ∧ (w'.dev.socks n).given = s.gave ++ v'.sent ∧ v.sent = [] := by
  obtain ⟨hfit, hstep⟩ := converse_inStep hn hw hrun
  rw [seen, foldl_streams n hl] at hstep
  have hcalls := doCalls_answered hl (fun e he => hfit e (mem_on.mp he)) {}
  refine ⟨_, _, hcalls, hstep.2.2.received, rfl, ?_, rfl⟩
  rw [hstep.2.2.given]
  rfl

theorem converse_refines_one :
    ∃ t w' v v', converse (fun _ => (0, .recv 2)) 1 []
        (freshBoard ([⟨0, .arrive [104, 105, 33]⟩] :: prompt 20)) = .ok t w' ∧
      doCalls ((on 0 t).map Prod.fst) v = .ok ((on 0 t).map Prod.snd) v' ∧
      (w'.dev.socks 0).received = [] ++ v.incoming ++ (w'.dev.socks 0).unread ∧
      v'.incoming = [] ∧ (w'.dev.socks 0).given = [] ++ v'.sent ∧ v.sent = [] := by
  obtain ⟨w', h⟩ := exists_ok (x := converse (fun _ => (0, .recv 2)) 1 [])
    (w := freshBoard ([⟨0, .arrive [104, 105, 33]⟩] :: prompt 20))
    (a := [(0, .recv 2, .rx (.got [104, 105]))]) (by decide +kernel)
  obtain ⟨v, v', hv⟩ := converse_refines (n := 0) (by decide)
    (freshBoard_inStep _ (by decide)) h (by simp [on, Streams])
  exact ⟨_, w', v, v', h, hv⟩

end Refinement

section Packets

variable {i j k m m' : Nat} {next next' : Trace → Nat × Call} {t u : Trace}
  {a a' b b' : Board} {env : HeapEnv} {ps : List WirePacket} {out : List (Block TcpPacket3)}
  {st : Receiver} {v : NucleoW5500.World}

/-- What `recv_tcp_packet3` makes of the first part of a stream of packets. -/
theorem recvCalls_prefix {w : NucleoW5500.World} (hw : w.incoming <+: wireBytes ps)
    (h : recvCalls env k Receiver.start w = .ok (out, st) v) : out <+: delivered env w.next ps := by
  obtain ⟨bs, ph, hi, hbs, -⟩ := recvCalls_run Tracks.start h
  obtain ⟨rest, hrest⟩ := hw
  have hrun := framer_wireBytes env w.next ps
  rw [← hrest, hi, List.append_assoc] at hrun
  obtain ⟨q, o₁, o₂, h₁, -, ho⟩ := Transducer.run_split hrun
  rw [hbs] at h₁
  simp only [Option.some.injEq, Prod.mk.injEq] at h₁
  exact ⟨o₂, by rw [h₁.2, ho]⟩

/-- Board `a` sends packets, in whatever pieces, to board `b`. Both programs talk to their chips
through the driver, and the chips do as they like in between. -/
theorem packets_cross (hi : i < wizchipSockNum) (hj : j < wizchipSockNum)
    (ha : InStep i ⟨[], []⟩ a.host.vars a.dev) (hb : InStep j ⟨[], []⟩ b.host.vars b.dev)
    (hrun : converse next m [] a = .ok t a') (hrun' : converse next' m' [] b = .ok u b')
    (ht : ∀ e ∈ on i t, Streams e.1) (hu : ∀ e ∈ on j u, Streams e.1)
    (hgave : (on i t).flatMap gaveBytes <+: wireBytes ps)
    (hlink : (b'.dev.socks j).received <+: (a'.dev.socks i).wire)
    (hcalls : recvCalls env k Receiver.start (answered (on j u) {}) = .ok (out, st) v) :
    out <+: delivered env 0 ps ∧
      ((b'.dev.socks j).received = wireBytes ps → (b'.dev.socks j).unread = [] →
        v.incoming = [] → out = delivered env 0 ps ∧ st = Receiver.start) := by
  have hA := (converse_inStep hi ha hrun).2
  have hB := (converse_inStep hj hb hrun').2
  rw [seen, foldl_streams i ht] at hA
  rw [seen, foldl_streams j hu] at hB
  have hwire := hA.2.2.tx.wire
  have hreceived : (b'.dev.socks j).received =
      (answered (on j u) {}).incoming ++ (b'.dev.socks j).unread := hB.2.2.received
  have hin : (answered (on j u) {}).incoming <+: wireBytes ps := by
    refine (List.prefix_append _ _).trans (hreceived ▸ hlink.trans ?_)
    rw [hwire]
    refine (List.take_prefix _ _).trans ?_
    rw [hA.2.2.given]
    exact hgave
  refine ⟨ recvCalls_prefix hin hcalls, fun hall hnil hv => ?_⟩
  rw [hnil, List.append_nil, hall] at hreceived
  have hw := framer_wireBytes env 0 ps
  rw [hreceived] at hw
  exact (recvCalls_aligned hw hcalls).2 hv

/-- A packet of eight bytes. -/
def onePacket : List WirePacket := [⟨1, 0, 1, [], by decide⟩]

theorem packets_cross_one :
    ∃ t u a' b' out v,
      converse (fun _ => (0, .send (wireBytes onePacket) 8)) 1 []
        (freshBoard (List.replicate 24 [⟨0, .accept 0⟩, ⟨0, .transmit 8⟩])) = .ok t a' ∧
      converse (fun _ => (0, .recv 8)) 1 []
        (freshBoard ([⟨0, .arrive (wireBytes onePacket)⟩] :: prompt 24)) = .ok u b' ∧
      recvCalls .ample 1 Receiver.start (answered (on 0 u) {}) = .ok (out, Receiver.start) v ∧
      out = delivered .ample 0 onePacket := by
  obtain ⟨a', hA, hwire⟩ := exists_ok_with
    (x := converse (fun _ => (0, .send (wireBytes onePacket) 8)) 1 [])
    (w := freshBoard (List.replicate 24 [⟨0, .accept 0⟩, ⟨0, .transmit 8⟩]))
    (f := fun a => (a.dev.socks 0).wire) (a := [(0, .send (wireBytes onePacket) 8, .ret 8)])
    (b := wireBytes onePacket) (by decide +kernel)
  obtain ⟨b', hB, hb'⟩ := exists_ok_with (x := converse (fun _ => (0, .recv 8)) 1 [])
    (w := freshBoard ([⟨0, .arrive (wireBytes onePacket)⟩] :: prompt 24))
    (f := fun b => ((b.dev.socks 0).received, (b.dev.socks 0).unread))
    (a := [(0, .recv 8, .rx (.got (wireBytes onePacket)))]) (b := (wireBytes onePacket, []))
    (by decide +kernel)
  obtain ⟨hrec, hun⟩ := Prod.mk.inj hb'
  obtain ⟨v, hcalls, hv⟩ : ∃ v, recvCalls .ample 1 Receiver.start
      (answered (on 0 [(0, .recv 8, .rx (.got (wireBytes onePacket)))]) {}) =
        .ok (delivered .ample 0 onePacket, Receiver.start) v ∧ v.incoming = [] :=
    ⟨_, rfl, rfl⟩
  have hcross := packets_cross (i := 0) (j := 0) (by decide) (by decide)
    (freshBoard_inStep _ (by decide)) (freshBoard_inStep _ (by decide)) hA hB
    (by simp [on, Streams]) (by simp [on, Streams])
    (show _ <+: wireBytes onePacket by decide) (by rw [hrec, hwire]) hcalls
  exact ⟨_, _, a', b', _, v, hA, hB, hcalls, (hcross.2 hrec hun hv).1⟩

end Packets

end NucleoW5500.Driver
