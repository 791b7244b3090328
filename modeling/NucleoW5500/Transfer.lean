import NucleoW5500.BigFileSteps
import NucleoW5500.Framer

/-! Runs of `receive_bigfile_from_packet`, with a log of the transfer as an observer
of its packets and return values keeps it. -/

namespace NucleoW5500

open CString

/-- A transfer since its start packet was accepted: the fragments accepted, and
whether an end packet was. -/
structure Transfer where
  info : BigfileInfo
  frags : List (UInt32 × List UInt8)
  ended : Bool

def Transfer.received (t : Transfer) : List UInt8 := t.frags.flatMap Prod.snd

structure Transfer.Complete (t : Transfer) : Prop where
  numbers : t.frags.map (fun f => f.1.toNat) = List.range t.info.count.toNat
  size : t.received.length = t.info.size.toNat

structure BigfileCall where
  env : HeapEnv
  world : World
  packet : Option TcpPacket3
  args : BigfileArgs

def BigfileCall.plain (type : UInt8) (contents : List UInt8) (h : contents.length < 65536) :
    BigfileCall :=
  ⟨.ample, {}, some (WirePacket.record ⟨1, 0, type, contents, h⟩), ⟨true, true, true⟩⟩

/-- A call as the observer logs it. -/
def BigfileCall.log (c : BigfileCall) (ret : Int) (log : Option Transfer) : Option Transfer :=
  match c.packet with
  | none => log
  | some q =>
    let mem := plaintext c.env q c.world.next
    let size := getPacketPlainContentsSize q
    if q.type = tcpPacket3TypeBigfileStart then
      if ret = 1 then (parseBigfileInfo mem size).map fun info => ⟨info, [], false⟩ else log
    else if q.type = tcpPacket3TypeBigfileFrag then
      if ret = 1 then log.map fun t =>
        { t with frags := t.frags ++ [(fragmentNumber mem, fragmentContents mem size)] }
      else log
    else if q.type = tcpPacket3TypeBigfileEnd then
      if ret = 0 then log.map fun t => { t with ended := true } else log
    else log

def BigfileCall.result (c : BigfileCall) (st : BigfileState) :
    EStateM.Result Halt World (Int × BigfileOut × BigfileState) :=
  receiveBigfileFromPacket c.env st c.packet c.args c.world

theorem BigfileCall.spec (c : BigfileCall) {st : BigfileState}
    {r : EStateM.Result Halt World (Int × BigfileOut × BigfileState)} (hcall : c.result st = r) :
    BigfileSpec c.env c.world st c.args c.packet r :=
  hcall ▸ receiveBigfileFromPacket_spec c.env c.world st c.packet c.args

/-- The statics and the log after any number of calls that are `Safe`, each with a
heap and a world of its own. -/
inductive BigfileRun (Safe : BigfileCall → BigfileState → Option Transfer → Prop) :
    BigfileState → Option Transfer → Prop
  | start : BigfileRun Safe BigfileState.start none
  | call {c : BigfileCall} {st st' : BigfileState} {log : Option Transfer} {ret : Int}
      {out : BigfileOut} {w' : World} : BigfileRun Safe st log → Safe c st log →
      c.result st = .ok (ret, out, st') w' → BigfileRun Safe st' (c.log ret log)

/-- What the statics of a transfer owe to its log. The counters are only set by the
first fragment. -/
structure Receiving (st : BigfileState) (big : Block BigfileRecv) (t : Transfer) : Prop where
  info : big.val.toBigfileInfo = t.info
  next : big.val.next.toNat = t.frags.length
  numbers : t.frags.map (fun f => f.1.toNat) = List.range t.frags.length
  stored : t.received <+: big.val.contents
  remainCount : t.frags ≠ [] → st.remainCount.toNat + t.frags.length = t.info.count.toNat
  remainSize : t.frags ≠ [] → st.remainSize.toNat + t.received.length = t.info.size.toNat
  pContents : t.frags ≠ [] → st.pContents = some (big.addr, t.received.length)

def Tracked (st : BigfileState) (log : Option Transfer) : Prop :=
  ∀ big, st.pBig = some big → ∃ t, log = some t ∧ Receiving st big t

theorem BigfileCall.log_error (c : BigfileCall) (log : Option Transfer) : c.log (-1) log = log := by
  unfold BigfileCall.log
  cases c.packet with
  | none => rfl
  | some q =>
    have h₁ : ¬ (-1 : Int) = 1 := by decide
    have h₀ : ¬ (-1 : Int) = 0 := by decide
    simp only [h₁, h₀, if_false, ite_self]

theorem BigfileCall.log_start {c : BigfileCall} {q : TcpPacket3} {info : BigfileInfo}
    (hp : c.packet = some q) (ht : q.type = tcpPacket3TypeBigfileStart)
    (hparse : parseBigfileInfo (plaintext c.env q c.world.next) (getPacketPlainContentsSize q) =
      some info) (log : Option Transfer) : c.log 1 log = some ⟨info, [], false⟩ := by
  simp [BigfileCall.log, hp, ht, hparse]

theorem BigfileCall.log_frag {c : BigfileCall} {q : TcpPacket3} (hp : c.packet = some q)
    (ht : q.type = tcpPacket3TypeBigfileFrag) (t : Transfer) :
    c.log 1 (some t) = some { t with
      frags := t.frags ++ [(fragmentNumber (plaintext c.env q c.world.next),
        fragmentContents (plaintext c.env q c.world.next) (getPacketPlainContentsSize q))] } := by
  simp only [BigfileCall.log, hp, ht, if_true, Option.map_some]
  rfl

theorem BigfileCall.log_end {c : BigfileCall} {q : TcpPacket3} (hp : c.packet = some q)
    (ht : q.type = tcpPacket3TypeBigfileEnd) (t : Transfer) :
    c.log 0 (some t) = some { t with ended := true } := by
  have h₁ : ¬ tcpPacket3TypeBigfileEnd = tcpPacket3TypeBigfileStart := by decide
  have h₂ : ¬ tcpPacket3TypeBigfileEnd = tcpPacket3TypeBigfileFrag := by decide
  simp [BigfileCall.log, hp, ht, h₁, h₂]

theorem Transfer.received_append (t : Transfer) (f : UInt32 × List UInt8) :
    ({ t with frags := t.frags ++ [f] } : Transfer).received = t.received ++ f.2 := by
  simp [Transfer.received]

theorem Receiving.fresh (st : BigfileState) (addr : Nat) (info : BigfileInfo) :
    Receiving st ⟨addr, info.record⟩ ⟨info, [], false⟩ :=
  ⟨rfl, rfl, rfl, List.nil_prefix, by simp, by simp, by simp⟩

theorem Receiving.ended {st : BigfileState} {big : Block BigfileRecv} {t : Transfer}
    (h : Receiving st big t) : Receiving st big { t with ended := true } :=
  ⟨h.info, h.next, h.numbers, h.stored, h.remainCount, h.remainSize, h.pContents⟩

theorem Receiving.first {st : BigfileState} {big : Block BigfileRecv} {t : Transfer}
    (h : Receiving st big t) :
    (firstFragment st big).remainCount.toNat + t.frags.length = t.info.count.toNat ∧
      (firstFragment st big).remainSize.toNat + t.received.length = t.info.size.toNat ∧
      (firstFragment st big).pContents = some (big.addr, t.received.length) := by
  have hnext := h.next
  unfold firstFragment
  by_cases hz : big.val.next = 0
  · have hnil : t.frags = [] := by
      rw [hz, UInt32.toNat_zero] at hnext
      exact List.eq_nil_of_length_eq_zero hnext.symm
    rw [if_pos hz, ← h.info]
    simp [hnil, Transfer.received]
  · have hne : t.frags ≠ [] := by
      intro hnil
      rw [hnil, List.length_nil] at hnext
      exact hz (UInt32.toNat_inj.mp hnext)
    rw [if_neg hz]
    exact ⟨h.remainCount hne, h.remainSize hne, h.pContents hne⟩

theorem Receiving.rejected {st : BigfileState} {big : Block BigfileRecv} {t : Transfer}
    (h : Receiving st big t) : Receiving (firstFragment st big) big t := by
  obtain ⟨h₁, h₂, h₃⟩ := h.first
  exact ⟨h.info, h.next, h.numbers, h.stored, fun _ => h₁, fun _ => h₂, fun _ => h₃⟩

theorem Receiving.accepted {st : BigfileState} {big : Block BigfileRecv} {t : Transfer}
    {number : UInt32} {payload : List UInt8} {offset : Nat} (h : Receiving st big t)
    (hcount : (firstFragment st big).remainCount ≠ 0) (hnum : number = big.val.next)
    (hsize : payload.length ≤ (firstFragment st big).remainSize.toNat)
    (hptr : (firstFragment st big).pContents = some (big.addr, offset)) :
    Receiving
      { pBig := some ⟨big.addr, { big.val with
          next := big.val.next + 1, contents := overwrite big.val.contents offset payload }⟩
        remainCount := (firstFragment st big).remainCount - 1
        remainSize := (firstFragment st big).remainSize - UInt32.ofNat payload.length
        pContents := some (big.addr, offset + payload.length) }
      ⟨big.addr, { big.val with
        next := big.val.next + 1, contents := overwrite big.val.contents offset payload }⟩
      { t with frags := t.frags ++ [(number, payload)] } := by
  obtain ⟨hrc, hrs, hpc⟩ := h.first
  have hlen : (t.frags ++ [(number, payload)]).length = t.frags.length + 1 := by simp
  have hcount' : (firstFragment st big).remainCount.toNat ≠ 0 := by
    intro h0
    exact hcount (UInt32.toNat_inj.mp h0)
  have hmax := t.info.count.toNat_lt
  have hnext : (big.val.next + 1).toNat = t.frags.length + 1 := by
    rw [UInt32.toNat_add, h.next, UInt32.toNat_one]
    omega
  have hcnt : ((firstFragment st big).remainCount - 1).toNat =
      (firstFragment st big).remainCount.toNat - 1 := by
    rw [UInt32.toNat_sub_of_le _ _ (UInt32.le_iff_toNat_le.mpr (by
      rw [UInt32.toNat_one]
      omega))]
    rfl
  have hpay : (UInt32.ofNat payload.length).toNat = payload.length := by
    have := (firstFragment st big).remainSize.toNat_lt
    rw [UInt32.toNat_ofNat', Nat.mod_eq_of_lt (by omega)]
  have hsz : ((firstFragment st big).remainSize - UInt32.ofNat payload.length).toNat =
      (firstFragment st big).remainSize.toNat - payload.length := by
    rw [UInt32.toNat_sub_of_le _ _ (UInt32.le_iff_toNat_le.mpr (by omega)), hpay]
  obtain rfl : t.received.length = offset := by
    rw [hpc] at hptr
    exact congrArg Prod.snd (Option.some.inj hptr)
  refine ⟨h.info, hnext.trans hlen.symm, ?_, ?_, fun _ => ?_, fun _ => ?_, fun _ => ?_⟩
  · have hn : number.toNat = t.frags.length := by rw [hnum, h.next]
    simp only [List.map_append, List.map_cons, List.map_nil, h.numbers, hlen, hn,
      List.range_succ]
  · obtain ⟨rest, hrest⟩ := h.stored
    rw [Transfer.received_append]
    dsimp only
    rw [← hrest, overwrite_at_length]
    exact List.prefix_append _ _
  · dsimp only
    rw [hcnt, hlen]
    omega
  · dsimp only
    rw [hsz, Transfer.received_append, List.length_append]
    dsimp only
    omega
  · rw [Transfer.received_append, List.length_append]

theorem tracked_call {c : BigfileCall} {st st' : BigfileState} {log : Option Transfer} {ret : Int}
    {out : BigfileOut} {w' : World} (h : Tracked st log)
    (hcall : c.result st = .ok (ret, out, st') w') : Tracked st' (c.log ret log) := by
  have hspec := c.spec hcall
  cases hspec with
  | idle =>
    rw [c.log_error]
    exact h
  | drop =>
    intro big hbig
    simp at hbig
  | start hp ht hparse hle =>
    intro big hbig
    rw [BigfileCall.log_start hp ht hparse]
    refine ⟨_, rfl, ?_⟩
    obtain rfl := Option.some.inj hbig
    exact Receiving.fresh _ _ _
  | @deliver big out w' hbig hguard hout =>
    intro big' hbig'
    by_cases hall : c.args.all = true
    · rw [if_pos hall] at hbig'
      simp at hbig'
    rw [if_neg hall] at hbig' ⊢
    obtain ⟨t, rfl, hrec⟩ := h big' hbig'
    rcases hguard with ⟨hp, -⟩ | ⟨q, hp, hend, -⟩
    · exact ⟨t, by rw [BigfileCall.log, hp], hrec⟩
    · exact ⟨_, BigfileCall.log_end hp hend.type t, hrec.ended⟩
  | reject hp ht hbig =>
    rw [c.log_error]
    intro big' hbig'
    rw [firstFragment_pBig] at hbig'
    obtain ⟨t, hlog, hrec⟩ := h big' hbig'
    obtain rfl := Option.some.inj (hbig.symm.trans hbig')
    exact ⟨t, hlog, hrec.rejected⟩
  | accept hp ht hbig hcount hnum hcont hle hptr hfit =>
    intro big' hbig'
    obtain ⟨t, rfl, hrec⟩ := h _ hbig
    obtain rfl := Option.some.inj hbig'
    rw [BigfileCall.log_frag hp ht, hcont]
    exact ⟨_, rfl, hrec.accepted hcount hnum hle hptr⟩

theorem BigfileRun.tracked {Safe : BigfileCall → BigfileState → Option Transfer → Prop}
    {st : BigfileState} {log : Option Transfer} (h : BigfileRun Safe st log) : Tracked st log := by
  induction h with
  | start =>
    intro big hbig
    simp [BigfileState.start] at hbig
  | call _ _ hcall ih => exact tracked_call ih hcall

end NucleoW5500
