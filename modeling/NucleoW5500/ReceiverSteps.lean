import NucleoW5500.Framer

/-! What one call of `recv_tcp_packet3` does, in terms of the byte machine: the
bytes it takes off the stream move the machine from the phase of the statics
before the call to the phase of the statics after it. -/

namespace NucleoW5500

open CString

def RxReply.bytes : RxReply → List UInt8
  | .err _ => []
  | .got bs => bs

/-- An event that hands out at least one byte when there is one to hand out. -/
def RxEvent.productive : RxEvent → Bool
  | .fail _ => false
  | .ready count => count ≠ 0

def World.supply (w : World) : Nat := w.rxScript.countP RxEvent.productive

structure Took (w : World) (bs : List UInt8) (w' : World) : Prop where
  incoming : w.incoming = bs ++ w'.incoming
  next : w'.next = w.next
  script : w'.rxScript.length < w.rxScript.length
  supply : w.incoming ≠ [] → w.supply ≤ w'.supply + bs.length

theorem Took.length {w w' : World} {bs : List UInt8} (ht : Took w bs w') :
    w.incoming.length = bs.length + w'.incoming.length := by
  rw [ht.incoming, List.length_append]

theorem Took.nonempty {w w' : World} {bs : List UInt8} (ht : Took w bs w')
    (h : 0 < bs.length + w'.incoming.length) : w.incoming ≠ [] :=
  List.ne_nil_of_length_pos (ht.length ▸ h)

theorem recv_spec {len : Nat} (hpos : 0 < len) (hlt : len < 65536) (w : World) :
    (∃ w', recv (UInt16.ofInt len) w = .error .blocked w' ∧ w.rxScript = [] ∧
        w'.rxScript = [] ∧ w'.incoming = w.incoming) ∨
      ∃ r w', recv (UInt16.ofInt len) w = .ok r w' ∧ r.bytes.length ≤ len ∧ Took w r.bytes w' := by
  have hl := toNat_ofInt_of_lt hlt
  have hne := ofInt_ne_zero hpos hlt
  cases hs : w.rxScript with
  | nil => exact Or.inl ⟨_, recv_blocked hs, rfl, hs, rfl⟩
  | cons e es =>
    right
    cases e with
    | fail code =>
      refine ⟨_, _, recv_fail hne hs, by simp [RxReply.bytes], rfl, rfl, by simp [hs], fun _ => ?_⟩
      simp [World.supply, hs, RxEvent.productive]
    | ready count =>
      have ht := recv_ready hne hs
      rw [hl] at ht
      refine ⟨_, _, ht, ?_, ?_, rfl, by simp [hs], fun hin => ?_⟩
      · exact (List.length_take_le _ _).trans (Nat.min_le_right _ _)
      · exact (List.take_append_drop _ _).symm
      · have hin' := List.length_pos_iff.mpr hin
        simp only [World.supply, hs, List.countP_cons, RxEvent.productive, RxReply.bytes,
          List.length_take, decide_eq_true_eq]
        split_ifs with hc <;> omega

/-- How the discarding of `remain` bytes ends: all are gone, or the script is. -/
def EatSpec (remain : Nat) (w : World) : EStateM.Result Halt World Unit → Prop
  | .ok _ w' => ∃ eaten, w.incoming = eaten ++ w'.incoming ∧ eaten.length = remain ∧
      w'.next = w.next ∧ w'.rxScript.length < w.rxScript.length ∧ w.supply ≤ w'.supply + remain
  | .error h w' => h = .blocked ∧ w'.rxScript = [] ∧ ∃ eaten, w.incoming = eaten ++ w'.incoming ∧
      eaten.length < remain ∧ (w'.incoming = [] ∨ w.supply ≤ eaten.length)

theorem EatSpec.cons {remain : Nat} {w w₁ : World} {bs : List UInt8}
    {r : EStateM.Result Halt World Unit} (ht : Took w bs w₁) (hb : bs.length < remain)
    (h : EatSpec (remain - bs.length) w₁ r) : EatSpec remain w r := by
  have hi := ht.incoming
  have hsc := ht.script
  cases r with
  | ok _ w' =>
    obtain ⟨eaten, he, hl, hn, hsc', hs⟩ := h
    have hlen := congrArg List.length he
    rw [List.length_append] at hlen
    have hsup := ht.supply (ht.nonempty (by omega))
    refine ⟨bs ++ eaten, by rw [hi, he, List.append_assoc], ?_, hn.trans ht.next, by omega, by omega⟩
    rw [List.length_append]
    omega
  | error e w' =>
    obtain ⟨hblk, hnil, eaten, he, hl, hor⟩ := h
    refine ⟨hblk, hnil, bs ++ eaten, by rw [hi, he, List.append_assoc], ?_, ?_⟩
    · rw [List.length_append]
      omega
    · rcases hor with h0 | hs
      · exact Or.inl h0
      · by_cases h0 : w'.incoming = []
        · exact Or.inl h0
        · right
          have hlen := congrArg List.length he
          rw [List.length_append] at hlen
          have hpos := List.length_pos_iff.mpr h0
          have hsup := ht.supply (ht.nonempty (by omega))
          rw [List.length_append]
          omega

theorem eatTcpDataLoop_spec (size : Nat) :
    ∀ (fuel readSize remain : Nat) (w : World), 0 < readSize → readSize ≤ 128 → 0 < remain →
      remain ≤ size → w.rxScript.length < fuel →
      EatSpec remain w (eatTcpDataLoop size fuel readSize remain (size - remain : Nat) w) := by
  intro fuel
  induction fuel with
  | zero => intro readSize remain w _ _ _ _ hf; omega
  | succ fuel ih =>
    intro readSize remain w hr hr' hpos hle hf
    have hlen : (if (remain : Int) < readSize then (remain : Int) else readSize) =
        (min remain readSize : Nat) := by
      split_ifs <;> omega
    simp only [eatTcpDataLoop, hlen]
    rcases recv_spec (by omega : 0 < min remain readSize) (by omega) w with
      ⟨w', hw', hs, hs', hi⟩ | ⟨r, w', hw', hrl, ht⟩
    · rw [Lockstep.bind_apply, hw']
      exact ⟨rfl, hs', [], by simp [hi], by simpa using hpos, Or.inr (by simp [World.supply, hs])⟩
    · have hsc := ht.script
      rw [CM.bind_ok hw']
      have hturn : ∀ bs : List UInt8, bs.length ≤ min remain readSize → Took w bs w' →
          EatSpec remain w ((if ((size - remain : Nat) : Int) + bs.length < size then
            eatTcpDataLoop size fuel (min remain readSize : Nat) (remain - bs.length)
              ((size - remain : Nat) + bs.length) else pure ()) w') := by
        intro bs hbl ht
        by_cases hb : bs.length < remain
        · have hmore : ((size - remain : Nat) : Int) + bs.length < size := by omega
          have h₁ : (remain : Int) - bs.length = (remain - bs.length : Nat) := by omega
          have h₂ : ((size - remain : Nat) : Int) + bs.length =
              (size - (remain - bs.length) : Nat) := by omega
          rw [if_pos hmore, h₁, h₂]
          exact (ih (min remain readSize) (remain - bs.length) w' (by omega) (by omega) (by omega)
            (by omega) (by omega)).cons ht hb
        · have hmore : ¬ ((size - remain : Nat) : Int) + bs.length < size := by omega
          rw [if_neg hmore]
          have hsup := ht.supply (ht.nonempty (by omega))
          exact ⟨bs, ht.incoming, by omega, ht.next, ht.script, by omega⟩
      cases r with
      | got bs => exact hturn bs hrl ht
      | err code => simpa using hturn [] (by simp) ht

theorem eatTcpData_spec {size : Nat} (hpos : 0 < size) (w : World) :
    EatSpec size w (eatTcpData size w) := by
  have h := eatTcpDataLoop_spec size (w.rxScript.length + 1) 128 size w (by decide) (le_refl _) hpos
    (le_refl _) (by omega)
  simpa [eatTcpData] using h

theorem eatTcpData_zero (w : World) :
    (w.rxScript = [] ∧ ∃ w', eatTcpData 0 w = .error .blocked w' ∧ w'.rxScript = [] ∧
        w'.incoming = w.incoming) ∨
      ∃ w', eatTcpData 0 w = .ok () w' ∧ w'.incoming = w.incoming ∧ w'.next = w.next ∧
        w'.rxScript.length < w.rxScript.length ∧ w.supply ≤ w'.supply + 1 := by
  have h0 : UInt16.ofInt 0 = 0 := rfl
  cases hs : w.rxScript with
  | nil =>
    refine Or.inl ⟨rfl, { w with asked := w.asked ++ [0] }, ?_, hs, rfl⟩
    rw [eatTcpData, eatTcpDataLoop]
    exact CM.bind_error (recv_blocked hs)
  | cons e es =>
    refine Or.inr ⟨{ w with asked := w.asked ++ [0], rxScript := es }, ?_, rfl, rfl, by simp, ?_⟩
    · rw [eatTcpData, eatTcpDataLoop]
      exact CM.bind_ok (recv_zero hs)
    · simp only [World.supply, hs, List.countP_cons]
      split_ifs <;> omega

theorem partialRecord_append (h acc bs : List UInt8) :
    { partialRecord h acc with data := overwrite (partialRecord h acc).data acc.length bs } =
      partialRecord h (acc ++ bs) := by
  have hd : (getTcpPacket3HeaderDataSize h).toNat - acc.length - bs.length =
      (getTcpPacket3HeaderDataSize h).toNat - (acc ++ bs).length := by
    rw [List.length_append]
    omega
  simp only [partialRecord, tcpPacket3HeaderToField, overwrite_at_length, List.drop_replicate, hd]

theorem allocTcpPacket3Mem_some {env : HeapEnv} {h : List UInt8} {w : World} (hh : h.length = 8)
    (hok : env.ok w.next = true) :
    allocTcpPacket3Mem env h (getTcpPacket3HeaderDataSize h).toNat w =
      .ok (some ⟨w.next, partialRecord h []⟩) { w with next := w.next + 1 } := by
  have hneg : ¬ (((getTcpPacket3HeaderDataSize h).toNat : Int) < 0) := by omega
  have hr : read h 0 8 = h := by simpa [hh] using read_append_left h []
  rw [allocTcpPacket3Mem, if_neg hneg, CM.bind_ok (malloc_some hok)]
  simp [partialRecord, tcpPacket3HeaderToField, TcpPacket3.zero, tcpPacket3HeaderSize, hr]

theorem allocTcpPacket3Mem_none {env : HeapEnv} {h : List UInt8} {n : Int} {w : World}
    (hok : env.ok w.next = false) :
    allocTcpPacket3Mem env h n w = .ok none { w with next := w.next + 1 } := by
  rw [allocTcpPacket3Mem, CM.bind_ok (malloc_none hok)]
  rfl

/-- The statics in each phase. Behind the bytes of an unfinished header the array
holds what an earlier window left there. -/
inductive Tracks : Receiver → Phase → Prop
  | header {acc stale : List UInt8} (hlen : acc.length + stale.length = 8) (hlt : acc.length < 8)
      (hz : acc = [] → stale = List.replicate 8 0) :
      Tracks ⟨acc ++ stale, acc.length, .header, none⟩ (.header acc)
  | data {addr : Nat} {h acc : List UInt8} (hh : h.length = 8)
      (hlt : acc.length < (getTcpPacket3HeaderDataSize h).toNat) :
      Tracks ⟨List.replicate 8 0, acc.length, .data, some ⟨addr, partialRecord h acc⟩⟩
        (.data addr h acc)

theorem Tracks.start : Tracks Receiver.start (.header []) := 
  @Tracks.header [] (List.replicate 8 0) (by simp) (by simp) (fun _ => rfl)

theorem Tracks.eq_start {st : Receiver} (h : Tracks st (.header [])) : st = Receiver.start := by
  cases h with
  | header hlen hlt hz => simp [hz rfl, Receiver.start, tcpPacket3HeaderSize]

def CallSpec (env : HeapEnv) (ph : Phase) (w : World) :
    EStateM.Result Halt World (Option (Block TcpPacket3) × Receiver) → Prop
  | .ok (p, st') w' => ∃ bs ph', w.incoming = bs ++ w'.incoming ∧
      (framer env).run (w.next, ph) bs = some ((w'.next, ph'), p.toList) ∧ Tracks st' ph' ∧
      w'.rxScript.length < w.rxScript.length ∧
      (w.incoming ≠ [] → w.supply ≤ w'.supply + 2 * bs.length)
  | .error .blocked w' => w'.rxScript = [] ∧ (w.supply ≤ w.incoming.length ∨
      ∃ n remain, (framer env).run (w.next, ph) w.incoming = some ((n, .skip remain), []))
  | .error (.fault f) w' => f = .headerBounds ∧ ∃ bs, w.incoming = bs ++ w'.incoming ∧
      (framer env).run (w.next, ph) bs = none

/-- The call returns after `recv`, and the machine has run over the bytes it took. -/
theorem Took.returns {env : HeapEnv} {ph ph' : Phase} {w w₁ : World} {bs : List UInt8} {n : Nat}
    {p : Option (Block TcpPacket3)} {st : Receiver} (ht : Took w bs w₁)
    (hrun : (framer env).run (w.next, ph) bs = some ((n, ph'), p.toList)) (htr : Tracks st ph') :
    CallSpec env ph w (.ok (p, st) { w₁ with next := n }) := by
  refine ⟨bs, ph', ht.incoming, hrun, htr, ht.script, fun hin => ?_⟩
  have hsup : w.supply ≤ w₁.supply + bs.length := ht.supply hin
  show w.supply ≤ w₁.supply + 2 * bs.length
  omega

theorem Took.stays {env : HeapEnv} {ph ph' : Phase} {w w₁ : World} {bs : List UInt8}
    {p : Option (Block TcpPacket3)} {st : Receiver} (ht : Took w bs w₁)
    (hrun : (framer env).run (w.next, ph) bs = some ((w.next, ph'), p.toList))
    (htr : Tracks st ph') : CallSpec env ph w (.ok (p, st) w₁) := by
  have hnext : some ((w.next, ph'), p.toList) = some ((w₁.next, ph'), p.toList) := by rw [ht.next]
  exact ht.returns (hrun.trans hnext) htr

theorem Took.eats_nothing {env : HeapEnv} {ph : Phase} {w w₁ : World} {bs : List UInt8} {n : Nat}
    (ht : Took w bs w₁) (hbs : 0 < bs.length)
    (hrun : (framer env).run (w.next, ph) bs = some ((n, .header []), [])) :
    CallSpec env ph w ((do eatTcpData 0; pure (none, Receiver.start)) { w₁ with next := n }) := by
  rcases eatTcpData_zero { w₁ with next := n } with
    ⟨hs, w', hw', hs', -⟩ | ⟨w', hw', hi, hn', hs', hsup⟩
  · rw [CM.bind_error hw']
    refine ⟨hs', Or.inl ?_⟩
    have hnil : w₁.rxScript = [] := hs
    have hs0 : w₁.supply = 0 := by simp [World.supply, hnil]
    have hsup := ht.supply (ht.nonempty (by omega))
    have hlen := ht.length
    omega
  · rw [CM.bind_ok hw']
    have hi' : w'.incoming = w₁.incoming := hi
    have hn'' : w'.next = n := hn'
    have hsup' : w₁.supply ≤ w'.supply + 1 := hsup
    refine ⟨bs, .header [], hi' ▸ ht.incoming, hn'' ▸ hrun, Tracks.start,
      Nat.lt_trans hs' ht.script, fun hin => ?_⟩
    have := ht.supply hin
    omega

theorem Took.eats {env : HeapEnv} {ph : Phase} {w w₁ : World} {bs : List UInt8} {n size : Nat}
    (ht : Took w bs w₁) (hbs : 0 < bs.length) (hpos : 0 < size)
    (hrun : (framer env).run (w.next, ph) bs = some ((n, .skip size), [])) :
    CallSpec env ph w ((do eatTcpData size; pure (none, Receiver.start)) { w₁ with next := n }) := by
  have hsup := ht.supply (ht.nonempty (by omega))
  have heat := eatTcpData_spec hpos { w₁ with next := n }
  rw [Lockstep.bind_apply]
  cases hr : eatTcpData size { w₁ with next := n } with
  | ok u w' =>
    rw [hr] at heat
    obtain ⟨eaten, he, hel, hn', hs', hsup'⟩ := heat
    have he' : w₁.incoming = eaten ++ w'.incoming := he
    have hsup'' : w₁.supply ≤ w'.supply + size := hsup'
    refine ⟨bs ++ eaten, .header [], ?_, ?_, Tracks.start, Nat.lt_trans hs' ht.script, fun _ => ?_⟩
    · rw [List.append_assoc, ← he']
      exact ht.incoming
    · rw [Transducer.run_append_of_some hrun, framer_skip_full env n hpos hel, hn']
      rfl
    · rw [List.length_append]
      omega
  | error e w' =>
    rw [hr] at heat
    obtain ⟨rfl, hnil, eaten, he, hel, hor⟩ := heat
    have he' : w₁.incoming = eaten ++ w'.incoming := he
    refine ⟨hnil, ?_⟩
    rcases hor with h0 | hsup'
    · right
      rw [h0, List.append_nil] at he'
      refine ⟨n, size - eaten.length, ?_⟩
      rw [ht.incoming, he', Transducer.run_append_of_some hrun, framer_skip env n hel]
      rfl
    · left
      have hsup'' : w₁.supply ≤ eaten.length := hsup'
      have hlen := ht.length
      have hlen' := congrArg List.length he'
      rw [List.length_append] at hlen'
      omega

theorem rejectHeader_shift {st : Receiver} {k : Nat} (hw : st.header.length = 8)
    (hk : containsTcpPacket3Fragment st.header = k) (w : World) :
    rejectHeader st w = .ok (none,
      { st with
        header := st.header.drop k ++ st.header.drop (8 - k)
        receivedSize := st.receivedSize - k }) w := by
  have hrange := containsTcpPacket3Fragment_range st.header
  rw [hk] at hrange
  have hk0 : ¬ ((k : Int) = 0) := by omega
  have hk8 : (0 : Int) ≤ k ∧ (k : Int) ≤ 8 := by omega
  have hdrop : (st.header.drop k).length = 8 - k := by rw [List.length_drop, hw]
  have ho : overwrite st.header 0 (st.header.drop k) =
      st.header.drop k ++ st.header.drop (8 - k) := by
    simp [overwrite, CString.read, hdrop]
  simp only [rejectHeader, hk, hk0, if_false, shiftHeader, tcpPacket3HeaderSize, Nat.cast_ofNat,
    hk8, and_self, if_true, Lockstep.bind_apply, CM.pure_apply, Int.toNat_natCast, ho]

theorem rejectHeader_spec {env : HeapEnv} {ph : Phase} {w w₁ : World} {bs window : List UInt8}
    (hw : window.length = 8) (hh : isTcpPacket3Header window = false) (ht : Took w bs w₁)
    (hrun : (framer env).run (w.next, ph) bs = closeWindow env w.next window) :
    CallSpec env ph w (rejectHeader ⟨window, 8, .header, none⟩ w₁) := by
  rcases containsTcpPacket3Fragment_range window with hk | ⟨hk, hk'⟩
  · simp only [rejectHeader, hk, shiftHeader]
    exact ⟨rfl, bs, ht.incoming, hrun.trans (closeWindow_reject hh hk)⟩
  · obtain ⟨k, hkk⟩ : ∃ k : Nat, containsTcpPacket3Fragment window = k :=
      ⟨(containsTcpPacket3Fragment window).toNat, by omega⟩
    rw [hkk] at hk hk'
    have hdrop : (window.drop k).length = 8 - k := by rw [List.length_drop, hw]
    rw [@rejectHeader_shift ⟨window, 8, .header, none⟩ k hw hkk w₁]
    refine ht.stays (hrun.trans (closeWindow_shift hh hkk)) ?_
    have hr : (8 : Int) - k = (window.drop k).length := by omega
    dsimp only
    rw [hr]
    exact Tracks.header (by rw [hdrop, List.length_drop, hw]; omega) (by omega)
      (fun h0 => by rw [h0] at hdrop; simp at hdrop; omega)

theorem acceptHeader_spec {env : HeapEnv} {ph : Phase} {w w₁ : World} {bs window : List UInt8}
    (hw : window.length = 8) (hh : isTcpPacket3Header window = true) (ht : Took w bs w₁)
    (hbs : bs ≠ [])
    (hrun : (framer env).run (w.next, ph) bs = closeWindow env w.next window) :
    CallSpec env ph w (acceptHeader env ⟨window, 8, .header, none⟩ w₁) := by
  have hbl := List.length_pos_iff.mpr hbs
  have hnext : closeWindow env w.next window = closeWindow env w₁.next window := by rw [ht.next]
  rw [hnext] at hrun
  rw [acceptHeader]
  by_cases hz : (getTcpPacket3HeaderDataSize window).toNat = 0
  · cases hok : env.ok w₁.next with
    | true =>
      have hfin : finishedRecord window [] = partialRecord window [] := by
        have hd : (partialRecord window []).dataSize = 0 := by
          simpa [partialRecord, tcpPacket3HeaderToField] using UInt16.toNat_inj.mp hz
        rw [finishedRecord, fillTcpPacket3DataField, if_pos hd]
        rfl
      rw [CM.bind_ok (allocTcpPacket3Mem_some hw hok)]
      simp only [hz, Nat.cast_zero, gt_iff_lt, lt_irrefl, if_false, CM.pure_apply]
      rw [closeWindow_empty hh hz, hok, hfin] at hrun
      exact ht.returns hrun Tracks.start
    | false =>
      rw [CM.bind_ok (allocTcpPacket3Mem_none hok)]
      simp only [hz, Nat.cast_zero]
      rw [closeWindow_empty hh hz, hok] at hrun
      exact ht.eats_nothing hbl hrun
  · have hpos := Nat.pos_of_ne_zero hz
    cases hok : env.ok w₁.next with
    | true =>
      have hdata : ((getTcpPacket3HeaderDataSize window).toNat : Int) > 0 := Int.natCast_pos.mpr hpos
      rw [CM.bind_ok (allocTcpPacket3Mem_some hw hok)]
      simp only [hdata, if_true, CM.pure_apply]
      exact ht.returns (hrun.trans (closeWindow_data hh hok hz)) (@Tracks.data _ _ [] hw hpos)
    | false =>
      rw [CM.bind_ok (allocTcpPacket3Mem_none hok)]
      exact ht.eats hbl hpos (hrun.trans (closeWindow_skip hh hok hz))

theorem gotHeader_spec {env : HeapEnv} {w w₁ : World} {acc stale bs : List UInt8}
    (hlen : acc.length + stale.length = 8) (hlt : acc.length < 8)
    (hz : acc = [] → stale = List.replicate 8 0) (ht : Took w bs w₁)
    (hb : bs.length ≤ 8 - acc.length) :
    CallSpec env (.header acc) w
      (gotHeader env ⟨acc ++ stale, acc.length, .header, none⟩ bs w₁) := by
  have hfit : acc.length + bs.length ≤ (acc ++ stale).length := by
    rw [List.length_append]
    omega
  rw [gotHeader, CM.bind_ok (store_ok hfit w₁), overwrite_at_length]
  by_cases hshort : acc.length + bs.length < 8
  · have hc : (acc.length : Int) + bs.length < (tcpPacket3HeaderSize : Int) := by
      simp only [tcpPacket3HeaderSize]
      omega
    simp only [hc, if_true, CM.pure_apply]
    refine ht.stays (framer_header_short env w.next hshort) ?_
    have hr : (acc.length : Int) + bs.length = (acc ++ bs).length := by simp
    rw [hr]
    refine Tracks.header ?_ (by rw [List.length_append]; exact hshort) (fun h0 => ?_)
    · rw [List.length_append, List.length_drop]
      omega
    · obtain ⟨ha, hb0⟩ := List.append_eq_nil_iff.mp h0
      simpa [hb0] using hz ha
  · have hfull : acc.length + bs.length = 8 := by omega
    have hc : ¬ (acc.length : Int) + bs.length < (tcpPacket3HeaderSize : Int) := by
      simp only [tcpPacket3HeaderSize]
      omega
    have hst : stale.drop bs.length = [] := List.drop_eq_nil_of_le (by omega)
    have hr : (acc.length : Int) + bs.length = 8 := by omega
    have hwl : (acc ++ bs).length = 8 := by rw [List.length_append, hfull]
    have hrun := framer_header_full env w.next hlt hfull
    simp only [hst, List.append_nil, hr]
    cases hh : isTcpPacket3Header (acc ++ bs) with
    | true =>
      exact acceptHeader_spec hwl hh ht (List.ne_nil_of_length_pos (by omega)) hrun
    | false => exact rejectHeader_spec hwl hh ht hrun

theorem gotData_spec {env : HeapEnv} {w w₁ : World} {addr : Nat} {h acc bs : List UInt8}
    (hh : h.length = 8) (hlt : acc.length < (getTcpPacket3HeaderDataSize h).toNat)
    (ht : Took w bs w₁) (hb : bs.length ≤ (getTcpPacket3HeaderDataSize h).toNat - acc.length) :
    CallSpec env (.data addr h acc) w
      (gotData ⟨List.replicate 8 0, acc.length, .data, some ⟨addr, partialRecord h acc⟩⟩
        ⟨addr, partialRecord h acc⟩ bs w₁) := by
  have hfit : acc.length + bs.length ≤ (partialRecord h acc).data.length := by
    simp only [partialRecord, tcpPacket3HeaderToField, List.length_append, List.length_replicate]
    omega
  have hsize : (partialRecord h acc).dataSize = getTcpPacket3HeaderDataSize h := rfl
  rw [gotData, CM.bind_ok (store_ok hfit w₁), partialRecord_append]
  have hsize' : (partialRecord h (acc ++ bs)).dataSize = getTcpPacket3HeaderDataSize h := rfl
  have hr : (acc.length : Int) + bs.length = (acc ++ bs).length := by simp
  by_cases hshort : acc.length + bs.length < (getTcpPacket3HeaderDataSize h).toNat
  · have hc : (acc.length : Int) + bs.length < (getTcpPacket3HeaderDataSize h).toNat := by omega
    simp only [hsize', hc, if_true, CM.pure_apply]
    refine ht.stays (framer_data_short env w.next hshort) ?_
    rw [hr]
    exact Tracks.data hh (by rw [List.length_append]; exact hshort)
  · have hc : ¬ (acc.length : Int) + bs.length < (getTcpPacket3HeaderDataSize h).toNat := by omega
    simp only [hsize', hc, if_false, CM.pure_apply]
    exact ht.stays (framer_data_full env w.next hlt (by omega)) Tracks.start

theorem recvTcpPacket3_spec (env : HeapEnv) {st : Receiver} {ph : Phase} (h : Tracks st ph)
    (w : World) : CallSpec env ph w (recvTcpPacket3 env st w) := by
  cases h with
  | @header acc stale hlen hlt hz =>
    have hsize : (tcpPacket3HeaderSize : Int) - acc.length = (8 - acc.length : Nat) := by
      simp only [tcpPacket3HeaderSize]
      omega
    simp only [recvTcpPacket3, recvHeader, hsize]
    rcases recv_spec (by omega : 0 < 8 - acc.length) (by omega) w with
      ⟨w', hw', hs, hs', hi⟩ | ⟨r, w', hw', hrl, ht⟩
    · rw [Lockstep.bind_apply, hw']
      exact ⟨hs', Or.inl (by simp [World.supply, hs])⟩
    · rw [CM.bind_ok hw']
      cases r with
      | got bs => exact gotHeader_spec hlen hlt hz ht hrl
      | err code =>
        exact ht.stays rfl (Tracks.header hlen hlt hz)
  | @data addr h acc hh hlt =>
    have hsize : ((partialRecord h acc).dataSize.toNat : Int) - acc.length =
        ((getTcpPacket3HeaderDataSize h).toNat - acc.length : Nat) := by
      have : (partialRecord h acc).dataSize = getTcpPacket3HeaderDataSize h := rfl
      rw [this]
      omega
    have hmax := (getTcpPacket3HeaderDataSize h).toNat_lt
    simp only [recvTcpPacket3, recvData, hsize]
    rcases recv_spec (by omega : 0 < (getTcpPacket3HeaderDataSize h).toNat - acc.length)
        (by omega) w with ⟨w', hw', hs, hs', hi⟩ | ⟨r, w', hw', hrl, ht⟩
    · rw [Lockstep.bind_apply, hw']
      exact ⟨hs', Or.inl (by simp [World.supply, hs])⟩
    · rw [CM.bind_ok hw']
      cases r with
      | got bs => exact gotData_spec hh hlt ht hrl
      | err code =>
        exact ht.stays rfl (Tracks.data hh hlt)

end NucleoW5500
