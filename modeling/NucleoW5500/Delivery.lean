import NucleoW5500.Transfer

/-! What a delivered big file is made of. A call that returns 0 hands out the whole
file when an end packet has closed the transfer over fragments that set the counters. -/

namespace NucleoW5500

open CString

/-- An extraction that would succeed comes after an accepted end packet, and no end
packet meets a transfer of bytes without fragments while the counters are at zero. -/
def GuardedCall (c : BigfileCall) (st : BigfileState) (log : Option Transfer) : Prop :=
  ∀ big, st.pBig = some big → big.val.count = big.val.next →
    (c.packet = none → c.args.any = true → ∃ t, log = some t ∧ t.ended = true) ∧
    ∀ q, c.packet = some q → EndMatches c.env c.world big q → st.remainSize = 0 →
      st.remainCount = 0 → big.val.count = 0 → big.val.size = 0

def Settled (st : BigfileState) (log : Option Transfer) : Prop :=
  ∀ big t, st.pBig = some big → log = some t → t.ended = true → t.Complete

theorem Receiving.complete {st : BigfileState} {big : Block BigfileRecv} {t : Transfer}
    (h : Receiving st big t) (hcount : big.val.count = big.val.next)
    (hsize : st.remainSize = 0) (hzero : big.val.count = 0 → big.val.size = 0) : t.Complete := by
  have hnext := h.next
  have hinfo := h.info
  have hlen : t.info.count.toNat = t.frags.length := by rw [← hinfo, hcount, hnext]
  refine ⟨by rw [h.numbers, hlen], ?_⟩
  by_cases hnil : t.frags = []
  · rw [hnil, List.length_nil] at hlen
    have hc : big.val.count = 0 := by
      rw [hinfo]
      exact UInt32.toNat_inj.mp hlen
    have hs : t.info.size = 0 := by rw [← hinfo, hzero hc]
    simp [Transfer.received, hnil, hs]
  · have hrem := h.remainSize hnil
    rw [hsize, UInt32.toNat_zero] at hrem
    omega

theorem Receiving.not_complete {st : BigfileState} {big : Block BigfileRecv} {t : Transfer}
    (h : Receiving st big t) (hcount : (firstFragment st big).remainCount ≠ 0) :
    ¬ t.Complete := by
  intro hcomp
  have hlen := congrArg List.length hcomp.numbers
  rw [List.length_map, List.length_range] at hlen
  have hrc := h.first.1
  exact hcount (UInt32.toNat_inj.mp (by rw [UInt32.toNat_zero]; omega))

theorem delivered_complete {c : BigfileCall} {st : BigfileState} {log : Option Transfer}
    {big : Block BigfileRecv} (htr : Tracked st log) (hset : Settled st log)
    (hsafe : GuardedCall c st log) (hbig : st.pBig = some big)
    (hguard : c.packet = none ∧ c.args.any = true ∨ ∃ q, c.packet = some q ∧
      EndMatches c.env c.world big q ∧ st.remainSize = 0 ∧ st.remainCount = 0)
    (hcount : big.val.count = big.val.next) :
    ∃ t, c.log 0 log = some t ∧ t.ended = true ∧ t.Complete ∧ Receiving st big t := by
  obtain ⟨t, rfl, hrec⟩ := htr big hbig
  rcases hguard with ⟨hp, hany⟩ | ⟨q, hp, hend, hsz, hcnt⟩
  · obtain ⟨t', ht', hended⟩ := (hsafe big hbig hcount).1 hp hany
    obtain rfl := Option.some.inj ht'
    exact ⟨t, by rw [BigfileCall.log, hp], hended, hset big t hbig rfl hended, hrec⟩
  · have hcomp := hrec.complete hcount hsz ((hsafe big hbig hcount).2 q hp hend hsz hcnt)
    exact ⟨_, BigfileCall.log_end hp hend.type t, rfl, ⟨hcomp.numbers, hcomp.size⟩, hrec.ended⟩

theorem settled_call {c : BigfileCall} {st st' : BigfileState} {log : Option Transfer} {ret : Int}
    {out : BigfileOut} {w' : World} (htr : Tracked st log) (hset : Settled st log)
    (hsafe : GuardedCall c st log) (hcall : c.result st = .ok (ret, out, st') w') :
    Settled st' (c.log ret log) := by
  have hspec := c.spec hcall
  intro big' t' hbig' ht' hended
  cases hspec with
  | idle =>
    rw [c.log_error] at ht'
    exact hset big' t' hbig' ht' hended
  | drop => simp at hbig'
  | start hp ht hparse hle =>
    rw [BigfileCall.log_start hp ht hparse] at ht'
    obtain rfl := Option.some.inj ht'
    simp at hended
  | deliver hbig hguard hout =>
    obtain ⟨t, hlog, -, hcomp, -⟩ := delivered_complete htr hset hsafe hbig hguard hout.count
    obtain rfl := Option.some.inj (hlog.symm.trans ht')
    exact hcomp
  | reject hp ht hbig =>
    rw [c.log_error] at ht'
    rw [firstFragment_pBig] at hbig'
    exact hset big' t' hbig' ht' hended
  | accept hp ht hbig hcount hnum hcont hle hptr hfit =>
    obtain ⟨t, rfl, hrec⟩ := htr _ hbig
    rw [BigfileCall.log_frag hp ht] at ht'
    obtain rfl := Option.some.inj ht'
    exact absurd (hset _ t hbig rfl hended) (hrec.not_complete hcount)

theorem BigfileRun.settled {st : BigfileState} {log : Option Transfer}
    (h : BigfileRun GuardedCall st log) : Settled st log := by
  induction h with
  | start =>
    intro big t hbig
    simp [BigfileState.start] at hbig
  | call hrun hsafe hcall ih => exact settled_call hrun.tracked ih hsafe hcall

/-- No incomplete file. In a run of guarded calls, a call that returns 0 hands out a
transfer that was ended, whose fragments are all there and in order, and the bytes of
the file are theirs. -/
theorem receiveBigfileFromPacket_delivers {st : BigfileState} {log : Option Transfer}
    (h : BigfileRun GuardedCall st log) {c : BigfileCall} (hsafe : GuardedCall c st log)
    {out : BigfileOut} {st' : BigfileState} {w' : World}
    (hcall : c.result st = .ok (0, out, st') w') :
    ∃ t, c.log 0 log = some t ∧ t.ended = true ∧ t.Complete ∧
      out.size = (if c.args.size then some t.info.size else none) ∧
      ∀ file, out.file = some file → read file.mem 0 t.info.size.toNat = t.received := by
  have hspec := c.spec hcall
  cases hspec with
  | deliver hbig hguard hout =>
    obtain ⟨t, hlog, hended, hcomp, hrec⟩ :=
      delivered_complete h.tracked h.settled hsafe hbig hguard hout.count
    have hsize : _ = t.info.size := congrArg BigfileInfo.size hrec.info
    refine ⟨t, hlog, hended, hcomp, by rw [hout.size, hsize], fun file hfile => ?_⟩
    obtain ⟨-, hread⟩ := hout.file file hfile
    obtain ⟨rest, hrest⟩ := hrec.stored
    rw [hsize, ← hcomp.size, ← hrest, List.take_left] at hread
    rw [← hcomp.size]
    exact hread

/-- Two bytes in one fragment. -/
theorem receiveBigfileFromPacket_delivers_two :
    ∃ st log out st' w', BigfileRun GuardedCall st log ∧
      GuardedCall (.plain 5 [1, 0] (by decide)) st log ∧
      (BigfileCall.plain 5 [1, 0] (by decide)).result st = .ok (0, out, st') w' ∧
      ∃ t, (BigfileCall.plain 5 [1, 0] (by decide)).log 0 log = some t ∧ t.ended = true ∧
        t.Complete ∧ out.size = some t.info.size ∧
        ∀ file, out.file = some file → read file.mem 0 t.info.size.toNat = t.received := by
  have hstart : GuardedCall (.plain 3 [1, 97, 0, 50, 0, 49, 0] (by decide)) .start none := by
    intro big hbig
    simp [BigfileState.start] at hbig
  have hfrag : ∀ log, GuardedCall (.plain 4 [1, 48, 0, 2, 0, 104, 105] (by decide))
      ⟨some ⟨1, ⟨⟨1, [97], 2, 1⟩, 0, 31, List.replicate 8 0⟩⟩, 0, 0, none⟩ log := by
    intro log big hbig hcount
    obtain rfl := Option.some.inj hbig
    exact absurd hcount (by decide)
  have hlast : ∀ log, GuardedCall (.plain 5 [1, 0] (by decide))
      ⟨some ⟨1, ⟨⟨1, [97], 2, 1⟩, 1, 31, [104, 105] ++ List.replicate 6 0⟩⟩, 0, 0, some (1, 2)⟩
      log := by
    intro log big hbig _
    obtain rfl := Option.some.inj hbig
    exact ⟨fun hp => by simp [BigfileCall.plain] at hp, fun _ _ _ _ _ hz => absurd hz (by decide)⟩
  have hrun₁ := @BigfileRun.call _ _ _ _ _ 1 _ _ .start hstart rfl
  have hrun := @BigfileRun.call _ _ _ _ _ 1 _ _ hrun₁ (hfrag _) rfl
  exact ⟨_, _, _, _, _, hrun, hlast _, rfl, receiveBigfileFromPacket_delivers hrun (hlast _) rfl⟩

/-- Five bytes announced, one fragment of two, and no end packet: `p == NULL` hands
the file out. -/
theorem receiveBigfileFromPacket_short :
    (∃ st₁ st₂ st₃ out w₁ w₂ w₃,
      (BigfileCall.plain 3 [1, 97, 0, 53, 0, 49, 0] (by decide)).result .start =
        .ok (1, {}, st₁) w₁ ∧
      (BigfileCall.plain 4 [1, 48, 0, 2, 0, 104, 105] (by decide)).result st₁ =
        .ok (1, {}, st₂) w₂ ∧
      (BigfileCall.mk .ample {} none ⟨true, true, true⟩).result st₂ = .ok (0, out, st₃) w₃ ∧
      out.size = some 5) ∧
      fragmentContents [1, 48, 0, 2, 0, 104, 105] 7 = [104, 105] := by
  exact ⟨⟨_, _, _, _, _, _, _, rfl, rfl, rfl, rfl⟩, by decide⟩

end NucleoW5500
