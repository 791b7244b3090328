import NucleoW5500.Transfer

/-! The memory of a big file. The block of a record has room for what the start packet
announces exactly when its size does not wrap around, and then no fragment is copied
past the announced size. -/

namespace NucleoW5500

open CString

structure BigfileRecv.Room (big : BigfileRecv) : Prop where
  record : sizeofBigfileRecvRec.toNat ≤ big.memSize
  contents : bigfileBufOffset + big.filename.length + 1 + big.size.toNat ≤ big.memSize

/-- The sum behind `mem_size` stays below `2 ^ 32`. -/
def BigfileInfo.Fits (info : BigfileInfo) : Prop :=
  28 + info.filename.length + info.size.toNat < 2 ^ 32

def FitsCall (c : BigfileCall) (_ : BigfileState) (_ : Option Transfer) : Prop :=
  ∀ q info, c.packet = some q → q.type = tcpPacket3TypeBigfileStart →
    parseBigfileInfo (plaintext c.env q c.world.next) (getPacketPlainContentsSize q) = some info →
    info.Fits

theorem BigfileInfo.toNat_memSize (info : BigfileInfo) :
    info.memSize.toNat = (28 + info.filename.length + info.size.toNat) % 2 ^ 32 := by
  have h24 : sizeofBigfileRecvRec.toNat = 24 := rfl
  have h4 : (4 : UInt32).toNat = 4 := rfl
  simp only [BigfileInfo.memSize, UInt32.toNat_add, UInt32.toNat_ofNat', h24, h4]
  omega

/-- A fresh record has room exactly when its size did not wrap around. -/
theorem BigfileInfo.room_iff_fits (info : BigfileInfo) : info.record.Room ↔ info.Fits := by
  have hm := info.toNat_memSize
  constructor
  · rintro ⟨-, hcont⟩
    by_contra hfit
    simp only [BigfileInfo.Fits] at hfit
    simp only [BigfileInfo.record, bigfileBufOffset] at hcont
    omega
  · intro hfit
    simp only [BigfileInfo.Fits] at hfit
    have h24 : sizeofBigfileRecvRec.toNat = 24 := rfl
    refine ⟨?_, ?_⟩
    · simp only [BigfileInfo.record, h24]
      omega
    · simp only [BigfileInfo.record, bigfileBufOffset]
      omega

def Roomy (st : BigfileState) : Prop :=
  ∀ big, st.pBig = some big → big.val.Room ∧
    bigfileBufOffset + big.val.filename.length + 1 + big.val.contents.length = big.val.memSize

theorem Roomy.fresh {st : BigfileState} {addr : Nat} {info : BigfileInfo}
    (hbig : st.pBig = some ⟨addr, info.record⟩) (hfits : info.Fits) : Roomy st := by
  intro big hb
  obtain rfl := Option.some.inj (hbig.symm.trans hb)
  have hroom := info.room_iff_fits.mpr hfits
  have hle := hroom.contents
  refine ⟨hroom, ?_⟩
  simp only [BigfileInfo.record, List.length_replicate] at hle ⊢
  omega

theorem roomy_call {c : BigfileCall} {st st' : BigfileState} {log : Option Transfer} {ret : Int}
    {out : BigfileOut} {w' : World} (h : Roomy st) (hsafe : FitsCall c st log)
    (hcall : c.result st = .ok (ret, out, st') w') : Roomy st' := by
  have hspec := c.spec hcall
  intro big' hbig'
  cases hspec with
  | idle => exact h big' hbig'
  | drop => simp at hbig'
  | @start q info addr w' hp ht hparse hle =>
    exact Roomy.fresh rfl (hsafe q info hp ht hparse) _ hbig'
  | deliver hbig hguard hout =>
    by_cases hall : c.args.all = true
    · rw [if_pos hall] at hbig'
      simp at hbig'
    · rw [if_neg hall] at hbig'
      exact h big' hbig'
  | reject hp ht hbig =>
    rw [firstFragment_pBig] at hbig'
    exact h big' hbig'
  | accept hp ht hbig hcount hnum hcont hle hptr hfit =>
    obtain rfl := Option.some.inj hbig'
    obtain ⟨hroom, hlen⟩ := h _ hbig
    refine ⟨⟨hroom.record, hroom.contents⟩, ?_⟩
    dsimp only
    rw [length_overwrite hfit]
    exact hlen

theorem BigfileRun.roomy {st : BigfileState} {log : Option Transfer}
    (h : BigfileRun FitsCall st log) : Roomy st := by
  induction h with
  | start =>
    intro big hbig
    simp [BigfileState.start] at hbig
  | call _ hsafe hcall ih => exact roomy_call ih hsafe hcall

theorem Receiving.fragment_fits {st : BigfileState} {big : Block BigfileRecv} {t : Transfer}
    (h : Receiving st big t) (hroom : Roomy st) (hbig : st.pBig = some big) {n : Nat}
    (hn : n ≤ (firstFragment st big).remainSize.toNat) :
    t.received.length + n ≤ big.val.size.toNat ∧
      t.received.length + n ≤ big.val.contents.length := by
  have hrem := h.first.2.1
  have hinfo : big.val.size = t.info.size := congrArg BigfileInfo.size h.info
  obtain ⟨⟨-, hcont⟩, hlen⟩ := hroom big hbig
  rw [hinfo] at hcont ⊢
  omega

theorem call_no_record_fault {c : BigfileCall} {st : BigfileState} {log : Option Transfer}
    (htr : Tracked st log) (hroom : Roomy st) (hsafe : FitsCall c st log) {f : Fault} {w' : World}
    (hcall : c.result st = .error (.fault f) w') : f.elsewhere := by
  have hspec := c.spec hcall
  cases hspec with
  | @startFault q info _ hp ht hparse hlt =>
    have hfit := hsafe q info hp ht hparse
    have hm := info.toNat_memSize
    simp only [BigfileInfo.Fits] at hfit
    simp only [bigfileBufOffset] at hlt
    omega
  | fragFault hp ht hbig hcount hle hout =>
    obtain ⟨t, -, hrec⟩ := htr _ hbig
    have hlt := hout _ hrec.first.2.2
    have hfits := hrec.fragment_fits hroom hbig hle
    omega
  | fault hf => exact hf

/-- The memory of big files. In a run of start packets whose sizes do not wrap around,
every record has room, no call stores outside a record, and an accepted fragment ends
inside the announced size. A start packet that is accepted, in any state at all,
leaves a record with room exactly when its size does not wrap around. -/
theorem receiveBigfileFromPacket_bounds {st : BigfileState} {log : Option Transfer}
    (h : BigfileRun FitsCall st log) :
    (∀ big, st.pBig = some big → big.val.Room) ∧
    (∀ c, FitsCall c st log →
      (∀ f w', c.result st = .error (.fault f) w' → f ≠ .recordBounds ∧ f ≠ .freedBlock) ∧
      ∀ q out st' w', c.packet = some q → q.type = tcpPacket3TypeBigfileFrag →
        c.result st = .ok (1, out, st') w' → ∃ big offset, st'.pBig = some big ∧
          st'.pContents = some (big.addr, offset) ∧ offset ≤ big.val.size.toNat) ∧
    ∀ (c : BigfileCall) q st₀ out st' w', c.packet = some q →
      q.type = tcpPacket3TypeBigfileStart → c.result st₀ = .ok (1, out, st') w' →
      ∃ big info, st'.pBig = some big ∧ big.val.toBigfileInfo = info ∧
        parseBigfileInfo (plaintext c.env q c.world.next) (getPacketPlainContentsSize q) =
          some info ∧ (big.val.Room ↔ info.Fits) := by
  refine ⟨fun big hbig => (h.roomy big hbig).1, fun c hsafe => ⟨fun f w' hcall =>
    call_no_record_fault h.tracked h.roomy hsafe hcall, ?_⟩, ?_⟩
  · intro q out st' w' hq htype hcall
    have hspec := c.spec hcall
    cases hspec with
    | start hp ht _ _ =>
      obtain rfl := Option.some.inj (hq.symm.trans hp)
      rw [htype] at ht
      exact absurd ht (by decide)
    | accept hp ht hbig hcount hnum hcont hle hptr hfit =>
      obtain ⟨t, -, hrec⟩ := h.tracked _ hbig
      obtain rfl := congrArg Prod.snd (Option.some.inj (hrec.first.2.2.symm.trans hptr))
      exact ⟨_, _, rfl, rfl, (hrec.fragment_fits h.roomy hbig hle).1⟩
  · intro c q st₀ out st' w' hq htype hcall
    have hspec := c.spec hcall
    cases hspec with
    | @start q' info addr _ hp ht hparse hle =>
      obtain rfl := Option.some.inj (hq.symm.trans hp)
      exact ⟨_, info, rfl, rfl, hparse, info.room_iff_fits⟩
    | accept hp ht _ _ _ _ _ _ _ =>
      obtain rfl := Option.some.inj (hq.symm.trans hp)
      rw [htype] at ht
      exact absurd ht (by decide)

/-- Two bytes announced, and a record for them. -/
theorem receiveBigfileFromPacket_bounds_two :
    ∃ st log, BigfileRun FitsCall st log ∧ st.pBig ≠ none ∧
      ∀ big, st.pBig = some big → big.val.Room := by
  have hstart : FitsCall (.plain 3 [1, 97, 0, 50, 0, 49, 0] (by decide)) .start none := by
    intro q info hp _ hparse
    obtain rfl := Option.some.inj hp
    obtain rfl : (⟨1, [97], 2, 1⟩ : BigfileInfo) = info := Option.some.inj hparse
    unfold BigfileInfo.Fits
    decide
  have hrun := @BigfileRun.call _ _ _ _ _ 1 _ _ .start hstart rfl
  exact ⟨_, _, hrun, by simp, (receiveBigfileFromPacket_bounds hrun).1⟩

/-- A size of `-1` announces `2 ^ 32 - 1` bytes, wraps the size of the block to 28, and a
fragment of six bytes runs over its end. -/
theorem receiveBigfileFromPacket_overrun :
    ∃ big st w₁ w₂,
      (BigfileCall.plain 3 [1, 97, 0, 45, 49, 0, 49, 0] (by decide)).result .start =
        .ok (1, {}, st) w₁ ∧ st.pBig = some big ∧
      big.val.size = 4294967295 ∧ big.val.memSize = 28 ∧
      (BigfileCall.plain 4 [1, 48, 0, 6, 0, 1, 2, 3, 4, 5, 6] (by decide)).result st =
        .error (.fault .recordBounds) w₂ := by
  exact ⟨_, _, _, _, rfl, rfl, by decide, by decide, rfl⟩

end NucleoW5500
