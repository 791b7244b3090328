import NucleoW5500.Ownership
import NucleoW5500.RecordBounds

/-! Where the next fragment of a big file goes, and when a fragment is copied there at all.
The record can be freed and begun anew between any two calls, and the pointer is not reset. -/

namespace NucleoW5500

open CString Lockstep Ledger

/-- The pointer of a copy is an offset of at most `size` into the contents of the record,
which end behind the copy, and the record is allocated and has not been freed. -/
structure CopySafe (env : HeapEnv) (pContents : Option (Nat × Nat)) (big : Block BigfileRecv)
    (payload : List UInt8) (w : World) : Prop where
  offset : ∃ offset, pContents = some (big.addr, offset) ∧ offset ≤ big.val.size.toNat ∧
    offset + payload.length ≤ big.val.contents.length
  allocated : big.addr ∈ (heap env).allocated w
  live : big.addr ∉ w.frees

/-- The rest of the program allocates and frees, and leaves the record to the statics. -/
def Spares (env : HeapEnv) (st : BigfileState) (w w' : World) : Prop :=
  ∀ F, (heap env).Holds w (blocks st.pBig + F) → ∃ F', (heap env).Holds w' (blocks st.pBig + F')

/-- The statics, the log and the world after any number of calls, with the rest of the
program between them. The sizes of the records do not wrap around. -/
inductive CursorRun (env : HeapEnv) : BigfileState → Option Transfer → World → Prop
  | start {w : World} {F : Multiset Nat} : (heap env).Holds w F → CursorRun env .start none w
  | rest {st : BigfileState} {log : Option Transfer} {w w' : World} : CursorRun env st log w →
      Spares env st w w' → CursorRun env st log w'
  | call {st st' : BigfileState} {log : Option Transfer} {w w' : World} {p : Option TcpPacket3}
      {args : BigfileArgs} {ret : Int} {out : BigfileOut} : CursorRun env st log w →
      FitsCall ⟨env, w, p, args⟩ st log →
      receiveBigfileFromPacket env st p args w = .ok (ret, out, st') w' →
      CursorRun env st' ((BigfileCall.mk env w p args).log ret log) w'

def keptBlocks (r : Int × BigfileOut × BigfileState) : Multiset Nat := blocks r.2.2.pBig

section Loses

variable {env : HeapEnv}

theorem loses_deliverBigfile {st : BigfileState} {big : Block BigfileRecv} (args : BigfileArgs)
    (hbig : st.pBig = some big) :
    (heap env).Loses {big.addr} (deliverBigfile env st big args) keptBlocks :=
  (spends_deliverBigfile args hbig).loses (L := fun r => r.2.1.bufs)

theorem loses_pure {A : Multiset Nat} {r : Int × BigfileOut × BigfileState}
    (h : A = blocks r.2.2.pBig) :
    (heap env).Loses A (pure r : CM (Int × BigfileOut × BigfileState)) keptBlocks :=
  ((Spends.pure (fun r => keptBlocks r + 0) r).congr (by rw [h]; exact add_zero _)
    fun _ => rfl).loses

theorem loses_bigfileExtract (st : BigfileState) (args : BigfileArgs) :
    (heap env).Loses (blocks st.pBig) (bigfileExtract env st args) keptBlocks := by
  rw [bigfileExtract]
  cases hbig : st.pBig with
  | none => exact loses_pure (by rw [hbig])
  | some big =>
    exact .ite (fun _ => loses_deliverBigfile args hbig) fun _ => loses_pure (by rw [hbig])

/-- A call keeps the record or frees it. The caller has the copies, and some buffers leak. -/
theorem loses_receiveBigfileFromPacket (st : BigfileState) (p : Option TcpPacket3)
    (args : BigfileArgs) :
    (heap env).Loses (blocks st.pBig) (receiveBigfileFromPacket env st p args) keptBlocks := by
  cases p with
  | none => exact loses_bigfileExtract st args
  | some p =>
    refine .ite (fun _ => loses_pure rfl) fun _ => .ite (fun _ => ?_) fun _ =>
      .ite (fun _ => loses_pure rfl) fun _ => ?_
    · exact (spends_bigfileStart st p).loses (L := fun r => r.2.1.bufs)
    cases hbig : st.pBig with
    | none => exact loses_pure (by rw [hbig])
    | some big =>
      refine (((spends_extractPacketContents p).frame {big.addr}).congr (zero_add _)
        fun _ => rfl).bind_loses fun r => ?_
      cases r with
      | none =>
        refine ((spends_free big.addr).congr (zero_add _).symm fun _ => rfl).bind_loses fun _ => ?_
        exact loses_pure rfl
      | some buf =>
        have hbuf : bufs (some buf) + {big.addr} = {big.addr} + {buf.addr} := add_comm _ _
        rw [hbuf]
        refine .ite (fun _ => ?_) fun _ => .ite (fun _ => ?_) fun _ => ?_
        · refine (((@spends_free env buf.addr).frame {big.addr}).congr (add_comm _ _)
            fun _ => zero_add _).bind_loses fun _ => loses_pure (by rw [hbig]; rfl)
        · exact (spends_bigfileEnd buf args hbig).loses (L := fun r => r.2.1.bufs)
        · refine Spends.loses (L := fun r => r.2.1.bufs + if r.1 = 1 then {buf.addr} else 0) ?_
          exact (spends_bigfileFrag buf _ hbig).congr rfl fun r => add_assoc _ _ _

end Loses

section Run

variable {env : HeapEnv} {st : BigfileState} {log : Option Transfer} {w : World}

theorem CursorRun.bigfileRun (h : CursorRun env st log w) : BigfileRun FitsCall st log := by
  induction h with
  | start _ => exact .start
  | rest _ _ ih => exact ih
  | call _ hsafe hcall ih => exact .call ih hsafe hcall

theorem CursorRun.holds (h : CursorRun env st log w) :
    ∃ F, (heap env).Holds w (blocks st.pBig + F) := by
  induction h with
  | @start w F hF => exact ⟨F, by rwa [BigfileState.start, blocks, zero_add]⟩
  | rest _ hspares ih =>
    obtain ⟨F, hF⟩ := ih
    exact hspares F hF
  | @call st st' log w w' p args ret out _ _ hcall ih =>
    obtain ⟨F, hF⟩ := ih
    exact (loses_receiveBigfileFromPacket st p args).holds hcall hF

theorem owned_live {L : Multiset Nat} (h : (heap env).Holds w L) {addr : Nat} (ha : addr ∈ L) :
    addr ∈ (heap env).allocated w ∧ addr ∉ w.frees := by
  obtain ⟨-, -, hdisj⟩ := h.freed_once (heap_nodup env w)
  refine ⟨?_, fun hf => Multiset.disjoint_left.mp hdisj ha hf⟩
  rw [h]
  exact Multiset.mem_add.mpr (Or.inl ha)

theorem Receiving.cursor {big : Block BigfileRecv} {t : Transfer} (h : Receiving st big t)
    (hpos : 0 < big.val.next) :
    st.remainCount.toNat + big.val.next.toNat = big.val.count.toNat ∧
      st.remainSize ≤ big.val.size ∧
      st.pContents = some (big.addr, big.val.size.toNat - st.remainSize.toNat) ∧
      big.val.contents.take (big.val.size.toNat - st.remainSize.toNat) = t.received := by
  have hnext : 0 < t.frags.length := by
    rw [← h.next]
    exact UInt32.lt_iff_toNat_lt.mp hpos
  have hne : t.frags ≠ [] := List.ne_nil_of_length_pos hnext
  have hcount : big.val.count = t.info.count := congrArg BigfileInfo.count h.info
  have hsize : big.val.size = t.info.size := congrArg BigfileInfo.size h.info
  have hrem := h.remainSize hne
  have hdone : big.val.size.toNat - st.remainSize.toNat = t.received.length := by
    rw [hsize]
    omega
  refine ⟨?_, ?_, ?_, ?_⟩
  · rw [h.next, hcount]
    exact h.remainCount hne
  · rw [hsize, UInt32.le_iff_toNat_le]
    omega
  · rw [hdone]
    exact h.pContents hne
  · rw [hdone]
    exact (List.prefix_iff_eq_take.mp h.stored).symm

end Run

section Copies

variable {env : HeapEnv} {copy : CopyInto} {st : BigfileState}

theorem bigfileFragBy_eq {big : Block BigfileRecv} {buf : Buf} {contentsSize : Int} {w : World}
    (h : ∀ payload : List UInt8, payload.length ≤ (firstFragment st big).remainSize.toNat →
      copy (firstFragment st big).pContents big payload w =
        copyFragment (firstFragment st big).pContents big payload w) :
    bigfileFragBy copy st big buf contentsSize w = bigfileFrag st big buf contentsSize w := by
  rw [bigfileFragBy, bigfileFrag, bigfileFragBy]
  by_cases hcount : (firstFragment st big).remainCount = 0
  · rw [if_pos hcount, if_pos hcount]
  rw [if_neg hcount, if_neg hcount]
  cases hp : fragmentPayload buf.mem contentsSize big.val.next (firstFragment st big).remainSize with
  | error f => rfl
  | ok r =>
    cases r with
    | none => rfl
    | some payload =>
      dsimp only
      rw [bind_apply, bind_apply, h payload (fragmentPayload_eq_some hp).2.2]

/-- A call reaches its copy only behind the extraction of a packet, with a record at hand. -/
theorem receiveBigfileFromPacketBy_eq {p : Option TcpPacket3} {args : BigfileArgs} {w : World}
    (h : ∀ (q : TcpPacket3) (buf : Buf) (big : Block BigfileRecv) (payload : List UInt8) (w₁ : World),
      extractPacketContents env q w = .ok (some buf) w₁ → st.pBig = some big →
      payload.length ≤ (firstFragment st big).remainSize.toNat →
      copy (firstFragment st big).pContents big payload w₁ =
        copyFragment (firstFragment st big).pContents big payload w₁) :
    receiveBigfileFromPacketBy copy env st p args w = receiveBigfileFromPacket env st p args w := by
  cases p with
  | none => rfl
  | some q =>
    rw [receiveBigfileFromPacketBy, receiveBigfileFromPacket, receiveBigfileFromPacketBy]
    by_cases hz : q.dataSize = 0
    · rw [if_pos hz, if_pos hz]
    by_cases hstart : q.type = tcpPacket3TypeBigfileStart
    · rw [if_neg hz, if_neg hz, if_pos hstart, if_pos hstart]
    by_cases hother : q.type ≠ tcpPacket3TypeBigfileFrag ∧ q.type ≠ tcpPacket3TypeBigfileEnd
    · rw [if_neg hz, if_neg hz, if_neg hstart, if_neg hstart, if_pos hother, if_pos hother]
    rw [if_neg hz, if_neg hz, if_neg hstart, if_neg hstart, if_neg hother, if_neg hother]
    cases hbig : st.pBig with
    | none => rfl
    | some big =>
      dsimp only
      rw [bind_apply, bind_apply]
      cases hx : extractPacketContents env q w with
      | error e w₁ => rfl
      | ok r w₁ =>
        cases r with
        | none => rfl
        | some buf =>
          dsimp only
          by_cases hid : peek buf.mem 0 ≠ big.val.id
          · rw [if_pos hid, if_pos hid]
          by_cases hend : q.type = tcpPacket3TypeBigfileEnd
          · rw [if_neg hid, if_neg hid, if_pos hend, if_pos hend]
          rw [if_neg hid, if_neg hid, if_neg hend, if_neg hend]
          exact bigfileFragBy_eq fun payload hle => h q buf big payload w₁ hx hbig hle

end Copies

/-- In every run, once a fragment of the current record has been accepted, the counters add
up to what the start packet announced, the pointer is behind the bytes stored and these are
the accepted payloads. A copy that does anything else than `memcpy`, except into the current
record, inside its contents and before it is freed, is never called. -/
theorem receiveBigfileFromPacket_cursor {env : HeapEnv} {st : BigfileState}
    {log : Option Transfer} {w : World} (h : CursorRun env st log w) :
    (∀ big, st.pBig = some big → 0 < big.val.next → ∃ t, log = some t ∧
      st.remainCount.toNat + big.val.next.toNat = big.val.count.toNat ∧
      st.remainSize ≤ big.val.size ∧
      st.pContents = some (big.addr, big.val.size.toNat - st.remainSize.toNat) ∧
      big.val.contents.take (big.val.size.toNat - st.remainSize.toNat) = t.received) ∧
    ∀ (copy : CopyInto) (p : Option TcpPacket3) (args : BigfileArgs),
      (∀ pContents big payload w₁, st.pBig = some big → CopySafe env pContents big payload w₁ →
        copy pContents big payload w₁ = copyFragment pContents big payload w₁) →
      receiveBigfileFromPacketBy copy env st p args w =
        receiveBigfileFromPacket env st p args w := by
  have htracked := h.bigfileRun.tracked
  refine ⟨fun big hbig hpos => ?_, fun copy p args hcopy => ?_⟩
  · obtain ⟨t, hlog, hrec⟩ := htracked big hbig
    exact ⟨t, hlog, hrec.cursor hpos⟩
  · refine receiveBigfileFromPacketBy_eq fun q buf big payload w₁ hx hbig hle => ?_
    obtain ⟨t, -, hrec⟩ := htracked big hbig
    obtain ⟨hsize, hcont⟩ := hrec.fragment_fits h.bigfileRun.roomy hbig hle
    obtain ⟨F, hF⟩ := h.holds
    have hheld := (spends_extractPacketContents q w (some buf) w₁ hx).gain hF
    have hmem : big.addr ∈ bufs (some buf) + (blocks st.pBig + F) := by
      simp [hbig, blocks]
    obtain ⟨hall, hlive⟩ := owned_live hheld hmem
    exact hcopy _ big payload w₁ hbig
      ⟨⟨t.received.length, hrec.first.2.2, by omega, hcont⟩, hall, hlive⟩

def threeByteStart : TcpPacket3 :=
  WirePacket.record ⟨1, 0, tcpPacket3TypeBigfileStart, [1, 97, 0, 51, 0, 50, 0], by decide⟩

def threeByteFrag : TcpPacket3 :=
  WirePacket.record ⟨1, 0, tcpPacket3TypeBigfileFrag, [1, 48, 0, 1, 0, 65], by decide⟩

/-- One byte of three has come in. -/
theorem receiveBigfileFromPacket_cursor_one :
    ∃ st log w big, CursorRun .ample st log w ∧ st.pBig = some big ∧ big.val.next = 1 ∧
      st.pContents = some (big.addr, 1) := by
  have hstart : FitsCall ⟨.ample, {}, some threeByteStart, ⟨true, true, true⟩⟩ .start none := by
    intro q info hp _ hparse
    obtain rfl := Option.some.inj hp
    obtain rfl : (⟨1, [97], 3, 2⟩ : BigfileInfo) = info := Option.some.inj hparse
    unfold BigfileInfo.Fits
    decide
  have hfrag : ∀ w st log,
      FitsCall ⟨.ample, w, some threeByteFrag, ⟨true, true, true⟩⟩ st log := by
    intro w st log q info hp ht
    obtain rfl := Option.some.inj hp
    exact absurd ht (by decide)
  have h₀ : CursorRun .ample .start none {} := .start (F := 0) rfl
  have h₁ := @CursorRun.call _ _ _ _ _ _ _ _ 1 _ h₀ hstart rfl
  have h₂ := @CursorRun.call _ _ _ _ _ _ _ _ 1 _ h₁ (hfrag _ _ _) rfl
  obtain ⟨t, -, -, -, hptr, -⟩ := (receiveBigfileFromPacket_cursor h₂).1 _ rfl (by decide)
  exact ⟨_, _, _, _, h₂, rfl, rfl, hptr⟩

end NucleoW5500
