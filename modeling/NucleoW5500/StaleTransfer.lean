import NucleoW5500.Heaps
import NucleoW5500.Transfer

/-! What a big-file transfer owes to the transfers before it. A start packet replaces the
record but not the counters, and an end packet reads them even if no fragment has set them. -/

namespace NucleoW5500

open CString Lockstep

section FreedApart

def FreedApart (w w' : World) : Prop := ∃ frees, w' = { w with frees }

instance : HeapAlike FreedApart where
  next_eq := by
    rintro w _ ⟨frees, rfl⟩
    rfl
  next := by
    rintro w _ ⟨frees, rfl⟩
    exact ⟨frees, rfl⟩
  frees := by
    rintro w _ addr ⟨frees, rfl⟩
    exact ⟨addr :: frees, rfl⟩

end FreedApart

/-- Both counters are zero, as they are when an end packet is due. -/
def BigfileState.Settled (st : BigfileState) : Prop := st.remainSize = 0 ∧ st.remainCount = 0

/-- Two histories of the same transfer. They differ at most in what the first fragment sets. -/
structure Agree (st st' : BigfileState) : Prop where
  pBig : st.pBig = st'.pBig
  settled : st.Settled ↔ st'.Settled
  later : ∀ big, st.pBig = some big → big.val.next ≠ 0 → st = st'

structure SameCall (r r' : Int × BigfileOut × BigfileState) : Prop where
  ret : r.1 = r'.1
  out : r.2.1 = r'.2.1
  agree : Agree r.2.2 r'.2.2

/-- Both calls return the same, or both stop at the same fault. -/
abbrev SameResult (R : Int × BigfileOut × BigfileState → Int × BigfileOut × BigfileState → Prop) :
    EStateM.Result Halt World (Int × BigfileOut × BigfileState) →
      EStateM.Result Halt World (Int × BigfileOut × BigfileState) → Prop :=
  Alike (fun _ _ => True) R

theorem Agree.refl (st : BigfileState) : Agree st st := ⟨rfl, Iff.rfl, fun _ _ _ => rfl⟩

theorem sameResult_refl (r : EStateM.Result Halt World (Int × BigfileOut × BigfileState)) :
    SameResult SameCall r r := by
  cases r with
  | ok => exact .ok ⟨rfl, rfl, .refl _⟩ trivial
  | error => exact .error trivial

theorem Agree.replace {st st' : BigfileState} (h : st.Settled ↔ st'.Settled)
    {pBig : Option (Block BigfileRecv)} (hnext : ∀ big, pBig = some big → big.val.next = 0) :
    Agree { st with pBig } { st' with pBig } where
  pBig := rfl
  settled := h
  later big hbig hne := absurd (hnext big hbig) hne

theorem allocBigfileInfoFromPacket_next {env : HeapEnv} {q : TcpPacket3} {w w' : World}
    {r : Option (Block BigfileRecv)} (h : allocBigfileInfoFromPacket env q w = .ok r w') :
    ∀ big, r = some big → big.val.next = 0 := by
  have hspec := allocBigfileInfoFromPacket_spec env q w
  rw [h] at hspec
  rintro big rfl
  cases hspec with
  | parsed _ _ => rfl

/-- What a start packet makes of two histories: the same record, in front of what each had. -/
structure Restarted (st st' : BigfileState) (r r' : Int × BigfileOut × BigfileState) : Prop where
  ret : r.1 = r'.1
  out : r.2.1 = r'.2.1
  record : ∃ pBig : Option (Block BigfileRecv), (∀ big, pBig = some big → big.val.next = 0) ∧
    r.2.2 = { st with pBig } ∧ r'.2.2 = { st' with pBig }

theorem bigfileStart_restarts (env : HeapEnv) (st st' : BigfileState) (q : TcpPacket3) (w : World) :
    SameResult (Restarted st st') (bigfileStart env st q w) (bigfileStart env st' q w) := by
  have hfreed : ∀ pBig : Option (Block BigfileRecv), ∃ frees,
      freeBigfile pBig w = .ok () { w with frees } := by
    intro pBig
    cases pBig with
    | none => exact ⟨w.frees, rfl⟩
    | some big => exact ⟨big.addr :: w.frees, rfl⟩
  obtain ⟨frees, hfree⟩ := hfreed st.pBig
  obtain ⟨frees', hfree'⟩ := hfreed st'.pBig
  have halike := holds_allocBigfileInfoFromPacket (Q := .same FreedApart) env q { w with frees }
    { w with frees := frees' }
    ⟨frees', rfl⟩
  rw [bigfileStart, bigfileStart, CM.bind_ok hfree, CM.bind_ok hfree']
  cases hx : allocBigfileInfoFromPacket env q { w with frees } with
  | error e w₁ =>
    rw [hx] at halike
    generalize hy : allocBigfileInfoFromPacket env q { w with frees := frees' } = r' at halike
    cases halike with
    | error _ =>
      rw [CM.bind_error hx, CM.bind_error hy]
      exact .error trivial
  | ok r w₁ =>
    rw [hx] at halike
    generalize hy : allocBigfileInfoFromPacket env q { w with frees := frees' } = r' at halike
    cases halike with
    | ok hr _ =>
      subst hr
      rw [CM.bind_ok hx, CM.bind_ok hy]
      have hnext := allocBigfileInfoFromPacket_next hx
      cases r with
      | none => exact .ok ⟨rfl, rfl, none, hnext, rfl, rfl⟩ trivial
      | some big => exact .ok ⟨rfl, rfl, some big, hnext, rfl, rfl⟩ trivial

theorem Restarted.sameCall {st st' : BigfileState} {r r' : Int × BigfileOut × BigfileState}
    (h : Restarted st st' r r') (hs : st.Settled ↔ st'.Settled) : SameCall r r' := by
  obtain ⟨pBig, hnext, hr, hr'⟩ := h.record
  refine ⟨h.ret, h.out, ?_⟩
  rw [hr, hr']
  exact .replace hs hnext

theorem firstFragment_forgets {st st' : BigfileState} (h : Agree st st') {big : Block BigfileRecv}
    (hbig : st.pBig = some big) : firstFragment st big = firstFragment st' big := by
  by_cases hnext : big.val.next = 0
  · rw [firstFragment, firstFragment, if_pos hnext, if_pos hnext, ← h.pBig]
  · rw [h.later big hbig hnext]

theorem bigfileFrag_sameCall {st st' : BigfileState} (h : Agree st st') {big : Block BigfileRecv}
    (hbig : st.pBig = some big) (buf : Buf) (contentsSize : Int) (w : World) :
    SameResult SameCall (bigfileFrag st big buf contentsSize w)
      (bigfileFrag st' big buf contentsSize w) := by
  have heq : bigfileFrag st big buf contentsSize = bigfileFrag st' big buf contentsSize := by
    rw [bigfileFrag, bigfileFrag, bigfileFragBy, bigfileFragBy, firstFragment_forgets h hbig]
  rw [heq]
  exact sameResult_refl _

theorem Agree.dropped {st st' : BigfileState} (h : Agree st st') :
    Agree { st with pBig := none } { st' with pBig := none } :=
  .replace h.settled fun _ hbig => nomatch hbig

theorem deliverBigfile_sameCall {st st' : BigfileState} (h : Agree st st') (env : HeapEnv)
    (big : Block BigfileRecv) (args : BigfileArgs) (w : World) :
    SameResult SameCall (deliverBigfile env st big args w) (deliverBigfile env st' big args w) := by
  rw [deliverBigfile, deliverBigfile]
  cases hx : extractBigfile env big.val args w with
  | error e w₁ =>
    rw [CM.bind_error hx, CM.bind_error hx]
    exact .error trivial
  | ok r w₁ =>
    rw [CM.bind_ok hx, CM.bind_ok hx]
    obtain ⟨ret, out⟩ := r
    dsimp only
    by_cases hret : ret < 0
    · rw [if_pos hret, if_pos hret]
      exact .ok ⟨rfl, rfl, h⟩ trivial
    rw [if_neg hret, if_neg hret]
    by_cases hall : args.all = true
    · rw [if_pos hall, if_pos hall]
      exact .ok ⟨rfl, rfl, h.dropped⟩ trivial
    · rw [if_neg hall, if_neg hall]
      exact .ok ⟨rfl, rfl, h⟩ trivial

theorem bigfileEnd_sameCall {st st' : BigfileState} (h : Agree st st') (env : HeapEnv)
    (big : Block BigfileRecv) (buf : Buf) (args : BigfileArgs) (w : World) :
    SameResult SameCall (bigfileEnd env st big buf args w) (bigfileEnd env st' big buf args w) := by
  by_cases hs : st.Settled ∧ peek buf.mem 1 = tcpPacket3BigfileChecksumTypeNone
  · have hs' := And.imp_left h.settled.mp hs
    rw [bigfileEnd_complete (and_assoc.mp hs), bigfileEnd_complete (and_assoc.mp hs')]
    exact deliverBigfile_sameCall h env big args _
  · have hs' := mt (And.imp_left h.settled.mpr) hs
    rw [bigfileEnd_pending (mt and_assoc.mpr hs), bigfileEnd_pending (mt and_assoc.mpr hs')]
    exact .ok ⟨rfl, rfl, h.dropped⟩ trivial

theorem receiveBigfileFromPacket_sameCall {st st' : BigfileState} (h : Agree st st')
    (env : HeapEnv) (q : TcpPacket3) (args : BigfileArgs) (w : World) :
    SameResult SameCall (receiveBigfileFromPacket env st (some q) args w)
      (receiveBigfileFromPacket env st' (some q) args w) := by
  rw [receiveBigfileFromPacket, receiveBigfileFromPacket, receiveBigfileFromPacketBy,
    receiveBigfileFromPacketBy]
  by_cases hz : q.dataSize = 0
  · rw [if_pos hz, if_pos hz]
    exact .ok ⟨rfl, rfl, h⟩ trivial
  rw [if_neg hz, if_neg hz]
  by_cases hstart : q.type = tcpPacket3TypeBigfileStart
  · rw [if_pos hstart, if_pos hstart]
    exact (bigfileStart_restarts env st st' q w).mono fun _ _ hr => hr.sameCall h.settled
  rw [if_neg hstart, if_neg hstart]
  by_cases hother : q.type ≠ tcpPacket3TypeBigfileFrag ∧ q.type ≠ tcpPacket3TypeBigfileEnd
  · rw [if_pos hother, if_pos hother]
    exact .ok ⟨rfl, rfl, h⟩ trivial
  rw [if_neg hother, if_neg hother, ← h.pBig]
  cases hbig : st.pBig with
  | none => exact .ok ⟨rfl, rfl, h⟩ trivial
  | some big =>
    dsimp only
    cases hx : extractPacketContents env q w with
    | error e w₁ =>
      rw [CM.bind_error hx, CM.bind_error hx]
      exact .error trivial
    | ok r w₁ =>
      rw [CM.bind_ok hx, CM.bind_ok hx]
      cases r with
      | none => exact .ok ⟨rfl, rfl, h.dropped⟩ trivial
      | some buf =>
        dsimp only
        by_cases hid : peek buf.mem 0 ≠ big.val.id
        · rw [if_pos hid, if_pos hid]
          exact .ok ⟨rfl, rfl, h⟩ trivial
        rw [if_neg hid, if_neg hid]
        by_cases hend : q.type = tcpPacket3TypeBigfileEnd
        · rw [if_pos hend, if_pos hend]
          exact bigfileEnd_sameCall h env big buf args w₁
        · rw [if_neg hend, if_neg hend]
          exact bigfileFrag_sameCall h hbig buf _ w₁

/-- What the caller sees of each call, up to the first that does not return. -/
def bigfileOutcomes : BigfileState → List BigfileCall → List (Except Halt (Int × BigfileOut))
  | _, [] => []
  | st, c :: cs =>
    match c.result st with
    | .ok (ret, out, st') _ => .ok (ret, out) :: bigfileOutcomes st' cs
    | .error e _ => [.error e]

structure BigfileCall.Starts (c : BigfileCall) (q : TcpPacket3) : Prop where
  packet : c.packet = some q
  type : q.type = tcpPacket3TypeBigfileStart

theorem bigfileOutcomes_cons {st st' : BigfileState} {c : BigfileCall} {cs : List BigfileCall}
    (h : SameResult SameCall (c.result st) (c.result st'))
    (hcs : ∀ st₁ st₁', Agree st₁ st₁' → bigfileOutcomes st₁ cs = bigfileOutcomes st₁' cs) :
    bigfileOutcomes st (c :: cs) = bigfileOutcomes st' (c :: cs) := by
  rw [bigfileOutcomes, bigfileOutcomes]
  generalize c.result st = r at h
  generalize c.result st' = r' at h
  cases h with
  | error _ => rfl
  | @ok a b _ _ hab _ =>
    obtain ⟨ret, out, st₁⟩ := a
    obtain ⟨ret', out', st₁'⟩ := b
    obtain ⟨hret, hout, hagree⟩ := hab
    dsimp only at hret hout hagree ⊢
    rw [hret, hout, hcs st₁ st₁' hagree]

theorem bigfileOutcomes_agree {st st' : BigfileState} (h : Agree st st') {cs : List BigfileCall}
    (hcs : ∀ c ∈ cs, c.packet ≠ none) : bigfileOutcomes st cs = bigfileOutcomes st' cs := by
  induction cs generalizing st st' with
  | nil => rfl
  | cons c cs ih =>
    obtain ⟨q, hq⟩ := Option.ne_none_iff_exists'.mp (hcs c List.mem_cons_self)
    refine bigfileOutcomes_cons ?_ fun st₁ st₁' h₁ => ih h₁ fun d hd => hcs d (List.mem_cons_of_mem c hd)
    rw [BigfileCall.result, BigfileCall.result, hq]
    exact receiveBigfileFromPacket_sameCall h c.env q c.args c.world

theorem bigfileOutcomes_settled {st st' : BigfileState} (h : st.Settled ↔ st'.Settled)
    {c : BigfileCall} {q : TcpPacket3} {cs : List BigfileCall} (hc : c.Starts q)
    (hq : q.dataSize ≠ 0) (hcs : ∀ d ∈ cs, d.packet ≠ none) :
    bigfileOutcomes st (c :: cs) = bigfileOutcomes st' (c :: cs) := by
  refine bigfileOutcomes_cons ?_ fun st₁ st₁' h₁ => bigfileOutcomes_agree h₁ hcs
  rw [BigfileCall.result, BigfileCall.result, hc.packet, receiveBigfileFromPacket,
    receiveBigfileFromPacketBy, receiveBigfileFromPacket, receiveBigfileFromPacketBy, if_neg hq,
    if_neg hq, if_pos hc.type, if_pos hc.type]
  exact (bigfileStart_restarts c.env st st' q c.world).mono fun _ _ hr => hr.sameCall h

theorem bigfileOutcomes_empty {c : BigfileCall} {q : TcpPacket3} (hc : c.packet = some q)
    (hq : q.dataSize = 0) (st : BigfileState) (cs : List BigfileCall) :
    bigfileOutcomes st (c :: cs) = .ok (-1, {}) :: bigfileOutcomes st cs := by
  have hresult : c.result st = .ok (-1, {}, st) c.world := by
    rw [BigfileCall.result, hc, receiveBigfileFromPacket, receiveBigfileFromPacketBy, if_pos hq]
    rfl
  rw [bigfileOutcomes, hresult]

/-- A file of no bytes, in no fragments. -/
def emptyFileStart : BigfileCall :=
  .plain tcpPacket3TypeBigfileStart [7, 102, 0, 48, 0, 48, 0] (by decide)

def emptyFileEnd : BigfileCall := .plain tcpPacket3TypeBigfileEnd [7, 0] (by decide)

theorem emptyFile_apart :
    bigfileOutcomes .start [emptyFileStart, emptyFileEnd] ≠
      bigfileOutcomes ⟨none, 1, 1, none⟩ [emptyFileStart, emptyFileEnd] := by
  decide +kernel

/-- After a start packet with contents, results are the same whatever came before it exactly
when the counters it finds are zero in both histories or in neither. A start packet
without contents is turned away and starts nothing. -/
theorem bigfileOutcomes_history (st st' : BigfileState) :
    ((∀ c q cs, BigfileCall.Starts c q → q.dataSize ≠ 0 →
        (∀ d ∈ cs, BigfileCall.packet d ≠ none) →
          bigfileOutcomes st (c :: cs) = bigfileOutcomes st' (c :: cs)) ↔
      (st.Settled ↔ st'.Settled)) ∧
    ∀ c q cs, BigfileCall.Starts c q → q.dataSize = 0 →
      (bigfileOutcomes st (c :: cs) = bigfileOutcomes st' (c :: cs) ↔
        bigfileOutcomes st cs = bigfileOutcomes st' cs) := by
  refine ⟨⟨fun h => ?_, fun h c q cs hc hq hcs => bigfileOutcomes_settled h hc hq hcs⟩,
    fun c q cs hc hq => ?_⟩
  · have hstart : emptyFileStart.Starts
        (WirePacket.record ⟨1, 0, tcpPacket3TypeBigfileStart, [7, 102, 0, 48, 0, 48, 0], by decide⟩) :=
      ⟨rfl, rfl⟩
    have hend : ∀ d ∈ [emptyFileEnd], d.packet ≠ none := by
      intro d hd
      rw [List.mem_singleton.mp hd]
      exact Option.some_ne_none _
    have hsame := h emptyFileStart _ [emptyFileEnd] hstart (by decide) hend
    have hzero : BigfileState.start.Settled := ⟨rfl, rfl⟩
    have hstale : ¬ BigfileState.Settled ⟨none, 1, 1, none⟩ := by
      rintro ⟨hsize, -⟩
      exact absurd hsize (by decide)
    have hclean : ∀ st : BigfileState, st.Settled →
        bigfileOutcomes st [emptyFileStart, emptyFileEnd] =
          bigfileOutcomes .start [emptyFileStart, emptyFileEnd] := fun st hs =>
      bigfileOutcomes_settled (iff_of_true hs hzero) hstart (by decide) hend
    have hdirty : ∀ st : BigfileState, ¬ st.Settled →
        bigfileOutcomes st [emptyFileStart, emptyFileEnd] =
          bigfileOutcomes ⟨none, 1, 1, none⟩ [emptyFileStart, emptyFileEnd] := fun st hs =>
      bigfileOutcomes_settled (iff_of_false hs hstale) hstart (by decide) hend
    by_contra hne
    rcases not_iff.mp hne with hflip
    by_cases hs : st.Settled
    · have hs' : ¬ st'.Settled := fun hs' => hflip.mpr hs' hs
      exact emptyFile_apart ((hclean st hs).symm.trans (hsame.trans (hdirty st' hs')))
    · exact emptyFile_apart ((hclean st' (hflip.mp hs)).symm.trans (hsame.symm.trans (hdirty st hs)))
  · rw [bigfileOutcomes_empty hc.packet hq, bigfileOutcomes_empty hc.packet hq, List.cons.injEq]
    exact and_iff_right rfl

/-- A file of two bytes, of which the first arrives. -/
def abortedStart : BigfileCall :=
  .plain tcpPacket3TypeBigfileStart [7, 102, 0, 50, 0, 50, 0] (by decide)

theorem abortedFrag_fits : ([7, 48, 0, 1, 0, 65] : List UInt8).length < 65536 := by decide

def abortedFrag : BigfileCall :=
  .plain tcpPacket3TypeBigfileFrag [7, 48, 0, 1, 0, 65] abortedFrag_fits

/-- The empty file is delivered at power-up, and refused after the aborted transfer. -/
theorem bigfileOutcomes_stale :
    ∃ st log, BigfileRun (fun _ _ _ => True) st log ∧
      BigfileRun (fun _ _ _ => True) .start none ∧
      (bigfileOutcomes .start [emptyFileStart, emptyFileEnd]).map (Except.map Prod.fst) =
        [.ok 1, .ok 0] ∧
      (bigfileOutcomes st [emptyFileStart, emptyFileEnd]).map (Except.map Prod.fst) =
        [.ok 1, .ok (-1)] := by
  have hstart : ∃ st₁ w₁, abortedStart.result .start = .ok (1, {}, st₁) w₁ ∧
      ∃ st₂ w₂, abortedFrag.result st₁ = .ok (1, {}, st₂) w₂ ∧
        (bigfileOutcomes st₂ [emptyFileStart, emptyFileEnd]).map (Except.map Prod.fst) =
          [.ok 1, .ok (-1)] := by
    refine ⟨_, _, rfl, _, _, rfl, by decide +kernel⟩
  obtain ⟨st₁, w₁, hstart, st₂, w₂, hfrag, hout⟩ := hstart
  refine ⟨st₂, _, .call (.call .start trivial hstart) trivial hfrag, .start, by decide +kernel, hout⟩

end NucleoW5500
