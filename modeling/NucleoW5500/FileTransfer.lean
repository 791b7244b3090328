import NucleoW5500.RecordBounds
import NucleoW5500.RoundTrip
import NucleoW5500.StartParsing

/-! A big file sent as a start packet, its fragments in order and an end packet is
received whole, whatever irrelevant packets come between them. -/

namespace NucleoW5500

open CString

def bigfileStartContents (id : UInt8) (name : List UInt8) (size count : Nat) : List UInt8 :=
  id :: (name ++ 0 :: (decimal size ++ 0 :: (decimal count ++ [0])))

def bigfileFragContents (id : UInt8) (number : Nat) (payload : List UInt8) : List UInt8 :=
  id :: (decimal number ++ 0 :: (encode16 (UInt16.ofNat payload.length) ++ payload))

def bigfileEndContents (id : UInt8) : List UInt8 := [id, tcpPacket3BigfileChecksumTypeNone]

/-- A record that `create_tcp_packet3` returns for these contents. -/
def Created (type : UInt8) (contents : List UInt8) (p : TcpPacket3) : Prop :=
  ∃ env flag addr w w', (∀ n, env.ok n = true) ∧
    createTcpPacket3 env flag type.toUInt32 (some contents) contents.length w =
      .ok (some ⟨addr, p⟩) w'

/-- A call with such a record, during which no allocation fails. -/
structure BigfileCall.Feeds (c : BigfileCall) (type : UInt8) (contents : List UInt8) : Prop where
  ample : ∀ n, c.env.ok n = true
  packet : ∃ p, c.packet = some p ∧ Created type contents p

/-- A call that has nothing to do with the transfer `id` while `next` is awaited. -/
inductive Irrelevant (id : UInt8) (next : Nat) (c : BigfileCall) : Prop
  | other {p : TcpPacket3} : c.packet = some p → p.type ≠ tcpPacket3TypeBigfileStart →
      p.type ≠ tcpPacket3TypeBigfileFrag → p.type ≠ tcpPacket3TypeBigfileEnd → Irrelevant id next c
  | foreign {type other : UInt8} {rest : List UInt8} : other ≠ id →
      type = tcpPacket3TypeBigfileFrag ∨ type = tcpPacket3TypeBigfileEnd →
      c.Feeds type (other :: rest) → Irrelevant id next c
  | misnumbered {number : Nat} {payload : List UInt8} : number ≠ next → number < 2 ^ 31 →
      c.Feeds tcpPacket3TypeBigfileFrag (bigfileFragContents id number payload) →
      Irrelevant id next c

/-- The payloads from number `next` on, in order, with irrelevant packets among them,
and what each call is to return. -/
inductive Fragments (id : UInt8) :
    Nat → List (List UInt8) → List BigfileCall → List (Int × BigfileOut) → Prop
  | done {next : Nat} : Fragments id next [] [] []
  | fragment {next : Nat} {payload : List UInt8} {payloads : List (List UInt8)} {c : BigfileCall}
      {cs : List BigfileCall} {rets : List (Int × BigfileOut)} :
      c.Feeds tcpPacket3TypeBigfileFrag (bigfileFragContents id next payload) →
      Fragments id (next + 1) payloads cs rets →
      Fragments id next (payload :: payloads) (c :: cs) ((1, {}) :: rets)
  | irrelevant {next : Nat} {payloads : List (List UInt8)} {c : BigfileCall}
      {cs : List BigfileCall} {rets : List (Int × BigfileOut)} :
      Irrelevant id next c → Fragments id next payloads cs rets →
      Fragments id next payloads (c :: cs) ((-1, {}) :: rets)

/-- The calls one after the other, up to the first that does not return. -/
def receiveBigfiles (st : BigfileState) :
    List BigfileCall → Except Halt (List (Int × BigfileOut) × BigfileState)
  | [] => .ok ([], st)
  | c :: cs =>
    match c.result st with
    | .error h _ => .error h
    | .ok (ret, out, st) _ =>
      match receiveBigfiles st cs with
      | .error h => .error h
      | .ok (rets, st) => .ok ((ret, out) :: rets, st)

theorem receiveBigfiles_cons {st st₁ : BigfileState} {c : BigfileCall} {cs : List BigfileCall}
    {ret : Int} {out : BigfileOut} {w' : World} (h : c.result st = .ok (ret, out, st₁) w')
    {rets : List (Int × BigfileOut)} {st' : BigfileState}
    (hs : receiveBigfiles st₁ cs = .ok (rets, st')) :
    receiveBigfiles st (c :: cs) = .ok ((ret, out) :: rets, st') := by
  rw [receiveBigfiles, h]
  dsimp only
  rw [hs]

theorem receiveBigfiles_append {st st₁ st' : BigfileState} {cs cs' : List BigfileCall}
    {rets rets' : List (Int × BigfileOut)} (h : receiveBigfiles st cs = .ok (rets, st₁))
    (h' : receiveBigfiles st₁ cs' = .ok (rets', st')) :
    receiveBigfiles st (cs ++ cs') = .ok (rets ++ rets', st') := by
  induction cs generalizing st rets with
  | nil =>
    simp only [receiveBigfiles, Except.ok.injEq, Prod.mk.injEq] at h
    obtain ⟨rfl, rfl⟩ := h
    exact h'
  | cons c cs ih =>
    rw [receiveBigfiles] at h
    cases hc : c.result st with
    | error e w => simp [hc] at h
    | ok r w =>
      obtain ⟨ret, out, st₂⟩ := r
      cases hcs : receiveBigfiles st₂ cs with
      | error e => simp [hc, hcs] at h
      | ok r =>
        obtain ⟨rets₂, st₃⟩ := r
        simp only [hc, hcs, Except.ok.injEq, Prod.mk.injEq] at h
        obtain ⟨rfl, rfl⟩ := h
        exact receiveBigfiles_cons hc (ih hcs)

section Created

variable {type : UInt8} {contents : List UInt8} {p : TcpPacket3}

theorem Created.packet (h : Created type contents p) (hne : contents ≠ []) :
    ∃ flag c, c.bytes = contents ∧ p = (createdPacket flag type.toUInt32 c).record := by
  obtain ⟨env, flag, addr, w, w', hok, h⟩ := h
  have hfits : contents.length ≤ 50000 := by
    by_contra hlong
    have hmax : (contents.length : Int) > tcpPacket3MaxContentsSize := by
      rw [tcpPacket3MaxContentsSize]
      omega
    rw [createTcpPacket3, if_pos hmax] at h
    simp at h
  obtain ⟨addr', w₁, hc, -⟩ := @createTcpPacket3_created flag type.toUInt32
    ⟨contents, hne, hfits⟩ env w [] (hok _) (hok _)
  rw [List.append_nil, h] at hc
  simp only [EStateM.Result.ok.injEq, Option.some.injEq, Block.mk.injEq] at hc
  exact ⟨flag, ⟨contents, hne, hfits⟩, rfl, hc.1.2⟩

theorem Created.type_eq (h : Created type contents p) (hne : contents ≠ []) : p.type = type := by
  obtain ⟨flag, c, -, rfl⟩ := h.packet hne
  rw [(createdPacket flag type.toUInt32 c).received_record.type]
  have hlt := type.toNat_lt
  have hmask : type.toUInt32 &&& tcpPacket3FieldMask = type.toUInt32 := by
    apply UInt32.toNat_inj.mp
    rw [UInt32.toNat_and, UInt8.toNat_toUInt32]
    exact Nat.and_two_pow_sub_one_of_lt_two_pow hlt
  change (type.toUInt32 &&& tcpPacket3FieldMask).toUInt8 = type
  rw [hmask]
  simp

theorem Created.dataSize_ne (h : Created type contents p) (hne : contents ≠ []) :
    p.dataSize ≠ 0 := by
  obtain ⟨flag, c, -, rfl⟩ := h.packet hne
  exact createdPacket_dataSize_ne flag type.toUInt32 c

theorem Created.plainSize (h : Created type contents p) (hne : contents ≠ []) :
    getPacketPlainContentsSize p = contents.length := by
  obtain ⟨flag, c, rfl, rfl⟩ := h.packet hne
  exact createdPacket_plainSize flag type.toUInt32 c

theorem Created.length_le (h : Created type contents p) (hne : contents ≠ []) :
    contents.length ≤ 50000 := by
  obtain ⟨_, c, rfl, -⟩ := h.packet hne
  exact c.fits

theorem Created.extracts (h : Created type contents p) (hne : contents ≠ []) {env : HeapEnv}
    {w : World} (hok : env.ok w.next = true) :
    ∃ buf tail, extractPacketContents env p w = .ok (some buf) { w with next := w.next + 1 } ∧
      buf.mem = contents ++ tail := by
  obtain ⟨flag, c, rfl, rfl⟩ := h.packet hne
  exact ⟨_, _, extractPacketContents_created flag type.toUInt32 c hok, rfl⟩

end Created

theorem sizeT_eq {m : Int} {n : Nat} (h : m = n) (hn : n < 2 ^ 32) : sizeT m = n := by
  rw [sizeT, h, UInt32.ofInt, UInt32.toNat_ofNat']
  omega

theorem ofInt_ofNat (n : Nat) : UInt32.ofInt n = UInt32.ofNat n := by
  apply UInt32.toNat_inj.mp
  rw [UInt32.ofInt, UInt32.toNat_ofNat', UInt32.toNat_ofNat']
  omega

theorem fieldValue_decimal {n : Nat} (hn : n < 2 ^ 31) :
    fieldValue (decimal n) = UInt32.ofNat n := by
  have ha := @atoi_decimal [] [] 0 n hn rfl
  rw [atoi_append] at ha
  rw [fieldValue, ha, ofInt_ofNat]

theorem parseBigfileInfo_start {id : UInt8} {name tail : List UInt8} {size count : Nat}
    (hname : (0 : UInt8) ∉ name) (hsize : size < 2 ^ 31) (hcount : count < 2 ^ 31)
    (hfits : (bigfileStartContents id name size count).length < 2 ^ 32) :
    parseBigfileInfo (bigfileStartContents id name size count ++ tail)
        (bigfileStartContents id name size count).length =
      some ⟨id, name, UInt32.ofNat size, UInt32.ofNat count⟩ := by
  have hlen : (bigfileStartContents id name size count).length =
      name.length + (decimal size).length + (decimal count).length + 4 := by
    simp [bigfileStartContents]
    omega
  have hs₁ : sizeT (((bigfileStartContents id name size count).length : Int) - 1) =
      name.length + (decimal size).length + (decimal count).length + 3 :=
    sizeT_eq (by omega) (by omega)
  have hs₂ : sizeT (((bigfileStartContents id name size count).length : Int) - 1 - name.length) =
      (decimal size).length + (decimal count).length + 3 :=
    sizeT_eq (by omega) (by omega)
  have hfields := @parseBigfileInfo_fields id name (decimal size) (decimal count) tail
    (bigfileStartContents id name size count).length hname (zero_notMem_decimal _)
    (zero_notMem_decimal _) (by omega) (by omega) (by omega)
  rw [fieldValue_decimal hsize, fieldValue_decimal hcount] at hfields
  rw [← hfields]
  simp [bigfileStartContents]

theorem fragmentNumber_frag {id : UInt8} {number : Nat} {payload tail : List UInt8}
    (hnumber : number < 2 ^ 31) :
    fragmentNumber (bigfileFragContents id number payload ++ tail) = UInt32.ofNat number := by
  have ha : atoi (bigfileFragContents id number payload ++ tail) 1 = number := by
    rw [bigfileFragContents, List.cons_append, List.append_assoc, List.cons_append]
    exact @atoi_decimal [id] _ 0 _ hnumber rfl
  rw [fragmentNumber, ha, ofInt_ofNat]

theorem fragmentPayload_number {mem : List UInt8} {contentsSize : Int} {next remainSize : UInt32}
    (h : fragmentNumber mem ≠ next) :
    fragmentPayload mem contentsSize next remainSize = .ok none := by
  rw [fragmentNumber] at h
  simp only [fragmentPayload, ne_eq, h, not_false_iff, if_true]

theorem fragmentPayload_frag {id : UInt8} {number : Nat} {payload tail : List UInt8}
    {remainSize : UInt32} (hnumber : number < 2 ^ 31)
    (hfits : (bigfileFragContents id number payload).length < 2 ^ 16)
    (hremain : payload.length ≤ remainSize.toNat) :
    fragmentPayload (bigfileFragContents id number payload ++ tail)
        (bigfileFragContents id number payload).length (UInt32.ofNat number) remainSize =
      .ok (some payload) := by
  have hnum := @fragmentNumber_frag id number payload tail hnumber
  have h₁ : bigfileFragContents id number payload ++ tail = [id] ++ (decimal number ++ 0 ::
      (encode16 (UInt16.ofNat payload.length) ++ (payload ++ tail))) := by
    simp [bigfileFragContents]
  have h₂ : bigfileFragContents id number payload ++ tail = (id :: (decimal number ++ [0])) ++
      (encode16 (UInt16.ofNat payload.length) ++ (payload ++ tail)) := by
    simp [bigfileFragContents]
  have h₃ : bigfileFragContents id number payload ++ tail = (id :: (decimal number ++ 0 ::
      encode16 (UInt16.ofNat payload.length))) ++ (payload ++ tail) := by
    simp [bigfileFragContents]
  have hlen : (bigfileFragContents id number payload).length =
      (decimal number).length + payload.length + 4 := by
    simp [bigfileFragContents]
    omega
  generalize bigfileFragContents id number payload = contents at h₁ h₂ h₃ hlen hfits hnum
  have ha₂ : (id :: (decimal number ++ [0])).length = 1 + (decimal number).length + 1 := by
    simp
    omega
  have ha₃ : (id :: (decimal number ++ 0 :: encode16 (UInt16.ofNat payload.length))).length =
      1 + (decimal number).length + 1 + tcpPacket3DataSizeLen := by
    simp [tcpPacket3DataSizeLen]
    omega
  have hs : sizeT ((contents.length : Int) - 1) = (decimal number).length + payload.length + 3 :=
    sizeT_eq (by omega) (by omega)
  have hc : memchr (contents ++ tail) 0 1 (sizeT ((contents.length : Int) - 1)) =
      some (1 + (decimal number).length) := by
    rw [h₁, hs]
    exact @memchr_append [id] _ _ _ _ (zero_notMem_decimal _) (by omega)
  have hsize : convertBuf2short (contents ++ tail) (1 + (decimal number).length + 1) =
      UInt16.ofNat payload.length := by
    rw [convertBuf2short, h₂, ← ha₂, decode16_encode16]
  have hsize32 : (UInt16.ofNat payload.length).toUInt32 = UInt32.ofNat payload.length := by
    apply UInt32.toNat_inj.mp
    rw [UInt16.toNat_toUInt32, UInt16.toNat_ofNat', UInt32.toNat_ofNat']
    omega
  have htoNat : (UInt32.ofNat payload.length).toNat = payload.length := by
    rw [UInt32.toNat_ofNat']
    omega
  have hle : ¬ UInt32.ofNat payload.length > remainSize := by
    rw [gt_iff_lt, UInt32.lt_iff_toNat_lt, htoNat]
    omega
  have hcalc : UInt32.ofInt ((contents.length : Int) -
      (1 + (decimal number).length + 1 + tcpPacket3DataSizeLen : Nat)) =
        UInt32.ofNat payload.length := by
    rw [← ofInt_ofNat]
    congr 1
    simp only [tcpPacket3DataSizeLen]
    omega
  have hread : read (contents ++ tail) (1 + (decimal number).length + 1 + tcpPacket3DataSizeLen)
      payload.length = payload := by
    rw [h₃, ← ha₃]
    exact read_middle _ _ _
  rw [fragmentNumber] at hnum
  simp only [fragmentPayload, hnum, ne_eq, not_true_eq_false, if_false, hc, hsize, hsize32, hle,
    hcalc, htoNat, hread]

theorem BigfileCall.Feeds.result {c : BigfileCall} {type : UInt8} {contents : List UInt8}
    (h : c.Feeds type contents) (hne : contents ≠ [])
    (ht : type = tcpPacket3TypeBigfileFrag ∨ type = tcpPacket3TypeBigfileEnd) {st : BigfileState}
    {big : Block BigfileRecv} (hbig : st.pBig = some big) :
    ∃ buf tail w', buf.mem = contents ++ tail ∧ c.result st =
      (if peek contents 0 ≠ big.val.id then do
          free buf.addr
          pure (-1, {}, st)
        else if type = tcpPacket3TypeBigfileEnd then bigfileEnd c.env st big buf c.args
        else bigfileFrag st big buf contents.length : CM (Int × BigfileOut × BigfileState)) w' := by
  obtain ⟨p, hp, hcreated⟩ := h.packet
  obtain ⟨buf, tail, hext, hmem⟩ := hcreated.extracts hne (h.ample c.world.next)
  have htype := hcreated.type_eq hne
  have hstart : type ≠ tcpPacket3TypeBigfileStart := by
    rcases ht with rfl | rfl <;> decide
  have hother : ¬ (type ≠ tcpPacket3TypeBigfileFrag ∧ type ≠ tcpPacket3TypeBigfileEnd) :=
    fun hh => ht.elim hh.1 hh.2
  have hpeek : peek buf.mem 0 = peek contents 0 := by
    rw [hmem, peek_append_left _ (List.length_pos_iff.mpr hne)]
  refine ⟨buf, tail, { c.world with next := c.world.next + 1 }, hmem, ?_⟩
  rw [BigfileCall.result, hp, receiveBigfileFromPacket, receiveBigfileFromPacketBy,
    if_neg (hcreated.dataSize_ne hne), htype, if_neg hstart, if_neg hother, hbig]
  dsimp only
  rw [CM.bind_ok hext]
  dsimp only
  rw [hpeek, hcreated.plainSize hne]
  rfl

theorem BigfileCall.Feeds.ignored {c : BigfileCall} {type : UInt8} {contents : List UInt8}
    (h : c.Feeds type contents) (hne : contents ≠ [])
    (ht : type = tcpPacket3TypeBigfileFrag ∨ type = tcpPacket3TypeBigfileEnd) {st : BigfileState}
    (hbig : st.pBig = none) : c.result st = .ok (-1, {}, st) c.world := by
  obtain ⟨p, hp, hcreated⟩ := h.packet
  have hstart : type ≠ tcpPacket3TypeBigfileStart := by
    rcases ht with rfl | rfl <;> decide
  have hother : ¬ (type ≠ tcpPacket3TypeBigfileFrag ∧ type ≠ tcpPacket3TypeBigfileEnd) :=
    fun hh => ht.elim hh.1 hh.2
  rw [BigfileCall.result, hp, receiveBigfileFromPacket, receiveBigfileFromPacketBy,
    if_neg (hcreated.dataSize_ne hne), hcreated.type_eq hne, if_neg hstart, if_neg hother, hbig]
  rfl

theorem Roomy.congr {st st' : BigfileState} (h : Roomy st) (hp : st'.pBig = st.pBig) :
    Roomy st' := by
  intro big hbig
  exact h big (hp.symm.trans hbig)

def Awaits (id : UInt8) (next : Nat) (st : BigfileState) : Prop :=
  ∀ big, st.pBig = some big → big.val.id = id ∧ big.val.next.toNat = next

theorem Irrelevant.step {id : UInt8} {next : Nat} {c : BigfileCall} (h : Irrelevant id next c)
    {st : BigfileState} (hst : Awaits id next st) :
    ∃ st' w', c.result st = .ok (-1, {}, st') w' ∧ st'.pBig = st.pBig ∧
      ∀ big t, st.pBig = some big → Receiving st big t → Receiving st' big t := by
  cases h with
  | @other p hp hstart hfrag hend =>
    have hneither : p.type ≠ tcpPacket3TypeBigfileFrag ∧ p.type ≠ tcpPacket3TypeBigfileEnd :=
      ⟨hfrag, hend⟩
    refine ⟨st, c.world, ?_, rfl, fun _ _ _ h => h⟩
    rw [BigfileCall.result, hp, receiveBigfileFromPacket, receiveBigfileFromPacketBy,
      if_neg hstart, if_pos hneither, ite_self]
    rfl
  | @foreign type other rest hother ht hfeeds =>
    cases hbig : st.pBig with
    | none =>
      exact ⟨st, _, hfeeds.ignored (by simp) ht hbig, hbig, fun _ _ hn => by simp at hn⟩
    | some big =>
      obtain ⟨buf, tail, w', -, hres⟩ := hfeeds.result (by simp) ht hbig
      rw [if_pos (by rw [(hst big hbig).1]; exact hother)] at hres
      refine ⟨st, _, hres, hbig, fun big' t hb hrec => hrec⟩
  | @misnumbered number payload hne hnumber hfeeds =>
    cases hbig : st.pBig with
    | none =>
      exact ⟨st, _, hfeeds.ignored (by simp [bigfileFragContents]) (Or.inl rfl) hbig, hbig,
        fun _ _ hn => by simp at hn⟩
    | some big =>
      obtain ⟨hid, hnext⟩ := hst big hbig
      obtain ⟨buf, tail, w', hmem, hres⟩ :=
        hfeeds.result (by simp [bigfileFragContents]) (Or.inl rfl) hbig
      have hnum : fragmentNumber buf.mem ≠ big.val.next := by
        rw [hmem, fragmentNumber_frag hnumber]
        intro he
        have := congrArg UInt32.toNat he
        rw [UInt32.toNat_ofNat', hnext] at this
        omega
      have hpeek : peek (bigfileFragContents id number payload) 0 = big.val.id := hid.symm
      rw [if_neg (not_not.mpr hpeek), if_neg (by decide)] at hres
      have hkeep : ∀ big' t, some big = some big' → Receiving st big' t →
          Receiving (firstFragment st big) big' t := by
        intro big' t hb hrec
        obtain rfl := Option.some.inj hb
        exact hrec.rejected
      by_cases hcount : (firstFragment st big).remainCount = 0
      · rw [bigfileFrag, bigfileFragBy, if_pos hcount] at hres
        exact ⟨_, _, hres, (firstFragment_pBig st big).trans hbig, hkeep⟩
      · rw [bigfileFrag, bigfileFragBy, if_neg hcount, fragmentPayload_number hnum] at hres
        exact ⟨_, _, hres, (firstFragment_pBig st big).trans hbig, hkeep⟩

theorem Receiving.feed {st : BigfileState} {big : Block BigfileRecv} {t : Transfer}
    (h : Receiving st big t) (hbig : st.pBig = some big) (hroom : Roomy st) {c : BigfileCall}
    {payload : List UInt8}
    (hfeeds : c.Feeds tcpPacket3TypeBigfileFrag
      (bigfileFragContents t.info.id t.frags.length payload))
    (hnumber : t.frags.length < 2 ^ 31) (hcount : t.frags.length < t.info.count.toNat)
    (hsize : t.received.length + payload.length ≤ t.info.size.toNat) :
    ∃ st' big' w', c.result st = .ok (1, {}, st') w' ∧ st'.pBig = some big' ∧ Roomy st' ∧
      Receiving st' big'
        { t with frags := t.frags ++ [(UInt32.ofNat t.frags.length, payload)] } := by
  have hne : bigfileFragContents t.info.id t.frags.length payload ≠ [] := by
    simp [bigfileFragContents]
  obtain ⟨p, hp, hcreated⟩ := hfeeds.packet
  obtain ⟨hrc, hrs, hpc⟩ := h.first
  have hrem : payload.length ≤ (firstFragment st big).remainSize.toNat := by omega
  have hrc0 : (firstFragment st big).remainCount ≠ 0 := by
    intro h0
    rw [h0, UInt32.toNat_zero] at hrc
    omega
  have hnext : UInt32.ofNat t.frags.length = big.val.next := by
    apply UInt32.toNat_inj.mp
    rw [UInt32.toNat_ofNat', h.next]
    omega
  have hfit := (h.fragment_fits hroom hbig hrem).2
  obtain ⟨buf, tail, w', hmem, hres⟩ := hfeeds.result hne (Or.inl rfl) hbig
  have hid : peek (bigfileFragContents t.info.id t.frags.length payload) 0 = big.val.id :=
    (congrArg BigfileInfo.id h.info).symm
  have hpay := @fragmentPayload_frag t.info.id t.frags.length payload tail _ hnumber
    (lt_of_le_of_lt (hcreated.length_le hne) (by decide)) hrem
  rw [← hmem, hnext] at hpay
  rw [if_neg (not_not.mpr hid), if_neg (by decide), bigfileFrag_accept hrc0 hpay hpc hfit] at hres
  have hfits : FitsCall c st none := by
    intro q info hq ht
    obtain rfl := Option.some.inj (hp.symm.trans hq)
    rw [hcreated.type_eq hne] at ht
    exact absurd ht (by decide)
  exact ⟨_, _, _, hres, rfl, roomy_call hroom hfits hres, h.accepted hrc0 hnext hrem hpc⟩

theorem Fragments.run {id : UInt8} {next : Nat} {payloads : List (List UInt8)}
    {cs : List BigfileCall} {rets : List (Int × BigfileOut)} (h : Fragments id next payloads cs rets)
    {st : BigfileState} {big : Block BigfileRecv} {t : Transfer} (hrec : Receiving st big t)
    (hbig : st.pBig = some big) (hroom : Roomy st) (hid : t.info.id = id)
    (hnext : t.frags.length = next) (hcount : next + payloads.length = t.info.count.toNat)
    (hcount31 : t.info.count.toNat < 2 ^ 31)
    (hsize : t.received.length + payloads.flatten.length = t.info.size.toNat) :
    ∃ st' big' t', receiveBigfiles st cs = .ok (rets, st') ∧ st'.pBig = some big' ∧ Roomy st' ∧
      Receiving st' big' t' ∧ t'.info = t.info ∧ t'.frags.length = next + payloads.length ∧
        t'.received = t.received ++ payloads.flatten := by
  induction h generalizing st big t with
  | done => exact ⟨st, big, t, rfl, hbig, hroom, hrec, rfl, hnext, by simp⟩
  | @fragment next payload payloads c cs rets hfeeds _ ih =>
    subst hid hnext
    rw [List.flatten_cons, List.length_append] at hsize
    rw [List.length_cons] at hcount
    obtain ⟨st₁, big₁, w₁, hres, hbig₁, hroom₁, hrec₁⟩ :=
      hrec.feed hbig hroom hfeeds (by omega) (by omega) (by omega)
    have hreceived := t.received_append (UInt32.ofNat t.frags.length, payload)
    obtain ⟨st', big', t', hrun, hbig', hroom', hrec', hinfo, hlen, hrcv⟩ :=
      ih hrec₁ hbig₁ hroom₁ rfl (by simp) (by dsimp only; omega) hcount31
        (by rw [hreceived, List.length_append]; dsimp only; omega)
    refine ⟨st', big', t', receiveBigfiles_cons hres hrun, hbig', hroom', hrec', hinfo, ?_, ?_⟩
    · rw [hlen, List.length_cons]
      omega
    · rw [hrcv, hreceived, List.flatten_cons, List.append_assoc]
  | @irrelevant next payloads c cs rets hirr _ ih =>
    have hawaits : Awaits id next st := by
      intro big' hb
      obtain rfl := Option.some.inj (hbig.symm.trans hb)
      exact ⟨(congrArg BigfileInfo.id hrec.info).trans hid, hrec.next.trans hnext⟩
    obtain ⟨st₁, w₁, hres, hpBig, hkeep⟩ := hirr.step hawaits
    obtain ⟨st', big', t', hrun, hrest⟩ := ih (hkeep big t hbig hrec) (hpBig.trans hbig)
      (hroom.congr hpBig) hid hnext hcount hcount31 hsize
    exact ⟨st', big', t', receiveBigfiles_cons hres hrun, hrest⟩

theorem allocBigfileInfoFromPacket_ok {env : HeapEnv} {p : TcpPacket3} {buf : Buf}
    {info : BigfileInfo} {w w₁ : World} (hext : extractPacketContents env p w = .ok (some buf) w₁)
    (hparse : parseBigfileInfo buf.mem (getPacketPlainContentsSize p) = some info)
    (hok : env.ok w₁.next = true) (hfits : info.Fits) :
    ∃ addr w', allocBigfileInfoFromPacket env p w = .ok (some ⟨addr, info.record⟩) w' := by
  have hm := info.toNat_memSize
  simp only [BigfileInfo.Fits] at hfits
  rw [allocBigfileInfoFromPacket, CM.bind_ok hext]
  dsimp only
  rw [hparse]
  dsimp only
  rw [CM.bind_ok (malloc_some hok), ofInt_memSize]
  dsimp only
  rw [CM.bind_ok (fillBigfileRecv_ok rfl (by rw [bigfileBufOffset]; omega) _)]
  exact ⟨_, _, rfl⟩

theorem BigfileCall.Feeds.start {c : BigfileCall} {id : UInt8} {name : List UInt8}
    {size count : Nat}
    (h : c.Feeds tcpPacket3TypeBigfileStart (bigfileStartContents id name size count))
    (hname : (0 : UInt8) ∉ name) (hcount : count < 2 ^ 31)
    (hsize : size + name.length + sizeofBigfileRecvRec.toNat < 2 ^ 31) (st : BigfileState) :
    ∃ addr w', c.result st = .ok (1, {}, { st with
      pBig := some ⟨addr, BigfileInfo.record ⟨id, name, UInt32.ofNat size, UInt32.ofNat count⟩⟩ })
        w' := by
  have hne : bigfileStartContents id name size count ≠ [] := by simp [bigfileStartContents]
  have h24 : sizeofBigfileRecvRec.toNat = 24 := rfl
  obtain ⟨p, hp, hcreated⟩ := h.packet
  obtain ⟨w₀, hfree⟩ : ∃ w₀, freeBigfile st.pBig c.world = .ok () w₀ := by
    cases st.pBig with
    | none => exact ⟨c.world, rfl⟩
    | some big => exact ⟨{ c.world with frees := big.addr :: c.world.frees }, rfl⟩
  obtain ⟨buf, tail, hext, hmem⟩ := hcreated.extracts hne (h.ample w₀.next)
  have hparse := @parseBigfileInfo_start id name tail size count hname (by omega) hcount
    (lt_of_le_of_lt (hcreated.length_le hne) (by decide))
  rw [← hmem, ← hcreated.plainSize hne] at hparse
  have hfits : BigfileInfo.Fits ⟨id, name, UInt32.ofNat size, UInt32.ofNat count⟩ := by
    simp only [BigfileInfo.Fits, UInt32.toNat_ofNat']
    omega
  obtain ⟨addr, w', halloc⟩ := allocBigfileInfoFromPacket_ok hext hparse (h.ample _) hfits
  refine ⟨addr, w', ?_⟩
  rw [BigfileCall.result, hp, receiveBigfileFromPacket, receiveBigfileFromPacketBy,
    if_neg (hcreated.dataSize_ne hne), hcreated.type_eq hne, if_pos rfl, bigfileStart,
    CM.bind_ok hfree, CM.bind_ok halloc]
  rfl

theorem copyFilename_ok {env : HeapEnv} {big : BigfileRecv} (hok : ∀ n, env.ok n = true)
    (hlen : big.filename.length < 2 ^ 31) (want : Bool) (w : World) :
    ∃ name w', copyFilename env big want w = .ok (some name) w' := by
  cases want with
  | false => exact ⟨none, w, rfl⟩
  | true =>
    have hle : strlen (big.filename ++ [0]) 0 ≤ big.filename.length + 1 := by
      have hp := (List.takeWhile_prefix (l := big.filename ++ [0]) (· != (0 : UInt8))).length_le
      simpa [strlen, cstr] using hp
    have hmin : min (strlen (big.filename ++ [0]) 0 + 1) (strlen (big.filename ++ [0]) 0) =
        strlen (big.filename ++ [0]) 0 := by omega
    have hdup := @strndup_ok env (big.filename ++ [0]) 0 (strlen (big.filename ++ [0]) 0 + 1) _ w
      (hok _) hmin (by omega)
    rw [copyFilename, if_pos rfl, CM.bind_ok hdup]
    exact ⟨_, _, rfl⟩

theorem copyContents_ok {env : HeapEnv} {big : BigfileRecv} (hok : ∀ n, env.ok n = true)
    (hlen : big.size.toNat ≤ big.contents.length) (hsize : big.size.toNat < 2 ^ 31) (want : Bool)
    (w : World) : ∃ file w', copyContents env big want w = .ok (some file) w' := by
  cases want with
  | false => exact ⟨none, w, rfl⟩
  | true =>
    have hs : (UInt32.ofInt ((big.size + 1).toNat : Int)).toNat = big.size.toNat + 1 := by
      rw [ofInt_memSize, UInt32.toNat_add, UInt32.toNat_one]
      omega
    have hcopy := @memcpy_ok ⟨w.next, big.size.toNat + 1, env.leftover w.next⟩ big.contents 0 0
      big.size.toNat (by dsimp only; omega) { w with next := w.next + 1 }
    have hend := @memcpy_ok ⟨w.next, big.size.toNat + 1,
      overwrite (env.leftover w.next) 0 (read big.contents 0 big.size.toNat)⟩ [0] 0
      big.size.toNat 1 le_rfl { w with next := w.next + 1 }
    rw [copyContents, if_pos rfl, CM.bind_ok (malloc_some (hok _)), hs]
    dsimp only
    rw [if_neg (Nat.not_lt.mpr hlen)]
    exact ⟨_, _, (CM.bind_ok hcopy).trans (CM.bind_ok hend)⟩

theorem extractBigfile_ok {env : HeapEnv} {big : BigfileRecv} (hok : ∀ n, env.ok n = true)
    (hcount : big.count = big.next) (hname : big.filename.length < 2 ^ 31)
    (hlen : big.size.toNat ≤ big.contents.length) (hsize : big.size.toNat < 2 ^ 31)
    (args : BigfileArgs) (w : World) :
    ∃ out w', extractBigfile env big args w = .ok (0, out) w' := by
  obtain ⟨name, w₁, hn⟩ := copyFilename_ok hok hname args.name w
  obtain ⟨file, w₂, hf⟩ := copyContents_ok hok hlen hsize args.file w₁
  rw [extractBigfile, if_neg (not_not.mpr hcount), CM.bind_ok hn]
  dsimp only
  rw [CM.bind_ok hf]
  exact ⟨_, _, rfl⟩

theorem Receiving.finish {st : BigfileState} {big : Block BigfileRecv} {t : Transfer}
    (h : Receiving st big t) (hbig : st.pBig = some big) (hne : t.frags ≠ [])
    (hcount : t.frags.length = t.info.count.toNat)
    (hsize : t.received.length = t.info.size.toNat) (hsize31 : t.info.size.toNat < 2 ^ 31)
    (hname : t.info.filename.length < 2 ^ 31) {c : BigfileCall}
    (hfeeds : c.Feeds tcpPacket3TypeBigfileEnd (bigfileEndContents t.info.id))
    (hall : c.args.all = true) :
    ∃ out w', c.result st = .ok (0, out, { st with pBig := none }) w' ∧
      Extracted big.val c.args out := by
  have hinfo := h.info
  have hcnt : big.val.count = big.val.next := by
    apply UInt32.toNat_inj.mp
    rw [h.next, hcount, ← hinfo]
  have hrs : st.remainSize = 0 := by
    have := h.remainSize hne
    exact UInt32.toNat_inj.mp (by rw [UInt32.toNat_zero]; omega)
  have hrc : st.remainCount = 0 := by
    have := h.remainCount hne
    exact UInt32.toNat_inj.mp (by rw [UInt32.toNat_zero]; omega)
  have hbsize : big.val.size = t.info.size := congrArg BigfileInfo.size hinfo
  have hbname : big.val.filename = t.info.filename := congrArg BigfileInfo.filename hinfo
  have hstored := h.stored.length_le
  obtain ⟨buf, tail, w', hmem, hres⟩ :=
    hfeeds.result (by simp [bigfileEndContents]) (Or.inr rfl) hbig
  have hid : peek (bigfileEndContents t.info.id) 0 = big.val.id :=
    (congrArg BigfileInfo.id hinfo).symm
  have hcrc : peek buf.mem 1 = tcpPacket3BigfileChecksumTypeNone := by
    rw [hmem]
    rfl
  obtain ⟨out, w₁, hext⟩ := @extractBigfile_ok c.env big.val hfeeds.ample hcnt
    (by rw [hbname]; exact hname) (by rw [hbsize]; omega) (by rw [hbsize]; exact hsize31) c.args
    { w' with frees := buf.addr :: w'.frees }
  have hout := extractBigfile_spec c.env big.val c.args { w' with frees := buf.addr :: w'.frees }
  rw [hext] at hout
  rw [if_neg (not_not.mpr hid), if_pos rfl, bigfileEnd_complete ⟨hrs, hrc, hcrc⟩, deliverBigfile,
    CM.bind_ok hext] at hres
  dsimp only at hres
  rw [if_neg (lt_irrefl 0), if_pos hall] at hres
  rcases hout with hbad | ⟨-, hout⟩
  · exact absurd hbad (by decide)
  · exact ⟨out, _, hres, hout⟩

theorem receiveBigfiles_irrelevant {id : UInt8} {next : Nat} {cs : List BigfileCall}
    (h : ∀ c ∈ cs, Irrelevant id next c) {st : BigfileState} (hst : st.pBig = none) :
    ∃ st', receiveBigfiles st cs = .ok (List.replicate cs.length (-1, {}), st') ∧ st'.pBig = none := by
  induction cs generalizing st with
  | nil => exact ⟨st, rfl, hst⟩
  | cons c cs ih =>
    have hawaits : Awaits id next st := by simp [Awaits, hst]
    obtain ⟨st₁, w₁, hres, hpBig, -⟩ := (h c (by simp)).step hawaits
    obtain ⟨st', hrun, hst'⟩ := ih (fun c hc => h c (by simp [hc])) (hpBig.trans hst)
    exact ⟨st', receiveBigfiles_cons hres hrun, hst'⟩

/-- Big-file transfer. From any statics at all, a start packet, the fragments in order and
an end packet, with irrelevant packets anywhere behind the start, hand out the name,
the size and the bytes sent, and leave no transfer behind. -/
theorem receiveBigfileFromPacket_transfers (st : BigfileState) {id : UInt8} {name : List UInt8}
    {payloads : List (List UInt8)} (hname : (0 : UInt8) ∉ name) (hne : payloads ≠ [])
    (hcount : payloads.length < 2 ^ 31)
    (hsize : payloads.flatten.length + name.length + sizeofBigfileRecvRec.toNat < 2 ^ 31)
    {first last : BigfileCall} {middle after : List BigfileCall} {rets : List (Int × BigfileOut)}
    (hfirst : first.Feeds tcpPacket3TypeBigfileStart
      (bigfileStartContents id name payloads.flatten.length payloads.length))
    (hmiddle : Fragments id 0 payloads middle rets)
    (hlast : last.Feeds tcpPacket3TypeBigfileEnd (bigfileEndContents id))
    (hall : last.args.all = true) (hafter : ∀ c ∈ after, Irrelevant id payloads.length c) :
    ∃ (out : BigfileOut) (fname file : Buf) (st' : BigfileState),
      receiveBigfiles st (first :: (middle ++ last :: after)) =
        .ok ((1, {}) :: (rets ++ (0, out) :: List.replicate after.length (-1, {})),
          st') ∧
      out.size = some (UInt32.ofNat payloads.flatten.length) ∧
      out.name = some fname ∧ cstr fname.mem 0 = name ∧
      out.file = some file ∧ read file.mem 0 payloads.flatten.length = payloads.flatten ∧
      st'.pBig = none := by
  have h24 : sizeofBigfileRecvRec.toNat = 24 := rfl
  have hszNat : (UInt32.ofNat payloads.flatten.length).toNat = payloads.flatten.length := by
    rw [UInt32.toNat_ofNat']
    omega
  have hcntNat : (UInt32.ofNat payloads.length).toNat = payloads.length := by
    rw [UInt32.toNat_ofNat']
    omega
  obtain ⟨info, heq⟩ : ∃ info : BigfileInfo, info =
      ⟨id, name, UInt32.ofNat payloads.flatten.length, UInt32.ofNat payloads.length⟩ := ⟨_, rfl⟩
  have hfits : info.Fits := by
    simp only [BigfileInfo.Fits, heq, hszNat]
    omega
  obtain ⟨addr, w₁, hres⟩ := hfirst.start hname hcount hsize st
  rw [← heq] at hres
  obtain ⟨st₂, big, t, hrun, hbig, -, hrec, hinfo, hlen, hrcv⟩ :=
    hmiddle.run (Receiving.fresh { st with pBig := some ⟨addr, info.record⟩ } addr info) rfl
      (Roomy.fresh rfl hfits) (by rw [heq]) rfl (by rw [heq, hcntNat, Nat.zero_add])
      (by rw [heq, hcntNat]; exact hcount) (by rw [heq, hszNat]; simp [Transfer.received])
  rw [heq] at hinfo
  have hsize' : t.info.size.toNat = payloads.flatten.length := by rw [hinfo, hszNat]
  have hrcv' : t.received = payloads.flatten := hrcv
  have hfr : t.frags ≠ [] := by
    intro hnil
    rw [hnil, List.length_nil, Nat.zero_add] at hlen
    exact hne (List.eq_nil_of_length_eq_zero hlen.symm)
  have hid : t.info.id = id := by rw [hinfo]
  have hfn : big.val.filename = name :=
    (congrArg BigfileInfo.filename hrec.info).trans (by rw [hinfo])
  have hbsz : big.val.size = UInt32.ofNat payloads.flatten.length :=
    (congrArg BigfileInfo.size hrec.info).trans (by rw [hinfo])
  obtain ⟨out, w₃, hend, hout⟩ := hrec.finish hbig hfr (by rw [hlen, hinfo, hcntNat, Nat.zero_add])
    (by rw [hrcv', hsize']) (by rw [hsize']; omega) (by rw [hinfo]; dsimp only; omega)
    (by rw [hid]; exact hlast) hall
  obtain ⟨st', hirr, hst'⟩ := @receiveBigfiles_irrelevant _ _ _ hafter { st₂ with pBig := none } rfl
  obtain ⟨⟨hasize, haname⟩, hafile⟩ : (last.args.size = true ∧ last.args.name = true) ∧
      last.args.file = true := by simpa [BigfileArgs.all] using hall
  obtain ⟨fname, hn⟩ := Option.isSome_iff_exists.mp (hout.name_isSome.trans haname)
  obtain ⟨file, hf⟩ := Option.isSome_iff_exists.mp (hout.file_isSome.trans hafile)
  have hcstr : cstr (name ++ [0]) 0 = name := @cstr_append [] name [] hname
  obtain ⟨-, hread⟩ := hout.file file hf
  obtain ⟨rest, hstored⟩ := hrec.stored
  rw [hbsz, hszNat, ← hrcv', ← hstored, List.take_left, hrcv'] at hread
  exact ⟨out, fname, file, st', receiveBigfiles_cons hres
      (receiveBigfiles_append hrun (receiveBigfiles_cons hend hirr)),
    by rw [hout.size, if_pos hasize, hbsz], hn, by rw [hout.name fname hn, hfn, hcstr], hf, hread,
    hst'⟩

theorem Contents.feeds (flag : UInt32) (type : UInt8) (c : Contents) :
    BigfileCall.Feeds ⟨.ample, {}, some (createdPacket flag type.toUInt32 c).record,
      ⟨true, true, true⟩⟩ type c.bytes := by
  obtain ⟨addr, w', h, -⟩ :=
    @createTcpPacket3_created flag type.toUInt32 c .ample {} [] rfl rfl
  rw [List.append_nil] at h
  exact ⟨fun _ => rfl, _, rfl, .ample, flag, addr, {}, w', fun _ => rfl, h⟩

/-- Two fragments, the first of them sent twice and the second encrypted. -/
theorem receiveBigfileFromPacket_transfers_twice :
    ∃ (start frag₀ frag₁ last : BigfileCall) (out : BigfileOut) (file : Buf) (st' : BigfileState),
      start.Feeds tcpPacket3TypeBigfileStart (bigfileStartContents 7 [97] 2 2) ∧
      frag₀.Feeds tcpPacket3TypeBigfileFrag (bigfileFragContents 7 0 [104]) ∧
      frag₁.Feeds tcpPacket3TypeBigfileFrag (bigfileFragContents 7 1 [105]) ∧
      last.Feeds tcpPacket3TypeBigfileEnd (bigfileEndContents 7) ∧
      receiveBigfiles .start [start, frag₀, frag₀, frag₁, last] =
        .ok ([(1, {}), (1, {}), (-1, {}), (1, {}), (0, out)], st') ∧
      out.file = some file ∧ read file.mem 0 2 = [104, 105] := by
  have hstart := Contents.feeds 0 tcpPacket3TypeBigfileStart
    ⟨bigfileStartContents 7 [97] 2 2, by decide, by decide⟩
  have hfrag₀ := Contents.feeds 0x80 tcpPacket3TypeBigfileFrag
    ⟨bigfileFragContents 7 0 [104], by decide, by decide⟩
  have hfrag₁ := Contents.feeds 0x01 tcpPacket3TypeBigfileFrag
    ⟨bigfileFragContents 7 1 [105], by decide, by decide⟩
  have hlast := Contents.feeds 0 tcpPacket3TypeBigfileEnd
    ⟨bigfileEndContents 7, by decide, by decide⟩
  obtain ⟨out, fname, file, st', hrun, -, -, -, hfile, hread, -⟩ :=
    @receiveBigfileFromPacket_transfers .start 7 [97] [[104], [105]] (by decide) (by decide)
      (by decide) (by decide) _ _ _ [] _ hstart
      (.fragment hfrag₀ (.irrelevant (.misnumbered (by decide) (by decide) hfrag₀)
        (.fragment hfrag₁ .done))) hlast rfl (by simp)
  exact ⟨_, _, _, _, out, file, st', hstart, hfrag₀, hfrag₁, hlast, hrun, hfile, hread⟩

end NucleoW5500
