import NucleoW5500.BigFile

/-! What one call of `receive_bigfile_from_packet` does to its statics. -/

namespace NucleoW5500

open CString

/-- What `extract_bigfile` hands out of a record that has all of its fragments. -/
structure Extracted (big : BigfileRecv) (args : BigfileArgs) (out : BigfileOut) : Prop where
  count : big.count = big.next
  size : out.size = if args.size then some big.size else none
  name_isSome : out.name.isSome = args.name
  name : ∀ b, out.name = some b → cstr b.mem 0 = cstr (big.filename ++ [0]) 0
  file_isSome : out.file.isSome = args.file
  file : ∀ b, out.file = some b → big.size.toNat ≤ big.contents.length ∧
    read b.mem 0 big.size.toNat = big.contents.take big.size.toNat

/-- A fault that is not about the memory of a record. -/
def Fault.elsewhere (f : Fault) : Prop := f ≠ .recordBounds ∧ f ≠ .freedBlock

def CopySpec (good : Option Buf → Prop) : EStateM.Result Halt World (Option (Option Buf)) → Prop
  | .ok none _ => True
  | .ok (some b) _ => good b
  | .error h _ => ∃ f, h = .fault f ∧ f.elsewhere

theorem strndup_ok {env : HeapEnv} {mem : List UInt8} {i n len : Nat} {w : World}
    (hok : env.ok w.next = true) (hlen : min n (strlen mem i) = len) (hlt : len + 1 < 2 ^ 32) :
    strndup env mem i n w = .ok
      (some ⟨w.next, len + 1, read mem i len ++ 0 :: (env.leftover w.next).drop (len + 1)⟩)
      { w with next := w.next + 1 } := by
  have hsize : (UInt32.ofInt ((len : Int) + 1)).toNat = len + 1 := by
    rw [UInt32.ofInt, UInt32.toNat_ofNat']
    omega
  have hread := read_append_left (read mem i len ++ [0]) []
  rw [List.append_nil, List.length_append, length_read, List.length_singleton] at hread
  have hcopy := @memcpy_ok ⟨w.next, len + 1, env.leftover w.next⟩ (read mem i len ++ [0]) 0 0
    (len + 1) (by dsimp only; omega) { w with next := w.next + 1 }
  rw [Nat.cast_add, Nat.cast_one, hread, overwrite_zero] at hcopy
  rw [strndup, hlen, CM.bind_ok (malloc_some hok), hsize]
  dsimp only
  rw [CM.bind_ok hcopy]
  simp

theorem copyFilename_spec (env : HeapEnv) (big : BigfileRecv) (want : Bool) (w : World) :
    CopySpec (fun name => name.isSome = want ∧
        ∀ b, name = some b → cstr b.mem 0 = cstr (big.filename ++ [0]) 0)
      (copyFilename env big want w) := by
  cases want with
  | false => exact ⟨rfl, by simp⟩
  | true =>
    have hlen : min (strlen (big.filename ++ [0]) 0 + 1) (strlen (big.filename ++ [0]) 0) =
        strlen (big.filename ++ [0]) 0 := by omega
    simp only [copyFilename, if_true, strndup, hlen, read_strlen]
    cases hok : env.ok w.next with
    | false =>
      simp only [Lockstep.bind_apply, malloc_none hok, CM.pure_apply]
      trivial
    | true =>
      rcases memcpy_cases ⟨w.next, (UInt32.ofInt ((strlen (big.filename ++ [0]) 0 : Int) + 1)).toNat,
          env.leftover w.next⟩ 0 (cstr (big.filename ++ [0]) 0 ++ [0]) 0
          ((strlen (big.filename ++ [0]) 0 : Int) + 1) { w with next := w.next + 1 } with
        hc | ⟨f, hf, hc⟩
      · simp only [Lockstep.bind_apply, malloc_some hok, hc, CM.pure_apply]
        refine ⟨rfl, fun b hb => ?_⟩
        have hn : ((strlen (big.filename ++ [0]) 0 : Int) + 1).toNat =
            (cstr (big.filename ++ [0]) 0 ++ [0]).length := by
          rw [List.length_append]
          rfl
        have hr := read_append_left (cstr (big.filename ++ [0]) 0 ++ [0]) []
        rw [List.append_nil] at hr
        rw [← Option.some.inj hb, hn, hr, overwrite_zero, List.append_assoc]
        exact @cstr_append [] _ _ (zero_notMem_cstr _ _)
      · simp only [Lockstep.bind_apply, malloc_some hok, hc]
        exact ⟨f, rfl, by rcases hf with rfl | rfl <;> decide, by rcases hf with rfl | rfl <;> decide⟩

theorem Fault.elsewhere_of_memcpy {f : Fault} (hf : f = .copyLength ∨ f = .blockBounds) :
    f.elsewhere := by
  rcases hf with rfl | rfl <;> exact ⟨by decide, by decide⟩

theorem copyContents_spec (env : HeapEnv) (big : BigfileRecv) (want : Bool) (w : World) :
    CopySpec (fun file => file.isSome = want ∧ ∀ b, file = some b →
        big.size.toNat ≤ big.contents.length ∧
          read b.mem 0 big.size.toNat = big.contents.take big.size.toNat)
      (copyContents env big want w) := by
  cases want with
  | false => exact ⟨rfl, by simp⟩
  | true =>
    simp only [copyContents, if_true]
    cases hok : env.ok w.next with
    | false =>
      simp only [Lockstep.bind_apply, malloc_none hok, CM.pure_apply]
      trivial
    | true =>
      rw [CM.bind_ok (malloc_some hok)]
      dsimp only
      by_cases hlt : big.contents.length < big.size.toNat
      · rw [if_pos hlt]
        exact ⟨.blockBounds, rfl, by decide, by decide⟩
      · have hr : read big.contents 0 big.size.toNat = big.contents.take big.size.toNat := by
          rw [read_eq_take (by omega), List.drop_zero]
        have hlen : (big.contents.take big.size.toNat).length = big.size.toNat := by
          rw [List.length_take]
          omega
        rw [if_neg hlt]
        generalize big.contents.take big.size.toNat = data at hr hlen
        rcases memcpy_cases ⟨w.next, (UInt32.ofInt (big.size + 1).toNat).toNat,
            env.leftover w.next⟩ 0 big.contents 0 big.size.toNat
            { w with next := w.next + 1 } with hc | ⟨f, hf, hc⟩
        · rw [Int.toNat_natCast, hr, overwrite_zero] at hc
          rw [CM.bind_ok hc]
          rcases memcpy_cases ⟨w.next, (UInt32.ofInt (big.size + 1).toNat).toNat,
              data ++ (env.leftover w.next).drop data.length⟩
              big.size.toNat [0] 0 1 { w with next := w.next + 1 } with hc | ⟨f, hf, hc⟩
          · have hp := read_overwrite_end data ((env.leftover w.next).drop data.length)
              (read [0] 0 1)
            rw [← hlen] at hc ⊢
            rw [CM.bind_ok hc]
            refine ⟨rfl, fun b hb => ⟨by omega, ?_⟩⟩
            rw [← Option.some.inj hb]
            exact hp
          · rw [CM.bind_error hc]
            exact ⟨f, rfl, Fault.elsewhere_of_memcpy hf⟩
        · rw [CM.bind_error hc]
          exact ⟨f, rfl, Fault.elsewhere_of_memcpy hf⟩

def ExtractBigSpec (big : BigfileRecv) (args : BigfileArgs) :
    EStateM.Result Halt World (Int × BigfileOut) → Prop
  | .ok (ret, out) _ => ret = -1 ∨ ret = 0 ∧ Extracted big args out
  | .error h _ => ∃ f, h = .fault f ∧ f.elsewhere

theorem extractBigfile_spec (env : HeapEnv) (big : BigfileRecv) (args : BigfileArgs) (w : World) :
    ExtractBigSpec big args (extractBigfile env big args w) := by
  rw [extractBigfile]
  by_cases hcount : big.count = big.next
  · rw [if_neg (by simpa using hcount)]
    have hname := copyFilename_spec env big args.name w
    cases hn : copyFilename env big args.name w with
    | error h w₁ =>
      rw [hn] at hname
      rw [CM.bind_error hn]
      exact hname
    | ok r w₁ =>
      rw [hn] at hname
      rw [CM.bind_ok hn]
      cases r with
      | none => exact Or.inl rfl
      | some name =>
        dsimp only
        have hfile := copyContents_spec env big args.file w₁
        cases hf : copyContents env big args.file w₁ with
        | error h w₂ =>
          rw [hf] at hfile
          rw [CM.bind_error hf]
          exact hfile
        | ok r w₂ =>
          rw [hf] at hfile
          rw [CM.bind_ok hf]
          cases r with
          | none => exact Or.inl rfl
          | some file =>
            exact Or.inr ⟨rfl, hcount, rfl, hname.1, hname.2, hfile.1, hfile.2⟩
  · rw [if_pos hcount]
    exact Or.inl rfl

theorem firstFragment_pBig (st : BigfileState) (big : Block BigfileRecv) :
    (firstFragment st big).pBig = st.pBig := by
  unfold firstFragment
  split_ifs <;> rfl

theorem firstFragment_later {st : BigfileState} {big : Block BigfileRecv} (h : big.val.next ≠ 0) :
    firstFragment st big = st :=
  if_neg h

def fragmentNumber (mem : List UInt8) : UInt32 := UInt32.ofInt (atoi mem 1)

/-- The bytes behind the number and the size of a fragment packet, as many as its size says. -/
def fragmentContents (mem : List UInt8) (contentsSize : Int) : List UInt8 :=
  match memchr mem 0 1 (sizeT (contentsSize - 1)) with
  | none => []
  | some k => read mem (k + 1 + tcpPacket3DataSizeLen) (convertBuf2short mem (k + 1)).toNat

theorem fragmentPayload_eq_some {mem : List UInt8} {contentsSize : Int} {next remainSize : UInt32}
    {payload : List UInt8}
    (h : fragmentPayload mem contentsSize next remainSize = .ok (some payload)) :
    fragmentNumber mem = next ∧ fragmentContents mem contentsSize = payload ∧
      payload.length ≤ remainSize.toNat := by
  rw [fragmentPayload] at h
  by_cases hnum : UInt32.ofInt (atoi mem 1) = next
  · simp only [hnum, ne_eq, not_true_eq_false, if_false] at h
    cases hk : memchr mem 0 1 (sizeT (contentsSize - 1)) with
    | none => simp [hk] at h
    | some k =>
      simp only [hk] at h
      by_cases hrem : (convertBuf2short mem (k + 1)).toUInt32 > remainSize
      · simp [hrem] at h
      by_cases hcalc : (convertBuf2short mem (k + 1)).toUInt32 =
          UInt32.ofInt (contentsSize - (k + 1 + tcpPacket3DataSizeLen : Nat))
      swap
      · rw [if_neg hrem, if_pos hcalc] at h
        simp at h
      rw [if_neg hrem, if_neg (not_not.mpr hcalc)] at h
      have hp := Option.some.inj (Except.ok.inj h)
      refine ⟨hnum, ?_, ?_⟩
      · simpa [fragmentContents, hk] using hp
      · have hle := UInt32.le_iff_toNat_le.mp (UInt32.not_lt.mp hrem)
        simpa [← hp] using hle
  · simp [hnum] at h

theorem fragmentPayload_error {mem : List UInt8} {contentsSize : Int} {next remainSize : UInt32}
    {f : Fault} (h : fragmentPayload mem contentsSize next remainSize = .error f) :
    f = .nullPointer := by
  rw [fragmentPayload] at h
  by_cases hnum : UInt32.ofInt (atoi mem 1) = next
  · simp only [hnum, ne_eq, not_true_eq_false, if_false] at h
    cases hk : memchr mem 0 1 (sizeT (contentsSize - 1)) with
    | none =>
      simp only [hk, Except.error.injEq] at h
      exact h.symm
    | some k =>
      simp only [hk] at h
      split_ifs at h
  · simp [hnum] at h

def BigfileInfo.record (info : BigfileInfo) : BigfileRecv :=
  { info with
    next := 0, memSize := info.memSize.toNat
    contents :=
      List.replicate (info.memSize.toNat - (bigfileBufOffset + info.filename.length + 1)) 0 }

/-- An end packet that belongs to the transfer and asks for no checksum. -/
structure EndMatches (env : HeapEnv) (w : World) (big : Block BigfileRecv) (q : TcpPacket3) :
    Prop where
  type : q.type = tcpPacket3TypeBigfileEnd
  dataSize : q.dataSize ≠ 0
  extracted : env.ok w.next = true
  id : peek (plaintext env q w.next) 0 = big.val.id
  crcType : peek (plaintext env q w.next) 1 = tcpPacket3BigfileChecksumTypeNone

/-- Every way a call can end, with what it says about the call. -/
inductive BigfileSpec (env : HeapEnv) (w : World) (st : BigfileState) (args : BigfileArgs)
    (p : Option TcpPacket3) : EStateM.Result Halt World (Int × BigfileOut × BigfileState) → Prop
  | idle {out : BigfileOut} {w' : World} : BigfileSpec env w st args p (.ok (-1, out, st) w')
  | drop {w' : World} : BigfileSpec env w st args p (.ok (-1, {}, { st with pBig := none }) w')
  | start {q : TcpPacket3} {info : BigfileInfo} {addr : Nat} {w' : World} : p = some q →
      q.type = tcpPacket3TypeBigfileStart →
      parseBigfileInfo (plaintext env q w.next) (getPacketPlainContentsSize q) = some info →
      bigfileBufOffset + info.filename.length + 1 ≤ info.memSize.toNat →
      BigfileSpec env w st args p
        (.ok (1, {}, { st with pBig := some ⟨addr, info.record⟩ }) w')
  | startFault {q : TcpPacket3} {info : BigfileInfo} {w' : World} : p = some q →
      q.type = tcpPacket3TypeBigfileStart →
      parseBigfileInfo (plaintext env q w.next) (getPacketPlainContentsSize q) = some info →
      info.memSize.toNat < bigfileBufOffset + info.filename.length + 1 →
      BigfileSpec env w st args p (.error (.fault .recordBounds) w')
  | deliver {big : Block BigfileRecv} {out : BigfileOut} {w' : World} : st.pBig = some big →
      (p = none ∧ args.any = true ∨
        ∃ q, p = some q ∧ EndMatches env w big q ∧ st.remainSize = 0 ∧ st.remainCount = 0) →
      Extracted big.val args out →
      BigfileSpec env w st args p
        (.ok (0, out, if args.all then { st with pBig := none } else st) w')
  | reject {q : TcpPacket3} {big : Block BigfileRecv} {w' : World} : p = some q →
      q.type = tcpPacket3TypeBigfileFrag → st.pBig = some big →
      BigfileSpec env w st args p (.ok (-1, {}, firstFragment st big) w')
  | accept {q : TcpPacket3} {big : Block BigfileRecv} {offset : Nat} {payload : List UInt8}
      {w' : World} : p = some q → q.type = tcpPacket3TypeBigfileFrag → st.pBig = some big →
      (firstFragment st big).remainCount ≠ 0 →
      fragmentNumber (plaintext env q w.next) = big.val.next →
      fragmentContents (plaintext env q w.next) (getPacketPlainContentsSize q) = payload →
      payload.length ≤ (firstFragment st big).remainSize.toNat →
      (firstFragment st big).pContents = some (big.addr, offset) →
      offset + payload.length ≤ big.val.contents.length →
      BigfileSpec env w st args p (.ok (1, {},
        { pBig := some ⟨big.addr, { big.val with
            next := big.val.next + 1, contents := overwrite big.val.contents offset payload }⟩
          remainCount := (firstFragment st big).remainCount - 1
          remainSize := (firstFragment st big).remainSize - UInt32.ofNat payload.length
          pContents := some (big.addr, offset + payload.length) }) w')
  | fragFault {q : TcpPacket3} {big : Block BigfileRecv} {payload : List UInt8} {f : Fault}
      {w' : World} : p = some q → q.type = tcpPacket3TypeBigfileFrag → st.pBig = some big →
      (firstFragment st big).remainCount ≠ 0 →
      payload.length ≤ (firstFragment st big).remainSize.toNat →
      (∀ offset, (firstFragment st big).pContents = some (big.addr, offset) →
        big.val.contents.length < offset + payload.length) →
      BigfileSpec env w st args p (.error (.fault f) w')
  | fault {f : Fault} {w' : World} : f.elsewhere →
      BigfileSpec env w st args p (.error (.fault f) w')

inductive AllocSpec (env : HeapEnv) (q : TcpPacket3) (n : Nat) :
    EStateM.Result Halt World (Option (Block BigfileRecv)) → Prop
  | failed {w' : World} : AllocSpec env q n (.ok none w')
  | parsed {info : BigfileInfo} {addr : Nat} {w' : World} :
      parseBigfileInfo (plaintext env q n) (getPacketPlainContentsSize q) = some info →
      bigfileBufOffset + info.filename.length + 1 ≤ info.memSize.toNat →
      AllocSpec env q n (.ok (some ⟨addr, info.record⟩) w')
  | tooSmall {info : BigfileInfo} {w' : World} :
      parseBigfileInfo (plaintext env q n) (getPacketPlainContentsSize q) = some info →
      info.memSize.toNat < bigfileBufOffset + info.filename.length + 1 →
      AllocSpec env q n (.error (.fault .recordBounds) w')
  | fault {f : Fault} {w' : World} : f.elsewhere → AllocSpec env q n (.error (.fault f) w')

theorem fillBigfileRecv_ok {block : Buf} {info : BigfileInfo}
    (hsize : block.size = info.memSize.toNat)
    (hle : bigfileBufOffset + info.filename.length + 1 ≤ info.memSize.toNat) (w : World) :
    fillBigfileRecv block info w = .ok info.record w := by
  rw [← hsize] at hle
  rw [fillBigfileRecv, if_neg (Nat.not_lt.mpr hle), hsize]
  rfl

theorem ofInt_memSize (n : UInt32) : (UInt32.ofInt n.toNat).toNat = n.toNat := by
  have := n.toNat_lt
  rw [UInt32.ofInt, UInt32.toNat_ofNat']
  omega

theorem allocBigfileInfoFromPacket_spec (env : HeapEnv) (q : TcpPacket3) (w : World) :
    AllocSpec env q w.next (allocBigfileInfoFromPacket env q w) := by
  rw [allocBigfileInfoFromPacket]
  have hext := extractPacketContents_spec env q w
  cases hx : extractPacketContents env q w with
  | error h w₁ =>
    rw [hx] at hext
    rw [CM.bind_error hx]
    cases hext with
    | fault hf _ => exact .fault (Fault.elsewhere_of_memcpy hf)
  | ok r w₁ =>
    rw [hx] at hext
    rw [CM.bind_ok hx]
    cases r with
    | none => exact .failed
    | some buf =>
      cases hext with
      | extracted hz hok =>
        dsimp only
        cases hparse : parseBigfileInfo (plaintext env q w.next) (getPacketPlainContentsSize q) with
        | none => exact .failed
        | some info =>
          dsimp only
          cases hok' : env.ok (w.next + 1) with
          | false =>
            rw [CM.bind_ok (malloc_none hok')]
            exact .failed
          | true =>
            rw [CM.bind_ok (malloc_some hok'), ofInt_memSize]
            dsimp only
            by_cases hlt : info.memSize.toNat < bigfileBufOffset + info.filename.length + 1
            · have hf : ∀ w', fillBigfileRecv ⟨w.next + 1, info.memSize.toNat,
                  env.leftover (w.next + 1)⟩ info w' = .error (.fault .recordBounds) w' := by
                intro w'
                rw [fillBigfileRecv, if_pos hlt]
                rfl
              rw [CM.bind_error (hf _)]
              exact .tooSmall hparse hlt
            · rw [CM.bind_ok (fillBigfileRecv_ok rfl (Nat.le_of_not_lt hlt) _)]
              exact .parsed hparse (Nat.le_of_not_lt hlt)

theorem bigfileStart_spec (env : HeapEnv) (w : World) (st : BigfileState) (args : BigfileArgs)
    {q : TcpPacket3} (ht : q.type = tcpPacket3TypeBigfileStart) :
    BigfileSpec env w st args (some q) (bigfileStart env st q w) := by
  obtain ⟨w₀, hfree, hnext⟩ : ∃ w₀, freeBigfile st.pBig w = .ok () w₀ ∧ w₀.next = w.next := by
    cases st.pBig with
    | none => exact ⟨w, rfl, rfl⟩
    | some big => exact ⟨{ w with frees := big.addr :: w.frees }, rfl, rfl⟩
  rw [bigfileStart, CM.bind_ok hfree]
  have halloc := allocBigfileInfoFromPacket_spec env q w₀
  rw [hnext] at halloc
  cases hx : allocBigfileInfoFromPacket env q w₀ with
  | error h w₁ =>
    rw [hx] at halloc
    rw [CM.bind_error hx]
    cases halloc with
    | tooSmall hparse hlt => exact .startFault rfl ht hparse hlt
    | fault hf => exact .fault hf
  | ok r w₁ =>
    rw [hx] at halloc
    rw [CM.bind_ok hx]
    cases halloc with
    | failed => exact .drop
    | parsed hparse hle => exact .start rfl ht hparse hle

theorem deliverBigfile_spec (env : HeapEnv) {w w₁ : World} {st : BigfileState}
    {args : BigfileArgs} {p : Option TcpPacket3} {big : Block BigfileRecv}
    (hbig : st.pBig = some big)
    (hcall : p = none ∧ args.any = true ∨
      ∃ q, p = some q ∧ EndMatches env w big q ∧ st.remainSize = 0 ∧ st.remainCount = 0) :
    BigfileSpec env w st args p (deliverBigfile env st big args w₁) := by
  have hext := extractBigfile_spec env big.val args w₁
  rw [deliverBigfile]
  cases hx : extractBigfile env big.val args w₁ with
  | error h w₂ =>
    rw [hx] at hext
    obtain ⟨f, rfl, hf⟩ := hext
    rw [CM.bind_error hx]
    exact .fault hf
  | ok r w₂ =>
    obtain ⟨ret, out⟩ := r
    rw [hx] at hext
    rw [CM.bind_ok hx]
    rcases hext with rfl | ⟨rfl, hout⟩
    · exact .idle
    · have hd := fun w' => @BigfileSpec.deliver env w st args p big out w' hbig hcall hout
      dsimp only
      rw [if_neg (lt_irrefl 0)]
      by_cases hall : args.all = true
      · rw [if_pos hall] at hd ⊢
        exact hd _
      · rw [if_neg hall] at hd ⊢
        exact hd _

theorem bigfileFrag_accept {st : BigfileState} {big : Block BigfileRecv} {buf : Buf}
    {contentsSize : Int} {payload : List UInt8} {offset : Nat} {w : World}
    (hcount : (firstFragment st big).remainCount ≠ 0)
    (hp : fragmentPayload buf.mem contentsSize big.val.next (firstFragment st big).remainSize =
      .ok (some payload))
    (hptr : (firstFragment st big).pContents = some (big.addr, offset))
    (hfit : offset + payload.length ≤ big.val.contents.length) :
    bigfileFrag st big buf contentsSize w = .ok (1, {},
      { pBig := some ⟨big.addr, { big.val with
          next := big.val.next + 1, contents := overwrite big.val.contents offset payload }⟩
        remainCount := (firstFragment st big).remainCount - 1
        remainSize := (firstFragment st big).remainSize - UInt32.ofNat payload.length
        pContents := some (big.addr, offset + payload.length) }) w := by
  have hcopy : copyFragment (some (big.addr, offset)) big payload w =
      .ok (overwrite big.val.contents offset payload) w := by
    rw [copyFragment, if_neg (not_not.mpr rfl)]
    exact store_ok hfit w
  rw [bigfileFrag, bigfileFragBy, if_neg hcount, hp]
  dsimp only
  rw [hptr, CM.bind_ok hcopy]
  rfl

theorem bigfileFrag_spec (env : HeapEnv) {w w₁ : World} {st : BigfileState}
    {args : BigfileArgs} {q : TcpPacket3} {big : Block BigfileRecv} {buf : Buf}
    (ht : q.type = tcpPacket3TypeBigfileFrag) (hbig : st.pBig = some big)
    (hbuf : buf.mem = plaintext env q w.next) :
    BigfileSpec env w st args (some q)
      (bigfileFrag st big buf (getPacketPlainContentsSize q) w₁) := by
  rw [bigfileFrag, bigfileFragBy]
  by_cases hcount : (firstFragment st big).remainCount = 0
  · rw [if_pos hcount]
    exact .reject rfl ht hbig
  rw [if_neg hcount, hbuf]
  cases hp : fragmentPayload (plaintext env q w.next) (getPacketPlainContentsSize q) big.val.next
      (firstFragment st big).remainSize with
  | error f =>
    rw [fragmentPayload_error hp]
    exact .fault ⟨by decide, by decide⟩
  | ok r =>
    cases r with
    | none => exact .reject rfl ht hbig
    | some payload =>
      obtain ⟨hnum, hcont, hle⟩ := fragmentPayload_eq_some hp
      dsimp only
      cases hptr : (firstFragment st big).pContents with
      | none => exact .fault ⟨by decide, by decide⟩
      | some q' =>
        obtain ⟨addr, offset⟩ := q'
        by_cases ha : addr = big.addr
        · subst ha
          by_cases hfit : offset + payload.length ≤ big.val.contents.length
          · have hok := @bigfileFrag_accept st big buf (getPacketPlainContentsSize q) payload offset
              w₁ hcount (hbuf ▸ hp) hptr hfit
            rw [bigfileFrag, bigfileFragBy, if_neg hcount, hbuf, hp] at hok
            dsimp only at hok
            rw [hptr] at hok
            rw [hok]
            exact .accept rfl ht hbig hcount hnum hcont hle hptr hfit
          · have hcopy : copyFragment (some (big.addr, offset)) big payload w₁ =
                .error (.fault .recordBounds) w₁ := by
              have hout : ¬ ((0 : Int) ≤ offset ∧
                  (offset : Int) + payload.length ≤ big.val.contents.length) := by omega
              rw [copyFragment, if_neg (not_not.mpr rfl), store, if_neg hout]
              rfl
            rw [CM.bind_error hcopy]
            refine .fragFault rfl ht hbig hcount hle fun off hoff => ?_
            rw [hptr] at hoff
            obtain rfl : offset = off := congrArg Prod.snd (Option.some.inj hoff)
            omega
        · have hcopy : copyFragment (some (addr, offset)) big payload w₁ =
              .error (.fault .freedBlock) w₁ := by
            rw [copyFragment, if_pos ha]
            rfl
          rw [CM.bind_error hcopy]
          refine .fragFault rfl ht hbig hcount hle fun off hoff => ?_
          rw [hptr] at hoff
          exact absurd (congrArg Prod.fst (Option.some.inj hoff)) ha

section End

variable {env : HeapEnv} {st : BigfileState} {big : Block BigfileRecv} {buf : Buf}

theorem bigfileEnd_pending_iff (st : BigfileState) (buf : Buf) :
    (st.remainSize > 0 ∨ st.remainCount > 0 ∨
      peek buf.mem 1 ≠ tcpPacket3BigfileChecksumTypeNone) ↔
    ¬ (st.remainSize = 0 ∧ st.remainCount = 0 ∧
      peek buf.mem 1 = tcpPacket3BigfileChecksumTypeNone) := by
  have hpos : ∀ n : UInt32, n > 0 ↔ ¬ n = 0 := by
    intro n
    rw [gt_iff_lt, ← UInt32.not_le, UInt32.le_zero_iff]
  rw [hpos, hpos, not_and_or, not_and_or]

theorem bigfileEnd_pending (h : ¬ (st.remainSize = 0 ∧ st.remainCount = 0 ∧
      peek buf.mem 1 = tcpPacket3BigfileChecksumTypeNone)) (args : BigfileArgs) (w : World) :
    bigfileEnd env st big buf args w = .ok (-1, {}, { st with pBig := none })
      { w with frees := big.addr :: buf.addr :: w.frees } := by
  rw [bigfileEnd, CM.bind_ok (free_ok _ _), if_pos ((bigfileEnd_pending_iff st buf).mpr h)]
  rfl

theorem bigfileEnd_complete (h : st.remainSize = 0 ∧ st.remainCount = 0 ∧
      peek buf.mem 1 = tcpPacket3BigfileChecksumTypeNone) (args : BigfileArgs) (w : World) :
    bigfileEnd env st big buf args w =
      deliverBigfile env st big args { w with frees := buf.addr :: w.frees } := by
  rw [bigfileEnd, CM.bind_ok (free_ok _ _),
    if_neg (fun hbad => (bigfileEnd_pending_iff st buf).mp hbad h)]

end End

theorem receiveBigfileFromPacket_spec (env : HeapEnv) (w : World) (st : BigfileState)
    (p : Option TcpPacket3) (args : BigfileArgs) :
    BigfileSpec env w st args p (receiveBigfileFromPacket env st p args w) := by
  cases p with
  | none =>
    rw [receiveBigfileFromPacket, receiveBigfileFromPacketBy, bigfileExtract]
    cases hbig : st.pBig with
    | none => exact .idle
    | some big =>
      by_cases hany : args.any = true
      · dsimp only
        rw [if_pos hany]
        exact deliverBigfile_spec env hbig (Or.inl ⟨rfl, hany⟩)
      · dsimp only
        rw [if_neg hany]
        exact .idle
  | some q =>
    rw [receiveBigfileFromPacket, receiveBigfileFromPacketBy]
    by_cases hz : q.dataSize = 0
    · rw [if_pos hz]
      exact .idle
    by_cases hstart : q.type = tcpPacket3TypeBigfileStart
    · rw [if_neg hz, if_pos hstart]
      exact bigfileStart_spec env w st args hstart
    by_cases hother : q.type ≠ tcpPacket3TypeBigfileFrag ∧ q.type ≠ tcpPacket3TypeBigfileEnd
    · rw [if_neg hz, if_neg hstart, if_pos hother]
      exact .idle
    rw [if_neg hz, if_neg hstart, if_neg hother]
    cases hbig : st.pBig with
    | none => exact .idle
    | some big =>
      dsimp only
      have hext := extractPacketContents_spec env q w
      cases hx : extractPacketContents env q w with
      | error h w₁ =>
        rw [hx] at hext
        rw [CM.bind_error hx]
        cases hext with
        | fault hf _ => exact .fault (Fault.elsewhere_of_memcpy hf)
      | ok r w₁ =>
        rw [hx] at hext
        rw [CM.bind_ok hx]
        cases r with
        | none => exact .drop
        | some buf =>
          cases hext with
          | extracted _ hok =>
            dsimp only
            by_cases hid : peek (plaintext env q w.next) 0 = big.val.id
            swap
            · rw [if_pos hid]
              exact .idle
            rw [if_neg (not_not.mpr hid)]
            by_cases hend : q.type = tcpPacket3TypeBigfileEnd
            · rw [if_pos hend]
              by_cases hdone : st.remainSize = 0 ∧ st.remainCount = 0 ∧
                  peek (plaintext env q w.next) 1 = tcpPacket3BigfileChecksumTypeNone
              · rw [bigfileEnd_complete hdone]
                obtain ⟨hsize, hcount, hcrc⟩ := hdone
                exact deliverBigfile_spec env hbig
                  (Or.inr ⟨q, rfl, ⟨hend, hz, hok, hid, hcrc⟩, hsize, hcount⟩)
              · rw [bigfileEnd_pending hdone]
                exact .drop
            · rw [if_neg hend]
              have hfrag : q.type = tcpPacket3TypeBigfileFrag := by
                by_contra hne
                exact hother ⟨hne, hend⟩
              exact bigfileFrag_spec env hfrag hbig rfl

end NucleoW5500
