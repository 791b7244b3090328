import NucleoW5500.Disclosure
import NucleoW5500.SmallFile

/-! What `tcp_packet3_processor` prints over two heaps. It is the same if all that it prints
was stored before. -/

namespace NucleoW5500

open CString Lockstep

/-- The prefix of the flags is there, and `org_size` is the ciphertext length minus 8. -/
structure Consistent (p : TcpPacket3) : Prop where
  flags : 0 ≤ getPacketContentsSize p
  orgSize : isPacketEncrypted p = true → (p.orgSize.toNat : Int) = getPacketContentsSize p - 8

/-- What is on the console after the processor has dealt with the first packet. -/
def printedBy (env : HeapEnv) (st : BigfileState) (phead : List (Block TcpPacket3)) (w : World) :
    List UInt8 :=
  (final (tcpPacket3Processor env st phead w)).console

/-- An encrypted packet has at least the 40 bytes of the dump, a command line its
terminator, and an end packet the identifier and the checksum type. -/
structure Printable (p : TcpPacket3) : Prop where
  dump : isPacketEncrypted p = true → 40 ≤ p.orgSize.toNat
  cmdline : p.type = tcpPacket3TypeCmdline → p.dataSize ≠ 0 → 0 ∈ extracted p
  bigfileEnd : p.type = tcpPacket3TypeBigfileEnd → p.dataSize ≠ 0 → 2 ≤ (extracted p).length

/-- What the lengths of a consistent packet say about its contents. -/
structure Measured (p : TcpPacket3) : Prop where
  whole : p.data.length = p.dataSize.toNat
  sized : Sized p
  plain : getPacketPlainContentsSize p = ((extracted p).length : Int)

theorem Consistent.measured {q : WirePacket} (h : Consistent q.record) : Measured q.record := by
  have hr := q.received_record
  have hlen : q.record.data.length = q.record.dataSize.toNat := by rw [hr.data, hr.dataSize]
  have hflags := h.flags
  rw [getPacketContentsSize_eq] at hflags
  by_cases he : isPacketEncrypted q.record = true
  · have horg := h.orgSize he
    rw [getPacketContentsSize_eq] at horg
    refine ⟨hlen, ?_, ?_⟩
    · rw [Sized, if_pos he]
      omega
    · rw [getPacketPlainContentsSize, extracted, List.length_drop, hlen, copiedFrom, if_pos he]
      omega
  · refine ⟨hlen, ?_, ?_⟩
    · rw [Sized, if_neg he]
      omega
    · exact plain_contentsSize (Bool.eq_false_iff.mpr he) (by rw [← hr.data, hlen]; omega)

section Stored

variable {env env' : HeapEnv} {L : World → World → Prop}

theorem Measured.orgSize {p : TcpPacket3} (hp : Measured p) :
    p.orgSize.toNat = (extracted p).length :=
  Int.ofNat_inj.mp hp.plain

theorem Measured.sizeT_eq {p : TcpPacket3} (hp : Measured p) :
    sizeT (getPacketPlainContentsSize p) = (extracted p).length := by
  have hlt := p.orgSize.toNat_lt
  have horg := hp.orgSize
  rw [hp.plain, sizeT, UInt32.ofInt, UInt32.toNat_ofNat']
  omega

theorem Measured.read_eq {p : TcpPacket3} (hp : Measured p) :
    read p.data (copiedFrom p) (copiedSize p).toNat = extracted p := by
  have hle := ((sized_iff p).mp hp.sized).1
  have hlen := hp.whole
  rw [copiedSize_eq, read_eq_take (by omega), extracted]
  exact List.take_of_length_le (by rw [List.length_drop]; omega)

theorem Measured.twin [HeapAlike L] {p : TcpPacket3} (hp : Measured p)
    (hok : ∀ n, env.ok n = env'.ok n) :
    Runs L (Option.Rel (Twin env env' (extracted p))) (extractPacketContents env p)
      (extractPacketContents env' p) := by
  have h := twin_extractPacketContents (L := L) hok p
  rwa [hp.read_eq] at h

end Stored

section Same

variable {env env' : HeapEnv} {p : TcpPacket3}

theorem consoleWriteb_eq {bs : List UInt8} {b b' : Buf} (h : Twin env env' bs b b') {n : Int}
    (hn : n.toNat ≤ bs.length) : consoleWriteb b.mem n = consoleWriteb b'.mem n := by
  rw [consoleWriteb, consoleWriteb, h.left.read_eq hn, h.right.read_eq hn]

theorem same_echoPlainPacket (hok : ∀ n, env.ok n = env'.ok n) (hp : Measured p)
    (hdump : isPacketEncrypted p = true → 40 ≤ p.orgSize.toNat) :
    Runs Eq Eq (echoPlainPacket env p) (echoPlainPacket env' p) := by
  refine Runs.ite (fun he => Runs.bind (hp.twin hok) fun r r' hr => ?_) fun _ => Runs.pure rfl
  cases hr with
  | none => exact Runs.pure rfl
  | @some b b' hb =>
    have hlen := hp.orgSize.symm
    have hread := hb.agree.bytes
    rw [hlen] at hread
    have hcreate := @runs_createTcpPacket3_plain env env' Eq _ hok b.mem b'.mem p.orgSize.toNat
      p.orgSize.toNat_lt fun _ => hread
    dsimp only
    rw [consoleWriteb_eq hb (by rw [hlen]; exact hdump he), hb.addr]
    refine Runs.bind (Runs.refl _) fun _ _ _ => Runs.bind hcreate fun pSend _ hsend => ?_
    subst hsend
    exact Runs.refl _

theorem same_getCmdlineFromPacket (hok : ∀ n, env.ok n = env'.ok n) (hp : Measured p) :
    Runs Eq (Option.Rel (Twin env env' (extracted p))) (getCmdlineFromPacket env p)
      (getCmdlineFromPacket env' p) :=
  Runs.ite (fun _ => Runs.pure .none) fun _ => hp.twin hok

theorem same_processCmdline (hok : ∀ n, env.ok n = env'.ok n) (hp : Measured p)
    (hnul : p.dataSize ≠ 0 → 0 ∈ extracted p) :
    Runs Eq Eq (processCmdline env p) (processCmdline env' p) := by
  by_cases hz : p.dataSize = 0
  · have hnone : ∀ e, getCmdlineFromPacket e p = pure none := fun _ => if_pos (Or.inr hz)
    rw [processCmdline, processCmdline, hnone, hnone]
    exact Runs.refl _
  obtain ⟨s, t, hst, hs⟩ := List.eq_append_cons_of_mem (hnul hz)
  refine Runs.bind (same_getCmdlineFromPacket hok hp) fun r r' hr => ?_
  cases hr with
  | none => exact Runs.refl _
  | some hb =>
    dsimp only
    rw [printString, printString, hb.left.cstr_eq hst hs, hb.right.cstr_eq hst hs, hb.addr]
    exact Runs.refl _

def SameAddr (b b' : Buf) : Prop := b.addr = b'.addr

/-- The size, the name and the file of a call of `get_file_from_packet` over two heaps. -/
structure SameFile (env env' : HeapEnv) (bs : List UInt8) (r r' : Int × Option Buf × Option Buf) :
    Prop where
  size : r.1 = r'.1
  name : Option.Rel SameAddr r.2.1 r'.2.1
  file : Option.Rel (Twin env env' bs) r.2.2 r'.2.2
  le : r.1.toNat ≤ bs.length

theorem SameFile.nothing {bs : List UInt8} {name name' : Option Buf}
    (h : Option.Rel SameAddr name name') :
    SameFile env env' bs (0, name, none) (0, name', none) :=
  ⟨rfl, h, .none, Nat.zero_le _⟩

theorem memcpy_congr {src src' : List UInt8} {i : Nat} {n : Int}
    (h : read src i n.toNat = read src' i n.toNat) (dst : Buf) (j : Nat) :
    memcpy dst j src i n = memcpy dst j src' i n := by
  rw [memcpy, memcpy, h]

theorem same_strndup (hok : ∀ n, env.ok n = env'.ok n) {mem mem' : List UInt8} {i n len : Nat}
    (hlen : min n (strlen mem i) = len) (hlen' : min n (strlen mem' i) = len)
    (hread : read mem i len = read mem' i len) :
    Runs Eq (Option.Rel SameAddr) (strndup env mem i n)
      (strndup env' mem' i n) := by
  rw [strndup, strndup, hlen, hlen', hread]
  refine Runs.bind (runs_malloc hok _) fun r r' hr => ?_
  cases hr with
  | none => exact Runs.pure .none
  | @some b b' hb =>
    exact Runs.bind (@runs_memcpy env env' Eq [] b b' hb _ 0 _) fun _ _ hbb =>
      Runs.pure (.some hbb.addr)

theorem Filled.announces_iff {s t : List UInt8} {b : Buf} (h : Filled env (s ++ 0 :: t) b) :
    ((convertBuf2short b.mem (s.length + 1)).toNat : Int) = t.length - 2 ↔
      ∃ file, file.length < 2 ^ 16 ∧ t = encode16 (UInt16.ofNat file.length) ++ file := by
  rw [h.mem, convertBuf2short_behind]
  exact sizedTail_iff

theorem Filled.file_eq {s t file : List UInt8} {size : UInt16} {b : Buf}
    (h : Filled env (s ++ 0 :: t) b) (ht : t = encode16 size ++ file) :
    CString.read b.mem (s.length + 1 + tcpPacket3DataSizeLen) file.length = file := by
  rw [h.mem]
  exact read_behind _ ht

theorem same_copySmallfile (hok : ∀ n, env.ok n = env'.ok n) {s t : List UInt8}
    {b b' name name' : Buf} (hb : Twin env env' (s ++ 0 :: t) b b') (hname : SameAddr name name') :
    Runs Eq (SameFile env env' (t.drop 2))
      (copySmallfile env b name ((s ++ 0 :: t).length : Int) (s.length + 1))
      (copySmallfile env' b' name' ((s ++ 0 :: t).length : Int) (s.length + 1)) := by
  have hcalc : ((s ++ 0 :: t).length : Int) - (s.length + 1 : Nat) - tcpPacket3DataSizeLen =
      t.length - 2 := by
    rw [List.length_append, List.length_cons, tcpPacket3DataSizeLen]
    omega
  rw [copySmallfile, copySmallfile, hcalc, hb.addr]
  by_cases hfit : ∃ file, file.length < 2 ^ 16 ∧ t = encode16 (UInt16.ofNat file.length) ++ file
  · have hleft := hb.left.announces_iff.mpr hfit
    have hright := hb.right.announces_iff.mpr hfit
    obtain ⟨file, -, ht⟩ := hfit
    have hdrop : t.drop 2 = file := by rw [ht]; rfl
    have htlen : t.length = 2 + file.length := by rw [ht, List.length_append, length_encode16]
    have hsize : (t.length : Int) - 2 = file.length := by omega
    rw [hleft, hright, hdrop, hsize, if_neg (not_not.mpr rfl), if_neg (not_not.mpr rfl)]
    refine Runs.bind (runs_malloc hok _) fun r r' hr => ?_
    cases hr with
    | none => exact Runs.bind (Runs.refl _) fun _ _ _ => Runs.pure (.nothing (.some hname))
    | @some c c' hc =>
      have hsrc := (hb.left.file_eq ht).trans (hb.right.file_eq ht).symm
      have hcopy := @runs_memcpy env env' Eq [] c c' hc b.mem
        (s.length + 1 + tcpPacket3DataSizeLen) (file.length : Int)
      rw [Int.toNat_natCast, hb.left.file_eq ht, List.nil_append, @memcpy_congr b.mem b'.mem _
        (file.length : Int) hsrc c'] at hcopy
      refine Runs.bind hcopy fun d d' hd => Runs.bind (Runs.refl _) fun _ _ _ => Runs.pure ?_
      exact ⟨rfl, .some hname, .some hd, le_rfl⟩
  · have hleft := mt hb.left.announces_iff.mp hfit
    have hright := mt hb.right.announces_iff.mp hfit
    rw [if_pos hleft, if_pos hright]
    exact Runs.bind (Runs.refl _) fun _ _ _ => Runs.pure (.nothing (.some hname))

/-- The bytes behind the name, its terminator and the two bytes of the size. -/
def smallfileBytes (p : TcpPacket3) : List UInt8 := ((extracted p).dropWhile (· != 0)).drop 3

theorem smallfileBytes_eq {s t : List UInt8} (hst : extracted p = s ++ 0 :: t)
    (hs : (0 : UInt8) ∉ s) : smallfileBytes p = t.drop 2 := by
  have hrun : ∀ c ∈ s, (c != 0) = true := by
    intro c hc
    have hne : c ≠ 0 := fun h0 => hs (h0 ▸ hc)
    simpa using hne
  rw [smallfileBytes, hst, List.dropWhile_append_of_pos hrun]
  simp

theorem Filled.name_strlen {bs s t : List UInt8} {b : Buf} (h : Filled env bs b)
    (hbs : bs = s ++ 0 :: t) (hs : (0 : UInt8) ∉ s) :
    min (s.length + 1) (strlen b.mem 0) = s.length := by
  rw [strlen, h.cstr_eq hbs hs]
  omega

theorem Filled.name_eq {bs s t : List UInt8} {b : Buf} (h : Filled env bs b)
    (hbs : bs = s ++ 0 :: t) : CString.read b.mem 0 s.length = s := by
  rw [h.read_eq (by rw [hbs]; simp), hbs]
  exact List.take_left

theorem same_getFileFromPacket (hok : ∀ n, env.ok n = env'.ok n) (hp : Measured p) :
    Runs Eq (SameFile env env' (smallfileBytes p)) (getFileFromPacket env p)
      (getFileFromPacket env' p) := by
  refine Runs.ite (fun _ => Runs.pure (.nothing .none)) fun _ =>
    Runs.bind (hp.twin hok) fun r r' hr => ?_
  cases hr with
  | none => exact Runs.pure (.nothing .none)
  | @some b b' hb =>
    dsimp only
    rw [hp.sizeT_eq, hp.plain, hb.addr]
    by_cases hnul : (0 : UInt8) ∈ extracted p
    · obtain ⟨s, t, hst, hs⟩ := List.eq_append_cons_of_mem hnul
      rw [hb.left.memchr_eq_some hst hs, hb.right.memchr_eq_some hst hs, smallfileBytes_eq hst hs]
      refine Runs.bind (same_strndup hok (hb.left.name_strlen hst hs) (hb.right.name_strlen hst hs)
        ((hb.left.name_eq hst).trans (hb.right.name_eq hst).symm)) fun r r' hr => ?_
      cases hr with
      | none => exact Runs.bind (Runs.refl _) fun _ _ _ => Runs.pure (.nothing .none)
      | some hname =>
        rw [hst] at hb ⊢
        exact same_copySmallfile hok hb hname
    · rw [hb.left.memchr_eq_none hnul, hb.right.memchr_eq_none hnul]
      exact Runs.bind (Runs.refl _) fun _ _ _ => Runs.pure (.nothing .none)

theorem same_showFile {bs : List UInt8} {size : Int} {name name' file file' : Option Buf}
    (hname : Option.Rel SameAddr name name')
    (hfile : Option.Rel (Twin env env' bs) file file') (hle : size.toNat ≤ bs.length) :
    Runs Eq Eq (showFile size name file) (showFile size name' file') := by
  have hfree : freeBuf name = freeBuf name' := by
    cases hname with
    | none => rfl
    | some h => rw [freeBuf, freeBuf, h]
  cases hfile with
  | none => exact Runs.refl _
  | some hb =>
    rw [showFile, showFile, consoleWriteb_eq hb hle, hfree, hb.addr]
    exact Runs.refl _

theorem same_processSmallfile (hok : ∀ n, env.ok n = env'.ok n) (hp : Measured p) :
    Runs Eq Eq (processSmallfile env p) (processSmallfile env' p) := by
  refine Runs.bind (same_getFileFromPacket hok hp) fun r r' hr => ?_
  obtain ⟨size, name, file⟩ := r
  obtain ⟨size', name', file'⟩ := r'
  obtain rfl : size = size' := hr.size
  exact Runs.ite (fun _ => same_showFile hr.name hr.file hr.le) fun _ => Runs.pure rfl

/-- What a call of `receive_bigfile_from_packet` hands out over two heaps. -/
structure SameOut (env env' : HeapEnv) (bs : List UInt8) (out out' : BigfileOut) : Prop where
  size : out.size = out'.size
  name : Option.Rel SameAddr out.name out'.name
  file : Option.Rel (Twin env env' bs) out.file out'.file
  le : (out.size.getD 0).toNat ≤ bs.length

theorem SameOut.nothing (bs : List UInt8) : SameOut env env' bs {} {} :=
  ⟨rfl, .none, .none, Nat.zero_le _⟩

/-- The contents of a record as they are handed out, with a terminator. -/
def BigfileRecv.fileBytes (big : BigfileRecv) : List UInt8 :=
  read big.contents 0 big.size.toNat ++ [0]

theorem same_copyFilename (hok : ∀ n, env.ok n = env'.ok n) (big : BigfileRecv) :
    Runs Eq (Option.Rel (Option.Rel SameAddr)) (copyFilename env big true)
      (copyFilename env' big true) := by
  refine Runs.bind (same_strndup hok rfl rfl rfl) fun r r' hr => ?_
  cases hr with
  | none => exact Runs.pure .none
  | some h => exact Runs.pure (.some (.some h))

theorem same_copyContents (hok : ∀ n, env.ok n = env'.ok n) (big : BigfileRecv) :
    Runs Eq (Option.Rel (Option.Rel (Twin env env' big.fileBytes))) (copyContents env big true)
      (copyContents env' big true) := by
  refine Runs.bind (runs_malloc hok _) fun r r' hr => ?_
  cases hr with
  | none => exact Runs.pure .none
  | @some b b' hb =>
    refine Runs.ite (fun _ => runs_halt _) fun _ =>
      Runs.bind (@runs_memcpy env env' Eq [] b b' hb big.contents 0 _) fun c c' hc => ?_
    have hlen : big.size.toNat =
        (read big.contents 0 (big.size.toNat : Int).toNat).length := by simp
    have hend := @runs_memcpy env env' Eq _ c c' hc [0] 0 1
    rw [List.nil_append, ← hlen] at hend
    exact Runs.bind hend fun _ _ hd => Runs.pure (.some (.some hd))

theorem same_extractBigfile (hok : ∀ n, env.ok n = env'.ok n) (big : BigfileRecv) :
    Runs Eq (fun r r' => r.1 = r'.1 ∧ SameOut env env' big.fileBytes r.2 r'.2)
      (extractBigfile env big ⟨true, true, true⟩) (extractBigfile env' big ⟨true, true, true⟩) := by
  have hle : ((some big.size).getD 0).toNat ≤ big.fileBytes.length := by
    rw [BigfileRecv.fileBytes, List.length_append, length_read]
    exact Nat.le_add_right _ _
  refine Runs.ite (fun _ => Runs.pure ⟨rfl, .nothing _⟩) fun _ =>
    Runs.bind (same_copyFilename hok big) fun r r' hr => ?_
  cases hr with
  | none => exact Runs.pure ⟨rfl, rfl, .none, .none, hle⟩
  | some hname =>
    refine Runs.bind (same_copyContents hok big) fun r r' hr => ?_
    cases hr with
    | none => exact Runs.pure ⟨rfl, rfl, hname, .none, hle⟩
    | some hfile => exact Runs.pure ⟨rfl, rfl, hname, hfile, hle⟩

/-- A call of `receive_bigfile_from_packet` over two heaps. -/
structure SameBigfile (env env' : HeapEnv) (bs : List UInt8)
    (r r' : Int × BigfileOut × BigfileState) : Prop where
  ret : r.1 = r'.1
  out : SameOut env env' bs r.2.1 r'.2.1
  state : r.2.2 = r'.2.2

theorem SameBigfile.nothing (bs : List UInt8) (ret : Int) (st : BigfileState) :
    SameBigfile env env' bs (ret, {}, st) (ret, {}, st) :=
  ⟨rfl, .nothing bs, rfl⟩

theorem same_deliverBigfile (hok : ∀ n, env.ok n = env'.ok n) (st : BigfileState)
    (big : Block BigfileRecv) :
    Runs Eq (SameBigfile env env' big.val.fileBytes) (deliverBigfile env st big ⟨true, true, true⟩)
      (deliverBigfile env' st big ⟨true, true, true⟩) := by
  refine Runs.bind (same_extractBigfile hok big.val) fun r r' hr => ?_
  obtain ⟨ret, out⟩ := r
  obtain ⟨ret', out'⟩ := r'
  obtain ⟨rfl, hout⟩ : ret = ret' ∧ SameOut env env' big.val.fileBytes out out' := hr
  exact Runs.ite (fun _ => Runs.pure ⟨rfl, hout, rfl⟩) fun _ =>
    Runs.bind (Runs.refl _) fun _ _ _ => Runs.pure ⟨rfl, hout, rfl⟩

def BigfileState.fileBytes (st : BigfileState) : List UInt8 :=
  match st.pBig with
  | none => []
  | some big => big.val.fileBytes

theorem same_receiveBigfileFromPacket (hok : ∀ n, env.ok n = env'.ok n) (hp : Measured p)
    (hstart : p.type ≠ tcpPacket3TypeBigfileStart) (hfrag : p.type ≠ tcpPacket3TypeBigfileFrag)
    (hend : p.type = tcpPacket3TypeBigfileEnd → p.dataSize ≠ 0 → 2 ≤ (extracted p).length)
    (st : BigfileState) :
    Runs Eq (SameBigfile env env' st.fileBytes)
      (receiveBigfileFromPacket env st (some p) ⟨true, true, true⟩)
      (receiveBigfileFromPacket env' st (some p) ⟨true, true, true⟩) := by
  rw [receiveBigfileFromPacket, receiveBigfileFromPacket, receiveBigfileFromPacketBy,
    receiveBigfileFromPacketBy, if_neg hstart, if_neg hstart]
  refine Runs.ite (fun _ => Runs.pure (.nothing _ _ _)) fun hz =>
    Runs.ite (fun _ => Runs.pure (.nothing _ _ _)) fun hother => ?_
  have ht : p.type = tcpPacket3TypeBigfileEnd := by
    by_contra hne
    exact hother ⟨hfrag, hne⟩
  have h2 := hend ht hz
  rw [BigfileState.fileBytes]
  cases st.pBig with
  | none => exact Runs.pure (.nothing _ _ _)
  | some big =>
    refine Runs.bind (hp.twin hok) fun r r' hr => ?_
    cases hr with
    | none => exact Runs.bind (Runs.refl _) fun _ _ _ => Runs.pure (.nothing _ _ _)
    | @some b b' hb =>
      dsimp only
      rw [if_pos ht, if_pos ht, bigfileEnd, bigfileEnd, hb.left.peek_eq (by omega),
        hb.right.peek_eq (by omega), hb.left.peek_eq (by omega), hb.right.peek_eq (by omega),
        hb.addr]
      exact Runs.ite (fun _ => Runs.bind (Runs.refl _) fun _ _ _ => Runs.pure (.nothing _ _ _))
        fun _ => Runs.bind (Runs.refl _) fun _ _ _ => Runs.ite
          (fun _ => Runs.bind (Runs.refl _) fun _ _ _ => Runs.pure (.nothing _ _ _))
          fun _ => same_deliverBigfile hok st big

theorem toInt32_le (n : UInt32) : n.toInt32.toInt.toNat ≤ n.toNat := by
  have h : n.toInt32.toInt = n.toBitVec.toInt := rfl
  have hn : n.toBitVec.toNat = n.toNat := rfl
  rw [h, BitVec.toInt_eq_toNat_cond, hn]
  split_ifs <;> omega

theorem same_processBigfile (hok : ∀ n, env.ok n = env'.ok n) (hp : Measured p)
    (hstart : p.type ≠ tcpPacket3TypeBigfileStart) (hfrag : p.type ≠ tcpPacket3TypeBigfileFrag)
    (hend : p.type = tcpPacket3TypeBigfileEnd → p.dataSize ≠ 0 → 2 ≤ (extracted p).length)
    (st : BigfileState) : Runs Eq Eq (processBigfile env st p) (processBigfile env' st p) := by
  refine Runs.bind (same_receiveBigfileFromPacket hok hp hstart hfrag hend st) fun r r' hr => ?_
  obtain ⟨ret, out, st₁⟩ := r
  obtain ⟨ret', out', st₂⟩ := r'
  obtain rfl : ret = ret' := hr.ret
  obtain rfl : st₁ = st₂ := hr.state
  dsimp only
  rw [← hr.out.size]
  exact Runs.ite (fun _ => Runs.bind (same_showFile hr.out.name hr.out.file
    ((toInt32_le _).trans hr.out.le)) fun _ _ _ => Runs.pure rfl) fun _ => Runs.pure rfl

end Same

section Quiet

def Quiet (w w' : World) : Prop := w'.console = w.console ∧ w.next ≤ w'.next

instance : HeapFrame Quiet where
  refl _ := ⟨rfl, le_rfl⟩
  trans _ _ _ h h' := ⟨h'.1.trans h.1, h.2.trans h'.2⟩
  next _ := ⟨rfl, Nat.le_succ _⟩
  frees _ _ := ⟨rfl, le_rfl⟩

theorem quiet_sendTcpPacket3 (p : TcpPacket3) : Moves Quiet (sendTcpPacket3 p) :=
  holds_sendTcpPacket3_of (Q := .moves Quiet) (moves_wizSendb_of fun _ _ _ => ⟨rfl, le_rfl⟩) p

variable {env : HeapEnv} {p : TcpPacket3}

/-- Only an end packet hands out a file. -/
theorem receiveBigfileFromPacket_pending {st : BigfileState} {args : BigfileArgs} {w w' : World}
    {r : Int × BigfileOut × BigfileState} (ht : p.type ≠ tcpPacket3TypeBigfileEnd)
    (h : receiveBigfileFromPacket env st (some p) args w = .ok r w') : r.1 ≠ 0 := by
  have hspec := receiveBigfileFromPacket_spec env w st (some p) args
  rw [h] at hspec
  cases hspec with
  | idle => exact (by decide : (-1 : Int) ≠ 0)
  | drop => exact (by decide : (-1 : Int) ≠ 0)
  | start => exact Int.one_ne_zero
  | deliver _ hcall _ =>
    rcases hcall with ⟨hp, -⟩ | ⟨q, hp, hq, -⟩
    · simp at hp
    · obtain rfl := Option.some.inj hp
      exact absurd hq.type ht
  | reject => exact (by decide : (-1 : Int) ≠ 0)
  | accept => exact Int.one_ne_zero

theorem quiet_processBigfile (st : BigfileState) (ht : p.type ≠ tcpPacket3TypeBigfileEnd) :
    Moves Quiet (processBigfile env st p) := by
  intro w
  have hm := holds_receiveBigfileFromPacket (Q := .moves Quiet) env st (some p)
    ⟨true, true, true⟩ w
  rw [processBigfile, bind_apply]
  cases hx : receiveBigfileFromPacket env st (some p) ⟨true, true, true⟩ w with
  | error e w₁ =>
    rw [hx] at hm
    exact hm
  | ok r w₁ =>
    rw [hx] at hm
    have hne := receiveBigfileFromPacket_pending ht hx
    dsimp only
    rw [if_neg hne]
    exact hm

end Quiet

section Output

variable {env env' : HeapEnv} {p : TcpPacket3}

def SameConsole (w w' : World) : Prop := w.console = w'.console

theorem shows_processPacketType (hok : ∀ n, env.ok n = env'.ok n) (hp : Measured p)
    (hprint : Printable p) (st : BigfileState) (addr : Nat) (phead : List (Block TcpPacket3)) :
    Ends Eq SameConsole (do let st ← processPacketType env st p; free addr; pure (phead, st))
      (do let st ← processPacketType env' st p; free addr; pure (phead, st)) := by
  -- These two may leave other statics over another heap, but print nothing.
  by_cases hquiet : p.type = tcpPacket3TypeBigfileStart ∨ p.type = tcpPacket3TypeBigfileFrag
  · have hmove : ∀ e : HeapEnv, Moves Quiet
        (do let st ← processPacketType e st p; free addr; pure (phead, st)) := by
      intro e
      have hne : p.type ≠ tcpPacket3TypeCmdline ∧ p.type ≠ tcpPacket3TypeSmallfile ∧
          p.type ≠ tcpPacket3TypeBigfileEnd := by
        rcases hquiet with ht | ht <;> rw [ht] <;> decide
      rw [processPacketType, if_neg hne.1, if_neg hne.2.1]
      exact .bind (.ite (quiet_processBigfile st hne.2.2) (.pure _)) fun _ =>
        .bind (HeapHabit.free (Q := .moves Quiet) _) fun _ => .pure _
    rintro w _ rfl
    exact (hmove env w).1.trans (hmove env' w).1.symm
  · obtain ⟨hstart, hfrag⟩ := not_or.mp hquiet
    have htype : Runs Eq Eq (processPacketType env st p) (processPacketType env' st p) := by
      refine Runs.ite (fun ht => ?_) fun _ => Runs.ite (fun _ => ?_) fun _ =>
        Runs.ite (fun _ => same_processBigfile hok hp hstart hfrag hprint.bigfileEnd st) fun _ =>
          Runs.pure rfl
      · exact Runs.bind (same_processCmdline hok hp (hprint.cmdline ht)) fun _ _ _ => Runs.pure rfl
      · exact Runs.bind (same_processSmallfile hok hp) fun _ _ _ => Runs.pure rfl
    refine (Runs.bind (S := Eq) htype fun a b hab => ?_).ends fun _ _ h => congrArg World.console h
    subst hab
    exact Runs.refl _

theorem shows_tcpPacket3Processor (hok : ∀ n, env.ok n = env'.ok n) (hp : Measured p)
    (hprint : Printable p) (st : BigfileState) (addr : Nat) (phead : List (Block TcpPacket3))
    (w : World) : printedBy env st (⟨addr, p⟩ :: phead) w =
      printedBy env' st (⟨addr, p⟩ :: phead) w := by
  have hcon : ∀ w w' : World, w = w' → SameConsole w w' := fun _ _ h => congrArg World.console h
  obtain ⟨console, lines, hproc⟩ := tcpPacket3Processor_printed ⟨addr, p⟩ w
  rw [printedBy, printedBy, hproc, hproc]
  exact Runs.bind_ends (same_echoPlainPacket hok hp hprint.dump) hcon
    (fun _ _ _ => shows_processPacketType hok hp hprint st addr phead) _ _ rfl

end Output

end NucleoW5500
