import NucleoW5500.BigFileSteps
import NucleoW5500.Extraction
import NucleoW5500.Processor

/-! `get_file_from_packet` accepts the contents of a small file and nothing else. -/

namespace NucleoW5500

open CString

/-- A name, its terminator, a size and as many bytes, at least one. -/
structure SmallFile (contents name file : List UInt8) : Prop where
  noNul : (0 : UInt8) ∉ name
  nonempty : file ≠ []
  layout : contents = name ++ 0 :: (encode16 (UInt16.ofNat file.length) ++ file)

theorem encode16_decode16 (a b : UInt8) (t : List UInt8) :
    encode16 (decode16 (a :: b :: t) 0) = [a, b] := by
  have ha := a.toNat_lt
  have hb := b.toNat_lt
  rw [encode16, decode16_toNat]
  simp only [peek_cons_zero, peek_cons_succ, Nat.zero_add]
  congr 2
  · apply UInt8.toNat_inj.mp
    rw [UInt8.toNat_ofNat']
    omega
  · apply UInt8.toNat_inj.mp
    rw [UInt8.toNat_ofNat']
    omega

theorem sizedTail_iff {tl rest : List UInt8} :
    ((decode16 (tl ++ rest) 0).toNat : Int) = tl.length - 2 ↔
      ∃ file, file.length < 2 ^ 16 ∧ tl = encode16 (UInt16.ofNat file.length) ++ file := by
  constructor
  · intro h
    obtain ⟨a, b, file, rfl⟩ : ∃ a b file, tl = a :: b :: file := by
      match tl, h with
      | [], h => simp only [List.length_nil] at h; omega
      | [_], h => simp only [List.length_singleton] at h; omega
      | a :: b :: file, _ => exact ⟨a, b, file, rfl⟩
    have hsize : (decode16 (a :: b :: (file ++ rest)) 0).toNat = file.length := by
      simp only [List.cons_append, List.length_cons] at h
      omega
    have hlt := (decode16 (a :: b :: (file ++ rest)) 0).toNat_lt
    rw [hsize] at hlt
    refine ⟨file, hlt, ?_⟩
    rw [← hsize, UInt16.ofNat_toNat, encode16_decode16]
    rfl
  · rintro ⟨file, hlt, rfl⟩
    have hd := decode16_encode16 [] (UInt16.ofNat file.length) (file ++ rest)
    rw [List.nil_append, List.length_nil, ← List.append_assoc] at hd
    rw [hd, UInt16.toNat_ofNat', Nat.mod_eq_of_lt hlt, List.length_append, length_encode16]
    omega

theorem copySmallfile_mismatch {env : HeapEnv} {buf name : Buf} {contentsSize : Int} {k : Nat}
    {w : World}
    (h : ((convertBuf2short buf.mem k).toNat : Int) ≠ contentsSize - k - tcpPacket3DataSizeLen) :
    copySmallfile env buf name contentsSize k w =
      .ok (0, some name, none) { w with frees := buf.addr :: w.frees } := by
  rw [copySmallfile, if_pos h]
  rfl

theorem copySmallfile_match {env : HeapEnv} {buf name : Buf} {contentsSize : Int} {k n : Nat}
    {w : World} (hok : env.ok w.next = true) (hn : (convertBuf2short buf.mem k).toNat = n)
    (h : (n : Int) = contentsSize - k - tcpPacket3DataSizeLen) :
    copySmallfile env buf name contentsSize k w =
      .ok (n, some name, some ⟨w.next, n,
          read buf.mem (k + tcpPacket3DataSizeLen) n ++ (env.leftover w.next).drop n⟩)
        { w with next := w.next + 1, frees := buf.addr :: w.frees } := by
  have hlt := (convertBuf2short buf.mem k).toNat_lt
  rw [hn] at hlt
  have hsize : (UInt32.ofInt (n : Int)).toNat = n := by
    rw [UInt32.ofInt, UInt32.toNat_ofNat']
    omega
  have hcopy := @memcpy_ok ⟨w.next, n, env.leftover w.next⟩ buf.mem (k + tcpPacket3DataSizeLen) 0 n
    (by dsimp only; omega) { w with next := w.next + 1 }
  rw [overwrite_zero, length_read] at hcopy
  rw [copySmallfile, hn, if_neg (not_not.mpr h), CM.bind_ok (malloc_some hok), hsize]
  dsimp only
  rw [CM.bind_ok hcopy]
  rfl

/-- What the caller gets for a small file. -/
structure Handed (name file : List UInt8) (r : Int × Option Buf × Option Buf) : Prop where
  size : r.1 = file.length
  name : ∃ b, r.2.1 = some b ∧ b.size = name.length + 1 ∧ cstr b.mem 0 = name
  file : ∃ b, r.2.2 = some b ∧ b.size = file.length ∧ read b.mem 0 file.length = file

theorem SmallFile.unique {contents name name' file file' : List UInt8}
    (h : SmallFile contents name file) (h' : SmallFile contents name' file') :
    name = name' ∧ file = file' := by
  obtain ⟨hname, htl⟩ := eq_of_append_zero h.noNul h'.noNul (h.layout.symm.trans h'.layout)
  exact ⟨hname, (List.append_inj htl (by simp)).2⟩

section Behind

variable {name tl file : List UInt8} (rest : List UInt8)

theorem SmallFile.tail {n f : List UInt8} (hname : (0 : UInt8) ∉ name)
    (h : SmallFile (name ++ 0 :: tl) n f) : tl = encode16 (UInt16.ofNat f.length) ++ f :=
  (eq_of_append_zero hname h.noNul h.layout).2

theorem convertBuf2short_behind : convertBuf2short ((name ++ 0 :: tl) ++ rest) (name.length + 1) =
    decode16 (tl ++ rest) 0 := by
  have hmem : (name ++ 0 :: tl) ++ rest = name ++ [0] ++ (tl ++ rest) := by simp
  have hbehind : name.length + 1 = (name ++ [0]).length := by simp
  rw [convertBuf2short, hmem, hbehind]
  exact decode16_append _ _ 0

theorem read_behind {size : UInt16} (htl : tl = encode16 size ++ file) :
    read ((name ++ 0 :: tl) ++ rest) (name.length + 1 + tcpPacket3DataSizeLen) file.length =
      file := by
  have hsplit : (name ++ 0 :: tl) ++ rest = (name ++ 0 :: encode16 size) ++ (file ++ rest) := by
    rw [htl]
    simp
  have hat : name.length + 1 + tcpPacket3DataSizeLen = (name ++ 0 :: encode16 size).length := by
    simp [tcpPacket3DataSizeLen]
  rw [hsplit, hat]
  exact read_middle _ _ _

end Behind

theorem copySmallfile_judges {env : HeapEnv} {name tl rest : List UInt8} {addr size : Nat}
    {b : Buf} {w : World} (hok : env.ok w.next = true) (hname : (0 : UInt8) ∉ name)
    (hlt : (name ++ 0 :: tl).length < 2 ^ 16) (hsize : b.size = name.length + 1)
    (hcstr : cstr b.mem 0 = name) :
    ∃ r w', copySmallfile env ⟨addr, size, (name ++ 0 :: tl) ++ rest⟩ b
        ((name ++ 0 :: tl).length : Int) (name.length + 1) w = .ok r w' ∧
      (r.1 = 0 ∧ (¬ ∃ n f, SmallFile (name ++ 0 :: tl) n f) ∨
        ∃ n f, SmallFile (name ++ 0 :: tl) n f ∧ Handed n f r) := by
  have hdec := @convertBuf2short_behind name tl rest
  have hlen : (name ++ 0 :: tl).length = name.length + 1 + tl.length := by
    rw [List.length_append, List.length_cons]
    omega
  have hsub : ((name ++ 0 :: tl).length : Int) - (name.length + 1 : Nat) -
      tcpPacket3DataSizeLen = tl.length - 2 := by
    rw [hlen, tcpPacket3DataSizeLen]
    omega
  by_cases hfit : ((decode16 (tl ++ rest) 0).toNat : Int) = tl.length - 2
  · obtain ⟨file, hflt, htl⟩ := sizedTail_iff.mp hfit
    have htlen : tl.length = 2 + file.length := by rw [htl, List.length_append, length_encode16]
    have hmatch := @copySmallfile_match env ⟨addr, size, (name ++ 0 :: tl) ++ rest⟩ b
      ((name ++ 0 :: tl).length : Int) (name.length + 1) file.length w hok
      (by rw [hdec]; omega) (by rw [hsub]; omega)
    rw [read_behind rest htl] at hmatch
    refine ⟨_, _, hmatch, ?_⟩
    by_cases hne : file = []
    · left
      refine ⟨by simp [hne], ?_⟩
      rintro ⟨n, f, h⟩
      have hl := congrArg List.length (h.tail hname)
      rw [htlen, hne, List.length_append, length_encode16, List.length_nil] at hl
      exact h.nonempty (List.length_eq_zero_iff.mp (by omega))
    · right
      exact ⟨name, file, ⟨hname, hne, by rw [htl]⟩, rfl, ⟨_, rfl, hsize, hcstr⟩, _, rfl, rfl,
        read_append_left file _⟩
  · have hmiss := @copySmallfile_mismatch env ⟨addr, size, (name ++ 0 :: tl) ++ rest⟩ b
      ((name ++ 0 :: tl).length : Int) (name.length + 1) w (by rw [hdec, hsub]; exact hfit)
    refine ⟨_, _, hmiss, Or.inl ⟨rfl, ?_⟩⟩
    rintro ⟨n, f, h⟩
    have htl := h.tail hname
    have hflt : f.length < 2 ^ 16 := by
      rw [hlen, htl, List.length_append] at hlt
      omega
    exact hfit (sizedTail_iff.mpr ⟨f, hflt, htl⟩)

theorem getFileFromPacket_judges {env : HeapEnv} {p : TcpPacket3} {contents : List UInt8}
    {w : World} (hok : ∀ n, env.ok n = true) (ht : p.type = tcpPacket3TypeSmallfile)
    (hz : p.dataSize ≠ 0) {addr size : Nat} {rest : List UInt8} {w₁ : World}
    (hx : extractPacketContents env p w = .ok (some ⟨addr, size, contents ++ rest⟩) w₁)
    (hlen : getPacketPlainContentsSize p = contents.length) :
    ∃ r w', getFileFromPacket env p w = .ok r w' ∧
      (r.1 = 0 ∧ (¬ ∃ name file, SmallFile contents name file) ∨
        ∃ name file, SmallFile contents name file ∧ Handed name file r) := by
  have hlt : contents.length < 2 ^ 16 := by
    have := p.orgSize.toNat_lt
    rw [getPacketPlainContentsSize] at hlen
    omega
  have hsize : sizeT (contents.length : Int) = contents.length := by
    rw [sizeT, UInt32.ofInt, UInt32.toNat_ofNat']
    omega
  have hgo : ¬ (p.type ≠ tcpPacket3TypeSmallfile ∨ p.dataSize = 0) := by simp [ht, hz]
  rw [getFileFromPacket, if_neg hgo, CM.bind_ok hx]
  dsimp only
  rw [hlen, hsize]
  cases hk : memchr (contents ++ rest) 0 0 contents.length with
  | none =>
    have hno := (@memchr_append_eq_none [] contents rest 0).mp hk
    refine ⟨_, _, rfl, Or.inl ⟨rfl, ?_⟩⟩
    rintro ⟨name, file, h⟩
    exact hno (by rw [h.layout]; simp)
  | some k =>
    obtain ⟨name, tl, rfl, hname, hkn⟩ := (@memchr_append_eq_some [] contents rest 0 k).mp hk
    rw [List.length_nil, Nat.zero_add] at hkn
    subst hkn
    have hstr : min (name.length + 1) (strlen ((name ++ 0 :: tl) ++ rest) 0) = name.length := by
      have h := @strlen_append [] name (tl ++ rest) hname
      rw [List.nil_append, List.length_nil] at h
      rw [List.append_assoc, List.cons_append, h]
      omega
    have hread : read ((name ++ 0 :: tl) ++ rest) 0 name.length = name := by
      rw [List.append_assoc]
      exact read_append_left name _
    have hdup := @strndup_ok env ((name ++ 0 :: tl) ++ rest) 0 (name.length + 1) name.length w₁
      (hok _) hstr (by rw [List.length_append] at hlt; omega)
    rw [hread] at hdup
    dsimp only
    rw [CM.bind_ok hdup]
    exact copySmallfile_judges (hok _) hname hlt rfl (@cstr_append [] name _ hname)

theorem getFileFromPacket_accepts_iff {env : HeapEnv} (hok : ∀ n, env.ok n = true)
    {q : WirePacket} (ht : q.type = tcpPacket3TypeSmallfile)
    (he : isPacketEncrypted q.record = false)
    (hk : getPacketContentsBuf q.record ≤ q.data.length) (w : World) :
    ∃ r w', getFileFromPacket env q.record w = .ok r w' ∧
      (0 < r.1 ↔ ∃ name file, SmallFile (extracted q.record) name file) ∧
      (∀ name file, SmallFile (extracted q.record) name file → Handed name file r) ∧
      ((¬ ∃ name file, SmallFile (extracted q.record) name file) → r.1 = 0) := by
  have hr := q.received_record
  obtain ⟨r, w', hrun, hjudge⟩ : ∃ r w', getFileFromPacket env q.record w = .ok r w' ∧
      (r.1 = 0 ∧ (¬ ∃ name file, SmallFile (extracted q.record) name file) ∨
        ∃ name file, SmallFile (extracted q.record) name file ∧ Handed name file r) := by
    by_cases hnil : q.data = []
    · have hz : q.record.dataSize = 0 := by
        apply UInt16.toNat_inj.mp
        rw [hr.dataSize, hnil]
        rfl
      rw [getFileFromPacket, if_pos (Or.inr hz)]
      refine ⟨_, _, rfl, Or.inl ⟨rfl, ?_⟩⟩
      rintro ⟨name, file, h⟩
      have hl := h.layout
      rw [extracted, hr.data, hnil, List.drop_nil] at hl
      simp at hl
    · have hp := WirePacket.whole hnil
      have hs : Sized q.record := by
        rw [Sized, he, hr.dataSize]
        exact hk
      exact getFileFromPacket_judges hok (hr.type.trans ht) hp.pos
        (extractPacketContents_ok hp hs (hok _)) (plain_contentsSize he hk)
  refine ⟨r, w', hrun, ?_⟩
  rcases hjudge with ⟨hzero, hno⟩ | ⟨name, file, hfile, hhand⟩
  · refine ⟨⟨fun h => ?_, fun h => absurd h hno⟩, fun name file h => ?_, fun _ => hzero⟩
    · exact absurd hzero (ne_of_gt h)
    · exact absurd ⟨name, file, h⟩ hno
  · refine ⟨⟨fun _ => ⟨name, file, hfile⟩, fun _ => ?_⟩, fun name' file' h => ?_,
      fun hno => absurd ⟨name, file, hfile⟩ hno⟩
    · rw [hhand.size]
      exact_mod_cast List.length_pos_iff.mpr hfile.nonempty
    · obtain ⟨rfl, rfl⟩ := hfile.unique h
      exact hhand

/-- A file `"n"` of the two bytes 1 and 2. -/
theorem getFileFromPacket_accepts_small :
    ∃ r w', getFileFromPacket .ample
        (⟨1, 0, tcpPacket3TypeSmallfile, [110, 0, 2, 0, 1, 2], by decide⟩ : WirePacket).record {} =
          .ok r w' ∧ Handed [110] [1, 2] r := by
  obtain ⟨r, w', hrun, -, hhand, -⟩ := @getFileFromPacket_accepts_iff .ample (fun _ => rfl)
    ⟨1, 0, tcpPacket3TypeSmallfile, [110, 0, 2, 0, 1, 2], by decide⟩ rfl (by decide) (by decide) {}
  exact ⟨r, w', hrun, hhand _ _ ⟨by decide, by decide, by decide⟩⟩

end NucleoW5500
