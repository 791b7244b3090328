import NucleoW5500.BigFileSteps
import NucleoW5500.Extraction

/-! When `alloc_bigfile_info_from_packet` accepts the three fields of a start packet and
nothing else. The bounds of its second and third `memchr` are those of the first. -/

namespace NucleoW5500

open CString

/-- What `atoi` makes of a field. -/
def fieldValue (field : List UInt8) : UInt32 := UInt32.ofInt (atoi field 0)

/-- An id and three terminated fields: the name, the size and the count. -/
inductive StartFields : List UInt8 → BigfileInfo → Prop
  | intro {id : UInt8} {name size count tl : List UInt8} : (0 : UInt8) ∉ name →
      (0 : UInt8) ∉ size → (0 : UInt8) ∉ count →
      StartFields (id :: (name ++ 0 :: (size ++ 0 :: (count ++ 0 :: tl))))
        ⟨id, name, fieldValue size, fieldValue count⟩

theorem lt_sizeT {i : Nat} {m : Int} (hi : i < 2 ^ 31) (hlo : -2 ^ 31 ≤ m) (hhi : m < 2 ^ 31) :
    i < sizeT m ↔ m < 0 ∨ (i : Int) < m := by
  rw [sizeT, UInt32.ofInt, UInt32.toNat_ofNat']
  omega

section Parse

variable {id : UInt8} {name size count t rest : List UInt8} {m : Int}

theorem parseBigfileInfo_fields (hname : (0 : UInt8) ∉ name) (hsize : (0 : UInt8) ∉ size)
    (hcount : (0 : UInt8) ∉ count) (h₁ : name.length < sizeT (m - 1))
    (h₂ : size.length < sizeT (m - 1 - name.length))
    (h₃ : count.length < sizeT (m - 1 - name.length)) :
    parseBigfileInfo (id :: (name ++ 0 :: (size ++ 0 :: (count ++ 0 :: t)))) m =
      some ⟨id, name, fieldValue size, fieldValue count⟩ := by
  have e₂ : id :: (name ++ 0 :: (size ++ 0 :: (count ++ 0 :: t))) =
      (id :: (name ++ [0])) ++ (size ++ 0 :: (count ++ 0 :: t)) := by simp
  have e₃ : id :: (name ++ 0 :: (size ++ 0 :: (count ++ 0 :: t))) =
      (id :: (name ++ 0 :: (size ++ [0]))) ++ (count ++ 0 :: t) := by simp
  have a₂ : (id :: (name ++ [0])).length = 1 + name.length + 1 := by simp; omega
  have a₃ : (id :: (name ++ 0 :: (size ++ [0]))).length =
      1 + name.length + 1 + size.length + 1 := by simp; omega
  have hc₁ := @memchr_append [id] name (size ++ 0 :: (count ++ 0 :: t)) 0 _ hname h₁
  have hc₂ := @memchr_append (id :: (name ++ [0])) size (count ++ 0 :: t) 0 _ hsize h₂
  have hc₃ := @memchr_append (id :: (name ++ 0 :: (size ++ [0]))) count t 0 _ hcount h₃
  have hl := @strlen_append [id] name (size ++ 0 :: (count ++ 0 :: t)) hname
  have hn := @cstr_append [id] name (size ++ 0 :: (count ++ 0 :: t)) hname
  have hs := atoi_append (id :: (name ++ [0])) size (count ++ 0 :: t)
  have hc := atoi_append (id :: (name ++ 0 :: (size ++ [0]))) count t
  rw [← e₂, a₂] at hc₂ hs
  rw [← e₃, a₃] at hc₃ hc
  rw [List.singleton_append, List.length_singleton] at hc₁ hl hn
  simp only [parseBigfileInfo, hc₁, hl, hc₂, hc₃, hn, hs, hc, peek_cons_zero, fieldValue]

theorem parseBigfileInfo_noName (hname : (0 : UInt8) ∉ name) (h : sizeT (m - 1) ≤ name.length) :
    parseBigfileInfo (id :: (name ++ rest)) m = none := by
  have hc := @memchr_within [id] name rest 0 _ h hname
  rw [List.singleton_append, List.length_singleton] at hc
  simp only [parseBigfileInfo, hc]

theorem parseBigfileInfo_noSize (hname : (0 : UInt8) ∉ name) (hsize : (0 : UInt8) ∉ size)
    (h : sizeT (m - 1 - name.length) ≤ size.length) :
    parseBigfileInfo (id :: (name ++ 0 :: (size ++ rest))) m = none := by
  by_cases h₁ : name.length < sizeT (m - 1)
  · have e₂ : id :: (name ++ 0 :: (size ++ rest)) = (id :: (name ++ [0])) ++ (size ++ rest) := by
      simp
    have a₂ : (id :: (name ++ [0])).length = 1 + name.length + 1 := by simp; omega
    have hc₁ := @memchr_append [id] name (size ++ rest) 0 _ hname h₁
    have hl := @strlen_append [id] name (size ++ rest) hname
    have hc₂ := @memchr_within (id :: (name ++ [0])) size rest 0 _ h hsize
    rw [← e₂, a₂] at hc₂
    rw [List.singleton_append, List.length_singleton] at hc₁ hl
    simp only [parseBigfileInfo, hc₁, hl, hc₂]
  · exact parseBigfileInfo_noName hname (Nat.le_of_not_lt h₁)

end Parse

section Alloc

variable {env : HeapEnv} {p : TcpPacket3} {mem : List UInt8} {size : Nat} {w w₁ : World}

theorem allocBigfileInfoFromPacket_none
    (hx : extractPacketContents env p w = .ok (some ⟨w.next, size, mem⟩) w₁)
    (hparse : parseBigfileInfo mem (getPacketPlainContentsSize p) = none) :
    ∃ w', allocBigfileInfoFromPacket env p w = .ok none w' := by
  rw [allocBigfileInfoFromPacket, CM.bind_ok hx]
  dsimp only
  rw [hparse]
  exact ⟨_, rfl⟩

theorem allocBigfileInfoFromPacket_some {info : BigfileInfo} (hok : env.ok w₁.next = true)
    (hx : extractPacketContents env p w = .ok (some ⟨w.next, size, mem⟩) w₁)
    (hparse : parseBigfileInfo mem (getPacketPlainContentsSize p) = some info) :
    ∃ w', bigfileBufOffset + info.filename.length + 1 ≤ info.memSize.toNat ∧
        allocBigfileInfoFromPacket env p w = .ok (some ⟨w₁.next, info.record⟩) w' ∨
      info.memSize.toNat < bigfileBufOffset + info.filename.length + 1 ∧
        allocBigfileInfoFromPacket env p w = .error (.fault .recordBounds) w' := by
  rw [allocBigfileInfoFromPacket, CM.bind_ok hx]
  dsimp only
  rw [hparse]
  dsimp only
  rw [CM.bind_ok (malloc_some hok), ofInt_memSize]
  dsimp only
  by_cases hfit : bigfileBufOffset + info.filename.length + 1 ≤ info.memSize.toNat
  · have hfill := @fillBigfileRecv_ok ⟨w₁.next, info.memSize.toNat, env.leftover w₁.next⟩ info rfl hfit
    rw [CM.bind_ok (hfill _)]
    exact ⟨_, Or.inl ⟨hfit, rfl⟩⟩
  · rw [Lockstep.bind_apply, fillBigfileRecv, if_pos (Nat.lt_of_not_le hfit)]
    exact ⟨_, Or.inr ⟨Nat.lt_of_not_le hfit, rfl⟩⟩

end Alloc

/-- With every allocation granted a record comes back for the contents that hold the three
fields and for no others, and it is made of them. Nothing here is said of the heap. -/
def StartExact (p : TcpPacket3) : Prop :=
  ∀ env w, (∀ n, env.ok n = true) → ∃ r w', allocBigfileInfoFromPacket env p w = .ok r w' ∧
    (r.isSome = true ↔ ∃ info, StartFields (extracted p) info) ∧
    ∀ info, StartFields (extracted p) info → r = some ⟨w.next + 1, info.record⟩

/-- The same of the parser alone, for any bytes behind the contents. -/
structure ParseExact (contents : List UInt8) (m : Int) : Prop where
  accepts : ∀ rest info, StartFields contents info →
    parseBigfileInfo (contents ++ rest) m = some info ∧
      bigfileBufOffset + info.filename.length + 1 ≤ info.memSize.toNat
  rejects : ∀ rest, (¬ ∃ info, StartFields contents info) →
    parseBigfileInfo (contents ++ rest) m = none

theorem allocBigfileInfoFromPacket_parsed {env : HeapEnv} {p : TcpPacket3} {mem : List UInt8}
    {size : Nat} {r : Option (Block BigfileRecv)} {w w₁ w' : World} (hok : env.ok w₁.next = true)
    (hx : extractPacketContents env p w = .ok (some ⟨w.next, size, mem⟩) w₁)
    (h : allocBigfileInfoFromPacket env p w = .ok r w') :
    r = none ∧ parseBigfileInfo mem (getPacketPlainContentsSize p) = none ∨
      ∃ info, parseBigfileInfo mem (getPacketPlainContentsSize p) = some info ∧
        bigfileBufOffset + info.filename.length + 1 ≤ info.memSize.toNat ∧
        r = some ⟨w₁.next, info.record⟩ := by
  cases hparse : parseBigfileInfo mem (getPacketPlainContentsSize p) with
  | none =>
    obtain ⟨w'', hnone⟩ := allocBigfileInfoFromPacket_none hx hparse
    rw [hnone] at h
    cases h
    exact Or.inl ⟨rfl, rfl⟩
  | some info =>
    obtain ⟨w'', ⟨hfit, hsome⟩ | ⟨-, herr⟩⟩ := allocBigfileInfoFromPacket_some hok hx hparse
    · rw [hsome] at h
      cases h
      exact Or.inr ⟨info, rfl, hfit, rfl⟩
    · rw [herr] at h
      cases h

theorem startExact_iff {p : TcpPacket3} (hp : Whole p) (hs : Sized p) :
    StartExact p ↔ ParseExact (extracted p) (getPacketPlainContentsSize p) := by
  constructor
  · intro h
    -- a heap whose leftover bytes behind the contents are the given ones
    have hrun : ∀ rest, ∃ r w', allocBigfileInfoFromPacket
        ⟨fun _ => true, fun _ => extracted p ++ rest⟩ p {} = .ok r w' ∧
        (r.isSome = true ↔ ∃ info, StartFields (extracted p) info) ∧
        (∀ info, StartFields (extracted p) info → r = some ⟨1, info.record⟩) ∧
        (r = none ∧ parseBigfileInfo (extracted p ++ rest) (getPacketPlainContentsSize p) = none ∨
          ∃ info, parseBigfileInfo (extracted p ++ rest) (getPacketPlainContentsSize p) =
            some info ∧ bigfileBufOffset + info.filename.length + 1 ≤ info.memSize.toNat ∧
            r = some ⟨1, info.record⟩) := by
      intro rest
      obtain ⟨r, w', hr, hiff, hrec⟩ := h ⟨fun _ => true, fun _ => extracted p ++ rest⟩ {}
        fun _ => rfl
      have hx := @extractPacketContents_ok ⟨fun _ => true, fun _ => extracted p ++ rest⟩ p {} hp hs
        rfl
      dsimp only at hx
      rw [List.drop_left] at hx
      exact ⟨r, w', hr, hiff, hrec, allocBigfileInfoFromPacket_parsed rfl hx hr⟩
    refine ⟨fun rest info hinfo => ?_, fun rest hno => ?_⟩
    · obtain ⟨r, w', -, -, hrec, hparsed⟩ := hrun rest
      obtain rfl := hrec info hinfo
      rcases hparsed with ⟨hnone, -⟩ | ⟨info', hparse, hfit, hsome⟩
      · cases hnone
      · have hval : info = info' := congrArg (fun b => b.val.toBigfileInfo) (Option.some.inj hsome)
        exact hval ▸ ⟨hparse, hfit⟩
    · obtain ⟨r, w', -, hiff, -, hparsed⟩ := hrun rest
      rcases hparsed with ⟨-, hnone⟩ | ⟨info, -, -, rfl⟩
      · exact hnone
      · exact absurd (hiff.mp rfl) hno
  · intro h env w hok
    have hx := extractPacketContents_ok hp hs (hok w.next)
    by_cases hinfo : ∃ info, StartFields (extracted p) info
    · obtain ⟨info, hfields⟩ := hinfo
      have hacc := h.accepts ((env.leftover w.next).drop (extracted p).length)
      obtain ⟨hparse, hfit⟩ := hacc info hfields
      obtain ⟨w', ⟨-, hr⟩ | ⟨hlt, -⟩⟩ := allocBigfileInfoFromPacket_some (hok _) hx hparse
      · refine ⟨_, w', hr, ⟨fun _ => ⟨info, hfields⟩, fun _ => rfl⟩, fun info' hfields' => ?_⟩
        rw [Option.some.inj (hparse.symm.trans (hacc info' hfields').1)]
      · exact absurd hfit (Nat.not_le.mpr hlt)
    · obtain ⟨w', hr⟩ := allocBigfileInfoFromPacket_none hx (h.rejects _ hinfo)
      refine ⟨none, w', hr, ⟨fun h => absurd h (by simp), fun h => absurd h hinfo⟩, ?_⟩
      exact fun info hfields => absurd ⟨info, hfields⟩ hinfo

/-- The terminators in the contents behind the id. -/
def terminators (contents : List UInt8) : Nat := contents.tail.count 0

/-- Contents of `n` bytes in a packet that announces `m` are judged by themselves when there
are all three terminators, or the searches find none and stop inside the contents. -/
def Conclusive (contents : List UInt8) (m : Nat) : Prop :=
  3 ≤ terminators contents ∨ terminators contents = 1 ∧ m < contents.length ∨
    terminators contents = 0 ∧ 1 ≤ m ∧ m ≤ contents.length

theorem count_zero_append {s t : List UInt8} (hs : (0 : UInt8) ∉ s) :
    (s ++ 0 :: t).count 0 = t.count 0 + 1 := by
  rw [List.count_append, List.count_eq_zero_of_not_mem hs, List.count_cons_self, Nat.zero_add]

theorem startFields_iff {id : UInt8} {t : List UInt8} :
    (∃ info, StartFields (id :: t) info) ↔ 3 ≤ terminators (id :: t) := by
  rw [terminators, List.tail_cons]
  constructor
  · rintro ⟨info, ⟨h₁, h₂, h₃⟩⟩
    rw [count_zero_append h₁, count_zero_append h₂, count_zero_append h₃]
    omega
  · intro h
    have hsplit : ∀ l : List UInt8, 1 ≤ l.count 0 → ∃ s u, l = s ++ 0 :: u ∧ (0 : UInt8) ∉ s :=
      fun l hl => List.eq_append_cons_of_mem (List.count_pos_iff.mp hl)
    obtain ⟨name, t₁, rfl, h₁⟩ := hsplit t (by omega)
    rw [count_zero_append h₁] at h
    obtain ⟨size, t₂, rfl, h₂⟩ := hsplit t₁ (by omega)
    rw [count_zero_append h₂] at h
    obtain ⟨count, tl, rfl, h₃⟩ := hsplit t₂ (by omega)
    exact ⟨_, .intro h₁ h₂ h₃⟩

section Judged

variable {contents : List UInt8} {m : Nat} (hlt : m < 2 ^ 16) (hm : contents.length ≤ m + 1)

include hlt hm

theorem parseBigfileInfo_accepts {info : BigfileInfo} (h : StartFields contents info)
    (rest : List UInt8) : parseBigfileInfo (contents ++ rest) m = some info := by
  obtain ⟨h₁, h₂, h₃⟩ := h
  rename_i id name size count tl
  have hcut : (id :: (name ++ 0 :: (size ++ 0 :: (count ++ 0 :: tl)))) ++ rest =
      id :: (name ++ 0 :: (size ++ 0 :: (count ++ 0 :: (tl ++ rest)))) := by simp
  simp only [List.length_cons, List.length_append] at hm
  rw [hcut]
  refine parseBigfileInfo_fields h₁ h₂ h₃ ?_ ?_ ?_
  · exact (lt_sizeT (by omega) (by omega) (by omega)).mpr (by omega)
  · exact (lt_sizeT (by omega) (by omega) (by omega)).mpr (by omega)
  · exact (lt_sizeT (by omega) (by omega) (by omega)).mpr (by omega)

theorem parseBigfileInfo_rejects (hpos : contents ≠ []) (hc : Conclusive contents m)
    (h : ¬ 3 ≤ terminators contents) (rest : List UInt8) :
    parseBigfileInfo (contents ++ rest) m = none := by
  obtain ⟨id, t, rfl⟩ := List.exists_cons_of_ne_nil hpos
  rw [Conclusive, terminators, List.tail_cons] at hc
  rw [terminators, List.tail_cons] at h
  simp only [List.length_cons] at hm hc
  rcases hc with hthree | ⟨hone, hlong⟩ | ⟨hzero, hm₁, hm₂⟩
  · exact absurd hthree h
  · obtain ⟨name, u, rfl, hname⟩ :=
      List.eq_append_cons_of_mem (List.count_pos_iff.mp (by omega : 0 < t.count 0))
    rw [count_zero_append hname] at hone
    have hu : (0 : UInt8) ∉ u := List.count_eq_zero.mp (by omega)
    simp only [List.length_cons, List.length_append] at hm hlong
    have hcut : (id :: (name ++ 0 :: u)) ++ rest = id :: (name ++ 0 :: (u ++ rest)) := by simp
    rw [hcut]
    refine parseBigfileInfo_noSize hname hu (Nat.le_of_not_lt fun hin => ?_)
    rcases (lt_sizeT (by omega) (by omega) (by omega)).mp hin with hin | hin <;> omega
  · have ht : (0 : UInt8) ∉ t := List.count_eq_zero.mp hzero
    refine parseBigfileInfo_noName ht (Nat.le_of_not_lt fun hin => ?_)
    rcases (lt_sizeT (by omega) (by omega) (by omega)).mp hin with hin | hin <;> omega

theorem parseBigfileInfo_escapes (hpos : contents ≠ []) (hc : ¬ Conclusive contents m) :
    (parseBigfileInfo (contents ++ [0, 0, 0]) m).isSome = true := by
  obtain ⟨id, t, rfl⟩ := List.exists_cons_of_ne_nil hpos
  rw [Conclusive, terminators, List.tail_cons] at hc
  simp only [List.length_cons] at hm hc
  by_cases ht : (0 : UInt8) ∈ t
  swap
  · rw [List.count_eq_zero_of_not_mem ht] at hc
    have hp := @parseBigfileInfo_fields id t [] [] [] m ht (by simp) (by simp)
      ((lt_sizeT (by omega) (by omega) (by omega)).mpr (by omega))
      ((lt_sizeT (by simp) (by omega) (by omega)).mpr (by simp; omega))
      ((lt_sizeT (by simp) (by omega) (by omega)).mpr (by simp; omega))
    simpa using congrArg Option.isSome hp
  obtain ⟨name, u, rfl, hname⟩ := List.eq_append_cons_of_mem ht
  rw [count_zero_append hname] at hc
  simp only [List.length_cons, List.length_append] at hm hc
  by_cases hu : (0 : UInt8) ∈ u
  swap
  · rw [List.count_eq_zero_of_not_mem hu] at hc
    have hp := @parseBigfileInfo_fields id name u [] [0] m hname hu (by simp)
      ((lt_sizeT (by omega) (by omega) (by omega)).mpr (by omega))
      ((lt_sizeT (by omega) (by omega) (by omega)).mpr (by omega))
      ((lt_sizeT (by simp) (by omega) (by omega)).mpr (by simp; omega))
    simpa using congrArg Option.isSome hp
  obtain ⟨size, v, rfl, hsize⟩ := List.eq_append_cons_of_mem hu
  rw [count_zero_append hsize] at hc
  simp only [List.length_cons, List.length_append] at hm hc
  have hv : (0 : UInt8) ∉ v := List.count_eq_zero.mp (by omega)
  have hp := @parseBigfileInfo_fields id name size v [0, 0] m hname hsize hv
    ((lt_sizeT (by omega) (by omega) (by omega)).mpr (by omega))
    ((lt_sizeT (by omega) (by omega) (by omega)).mpr (by omega))
    ((lt_sizeT (by omega) (by omega) (by omega)).mpr (by omega))
  simpa using congrArg Option.isSome hp

end Judged

theorem allocBigfileInfoFromPacket_exact_iff (q : WirePacket) (hq : q.data ≠ [])
    (hs : Sized q.record) (hpos : extracted q.record ≠ []) :
    StartExact q.record ↔
      Conclusive (extracted q.record) q.record.orgSize.toNat ∧
        ∀ info, StartFields (extracted q.record) info →
          bigfileBufOffset + info.filename.length + 1 ≤ info.memSize.toNat := by
  have hm := WirePacket.length_extracted_le hs
  have hlt : q.record.orgSize.toNat < 2 ^ 16 := q.record.orgSize.toNat_lt
  have hthree : (∃ info, StartFields (extracted q.record) info) ↔
      3 ≤ terminators (extracted q.record) := by
    obtain ⟨id, t, ht⟩ := List.exists_cons_of_ne_nil hpos
    rw [ht]
    exact startFields_iff
  rw [startExact_iff (WirePacket.whole hq) hs, getPacketPlainContentsSize]
  constructor
  · intro h
    refine ⟨?_, fun info hinfo => (h.accepts [] info hinfo).2⟩
    by_contra hc
    have hno : ¬ ∃ info, StartFields (extracted q.record) info :=
      fun hex => hc (Or.inl (hthree.mp hex))
    have hesc := parseBigfileInfo_escapes hlt hm hpos hc
    rw [h.rejects _ hno] at hesc
    cases hesc
  · rintro ⟨hc, hfit⟩
    exact ⟨fun rest info hinfo => ⟨parseBigfileInfo_accepts hlt hm hinfo rest, hfit info hinfo⟩,
      fun rest hno => parseBigfileInfo_rejects hlt hm hpos hc (fun h => hno (hthree.mpr h)) rest⟩

def startPacket (contents : List UInt8) (h : contents.length < 65536) : WirePacket :=
  ⟨tcpPacket3Version, tcpPacket3FlagNone, tcpPacket3TypeBigfileStart, contents, h⟩

/-- Transfer 7, a file `"f"` of two bytes in one fragment. -/
theorem allocBigfileInfoFromPacket_exact_one :
    StartExact (startPacket [7, 102, 0, 50, 0, 49, 0] (by decide)).record := by
  refine (allocBigfileInfoFromPacket_exact_iff _ (by decide) (by decide) (by decide)).mpr
    ⟨Or.inl (by decide), fun info h => ?_⟩
  have hp := @parseBigfileInfo_accepts [7, 102, 0, 50, 0, 49, 0] 7 (by decide) (by decide) info h []
  have hq : parseBigfileInfo ([7, 102, 0, 50, 0, 49, 0] ++ []) (7 : Nat) =
      some ⟨7, [102], 2, 1⟩ := by decide
  obtain rfl := Option.some.inj (hp.symm.trans hq)
  decide

/-- Without its count the packet is accepted if a zero byte lies behind it in the heap. -/
theorem allocBigfileInfoFromPacket_truncated :
    (∃ w', allocBigfileInfoFromPacket ⟨fun _ => true, fun _ => []⟩
        (startPacket [7, 102, 0, 50, 0] (by decide)).record {} =
          .ok (some ⟨1, BigfileInfo.record ⟨7, [102], 2, 0⟩⟩) w') ∧
      (∃ w', allocBigfileInfoFromPacket ⟨fun _ => true, fun _ => List.replicate 20 1⟩
        (startPacket [7, 102, 0, 50, 0] (by decide)).record {} = .ok none w') ∧
      ¬ ∃ info, StartFields [7, 102, 0, 50, 0] info := by
  refine ⟨⟨{ next := 2, frees := [0] }, by decide⟩, ⟨{ next := 1, frees := [0] }, by decide⟩, ?_⟩
  rw [startFields_iff]
  decide

end NucleoW5500
