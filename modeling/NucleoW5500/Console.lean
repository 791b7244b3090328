import NucleoW5500.Spills

/-! What `tcp_packet3_processor` prints stays within the packet exactly when an encrypted
packet fills the dump, a command line has its terminator and an end packet its two bytes. -/

namespace NucleoW5500

open CString Lockstep

/-- The block that `shown` picks from the result starts with bytes that are stored there
whatever the heap held before, and no byte behind them is printed. -/
def Within {α : Type} (get : HeapEnv → CM α) (shown : α → Option (Buf × Nat)) : Prop :=
  ∃ bs, ∀ env w a w' b n, get env w = .ok a w' → shown a = some (b, n) →
    Filled env bs b ∧ n ≤ bs.length

def shownDump (r : Option Buf) : Option (Buf × Nat) := r.map fun buf => (buf, 40)

/-- `%s` reads the terminator, too. -/
def shownCmdline (r : Option Buf) : Option (Buf × Nat) :=
  r.map fun buf => (buf, strlen buf.mem 0 + 1)

def shownSmallfile (r : Int × Option Buf × Option Buf) : Option (Buf × Nat) :=
  if r.1 > 0 then r.2.2.map fun file => (file, r.1.toNat) else none

def shownBigfile (r : Int × BigfileOut × BigfileState) : Option (Buf × Nat) :=
  if r.1 = 0 then r.2.1.file.map fun file => (file, (r.2.1.size.getD 0).toInt32.toInt.toNat)
  else none

/-- The output is a function of the packet and the transfer, and each of the five places that
print reads stored bytes. `alloc_tcp_packet3_mem` clears four bytes behind the data. -/
structure ConsoleContained (p : TcpPacket3) : Prop where
  output : ∀ env env' : HeapEnv, (∀ n, env.ok n = env'.ok n) → ∀ addr st phead w,
    printedBy env st (⟨addr, p⟩ :: phead) w = printedBy env' st (⟨addr, p⟩ :: phead) w
  record : getPacketContentsBuf p + min 40 p.dataSize.toNat ≤ p.data.length + 4
  dump : isPacketEncrypted p = true → Within (extractPacketContents · p) shownDump
  cmdline : Within (getCmdlineFromPacket · p) shownCmdline
  smallfile : Within (getFileFromPacket · p) shownSmallfile
  bigfile : ∀ st, Within (receiveBigfileFromPacket · st (some p) ⟨true, true, true⟩) shownBigfile

section Stores

variable {p : TcpPacket3}

theorem within_of_runs {α : Type} {get : HeapEnv → CM α} {shown : α → Option (Buf × Nat)}
    {R : HeapEnv → α → α → Prop} (bs : List UInt8)
    (hrun : ∀ env, Runs Eq (R env) (get env) (get env))
    (hshown : ∀ env a b n, R env a a → shown a = some (b, n) → Filled env bs b ∧ n ≤ bs.length) :
    Within get shown :=
  ⟨bs, fun env _ a _ b n hget hs => hshown env a b n ((hrun env).self hget) hs⟩

theorem within_dump (hp : Measured p) (horg : 40 ≤ p.orgSize.toNat) :
    Within (extractPacketContents · p) shownDump := by
  have hlen := hp.orgSize
  refine within_of_runs (extracted p) (fun env => hp.twin fun _ => rfl) fun env a b n ha hs => ?_
  cases ha with
  | none => simp [shownDump] at hs
  | some hb =>
    simp only [shownDump, Option.map_some, Option.some.injEq, Prod.mk.injEq] at hs
    obtain ⟨rfl, rfl⟩ := hs
    exact ⟨hb.left, by omega⟩

theorem within_cmdline (hp : Measured p)
    (hnul : p.type = tcpPacket3TypeCmdline → p.dataSize ≠ 0 → 0 ∈ extracted p) :
    Within (getCmdlineFromPacket · p) shownCmdline := by
  by_cases hgo : p.type ≠ tcpPacket3TypeCmdline ∨ p.dataSize = 0
  · refine ⟨[], fun env w a w' b n hget hs => ?_⟩
    have hnone : getCmdlineFromPacket env p = pure none := if_pos hgo
    dsimp only at hget
    rw [hnone] at hget
    cases hget
    simp [shownCmdline] at hs
  · obtain ⟨ht, hz⟩ := not_or.mp hgo
    obtain ⟨s, t, hst, hfree⟩ := List.eq_append_cons_of_mem (hnul (not_not.mp ht) hz)
    refine within_of_runs (extracted p) (fun env => same_getCmdlineFromPacket (fun _ => rfl) hp)
      fun env a b n ha hs => ?_
    cases ha with
    | none => simp [shownCmdline] at hs
    | some hb =>
      simp only [shownCmdline, Option.map_some, Option.some.injEq, Prod.mk.injEq] at hs
      obtain ⟨rfl, rfl⟩ := hs
      refine ⟨hb.left, ?_⟩
      rw [strlen, hb.left.cstr_eq hst hfree, hst, List.length_append, List.length_cons]
      omega

theorem within_smallfile (hp : Measured p) :
    Within (getFileFromPacket · p) shownSmallfile := by
  refine within_of_runs (smallfileBytes p) (fun env => same_getFileFromPacket (fun _ => rfl) hp)
    fun env a b n ha hs => ?_
  rw [shownSmallfile] at hs
  by_cases hpos : a.1 > 0
  · rw [if_pos hpos] at hs
    obtain ⟨file, hfile, heq⟩ := Option.map_eq_some_iff.mp hs
    obtain ⟨rfl, rfl⟩ := Prod.mk.inj heq
    have hrel := ha.file
    rw [hfile] at hrel
    cases hrel with
    | some hb => exact ⟨hb.left, ha.le⟩
  · simp [hpos] at hs

theorem within_bigfile (hp : Measured p)
    (hend : p.type = tcpPacket3TypeBigfileEnd → p.dataSize ≠ 0 → 2 ≤ (extracted p).length)
    (st : BigfileState) :
    Within (receiveBigfileFromPacket · st (some p) ⟨true, true, true⟩) shownBigfile := by
  by_cases ht : p.type = tcpPacket3TypeBigfileEnd
  · refine within_of_runs st.fileBytes (fun env => same_receiveBigfileFromPacket (fun _ => rfl) hp
      (by rw [ht]; decide) (by rw [ht]; decide) hend st) fun env a b n ha hs => ?_
    rw [shownBigfile] at hs
    by_cases hret : a.1 = 0
    · rw [if_pos hret] at hs
      obtain ⟨file, hfile, heq⟩ := Option.map_eq_some_iff.mp hs
      obtain ⟨rfl, rfl⟩ := Prod.mk.inj heq
      have hrel := ha.out.file
      rw [hfile] at hrel
      cases hrel with
      | some hb => exact ⟨hb.left, (toInt32_le _).trans ha.out.le⟩
    · simp [hret] at hs
  · refine ⟨[], fun env w a w' b n hget hs => ?_⟩
    rw [shownBigfile, if_neg (receiveBigfileFromPacket_pending ht hget)] at hs
    cases hs

theorem Printable.contained (hprint : Printable p) (hp : Measured p) : ConsoleContained p where
  output _ _ hok addr st phead w := shows_tcpPacket3Processor hok hp hprint st addr phead w
  record := by
    have hflags : getPacketContentsBuf p ≤ 4 := by
      rw [getPacketContentsBuf, tcpPacket3DataChecksumLen, tcpPacket3DataSizeLen]
      split_ifs <;> omega
    rw [hp.whole]
    omega
  dump he := within_dump hp (hprint.dump he)
  cmdline := within_cmdline hp hprint.cmdline
  smallfile := within_smallfile hp
  bigfile := within_bigfile hp hprint.bigfileEnd

end Stores

section Spills

variable {p : TcpPacket3}

theorem not_contained_of_dump (hp : Whole p) (hm : Measured p) (he : isPacketEncrypted p = true)
    (hlt : p.orgSize.toNat < 40) : ¬ ConsoleContained p := by
  intro h
  obtain ⟨console, hc⟩ := printedBy_dump hp hm.sized he
  have hsame := h.output (.only 0 40 0) (.only 0 40 1) (fun _ => rfl) 0 .start [] {}
  have hlen := hm.orgSize
  obtain ⟨k, hk⟩ : ∃ k, 40 - (extracted p).length = k + 1 :=
    ⟨39 - (extracted p).length, by omega⟩
  have hread : ∀ b, read (extracted p ++ (List.replicate 40 b).drop (extracted p).length) 0 40 =
      extracted p ++ List.replicate (k + 1) b := by
    intro b
    have hfull : (extracted p ++ List.replicate (k + 1) b).length = 40 := by
      rw [List.length_append, List.length_replicate]
      omega
    have hall := read_append_left (extracted p ++ List.replicate (k + 1) b) []
    rw [List.drop_replicate, hk]
    rwa [List.append_nil, hfull] at hall
  rw [hc, hc, hread, hread] at hsame
  have htail := List.append_cancel_left (List.append_cancel_left hsame)
  simp [List.replicate_succ] at htail

theorem not_contained_of_cmdline (hp : Whole p) (hm : Measured p)
    (ht : p.type = tcpPacket3TypeCmdline) (hnul : (0 : UInt8) ∉ extracted p) :
    ¬ ConsoleContained p := by
  intro h
  obtain ⟨console, hc⟩ := printedBy_cmdline hp hm.sized ht hnul
  have hsame := h.output
    (.only (if isPacketEncrypted p then 1 else 0) ((extracted p).length + 1) 1)
    (.only (if isPacketEncrypted p then 1 else 0) ((extracted p).length + 1) 2)
    (fun _ => rfl) 0 .start [] {}
  rw [hc 1 (by decide), hc 2 (by decide)] at hsame
  simp at hsame

theorem not_contained_of_end (hp : Whole p) (hm : Measured p) (he : isPacketEncrypted p = false)
    (ht : p.type = tcpPacket3TypeBigfileEnd) (hlt : (extracted p).length < 2) :
    ¬ ConsoleContained p := by
  intro h
  have hend := printedBy_end hp hm.sized he ht hlt
  rw [h.output (.filled 2 0) (.filled 2 1) fun _ => rfl] at hend
  simpa using congrArg List.length hend

end Spills

/-- Whatever bytes a packet of consistent lengths has: its output stays within it exactly
when it is printable. -/
theorem tcpPacket3Processor_console_iff (q : WirePacket) (hq : Consistent q.record) :
    ConsoleContained q.record ↔ Printable q.record := by
  have hm := hq.measured
  constructor
  · intro h
    have hlen := hm.orgSize
    have hdump : isPacketEncrypted q.record = true → 40 ≤ q.record.orgSize.toNat := by
      intro he
      by_contra hlt
      have horg := hq.orgSize he
      rw [getPacketContentsSize_eq] at horg
      have hz : q.record.dataSize ≠ 0 := by
        intro h0
        rw [h0, UInt16.toNat_zero] at horg
        omega
      exact not_contained_of_dump ⟨hm.whole, hz⟩ hm he (Nat.lt_of_not_le hlt) h
    refine ⟨hdump, fun ht hz => ?_, fun ht hz => ?_⟩
    · by_contra hnul
      exact not_contained_of_cmdline ⟨hm.whole, hz⟩ hm ht hnul h
    · by_contra hlt
      have he : isPacketEncrypted q.record = false := by
        rw [Bool.eq_false_iff]
        intro he
        have h40 := hdump he
        omega
      exact not_contained_of_end ⟨hm.whole, hz⟩ hm he ht (Nat.lt_of_not_le hlt) h
  · intro hprint
    exact hprint.contained hm

/-- `"hi"` with its terminator. -/
def hiCommand : WirePacket := ⟨tcpPacket3Version, 0, tcpPacket3TypeCmdline, [104, 105, 0], by decide⟩

theorem hiCommand_printable : Consistent hiCommand.record ∧ Printable hiCommand.record :=
  ⟨⟨by decide, by decide⟩, ⟨by decide, by decide, by decide⟩⟩

/-- The command is printed in the same way over all heaps. -/
theorem tcpPacket3Processor_console_hi : Consistent hiCommand.record ∧
    ConsoleContained hiCommand.record :=
  ⟨hiCommand_printable.1,
    (tcpPacket3Processor_console_iff hiCommand hiCommand_printable.1).mpr hiCommand_printable.2⟩

/-- The same command without a terminator. -/
def bareCommand : WirePacket := ⟨tcpPacket3Version, 0, tcpPacket3TypeCmdline, [104, 105], by decide⟩

/-- An end packet without a checksum type. -/
def bareEnd : WirePacket := ⟨tcpPacket3Version, 0, tcpPacket3TypeBigfileEnd, [7], by decide⟩

/-- Two letters in a dump of 40 bytes, a command line without an end and an end packet of one
byte: what is printed depends on what the buffers held before. -/
theorem tcpPacket3Processor_console_spills :
    (Consistent (encryptedLetters 2).record ∧
      printedBy .ample .start [⟨0, (encryptedLetters 2).record⟩] {} ≠
        printedBy (.filled 40 7) .start [⟨0, (encryptedLetters 2).record⟩] {}) ∧
    (Consistent bareCommand.record ∧
      printedBy .ample .start [⟨0, bareCommand.record⟩] {} = [104, 105, 104, 105, 13, 10] ∧
      printedBy (.filled 4 7) .start [⟨0, bareCommand.record⟩] {} =
        [104, 105, 104, 105, 7, 7, 13, 10]) ∧
    Consistent bareEnd.record ∧
      printedBy .ample (endState 7) [⟨0, bareEnd.record⟩] {} = [7, 0] ∧
      printedBy (.filled 4 7) (endState 7) [⟨0, bareEnd.record⟩] {} = [7] := by
  exact ⟨⟨⟨by decide, by decide⟩, by decide⟩, ⟨⟨by decide, by decide⟩, by decide, by decide⟩,
    ⟨by decide, by decide⟩, by decide, by decide⟩

end NucleoW5500
