import NucleoW5500.BigFileSteps
import NucleoW5500.Framer
import NucleoW5500.Frames

/-! What a wrong checksum changes. `tcp_packet3_processor` shows what
`veryfy_tcp_packet3_checksum` says, and goes on as it does with a right one. -/

namespace NucleoW5500

open CString Lockstep

/-- The packet with the checksum that it should have. -/
def TcpPacket3.repaired (p : TcpPacket3) : TcpPacket3 :=
  let checksum := calcChecksum p.data tcpPacket3DataChecksumLen
  { p with checksum, data := convertShort2buf checksum ++ p.data.drop tcpPacket3DataChecksumLen }

section Repaired

variable {p : TcpPacket3}

theorem drop_repaired (p : TcpPacket3) {i : Nat} (hi : 2 ≤ i) :
    p.repaired.data.drop i = p.data.drop i := by
  obtain ⟨k, rfl⟩ := Nat.exists_eq_add_of_le hi
  show (convertShort2buf _ ++ p.data.drop 2).drop (2 + k) = p.data.drop (2 + k)
  rw [← List.drop_drop, ← List.drop_drop]
  rfl

theorem peek_repaired (p : TcpPacket3) {i : Nat} (hi : 2 ≤ i) :
    peek p.repaired.data i = peek p.data i := by
  obtain ⟨k, rfl⟩ := Nat.exists_eq_add_of_le hi
  show peek (convertShort2buf _ ++ p.data.drop 2) (2 + k) = peek p.data (2 + k)
  have hskip := peek_append_add (convertShort2buf (calcChecksum p.data 2)) (p.data.drop 2) k
  refine hskip.trans ?_
  simp [peek, List.getD_eq_getElem?_getD]

theorem read_repaired (p : TcpPacket3) {i : Nat} (hi : 2 ≤ i) (n : Nat) :
    CString.read p.repaired.data i n = CString.read p.data i n := by
  unfold CString.read
  exact List.map_congr_left fun k _ => peek_repaired p (Nat.le_add_right_of_le hi)

theorem veryfy_repaired (hz : p.dataSize ≠ 0) (hflag : flagHasChecksum p.flag = true) :
    veryfyTcpPacket3Checksum p.repaired = true := by
  have hcheck : (decide (p.repaired.dataSize > 0) && flagHasChecksum p.repaired.flag) = true := by
    rw [Bool.and_eq_true, decide_eq_true_eq]
    exact ⟨UInt16.pos_iff_ne_zero.mpr hz, hflag⟩
  rw [veryfyTcpPacket3Checksum, if_pos hcheck, decide_eq_true_eq, calcChecksum,
    tcpPacket3DataChecksumLen, peek_repaired p le_rfl]
  rfl

theorem two_le_contentsBuf (hflag : flagHasChecksum p.flag = true) : 2 ≤ getPacketContentsBuf p := by
  rw [getPacketContentsBuf, if_pos hflag]
  exact Nat.le_add_right 2 _

theorem extractPacketContents_repaired (env : HeapEnv) (hflag : flagHasChecksum p.flag = true) :
    extractPacketContents env p.repaired = extractPacketContents env p := by
  have hbuf := two_le_contentsBuf hflag
  have hcopy : ∀ (dst : Buf) (i : Nat) (n : Int), 2 ≤ i →
      memcpy dst 0 p.repaired.data i n = memcpy dst 0 p.data i n := by
    intro dst i n hi
    rw [memcpy, memcpy, read_repaired p hi]
  have hdecrypt : ∀ (dst : Buf) (n : Int),
      decryptContents p.repaired.data (getPacketContentsBuf p) n dst =
        decryptContents p.data (getPacketContentsBuf p) n dst := by
    intro dst n
    rw [decryptContents, decryptContents, hcopy _ _ _ (Nat.le_add_right_of_le hbuf)]
  show (if p.dataSize = 0 then pure none else _) = _
  rw [extractPacketContents]
  by_cases hz : p.dataSize = 0
  · rw [if_pos hz, if_pos hz]
  rw [if_neg hz, if_neg hz]
  show (if isPacketEncrypted p then _ else _) = _
  dsimp only
  by_cases he : isPacketEncrypted p = true
  · rw [if_pos he, if_pos he]
    refine congrArg _ (funext fun r => ?_)
    cases r with
    | none => rfl
    | some buf => exact congrArg (· >>= _) (hdecrypt buf _)
  · rw [if_neg he, if_neg he]
    refine congrArg _ (funext fun r => ?_)
    cases r with
    | none => rfl
    | some buf => exact congrArg (· >>= _) (hcopy buf _ _ hbuf)

theorem echoPlainPacket_repaired (env : HeapEnv) (hflag : flagHasChecksum p.flag = true) :
    echoPlainPacket env p.repaired = echoPlainPacket env p := by
  rw [echoPlainPacket, echoPlainPacket, extractPacketContents_repaired env hflag]
  rfl

theorem getCmdlineFromPacket_repaired (env : HeapEnv) (hflag : flagHasChecksum p.flag = true) :
    getCmdlineFromPacket env p.repaired = getCmdlineFromPacket env p := by
  rw [getCmdlineFromPacket, getCmdlineFromPacket, extractPacketContents_repaired env hflag]
  rfl

theorem processSmallfile_repaired (env : HeapEnv) (hflag : flagHasChecksum p.flag = true) :
    processSmallfile env p.repaired = processSmallfile env p := by
  have hget : getFileFromPacket env p.repaired = getFileFromPacket env p := by
    rw [getFileFromPacket, getFileFromPacket, extractPacketContents_repaired env hflag]
    rfl
  rw [processSmallfile, processSmallfile, hget]

theorem receiveBigfileFromPacket_repaired (env : HeapEnv) (st : BigfileState) (args : BigfileArgs)
    (hflag : flagHasChecksum p.flag = true) :
    receiveBigfileFromPacket env st (some p.repaired) args =
      receiveBigfileFromPacket env st (some p) args := by
  have hstart : bigfileStart env st p.repaired = bigfileStart env st p := by
    rw [bigfileStart, bigfileStart, allocBigfileInfoFromPacket, allocBigfileInfoFromPacket,
      extractPacketContents_repaired env hflag]
    rfl
  rw [receiveBigfileFromPacket, receiveBigfileFromPacket, receiveBigfileFromPacketBy,
    receiveBigfileFromPacketBy, hstart,
    extractPacketContents_repaired env hflag]
  rfl

theorem processPacketType_repaired (env : HeapEnv) (st : BigfileState)
    (hflag : flagHasChecksum p.flag = true) (ht : p.type ≠ tcpPacket3TypeCmdline) :
    processPacketType env st p.repaired = processPacketType env st p := by
  have ht' : p.repaired.type ≠ tcpPacket3TypeCmdline := ht
  rw [processPacketType, processPacketType, if_neg ht, if_neg ht', processSmallfile_repaired env hflag,
    processBigfile, processBigfile, receiveBigfileFromPacket_repaired env st _ hflag]
  rfl

end Repaired

section Shown

/-- The line without the verdict and the checksum. -/
def Line.unchecked : Line → Line
  | .received size _ => .received size true
  | .packet version flag type dataSize checksum orgSize =>
    .packet version flag type dataSize (checksum.map fun _ => 0) orgSize

/-- The lines are the same but for the verdicts and checksums that they show. -/
def LinesAlike (ls ls' : List Line) : Prop := ls'.map Line.unchecked = ls.map Line.unchecked

theorem LinesAlike.append {ls ls' : List Line} (h : LinesAlike ls ls') {l l' : Line}
    (hl : l'.unchecked = l.unchecked) : LinesAlike (ls ++ [l]) (ls' ++ [l']) := by
  rw [LinesAlike, List.map_append, List.map_append, h, List.map_singleton, List.map_singleton, hl]

/-- The worlds differ only in the verdicts and checksums shown and, if anything is echoed, in
what the same number of bytes on the socket are. -/
def ShownApart (echoed : Prop) (w w' : World) : Prop :=
  ∃ lines sent, LinesAlike w.lines lines ∧ sent.length = w.sent.length ∧
    (¬ echoed → sent = w.sent) ∧ w' = { w with lines, sent }

variable {echoed : Prop}

theorem ShownApart.refl (w : World) : ShownApart echoed w w :=
  ⟨w.lines, w.sent, rfl, rfl, fun _ => rfl, rfl⟩

theorem ShownApart.txScript_eq {w w' : World} (h : ShownApart echoed w w') :
    w.txScript = w'.txScript := by
  obtain ⟨lines, sent, -, -, -, rfl⟩ := h
  rfl

theorem ShownApart.send {w w' : World} (h : ShownApart echoed w w') (es : List TxEvent)
    {bs bs' : List UInt8} (hlen : bs'.length = bs.length) (hsame : ¬ echoed → bs' = bs) :
    ShownApart echoed { w with txScript := es, sent := w.sent ++ bs }
      { w' with txScript := es, sent := w'.sent ++ bs' } := by
  obtain ⟨lines, sent, hlines, hsent, heq, rfl⟩ := h
  refine ⟨lines, sent ++ bs', hlines, ?_, fun hne => ?_, rfl⟩
  · rw [List.length_append, List.length_append, hsent, hlen]
  · rw [heq hne, hsame hne]

instance : WorldAlike (ShownApart echoed) where
  next_eq := by
    rintro w _ ⟨lines, sent, -, -, -, rfl⟩
    rfl
  next := by
    rintro w _ ⟨lines, sent, hlines, hlen, hsame, rfl⟩
    exact ⟨lines, sent, hlines, hlen, hsame, rfl⟩
  frees := by
    rintro w _ addr ⟨lines, sent, hlines, hlen, hsame, rfl⟩
    exact ⟨lines, sent, hlines, hlen, hsame, rfl⟩
  console := by
    rintro w _ f ⟨lines, sent, hlines, hlen, hsame, rfl⟩
    exact ⟨lines, sent, hlines, hlen, hsame, rfl⟩
  line := by
    rintro w _ l ⟨lines, sent, hlines, hlen, hsame, rfl⟩
    exact ⟨lines ++ [l], sent, hlines.append rfl, hlen, hsame, rfl⟩
  txScript_eq := ShownApart.txScript_eq
  send es _ h := h.send es rfl fun _ => rfl

theorem runs_printLine {l l' : Line} (h : l'.unchecked = l.unchecked) :
    Runs (ShownApart echoed) Eq (printLine l) (printLine l') := by
  rintro w _ ⟨lines, sent, hlines, hlen, hsame, rfl⟩
  exact .ok rfl ⟨lines ++ [l'], sent, hlines.append h, hlen, hsame, rfl⟩

variable {p : TcpPacket3}

theorem receivedLine_repaired (p : TcpPacket3) :
    (receivedLine p.repaired).unchecked = (receivedLine p).unchecked := by
  rw [receivedLine, receivedLine, Line.unchecked, Line.unchecked]
  rfl

theorem packetLine_repaired (hflag : flagHasChecksum p.flag = true) :
    (packetLine p.repaired).unchecked = (packetLine p).unchecked := by
  have hflag' : flagHasChecksum p.repaired.flag = true := hflag
  rw [packetLine, packetLine, if_pos hflag, if_pos hflag', Line.unchecked, Line.unchecked]
  rfl

theorem runs_printTcpPacket3_repaired (hflag : flagHasChecksum p.flag = true) (n : Int) :
    Runs (ShownApart echoed) Eq (printTcpPacket3 p n) (printTcpPacket3 p.repaired n) := by
  have hoffset : 2 ≤ (if flagHasChecksum p.flag then tcpPacket3DataChecksumLen else 0) +
      (if flagHasEncryption p.flag then tcpPacket3DataSizeLen else 0) := by
    rw [if_pos hflag]
    exact Nat.le_add_right 2 _
  refine .bind (runs_printLine (packetLine_repaired hflag)) fun _ _ _ => ?_
  show Runs (ShownApart echoed) Eq _ (if p.dataSize > 0 ∧ n > 0 then consoleWriteb
    (p.repaired.data.drop ((if flagHasChecksum p.flag then tcpPacket3DataChecksumLen else 0) +
      (if flagHasEncryption p.flag then tcpPacket3DataSizeLen else 0))) _ else pure ())
  rw [drop_repaired p hoffset]
  exact (Habit.same (ShownApart echoed)).ite (holds_consoleWriteb _ _) (Runs.pure rfl)

theorem runs_sendTcpPacket3_repaired (hecho : echoed) (p : TcpPacket3) :
    Runs (ShownApart echoed) Eq (sendTcpPacket3 p) (sendTcpPacket3 p.repaired) := by
  have hsend : ∀ buf buf' size,
      Runs (ShownApart echoed) Eq (wizSendb buf size) (wizSendb buf' size) := by
    refine fun buf buf' size => runs_wizSendb_of (fun _ _ h => h.txScript_eq) buf buf'
      (fun w w' es i n h => h.send es ?_ fun hne => absurd hecho hne) size
    rw [length_read, length_read]
  refine .bind (hsend _ _ _) fun ret _ hret => ?_
  subst hret
  refine .ite (fun _ => .pure rfl) fun _ => .ite (fun _ => ?_) fun _ => .pure rfl
  refine .bind (hsend _ _ _) fun ret _ hret => ?_
  subst hret
  exact .ite (fun _ => .pure rfl) fun _ => .pure rfl

theorem runs_echoPlainPacket_repaired (env : HeapEnv) (hflag : flagHasChecksum p.flag = true) :
    Runs (ShownApart echoed) Eq (echoPlainPacket env p) (echoPlainPacket env p.repaired) := by
  rw [echoPlainPacket_repaired env hflag]
  exact holds_echoPlainPacket (Q := .same (ShownApart echoed)) env p

theorem runs_processCmdline_repaired (env : HeapEnv) (hflag : flagHasChecksum p.flag = true)
    (hecho : echoed) :
    Runs (ShownApart echoed) Eq (processCmdline env p) (processCmdline env p.repaired) := by
  have hsend : Runs (ShownApart echoed) Eq (do let _ ← sendTcpPacket3 p; pure ())
      (do let _ ← sendTcpPacket3 p.repaired; pure ()) :=
    .bind (runs_sendTcpPacket3_repaired hecho p) fun _ _ _ => .pure rfl
  have hget : Runs (ShownApart echoed) Eq (getCmdlineFromPacket env p)
      (getCmdlineFromPacket env p.repaired) := by
    rw [getCmdlineFromPacket_repaired env hflag]
    exact holds_getCmdlineFromPacket (Q := .same (ShownApart echoed)) env p
  refine .bind hget fun r _ hr => ?_
  subst hr
  cases r with
  | none => exact hsend
  | some buf =>
    exact .bind (holds_printString (Q := .same (ShownApart echoed)) _) fun _ _ _ =>
      .bind (HeapHabit.free (Q := .same (ShownApart echoed)) _) fun _ _ _ => hsend

theorem runs_processPacketType_repaired (env : HeapEnv) (st : BigfileState)
    (hflag : flagHasChecksum p.flag = true) (hecho : p.type = tcpPacket3TypeCmdline → echoed) :
    Runs (ShownApart echoed) Eq (processPacketType env st p) (processPacketType env st p.repaired) := by
  by_cases ht : p.type = tcpPacket3TypeCmdline
  · have ht' : p.repaired.type = tcpPacket3TypeCmdline := ht
    rw [processPacketType, processPacketType, if_pos ht, if_pos ht']
    exact .bind (runs_processCmdline_repaired env hflag (hecho ht)) fun _ _ _ => .pure rfl
  · rw [processPacketType_repaired env st hflag ht]
    exact holds_processPacketType (Q := .same (ShownApart echoed)) env st p

end Shown

/-- The verdict on a checksum changes nothing but what is shown. From any state, a packet with a
checksum is processed as the same packet with the right one: the lines that show the verdict
and the checksum differ, and the echo of a command line returns the two bytes as they came. -/
theorem tcpPacket3Processor_unchecked (env : HeapEnv) (st : BigfileState) {p : TcpPacket3}
    (hflag : flagHasChecksum p.flag = true) (hz : p.dataSize ≠ 0) (addr : Nat)
    (phead : List (Block TcpPacket3)) (w : World) :
    veryfyTcpPacket3Checksum p.repaired = true ∧
      Alike (ShownApart (p.type = tcpPacket3TypeCmdline)) Eq
        (tcpPacket3Processor env st (⟨addr, p⟩ :: phead) w)
        (tcpPacket3Processor env st (⟨addr, p.repaired⟩ :: phead) w) := by
  refine ⟨veryfy_repaired hz hflag, ?_⟩
  have hrun : Runs (ShownApart (p.type = tcpPacket3TypeCmdline)) Eq
      (tcpPacket3Processor env st (⟨addr, p⟩ :: phead))
      (tcpPacket3Processor env st (⟨addr, p.repaired⟩ :: phead)) := by
    refine .bind (runs_printLine (receivedLine_repaired p)) fun _ _ _ => ?_
    refine .bind (runs_printTcpPacket3_repaired hflag 40) fun _ _ _ => ?_
    refine .bind (runs_echoPlainPacket_repaired env hflag) fun _ _ _ => ?_
    refine .bind (runs_processPacketType_repaired env st hflag id) fun st' _ hst => ?_
    subst hst
    exact .bind (HeapHabit.free (Q := .same (ShownApart _)) addr) fun _ _ _ => .pure rfl
  exact hrun w w (ShownApart.refl w)

/-- The command line `"A"` with checksum 0. -/
def wrongCommand : WirePacket :=
  ⟨tcpPacket3Version, tcpPacket3FlagBitChecksum, tcpPacket3TypeCmdline, [0, 0, 65], by decide⟩

/-- A transfer of the file `"f"`, announced with checksum 0. -/
def wrongStart : WirePacket :=
  ⟨tcpPacket3Version, tcpPacket3FlagBitChecksum, tcpPacket3TypeBigfileStart,
    [0, 0, 7, 102, 0, 49, 0, 49, 0], by decide⟩

theorem tcpPacket3Processor_unchecked_command :
    veryfyTcpPacket3Checksum wrongCommand.record.repaired = true ∧
      Alike (ShownApart (wrongCommand.type = tcpPacket3TypeCmdline)) Eq
        (tcpPacket3Processor .ample .start [⟨0, wrongCommand.record⟩]
          { txScript := [.room 8, .room 3] })
        (tcpPacket3Processor .ample .start [⟨0, wrongCommand.record.repaired⟩]
          { txScript := [.room 8, .room 3] }) :=
  tcpPacket3Processor_unchecked .ample .start (p := wrongCommand.record) (by decide) (by decide) 0
    [] _

/-- A command line that fails its checksum is printed and echoed, and a start packet that
does begins a transfer. -/
theorem tcpPacket3Processor_accepts_wrong :
    veryfyTcpPacket3Checksum wrongCommand.record = false ∧
      tcpPacket3Processor .ample .start [⟨0, wrongCommand.record⟩]
          { txScript := [.room 8, .room 3] } =
        .ok ([], .start) { sent := wrongCommand.bytes, console := [65, 0, 0, 65, 13, 10], next := 1,
                           lines := [.received 11 false, packetLine wrongCommand.record]
                           frees := [0, 0] } ∧
      veryfyTcpPacket3Checksum wrongStart.record = false ∧
      ∃ big w', tcpPacket3Processor .ample .start [⟨0, wrongStart.record⟩] {} =
        .ok ([], ⟨some big, 0, 0, none⟩) w' := by
  refine ⟨by decide, by decide, by decide, ⟨1, BigfileInfo.record ⟨7, [102], 1, 1⟩⟩,
    { console := [7, 102, 0, 49, 0, 49, 0, 0, 0], next := 2, frees := [0, 0]
      lines := [.received 17 false, packetLine wrongStart.record] }, by decide +kernel⟩

end NucleoW5500
