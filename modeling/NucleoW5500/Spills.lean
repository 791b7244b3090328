import NucleoW5500.Output

/-! Packets for which `tcp_packet3_processor` prints what the heap held before. -/

namespace NucleoW5500

open CString Lockstep

section Leaks

variable {p : TcpPacket3}

/-- A heap with room for the `k`th block alone. -/
def HeapEnv.only (k n : Nat) (b : UInt8) : HeapEnv :=
  ⟨fun m => m == k, fun _ => List.replicate n b⟩

theorem Quiet.trans {w w' w'' : World} (h : Quiet w w') (h' : Quiet w' w'') : Quiet w w'' :=
  IsTrans.trans _ _ _ h h'

theorem quiet_allocated (w : World) : Quiet w { w with next := w.next + 1 } :=
  HeapFrame.next w

theorem quiet_sendCreated (pSend : Option (Block TcpPacket3)) : Moves Quiet (sendCreated pSend) := by
  cases pSend with
  | none => exact .pure _
  | some pSend => exact .bind (quiet_sendTcpPacket3 _) fun _ => HeapHabit.free (Q := .moves Quiet) _

theorem quiet_done {env : HeapEnv} {st : BigfileState} {w w₁ : World} (addr : Nat)
    (phead : List (Block TcpPacket3)) (h : Quiet w₁ (final (processPacketType env st p w))) :
    Quiet w₁ (final ((do let st ← processPacketType env st p; free addr; pure (phead, st)) w)) :=
  final_bind h fun _ _ h' =>
    h'.trans ((Moves.bind (HeapHabit.free (Q := .moves Quiet) addr) fun _ => .pure _) _)

/-- With no memory left and no transfer under way, nothing is printed. -/
theorem quiet_processPacketType_refused {env : HeapEnv} (hz : p.dataSize ≠ 0) {w : World}
    (hok : env.ok w.next = false) : Quiet w (final (processPacketType env .start p w)) := by
  have hno := extractPacketContents_refused hz hok
  by_cases hcmd : p.type = tcpPacket3TypeCmdline
  · have hget : getCmdlineFromPacket env p w = .ok none { w with next := w.next + 1 } := by
      rw [getCmdlineFromPacket, if_neg (by simp [hcmd, hz]), hno]
    rw [processPacketType, if_pos hcmd]
    refine final_bind (P := Quiet w) ?_ fun _ _ h => h
    rw [processCmdline, CM.bind_ok hget]
    exact (quiet_allocated w).trans ((Moves.bind (quiet_sendTcpPacket3 p) fun _ => .pure _) _)
  rw [processPacketType, if_neg hcmd]
  by_cases hsmall : p.type = tcpPacket3TypeSmallfile
  · have hget : getFileFromPacket env p w =
        .ok (0, none, none) { w with next := w.next + 1 } := by
      rw [getFileFromPacket, if_neg (by simp [hsmall, hz]), CM.bind_ok hno]
      rfl
    rw [if_pos hsmall]
    refine final_bind (P := Quiet w) ?_ fun _ _ h => h
    rw [processSmallfile, CM.bind_ok hget]
    exact quiet_allocated w
  rw [if_neg hsmall]
  by_cases hbig : p.type = tcpPacket3TypeBigfileStart ∨ p.type = tcpPacket3TypeBigfileFrag ∨
      p.type = tcpPacket3TypeBigfileEnd
  · rw [if_pos hbig]
    by_cases hend : p.type = tcpPacket3TypeBigfileEnd
    · have hnone : receiveBigfileFromPacket env .start (some p) ⟨true, true, true⟩ =
          pure (-1, {}, .start) := by
        rw [receiveBigfileFromPacket, receiveBigfileFromPacketBy, if_neg hz,
          if_neg (by rw [hend]; decide), if_neg (by rw [hend]; decide)]
        rfl
      rw [processBigfile, hnone]
      exact ⟨rfl, le_rfl⟩
    · exact quiet_processBigfile .start hend w
  · rw [if_neg hbig]
    exact ⟨rfl, le_rfl⟩

/-- The dump goes on with what the buffer held before. -/
theorem printedBy_dump (hp : Whole p) (hs : Sized p) (he : isPacketEncrypted p = true) :
    ∃ console, ∀ b, printedBy (.only 0 40 b) .start [⟨0, p⟩] {} = console ++
      read (extracted p ++ (List.replicate 40 b).drop (extracted p).length) 0 40 := by
  obtain ⟨console, lines, hproc⟩ := tcpPacket3Processor_printed ⟨0, p⟩ {}
  refine ⟨console, fun b => ?_⟩
  have hext := @extractPacketContents_ok (.only 0 40 b) p { console, lines } hp hs rfl
  have hecho : Quiet { next := 1, lines, console := console ++ read (extracted p ++
      (List.replicate 40 b).drop (extracted p).length) 0 40 }
      (final (echoPlainPacket (.only 0 40 b) p { console, lines })) := by
    rw [echoPlainPacket, if_pos he, CM.bind_ok hext]
    dsimp only
    rw [CM.bind_ok (consoleWriteb_ok _ _ _)]
    exact (Moves.bind (holds_createTcpPacket3 (Q := .moves Quiet) _ _ _ _ _) fun pSend =>
      .bind (quiet_sendCreated pSend) fun _ => HeapHabit.free (Q := .moves Quiet) _) _
  rw [printedBy, hproc]
  -- The block of the dump was the only one: whatever the type is, nothing more is printed.
  refine (final_bind hecho fun _ w₂ hw₂ => hw₂.trans ?_).1
  have hlate : (HeapEnv.only 0 40 b).ok w₂.next = false := by
    have hle : 1 ≤ w₂.next := hw₂.2
    exact beq_false_of_ne (by omega)
  exact quiet_done 0 [] (quiet_processPacketType_refused hp.pos hlate)

/-- The echo of an encrypted packet ends at the block it is refused. -/
theorem echoPlainPacket_only (n : Nat) (b : UInt8) (hz : p.dataSize ≠ 0) (w : World)
    (hw : w.next = 0) : ∃ w', echoPlainPacket
      (.only (if isPacketEncrypted p then 1 else 0) n b) p w = .ok () w' ∧
        w'.console = w.console ∧ w'.next = if isPacketEncrypted p then 1 else 0 := by
  rw [echoPlainPacket]
  by_cases he : isPacketEncrypted p = true
  · have hno := @extractPacketContents_refused (.only 1 n b) p w hz (by rw [hw]; rfl)
    rw [if_pos he, if_pos he, CM.bind_ok hno]
    exact ⟨_, rfl, rfl, by rw [hw]⟩
  · rw [if_neg he, if_neg he]
    exact ⟨w, rfl, rfl, hw⟩

theorem quiet_processPacketType_printed {env : HeapEnv} {st : BigfileState} {w w' : World}
    {buf : Buf} (ht : p.type = tcpPacket3TypeCmdline)
    (hget : getCmdlineFromPacket env p w = .ok (some buf) w') :
    Quiet { w' with console := w'.console ++ cstr buf.mem 0 ++ [13, 10] }
      (final (processPacketType env st p w)) := by
  rw [processPacketType, if_pos ht]
  refine final_bind (P := Quiet _) ?_ fun _ _ h => h
  have hprint : printString buf.mem w' =
      .ok () { w' with console := w'.console ++ cstr buf.mem 0 ++ [13, 10] } := rfl
  rw [processCmdline, CM.bind_ok hget]
  dsimp only
  rw [CM.bind_ok hprint]
  exact (Moves.bind (HeapHabit.free (Q := .moves Quiet) _) fun _ =>
    .bind (quiet_sendTcpPacket3 p) fun _ => .pure _) _

/-- The string goes on with what the buffer held before. -/
theorem printedBy_cmdline (hp : Whole p) (hs : Sized p) (ht : p.type = tcpPacket3TypeCmdline)
    (hnul : (0 : UInt8) ∉ extracted p) : ∃ console, ∀ b ≠ 0,
      printedBy (.only (if isPacketEncrypted p then 1 else 0) ((extracted p).length + 1) b) .start
        [⟨0, p⟩] {} = console ++ (extracted p ++ [b]) ++ [13, 10] := by
  obtain ⟨console, lines, hproc⟩ := tcpPacket3Processor_printed ⟨0, p⟩ {}
  refine ⟨console, fun b hb => ?_⟩
  obtain ⟨w₁, hecho, hcon, hnext⟩ :=
    @echoPlainPacket_only p ((extracted p).length + 1) b hp.pos { console, lines } rfl
  generalize he : HeapEnv.only (if isPacketEncrypted p then 1 else 0) ((extracted p).length + 1) b =
    env at hecho ⊢
  have hok : env.ok w₁.next = true := by
    rw [← he, hnext]
    exact beq_self_eq_true _
  have hleft : extracted p ++ (env.leftover w₁.next).drop (extracted p).length =
      extracted p ++ [b] := by
    have hone : (extracted p).length + 1 - (extracted p).length = 1 := by omega
    rw [← he, HeapEnv.only, List.drop_replicate, hone]
    rfl
  have hget : getCmdlineFromPacket env p w₁ = .ok (some ⟨w₁.next, blockSize p, extracted p ++ [b]⟩)
      { w₁ with next := w₁.next + 1 } := by
    rw [getCmdlineFromPacket, if_neg (by simp [ht, hp.pos]), extractPacketContents_ok hp hs hok,
      hleft]
  have hcstr : cstr (extracted p ++ [b]) 0 = extracted p ++ [b] := by
    refine List.takeWhile_eq_self_iff.mpr fun c hc => ?_
    rcases List.mem_append.mp hc with hc | hc
    · simpa using fun h0 : c = 0 => hnul (h0 ▸ hc)
    · simpa [List.mem_singleton.mp hc] using hb
  have hshown := @quiet_processPacketType_printed p env .start w₁ _ _ ht hget
  rw [hcstr, hcon] at hshown
  rw [printedBy, hproc, CM.bind_ok hecho]
  exact (quiet_done 0 [] hshown).1

/-- A file of one byte in no fragments, all announced and none awaited. -/
def endState (id : UInt8) : BigfileState :=
  ⟨some ⟨0, ⟨⟨id, [], 1, 0⟩, 0, 29, List.replicate 7 0⟩⟩, 0, 0, none⟩

theorem processBigfile_end {w : World} (ht : p.type = tcpPacket3TypeBigfileEnd) (hp : Whole p)
    (hs : Sized p) (hlt : (extracted p).length < 2) : ∃ w' st',
      processBigfile (.filled 2 0) (endState (peek (extracted p) 0)) p w = .ok st' w' ∧
        w'.console = w.console ++ [0] := by
  have hcrc : peek (extracted p) 1 = 0 := by
    rw [peek, List.getD_eq_getElem?_getD, List.getElem?_eq_none (by omega)]
    rfl
  have hpeek : ∀ i, peek (extracted p ++
      (List.replicate 2 (0 : UInt8)).drop (extracted p).length) i = peek (extracted p) i := by
    intro i
    rw [List.drop_replicate]
    exact peek_append_zeros _ _ _
  have hget := @extractPacketContents_ok (.filled 2 0) p w hp hs rfl
  have hdone : receiveBigfileFromPacket (.filled 2 0) (endState (peek (extracted p) 0)) (some p)
      ⟨true, true, true⟩ w = deliverBigfile (.filled 2 0) (endState (peek (extracted p) 0))
        ⟨0, ⟨⟨peek (extracted p) 0, [], 1, 0⟩, 0, 29, List.replicate 7 0⟩⟩ ⟨true, true, true⟩
        { w with next := w.next + 1, frees := w.next :: w.frees } := by
    rw [receiveBigfileFromPacket, receiveBigfileFromPacketBy, if_neg hp.pos, if_neg (by rw [ht]; decide),
      if_neg (by rw [ht]; decide)]
    dsimp only [endState]
    rw [CM.bind_ok hget]
    dsimp only [HeapEnv.filled]
    rw [if_neg (not_not.mpr (hpeek 0)), if_pos ht]
    exact bigfileEnd_complete ⟨rfl, rfl, (hpeek 1).trans hcrc⟩ _ _
  rw [processBigfile, bind_apply, hdone]
  exact ⟨_, _, rfl, rfl⟩

theorem processBigfile_dropped {w : World} (ht : p.type = tcpPacket3TypeBigfileEnd) (hp : Whole p)
    (hs : Sized p) (hlt : (extracted p).length < 2) :
    Quiet w (final (processBigfile (.filled 2 1) (endState (peek (extracted p) 0)) p w)) := by
  have hget := @extractPacketContents_ok (.filled 2 1) p w hp hs rfl
  have hbad : peek (extracted p ++ (List.replicate 2 (1 : UInt8)).drop (extracted p).length) 0 ≠
        peek (extracted p) 0 ∨
      peek (extracted p ++ (List.replicate 2 (1 : UInt8)).drop (extracted p).length) 1 ≠ 0 := by
    match extracted p, hlt with
    | [], _ => exact Or.inl (by decide)
    | [c], _ => exact Or.inr (by simp)
  rw [processBigfile, receiveBigfileFromPacket, receiveBigfileFromPacketBy, if_neg hp.pos,
    if_neg (by rw [ht]; decide), if_neg (by rw [ht]; decide)]
  dsimp only [endState]
  rw [bind_apply, CM.bind_ok hget]
  dsimp only [HeapEnv.filled]
  by_cases hid : peek (extracted p ++ (List.replicate 2 (1 : UInt8)).drop (extracted p).length) 0 =
      peek (extracted p) 0
  · have hcrc := hbad.resolve_left (not_not.mpr hid)
    rw [if_neg (not_not.mpr hid), if_pos ht, bigfileEnd_pending fun h => hcrc h.2.2]
    exact ⟨rfl, Nat.le_succ _⟩
  · rw [if_pos hid]
    exact ⟨rfl, Nat.le_succ _⟩

/-- An end packet that is too short is judged by what the buffer held before. -/
theorem printedBy_end (hp : Whole p) (hs : Sized p) (he : isPacketEncrypted p = false)
    (ht : p.type = tcpPacket3TypeBigfileEnd) (hlt : (extracted p).length < 2) :
    printedBy (.filled 2 0) (endState (peek (extracted p) 0)) [⟨0, p⟩] {} =
      printedBy (.filled 2 1) (endState (peek (extracted p) 0)) [⟨0, p⟩] {} ++ [0] := by
  obtain ⟨console, lines, hproc⟩ := tcpPacket3Processor_printed ⟨0, p⟩ {}
  obtain ⟨w', st', hshow, hcon⟩ := @processBigfile_end p { console, lines } ht hp hs hlt
  have htype : ∀ e st, processPacketType e st p = processBigfile e st p := by
    intro e st
    rw [processPacketType, if_neg (by rw [ht]; decide), if_neg (by rw [ht]; decide),
      if_pos (Or.inr (Or.inr ht))]
  have hsilent : ∀ e : HeapEnv, echoPlainPacket e p = pure () := fun _ => if_neg (by simp [he])
  have hshown : Quiet w' (final (processPacketType (.filled 2 0)
      (endState (peek (extracted p) 0)) p { console, lines })) := by
    rw [htype, hshow]
    exact ⟨rfl, le_rfl⟩
  have hfirst := quiet_done 0 [] hshown
  have hdropped := @processBigfile_dropped p { console, lines } ht hp hs hlt
  rw [← htype] at hdropped
  have hsecond := quiet_done 0 [] hdropped
  rw [printedBy, printedBy, hproc, hproc, hsilent, hsilent]
  exact hfirst.1.trans (hcon.trans (congrArg (· ++ [0]) hsecond.1.symm))

end Leaks

end NucleoW5500
