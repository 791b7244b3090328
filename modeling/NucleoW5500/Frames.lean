import NucleoW5500.Lockstep
import NucleoW5500.Processor

/-! What the packet processor leaves alone: a habit of the calls of the heap, the console and
the socket is one of all of it. -/

namespace NucleoW5500

open CString Lockstep

/-- A habit of what neither prints nor sends. -/
class HeapHabit (Q : Habit Halt World) : Prop where
  halt {α : Type} (e : Halt) : Q.Holds (CM.halt e : CM α)
  malloc (env : HeapEnv) (size : Int) : Q.Holds (malloc env size)
  free (addr : Nat) : Q.Holds (free addr)

class PrintHabit (Q : Habit Halt World) : Prop extends HeapHabit Q where
  console (f : List UInt8 → List UInt8) :
    Q.Holds (CM.modify fun w => { w with console := f w.console })
  line (l : Line) : Q.Holds (printLine l)

class SendHabit (Q : Habit Halt World) : Prop extends PrintHabit Q where
  wizSendb (buf : List UInt8) (size : Int) : Q.Holds (wizSendb buf size)

variable {Q : Habit Halt World}

theorem holds_sendTcpPacket3_of (hsend : ∀ buf size, Q.Holds (wizSendb buf size))
    (p : TcpPacket3) : Q.Holds (sendTcpPacket3 p) :=
  Q.bind (hsend _ _) fun _ => Q.ite (Q.pure _)
    (Q.ite (Q.bind (hsend _ _) fun _ => Q.ite (Q.pure _) (Q.pure _)) (Q.pure _))

section Heap

variable [HeapHabit Q] (env : HeapEnv)

theorem holds_memcpy (dst : Buf) (j : Nat) (src : List UInt8) (i : Nat) (n : Int) :
    Q.Holds (memcpy dst j src i n) :=
  Q.ite (HeapHabit.halt _) (Q.ite (HeapHabit.halt _) (Q.pure _))

theorem holds_store (f : Fault) (buf : List UInt8) (i : Int) (bs : List UInt8) :
    Q.Holds (store f buf i bs) :=
  Q.ite (Q.pure _) (HeapHabit.halt _)

theorem holds_extractPacketContents (p : TcpPacket3) : Q.Holds (extractPacketContents env p) := by
  refine Q.ite (Q.pure _) (Q.ite (Q.bind (HeapHabit.malloc _ _) fun r => ?_)
    (Q.bind (HeapHabit.malloc _ _) fun r => ?_))
  · cases r with
    | none => exact Q.pure _
    | some buf => exact Q.bind (Q.bind (holds_memcpy _ _ _ _ _) fun _ => Q.pure _) fun _ => Q.pure _
  · cases r with
    | none => exact Q.pure _
    | some buf => exact Q.bind (holds_memcpy _ _ _ _ _) fun _ => Q.pure _

theorem holds_allocBigfileInfoFromPacket (p : TcpPacket3) :
    Q.Holds (allocBigfileInfoFromPacket env p) := by
  refine Q.bind (holds_extractPacketContents env p) fun r => ?_
  cases r with
  | none => exact Q.pure _
  | some buf =>
    dsimp only
    cases parseBigfileInfo buf.mem (getPacketPlainContentsSize p) with
    | none => exact Q.bind (HeapHabit.free _) fun _ => Q.pure _
    | some info =>
      refine Q.bind (HeapHabit.malloc _ _) fun r => ?_
      cases r with
      | none => exact Q.bind (HeapHabit.free _) fun _ => Q.pure _
      | some block =>
        exact Q.bind (Q.ite (HeapHabit.halt _) (Q.pure _)) fun _ =>
          Q.bind (HeapHabit.free _) fun _ => Q.pure _

theorem holds_strndup (mem : List UInt8) (i n : Nat) : Q.Holds (strndup env mem i n) := by
  refine Q.bind (HeapHabit.malloc _ _) fun r => ?_
  cases r with
  | none => exact Q.pure _
  | some buf => exact Q.bind (holds_memcpy _ _ _ _ _) fun _ => Q.pure _

theorem holds_extractBigfile (big : BigfileRecv) (args : BigfileArgs) :
    Q.Holds (extractBigfile env big args) := by
  refine Q.ite (Q.pure _) (Q.bind (Q.ite (Q.bind (holds_strndup _ _ _ _) fun r => ?_) (Q.pure _))
    fun r => ?_)
  · cases r with
    | none => exact Q.pure _
    | some name => exact Q.pure _
  cases r with
  | none => exact Q.pure _
  | some name =>
    refine Q.bind (Q.ite (Q.bind (HeapHabit.malloc _ _) fun r => ?_) (Q.pure _)) fun r => ?_
    · cases r with
      | none => exact Q.pure _
      | some file =>
        exact Q.ite (HeapHabit.halt _) (Q.bind (holds_memcpy _ _ _ _ _) fun _ =>
          Q.bind (holds_memcpy _ _ _ _ _) fun _ => Q.pure _)
    · cases r with
      | none => exact Q.pure _
      | some file => exact Q.pure _

theorem holds_deliverBigfile (st : BigfileState) (big : Block BigfileRecv) (args : BigfileArgs) :
    Q.Holds (deliverBigfile env st big args) :=
  Q.bind (holds_extractBigfile env big.val args) fun _ =>
    Q.ite (Q.pure _) (Q.ite (Q.bind (HeapHabit.free _) fun _ => Q.pure _) (Q.pure _))

theorem holds_bigfileFrag (st : BigfileState) (big : Block BigfileRecv) (buf : Buf)
    (contentsSize : Int) : Q.Holds (bigfileFrag st big buf contentsSize) := by
  refine Q.ite (Q.bind (HeapHabit.free _) fun _ => Q.pure _) ?_
  cases fragmentPayload buf.mem contentsSize big.val.next (firstFragment st big).remainSize with
  | error f => exact HeapHabit.halt _
  | ok r =>
    cases r with
    | none => exact Q.bind (HeapHabit.free _) fun _ => Q.pure _
    | some payload =>
      refine Q.bind ?_ fun _ => Q.pure _
      cases (firstFragment st big).pContents with
      | none => exact HeapHabit.halt _
      | some q => exact Q.ite (HeapHabit.halt _) (holds_store _ _ _ _)

theorem holds_receiveBigfileFromPacket (st : BigfileState) (p : Option TcpPacket3)
    (args : BigfileArgs) : Q.Holds (receiveBigfileFromPacket env st p args) := by
  cases p with
  | none =>
    rw [receiveBigfileFromPacket, receiveBigfileFromPacketBy, bigfileExtract]
    cases st.pBig with
    | none => exact Q.pure _
    | some big => exact Q.ite (holds_deliverBigfile env st big args) (Q.pure _)
  | some p =>
    refine Q.ite (Q.pure _) (Q.ite (Q.bind ?_ fun _ => Q.bind (holds_allocBigfileInfoFromPacket env p)
      fun r => ?_) (Q.ite (Q.pure _) ?_))
    · cases st.pBig with
      | none => exact Q.pure _
      | some big => exact HeapHabit.free _
    · cases r with
      | none => exact Q.pure _
      | some big => exact Q.pure _
    cases st.pBig with
    | none => exact Q.pure _
    | some big =>
      refine Q.bind (holds_extractPacketContents env p) fun r => ?_
      cases r with
      | none => exact Q.bind (HeapHabit.free _) fun _ => Q.pure _
      | some buf =>
        exact Q.ite (Q.bind (HeapHabit.free _) fun _ => Q.pure _)
          (Q.ite (Q.bind (HeapHabit.free _) fun _ => Q.ite (Q.bind (HeapHabit.free _) fun _ => Q.pure _)
            (holds_deliverBigfile env st big args)) (holds_bigfileFrag st big buf _))

theorem holds_getFileFromPacket (p : TcpPacket3) : Q.Holds (getFileFromPacket env p) := by
  refine Q.ite (Q.pure _) (Q.bind (holds_extractPacketContents env p) fun r => ?_)
  cases r with
  | none => exact Q.pure _
  | some buf =>
    dsimp only
    cases memchr buf.mem 0 0 (sizeT (getPacketPlainContentsSize p)) with
    | none => exact Q.bind (HeapHabit.free _) fun _ => Q.pure _
    | some k =>
      refine Q.bind (holds_strndup env _ _ _) fun r => ?_
      cases r with
      | none => exact Q.bind (HeapHabit.free _) fun _ => Q.pure _
      | some name =>
        refine Q.ite (Q.bind (HeapHabit.free _) fun _ => Q.pure _)
          (Q.bind (HeapHabit.malloc _ _) fun r => ?_)
        cases r with
        | none => exact Q.bind (HeapHabit.free _) fun _ => Q.pure _
        | some file =>
          exact Q.bind (holds_memcpy _ _ _ _ _) fun _ => Q.bind (HeapHabit.free _) fun _ => Q.pure _

theorem holds_fillPacketData (flag : UInt32) (p : TcpPacket3) (buf : List UInt8) (bufSize : UInt16)
    (contentsSize : Int) : Q.Holds (fillPacketData flag p buf bufSize contentsSize) :=
  Q.bind (holds_store _ _ _ _) fun _ => Q.bind (Q.ite (holds_store _ _ _ _) (Q.pure _)) fun _ =>
    Q.ite (Q.bind (holds_store _ _ _ _) fun _ => Q.pure _) (Q.pure _)

theorem holds_createTcpPacket3Record (flag type : UInt32) (buf : List UInt8) (bufSize : UInt16)
    (contentsSize : Int) :
    Q.Holds (createTcpPacket3Record env flag type buf bufSize contentsSize) := by
  refine Q.bind (Q.bind (HeapHabit.malloc env _) fun r => ?_) fun r => ?_
  · cases r with
    | none => exact Q.pure _
    | some buf => exact Q.pure _
  · cases r with
    | none => exact Q.pure _
    | some p =>
      exact Q.ite (Q.bind (holds_fillPacketData _ _ _ _ _) fun _ => Q.pure _) (Q.pure _)

theorem holds_getCmdlineFromPacket (p : TcpPacket3) : Q.Holds (getCmdlineFromPacket env p) :=
  Q.ite (Q.pure _) (holds_extractPacketContents env p)

theorem holds_createTcpPacket3 (flag type : UInt32) (contents : Option (List UInt8))
    (contentsSize : Int) : Q.Holds (createTcpPacket3 env flag type contents contentsSize) := by
  refine Q.ite (Q.pure _) ?_
  cases contents with
  | none => exact holds_createTcpPacket3Record env _ _ _ _ _
  | some contents =>
    refine Q.ite (holds_createTcpPacket3Record env _ _ _ _ _)
      (Q.ite (Q.bind (HeapHabit.malloc env _) fun r => ?_) (holds_createTcpPacket3Record env _ _ _ _ _))
    cases r with
    | none => exact Q.pure _
    | some buf =>
      exact Q.bind (Q.bind (holds_memcpy _ _ _ _ _) fun _ => Q.bind (holds_memcpy _ _ _ _ _)
        fun _ => Q.pure _) fun _ => Q.bind (holds_createTcpPacket3Record env _ _ _ _ _)
          fun _ => Q.bind (HeapHabit.free _) fun _ => Q.pure _

end Heap

section Print

variable [PrintHabit Q] (env : HeapEnv)

theorem holds_consoleWriteb (buf : List UInt8) (size : Int) : Q.Holds (consoleWriteb buf size) :=
  PrintHabit.console fun console => console ++ read buf 0 size.toNat

theorem holds_printString (mem : List UInt8) : Q.Holds (printString mem) :=
  PrintHabit.console fun console => console ++ cstr mem 0 ++ [13, 10]

theorem holds_showFile (fileSize : Int) (filename file : Option Buf) :
    Q.Holds (showFile fileSize filename file) := by
  cases file with
  | none => exact HeapHabit.halt _
  | some buf =>
    refine Q.bind (holds_consoleWriteb _ _) fun _ => Q.bind ?_ fun _ => HeapHabit.free _
    cases filename with
    | none => exact Q.pure _
    | some name => exact HeapHabit.free _

theorem holds_processSmallfile (p : TcpPacket3) : Q.Holds (processSmallfile env p) :=
  Q.bind (holds_getFileFromPacket env p) fun _ => Q.ite (holds_showFile _ _ _) (Q.pure _)

theorem holds_processBigfile (st : BigfileState) (p : TcpPacket3) :
    Q.Holds (processBigfile env st p) :=
  Q.bind (holds_receiveBigfileFromPacket env st _ _) fun _ =>
    Q.ite (Q.bind (holds_showFile _ _ _) fun _ => Q.pure _) (Q.pure _)

theorem holds_processPacketType_quiet (st : BigfileState) {p : TcpPacket3}
    (h : p.type ≠ tcpPacket3TypeCmdline) : Q.Holds (processPacketType env st p) := by
  rw [processPacketType, if_neg h]
  exact Q.ite (Q.bind (holds_processSmallfile env p) fun _ => Q.pure _)
    (Q.ite (holds_processBigfile env st p) (Q.pure _))

theorem holds_printTcpPacket3 (p : TcpPacket3) (n : Int) : Q.Holds (printTcpPacket3 p n) :=
  Q.bind (PrintHabit.line _) fun _ => Q.ite (holds_consoleWriteb _ _) (Q.pure _)

end Print

section Send

variable [SendHabit Q] (env : HeapEnv)

theorem holds_sendTcpPacket3 (p : TcpPacket3) : Q.Holds (sendTcpPacket3 p) :=
  holds_sendTcpPacket3_of SendHabit.wizSendb p

theorem holds_processPacketType (st : BigfileState) (p : TcpPacket3) :
    Q.Holds (processPacketType env st p) := by
  by_cases ht : p.type = tcpPacket3TypeCmdline
  · rw [processPacketType, if_pos ht]
    refine Q.bind (Q.bind (holds_getCmdlineFromPacket env p) fun r => ?_)
      fun _ => Q.pure _
    cases r with
    | none => exact Q.bind (holds_sendTcpPacket3 p) fun _ => Q.pure _
    | some buf =>
      exact Q.bind (holds_printString _) fun _ => Q.bind (HeapHabit.free _) fun _ =>
        Q.bind (holds_sendTcpPacket3 p) fun _ => Q.pure _
  · exact holds_processPacketType_quiet env st ht

theorem holds_echoPlainPacket (p : TcpPacket3) : Q.Holds (echoPlainPacket env p) := by
  refine Q.ite (Q.bind (holds_extractPacketContents env p) fun r => ?_) (Q.pure _)
  cases r with
  | none => exact Q.pure _
  | some buf =>
    refine Q.bind (holds_consoleWriteb _ _) fun _ => Q.bind (holds_createTcpPacket3 env _ _ _ _)
      fun pSend => Q.bind ?_ fun _ => HeapHabit.free _
    cases pSend with
    | none => exact Q.pure _
    | some pSend => exact Q.bind (holds_sendTcpPacket3 _) fun _ => HeapHabit.free _

end Send

/-- A relation between the worlds before and after what neither prints nor sends. -/
class HeapFrame (P : World → World → Prop) : Prop extends Std.Refl P, IsTrans World P where
  next (w : World) : P w { w with next := w.next + 1 }
  frees (w : World) (frees : List Nat) : P w { w with frees }

class Frame (P : World → World → Prop) : Prop extends HeapFrame P where
  console (w : World) (console : List UInt8) : P w { w with console }
  lines (w : World) (lines : List Line) : P w { w with lines }

class SendFrame (P : World → World → Prop) : Prop extends Frame P where
  send (w : World) (es : List TxEvent) (bs : List UInt8) :
    P w { w with txScript := es, sent := w.sent ++ bs }

section Moves

variable {P : World → World → Prop}

instance [HeapFrame P] : HeapHabit (.moves P) where
  halt _ w := Std.Refl.refl w
  malloc _ _ w := HeapFrame.next w
  free _ w := HeapFrame.frees w _

instance [Frame P] : PrintHabit (.moves P) where
  console _ w := Frame.console w _
  line _ w := Frame.lines w _

theorem moves_send_of [Std.Refl P]
    (hsend : ∀ w es bs, P w { w with txScript := es, sent := w.sent ++ bs })
    (buf : List UInt8) (i : Nat) (len : UInt16) : Moves P (send buf i len) := by
  intro w
  have hskip : ∀ es, P w { w with txScript := es } := by
    intro es
    simpa using hsend w es []
  cases hs : w.txScript with
  | nil =>
    simp only [send, hs]
    exact Std.Refl.refl w
  | cons e es =>
    by_cases hz : len = 0
    · simp only [send, hs, if_pos hz]
      exact hskip es
    · cases e with
      | fail code =>
        simp only [send, hs, if_neg hz]
        exact hskip es
      | room count =>
        simp only [send, hs, if_neg hz]
        exact hsend w es _

theorem moves_wizSendb_of [Std.Refl P] [IsTrans World P]
    (hsend : ∀ w es bs, P w { w with txScript := es, sent := w.sent ++ bs }) (buf : List UInt8)
    (size : Int) : Moves P (wizSendb buf size) := by
  have hloop : ∀ fuel sentSize remainSize,
      Moves P (wizSendbLoop buf fuel sentSize remainSize) := by
    intro fuel
    induction fuel with
    | zero => exact fun _ _ w => Std.Refl.refl w
    | succ fuel ih =>
      exact fun _ _ => .bind (moves_send_of hsend _ _ _) fun _ =>
        .ite (.pure _) (.ite (ih _ _) (.pure _))
  exact fun w => hloop _ 0 size w

instance [SendFrame P] : SendHabit (.moves P) where
  wizSendb := moves_wizSendb_of SendFrame.send

end Moves

/-- A relation between two worlds that the same allocations on both sides keep to. -/
class HeapAlike (L : World → World → Prop) : Prop where
  next_eq {w w' : World} : L w w' → w.next = w'.next
  next {w w' : World} : L w w' → L { w with next := w.next + 1 } { w' with next := w'.next + 1 }
  frees {w w' : World} (addr : Nat) : L w w' →
    L { w with frees := addr :: w.frees } { w' with frees := addr :: w'.frees }

/-- A relation between two worlds in which the same is printed and sent. -/
class WorldAlike (L : World → World → Prop) : Prop extends HeapAlike L where
  console {w w' : World} (f : List UInt8 → List UInt8) : L w w' →
    L { w with console := f w.console } { w' with console := f w'.console }
  line {w w' : World} (l : Line) : L w w' →
    L { w with lines := w.lines ++ [l] } { w' with lines := w'.lines ++ [l] }
  txScript_eq {w w' : World} : L w w' → w.txScript = w'.txScript
  send {w w' : World} (es : List TxEvent) (bs : List UInt8) : L w w' →
    L { w with txScript := es, sent := w.sent ++ bs }
      { w' with txScript := es, sent := w'.sent ++ bs }

section Same

variable {L : World → World → Prop}

theorem runs_send_of (hscript : ∀ w w', L w w' → w.txScript = w'.txScript) (buf buf' : List UInt8)
    (hsend : ∀ w w' es i n, L w w' → L { w with txScript := es, sent := w.sent ++ read buf i n }
      { w' with txScript := es, sent := w'.sent ++ read buf' i n })
    (i : Nat) (len : UInt16) : Runs L Eq (send buf i len) (send buf' i len) := by
  intro w w' hL
  have hs := hscript w w' hL
  have hskip : ∀ es, L { w with txScript := es } { w' with txScript := es } := by
    intro es
    simpa [CString.read] using hsend w w' es 0 0 hL
  cases hw : w.txScript with
  | nil =>
    simp only [send, hw, hs.symm.trans hw]
    exact .error hL
  | cons e es =>
    have hw' := hs.symm.trans hw
    by_cases hz : len = 0
    · simp only [send, hw, hw', if_pos hz]
      exact .ok rfl (hskip es)
    · cases e with
      | fail code =>
        simp only [send, hw, hw', if_neg hz]
        exact .ok rfl (hskip es)
      | room count =>
        simp only [send, hw, hw', if_neg hz]
        exact .ok rfl (hsend w w' es i _ hL)

theorem runs_wizSendb_of (hscript : ∀ w w', L w w' → w.txScript = w'.txScript)
    (buf buf' : List UInt8)
    (hsend : ∀ w w' es i n, L w w' → L { w with txScript := es, sent := w.sent ++ read buf i n }
      { w' with txScript := es, sent := w'.sent ++ read buf' i n }) (size : Int) :
    Runs L Eq (wizSendb buf size) (wizSendb buf' size) := by
  have hloop : ∀ fuel sentSize remainSize, Runs L Eq
      (wizSendbLoop buf fuel sentSize remainSize) (wizSendbLoop buf' fuel sentSize remainSize) := by
    intro fuel
    induction fuel with
    | zero => exact fun _ _ _ _ h => .error h
    | succ fuel ih =>
      refine fun sentSize remainSize =>
        .bind (runs_send_of hscript buf buf' hsend _ _) fun ret _ hret => ?_
      subst hret
      exact .ite (fun _ => .pure rfl) fun _ => .ite (fun _ => ih _ _) fun _ => .pure rfl
  intro w w' hL
  rw [wizSendb, wizSendb, hscript w w' hL]
  exact hloop _ 0 size w w' hL

instance [HeapAlike L] : HeapHabit (.same L) where
  halt _ _ _ hL := .error hL
  malloc env size := by
    intro w w' hL
    have hnext := HeapAlike.next_eq hL
    refine .ok ?_ (HeapAlike.next hL)
    rw [hnext]
  free addr _ _ hL := .ok rfl (HeapAlike.frees addr hL)

instance [WorldAlike L] : SendHabit (.same L) where
  console f _ _ hL := .ok rfl (WorldAlike.console f hL)
  line l _ _ hL := .ok rfl (WorldAlike.line l hL)
  wizSendb buf size := runs_wizSendb_of (fun _ _ => WorldAlike.txScript_eq) buf buf
    (fun _ _ es _ _ hL => WorldAlike.send es _ hL) size

end Same

end NucleoW5500
