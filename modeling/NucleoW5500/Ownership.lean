import Mathlib.Data.Multiset.Range
import NucleoW5500.BigFileSteps
import NucleoW5500.Frames
import NucleoW5500.Ledger

/-! Who owns the blocks that `comm_tcp3` allocates. Every function hands the blocks it was
given, and those it made, to its caller or back to the heap. -/

namespace NucleoW5500

open CString Lockstep Ledger

def heap (env : HeapEnv) : Ledger World Nat where
  allocated w := (Multiset.range w.next).filter fun n => env.ok n = true
  freed w := w.frees

def bufs : Option Buf → Multiset Nat
  | none => 0
  | some b => {b.addr}

def blocks {α : Type} : Option (Block α) → Multiset Nat
  | none => 0
  | some b => {b.addr}

def BigfileOut.bufs (out : BigfileOut) : Multiset Nat :=
  NucleoW5500.bufs out.name + NucleoW5500.bufs out.file

def fileBufs (r : Int × Option Buf × Option Buf) : Multiset Nat := bufs r.2.1 + bufs r.2.2

/-- What the statics and the queue own. -/
def owned (st : BigfileState) (phead : List (Block TcpPacket3)) : Multiset Nat :=
  blocks st.pBig + phead.map Block.addr

theorem heap_nodup (env : HeapEnv) (w : World) : ((heap env).allocated w).Nodup :=
  (Multiset.nodup_range _).filter _

section Spends

variable {env : HeapEnv}

theorem spends_malloc (size : Int) : (heap env).Spends 0 (malloc env size) bufs := by
  intro w r w' h
  cases hok : env.ok w.next with
  | false =>
    rw [malloc_none hok] at h
    cases h
    refine .still ?_ rfl
    show (Multiset.range (w.next + 1)).filter _ = (Multiset.range w.next).filter _
    rw [Multiset.range_succ, Multiset.filter_cons_of_neg _ (by simp [hok])]
  | true =>
    rw [malloc_some hok] at h
    cases h
    refine .alloc ?_ rfl
    show (Multiset.range (w.next + 1)).filter _ = {w.next} + (Multiset.range w.next).filter _
    rw [Multiset.range_succ, Multiset.filter_cons_of_pos (p := fun n => env.ok n = true) _ hok,
      Multiset.singleton_add]

theorem spends_free (addr : Nat) : (heap env).Spends {addr} (free addr) fun _ => 0 := by
  intro w r w' h
  cases h
  exact .free rfl rfl

theorem spends_memcpy (dst : Buf) (j : Nat) (src : List UInt8) (i : Nat) (n : Int) :
    (heap env).Spends {dst.addr} (memcpy dst j src i n) fun b => {b.addr} := by
  intro w b w' h
  rcases memcpy_cases dst j src i n w with hc | ⟨f, -, hc⟩
  · rw [hc] at h
    cases h
    exact .refl _ _ _
  · rw [hc] at h
    cases h

theorem spends_store (f : Fault) (buf : List UInt8) (i : Int) (bs : List UInt8) :
    (heap env).Spends 0 (store f buf i bs) fun _ => 0 :=
  .ite (fun _ => .pure (fun _ => 0) _) fun _ => .error fun w => ⟨_, w, rfl⟩

theorem spends_extractPacketContents (p : TcpPacket3) :
    (heap env).Spends 0 (extractPacketContents env p) bufs := by
  refine .ite (fun _ => .pure bufs none) fun _ => .ite (fun _ => ?_) fun _ => ?_
  · refine .bind (spends_malloc _) fun r => ?_
    cases r with
    | none => exact .pure bufs none
    | some buf =>
      refine .bind (B := fun q => {q.1.addr}) ?_ fun q => .pure bufs (some q.1)
      exact .bind (spends_memcpy _ _ _ _ _) fun b => .pure (fun q : Buf × Int => {q.1.addr}) (b, _)
  · refine .bind (spends_malloc _) fun r => ?_
    cases r with
    | none => exact .pure bufs none
    | some buf => exact .bind (spends_memcpy _ _ _ _ _) fun b => .pure bufs (some b)

theorem spends_strndup (mem : List UInt8) (i n : Nat) :
    (heap env).Spends 0 (strndup env mem i n) bufs := by
  refine .bind (spends_malloc _) fun r => ?_
  cases r with
  | none => exact .pure bufs none
  | some buf => exact .bind (spends_memcpy _ _ _ _ _) fun b => .pure bufs (some b)

theorem spends_createTcpPacket3_plain (mem : List UInt8) (n : Int) :
    (heap env).Spends 0 (createTcpPacket3 env 0 0 (some mem) n) blocks := by
  have he : argHasEncryption 0 = false := rfl
  have hrecord : ∀ buf bufSize size,
      (heap env).Spends 0 (createTcpPacket3Record env 0 0 buf bufSize size) blocks := by
    intro buf bufSize size
    refine .bind (B := blocks) (.bind (spends_malloc _) fun r => ?_) fun r => ?_
    · cases r with
      | none => exact .pure (blocks (α := TcpPacket3)) none
      | some buf => exact .pure (blocks (α := TcpPacket3)) (some ⟨buf.addr, _⟩)
    · cases r with
      | none => exact .pure (blocks (α := TcpPacket3)) none
      | some p =>
        refine .ite (fun _ => ?_) fun _ => .pure (blocks (α := TcpPacket3)) (some p)
        have hfill : (heap env).Spends 0 (fillPacketData 0 p.val buf bufSize size) fun _ => 0 :=
          .bind (spends_store _ _ _ _) fun data =>
            .bind (.ite (fun _ => spends_store _ _ _ _) fun _ => .pure (fun _ => 0) data) fun _ =>
              .ite (fun _ => .bind (spends_store _ _ _ _) fun _ => .pure (fun _ => 0) _)
                fun _ => .pure (fun _ => 0) _
        exact .bind ((hfill.frame {p.addr}).congr (zero_add _) fun _ => rfl) fun val =>
          (Spends.pure (blocks (α := TcpPacket3)) (some ⟨p.addr, val⟩)).congr (zero_add _).symm
            fun _ => rfl
  rw [createTcpPacket3, he]
  exact .ite (fun _ => .pure (blocks (α := TcpPacket3)) none) fun _ =>
    .ite (fun _ => hrecord _ _ _) fun _ => hrecord _ _ _

/-- The console and the socket leave the heap as it is. -/
def Still (w w' : World) : Prop := w'.next = w.next ∧ w'.frees = w.frees

instance : Std.Refl Still := ⟨fun _ => ⟨rfl, rfl⟩⟩

instance : IsTrans World Still := ⟨fun _ _ _ h h' => ⟨h'.1.trans h.1, h'.2.trans h.2⟩⟩

theorem Still.trades {w w' : World} (h : Still w w') : (heap env).Trades 0 0 w w' :=
  .still (by simp only [heap, h.1]) (by simp only [heap, h.2])

theorem still_sendTcpPacket3 (p : TcpPacket3) : Moves Still (sendTcpPacket3 p) :=
  holds_sendTcpPacket3_of (Q := .moves Still) (moves_wizSendb_of fun _ _ _ => ⟨rfl, rfl⟩) p

theorem still_printLine (l : Line) : Moves Still (printLine l) := fun _ => ⟨rfl, rfl⟩

theorem still_printTcpPacket3 (p : TcpPacket3) (n : Int) : Moves Still (printTcpPacket3 p n) :=
  .bind (still_printLine _) fun _ => .ite (fun _ => ⟨rfl, rfl⟩) (.pure _)

theorem Still.of_ok {α : Type} {x : CM α} (hx : Moves Still x) {w w' : World} {a : α}
    (h : x w = .ok a w') : Still w w' := by
  have hh := hx w
  rwa [h] at hh

theorem spends_still {α : Type} {x : CM α} (hx : Moves Still x) :
    (heap env).Spends 0 x fun _ => 0 :=
  fun _ _ _ h => (Still.of_ok hx h).trades

theorem spends_consoleWriteb (buf : List UInt8) (size : Int) :
    (heap env).Spends 0 (consoleWriteb buf size) fun _ => 0 :=
  spends_still fun _ => ⟨rfl, rfl⟩

theorem spends_sendCreated (p : Option (Block TcpPacket3)) :
    (heap env).Spends (blocks p) (sendCreated p) fun _ => 0 := by
  cases p with
  | none => exact .pure (fun _ => 0) ()
  | some p =>
    have hsend := (@spends_still env _ _ (still_sendTcpPacket3 p.val)).frame {p.addr}
    exact .bind (hsend.congr (zero_add _) fun _ => zero_add _) fun _ => spends_free _

theorem spends_echoPlainPacket (p : TcpPacket3) :
    (heap env).Spends 0 (echoPlainPacket env p) fun _ => 0 := by
  refine .ite (fun _ => .bind (spends_extractPacketContents p) fun r => ?_) fun _ =>
    .pure (fun _ => 0) ()
  cases r with
  | none => exact .pure (fun _ => 0) ()
  | some buf =>
    have hshow := ((@spends_consoleWriteb env buf.mem 40).frame {buf.addr}).congr
      (zero_add _) fun _ => zero_add _
    have hcreate := ((@spends_createTcpPacket3_plain env buf.mem p.orgSize.toNat).frame
      {buf.addr}).congr (zero_add _) fun _ => rfl
    refine .bind hshow fun _ => .bind hcreate fun r => ?_
    exact .bind (((spends_sendCreated r).frame {buf.addr}).congr rfl fun _ => zero_add _)
      fun _ => spends_free _

theorem spends_processCmdline (p : TcpPacket3) :
    (heap env).Spends 0 (processCmdline env p) fun _ => 0 := by
  refine .bind (B := bufs) (.ite (fun _ => .pure bufs none) fun _ =>
    spends_extractPacketContents p) fun r => ?_
  have hsend : (heap env).Spends 0 (do let _ ← sendTcpPacket3 p; pure ()) fun _ : Unit => 0 :=
    .bind (spends_still (still_sendTcpPacket3 p)) fun _ => .pure (fun _ => 0) ()
  cases r with
  | none => exact hsend
  | some buf =>
    have hprint : (heap env).Spends 0 (printString buf.mem) fun _ => 0 :=
      spends_still fun _ => ⟨rfl, rfl⟩
    exact .bind ((hprint.frame {buf.addr}).congr (zero_add _) fun _ => zero_add _) fun _ =>
      .bind (spends_free _) fun _ => hsend

theorem spends_showFile (fileSize : Int) (filename file : Option Buf) :
    (heap env).Spends (bufs filename + bufs file) (showFile fileSize filename file) fun _ => 0 := by
  cases file with
  | none => exact .error fun w => ⟨_, w, rfl⟩
  | some buf =>
    have hname : (heap env).Spends (bufs filename) (freeBuf filename) fun _ => 0 := by
      cases filename with
      | none => exact .pure (fun _ => 0) ()
      | some name => exact spends_free _
    exact .bind (((@spends_consoleWriteb env buf.mem fileSize).frame _).congr (zero_add _)
      fun _ => zero_add _) fun _ => .bind ((hname.frame {buf.addr}).congr rfl fun _ => zero_add _)
        fun _ => spends_free _

theorem spends_getFileFromPacket (p : TcpPacket3) :
    (heap env).Spends 0 (getFileFromPacket env p) fileBufs := by
  have hreturn : ∀ (buf : Buf) (size : Int) (name file : Option Buf),
      (heap env).Spends (bufs name + bufs file + {buf.addr})
        (do free buf.addr; pure (size, name, file)) fileBufs :=
    fun buf size name file => .bind (((@spends_free env buf.addr).frame _).congr
      (add_comm _ _) fun _ => zero_add _) fun _ =>
        .pure fileBufs (size, name, file)
  refine .ite (fun _ => .pure fileBufs (0, none, none)) fun _ =>
    .bind (spends_extractPacketContents p) fun r => ?_
  cases r with
  | none => exact .pure fileBufs (0, none, none)
  | some buf =>
    dsimp only
    cases memchr buf.mem 0 0 (sizeT (getPacketPlainContentsSize p)) with
    | none => exact (hreturn buf 0 none none).congr (zero_add _) fun _ => rfl
    | some k =>
      refine .bind (((@spends_strndup env buf.mem 0 (k + 1)).frame {buf.addr}).congr
        (zero_add _) fun _ => rfl) fun r => ?_
      cases r with
      | none => exact (hreturn buf 0 none none).congr rfl fun _ => rfl
      | some name =>
        refine .ite (fun _ => (hreturn buf 0 (some name) none).congr (by simp [bufs]) fun _ => rfl)
          fun _ => .bind ((((@spends_malloc env _).frame
            (bufs (some name) + {buf.addr})).congr (zero_add _) fun _ => rfl)) fun r => ?_
        cases r with
        | none => exact (hreturn buf 0 (some name) none).congr (by simp [bufs]) fun _ => rfl
        | some file =>
          refine .bind (((@spends_memcpy env file _ _ _ _).frame
            (bufs (some name) + {buf.addr})).congr rfl fun _ => rfl) fun file' => ?_
          exact (hreturn buf _ (some name) (some file')).congr
            (by simp only [bufs]; rw [add_left_comm, add_assoc]) fun _ => rfl

theorem spends_allocBigfileInfoFromPacket (p : TcpPacket3) :
    (heap env).Spends 0 (allocBigfileInfoFromPacket env p) blocks := by
  have hreturn : ∀ (buf : Buf) (big : Option (Block BigfileRecv)),
      (heap env).Spends (blocks big + {buf.addr}) (do free buf.addr; pure big) blocks :=
    fun buf big => .bind (((@spends_free env buf.addr).frame _).congr (add_comm _ _)
      fun _ => zero_add _) fun _ => .pure blocks big
  refine .bind (spends_extractPacketContents p) fun r => ?_
  cases r with
  | none => exact .pure (blocks (α := BigfileRecv)) none
  | some buf =>
    dsimp only
    cases parseBigfileInfo buf.mem (getPacketPlainContentsSize p) with
    | none => exact (hreturn buf none).congr (zero_add _) fun _ => rfl
    | some info =>
      refine .bind (((@spends_malloc env _).frame {buf.addr}).congr (zero_add _)
        fun _ => rfl) fun r => ?_
      cases r with
      | none => exact (hreturn buf none).congr rfl fun _ => rfl
      | some block =>
        have hfill : (heap env).Spends 0 (fillBigfileRecv block info) fun _ => 0 :=
          .ite (fun _ => .error fun w => ⟨_, w, rfl⟩) fun _ => .pure (fun _ => 0) _
        exact .bind ((hfill.frame ({block.addr} + {buf.addr})).congr (zero_add _) fun _ => zero_add _)
          fun big => hreturn buf (some ⟨block.addr, big⟩)

def outBufs (r : Int × BigfileOut) : Multiset Nat := r.2.bufs

theorem spends_extractBigfile (big : BigfileRecv) (args : BigfileArgs) :
    (heap env).Spends 0 (extractBigfile env big args) outBufs := by
  have hname : (heap env).Spends 0 (copyFilename env big args.name) fun r => bufs r.join := by
    refine .ite (fun _ => .bind (spends_strndup _ _ _) fun r => ?_) fun _ =>
      .pure (fun r => bufs r.join) (some none)
    cases r with
    | none => exact .pure (fun r => bufs r.join) none
    | some name => exact .pure (fun r => bufs r.join) (some (some name))
  have hfile : (heap env).Spends 0 (copyContents env big args.file) fun r => bufs r.join := by
    refine .ite (fun _ => .bind (spends_malloc _) fun r => ?_) fun _ =>
      .pure (fun r => bufs r.join) (some none)
    cases r with
    | none => exact .pure (fun r => bufs r.join) none
    | some file =>
      exact .ite (fun _ => .error fun w => ⟨_, w, rfl⟩) fun _ =>
        .bind (spends_memcpy file _ _ _ _) fun file =>
          .bind (spends_memcpy file _ _ _ _) fun file =>
            .pure (fun r => bufs r.join) (some (some file))
  refine .ite (fun _ => .pure outBufs (-1, {})) fun _ => .bind hname fun r => ?_
  cases r with
  | none => exact .pure outBufs (-1, _)
  | some name =>
    refine .bind ((hfile.frame (bufs name)).congr (zero_add _) fun _ => rfl) fun r => ?_
    cases r with
    | none =>
      exact (Spends.pure outBufs (-1, ⟨_, name, none⟩)).congr
        (by simp [outBufs, BigfileOut.bufs, bufs]) fun _ => rfl
    | some file =>
      exact (Spends.pure outBufs (0, ⟨_, name, file⟩)).congr (add_comm _ _) fun _ => rfl

/-- What a call of the receiver leaves: the record and the copies. -/
def callBufs (r : Int × BigfileOut × BigfileState) : Multiset Nat :=
  blocks r.2.2.pBig + r.2.1.bufs

theorem spends_deliverBigfile {st : BigfileState} {big : Block BigfileRecv} (args : BigfileArgs)
    (hbig : st.pBig = some big) :
    (heap env).Spends {big.addr} (deliverBigfile env st big args) callBufs := by
  have hkeep : ∀ (ret : Int) (out : BigfileOut),
      callBufs (ret, out, st) = outBufs (ret, out) + {big.addr} := by
    intro ret out
    rw [callBufs, hbig, add_comm]
    rfl
  refine .bind (((@spends_extractBigfile env big.val args).frame {big.addr}).congr
    (zero_add _) fun _ => rfl) fun r => ?_
  obtain ⟨ret, out⟩ := r
  refine .ite (fun _ => (Spends.pure callBufs (ret, out, st)).congr (hkeep _ _) fun _ => rfl)
    fun _ => .ite (fun _ => ?_) fun _ =>
      (Spends.pure callBufs (0, out, st)).congr (hkeep _ _) fun _ => rfl
  exact .bind (((@spends_free env big.addr).frame out.bufs).congr (add_comm _ _)
    fun _ => rfl) fun _ => .pure callBufs (0, out, { st with pBig := none })

theorem spends_bigfileStart (st : BigfileState) (p : TcpPacket3) :
    (heap env).Spends (blocks st.pBig) (bigfileStart env st p) callBufs := by
  have hfree : (heap env).Spends (blocks st.pBig) (freeBigfile st.pBig) fun _ => 0 := by
    cases st.pBig with
    | none => exact .pure (fun _ => 0) ()
    | some big => exact spends_free _
  refine .bind hfree fun _ => .bind (spends_allocBigfileInfoFromPacket p) fun r => ?_
  cases r with
  | none => exact .pure callBufs (-1, {}, { st with pBig := none })
  | some big => exact .pure callBufs (1, {}, { st with pBig := some big })

theorem spends_bigfileEnd {st : BigfileState} {big : Block BigfileRecv} (buf : Buf)
    (args : BigfileArgs) (hbig : st.pBig = some big) :
    (heap env).Spends ({big.addr} + {buf.addr}) (bigfileEnd env st big buf args) callBufs :=
  .bind (((@spends_free env buf.addr).frame {big.addr}).congr (add_comm _ _)
    fun _ => zero_add _) fun _ => .ite (fun _ => .bind (spends_free _) fun _ =>
      .pure callBufs (-1, {}, { st with pBig := none })) fun _ => spends_deliverBigfile args hbig

/-- The buffer of a fragment that is accepted stays behind. -/
theorem spends_bigfileFrag {st : BigfileState} {big : Block BigfileRecv} (buf : Buf)
    (contentsSize : Int) (hbig : st.pBig = some big) :
    (heap env).Spends ({big.addr} + {buf.addr}) (bigfileFrag st big buf contentsSize)
      fun r => callBufs r + if r.1 = 1 then {buf.addr} else 0 := by
  have hkept : blocks (firstFragment st big).pBig = {big.addr} := by
    rw [firstFragment_pBig, hbig]
    rfl
  have hrefuse : (heap env).Spends ({big.addr} + {buf.addr})
      (do free buf.addr; pure (-1, {}, firstFragment st big))
      fun r : Int × BigfileOut × BigfileState =>
        callBufs r + if r.1 = 1 then {buf.addr} else 0 := by
    refine .bind (((@spends_free env buf.addr).frame {big.addr}).congr (add_comm _ _)
      fun _ => zero_add _) fun _ => ?_
    refine (Spends.pure (fun r : Int × BigfileOut × BigfileState =>
      callBufs r + if r.1 = 1 then {buf.addr} else 0) (-1, {}, firstFragment st big)).congr ?_
        fun _ => rfl
    rw [callBufs, hkept]
    exact add_zero _
  refine .ite (fun _ => hrefuse) fun _ => ?_
  cases fragmentPayload buf.mem contentsSize big.val.next (firstFragment st big).remainSize with
  | error f => exact .error fun w => ⟨_, w, rfl⟩
  | ok r =>
    cases r with
    | none => exact hrefuse
    | some payload =>
      have hcopy : (heap env).Spends 0
          (copyFragment (firstFragment st big).pContents big payload) fun _ => 0 := by
        cases (firstFragment st big).pContents with
        | none => exact .error fun w => ⟨_, w, rfl⟩
        | some q => exact .ite (fun _ => .error fun w => ⟨_, w, rfl⟩) fun _ => spends_store _ _ _ _
      exact .bind ((hcopy.frame _).congr (zero_add _) fun _ => zero_add _) fun contents =>
        .pure (fun r : Int × BigfileOut × BigfileState =>
          callBufs r + if r.1 = 1 then {buf.addr} else 0) _

end Spends

end NucleoW5500
