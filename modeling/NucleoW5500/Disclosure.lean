import NucleoW5500.Frames
import NucleoW5500.Heaps
import NucleoW5500.RoundTrip

/-! What `tcp_packet3_processor` sends. Only the two echoes send anything, and the plain
echo is a function of the packet exactly when its size field tells the truth. -/

namespace NucleoW5500

open CString Lockstep

def Silence (w w' : World) : Prop := w'.sent = w.sent

def Appending (w w' : World) : Prop := w.sent <+: w'.sent

instance : Frame Silence where
  refl _ := rfl
  trans _ _ _ h h' := Eq.trans h' h
  next _ := rfl
  frees _ _ := rfl
  console _ _ := rfl
  lines _ _ := rfl

instance : SendFrame Appending where
  refl _ := List.prefix_rfl
  trans _ _ _ h h' := List.IsPrefix.trans h h'
  next _ := List.prefix_rfl
  frees _ _ := List.prefix_rfl
  console _ _ := List.prefix_rfl
  lines _ _ := List.prefix_rfl
  send _ _ _ := List.prefix_append _ _

section Oblivious

def PrintedApart (w w' : World) : Prop := ∃ console, w' = { w with console }

instance : WorldAlike PrintedApart where
  next_eq := by
    rintro w _ ⟨console, rfl⟩
    rfl
  next := by
    rintro w _ ⟨console, rfl⟩
    exact ⟨console, rfl⟩
  frees := by
    rintro w _ addr ⟨console, rfl⟩
    exact ⟨console, rfl⟩
  console := by
    rintro w _ f ⟨console, rfl⟩
    exact ⟨f console, rfl⟩
  line := by
    rintro w _ l ⟨console, rfl⟩
    exact ⟨console, rfl⟩
  txScript_eq := by
    rintro w _ ⟨console, rfl⟩
    rfl
  send := by
    rintro w _ es bs ⟨console, rfl⟩
    exact ⟨console, rfl⟩

/-- What is on the console makes no difference. -/
abbrev oblivious : Habit Halt World := .same PrintedApart

theorem runs_consoleWriteb (buf buf' : List UInt8) (size size' : Int) :
    Runs PrintedApart Eq (consoleWriteb buf size) (consoleWriteb buf' size') := by
  rintro w _ ⟨console, rfl⟩
  exact .ok rfl ⟨_, rfl⟩

theorem runs_printString (mem mem' : List UInt8) :
    Runs PrintedApart Eq (printString mem) (printString mem') := by
  rintro w _ ⟨console, rfl⟩
  exact .ok rfl ⟨_, rfl⟩

end Oblivious

/-- The bytes of the contents that an extraction fills in. -/
def extractedLength (p : TcpPacket3) : Nat :=
  if isPacketEncrypted p then (getPacketContentsSize p - 8).toNat else (getPacketContentsSize p).toNat

/-- The size field of an encrypted packet is the number of bytes that decryption fills in,
or larger than what a packet may carry. -/
def TellsSize (p : TcpPacket3) : Prop :=
  isPacketEncrypted p = true →
    getPacketContentsSize p - 8 = p.orgSize.toNat ∨ tcpPacket3MaxContentsSize < p.orgSize.toNat

/-- Decryption fits its buffer. -/
def Decryptable (p : TcpPacket3) : Prop :=
  isPacketEncrypted p = true →
    8 ≤ getPacketContentsSize p ∧ getPacketContentsSize p - 8 ≤ p.orgSize.toNat

section Echo

variable {env env' : HeapEnv}

theorem runs_extractPacketContents (hok : ∀ n, env.ok n = env'.ok n) (p : TcpPacket3) :
    Runs PrintedApart (Option.Rel (AgreeTo (extractedLength p))) (extractPacketContents env p)
      (extractPacketContents env' p) := by
  have hlen : extractedLength p =
      (read p.data (copiedFrom p) (copiedSize p).toNat).length := by
    rw [extractedLength, length_read, copiedSize]
    split_ifs <;> rfl
  have hrel : ∀ r r', Option.Rel (Twin env env' (read p.data (copiedFrom p) (copiedSize p).toNat))
      r r' → Option.Rel (AgreeTo (extractedLength p)) r r' := by
    intro r r' hr
    cases hr with
    | none => exact .none
    | some hb => exact .some (hlen ▸ hb.agree)
  exact (twin_extractPacketContents hok p).mono hrel

theorem runs_echoPlainPacket (hok : ∀ n, env.ok n = env'.ok n) {p : TcpPacket3}
    (hsize : TellsSize p) :
    Runs PrintedApart Eq (echoPlainPacket env p) (echoPlainPacket env' p) := by
  refine Runs.ite (fun he => Runs.bind (runs_extractPacketContents hok p) fun r r' hr => ?_)
    fun _ => Runs.pure rfl
  cases hr with
  | none => exact Runs.pure rfl
  | @some b b' hb =>
    have hlen : p.orgSize.toNat ≤ 50000 → extractedLength p = p.orgSize.toNat := by
      intro hmax
      rw [extractedLength, if_pos he]
      rcases hsize he with heq | hlong
      · omega
      · rw [tcpPacket3MaxContentsSize] at hlong
        omega
    have hcreate := @runs_createTcpPacket3_plain env env' PrintedApart _ hok b.mem b'.mem
      p.orgSize.toNat p.orgSize.toNat_lt fun hmax => by rw [← hlen hmax]; exact hb.bytes
    refine Runs.bind (runs_consoleWriteb _ _ _ _) fun _ _ _ => Runs.bind hcreate
      fun pSend _ hp => ?_
    subst hp
    rw [hb.addr]
    refine oblivious.bind ?_ fun _ => HeapHabit.free _
    cases pSend with
    | none => exact oblivious.pure _
    | some pSend => exact oblivious.bind (holds_sendTcpPacket3 _) fun _ => HeapHabit.free _

theorem runs_processCmdline (hok : ∀ n, env.ok n = env'.ok n) (p : TcpPacket3) :
    Runs PrintedApart Eq (processCmdline env p) (processCmdline env' p) := by
  have hget : Runs PrintedApart (Option.Rel (AgreeTo (extractedLength p)))
      (getCmdlineFromPacket env p) (getCmdlineFromPacket env' p) :=
    Runs.ite (fun _ => Runs.pure .none) fun _ => runs_extractPacketContents hok p
  refine Runs.bind hget fun r r' hr => ?_
  cases hr with
  | none => exact oblivious.bind (holds_sendTcpPacket3 p) fun _ => oblivious.pure _
  | some hb =>
    dsimp only
    rw [hb.addr]
    exact Runs.bind (runs_printString _ _) fun _ _ _ => oblivious.bind (HeapHabit.free _) fun _ =>
      oblivious.bind (holds_sendTcpPacket3 p) fun _ => oblivious.pure _

theorem PrintedApart.sent {w w' : World} (h : PrintedApart w w') : w.sent = w'.sent := by
  obtain ⟨console, rfl⟩ := h
  rfl

theorem ends_of_silence {α β : Type} {x : CM α} {y : CM β} (hx : Moves Silence x)
    (hy : Moves Silence y) : Ends PrintedApart (fun w w' => w.sent = w'.sent) x y := by
  intro w w' h
  rw [hx w, hy w', h.sent]

theorem ends_processPacketType (hok : ∀ n, env.ok n = env'.ok n) (st : BigfileState)
    (p : TcpPacket3) (addr : Nat) (phead : List (Block TcpPacket3)) :
    Ends PrintedApart (fun w w' => w.sent = w'.sent)
      (do let st ← processPacketType env st p; free addr; pure (phead, st))
      (do let st ← processPacketType env' st p; free addr; pure (phead, st)) := by
  by_cases ht : p.type = tcpPacket3TypeCmdline
  · have hcmd : Runs PrintedApart Eq (do processCmdline env p; pure st)
        (do processCmdline env' p; pure st) :=
      Runs.bind (runs_processCmdline hok p) fun _ _ _ => Runs.pure rfl
    rw [processPacketType, processPacketType, if_pos ht, if_pos ht]
    refine (Runs.bind (S := Eq) hcmd fun a b hab => ?_).ends fun _ _ h => h.sent
    subst hab
    exact oblivious.bind (HeapHabit.free addr) fun _ => oblivious.pure _
  · have hquiet : ∀ e : HeapEnv, Moves Silence
        (do let st ← processPacketType e st p; free addr; pure (phead, st)) :=
      fun e => .bind (holds_processPacketType_quiet (Q := .moves Silence) e st ht) fun _ =>
        .bind (HeapHabit.free (Q := .moves Silence) _) fun _ => .pure _
    exact ends_of_silence (hquiet env) (hquiet env')

theorem ends_tcpPacket3Processor (hok : ∀ n, env.ok n = env'.ok n) (st : BigfileState)
    {p : Block TcpPacket3} (hsize : TellsSize p.val) (phead : List (Block TcpPacket3)) :
    Ends PrintedApart (fun w w' => w.sent = w'.sent) (tcpPacket3Processor env st (p :: phead))
      (tcpPacket3Processor env' st (p :: phead)) := by
  exact Runs.bind_ends (PrintHabit.line (Q := oblivious) _) (fun _ _ h => h.sent) fun _ _ _ =>
    Runs.bind_ends (holds_printTcpPacket3 (Q := oblivious) _ _) (fun _ _ h => h.sent) fun _ _ _ =>
      Runs.bind_ends (runs_echoPlainPacket hok hsize) (fun _ _ h => h.sent) fun _ _ _ =>
        ends_processPacketType hok st p.val p.addr phead

end Echo

section Leak

theorem wizSendb_room {buf : List UInt8} {n count : Nat} {es : List TxEvent} {w : World}
    (hpos : 0 < n) (hlt : n < 65536) (hroom : n ≤ count) (hs : w.txScript = .room count :: es) :
    wizSendb buf n w = .ok (n : Int) { w with txScript := es, sent := w.sent ++ read buf 0 n } := by
  have hsend : send buf 0 (UInt16.ofInt (n : Int)) w =
      .ok (n : Int) { w with txScript := es, sent := w.sent ++ read buf 0 n } := by
    simp only [send, hs, ofInt_ne_zero hpos hlt, if_false, toNat_ofInt_of_lt hlt,
      Nat.min_eq_right hroom]
  have hneg : ¬ (n : Int) < 0 := by omega
  have hdone : ¬ (n : Int) - n > 0 := by omega
  rw [wizSendb, wizSendbLoop, CM.bind_ok hsend, if_neg hneg, if_neg hdone, Int.toNat_natCast,
    Nat.zero_add]
  rfl

theorem sendTcpPacket3_room {p : TcpPacket3} {es : List TxEvent} {w : World}
    (hs : w.txScript = .room 8 :: .room 65535 :: es) : ∃ w', sendTcpPacket3 p w = .ok 0 w' := by
  have hhead := @wizSendb_room p.header 8 8 (.room 65535 :: es) w (by decide) (by decide) le_rfl hs
  have hlt := p.dataSize.toNat_lt
  rw [sendTcpPacket3, tcpPacket3HeaderSize, CM.bind_ok hhead, if_neg (by decide)]
  by_cases hz : p.dataSize > 0
  · have hpos : 0 < p.dataSize.toNat := UInt16.lt_iff_toNat_lt.mp hz
    have hbad : ¬ ((p.dataSize.toNat : Int) < 0 ∨ (p.dataSize.toNat : Int) ≠ p.dataSize.toNat) := by
      omega
    rw [if_pos hz, CM.bind_ok (wizSendb_room hpos hlt (by omega) rfl), if_neg hbad]
    exact ⟨_, rfl⟩
  · rw [if_neg hz]
    exact ⟨_, rfl⟩

def HeapEnv.filled (n : Nat) (b : UInt8) : HeapEnv := ⟨fun _ => true, fun _ => List.replicate n b⟩

/-- Behind the decrypted bytes the echo goes on with what the buffer held before. -/
theorem echoPlainPacket_leaks {p : TcpPacket3} {n k : Nat} (b : UInt8) {w : World}
    {es : List TxEvent} (he : isPacketEncrypted p = true) (hz : p.dataSize ≠ 0)
    (hn : getPacketContentsSize p = (n : Int) + 8) (hk : p.orgSize.toNat = n + (k + 1))
    (hmax : n + (k + 1) ≤ 50000) (hs : w.txScript = .room 8 :: .room 65535 :: es) :
    ∃ header w', echoPlainPacket (.filled (n + (k + 2)) b) p w = .ok () w' ∧ header.length = 8 ∧
      w'.sent = w.sent ++ (header ++
        (read p.data (getPacketContentsBuf p + 8) n ++ List.replicate (k + 1) b)) := by
  have hmem : overwrite (List.replicate (n + (k + 2)) b) 0
      (read p.data (getPacketContentsBuf p + 8) n) =
        (read p.data (getPacketContentsBuf p + 8) n ++ List.replicate (k + 1) b) ++ [b] := by
    have hdrop : n + (k + 2) - n = (k + 1) + 1 := by omega
    rw [overwrite_zero, length_read, List.drop_replicate, hdrop, List.replicate_succ',
      List.append_assoc]
  have hlen : (read p.data (getPacketContentsBuf p + 8) n ++ List.replicate (k + 1) b).length =
      n + (k + 1) := by simp
  have hsize : (UInt32.ofInt (getPacketPlainContentsSize p + 1)).toNat = n + (k + 1) + 1 := by
    rw [getPacketPlainContentsSize, hk, UInt32.ofInt, UInt32.toNat_ofNat']
    omega
  have hext : extractPacketContents (.filled (n + (k + 2)) b) p w = .ok (some ⟨w.next,
      n + (k + 1) + 1, (read p.data (getPacketContentsBuf p + 8) n ++ List.replicate (k + 1) b) ++
        [b]⟩) { w with next := w.next + 1 } := by
    have hdec := @decryptContents_ok p.data (getPacketContentsBuf p) n
      ⟨w.next, n + (k + 1) + 1, List.replicate (n + (k + 2)) b⟩ (by dsimp only; omega)
      { w with next := w.next + 1 }
    rw [hmem] at hdec
    rw [extractPacketContents, if_neg hz]
    dsimp only
    rw [if_pos he, CM.bind_ok (malloc_some rfl), hsize, hn]
    exact CM.bind_ok hdec
  generalize read p.data (getPacketContentsBuf p + 8) n ++ List.replicate (k + 1) b = bytes
    at hlen hext ⊢
  obtain ⟨c, rfl⟩ : ∃ c : Contents, c.bytes = bytes :=
    ⟨⟨bytes, by rintro rfl; simp at hlen, by omega⟩, rfl⟩
  obtain ⟨addr, w₂, hcreate, hsent, hscript⟩ := @createTcpPacket3_created 0 0 c
    (.filled (n + (k + 2)) b) { w with
      next := w.next + 1, console := w.console ++ read (c.bytes ++ [b]) 0 (40 : Int).toNat }
    [b] rfl rfl
  rw [hlen, ← hk] at hcreate
  obtain ⟨w₃, hsend⟩ := @sendTcpPacket3_room (createdPacket 0 0 c).record es w₂ (hscript.trans hs)
  have hrec := (createdPacket 0 0 c).received_record
  have hwrote := sendTcpPacket3_sent (by rw [hrec.header]; rfl)
    (by rw [hrec.data, hrec.dataSize]) hsend
  rw [hsent, hrec.header, hrec.data] at hwrote
  refine ⟨(createdPacket 0 0 c).header, { w₃ with frees := w.next :: addr :: w₃.frees }, ?_, rfl,
    hwrote⟩
  rw [echoPlainPacket, if_pos he, CM.bind_ok hext]
  dsimp only
  rw [CM.bind_ok (consoleWriteb_ok _ _ _)]
  dsimp only
  rw [CM.bind_ok hcreate, sendCreated]
  dsimp only
  rw [CM.bind_ok ((CM.bind_ok hsend).trans (free_ok addr w₃)), free_ok]

/-- What is on the socket after the processor has dealt with the first packet. -/
def sentBy (env : HeapEnv) (st : BigfileState) (phead : List (Block TcpPacket3)) (w : World) :
    List UInt8 :=
  (final (tcpPacket3Processor env st phead w)).sent

theorem printTcpPacket3_ok (p : TcpPacket3) (n : Int) (w : World) :
    ∃ console lines, printTcpPacket3 p n w = .ok () { w with console, lines } := by
  rw [printTcpPacket3]
  dsimp only
  by_cases hd : p.dataSize > 0 ∧ n > 0
  · rw [if_pos hd]
    exact ⟨_, w.lines ++ [packetLine p], rfl⟩
  · rw [if_neg hd]
    exact ⟨w.console, w.lines ++ [packetLine p], rfl⟩

/-- What is shown first goes to the console whatever the heap is. -/
theorem tcpPacket3Processor_printed (p : Block TcpPacket3) (w : World) :
    ∃ console lines, ∀ env st phead, tcpPacket3Processor env st (p :: phead) w =
      (do
        echoPlainPacket env p.val
        let st ← processPacketType env st p.val
        free p.addr
        pure (phead, st)) { w with console, lines } := by
  obtain ⟨console, lines, hprint⟩ := printTcpPacket3_ok p.val 40
    { w with lines := w.lines ++ [receivedLine p.val] }
  refine ⟨console, lines, fun env st phead => ?_⟩
  rw [tcpPacket3Processor, printLine, CM.bind_ok (CM.modify_apply _ w), CM.bind_ok hprint]

theorem appending_processed (env : HeapEnv) (st : BigfileState) (p : TcpPacket3) (addr : Nat)
    (phead : List (Block TcpPacket3)) : Moves Appending
      (do let st ← processPacketType env st p; free addr; pure (phead, st)) :=
  .bind (holds_processPacketType (Q := .moves Appending) env st p) fun _ =>
    .bind (HeapHabit.free (Q := .moves Appending) _) fun _ => .pure _

theorem sentBy_filled {p : TcpPacket3} {n k : Nat} (b : UInt8)
    (he : isPacketEncrypted p = true) (hz : p.dataSize ≠ 0)
    (hn : getPacketContentsSize p = (n : Int) + 8) (hk : p.orgSize.toNat = n + (k + 1))
    (hmax : n + (k + 1) ≤ 50000) : ∃ header, header.length = 8 ∧
      header ++ (read p.data (getPacketContentsBuf p + 8) n ++ List.replicate (k + 1) b) <+:
        sentBy (.filled (n + (k + 2)) b) .start [⟨0, p⟩] { txScript := [.room 8, .room 65535] } := by
  obtain ⟨console, lines, hproc⟩ := tcpPacket3Processor_printed ⟨0, p⟩
    { txScript := [.room 8, .room 65535] }
  obtain ⟨header, w₂, hecho, hlen, hsent⟩ :=
    echoPlainPacket_leaks b (w := { txScript := [.room 8, .room 65535], console, lines }) he hz hn hk
      hmax rfl
  refine ⟨header, hlen, ?_⟩
  rw [sentBy, hproc, CM.bind_ok hecho]
  have hpre := appending_processed (.filled (n + (k + 2)) b) .start p 0 [] w₂
  rwa [Appending, hsent, List.nil_append] at hpre

end Leak

/-- The replies are functions of the packet. Whatever packet is received, as long as its
decryption fits its buffer: the bytes sent are the same over all contents of the heap
exactly when an encrypted packet tells how many bytes are decrypted, or is too long to be
echoed at all. -/
theorem tcpPacket3Processor_replies (q : WirePacket) (hfits : Decryptable q.record) :
    (∀ env env' : HeapEnv, (∀ n, env.ok n = env'.ok n) → ∀ addr st phead w,
      sentBy env st (⟨addr, q.record⟩ :: phead) w = sentBy env' st (⟨addr, q.record⟩ :: phead) w) ↔
      TellsSize q.record := by
  constructor
  · intro hsame he
    obtain ⟨h8, hle⟩ := hfits he
    by_contra hno
    simp only [not_or, not_lt, tcpPacket3MaxContentsSize] at hno
    obtain ⟨n, hn⟩ : ∃ n : Nat, getPacketContentsSize q.record = (n : Int) + 8 :=
      ⟨(getPacketContentsSize q.record - 8).toNat, by omega⟩
    obtain ⟨k, hk⟩ : ∃ k, q.record.orgSize.toNat = n + (k + 1) :=
      ⟨q.record.orgSize.toNat - n - 1, by omega⟩
    have hz : q.record.dataSize ≠ 0 := by
      intro h0
      have hle : getPacketContentsSize q.record ≤ q.record.dataSize.toNat := by
        rw [getPacketContentsSize]
        omega
      rw [h0, UInt16.toNat_zero] at hle
      omega
    obtain ⟨h₀, hlen₀, hpre₀⟩ := sentBy_filled 0 he hz hn hk (by omega)
    obtain ⟨h₁, hlen₁, hpre₁⟩ := sentBy_filled 1 he hz hn hk (by omega)
    rw [hsame (.filled (n + (k + 2)) 0) (.filled (n + (k + 2)) 1) fun _ => rfl] at hpre₀
    have hlen : (h₀ ++ (read q.record.data (getPacketContentsBuf q.record + 8) n ++
        List.replicate (k + 1) (0 : UInt8))).length = (h₁ ++ (read q.record.data
          (getPacketContentsBuf q.record + 8) n ++ List.replicate (k + 1) (1 : UInt8))).length := by
      simp [hlen₀, hlen₁]
    have heq := (List.prefix_of_prefix_length_le hpre₀ hpre₁ hlen.le).eq_of_length hlen
    have hdata := List.append_cancel_left (List.append_inj_right heq (hlen₀.trans hlen₁.symm))
    simp [List.replicate_succ] at hdata
  · intro hsize env env' hok addr st phead w
    exact ends_tcpPacket3Processor hok st (p := ⟨addr, q.record⟩) hsize phead w w ⟨w.console, rfl⟩

def encryptedLetters (orgSize : UInt16) : WirePacket where
  version := 1
  flag := 1
  type := 0
  data := encode16 orgSize ++ (encryptMark ++ [104, 105])
  fits := by simp [encryptMark]

/-- With the true size the echo is the same over a heap of zeros and one of sevens. -/
theorem tcpPacket3Processor_replies_letters :
    Decryptable (encryptedLetters 2).record ∧
      sentBy .ample .start [⟨0, (encryptedLetters 2).record⟩]
          { txScript := [.room 8, .room 65535] } =
        sentBy (.filled 9 7) .start [⟨0, (encryptedLetters 2).record⟩]
          { txScript := [.room 8, .room 65535] } := by
  have hfits : Decryptable (encryptedLetters 2).record := fun _ => by decide
  have hsize : TellsSize (encryptedLetters 2).record := fun _ => by decide
  exact ⟨hfits, (tcpPacket3Processor_replies (encryptedLetters 2) hfits).mpr hsize .ample
    (.filled 9 7) (fun _ => rfl) 0 .start [] _⟩

/-- With a size of five the echo has three bytes from the heap behind the letters. -/
theorem tcpPacket3Processor_discloses :
    Decryptable (encryptedLetters 5).record ∧
      sentBy .ample .start [⟨0, (encryptedLetters 5).record⟩]
          { txScript := [.room 8, .room 65535] } =
        [28, 66, 1, 0, 0, 5, 0, 29, 104, 105, 0, 0, 0] ∧
      sentBy (.filled 9 7) .start [⟨0, (encryptedLetters 5).record⟩]
          { txScript := [.room 8, .room 65535] } =
        [28, 66, 1, 0, 0, 5, 0, 29, 104, 105, 7, 7, 7] := by
  exact ⟨fun _ => by decide, by decide, by decide⟩

end NucleoW5500
