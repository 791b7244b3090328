import NucleoW5500.Datagrams
import NucleoW5500.Timing

/-! What the commands of the UDP server do to the host and to the delay of the event loop. -/

namespace NucleoW5500.Udp

open CString

/-- The words of a text, with any number of blanks between them. -/
def words (text : List UInt8) : List (List UInt8) := (text.splitOn 32).filter (· ≠ [])

/-- A datagram as a string from offset `i` on. -/
def Datagram.text (d : Datagram) (i : Nat) : List UInt8 := cstr (d.data ++ [0]) i

/-- What a datagram asks for, with the text of its number. -/
inductive Order
  | connect (port : List UInt8)
  | delay (text : List UInt8)
  | nothing
  deriving DecidableEq, Repr

def Datagram.order (d : Datagram) : Order :=
  if ewCon.isPrefixOf d.data then
    match words (d.text 7) with
    | port :: id :: _ => if id ++ [0] = w5500 then .connect port else .nothing
    | _ => .nothing
  else if ewDelay.isPrefixOf d.data then .delay (d.text 9)
  else .nothing

structure Numeral (text : List UInt8) (n : Nat) : Prop where
  nonempty : text ≠ []
  digits : ∀ c ∈ text, isDigit c = true
  value : digitsValue text = n

theorem words_blank (text : List UInt8) : words (32 :: text) = words text := by
  rw [words, List.splitOn_cons_eq_if_modifyHead, if_pos (by decide)]
  rfl

theorem words_dropWhile (text : List UInt8) : words (text.dropWhile (· == 32)) = words text := by
  induction text with
  | nil => rfl
  | cons c text ih =>
    by_cases hc : c = 32
    · rw [hc, List.dropWhile_cons_of_pos (by decide), words_blank, ih]
    · rw [List.dropWhile_cons_of_neg (by simpa using hc)]

theorem words_word {word : List UInt8} (hne : word ≠ []) (hblank : (32 : UInt8) ∉ word)
    (rest : List UInt8) : words (word ++ 32 :: rest) = word :: words rest := by
  rw [words, List.splitOn_append_cons_self_of_not_mem hblank,
    List.filter_cons_of_pos (by simpa using hne), words]

theorem words_last {word : List UInt8} (hne : word ≠ []) (hblank : (32 : UInt8) ∉ word) :
    words word = [word] := by
  rw [words, List.splitOn_eq_singleton hblank, List.filter_cons_of_pos (by simpa using hne)]
  rfl

theorem strtok_words (text : List UInt8) :
    (strtok text = none ∧ words text = []) ∨
      ∃ word rest, strtok text = some (word, rest) ∧ words text = word :: words rest := by
  rw [strtok, ← words_dropWhile]
  cases hs : text.dropWhile (· == 32) with
  | nil => exact .inl ⟨rfl, rfl⟩
  | cons c s =>
    right
    have hc : (c != 32) = true := by
      have hhead := List.head?_dropWhile_not (· == 32) text
      rw [hs] at hhead
      simpa using hhead
    have hne : (c :: s).takeWhile (· != 32) ≠ [] := by
      rw [List.takeWhile_cons_of_pos (p := (· != 32)) hc]
      exact List.cons_ne_nil _ _
    have hblank : (32 : UInt8) ∉ (c :: s).takeWhile (· != 32) := fun h =>
      absurd (List.mem_takeWhile_imp h) (by decide)
    refine ⟨_, _, if_neg (List.cons_ne_nil c s), ?_⟩
    have hsplit := List.takeWhile_append_dropWhile (p := (· != 32)) (l := c :: s)
    cases hrest : (c :: s).dropWhile (· != 32) with
    | nil =>
      rw [hrest, List.append_nil] at hsplit
      have hlast := words_last hne hblank
      rw [hsplit] at hlast ⊢
      rw [hlast]
      rfl
    | cons b rest =>
      have hb : b = 32 := by
        have hhead := List.head?_dropWhile_not (· != 32) (c :: s)
        rw [hrest] at hhead
        simpa using hhead
      rw [hrest, hb] at hsplit
      rw [List.drop_one, List.tail_cons, ← words_word hne hblank rest, hsplit]

theorem strncmpEq_iff {l text : List UInt8} (h0 : (0 : UInt8) ∉ text) :
    strncmpEq (l ++ [0]) text = true ↔ text <+: l := by
  refine ⟨prefix_of_strncmpEq h0, ?_⟩
  rintro ⟨rest, rfl⟩
  rw [strncmpEq, decide_eq_true_eq, List.append_assoc, read_append_left]

/-- `strncmp(id_ptr, "w5500", 6) == 0` for a token, which has no terminator inside. -/
theorem strncmpEq_w5500 {id : List UInt8} (h0 : (0 : UInt8) ∉ id) :
    strncmpEq id w5500 = true ↔ id ++ [0] = w5500 := by
  have hmem : read id 0 w5500.length = read (id ++ [0]) 0 (5 + 1) := by
    have hzero : id ++ [0] = id ++ List.replicate 1 0 := rfl
    rw [hzero, CString.read, CString.read]
    simp only [peek_append_zeros]
    rfl
  rw [strncmpEq, decide_eq_true_eq, hmem]
  constructor
  · intro h
    have hsplit : w5500 = [119, 53, 53, 48, 48] ++ [0] := rfl
    rw [read_add, hsplit] at h
    obtain ⟨hname, hend⟩ := List.append_inj h (by rw [length_read]; rfl)
    have hstart : strncmpEq (id ++ [0]) [119, 53, 53, 48, 48] = true := decide_eq_true hname
    obtain ⟨rest, rfl⟩ := prefix_of_strncmpEq (by decide) hstart
    cases rest with
    | nil => rfl
    | cons c rest =>
      have hc : c = 0 := (List.cons.inj hend).1
      exact absurd (List.mem_append_right _ (hc ▸ List.mem_cons_self)) h0
  · intro h
    rw [h]
    rfl

theorem atoi_numeral {text : List UInt8} {n : Nat} (h : Numeral text n) (hn : n < 2 ^ 31) :
    atoi text 0 = n := by
  have hatoi := @atoi_digits [] text [] h.nonempty h.digits rfl (by rwa [h.value])
  rwa [List.nil_append, List.append_nil, h.value] at hatoi

theorem strtok_subset {text word rest : List UInt8} (h : strtok text = some (word, rest)) :
    word ⊆ text ∧ rest ⊆ text := by
  rw [strtok] at h
  split_ifs at h
  cases h
  have hdrop : text.dropWhile (· == 32) <:+ text := List.dropWhile_suffix _
  refine ⟨fun c hc => hdrop.subset ((List.takeWhile_prefix _).subset hc), fun c hc => ?_⟩
  exact hdrop.subset ((List.dropWhile_suffix _).subset (List.mem_of_mem_drop hc))

theorem ewConPort_words (mem : List UInt8) :
    ewConPort mem =
      match words (cstr mem 7) with
      | port :: id :: _ => if id ++ [0] = w5500 then some (UInt16.ofInt (atoi port 0)) else none
      | _ => none := by
  rw [ewConPort]
  have h0 := zero_notMem_cstr mem 7
  generalize cstr mem 7 = text at h0
  rcases strtok_words text with ⟨hnone, hwords⟩ | ⟨port, rest, hsome, hwords⟩
  · rw [hnone, hwords]
  · rcases strtok_words rest with ⟨hnone, hwords'⟩ | ⟨id, rest', hsome', hwords'⟩
    · rw [hsome, hwords, hwords']
      dsimp only
      rw [hnone]
    · have hid : (0 : UInt8) ∉ id := fun h =>
        h0 ((strtok_subset hsome).2 ((strtok_subset hsome').1 h))
      rw [hsome, hwords, hwords']
      dsimp only
      rw [hsome']
      dsimp only
      simp only [strncmpEq_w5500 hid]

theorem command_eq (d : Datagram) :
    command (d.data ++ [0]) =
      if ewHello <+: d.data then some .hello
      else if ewCon <+: d.data then some .con
      else if ewDelay <+: d.data then some .delay
      else none := by
  rw [command]
  simp only [strncmpEq_iff (show (0 : UInt8) ∉ ewHello by decide),
    strncmpEq_iff (show (0 : UInt8) ∉ ewCon by decide),
    strncmpEq_iff (show (0 : UInt8) ∉ ewDelay by decide)]

theorem not_both_begin {a b data : List UInt8} (ha : a <+: data)
    (hne : ¬ (a <+: b ∨ b <+: a)) : ¬ b <+: data := by
  intro hb
  have hnested := List.prefix_or_prefix_of_prefix ha hb
  exact hne hnested

theorem atoi_text {d : Datagram} {i : Nat} (hi : i ≤ d.data.length) :
    atoi (d.data ++ [0]) i = atoi (d.text i) 0 := by
  have hmem := List.takeWhile_append_dropWhile (p := (· != 0)) (l := (d.data ++ [0]).drop i)
  have hdrop : (d.data ++ [0]).drop i = d.data.drop i ++ [0] := List.drop_append_of_le_length hi
  cases hrest : ((d.data ++ [0]).drop i).dropWhile (· != 0) with
  | nil =>
    rw [hrest, List.append_nil] at hmem
    have hzero : (0 : UInt8) ∈ (d.data ++ [0]).drop i := by
      rw [hdrop]
      exact List.mem_append_right _ List.mem_cons_self
    rw [← hmem] at hzero
    exact absurd (List.mem_takeWhile_imp hzero) (by decide)
  | cons c rest =>
    have hc : c = 0 := by
      have hhead := List.head?_dropWhile_not (· != 0) ((d.data ++ [0]).drop i)
      rw [hrest] at hhead
      simpa using hhead
    rw [hrest, hc] at hmem
    rw [atoi, ← hmem, (numeral_append_zero _ rest).1, atoi, List.drop_zero, Datagram.text, cstr]

/-- The order of a datagram is what the source reads from the string in `recv_dgram`. -/
theorem answer_order (t : Turn) (s : Server) (pos : Nat) (d : Datagram) :
    (answer t s pos d.data d.sender).1 =
      match d.order with
      | .connect port => { s with comm := ⟨⟨d.sender.ip, UInt16.ofInt (atoi port 0)⟩, .connectHost⟩ }
      | .delay text => { s with delay := atoi text 0 }
      | .nothing => s := by
  rw [answer, Datagram.order, command_eq]
  simp only [List.isPrefixOf_iff_prefix]
  by_cases hhello : ewHello <+: d.data
  · rw [if_pos hhello, if_neg (not_both_begin hhello (by decide)),
      if_neg (not_both_begin hhello (by decide))]
  rw [if_neg hhello]
  by_cases hcon : ewCon <+: d.data
  · rw [if_pos hcon, if_pos hcon]
    dsimp only
    rw [ewConPort_words, Datagram.text]
    cases words (cstr (d.data ++ [0]) 7) with
    | nil => rfl
    | cons port more =>
      cases more with
      | nil => rfl
      | cons id more =>
        dsimp only
        by_cases hid : id ++ [0] = w5500
        · rw [if_pos hid, if_pos hid]
        · rw [if_neg hid, if_neg hid]
  rw [if_neg hcon, if_neg hcon]
  by_cases hdelay : ewDelay <+: d.data
  · rw [if_pos hdelay, if_pos hdelay]
    dsimp only
    rw [atoi_text (show 9 ≤ d.data.length from hdelay.length_le)]
  · rw [if_neg hdelay, if_neg hdelay]

/-- The socket is open, no datagram has been read in part, and `d` is the next one. -/
structure Receives (t : Turn) (s : Server) (d : Datagram) : Prop where
  status : t.status = .udp
  opened : t.closes = false
  whole : s.socket.remainedSize = 0
  next : d.bytes <+: (s.socket.arrive t.arrived).rx
  short : d.data.length ≤ 40

theorem Receives.recvfrom {t : Turn} {s : Server} {d : Datagram} (h : Receives t s d) :
    ∃ socket, Udp.recvfrom t.closes maxEwDgram t.stack (s.socket.arrive t.arrived) =
      ((d.data.length : Int), d.data, d.sender, socket) := by
  obtain ⟨rest, hrx⟩ := h.next
  have hwhole : (s.socket.arrive t.arrived).remainedSize = 0 := h.whole
  have htake : d.data.take 40 = d.data := List.take_of_length_le h.short
  have hne : ¬ (s.socket.arrive t.arrived).rx = [] := by
    intro hnil
    have hlen := d.length_bytes
    rw [hnil, List.append_eq_nil_iff] at hrx
    rw [hrx.1, List.length_nil] at hlen
    omega
  have hsocket : s.socket.arrive t.arrived = ⟨d.bytes ++ rest,
      (s.socket.arrive t.arrived).remainedSize, (s.socket.arrive t.arrived).taken⟩ := by rw [hrx]
  rw [Udp.recvfrom, if_pos hwhole, h.opened, if_neg Bool.false_ne_true, if_neg hne, hsocket,
    recvfromHead_bytes]
  dsimp only
  rw [recvfromData_piece d.fits, htake]
  exact ⟨_, rfl⟩

/-- A call does to the server's variables what the order of the datagram says. -/
theorem commUdpServer_order {t : Turn} {s : Server} {d : Datagram} (h : Receives t s d) :
    (commUdpServer t s).1.comm = (match d.order with
      | .connect port => ⟨⟨d.sender.ip, UInt16.ofInt (atoi port 0)⟩, .connectHost⟩
      | _ => s.comm) ∧
    (commUdpServer t s).1.delay = (match d.order with
      | .delay text => atoi text 0
      | _ => s.delay) := by
  obtain ⟨socket, hrecv⟩ := h.recvfrom
  rw [commUdpServer, h.status]
  dsimp only
  rw [hrecv]
  dsimp only
  by_cases hpos : (d.data.length : Int) > 0
  · rw [if_pos hpos, answer_order]
    cases d.order <;> exact ⟨rfl, rfl⟩
  · have hnil : d.data = [] := List.eq_nil_of_length_eq_zero (by omega)
    have horder : d.order = .nothing := by
      rw [Datagram.order, hnil]
      rfl
    rw [if_neg hpos, horder]
    exact ⟨rfl, rfl⟩

theorem toNat_ofInt_numeral {n : Nat} (h : n ≤ 65535) : (UInt16.ofInt (n : Int)).toNat = n := by
  rw [UInt16.ofInt, UInt16.toNat_ofNat']
  omega

/-- What the order of `d` does to the server. The port is the low half of what `atoi` reads, the
delay is what `atoi` reads, and both are the number itself where it is a numeral in the range of
its variable; `HAL_Delay` then waits for that time. -/
structure Obeys (d : Datagram) (s s' : Server) : Prop where
  comm : s'.comm = match d.order with
    | .connect port => ⟨⟨d.sender.ip, UInt16.ofInt (atoi port 0)⟩, .connectHost⟩
    | _ => s.comm
  delay : s'.delay = match d.order with
    | .delay text => atoi text 0
    | _ => s.delay
  port_numeral : ∀ port n, d.order = .connect port → Numeral port n → n ≤ 65535 →
    s'.comm.host.port.toNat = n
  delay_numeral : ∀ text n, d.order = .delay text → Numeral text n → n < 2 ^ 31 →
    s'.delay = n ∧ ∀ start (turns : List (UInt32 × Unit)),
      Ticks.halDelay start (UInt32.ofInt s'.delay) turns = Ticks.fullTime start n turns

theorem Receives.obeys {t : Turn} {s : Server} {d : Datagram} (h : Receives t s d) :
    Obeys d s (commUdpServer t s).1 := by
  obtain ⟨hcomm, hdelay⟩ := commUdpServer_order h
  refine ⟨hcomm, hdelay, fun port n horder hnum hn => ?_, fun text n horder hnum hn => ?_⟩
  · rw [hcomm, horder]
    dsimp only
    rw [atoi_numeral hnum (by omega), toNat_ofInt_numeral hn]
  · rw [horder] at hdelay
    have hvalue : (commUdpServer t s).1.delay = n := hdelay.trans (atoi_numeral hnum hn)
    refine ⟨hvalue, fun start turns => ?_⟩
    rw [hvalue, Ticks.halDelay_eq, Ticks.toNat_ofInt_of_nonneg (by omega) (by omega),
      Int.toNat_natCast]

theorem runTurns_socket {ts : List Turn} {s : Server} {done todo : List Datagram}
    (h : Between s.socket done todo) (hshort : ∀ d ∈ todo ++ arrivals ts, d.data.length ≤ 40) :
    ∃ done' todo', done ++ (todo ++ arrivals ts) = done' ++ todo' ∧
      Between (runTurns ts s).1.socket done' todo' := by
  induction ts generalizing s done todo with
  | nil =>
    rw [arrivals, List.flatMap_nil, List.append_nil]
    exact ⟨done, todo, rfl, h⟩
  | cons t ts ih =>
    have harr : todo ++ arrivals (t :: ts) = (todo ++ t.arrived) ++ arrivals ts := by
      rw [arrivals, List.flatMap_cons, List.append_assoc]
      rfl
    rw [harr] at hshort ⊢
    obtain ⟨now, todo', hsplit, hbetween, -⟩ := commUdpServer_between h
      (fun d hd => hshort d (List.mem_append_left _ hd)) []
    rw [hsplit, List.append_assoc] at hshort ⊢
    rw [← List.append_assoc]
    exact ih hbetween fun d hd => hshort d (List.mem_append_right now hd)

/-- A turn that does not find the socket in its UDP state leaves host and delay alone. -/
theorem untouched_of_status {t : Turn} {s : Server} (ht : t.status ≠ .udp) :
    (∀ d, ¬ Receives t s d) ∧ (commUdpServer t s).1.comm = s.comm ∧
      (commUdpServer t s).1.delay = s.delay := by
  refine ⟨fun d h => ht h.status, ?_, ?_⟩
  all_goals
    rw [commUdpServer]
    cases hs : t.status with
    | closed => rfl
    | other => rfl
    | udp => exact absurd hs ht

/-- In a run in which no datagram is longer than the buffer, a call does what the datagram that it
takes out orders, and nothing to the two variables if it takes none. -/
theorem commUdpServer_numbers (ts : List Turn) (t : Turn)
    (hshort : ∀ d ∈ arrivals (ts ++ [t]), d.data.length ≤ 40) :
    (∃ d ∈ arrivals (ts ++ [t]), Receives t (runTurns ts .start).1 d ∧
        Obeys d (runTurns ts .start).1 (commUdpServer t (runTurns ts .start).1).1) ∨
      ((∀ d, ¬ Receives t (runTurns ts .start).1 d) ∧
        (commUdpServer t (runTurns ts .start).1).1.comm = (runTurns ts .start).1.comm ∧
        (commUdpServer t (runTurns ts .start).1).1.delay = (runTurns ts .start).1.delay) := by
  have harr : arrivals (ts ++ [t]) = arrivals ts ++ t.arrived := by
    rw [arrivals, List.flatMap_append, List.flatMap_cons, List.flatMap_nil, List.append_nil]
    rfl
  rw [harr] at hshort ⊢
  have hbefore : ∀ d ∈ [] ++ arrivals ts, d.data.length ≤ 40 := fun d hd =>
    hshort d (List.mem_append_left _ hd)
  obtain ⟨done, todo, hsplit, hbetween⟩ := runTurns_socket Between.start hbefore
  rw [List.nil_append, List.nil_append] at hsplit
  rw [hsplit] at hshort ⊢
  generalize (runTurns ts .start).1 = s at hbetween ⊢
  have harrive := hbetween.arrive t.arrived
  cases ht : t.status with
  | closed => exact .inr (untouched_of_status (by rw [ht]; decide))
  | other => exact .inr (untouched_of_status (by rw [ht]; decide))
  | udp =>
    by_cases hidle : t.closes = true ∨ todo ++ t.arrived = []
    · right
      rw [commUdpServer_idle harrive ht hidle]
      refine ⟨fun d h => ?_, rfl, rfl⟩
      rcases hidle with hcloses | hnil
      · cases hcloses.symm.trans h.opened
      · have hnext := h.next
        rw [harrive.rx, hnil] at hnext
        have hlen := hnext.length_le
        rw [d.length_bytes] at hlen
        exact absurd hlen (by simp [stream])
    · rw [not_or] at hidle
      obtain ⟨d, rest, hnext⟩ := List.exists_cons_of_ne_nil hidle.2
      have hmem : d ∈ done ++ todo ++ t.arrived := by
        rw [List.append_assoc, hnext]
        exact List.mem_append_right _ List.mem_cons_self
      have hreceives : Receives t s d := by
        refine ⟨ht, Bool.eq_false_iff.mpr hidle.1, hbetween.remainedSize, ?_, hshort d hmem⟩
        rw [harrive.rx, hnext, stream_cons]
        exact List.prefix_append _ _
      exact .inl ⟨d, hmem, hreceives, hreceives.obeys⟩

/-- `"ew con 5000 w5500"` -/
def ewConFiveThousand : Datagram where
  sender := ⟨[10, 0, 0, 1], 9⟩
  data := ewCon ++ [53, 48, 48, 48, 32] ++ w5500.dropLast
  address := by decide
  fits := by decide

theorem commUdpServer_numbers_five_thousand :
    Obeys ewConFiveThousand .start (commUdpServer (.receive [ewConFiveThousand]) .start).1 := by
  have hshort : ∀ d ∈ arrivals ([] ++ [Turn.receive [ewConFiveThousand]]), d.data.length ≤ 40 := by
    intro d hd
    rw [List.mem_singleton.mp hd]
    decide
  rcases commUdpServer_numbers [] (.receive [ewConFiveThousand]) hshort with
    ⟨d, hd, -, hobeys⟩ | ⟨hnone, -⟩
  · rw [List.mem_singleton.mp hd] at hobeys
    exact hobeys
  · exact absurd ⟨rfl, rfl, rfl, List.prefix_append _ _, by decide⟩ (hnone ewConFiveThousand)

/-- `"ew con 70000 w5500"` -/
def ewConSeventyThousand : Datagram where
  sender := ⟨[10, 0, 0, 1], 9⟩
  data := ewCon ++ [55, 48, 48, 48, 48, 32] ++ w5500.dropLast
  address := by decide
  fits := by decide

/-- The host gets port 4464. -/
theorem commUdpServer_unvalidated :
    ¬ ∀ (ts : List Turn) (t : Turn) (d : Datagram),
      (∀ d ∈ arrivals (ts ++ [t]), d.data.length ≤ 40) → Receives t (runTurns ts .start).1 d →
      (commUdpServer t (runTurns ts .start).1).1.comm.host.port ≠
        (runTurns ts .start).1.comm.host.port →
      ∃ port n, d.order = .connect port ∧ Numeral port n ∧ 1 ≤ n ∧ n ≤ 65535 := by
  intro h
  have hshort : ∀ d ∈ arrivals ([] ++ [Turn.receive [ewConSeventyThousand]]), d.data.length ≤ 40 := by
    intro d hd
    rw [List.mem_singleton.mp hd]
    decide
  obtain ⟨port, n, horder, hnumeral, -, hn⟩ := h [] (.receive [ewConSeventyThousand])
    ewConSeventyThousand hshort ⟨rfl, rfl, rfl, List.prefix_append _ _, by decide⟩ (by decide)
  have hport : ewConSeventyThousand.order = .connect [55, 48, 48, 48, 48] := by decide
  rw [hport] at horder
  cases horder
  have hvalue : digitsValue [55, 48, 48, 48, 48] = 70000 := by decide
  have := hnumeral.value
  omega

end NucleoW5500.Udp
