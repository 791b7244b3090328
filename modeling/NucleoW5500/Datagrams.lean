import NucleoW5500.Udp

/-! Which datagram the UDP server answers. `recvfrom` hands out a long datagram in pieces, and
only the first piece comes with its sender. -/

namespace NucleoW5500.Udp

open CString

/-- The datagram with its data at `pos` of the stream, and how far into the data that is. -/
def locate : List Datagram → Nat → Option (Datagram × Nat)
  | [], _ => none
  | d :: ds, pos =>
    if pos < d.bytes.length then if 8 ≤ pos then some (d, pos - 8) else none
    else locate ds (pos - d.bytes.length)

/-- A command stands at the start of a datagram, a reply goes to the sender of the datagram it
answers, and the host is the sender of an `ew con` datagram. -/
def Belongs (ds : List Datagram) : Event → Prop
  | .command pos _ => ∃ d, locate ds pos = some (d, 0)
  | .reply pos addr _ => ∃ d i, locate ds pos = some (d, i) ∧ addr = d.sender
  | .host pos h => ∃ d i, locate ds pos = some (d, i) ∧ ewCon <+: d.data ∧ h.ip = d.sender.ip

theorem word_wordBytes (a rest : List UInt8) {n : Nat} (hn : n < 65536) :
    word (a ++ (wordBytes n ++ rest)) a.length = UInt16.ofNat n := by
  have hhigh := peek_append_add a (wordBytes n ++ rest) 0
  have hlow := peek_append_add a (wordBytes n ++ rest) 1
  have h₀ : (peek (wordBytes n ++ rest) 0).toNat = n / 256 := by
    show (UInt8.ofNat (n / 256)).toNat = n / 256
    rw [UInt8.toNat_ofNat']
    omega
  have h₁ : (peek (wordBytes n ++ rest) 1).toNat = n % 256 := by
    show (UInt8.ofNat (n % 256)).toNat = n % 256
    rw [UInt8.toNat_ofNat']
    omega
  rw [Nat.add_zero] at hhigh
  rw [word, hhigh, hlow, h₀, h₁, Nat.div_add_mod]

theorem Datagram.length_head (d : Datagram) : d.head.length = 8 := by
  simp [Datagram.head, wordBytes, d.address]

theorem Datagram.length_bytes (d : Datagram) : d.bytes.length = 8 + d.data.length := by
  rw [Datagram.bytes, List.length_append, d.length_head]

theorem recvfromHead_bytes (d : Datagram) (rest : List UInt8) (k : UInt16) (n : Nat) :
    recvfromHead ⟨d.bytes ++ rest, k, n⟩ =
      (d.sender, ⟨d.data ++ rest, UInt16.ofNat d.data.length, n + 8⟩) := by
  have hread : read (d.bytes ++ rest) 0 8 = d.head := by
    have hh := read_append_left d.head (d.data ++ rest)
    rwa [d.length_head, ← List.append_assoc] at hh
  have hdrop : (d.bytes ++ rest).drop 8 = d.data ++ rest := by
    rw [Datagram.bytes, List.append_assoc, ← d.length_head, List.drop_left]
  have hport : word d.head 4 = d.sender.port := by
    have hw := word_wordBytes d.sender.ip (wordBytes d.data.length) d.sender.port.toNat_lt
    rwa [d.address, UInt16.ofNat_toNat] at hw
  have hsize : word d.head 6 = UInt16.ofNat d.data.length := by
    have hw := word_wordBytes (d.sender.ip ++ wordBytes d.sender.port.toNat) [] d.fits
    rwa [List.length_append, d.address, List.append_nil, List.append_assoc] at hw
  have hip : d.head.take 4 = d.sender.ip := by
    rw [Datagram.head, ← d.address, List.take_left]
  simp only [recvfromHead, wizRecvData, hread, hdrop, hport, hsize, hip]

theorem recvfromData_piece {l : List UInt8} (hl : l.length < 65536) (rest : List UInt8) (n : Nat) :
    recvfromData ⟨l ++ rest, UInt16.ofNat l.length, n⟩ maxEwDgram =
      (((l.take 40).length : Int), l.take 40,
        ⟨l.drop 40 ++ rest, UInt16.ofNat (l.drop 40).length, n + (l.take 40).length⟩) := by
  have hsize : (UInt16.ofNat l.length).toNat = l.length := by
    rw [UInt16.toNat_ofNat', Nat.mod_eq_of_lt hl]
  have hread : ∀ k, k ≤ l.length → read (l ++ rest) 0 k = l.take k := by
    intro k hk
    have hle : 0 + k ≤ (l ++ rest).length := by
      rw [List.length_append]
      omega
    rw [read_eq_take hle, List.drop_zero, List.take_append_of_le_length hk]
  by_cases hlong : 40 < l.length
  · have hlt : maxEwDgram < UInt16.ofNat l.length := by
      rw [UInt16.lt_iff_toNat_lt, hsize]
      exact hlong
    have hrest : UInt16.ofNat l.length - maxEwDgram = UInt16.ofNat (l.drop 40).length := by
      apply UInt16.toNat_inj.mp
      rw [UInt16.toNat_sub_of_le _ _ (UInt16.le_of_lt hlt), hsize, UInt16.toNat_ofNat',
        List.length_drop, Nat.mod_eq_of_lt (by omega)]
      rfl
    have htake : (l.take 40).length = 40 := by
      rw [List.length_take]
      omega
    simp only [recvfromData, if_pos hlt, wizRecvData, hrest, htake]
    rw [show maxEwDgram.toNat = 40 from rfl, hread 40 hlong.le,
      List.drop_append_of_le_length hlong.le]
  · have hlt : ¬ maxEwDgram < UInt16.ofNat l.length := by
      rw [UInt16.lt_iff_toNat_lt, hsize]
      exact hlong
    have htake : l.take 40 = l := List.take_of_length_le (Nat.not_lt.mp hlong)
    have hdrop : l.drop 40 = [] := List.drop_of_length_le (Nat.not_lt.mp hlong)
    simp only [recvfromData, if_neg hlt, wizRecvData, hsize, htake, hdrop, UInt16.sub_self]
    rw [hread l.length le_rfl, List.take_length, List.drop_left]
    rfl

/-- The datagrams `done` have been taken out whole, and `todo` wait in the buffer. -/
structure Between (s : Socket) (done todo : List Datagram) : Prop where
  remainedSize : s.remainedSize = 0
  rx : s.rx = stream todo
  taken : s.taken = (stream done).length

theorem stream_append (ds ds' : List Datagram) : stream (ds ++ ds') = stream ds ++ stream ds' :=
  List.flatMap_append

theorem stream_cons (d : Datagram) (ds : List Datagram) : stream (d :: ds) = d.bytes ++ stream ds :=
  List.flatMap_cons

theorem Between.start : Between Server.start.socket [] [] := ⟨rfl, rfl, rfl⟩

theorem Between.arrive {s : Socket} {done todo : List Datagram} (h : Between s done todo)
    (ds : List Datagram) : Between (s.arrive ds) done (todo ++ ds) := by
  refine ⟨h.remainedSize, ?_, h.taken⟩
  rw [Socket.arrive, h.rx, stream_append]

theorem Between.reopen {s : Socket} {done todo : List Datagram} (h : Between s done todo) :
    Between s.reopen (done ++ todo) [] := by
  refine ⟨rfl, rfl, ?_⟩
  rw [Socket.reopen, h.taken, h.rx, stream_append, List.length_append]

theorem Between.empty {s : Socket} {done todo : List Datagram} (h : Between s done todo)
    (hrx : s.rx = []) : todo = [] := by
  cases todo with
  | nil => rfl
  | cons d ds =>
    have hlen := d.length_bytes
    rw [h.rx, stream_cons, List.append_eq_nil_iff] at hrx
    rw [hrx.1, List.length_nil] at hlen
    omega

theorem Between.recvfrom {s : Socket} {done todo : List Datagram} {d : Datagram}
    (h : Between s done (d :: todo)) (addr : IpPort) :
    Udp.recvfrom false maxEwDgram addr s =
      (((d.data.take 40).length : Int), d.data.take 40, d.sender,
        ⟨d.data.drop 40 ++ stream todo, UInt16.ofNat (d.data.drop 40).length,
          (stream done).length + 8 + (d.data.take 40).length⟩) := by
  obtain ⟨rx, remainedSize, taken⟩ := s
  obtain ⟨hremained, hrx, htaken⟩ := h
  dsimp only at hremained hrx htaken
  subst hremained hrx htaken
  have hne : ¬ stream (d :: todo) = [] := by
    have hlen := d.length_bytes
    rw [stream_cons, List.append_eq_nil_iff]
    rintro ⟨hnil, -⟩
    rw [hnil, List.length_nil] at hlen
    omega
  rw [Udp.recvfrom, if_pos rfl, if_neg Bool.false_ne_true, if_neg hne, stream_cons,
    recvfromHead_bytes]
  dsimp only
  rw [recvfromData_piece d.fits]

theorem recvfromData_whole {l : List UInt8} (hl : l.length < 65536) (rest : List UInt8) (n : Nat)
    {len : UInt16} (hlen : l.length ≤ len.toNat) :
    recvfromData ⟨l ++ rest, UInt16.ofNat l.length, n⟩ len =
      ((l.length : Int), l, ⟨rest, 0, n + l.length⟩) := by
  have hsize : (UInt16.ofNat l.length).toNat = l.length := by
    rw [UInt16.toNat_ofNat', Nat.mod_eq_of_lt hl]
  have hnot : ¬ len < UInt16.ofNat l.length := by
    rw [UInt16.lt_iff_toNat_lt, hsize]
    omega
  simp only [recvfromData, if_neg hnot, wizRecvData, hsize, UInt16.sub_self]
  rw [read_append_left, List.drop_left]

/-- Asked for all that there is, `recvfrom` takes one datagram, and all of it. -/
theorem recvfrom_whole {s : Socket} {done todo : List Datagram} {d : Datagram}
    (h : Between s done (d :: todo)) {len : UInt16} (hlen : d.data.length ≤ len.toNat)
    (addr : IpPort) :
    Udp.recvfrom false len addr s = ((d.data.length : Int), d.data, d.sender,
      ⟨stream todo, 0, (stream done).length + 8 + d.data.length⟩) := by
  obtain ⟨rx, remainedSize, taken⟩ := s
  obtain ⟨hremained, hrx, htaken⟩ := h
  dsimp only at hremained hrx htaken
  subst hremained hrx htaken
  have hne : ¬ stream (d :: todo) = [] := by
    have hl := d.length_bytes
    rw [stream_cons, List.append_eq_nil_iff]
    rintro ⟨hnil, -⟩
    rw [hnil, List.length_nil] at hl
    omega
  rw [Udp.recvfrom, if_pos rfl, if_neg Bool.false_ne_true, if_neg hne, stream_cons,
    recvfromHead_bytes]
  dsimp only
  rw [recvfromData_whole d.fits _ _ hlen]

theorem locate_append (done : List Datagram) (d : Datagram) (todo : List Datagram) {i : Nat}
    (hi : i < d.data.length) :
    locate (done ++ d :: todo) ((stream done).length + 8 + i) = some (d, i) := by
  induction done with
  | nil =>
    have hpos : (stream []).length + 8 + i = 8 + i := by simp [stream]
    rw [hpos, List.nil_append, locate, d.length_bytes, if_pos (Nat.add_lt_add_left hi 8),
      if_pos (Nat.le_add_right 8 i), Nat.add_sub_cancel_left]
  | cons e done ih =>
    have hlen : (stream (e :: done)).length = e.bytes.length + (stream done).length := by
      rw [stream_cons, List.length_append]
    have hpast : ¬ (stream (e :: done)).length + 8 + i < e.bytes.length := by omega
    have hsub : (stream (e :: done)).length + 8 + i - e.bytes.length =
        (stream done).length + 8 + i := by omega
    rw [List.cons_append, locate, if_neg hpast, hsub, ih]

theorem prefix_of_strncmpEq {l text : List UInt8} (h0 : (0 : UInt8) ∉ text)
    (h : strncmpEq (l ++ [0]) text = true) : text <+: l := by
  rw [strncmpEq, decide_eq_true_eq] at h
  by_cases hle : text.length ≤ l.length
  · have hread : read (l ++ [0]) 0 text.length = l.take text.length := by
      have hfit : 0 + text.length ≤ (l ++ [0]).length := by
        rw [List.length_append]
        omega
      rw [read_eq_take hfit, List.drop_zero, List.take_append_of_le_length hle]
    exact h ▸ hread ▸ List.take_prefix _ _
  · have hzero : peek (l ++ [0]) (0 + l.length) ∈ read (l ++ [0]) 0 text.length :=
      List.mem_map_of_mem (List.mem_range.mpr (Nat.not_le.mp hle))
    rw [Nat.zero_add, peek_append_length, h] at hzero
    exact absurd hzero h0

theorem ewCon_of_command {mem : List UInt8} (h : command mem = some .con) :
    strncmpEq mem ewCon = true := by
  rw [command] at h
  by_cases hhello : strncmpEq mem ewHello = true
  · rw [if_pos hhello] at h
    cases h
  by_contra hcon
  rw [if_neg hhello, if_neg hcon] at h
  split_ifs at h
  cases h

theorem answer_belongs {ds : List Datagram} {d : Datagram} {pos : Nat} {buf : List UInt8}
    (hpos : locate ds pos = some (d, 0)) (hbuf : buf <+: d.data) (t : Turn) (s : Server) :
    ∀ e ∈ (answer t s pos buf d.sender).2, Belongs ds e := by
  have hreply : ∀ bs, ∀ e ∈ replies pos (sendto t.room bs d.sender), Belongs ds e := by
    intro bs e he
    obtain ⟨r, hr, rfl⟩ := List.mem_map.mp he
    rw [sendto] at hr
    split_ifs at hr
    · simp at hr
    · rw [List.mem_singleton.mp hr]
      exact ⟨d, 0, hpos, rfl⟩
  intro e he
  rw [answer] at he
  cases hc : command (buf ++ [0]) with
  | none =>
    rw [hc] at he
    exact hreply _ e he
  | some c =>
    rw [hc] at he
    cases c with
    | hello =>
      rcases List.mem_cons.mp he with rfl | he
      · exact ⟨d, hpos⟩
      · exact hreply _ e he
    | con =>
      dsimp only at he
      cases hport : ewConPort (buf ++ [0]) with
      | none =>
        rw [hport] at he
        rw [List.mem_singleton.mp he]
        exact ⟨d, hpos⟩
      | some port =>
        rw [hport] at he
        rcases List.mem_cons.mp he with rfl | he
        · exact ⟨d, hpos⟩
        · rw [List.mem_singleton.mp he]
          have hcon := prefix_of_strncmpEq (by decide) (ewCon_of_command hc)
          exact ⟨d, 0, hpos, hcon.trans hbuf, rfl⟩
    | delay =>
      rw [List.mem_singleton.mp he]
      exact ⟨d, hpos⟩

theorem answer_socket (t : Turn) (s : Server) (pos : Nat) (buf : List UInt8) (sender : IpPort) :
    (answer t s pos buf sender).1.socket = s.socket := by
  rw [answer]
  cases command (buf ++ [0]) with
  | none => rfl
  | some c =>
    cases c with
    | hello => rfl
    | con =>
      dsimp only
      cases ewConPort (buf ++ [0]) <;> rfl
    | delay => rfl

theorem commUdpServer_whole {t : Turn} {s : Server} {done rest : List Datagram} {d : Datagram}
    (h : Between (s.socket.arrive t.arrived) done (d :: rest)) (ht : t.status = .udp)
    (hcloses : t.closes = false) (hle : d.data.length ≤ 40) :
    Between (commUdpServer t s).1.socket (done ++ [d]) rest ∧
      ∀ later, ∀ e ∈ (commUdpServer t s).2, Belongs (done ++ d :: (rest ++ later)) e := by
  have htake : d.data.take 40 = d.data := List.take_of_length_le hle
  have hdrop : d.data.drop 40 = [] := List.drop_of_length_le hle
  have hnext : Between ⟨stream rest, 0, (stream done).length + 8 + d.data.length⟩
      (done ++ [d]) rest := by
    refine ⟨rfl, rfl, ?_⟩
    rw [stream_append, stream_cons, List.length_append, List.length_append, d.length_bytes]
    simp only [stream, List.flatMap_nil, List.length_nil]
    omega
  have hrecv := h.recvfrom t.stack
  rw [htake, hdrop] at hrecv
  rw [commUdpServer, ht, hcloses]
  dsimp only
  rw [hrecv]
  dsimp only
  by_cases hpos : (d.data.length : Int) > 0
  · rw [if_pos hpos, answer_socket, Int.toNat_natCast, Nat.add_sub_cancel]
    refine ⟨hnext, fun later => answer_belongs ?_ List.prefix_rfl t _⟩
    have hloc := locate_append done d (rest ++ later) (i := 0) (by omega)
    rwa [Nat.add_zero] at hloc
  · rw [if_neg hpos]
    exact ⟨hnext, by simp⟩

theorem commUdpServer_idle {t : Turn} {s : Server} {done todo : List Datagram}
    (h : Between (s.socket.arrive t.arrived) done todo) (ht : t.status = .udp)
    (hidle : t.closes = true ∨ todo = []) :
    commUdpServer t s = ({ s with socket := s.socket.arrive t.arrived }, []) := by
  rw [commUdpServer, ht]
  dsimp only
  cases hcloses : t.closes with
  | true =>
    rw [recvfrom, if_pos h.remainedSize, if_pos rfl]
    rfl
  | false =>
    rw [hcloses] at hidle
    have hrx : (s.socket.arrive t.arrived).rx = [] := by
      rw [h.rx, hidle.resolve_left Bool.false_ne_true]
      rfl
    rw [recvfrom, if_pos h.remainedSize, if_neg Bool.false_ne_true, if_pos hrx]
    rfl

theorem commUdpServer_between {t : Turn} {s : Server} {done todo : List Datagram}
    (h : Between s.socket done todo) (hshort : ∀ d ∈ todo ++ t.arrived, d.data.length ≤ 40)
    (later : List Datagram) :
    ∃ now todo', todo ++ t.arrived = now ++ todo' ∧
      Between (commUdpServer t s).1.socket (done ++ now) todo' ∧
      ∀ e ∈ (commUdpServer t s).2, Belongs (done ++ (todo ++ t.arrived) ++ later) e := by
  have harrive := h.arrive t.arrived
  have hidle : commUdpServer t s = ({ s with socket := s.socket.arrive t.arrived }, []) →
      ∃ now todo', todo ++ t.arrived = now ++ todo' ∧
        Between (commUdpServer t s).1.socket (done ++ now) todo' ∧
        ∀ e ∈ (commUdpServer t s).2, Belongs (done ++ (todo ++ t.arrived) ++ later) e := by
    intro hrun
    rw [hrun]
    exact ⟨[], _, rfl, by rwa [List.append_nil], by simp⟩
  cases ht : t.status with
  | closed =>
    rw [commUdpServer, ht]
    exact ⟨_, [], (List.append_nil _).symm, harrive.reopen, by simp⟩
  | other => exact hidle (by rw [commUdpServer, ht])
  | udp =>
    cases hcloses : t.closes with
    | true => exact hidle (commUdpServer_idle harrive ht (.inl hcloses))
    | false =>
      cases htodo : todo ++ t.arrived with
      | nil =>
        rw [htodo] at hidle
        exact hidle (commUdpServer_idle harrive ht (.inr htodo))
      | cons d rest =>
        rw [htodo] at harrive hshort
        obtain ⟨hnext, hevents⟩ :=
          commUdpServer_whole harrive ht hcloses (hshort d List.mem_cons_self)
        refine ⟨[d], rest, rfl, hnext, ?_⟩
        rw [List.append_assoc]
        exact hevents later

theorem runTurns_cons (t : Turn) (ts : List Turn) (s : Server) :
    (runTurns (t :: ts) s).2 =
      (commUdpServer t s).2 ++ (runTurns ts (commUdpServer t s).1).2 := by
  rw [runTurns]

theorem runTurns_between {ts : List Turn} {s : Server} {done todo : List Datagram}
    (h : Between s.socket done todo) (hshort : ∀ d ∈ todo ++ arrivals ts, d.data.length ≤ 40) :
    ∀ e ∈ (runTurns ts s).2, Belongs (done ++ (todo ++ arrivals ts)) e := by
  induction ts generalizing s done todo with
  | nil => simp [runTurns]
  | cons t ts ih =>
    have harr : todo ++ arrivals (t :: ts) = (todo ++ t.arrived) ++ arrivals ts := by
      rw [arrivals, List.flatMap_cons, List.append_assoc]
      rfl
    rw [harr] at hshort ⊢
    have hnow : ∀ d ∈ todo ++ t.arrived, d.data.length ≤ 40 :=
      fun d hd => hshort d (List.mem_append_left _ hd)
    obtain ⟨now, todo', hsplit, hbetween, hevents⟩ := commUdpServer_between h hnow (arrivals ts)
    rw [hsplit, List.append_assoc] at hshort
    intro e he
    rw [runTurns_cons] at he
    rcases List.mem_append.mp he with he | he
    · have hb := hevents e he
      rwa [List.append_assoc] at hb
    · have hb := ih hbetween (fun d hd => hshort d (List.mem_append_right now hd)) e he
      rwa [hsplit, List.append_assoc now, ← List.append_assoc done]

theorem runTurns_append (ts ts' : List Turn) (s : Server) :
    runTurns (ts ++ ts') s = ((runTurns ts' (runTurns ts s).1).1,
      (runTurns ts s).2 ++ (runTurns ts' (runTurns ts s).1).2) := by
  induction ts generalizing s with
  | nil => rfl
  | cons t ts ih => simp only [List.cons_append, runTurns, ih, List.append_assoc]

def Turn.receive (ds : List Datagram) : Turn where
  status := .udp
  arrived := ds

theorem runTurns_receive {before done : List Datagram} {s : Server} (h : Between s.socket done [])
    (hshort : ∀ d ∈ before, d.data.length ≤ 40) :
    Between (runTurns (before.map fun d => .receive [d]) s).1.socket (done ++ before) [] := by
  induction before generalizing done s with
  | nil => rwa [List.append_nil]
  | cons d before ih =>
    have hnext := (@commUdpServer_whole (.receive [d]) s done [] d (h.arrive [d]) rfl rfl
      (hshort d List.mem_cons_self)).1
    have hrest := ih hnext fun d hd => hshort d (List.mem_cons_of_mem _ hd)
    rwa [List.append_assoc] at hrest

/-- An address that is not the sender of `d`. -/
def stranger (d : Datagram) : IpPort := ⟨[1, 0, 0, 0], if d.sender.port = 1 then 2 else 1⟩

theorem stranger_ne (d : Datagram) : stranger d ≠ d.sender := by
  intro h
  have hport : (if d.sender.port = 1 then 2 else 1) = d.sender.port := congrArg IpPort.port h
  split_ifs at hport with h1
  · rw [h1] at hport
    exact absurd hport (by decide)
  · exact h1 hport.symm

theorem stranger_port (d : Datagram) : (stranger d).port ≠ 0 := by
  rw [stranger]
  split_ifs <;> decide

theorem answer_astray {ds : List Datagram} {d : Datagram} {pos i : Nat} {buf : List UInt8}
    (hpos : locate ds pos = some (d, i + 1)) (hbuf : buf ≠ []) (s : Server) :
    ∃ e ∈ (answer { status := .udp, stack := stranger d } s pos buf (stranger d)).2,
      ¬ Belongs ds e := by
  have hcommand : ∀ c, ¬ Belongs ds (.command pos c) := by
    rintro c ⟨d', hd'⟩
    rw [hpos] at hd'
    cases hd'
  rw [answer]
  cases hc : command (buf ++ [0]) with
  | none =>
    have hout : sendto true buf (stranger d) = [(stranger d, buf)] := by
      have hok : ¬ (buf = [] ∨ (stranger d).ip = [0, 0, 0, 0] ∨ (stranger d).port = 0 ∨
          true = false) := by
        have hip : (stranger d).ip ≠ [0, 0, 0, 0] := by
          show ([1, 0, 0, 0] : List UInt8) ≠ [0, 0, 0, 0]
          decide
        simp [hbuf, hip, stranger_port d]
      rw [sendto, if_neg hok]
    refine ⟨.reply pos (stranger d) buf, ?_, ?_⟩
    · show _ ∈ replies pos (sendto true buf (stranger d))
      rw [hout]
      exact List.mem_singleton_self _
    · rintro ⟨d', i', hd', haddr⟩
      rw [hpos] at hd'
      cases hd'
      exact stranger_ne d haddr
  | some c =>
    cases c with
    | hello => exact ⟨_, List.mem_cons_self, hcommand .hello⟩
    | con =>
      dsimp only
      cases ewConPort (buf ++ [0]) with
      | none => exact ⟨_, List.mem_cons_self, hcommand .con⟩
      | some port => exact ⟨_, List.mem_cons_self, hcommand .con⟩
    | delay => exact ⟨_, List.mem_cons_self, hcommand .delay⟩

/-- A datagram of more than 40 bytes is cut, and what is left of it stays in the socket. -/
theorem commUdpServer_cut {s : Server} {done : List Datagram} {d : Datagram}
    (after : List Datagram) (h : Between s.socket done []) (hlong : 40 < d.data.length) :
    (commUdpServer (.receive (d :: after)) s).1.socket =
      ⟨d.data.drop 40 ++ stream after, UInt16.ofNat (d.data.drop 40).length,
        (stream done).length + 8 + 40⟩ := by
  have htake : (d.data.take 40).length = 40 := by
    rw [List.length_take]
    omega
  have hstatus : (Turn.receive (d :: after)).status = .udp := rfl
  have hcloses : (Turn.receive (d :: after)).closes = false := rfl
  have harrived : (Turn.receive (d :: after)).arrived = d :: after := rfl
  have harrive := h.arrive (d :: after)
  rw [List.nil_append] at harrive
  rw [commUdpServer, hstatus, hcloses, harrived]
  dsimp only
  rw [harrive.recvfrom]
  dsimp only
  rw [htake, if_pos (by decide), answer_socket]

theorem runTurns_astray {s : Server} {done : List Datagram} {d : Datagram}
    (after : List Datagram) (h : Between s.socket done []) (hlong : 40 < d.data.length) :
    ∃ e ∈ (runTurns [.receive (d :: after), { status := .udp, stack := stranger d }] s).2,
      ¬ Belongs (done ++ d :: after) e := by
  have hsocket := commUdpServer_cut after h hlong
  have hleft : 0 < (d.data.drop 40).length ∧ (d.data.drop 40).length < 65536 := by
    have hfits := d.fits
    rw [List.length_drop]
    omega
  have hread : 0 < ((d.data.drop 40).take 40).length := by
    rw [List.length_take]
    omega
  have hremained : ¬ UInt16.ofNat (d.data.drop 40).length = 0 := by
    intro h0
    have hzero := congrArg UInt16.toNat h0
    rw [UInt16.toNat_ofNat', Nat.mod_eq_of_lt hleft.2] at hzero
    exact hleft.1.ne' hzero
  have hloc := locate_append done d after hlong
  obtain ⟨e, he, hbad⟩ := answer_astray (i := 39) hloc (List.length_pos_iff.mp hread)
    { (commUdpServer (.receive (d :: after)) s).1 with
      socket := ⟨(d.data.drop 40).drop 40 ++ stream after,
        UInt16.ofNat ((d.data.drop 40).drop 40).length,
        (stream done).length + 8 + 40 + ((d.data.drop 40).take 40).length⟩ }
  refine ⟨e, ?_, hbad⟩
  rw [runTurns_cons, runTurns_cons]
  refine List.mem_append_right _ (List.mem_append_left _ ?_)
  have harrive : (commUdpServer (.receive (d :: after)) s).1.socket.arrive [] =
      ⟨d.data.drop 40 ++ stream after, UInt16.ofNat (d.data.drop 40).length,
        (stream done).length + 8 + 40⟩ := by
    rw [hsocket, Socket.arrive]
    simp [stream]
  rw [commUdpServer]
  dsimp only
  rw [harrive, recvfrom, if_neg hremained, recvfromData_piece hleft.2]
  dsimp only
  rw [if_pos (Int.natCast_pos.mpr hread), Int.toNat_natCast, Nat.add_sub_cancel]
  exact he

theorem exists_first_long {ds : List Datagram} {d : Datagram} (hd : d ∈ ds)
    (hlong : 40 < d.data.length) : ∃ before d after, ds = before ++ d :: after ∧
      (∀ e ∈ before, e.data.length ≤ 40) ∧ 40 < d.data.length := by
  have hsome : (ds.find? fun d => 40 < d.data.length).isSome := by
    rw [List.find?_isSome]
    exact ⟨d, hd, decide_eq_true hlong⟩
  obtain ⟨first, hfirst⟩ := Option.isSome_iff_exists.mp hsome
  obtain ⟨hfound, before, after, hsplit, hbefore⟩ := List.find?_eq_some_iff_append.mp hfirst
  refine ⟨before, first, after, hsplit, fun e he => ?_, of_decide_eq_true hfound⟩
  simpa using hbefore e he

theorem exists_astray {before : List Datagram} {d : Datagram} (after : List Datagram)
    (hbefore : ∀ e ∈ before, e.data.length ≤ 40) (hlong : 40 < d.data.length) :
    ∃ ts, arrivals ts = before ++ d :: after ∧
      ∃ e ∈ (runTurns ts .start).2, ¬ Belongs (before ++ d :: after) e := by
  have hturns := runTurns_receive Between.start hbefore
  rw [List.nil_append] at hturns
  obtain ⟨e, he, hbad⟩ := runTurns_astray after hturns hlong
  refine ⟨before.map (fun d => .receive [d]) ++
    [.receive (d :: after), { status := .udp, stack := stranger d }], ?_, e, ?_, hbad⟩
  · rw [arrivals, List.flatMap_append, List.flatMap_map]
    show before.flatMap (fun d => [d]) ++ (d :: after ++ []) = before ++ d :: after
    rw [List.flatMap_singleton', List.append_nil]
  · rw [runTurns_append]
    exact List.mem_append_right _ he

def hosts (es : List Event) : List IpPort :=
  es.filterMap fun
    | .host _ h => some h
    | _ => none

/-- A turn takes at most one request, and then `comm` is that request. -/
theorem commUdpServer_hosts (t : Turn) (s : Server) :
    (hosts (commUdpServer t s).2 = [] ∧ (commUdpServer t s).1.comm = s.comm) ∨
      ∃ h, hosts (commUdpServer t s).2 = [h] ∧
        (commUdpServer t s).1.comm = ⟨h, .connectHost⟩ := by
  have hreplies : ∀ pos out, hosts (replies pos out) = [] := by
    intro pos out
    induction out with
    | nil => rfl
    | cons r out ih => exact ih
  have hanswer : ∀ (s : Server) (pos : Nat) (buf : List UInt8) (sender : IpPort),
      (hosts (answer t s pos buf sender).2 = [] ∧ (answer t s pos buf sender).1.comm = s.comm) ∨
        ∃ h, hosts (answer t s pos buf sender).2 = [h] ∧
          (answer t s pos buf sender).1.comm = ⟨h, .connectHost⟩ := by
    intro s pos buf sender
    rw [answer]
    cases command (buf ++ [0]) with
    | none => exact Or.inl ⟨hreplies _ _, rfl⟩
    | some c =>
      cases c with
      | hello => exact Or.inl ⟨hreplies _ _, rfl⟩
      | con =>
        dsimp only
        cases ewConPort (buf ++ [0]) with
        | none => exact Or.inl ⟨rfl, rfl⟩
        | some port => exact Or.inr ⟨_, rfl, rfl⟩
      | delay => exact Or.inl ⟨rfl, rfl⟩
  rw [commUdpServer]
  cases t.status with
  | closed => exact Or.inl ⟨rfl, rfl⟩
  | other => exact Or.inl ⟨rfl, rfl⟩
  | udp =>
    dsimp only
    obtain ⟨ret, buf, sender, socket⟩ := recvfrom t.closes maxEwDgram t.stack
      (s.socket.arrive t.arrived)
    dsimp only
    by_cases hret : ret > 0
    · rw [if_pos hret]
      exact hanswer { s with socket } _ _ _
    · rw [if_neg hret]
      exact Or.inl ⟨rfl, rfl⟩

theorem mem_of_hosts {es : List Event} {h : IpPort} (hh : h ∈ hosts es) :
    ∃ pos, Event.host pos h ∈ es := by
  obtain ⟨e, he, heq⟩ := List.mem_filterMap.mp hh
  cases e with
  | host pos h' =>
    obtain rfl := Option.some.inj heq
    exact ⟨pos, he⟩
  | command pos c => cases heq
  | reply pos addr bs => cases heq

theorem commUdpServer_host (t : Turn) (s : Server) :
    (commUdpServer t s).1.comm = s.comm ∨
      ∃ pos, Event.host pos (commUdpServer t s).1.comm.host ∈ (commUdpServer t s).2 := by
  rcases commUdpServer_hosts t s with ⟨-, hcomm⟩ | ⟨h, hh, hcomm⟩
  · exact Or.inl hcomm
  · rw [hcomm]
    exact Or.inr (mem_of_hosts (hh ▸ List.mem_singleton_self h))

theorem runTurns_host (ts : List Turn) (s : Server) :
    (runTurns ts s).1.comm = s.comm ∨
      ∃ pos, Event.host pos (runTurns ts s).1.comm.host ∈ (runTurns ts s).2 := by
  induction ts generalizing s with
  | nil => exact Or.inl rfl
  | cons t ts ih =>
    rw [runTurns_cons]
    rcases ih (commUdpServer t s).1 with hsame | ⟨pos, hpos⟩
    · rcases commUdpServer_host t s with hsame' | ⟨pos, hpos⟩
      · exact Or.inl (hsame.trans hsame')
      · rw [← hsame] at hpos
        exact Or.inr ⟨pos, List.mem_append_left _ hpos⟩
    · exact Or.inr ⟨pos, List.mem_append_right _ hpos⟩

/-- What a run should come to: all that the server has done belongs to the datagrams that came
in, and the host it is to connect to is one that it was told. -/
structure Proper (ds : List Datagram) (r : Server × List Event) : Prop where
  events : ∀ e ∈ r.2, Belongs ds e
  host : r.1.comm = Server.start.comm ∨ ∃ pos, Event.host pos r.1.comm.host ∈ r.2

/-- Whatever datagrams come in: every run of the server keeps to them, however they are spread
over the turns and whatever is on its stack, exactly when none of them is longer than its
buffer. -/
theorem runTurns_proper (ds : List Datagram) :
    (∀ ts, arrivals ts = ds → Proper ds (runTurns ts .start)) ↔
      ∀ d ∈ ds, d.data.length ≤ maxEwDgram.toNat := by
  constructor
  · intro hproper
    by_contra hlong
    simp only [not_forall, not_le] at hlong
    obtain ⟨d₀, hd₀, hlong⟩ := hlong
    obtain ⟨before, d, after, rfl, hbefore, hd⟩ := exists_first_long hd₀ hlong
    obtain ⟨ts, harr, e, he, hbad⟩ := exists_astray after hbefore hd
    exact hbad ((hproper ts harr).events e he)
  · rintro hshort ts rfl
    refine ⟨?_, runTurns_host ts .start⟩
    have hall := @runTurns_between ts .start [] [] Between.start hshort
    exact hall

/-- Forty letters, and `"ew hello"` behind them. -/
def longDatagram : Datagram where
  sender := ⟨[10, 0, 0, 1], 8279⟩
  data := List.replicate 40 97 ++ ewHello
  address := rfl
  fits := by decide

/-- The end of the datagram is taken for a greeting, from whoever is on the stack. -/
theorem runTurns_improper :
    let ts := [Turn.receive [longDatagram],
      { status := .udp, stack := ⟨[10, 0, 0, 9], 5000⟩ }]
    arrivals ts = [longDatagram] ∧
      (runTurns ts .start).2 =
        [.reply 8 ⟨[10, 0, 0, 1], 8279⟩ (List.replicate 40 97), .command 48 .hello,
          .reply 48 ⟨[10, 0, 0, 9], 5000⟩ ewReady] ∧
      ¬ Proper [longDatagram] (runTurns ts .start) := by
  intro ts
  have hevents : (runTurns ts .start).2 =
      [.reply 8 ⟨[10, 0, 0, 1], 8279⟩ (List.replicate 40 97), .command 48 .hello,
        .reply 48 ⟨[10, 0, 0, 9], 5000⟩ ewReady] := by
    decide +kernel
  refine ⟨by decide, hevents, fun h => ?_⟩
  have hmem : Event.command 48 .hello ∈ (runTurns ts .start).2 := by
    rw [hevents]
    decide
  obtain ⟨d, hd⟩ := h.events _ hmem
  have hloc : locate [longDatagram] 48 = some (longDatagram, 40) := by decide
  rw [hloc] at hd
  cases hd

end NucleoW5500.Udp
