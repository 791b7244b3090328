import NucleoW5500.Reassembly

/-! A stream of packets that is read while other code allocates memory. The packets
are finished in order, whatever numbers their allocations get. -/

namespace NucleoW5500

open CString

/-- The packets whose allocation succeeds, each with the number of its allocation. -/
def keep (env : HeapEnv) : List (Nat × WirePacket) → List (Block TcpPacket3)
  | [] => []
  | (n, p) :: l => (if env.ok n then [⟨n, p.record⟩] else []) ++ keep env l

/-- The numbers go up from `lo` and stay below `hi`. -/
def Numbered : Nat → List (Nat × WirePacket) → Nat → Prop
  | lo, [], hi => lo ≤ hi
  | lo, (n, _) :: l, hi => lo ≤ n ∧ Numbered (n + 1) l hi

/-- In phase `ph` the bytes to come finish the packets `ps`, of which the first may be
under way. The numbers from `lo` on have not been given to an earlier packet. -/
inductive Streams (env : HeapEnv) (n lo : Nat) : Phase → List UInt8 → List WirePacket → Prop
  | header {acc s : List UInt8} {ps : List WirePacket} : acc ++ s = wireBytes ps →
      acc.length < 8 → lo ≤ n → Streams env n lo (.header acc) s ps
  | data {addr : Nat} {acc s : List UInt8} {p : WirePacket} {ps : List WirePacket} :
      env.ok addr = true → lo ≤ addr → addr < n → acc ++ s = p.data ++ wireBytes ps →
      acc.length < p.data.length → Streams env n lo (.data addr p.header acc) s (p :: ps)
  | skip {junk s : List UInt8} {ps : List WirePacket} : s = junk ++ wireBytes ps → junk ≠ [] →
      lo ≤ n → Streams env n lo (.skip junk.length) s ps

theorem keep_append (env : HeapEnv) (l l' : List (Nat × WirePacket)) :
    keep env (l ++ l') = keep env l ++ keep env l' := by
  induction l with
  | nil => rfl
  | cons q l ih => simp [keep, ih]

theorem Numbered.le {lo hi : Nat} {l : List (Nat × WirePacket)} (h : Numbered lo l hi) :
    lo ≤ hi := by
  induction l generalizing lo with
  | nil => exact h
  | cons q l ih =>
    have := ih h.2
    have := h.1
    omega

theorem Numbered.append {lo mid hi : Nat} {l l' : List (Nat × WirePacket)}
    (h : Numbered lo l mid) (h' : Numbered mid l' hi) : Numbered lo (l ++ l') hi := by
  induction l generalizing lo with
  | nil =>
    cases l' with
    | nil => exact le_trans h h'
    | cons q l' => exact ⟨le_trans h h'.1, h'.2⟩
  | cons q l ih => exact ⟨h.1, ih h.2⟩

theorem Streams.mono {env : HeapEnv} {n m lo : Nat} {ph : Phase} {s : List UInt8}
    {ps : List WirePacket} (h : Streams env n lo ph s ps) (hle : n ≤ m) :
    Streams env m lo ph s ps := by
  cases h with
  | header hs hlt hlo => exact .header hs hlt (by omega)
  | data hok hlo haddr hs hlt => exact .data hok hlo (by omega) hs hlt
  | skip hs hne hlo => exact .skip hs hne (by omega)

theorem wireBytes_header {window s : List UInt8} {ps : List WirePacket} (hw : window.length = 8)
    (hs : window ++ s = wireBytes ps) :
    ∃ p qs, ps = p :: qs ∧ window = p.header ∧ s = p.data ++ wireBytes qs := by
  cases ps with
  | nil =>
    have hlen := congrArg List.length hs
    rw [List.length_append, hw] at hlen
    simp [wireBytes] at hlen
  | cons p qs =>
    rw [wireBytes, List.flatMap_cons, WirePacket.bytes, List.append_assoc] at hs
    obtain ⟨h₁, h₂⟩ := List.append_inj hs (by rw [hw, p.length_header])
    exact ⟨p, qs, rfl, h₁, h₂⟩

theorem Streams.step {env : HeapEnv} {n lo : Nat} {ph : Phase} {b : UInt8} {s : List UInt8}
    {ps : List WirePacket} (h : Streams env n lo ph (b :: s) ps) :
    ∃ n' lo' ph' done todo, (framer env).step (n, ph) b = some ((n', ph'), keep env done) ∧
      ps = done.map Prod.snd ++ todo ∧ Numbered lo done lo' ∧ n ≤ n' ∧
      Streams env n' lo' ph' s todo := by
  cases h with
  | @header acc _ _ hs hlt hlo =>
    have hassoc : (acc ++ [b]) ++ s = wireBytes ps := by simpa using hs
    by_cases hshort : acc.length + 1 < 8
    · refine ⟨n, lo, .header (acc ++ [b]), [], ps, ?_, rfl, le_rfl, le_rfl,
        .header hassoc (by simpa using hshort) hlo⟩
      simp [framer, tcpPacket3HeaderSize, hshort, keep]
    · -- the eighth byte closes the header of the next packet
      have hw : (acc ++ [b]).length = 8 := by
        simp only [List.length_append, List.length_singleton]
        omega
      obtain ⟨p, qs, rfl, hheader, rfl⟩ := wireBytes_header hw hassoc
      have hstep : (framer env).step (n, .header acc) b = closeWindow env n p.header := by
        rw [← hheader]
        simp [framer, tcpPacket3HeaderSize, hshort]
      have hsize := p.dataSize_header
      by_cases hz : p.data = []
      · refine ⟨n + 1, n + 1, .header [], [(n, p)], qs, ?_, rfl, ⟨hlo, le_rfl⟩, by omega,
          .header (by simp [hz]) (by simp) le_rfl⟩
        rw [hstep, closeWindow_empty p.isHeader (by simp [hsize, hz])]
        cases hok : env.ok n <;> simp [hok, hz, keep, WirePacket.record]
      · have hpos := List.length_pos_iff.mpr hz
        have hne : (getTcpPacket3HeaderDataSize p.header).toNat ≠ 0 := by omega
        cases hok : env.ok n with
        | true =>
          refine ⟨n + 1, lo, .data n p.header [], [], p :: qs, ?_, rfl, le_rfl, by omega,
            .data hok hlo (by omega) rfl hpos⟩
          rw [hstep, closeWindow_data p.isHeader hok hne]
          rfl
        | false =>
          refine ⟨n + 1, n + 1, .skip p.data.length, [(n, p)], qs, ?_, rfl, ⟨hlo, le_rfl⟩,
            by omega, .skip rfl hz le_rfl⟩
          rw [hstep, closeWindow_skip p.isHeader hok hne, hsize]
          simp [keep, hok]
  | @data addr acc _ p qs hok hlo haddr hs hlt =>
    have hsize := p.dataSize_header
    by_cases hmore : acc.length + 1 < p.data.length
    · refine ⟨n, lo, .data addr p.header (acc ++ [b]), [], p :: qs, ?_, rfl, le_rfl, le_rfl,
        .data hok hlo haddr (by simpa using hs) (by simpa using hmore)⟩
      simp [framer, hsize, hmore, keep]
    · have hlen : (acc ++ [b]).length = p.data.length := by
        simp only [List.length_append, List.length_singleton]
        omega
      have hassoc : (acc ++ [b]) ++ s = p.data ++ wireBytes qs := by simpa using hs
      obtain ⟨hdata, hrest⟩ := List.append_inj hassoc hlen
      refine ⟨n, addr + 1, .header [], [(addr, p)], qs, ?_, rfl, ⟨hlo, le_rfl⟩, le_rfl,
        .header hrest (by simp) haddr⟩
      simp [framer, hsize, hmore, keep, hok, hdata, WirePacket.record]
  | @skip junk _ _ hs hne hlo =>
    obtain ⟨c, rest, rfl⟩ := List.exists_cons_of_ne_nil hne
    obtain ⟨rfl, hrest⟩ := List.cons.inj hs
    by_cases hlast : rest = []
    · subst hlast
      refine ⟨n, lo, .header [], [], ps, ?_, rfl, le_rfl, le_rfl, .header hrest (by simp) hlo⟩
      simp [framer, keep]
    · have hpos := List.length_pos_iff.mpr hlast
      refine ⟨n, lo, .skip rest.length, [], ps, ?_, rfl, le_rfl, le_rfl, .skip hrest hlast hlo⟩
      simp [framer, hlast, keep]

theorem Streams.run {env : HeapEnv} {n lo : Nat} {ph : Phase} {bs s : List UInt8}
    {ps : List WirePacket} (h : Streams env n lo ph (bs ++ s) ps) :
    ∃ n' lo' ph' done todo, (framer env).run (n, ph) bs = some ((n', ph'), keep env done) ∧
      ps = done.map Prod.snd ++ todo ∧ Numbered lo done lo' ∧ n ≤ n' ∧
      Streams env n' lo' ph' s todo := by
  induction bs generalizing n lo ph ps with
  | nil => exact ⟨n, lo, ph, [], ps, rfl, rfl, le_rfl, le_rfl, h⟩
  | cons b bs ih =>
    obtain ⟨n₁, lo₁, ph₁, done₁, todo₁, hstep, rfl, hnum₁, hle₁, h₁⟩ := Streams.step h
    obtain ⟨n₂, lo₂, ph₂, done₂, todo₂, hrun, rfl, hnum₂, hle₂, h₂⟩ := ih h₁
    refine ⟨n₂, lo₂, ph₂, done₁ ++ done₂, todo₂, ?_, by simp, hnum₁.append hnum₂, by omega, h₂⟩
    rw [Transducer.run_cons, hstep, Option.bind_some, hrun, keep_append]
    rfl

/-- How much of a packet has been read at the most. -/
def Phase.held : Phase → Nat
  | .header acc => acc.length
  | .data _ _ acc => 8 + acc.length
  | .skip _ => 0

theorem Tracks.eq_header {st : Receiver} {ph : Phase} (h : Tracks st ph) (hz : ph.held = 0) :
    ph = .header [] := by
  cases h with
  | header => rw [List.length_eq_zero_iff.mp hz]
  | data =>
    rw [Phase.held] at hz
    omega

theorem Streams.partial_read {env : HeapEnv} {n lo : Nat} {ph : Phase} {s : List UInt8}
    {ps : List WirePacket} {st : Receiver} (h : Streams env n lo ph s ps) (htr : Tracks st ph) :
    ∃ part, part.length = ph.held ∧ part ++ s = wireBytes ps ∧
      ∀ p ∈ ps.head?, part.length < p.bytes.length := by
  cases h with
  | @header acc _ _ hs hlt hlo =>
    refine ⟨acc, rfl, hs, fun p _ => ?_⟩
    rw [WirePacket.bytes, List.length_append, p.length_header]
    omega
  | @data addr acc _ p qs hok hlo haddr hs hlt =>
    refine ⟨p.header ++ acc, by simp [Phase.held, p.length_header], ?_, fun p' he => ?_⟩
    · rw [wireBytes, List.flatMap_cons, WirePacket.bytes, List.append_assoc, List.append_assoc, hs]
      rfl
    · obtain rfl := Option.some.inj he
      rw [WirePacket.bytes, List.length_append, List.length_append]
      omega
  | skip => cases htr

theorem Streams.finish {env : HeapEnv} {n m lo : Nat} {ph : Phase} {s : List UInt8}
    {p : WirePacket} {ps : List WirePacket} {st : Receiver} (h : Streams env n lo ph s (p :: ps))
    (htr : Tracks st ph) :
    ∃ rest k addr, ph.held + rest.length = p.bytes.length ∧
      (framer .ample).run (m, ph) rest = some ((k, .header []), [⟨addr, p.record⟩]) := by
  cases h with
  | @header acc _ _ hs hlt hlo =>
    rw [wireBytes, List.flatMap_cons] at hs
    have hle : acc.length ≤ p.bytes.length := by
      rw [WirePacket.bytes, List.length_append, p.length_header]
      omega
    obtain ⟨rest, hrest⟩ := List.prefix_of_prefix_length_le ⟨s, hs⟩ (List.prefix_append _ _) hle
    have hrun := framer_packet .ample m p
    have hacc : (framer .ample).run (m, .header []) acc = some ((m, .header acc), []) :=
      framer_header_short .ample m (by simpa using hlt)
    rw [← hrest, Transducer.run_append_of_some hacc] at hrun
    refine ⟨rest, m + 1, m, by rw [← hrest, List.length_append, Phase.held], ?_⟩
    simpa [HeapEnv.ample] using hrun
  | @data addr acc _ _ _ hok hlo haddr hs hlt =>
    obtain ⟨rest, hrest⟩ :=
      List.prefix_of_prefix_length_le ⟨s, hs⟩ (List.prefix_append _ _) hlt.le
    have hsize := p.dataSize_header
    have hlen := congrArg List.length hrest
    rw [List.length_append] at hlen
    refine ⟨rest, m, addr, ?_, ?_⟩
    · rw [WirePacket.bytes, List.length_append, p.length_header, ← hlen, Phase.held]
      omega
    · rw [framer_data_full .ample m (by omega) (by omega), hrest]
      rfl
  | skip => cases htr

theorem finishedRecord_dataSize (h data : List UInt8) :
    (finishedRecord h data).dataSize = getTcpPacket3HeaderDataSize h := by
  rw [finishedRecord, fillTcpPacket3DataField]
  split_ifs <;> rfl

theorem framer_step_length {env : HeapEnv} {n n' : Nat} {ph ph' : Phase} {b : UInt8}
    {out : List (Block TcpPacket3)} (h : (framer env).step (n, ph) b = some ((n', ph'), out)) :
    ph'.held ≤ ph.held + 1 ∧ ∀ p ∈ out, 8 + p.val.dataSize.toNat ≤ ph.held + 1 := by
  cases ph with
  | header acc =>
    have hlen : (acc ++ [b]).length = acc.length + 1 := by simp
    by_cases hshort : acc.length + 1 < tcpPacket3HeaderSize
    · simp only [framer, if_pos hshort, Option.some.injEq, Prod.mk.injEq] at h
      obtain ⟨⟨-, rfl⟩, rfl⟩ := h
      simp [Phase.held]
    · simp only [framer, if_neg hshort, closeWindow] at h
      rw [tcpPacket3HeaderSize] at hshort
      split_ifs at h with hh hok hz hz hneg
      · simp only [Option.some.injEq, Prod.mk.injEq] at h
        obtain ⟨⟨-, rfl⟩, rfl⟩ := h
        simp only [List.mem_singleton, forall_eq, finishedRecord_dataSize, hz, Phase.held,
          List.length_nil]
        omega
      · simp only [Option.some.injEq, Prod.mk.injEq] at h
        obtain ⟨⟨-, rfl⟩, rfl⟩ := h
        simp only [Phase.held, List.length_nil, List.not_mem_nil, false_implies, implies_true,
          and_true]
        omega
      · simp only [Option.some.injEq, Prod.mk.injEq] at h
        obtain ⟨⟨-, rfl⟩, rfl⟩ := h
        simp [Phase.held]
      · simp only [Option.some.injEq, Prod.mk.injEq] at h
        obtain ⟨⟨-, rfl⟩, rfl⟩ := h
        simp [Phase.held]
      · simp only [Option.some.injEq, Prod.mk.injEq] at h
        obtain ⟨⟨-, rfl⟩, rfl⟩ := h
        simp only [Phase.held, List.length_drop, hlen, List.not_mem_nil, false_implies,
          implies_true, and_true]
        omega
  | data addr hd acc =>
    by_cases hmore : acc.length + 1 < (getTcpPacket3HeaderDataSize hd).toNat
    · simp only [framer, if_pos hmore, Option.some.injEq, Prod.mk.injEq] at h
      obtain ⟨⟨-, rfl⟩, rfl⟩ := h
      simp only [Phase.held, List.length_append, List.length_singleton, List.not_mem_nil,
        false_implies, implies_true, and_true]
      omega
    · simp only [framer, if_neg hmore, Option.some.injEq, Prod.mk.injEq] at h
      obtain ⟨⟨-, rfl⟩, rfl⟩ := h
      simp only [List.mem_singleton, forall_eq, finishedRecord_dataSize, Phase.held,
        List.length_nil]
      omega
  | skip remain =>
    simp only [framer, Option.some.injEq, Prod.mk.injEq] at h
    obtain ⟨⟨-, rfl⟩, rfl⟩ := h
    split_ifs <;> simp [Phase.held]

theorem framer_run_length {env : HeapEnv} {n n' : Nat} {ph ph' : Phase} {bs : List UInt8}
    {out : List (Block TcpPacket3)} (h : (framer env).run (n, ph) bs = some ((n', ph'), out)) :
    ph'.held ≤ ph.held + bs.length ∧
      ∀ p ∈ out, 8 + p.val.dataSize.toNat ≤ ph.held + bs.length := by
  induction bs generalizing n ph out with
  | nil =>
    simp only [Transducer.run_nil, Option.some.injEq, Prod.mk.injEq] at h
    obtain ⟨⟨-, rfl⟩, rfl⟩ := h
    simp
  | cons b bs ih =>
    rw [Transducer.run_cons] at h
    cases hs : (framer env).step (n, ph) b with
    | none => simp [hs] at h
    | some q =>
      obtain ⟨⟨n₁, ph₁⟩, out₁⟩ := q
      cases hr : (framer env).run (n₁, ph₁) bs with
      | none => simp [hs, hr] at h
      | some r =>
        obtain ⟨⟨n₂, ph₂⟩, out₂⟩ := r
        simp only [hs, hr, Option.bind_some, Option.map_some, Option.some.injEq,
          Prod.mk.injEq] at h
        obtain ⟨⟨rfl, rfl⟩, rfl⟩ := h
        obtain ⟨hheld, hout⟩ := framer_step_length hs
        obtain ⟨hheld', hout'⟩ := ih hr
        refine ⟨by rw [List.length_cons]; omega, fun p hp => ?_⟩
        rw [List.length_cons]
        rcases List.mem_append.mp hp with hp | hp
        · have := hout p hp
          omega
        · have := hout' p hp
          omega

end NucleoW5500
