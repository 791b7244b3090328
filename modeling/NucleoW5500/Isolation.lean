import NucleoW5500.ClientSteps
import NucleoW5500.Lockstep

/-! One connection after another. What the second one queues is what it would queue after
start-up exactly when the first one was read up to a place between two packets. -/

namespace NucleoW5500

open CString Lockstep

/-- The packets that turns of `comm_tcp_client` queue, up to the first call that does not
return. -/
def queuedPackets (env : HeapEnv) : List Turn → Client → World → List (Block TcpPacket3)
  | [], _, _ => []
  | t :: ts, c, w => match clientTurn env t c w with
    | .ok (c, events) w => queued events ++ queuedPackets env ts c w
    | .error _ _ => []

/-- Every connection from here on queues what it would queue after start-up. -/
def Isolated (c : Client) : Prop :=
  ∀ env ts w, w.incoming = [] → (∀ t ∈ ts, t.status ≠ .closed) →
    queuedPackets env ts c w = queuedPackets env ts Client.start w

section Cut

variable {p q : WirePacket} {a b : List UInt8}

theorem WirePacket.length_bytes_eq (h : p.bytes ++ a = q.bytes ++ b) :
    p.bytes.length = q.bytes.length := by
  simp only [WirePacket.bytes, List.append_assoc] at h
  have hheader : p.header = q.header := List.append_inj_left h rfl
  have hsize := congrArg (fun l => (getTcpPacket3HeaderDataSize l).toNat) hheader
  simp only [WirePacket.dataSize_header] at hsize
  simp [WirePacket.bytes, hheader, hsize]

theorem wireBytes_cut {qs ds todo : List WirePacket} {part s : List UInt8}
    (h : wireBytes qs = wireBytes ds ++ part) (hpart : part ++ s = wireBytes todo)
    (hshort : ∀ p ∈ todo.head?, part.length < p.bytes.length) : part = [] := by
  induction ds generalizing qs with
  | nil =>
    cases qs with
    | nil => exact h.symm
    | cons q qs =>
      cases todo with
      | nil => exact (List.append_eq_nil_iff.mp hpart).1
      | cons p todo =>
        simp only [wireBytes, List.flatMap_cons, List.flatMap_nil, List.nil_append] at h hpart
        rw [← h, List.append_assoc] at hpart
        have hlen := WirePacket.length_bytes_eq hpart
        have hlt := hshort p rfl
        rw [← h, List.length_append] at hlt
        omega
  | cons d ds ih =>
    cases qs with
    | nil =>
      have hlen := congrArg List.length h
      simp only [wireBytes, List.flatMap_nil, List.flatMap_cons, WirePacket.bytes,
        List.length_nil, List.length_append, d.length_header] at hlen
      omega
    | cons q qs =>
      simp only [wireBytes, List.flatMap_cons, List.append_assoc] at h
      exact ih (List.append_inj_right h (WirePacket.length_bytes_eq h))

end Cut

section SameReceiver

def SameQueue (r r' : Client × List ClientEvent) : Prop :=
  r.1.receiver = r'.1.receiver ∧ queued r.2 = queued r'.2

variable {c c' : Client}

theorem clientEstablished_same (env : HeapEnv) (h : c.receiver = c'.receiver) :
    Runs Eq (fun r r' => SameQueue r.2 r'.2) (clientEstablished env c)
      (clientEstablished env c') := by
  rw [clientEstablished, clientEstablished, h]
  refine (Runs.refl _).bind ?_
  rintro ⟨p, receiver⟩ _ rfl
  cases p with
  | none => exact .pure ⟨rfl, rfl⟩
  | some p => exact .pure ⟨rfl, rfl⟩

theorem commTcpClient_same (env : HeapEnv) {t : Turn} (ht : t.status ≠ .closed)
    (h : c.receiver = c'.receiver) :
    Runs Eq (fun r r' => SameQueue r.2 r'.2) (commTcpClient env t c) (commTcpClient env t c') := by
  rw [commTcpClient, commTcpClient]
  cases hs : t.status with
  | closed => exact absurd hs ht
  | established => exact clientEstablished_same env h
  | closeWait => exact .pure ⟨h, rfl⟩
  | init =>
    have hinit : ∀ c : Client, (clientInit c).2.1.receiver = c.receiver ∧
        queued (clientInit c).2.2 = [] := by
      intro c
      rw [clientInit]
      split_ifs <;> exact ⟨rfl, rfl⟩
    exact .pure ⟨by rw [(hinit c).1, (hinit c').1, h], by rw [(hinit c).2, (hinit c').2]⟩
  | other => exact .pure ⟨h, rfl⟩

theorem clientTurn_same (env : HeapEnv) {t : Turn} (ht : t.status ≠ .closed)
    (h : c.receiver = c'.receiver) :
    Runs Eq SameQueue (clientTurn env t c) (clientTurn env t c') :=
  (Runs.refl _).bind fun _ _ _ => (commTcpClient_same env ht h).bind fun _ _ hr => .pure hr

theorem queuedPackets_same (env : HeapEnv) {ts : List Turn} (hts : ∀ t ∈ ts, t.status ≠ .closed)
    (h : c.receiver = c'.receiver) (w : World) :
    queuedPackets env ts c w = queuedPackets env ts c' w := by
  induction ts generalizing c c' w with
  | nil => rfl
  | cons t ts ih =>
    have hturn := clientTurn_same env (hts t (by simp)) h w w rfl
    rw [queuedPackets, queuedPackets]
    generalize clientTurn env t c w = r at hturn ⊢
    generalize clientTurn env t c' w = r' at hturn ⊢
    cases hturn with
    | ok hsame hw =>
      obtain ⟨hrec, hqueued⟩ := hsame
      subst hw
      dsimp only
      rw [hqueued, ih (fun t ht => hts t (by simp [ht])) hrec]
    | error _ => rfl

end SameReceiver

theorem clientTurn_closed {env : HeapEnv} {t : Turn} {c c' : Client} {w w' : World}
    {es : List ClientEvent} (ht : t.status = .closed)
    (h : clientTurn env t c w = .ok (c', es) w') : c'.receiver = c.receiver := by
  rw [clientTurn, Turn.arrive, CM.bind_ok (CM.modify_apply _ w)] at h
  obtain ⟨⟨received, c₁, es₁⟩, w₁, hcall, hret⟩ := CM.bind_eq_ok.mp h
  simp only [CM.pure_apply, EStateM.Result.ok.injEq, Prod.mk.injEq] at hret
  obtain ⟨⟨rfl, rfl⟩, rfl⟩ := hret
  cases commTcpClient_call hcall with
  | nothing hs | packet hs => cases hs.symm.trans ht
  | closeWait | closed | connect | init | other => rfl

section Established

variable {env : HeapEnv} {c : Client}

theorem clientTurn_established (bs : List UInt8) (w : World) :
    clientTurn env (.established bs) c w =
      match recvTcpPacket3 env c.receiver { w with incoming := w.incoming ++ bs } with
      | .ok (none, receiver) w' => .ok ({ c with receiver }, []) w'
      | .ok (some p, receiver) w' =>
        .ok ({ c with receiver, packetList := c.packetList ++ [p] }, [.queued p]) w'
      | .error e w' => .error e w' := by
  rw [clientTurn, Turn.arrive, CM.bind_ok (CM.modify_apply _ w)]
  simp only [commTcpClient, Turn.established, clientEstablished, Lockstep.bind_apply]
  cases recvTcpPacket3 env c.receiver { w with incoming := w.incoming ++ bs } with
  | error e w' => rfl
  | ok r w' =>
    obtain ⟨p, receiver⟩ := r
    cases p <;> rfl

theorem queuedPackets_length {ph : Phase} (htr : Tracks c.receiver ph) (w : World)
    (bss : List (List UInt8)) :
    ∀ p ∈ queuedPackets env (bss.map .established) c w,
      8 + p.val.dataSize.toNat ≤ ph.held + w.incoming.length + bss.flatten.length := by
  induction bss generalizing c ph w with
  | nil => simp [queuedPackets]
  | cons bs bss ih =>
    intro p hp
    rw [List.map_cons, queuedPackets, clientTurn_established] at hp
    have hspec := recvTcpPacket3_spec env htr { w with incoming := w.incoming ++ bs }
    cases hcall : recvTcpPacket3 env c.receiver { w with incoming := w.incoming ++ bs } with
    | error e w' =>
      rw [hcall] at hp
      simp at hp
    | ok r w' =>
      obtain ⟨q, receiver⟩ := r
      rw [hcall] at hp hspec
      obtain ⟨read, ph', hi, hrun, htr', -, -⟩ := hspec
      have hlen := congrArg List.length hi
      obtain ⟨hheld, hout⟩ := framer_run_length hrun
      simp only [List.length_append] at hlen
      rw [List.flatten_cons, List.length_append]
      cases q with
      | none =>
        have hle := ih (c := { c with receiver }) htr' w' p (by simpa [queued] using hp)
        omega
      | some q =>
        have hp' : p = q ∨ p ∈ queuedPackets env (bss.map .established)
            { c with receiver, packetList := c.packetList ++ [q] } w' := by
          simpa [queued] using hp
        rcases hp' with rfl | hp'
        · have hle := hout p (by simp)
          omega
        · have hle := ih (c := { c with receiver, packetList := _ }) htr' w' p hp'
          omega

theorem queuedPackets_recvCalls {n : Nat} {bs : List UInt8} {w w' : World} {st : Receiver}
    {ps : List (Block TcpPacket3)}
    (h : recvCalls env (n + 1) c.receiver { w with incoming := w.incoming ++ bs } =
      .ok (ps, st) w') :
    queuedPackets env ((bs :: List.replicate n []).map .established) c w = ps := by
  induction n generalizing c bs w ps with
  | zero =>
    obtain ⟨⟨p, st₁⟩, w₁, hcall, hret⟩ := CM.bind_eq_ok.mp h
    simp only [recvCalls, Lockstep.bind_apply, CM.pure_apply, EStateM.Result.ok.injEq, Prod.mk.injEq]
      at hret
    obtain ⟨⟨rfl, -⟩, -⟩ := hret
    rw [List.map_cons, queuedPackets, clientTurn_established, hcall]
    cases p <;> rfl
  | succ n ih =>
    obtain ⟨⟨p, st₁⟩, w₁, hcall, hrest⟩ := CM.bind_eq_ok.mp h
    obtain ⟨⟨ps₁, st₂⟩, w₂, hothers, hret⟩ := CM.bind_eq_ok.mp hrest
    simp only [CM.pure_apply, EStateM.Result.ok.injEq, Prod.mk.injEq] at hret
    obtain ⟨⟨rfl, rfl⟩, rfl⟩ := hret
    have hnil : ({ w₁ with incoming := w₁.incoming ++ [] } : World) = w₁ := by
      rw [List.append_nil]
    rw [List.map_cons, queuedPackets, clientTurn_established, hcall, List.replicate_succ]
    cases p with
    | none =>
      rw [← hnil] at hothers
      exact @ih { c with receiver := st₁ } _ _ _ hothers
    | some p =>
      rw [← hnil] at hothers
      exact congrArg (p :: ·) (@ih { c with receiver := st₁, packetList := _ } _ _ _ hothers)

theorem not_isolated {lo n : Nat} {ph : Phase} {s : List UInt8} {p : WirePacket}
    {ps : List WirePacket} (htr : Tracks c.receiver ph) (h : Streams env n lo ph s (p :: ps))
    (hheld : 0 < ph.held) : ¬ Isolated c := by
  intro hiso
  obtain ⟨rest, k, addr, hlen, hrun⟩ := @Streams.finish _ _ 0 _ _ _ _ _ _ h htr
  let w : World := { rxScript := List.replicate (2 * rest.length) (.ready 65535) }
  have hsupply : 2 * rest.length ≤ World.supply { w with incoming := rest } := by
    simp [w, World.supply, List.countP_replicate, RxEvent.productive]
  obtain ⟨m, st, w', hcalls, -, -⟩ :=
    @recvCalls_finish .ample _ _ _ { w with incoming := rest } _ _ htr hrun (by simp) hsupply
  obtain ⟨m, rfl⟩ : ∃ m', m = m' + 1 := by
    cases m with
    | zero => simp [recvCalls] at hcalls
    | succ m => exact ⟨m, rfl⟩
  -- started afresh, the receiver has too few bytes for this packet
  have hqueued := @queuedPackets_recvCalls .ample c m rest w w' st _ hcalls
  have hopen : ∀ t ∈ (rest :: List.replicate m []).map Turn.established, t.status ≠ .closed := by
    intro t ht
    obtain ⟨bs, -, rfl⟩ := List.mem_map.mp ht
    simp [Turn.established]
  rw [hiso .ample _ w rfl hopen] at hqueued
  have hle := @queuedPackets_length .ample Client.start _ Tracks.start w
    (rest :: List.replicate m []) ⟨addr, p.record⟩ (hqueued ▸ List.mem_singleton_self _)
  rw [p.received_record.dataSize] at hle
  rw [WirePacket.bytes, List.length_append, p.length_header] at hlen
  simp only [Phase.held, List.length_nil, w, List.flatten_cons, List.length_append,
    List.flatten_replicate_nil] at hle
  omega

end Established

/-- Isolation of connections. After a connection that carried the beginning of a packet
stream has been closed, every later connection queues what it would queue after start-up
exactly when the bytes read of the closed one are whole packets. -/
theorem commTcpClient_isolated {env : HeapEnv} {ts : List Turn} {t : Turn} {c c₁ c' : Client}
    {w w₁ w' : World} {es es' : List ClientEvent} {rest : List UInt8} {ps : List WirePacket}
    (hc : c.receiver = Receiver.start) (hw : w.incoming = [])
    (hts : ∀ t ∈ ts, t.status ≠ .closed) (hstream : arrivals ts ++ rest = wireBytes ps)
    (hrun : runTurns (clientTurn env) ts c w = .ok (c₁, es) w₁) (ht : t.status = .closed)
    (hclosed : clientTurn env t c₁ w₁ = .ok (c', es') w') :
    Isolated c' ↔ ∃ qs, bytesRead ts w₁ = wireBytes qs := by
  have hadv := (@runTurns_advances env _ (fun _ => True) queued
    (fun _ _ => List.filterMap_append ..) ts
    (fun t ht _ _ _ _ _ _ _ _ _ h hrun => ⟨trivial, clientTurn_advances (hts t ht) h hrun⟩)
    _ _ _ _ _ _ _ _ trivial (Serving.start hc hw hstream) hrun).2
  obtain ⟨done, todo, lo, ph, part, -, -, -, htr, hst, hheld, hpart, hread, hshort⟩ :=
    hadv.bytesRead hw hstream
  rw [← clientTurn_closed ht hclosed] at htr
  rw [hread]
  constructor
  · intro hiso
    refine ⟨done.map Prod.snd, ?_⟩
    rw [List.append_right_eq_self]
    by_contra hne
    have hpos := List.length_pos_iff.mpr hne
    cases todo with
    | nil =>
      exact hne (List.append_eq_nil_iff.mp hpart).1
    | cons p todo => exact not_isolated htr hst (by omega) hiso
  · rintro ⟨qs, hqs⟩
    rw [wireBytes_cut hqs.symm hpart hshort, List.length_nil] at hheld
    rw [htr.eq_header hheld.symm] at htr
    exact fun env ts w _ hts => queuedPackets_same env hts htr.eq_start w

/-- One packet, read to its end before the connection is closed. -/
theorem commTcpClient_isolated_whole :
    let p := WirePacket.mk 1 0 2 [104] (by decide)
    let ts := [p.bytes, []].map Turn.established
    let w : World := { rxScript := List.replicate 2 (.ready 65535) }
    ∃ c₁ es w₁ c' es' w', runTurns (clientTurn .ample) ts .start w = .ok (c₁, es) w₁ ∧
      clientTurn .ample { status := .closed } c₁ w₁ = .ok (c', es') w' ∧ Isolated c' := by
  intro p ts w
  let c₁ : Client := { Client.start with packetList := [⟨0, p.record⟩] }
  let w₁ : World := { asked := [8, 1], next := 1 }
  let w' : World := { asked := [8, 1], next := 1, console := [104], frees := [0]
                      lines := [packetLine p.record] }
  have hrun : runTurns (clientTurn .ample) ts .start w = .ok (c₁, [.queued ⟨0, p.record⟩]) w₁ := by
    decide +kernel
  have hclosed : clientTurn .ample { status := .closed } c₁ w₁ =
      .ok (.start, [.closed, .opened 0]) w' := by
    decide +kernel
  have hstream : arrivals ts ++ [] = wireBytes [p] := by decide
  exact ⟨_, _, _, _, _, _, hrun, hclosed, (commTcpClient_isolated rfl rfl (by decide) hstream hrun
    rfl hclosed).mpr ⟨[p], by decide +kernel⟩⟩

/-- A connection that is closed behind the first of two data bytes. The next one brings a
packet without data, whose first byte becomes the other. -/
theorem commTcpClient_joins :
    let p := WirePacket.mk 1 0 2 [104, 105] (by decide)
    let q := WirePacket.mk 1 0 2 [] (by decide)
    let ts := [p.bytes.take 9, []].map Turn.established
    let ts' := [q.bytes].map Turn.established
    let w : World := { rxScript := List.replicate 2 (.ready 65535) }
    let w₂ : World := { rxScript := [.ready 65535] }
    ∃ c₁ es w₁ c' es' w', arrivals ts ++ [105] = wireBytes [p] ∧
      runTurns (clientTurn .ample) ts .start w = .ok (c₁, es) w₁ ∧
      clientTurn .ample { status := .closed } c₁ w₁ = .ok (c', es') w' ∧
      (queuedPackets .ample ts' c' w₂).map (fun b => b.val.data) = [[104, 28]] ∧
      (queuedPackets .ample ts' .start w₂).map (fun b => b.val.data) = [[]] := by
  intro p q ts ts' w w₂
  let c₁ : Client := { Client.start with receiver :=
    ⟨List.replicate 8 0, 1, .data, some ⟨0, partialRecord p.header [104]⟩⟩ }
  let w₁ : World := { asked := [8, 2], next := 1 }
  exact ⟨c₁, [], w₁, c₁, [.closed, .opened 0], w₁, by decide, by decide +kernel, by decide +kernel,
    by decide +kernel, by decide +kernel⟩

end NucleoW5500
