import NucleoW5500.Client
import NucleoW5500.Stream

/-! What a turn of the client does to the stream it is reading. -/

namespace NucleoW5500

open CString

def queued (events : List ClientEvent) : List (Block TcpPacket3) :=
  events.filterMap fun
    | .queued p => some p
    | _ => none

def processed (events : List ClientEvent) : List (Block TcpPacket3) :=
  events.filterMap fun
    | .processed p => some p
    | _ => none

/-- The bytes in the buffer and those still to come finish the packets `ps`, of which the
receiver may have read a part. -/
def Serving (env : HeapEnv) (lo : Nat) (c : Client) (w : World) (s : List UInt8)
    (ps : List WirePacket) : Prop :=
  ∃ ph, Tracks c.receiver ph ∧ Streams env w.next lo ph (w.incoming ++ s) ps

theorem Serving.start {env : HeapEnv} {c : Client} {w : World} {s : List UInt8}
    {ps : List WirePacket} (hc : c.receiver = Receiver.start) (hw : w.incoming = [])
    (hs : s = wireBytes ps) : Serving env w.next c w s ps :=
  ⟨.header [], hc ▸ Tracks.start, .header (by simp [hw, hs]) (by simp) le_rfl⟩

theorem Serving.arrive {env : HeapEnv} {lo : Nat} {c : Client} {w : World} {bs s : List UInt8}
    {ps : List WirePacket} (h : Serving env lo c w (bs ++ s) ps) :
    Serving env lo c { w with incoming := w.incoming ++ bs } s ps := by
  obtain ⟨ph, htr, hst⟩ := h
  exact ⟨ph, htr, by simpa only [List.append_assoc] using hst⟩

/-- The first packets of the stream are finished, and `out` are those that got memory. -/
def Advances (env : HeapEnv) (lo : Nat) (w : World) (arrived s : List UInt8)
    (ps : List WirePacket) (out : List (Block TcpPacket3)) (c' : Client) (w' : World) : Prop :=
  ∃ done todo lo', ps = done.map Prod.snd ++ todo ∧ Numbered lo done lo' ∧ out = keep env done ∧
    Serving env lo' c' w' s todo ∧ ∃ bs, w.incoming ++ arrived = bs ++ w'.incoming

structure Served (env : HeapEnv) (c c' : Client) (w w' : World) (done : List (Nat × WirePacket))
    (received : Bool) (events : List ClientEvent) : Prop where
  packetList : c'.packetList = c.packetList ++ keep env done
  received : keep env done = [] ∧ received = false ∨ ∃ p, keep env done = [p] ∧ received = true
  queued : queued events = keep env done
  processed : processed events = []
  incoming : ∃ bs, w.incoming = bs ++ w'.incoming

theorem recvTcpPacket3_serves {env : HeapEnv} {lo : Nat} {c : Client} {w w' : World}
    {s : List UInt8} {ps : List WirePacket} {p : Option (Block TcpPacket3)} {receiver : Receiver}
    (h : Serving env lo c w s ps) (hrecv : recvTcpPacket3 env c.receiver w = .ok (p, receiver) w') :
    ∃ done todo lo', ps = done.map Prod.snd ++ todo ∧ Numbered lo done lo' ∧
      (∀ packetList, Serving env lo' { c with receiver, packetList } w' s todo) ∧
      keep env done = p.toList ∧ ∃ bs, w.incoming = bs ++ w'.incoming := by
  obtain ⟨ph, htr, hst⟩ := h
  have hspec := recvTcpPacket3_spec env htr w
  rw [hrecv] at hspec
  obtain ⟨bs, ph', hi, hframe, htr', -, -⟩ := hspec
  rw [hi, List.append_assoc] at hst
  obtain ⟨n', lo', ph₁, done, todo, hframe', hps, hnum, -, hst'⟩ := hst.run
  rw [hframe, Option.some.injEq, Prod.mk.injEq, Prod.mk.injEq] at hframe'
  obtain ⟨⟨rfl, rfl⟩, hkeep⟩ := hframe'
  exact ⟨done, todo, lo', hps, hnum, fun _ => ⟨ph', htr', hst'⟩, hkeep.symm, bs, hi⟩

theorem commTcpClient_serves {env : HeapEnv} {lo : Nat} {t : Turn} {c c' : Client} {w w' : World}
    {s : List UInt8} {ps : List WirePacket} {received : Bool} {events : List ClientEvent}
    (ht : t.status ≠ .closed) (h : Serving env lo c w s ps)
    (hrun : commTcpClient env t c w = .ok (received, c', events) w') :
    ∃ done todo lo', ps = done.map Prod.snd ++ todo ∧ Numbered lo done lo' ∧
      Serving env lo' c' w' s todo ∧ Served env c c' w w' done received events := by
  have hidle : c'.receiver = c.receiver → c'.packetList = c.packetList → queued events = [] →
      processed events = [] → received = false → w' = w →
      ∃ done todo lo', ps = done.map Prod.snd ++ todo ∧ Numbered lo done lo' ∧
        Serving env lo' c' w' s todo ∧ Served env c c' w w' done received events := by
    rintro hr hp hq hpr rfl rfl
    obtain ⟨ph, htr, hst⟩ := h
    exact ⟨[], ps, lo, rfl, le_rfl, ⟨ph, hr ▸ htr, hst⟩,
      ⟨by simp [hp, keep], Or.inl ⟨rfl, rfl⟩, hq, hpr, [], rfl⟩⟩
  cases commTcpClient_call hrun with
  | nothing _ hrecv =>
    obtain ⟨done, todo, lo', hps, hnum, hserv, hkeep, hi⟩ := recvTcpPacket3_serves h hrecv
    exact ⟨done, todo, lo', hps, hnum, hserv c.packetList,
      ⟨by simp [hkeep], Or.inl ⟨hkeep, rfl⟩, hkeep.symm, rfl, hi⟩⟩
  | @packet p _ _ _ hrecv =>
    obtain ⟨done, todo, lo', hps, hnum, hserv, hkeep, hi⟩ := recvTcpPacket3_serves h hrecv
    exact ⟨done, todo, lo', hps, hnum, hserv (c.packetList ++ [p]),
      ⟨by simp [hkeep], Or.inr ⟨p, hkeep, rfl⟩, hkeep.symm, rfl, hi⟩⟩
  | closeWait => exact hidle rfl rfl rfl rfl rfl rfl
  | closed hs => exact absurd hs ht
  | connect => exact hidle rfl rfl rfl rfl rfl rfl
  | init => exact hidle rfl rfl rfl rfl rfl rfl
  | other => exact hidle rfl rfl rfl rfl rfl rfl

theorem clientTurn_advances {env : HeapEnv} {lo : Nat} {t : Turn} {c c' : Client} {w w' : World}
    {s : List UInt8} {ps : List WirePacket} {events : List ClientEvent} (ht : t.status ≠ .closed)
    (h : Serving env lo c w (t.arrived ++ s) ps)
    (hrun : clientTurn env t c w = .ok (c', events) w') :
    Advances env lo w t.arrived s ps (queued events) c' w' := by
  rw [clientTurn, Turn.arrive, CM.bind_ok (CM.modify_apply _ w)] at hrun
  obtain ⟨⟨received, c₁, es⟩, w₁, hcall, hrest⟩ := CM.bind_eq_ok.mp hrun
  simp only [CM.pure_apply, EStateM.Result.ok.injEq, Prod.mk.injEq] at hrest
  obtain ⟨⟨rfl, rfl⟩, rfl⟩ := hrest
  obtain ⟨done, todo, lo', hps, hnum, hserv, hserved⟩ := commTcpClient_serves ht h.arrive hcall
  exact ⟨done, todo, lo', hps, hnum, hserved.queued, hserv, hserved.incoming⟩

theorem Advances.append {env : HeapEnv} {lo : Nat} {w w₁ w₂ : World} {a a' s : List UInt8}
    {ps : List WirePacket} {out out' : List (Block TcpPacket3)} {c₁ c₂ : Client}
    (h : Advances env lo w a (a' ++ s) ps out c₁ w₁)
    (h' : ∀ lo₁ todo, Serving env lo₁ c₁ w₁ (a' ++ s) todo →
      Advances env lo₁ w₁ a' s todo out' c₂ w₂) :
    Advances env lo w (a ++ a') s ps (out ++ out') c₂ w₂ := by
  obtain ⟨done, todo, lo₁, rfl, hnum, rfl, hserv, bs, hi⟩ := h
  obtain ⟨done', todo', lo₂, rfl, hnum', rfl, hserv', bs', hi'⟩ := h' lo₁ todo hserv
  refine ⟨done ++ done', todo', lo₂, by simp, hnum.append hnum', (keep_append env _ _).symm,
    hserv', bs ++ bs', ?_⟩
  rw [← List.append_assoc, hi, List.append_assoc, hi', List.append_assoc]

theorem runTurns_advances {env : HeapEnv} {turn : Turn → Client → CM (Client × List ClientEvent)}
    {good : Client → Prop} {f : List ClientEvent → List (Block TcpPacket3)}
    (hf : ∀ es es', f (es ++ es') = f es ++ f es') {ts : List Turn}
    (hturn : ∀ t ∈ ts, ∀ {lo s ps c c' w w' es}, good c → Serving env lo c w (t.arrived ++ s) ps →
      turn t c w = .ok (c', es) w' → good c' ∧ Advances env lo w t.arrived s ps (f es) c' w')
    {lo : Nat} {c c' : Client} {w w' : World} {s : List UInt8} {ps : List WirePacket}
    {es : List ClientEvent} (hc : good c) (h : Serving env lo c w (arrivals ts ++ s) ps)
    (hrun : runTurns turn ts c w = .ok (c', es) w') :
    good c' ∧ Advances env lo w (arrivals ts) s ps (f es) c' w' := by
  induction ts generalizing lo c w ps es with
  | nil =>
    simp only [runTurns, CM.pure_apply, EStateM.Result.ok.injEq, Prod.mk.injEq] at hrun
    obtain ⟨⟨rfl, rfl⟩, rfl⟩ := hrun
    have hnil : f [] = [] := by simpa using hf [] []
    exact ⟨hc, [], ps, lo, rfl, le_rfl, hnil, h, [], by simp [arrivals]⟩
  | cons t ts ih =>
    rw [arrivals, List.flatMap_cons, List.append_assoc] at h
    obtain ⟨⟨c₁, es₁⟩, w₁, hfirst, hrest⟩ := CM.bind_eq_ok.mp hrun
    obtain ⟨⟨c₂, es₂⟩, w₂, hothers, hret⟩ := CM.bind_eq_ok.mp hrest
    simp only [CM.pure_apply, EStateM.Result.ok.injEq, Prod.mk.injEq] at hret
    obtain ⟨⟨rfl, rfl⟩, rfl⟩ := hret
    obtain ⟨hc₁, hadv⟩ := hturn t (by simp) hc h hfirst
    have hothers' := fun {lo ps} => @ih (fun t ht => hturn t (by simp [ht])) lo c₁ w₁ ps es₂ hc₁
    rw [hf, arrivals, List.flatMap_cons]
    obtain ⟨done, todo, lo₁, -, -, -, hserv, -⟩ := id hadv
    exact ⟨(hothers' hserv hothers).1, hadv.append fun _ _ hs => (hothers' hs hothers).2⟩

theorem Advances.bytesRead {env : HeapEnv} {lo : Nat} {c : Client} {w w' : World} {ts : List Turn}
    {s : List UInt8} {ps : List WirePacket} {out : List (Block TcpPacket3)}
    (h : Advances env lo w (arrivals ts) s ps out c w') (hw : w.incoming = [])
    (hs : arrivals ts ++ s = wireBytes ps) :
    ∃ done todo lo' ph part, ps = done.map Prod.snd ++ todo ∧ Numbered lo done lo' ∧
      out = keep env done ∧ Tracks c.receiver ph ∧
      Streams env w'.next lo' ph (w'.incoming ++ s) todo ∧ part.length = ph.held ∧
      part ++ (w'.incoming ++ s) = wireBytes todo ∧
      NucleoW5500.bytesRead ts w' = wireBytes (done.map Prod.snd) ++ part ∧
      ∀ p ∈ todo.head?, part.length < p.bytes.length := by
  obtain ⟨done, todo, lo', rfl, hnum, rfl, ⟨ph, htr, hst⟩, bs, hi⟩ := h
  obtain ⟨part, hheld, hpart, hshort⟩ := hst.partial_read htr
  refine ⟨done, todo, lo', ph, part, rfl, hnum, rfl, htr, hst, hheld, hpart, ?_, hshort⟩
  rw [hw, List.nil_append] at hi
  have hread : NucleoW5500.bytesRead ts w' = bs := by
    rw [NucleoW5500.bytesRead, hi, List.length_append, Nat.add_sub_cancel, List.take_left]
  rw [hread]
  have hall : bs ++ (w'.incoming ++ s) =
      (wireBytes (done.map Prod.snd) ++ part) ++ (w'.incoming ++ s) := by
    rw [← List.append_assoc, ← hi, hs, List.append_assoc, hpart, wireBytes, wireBytes,
      List.flatMap_append, wireBytes]
  exact List.append_cancel_right hall

end NucleoW5500
