import NucleoW5500.DhcpRuns

/-! The addresses that the DHCP client uses and the messages it sends, against the log of what it
has seen and done. -/

namespace NucleoW5500.Dhcp

open CString Ticks

section Meaning

def Message.Names (msg : Message) (a : Ip) : Prop :=
  ∃ f ∈ msg.options, f.kind = dhcpRequestedIpAddr ∧ f.value = a.bytes

/-- A REQUEST for `a` that is not yet this client's. -/
structure Asks (msg : Message) (a : Ip) : Prop where
  type : msg.type = some dhcpRequest
  ciaddr : msg.ciaddr = .zero
  names : msg.Names a

/-- After an OFFER of `a`, the client has asked for `a` and for nothing else. -/
def Requested (a : Ip) (log : List Io) : Prop :=
  ∃ before m after, log = before ++ [.received dhcpOffer a, .sent .broadcast m] ++ after ∧
    ∀ ip m', .sent ip m' ∈ Io.sent .broadcast m :: after →
      ∃ msg, readMessage m' = some msg ∧ Asks msg a

/-- The address has been offered, asked for and acknowledged, no other host has answered for it,
and then the chip has got it. -/
def Granted (a : Ip) (log : List Io) : Prop :=
  ∃ before y sn gw after, log = before ++
    [.received dhcpAck y, .probed a sockerrTimeout, .assigned a sn gw] ++ after ∧ Requested a before

/-- The messages of the client `chaddr`, by what has gone before. -/
inductive Proper (chaddr : Mac) (before : List Io) : Ip → Message → Prop
  | discover {msg : Message} : msg.chaddr = chaddr → msg.type = some dhcpDiscover →
    msg.ciaddr = .zero → Proper chaddr before .broadcast msg
  | request {msg : Message} (a : Ip) : msg.chaddr = chaddr → Asks msg a →
    .received dhcpOffer a ∈ before → Proper chaddr before .broadcast msg
  | renew {msg : Message} (ip : Ip) : msg.chaddr = chaddr → msg.type = some dhcpRequest →
    Granted msg.ciaddr before → Proper chaddr before ip msg
  | decline {msg : Message} (a : Ip) (ret : Int) : msg.chaddr = chaddr →
    msg.type = some dhcpDecline → msg.ciaddr = .zero → msg.Names a →
    .probed a ret ∈ before → ret ≠ sockerrTimeout → Proper chaddr before .broadcast msg

def SentProper (chaddr : Mac) (log : List Io) : Prop :=
  ∀ before ip m after, log = before ++ .sent ip m :: after →
    ∃ msg, readMessage m = some msg ∧ Proper chaddr before ip msg

theorem Requested.first {a : Ip} (log : List Io) {m : List UInt8} {msg : Message}
    (hmsg : readMessage m = some msg) (hasks : Asks msg a) :
    Requested a (log ++ [.received dhcpOffer a] ++ [.sent .broadcast m]) := by
  refine ⟨log, m, [], by simp, ?_⟩
  intro ip m' hm
  obtain ⟨rfl, rfl⟩ := Io.sent.inj (List.mem_singleton.mp hm)
  exact ⟨msg, hmsg, hasks⟩

theorem Requested.append {a : Ip} {log : List Io} (h : Requested a log) {e : Io}
    (he : ∀ ip m, e = .sent ip m → ∃ msg, readMessage m = some msg ∧ Asks msg a) :
    Requested a (log ++ [e]) := by
  obtain ⟨before, m, after, rfl, hafter⟩ := h
  refine ⟨before, m, after ++ [e], by simp, ?_⟩
  intro ip m' hm
  rw [← List.cons_append] at hm
  rcases List.mem_append.mp hm with hm | hm
  · exact hafter ip m' hm
  · exact he ip m' (List.mem_singleton.mp hm).symm

theorem Requested.offered {a : Ip} {log : List Io} (h : Requested a log) :
    .received dhcpOffer a ∈ log := by
  obtain ⟨before, m, after, rfl, -⟩ := h
  simp

theorem Granted.append {a : Ip} {log : List Io} (h : Granted a log) (es : List Io) :
    Granted a (log ++ es) := by
  obtain ⟨before, y, sn, gw, after, rfl, hasked⟩ := h
  exact ⟨before, y, sn, gw, after ++ es, by simp, hasked⟩

theorem SentProper.append {chaddr : Mac} {log : List Io} (h : SentProper chaddr log) {e : Io}
    (he : ∀ ip m, e = .sent ip m → ∃ msg, readMessage m = some msg ∧ Proper chaddr log ip msg) :
    SentProper chaddr (log ++ [e]) := by
  intro before ip m after heq
  rcases List.eq_nil_or_concat after with rfl | ⟨after, b, rfl⟩
  · obtain ⟨rfl, hlast⟩ := List.append_inj' heq rfl
    exact he ip m (List.singleton_inj.mp hlast)
  · rw [List.concat_eq_append, ← List.cons_append, ← List.append_assoc] at heq
    exact h before ip m after (List.append_inj' heq rfl).1

theorem proper_discover (log : List Io) (c : Client) :
    ∃ msg, readMessage (discoverMsg c) = some msg ∧ Proper c.chaddr log .broadcast msg :=
  ⟨_, readMessage_discover c, .discover rfl rfl rfl⟩

theorem asks_request {c : Client} (h : c.state = .discover ∨ c.state = .request) :
    requestIp c = .broadcast ∧
      ∃ msg, readMessage (requestMsg c) = some msg ∧ msg.chaddr = c.chaddr ∧ Asks msg c.ip := by
  have hnot : ¬ (c.state = .leased ∨ c.state = .rerequest) := by
    rcases h with h | h <;> simp [h]
  have hip : requestIp c = .broadcast := if_neg hnot
  refine ⟨hip, _, readMessage_request c, ?_⟩
  rw [if_neg hnot]
  have hb : (requestIp c).b3 = 255 := by rw [hip]; rfl
  refine ⟨rfl, rfl, rfl, ?_⟩
  refine ⟨⟨dhcpRequestedIpAddr, c.ip.bytes, by simp [Ip.bytes], by decide, by decide⟩, ?_, rfl, rfl⟩
  simp only [requestFields, if_pos hb, addressFields]
  simp

theorem renew_request {c : Client} (h : c.state = .leased ∨ c.state = .rerequest) :
    ∃ msg, readMessage (requestMsg c) = some msg ∧ msg.chaddr = c.chaddr ∧
      msg.type = some dhcpRequest ∧ msg.ciaddr = c.ip := by
  refine ⟨_, readMessage_request c, ?_⟩
  rw [if_pos h]
  exact ⟨rfl, rfl, rfl⟩

theorem names_decline (c : Client) : ∃ msg, readMessage (declineMsg c) = some msg ∧
    msg.chaddr = c.chaddr ∧ msg.type = some dhcpDecline ∧ msg.ciaddr = .zero ∧ msg.Names c.ip := by
  refine ⟨_, readMessage_decline c, rfl, rfl, rfl, ?_⟩
  refine ⟨⟨dhcpRequestedIpAddr, c.ip.bytes, by simp [Ip.bytes], by decide, by decide⟩, ?_, rfl, rfl⟩
  simp [declineFields, addressFields]

end Meaning

section Lawful

structure Lawful (c : Client) : Prop where
  requested : c.state = .request → Requested c.ip c.log
  granted : c.state = .leased ∨ c.state = .rerequest → Granted c.ip c.log
  kept : c.state = .rerequest → c.oldIp = c.ip
  sipr : c.net.sipr = .zero ∨ Granted c.net.sipr c.log
  sent : SentProper c.chaddr c.log

variable {c c₁ c₂ : Client} {t : Turn} {type : UInt8} {ret : DhcpRun}

theorem sipr_append (h : c.net.sipr = .zero ∨ Granted c.net.sipr c.log) (e : Io) :
    c.net.sipr = .zero ∨ Granted c.net.sipr (c.log ++ [e]) := h.imp_right (·.append [e])

theorem Heard.frame (h : Heard c type c₁) : c₁.ip = c.ip ∧ c₁.oldIp = c.oldIp ∧ c₁.net = c.net ∧
    c₁.chaddr = c.chaddr := by
  cases h <;> exact ⟨rfl, rfl, rfl, rfl⟩

theorem Heard.log (h : Heard c type c₁) (htype : type ≠ 0) :
    c₁.log = c.log ++ [.received type (peekIp c₁.mem 16)] := by
  cases h with
  | silent socket mem => exact absurd rfl htype
  | message socket mem params type => rfl

theorem Lawful.heard (h : Lawful c) (hc : Heard c type c₁) : Lawful c₁ := by
  cases hc with
  | silent socket mem => exact ⟨h.requested, h.granted, h.kept, h.sipr, h.sent⟩
  | message socket mem params type =>
    have hnot : ∀ ip m, Io.received type (peekIp mem 16) ≠ .sent ip m := by simp
    refine ⟨fun hs => (h.requested hs).append fun ip m hm => absurd hm (hnot ip m), fun hs =>
      (h.granted hs).append _, h.kept, h.sipr.imp_right (·.append _),
      h.sent.append fun ip m hm => absurd hm (hnot ip m)⟩

theorem Lawful.sends (h : Lawful c) {ip : Ip} {m : List UInt8} {msg : Message}
    (hm : readMessage m = some msg) (hp : Proper c.chaddr c.log ip msg) :
    SentProper c.chaddr (sendMsg c ip m).log := by
  refine h.sent.append ?_
  rintro ip' m' heq
  obtain ⟨rfl, rfl⟩ := Io.sent.inj heq
  exact ⟨msg, hm, hp⟩

/-- The client has left the states in which it asks for an address or has one. -/
theorem Lawful.drops (hstate : c₁.state = .init ∨ c₁.state = .discover)
    (hsipr : c₁.net.sipr = .zero ∨ Granted c₁.net.sipr c₁.log)
    (hsent : SentProper c₁.chaddr c₁.log) : Lawful c₁ := by
  refine ⟨fun hs => ?_, fun hs => ?_, fun hs => ?_, hsipr, hsent⟩
  all_goals
    rcases hstate with hstate | hstate
    all_goals simp [hstate] at hs

/-- What `DHCP_run` may return. -/
inductive Honest : DhcpRun → List Io → Prop
  | running (log : List Io) : Honest .running log
  | failed (log : List Io) : Honest .failed log
  | stopped (log : List Io) : Honest .stopped log
  | leased {a : Ip} {log : List Io} : Granted a log → Honest .ipLeased log

theorem Honest.append {log : List Io} (h : Honest ret log) (es : List Io) :
    Honest ret (log ++ es) := by
  cases h with
  | running => exact .running _
  | failed => exact .failed _
  | stopped => exact .stopped _
  | leased hg => exact .leased (hg.append es)

theorem Heard.log_prefix (h : Heard c type c₁) : c.log <+: c₁.log := by
  cases h with
  | silent => exact List.prefix_rfl
  | message => exact List.prefix_append _ _

theorem Moves.log_prefix (h : Moves t type c ret c₁) : c.log <+: c₁.log := by
  cases h with
  | binds => exact (List.prefix_append _ _).trans (List.prefix_append _ _)
  | conflicts =>
    exact ((List.prefix_append _ _).trans (List.prefix_append _ _)).trans (List.prefix_append _ _)
  | changed => exact (List.prefix_append _ _).trans (List.prefix_append _ _)
  | starts => exact List.prefix_append _ _
  | requests => exact List.prefix_append _ _
  | repeats => exact List.prefix_append _ _
  | asksAgain => exact List.prefix_append _ _
  | startsOver => exact List.prefix_append _ _
  | renews => exact List.prefix_append _ _
  | _ => exact List.prefix_rfl

theorem Lawful.moves (h : Lawful c) (hc : Heard c type c₁) (hm : Moves t type c₁ ret c₂) :
    Lawful c₂ ∧ Honest ret c₂.log := by
  have h₁ := h.heard hc
  have hstate := hc.state
  cases hm with
  | starts hs =>
    obtain ⟨msg, hmsg, hp⟩ := proper_discover c₁.log { c₁ with ip := .zero }
    exact ⟨.drops (.inr rfl) (sipr_append h₁.sipr _) (h₁.sends hmsg hp), .running _⟩
  | requests hs htype =>
    have hlog := hc.log (by rw [htype]; decide)
    obtain ⟨hip, msg, hmsg, hch, hasks⟩ :=
      asks_request (c := { c₁ with ip := peekIp c₁.mem 16 }) (.inl hs)
    have hoffer : .received dhcpOffer (peekIp c₁.mem 16) ∈ c₁.log := by
      rw [hlog, htype]
      exact List.mem_append_right _ (List.mem_singleton.mpr rfl)
    have hsent := h₁.sends hmsg (.request _ hch hasks hoffer)
    rw [sendDhcpRequest, hip]
    refine ⟨⟨fun _ => ?_, fun hs' => ?_, fun hs' => ?_, sipr_append h₁.sipr _, hsent⟩, .running _⟩
    · have hreq := Requested.first c.log hmsg hasks
      rw [← htype, ← hlog] at hreq
      exact hreq
    · rcases hs' with hs' | hs' <;> cases hs'
    · cases hs'
  | waits => exact ⟨h₁, .running _⟩
  | repeats hs =>
    obtain ⟨msg, hmsg, hp⟩ := proper_discover c₁.log c₁
    exact ⟨.drops (.inr hs) (sipr_append h₁.sipr _) (h₁.sends hmsg hp), .running _⟩
  | asksAgain hs =>
    rcases hs with hs | hs
    · have hreq := h₁.requested hs
      obtain ⟨hip, msg, hmsg, hch, hasks⟩ := asks_request (.inr hs)
      have hsent := h₁.sends hmsg (.request _ hch hasks hreq.offered)
      rw [sendDhcpRequest, hip]
      refine ⟨⟨fun _ => ?_, fun hs' => ?_, fun hs' => ?_, sipr_append h₁.sipr _, hsent⟩, .running _⟩
      · refine hreq.append fun ip m' hm => ?_
        obtain ⟨rfl, rfl⟩ := Io.sent.inj hm
        exact ⟨msg, hmsg, hasks⟩
      · have hs' : c₁.state = .leased ∨ c₁.state = .rerequest := hs'
        simp [hs] at hs'
      · have hs' : c₁.state = .rerequest := hs'
        simp [hs] at hs'
    · have hgranted := h₁.granted (.inr hs)
      obtain ⟨msg, hmsg, hch, htype, hci⟩ := renew_request (.inr hs)
      have hsent := h₁.sends hmsg (.renew (requestIp c₁) hch htype (hci ▸ hgranted))
      refine ⟨⟨fun hs' => ?_, fun _ => hgranted.append _, fun _ => h₁.kept hs,
        sipr_append h₁.sipr _, hsent⟩, .running _⟩
      have hs' : c₁.state = .request := hs'
      simp [hs] at hs'
  | fails => exact ⟨.drops (.inl rfl) h₁.sipr h₁.sent, .failed _⟩
  | startsOver =>
    obtain ⟨msg, hmsg, hp⟩ := proper_discover c₁.log c₁
    exact ⟨.drops (.inr rfl) (sipr_append h₁.sipr _) (h₁.sends hmsg hp), .running _⟩
  | binds hs htype =>
    have hreq := h.requested (hstate.symm.trans hs)
    have hip := hc.frame.1
    have hgranted : Granted c₁.ip (c₁.log ++ [.probed c₁.ip sockerrTimeout] ++
        [.assigned c₁.ip c₁.params.sn c₁.params.gw]) := by
      refine ⟨c.log, peekIp c₁.mem 16, c₁.params.sn, c₁.params.gw, [], ?_, hip ▸ hreq⟩
      rw [hc.log (by rw [htype]; decide), htype]
      simp
    refine ⟨⟨fun hs' => (by cases hs'), fun _ => hgranted, fun hs' => (by cases hs'), .inr hgranted,
      ?_⟩, .running _⟩
    exact (h₁.sent.append (by simp)).append (by simp)
  | conflicts hs htype hprobe =>
    obtain ⟨msg, hmsg, hch, htype', hci, hnames⟩ :=
      names_decline (c₁.note (.probed c₁.ip (probeRet t c₁.ip)))
    have hprobed : Lawful (c₁.note (.probed c₁.ip (probeRet t c₁.ip))) := by
      refine ⟨fun hs => (h₁.requested hs).append (by simp), fun hs => (h₁.granted hs).append _,
        h₁.kept, sipr_append h₁.sipr _, h₁.sent.append (by simp)⟩
    have hsent := hprobed.sends hmsg (.decline c₁.ip (probeRet t c₁.ip) hch htype' hci hnames
      (by simp [Client.note]) hprobe)
    exact ⟨.drops (.inl rfl) (.inl rfl) (hsent.append (by simp)), .running _⟩
  | refused => exact ⟨.drops (.inr rfl) h₁.sipr h₁.sent, .running _⟩
  | loses hs => exact ⟨.drops (.inr rfl) h₁.sipr h₁.sent, .leased (h₁.granted (.inr hs))⟩
  | holds hs => exact ⟨h₁, .leased (h₁.granted (.inl hs))⟩
  | renews hs =>
    have hgranted := h₁.granted (.inl hs)
    obtain ⟨msg, hmsg, hch, htype, hci⟩ :=
      renew_request (c := { c₁ with oldIp := c₁.ip, xid := c₁.xid + 1 }) (.inl hs)
    have hsent := h₁.sends hmsg
      (.renew (requestIp { c₁ with oldIp := c₁.ip, xid := c₁.xid + 1 }) hch htype (hci ▸ hgranted))
    exact ⟨⟨fun hs' => (by cases hs'), fun _ => hgranted.append _, fun _ => rfl,
      sipr_append h₁.sipr _, hsent⟩, .leased (hgranted.append _)⟩
  | renewed hs =>
    have hg := h₁.granted (.inr hs)
    exact ⟨⟨fun hs' => (by cases hs'), fun _ => hg, fun hs' => (by cases hs'), h₁.sipr, h₁.sent⟩,
      .leased hg⟩
  | changed hs _ hne => exact absurd (h₁.kept hs) hne

/-- What holds in every run: each answer is an honest one. -/
structure Told (rets : List DhcpRun) (c : Client) : Prop where
  lawful : Lawful c
  honest : ∀ ret ∈ rets, Honest ret c.log

theorem Told.did {s : Step} {rets rets' : List DhcpRun} (h : Told rets c) (hd : Did c s rets' c₁) :
    Told (rets ++ rets') c₁ := by
  obtain ⟨hl, hh⟩ := h
  cases hd with
  | arrive d socket =>
    exact ⟨⟨hl.requested, hl.granted, hl.kept, hl.sipr, hl.sent⟩, by simpa using hh⟩
  | second =>
    exact ⟨⟨hl.requested, hl.granted, hl.kept, hl.sipr, hl.sent⟩, by rwa [List.append_nil]⟩
  | stopped t hs =>
    refine ⟨hl, fun ret hret => ?_⟩
    rcases List.mem_append.mp hret with hret | hret
    · exact hh ret hret
    · exact List.mem_singleton.mp hret ▸ .stopped _
  | run hheard hmoves =>
    obtain ⟨hl', hret'⟩ := hl.moves hheard hmoves
    obtain ⟨es, hes⟩ := hheard.log_prefix.trans hmoves.log_prefix
    refine ⟨hl', fun ret hret => ?_⟩
    rcases List.mem_append.mp hret with hret | hret
    · exact hes ▸ (hh ret hret).append es
    · exact List.mem_singleton.mp hret ▸ hret'

theorem Lawful.init {c : Client} (h : c.log = []) : Lawful (dhcpInit c) := by
  have hsent : SentProper (dhcpInit c).chaddr [] := by simp [SentProper]
  rw [dhcpInit] at hsent ⊢
  split_ifs at hsent ⊢
  all_goals exact .drops (.inl rfl) (.inl rfl) (by simpa [resetDhcpTimeout, setShar, h] using hsent)

theorem Told.run {c₀ c : Client} {ss : List Step} {rets : List DhcpRun} (hlog : c₀.log = [])
    (h : (dhcpInit c₀).steps ss = .ok (rets, c)) : Told rets c :=
  Mealy.run_invariant (I := fun _ => Told) (fun h hs => h.did (step_did hs))
    ⟨Lawful.init hlog, fun _ hret => absurd hret List.not_mem_nil⟩ h

end Lawful

/-- A run in which a server gives an address. -/
def served : List Step :=
  [.run ⟨false, 0, 0⟩, .arrive (plainReply dhcpOffer).datagram, .run ⟨true, 0, 0⟩,
    .arrive (plainReply dhcpAck).datagram, .run ⟨true, 0, sockerrTimeout⟩, .run ⟨true, 0, 0⟩]

theorem served_run : ∃ rets c, (dhcpInit poweredOn).steps served = .ok (rets, c) ∧
    rets = [.running, .running, .running, .ipLeased] ∧ c.state = .leased ∧
      c.net.sipr = ⟨192, 168, 0, 9⟩ ∧ c.log.length = 6 := by
  have hend : ((dhcpInit poweredOn).steps served).map (fun r =>
      (r.1, r.2.state, r.2.net.sipr, r.2.log.length)) =
      .ok ([.running, .running, .running, .ipLeased], .leased, ⟨192, 168, 0, 9⟩, 6) := by
    decide +kernel
  obtain ⟨⟨rets, c⟩, hc, heq⟩ := exists_of_map hend
  simp only [Prod.mk.injEq] at heq
  exact ⟨rets, c, hc, heq⟩

/-- The chip has no address, or one that was offered, asked for, acknowledged and found free; so
has a client that says it has a lease. -/
theorem lease_granted {c₀ c : Client} {ss : List Step} {rets : List DhcpRun} (hlog : c₀.log = [])
    (h : (dhcpInit c₀).steps ss = .ok (rets, c)) :
    (c.net.sipr = .zero ∨ Granted c.net.sipr c.log) ∧
      (c.state = .leased ∨ c.state = .rerequest → Granted c.ip c.log) :=
  ⟨(Told.run hlog h).lawful.sipr, (Told.run hlog h).lawful.granted⟩

theorem lease_granted_served : ∃ rets c, (dhcpInit poweredOn).steps served = .ok (rets, c) ∧
    c.net.sipr = ⟨192, 168, 0, 9⟩ ∧ (c.net.sipr = .zero ∨ Granted c.net.sipr c.log) ∧
      (c.state = .leased ∨ c.state = .rerequest → Granted c.ip c.log) := by
  obtain ⟨rets, c, h, -, -, hsipr, -⟩ := served_run
  exact ⟨rets, c, h, hsipr, lease_granted rfl h⟩

/-- `DHCP_run` never says that the address has changed, and it says that there is a lease only
after there was one. -/
theorem answers_honest {c₀ c : Client} {ss : List Step} {rets : List DhcpRun} (hlog : c₀.log = [])
    (h : (dhcpInit c₀).steps ss = .ok (rets, c)) : ∀ ret ∈ rets, Honest ret c.log :=
  (Told.run hlog h).honest

theorem answers_honest_served : ∃ rets c, (dhcpInit poweredOn).steps served = .ok (rets, c) ∧
    rets = [.running, .running, .running, .ipLeased] ∧ ∀ ret ∈ rets, Honest ret c.log := by
  obtain ⟨rets, c, h, hrets, -⟩ := served_run
  exact ⟨rets, c, h, hrets, answers_honest rfl h⟩

end NucleoW5500.Dhcp
