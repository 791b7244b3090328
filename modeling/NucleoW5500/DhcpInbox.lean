import NucleoW5500.DhcpRuns

/-! The DHCP client and its message buffer over whole runs: when a datagram does not fit, and what
the buffer held before. -/

namespace NucleoW5500.Dhcp

open CString Ticks Udp

variable {P : Datagram → Prop} {c c₁ c₂ : Client} {t : Turn} {type : UInt8} {ret : DhcpRun}

/-- Whole datagrams wait at the socket, and `P` holds of each. -/
structure Inbox (P : Datagram → Prop) (c : Client) : Prop where
  waiting : ∃ done todo, Between c.socket done todo ∧ ∀ d ∈ todo, P d
  room : c.socket.rx.length ≤ c.rxSize.toNat

theorem Inbox.lt (h : Inbox P c) : c.socket.rx.length < 65536 :=
  Nat.lt_of_le_of_lt h.room c.rxSize.toNat_lt

theorem Inbox.of_eq (h : Inbox P c) (hs : c₁.socket = c.socket) (hr : c₁.rxSize = c.rxSize) :
    Inbox P c₁ := by
  obtain ⟨hwaiting, hroom⟩ := h
  exact ⟨by rwa [hs], by rwa [hs, hr]⟩

theorem Inbox.reopen (h : Inbox P c) (hs : c₁.socket = c.socket.reopen) : Inbox P c₁ := by
  obtain ⟨done, todo, hb, -⟩ := h.waiting
  exact ⟨⟨done ++ todo, [], hs ▸ hb.reopen, by simp⟩, by simp [hs, Socket.reopen]⟩

theorem Inbox.arrive (h : Inbox P c) {d : Datagram} (hd : P d) : Inbox P (c.arrive d) := by
  rw [Client.arrive]
  by_cases hroom : c.socket.rx.length + d.bytes.length ≤ c.rxSize.toNat
  · rw [if_pos hroom]
    obtain ⟨done, todo, hb, hP⟩ := h.waiting
    refine ⟨⟨done, todo ++ [d], hb.arrive [d], ?_⟩, ?_⟩
    · intro d' hd'
      rcases List.mem_append.mp hd' with hd' | hd'
      · exact hP d' hd'
      · exact List.mem_singleton.mp hd' ▸ hd
    · simpa [Socket.arrive, stream] using hroom
  · rw [if_neg hroom]
    exact h

theorem Inbox.store {d : Datagram} {done todo : List Datagram} (h : Inbox P c)
    (hb : Between c.socket done (d :: todo)) (hP : ∀ d' ∈ todo, P d') :
    Inbox P (c.store d done todo) := by
  refine ⟨⟨done ++ [d], todo, ⟨rfl, rfl, ?_⟩, hP⟩, ?_⟩
  · simp only [Client.store, stream_append, List.length_append, stream_cons, d.length_bytes]
    simp [stream, Nat.add_assoc]
  · have hroom := h.room
    rw [hb.rx, stream_cons, List.length_append] at hroom
    simp only [Client.store]
    omega

theorem Moves.socket (h : Moves t type c ret c₁) :
    (c₁.socket = c.socket ∨ c₁.socket = c.socket.reopen) ∧ c₁.rxSize = c.rxSize := by
  cases h with
  | conflicts => exact ⟨.inr rfl, rfl⟩
  | changed => exact ⟨.inr rfl, rfl⟩
  | _ => exact ⟨.inl rfl, rfl⟩

theorem Inbox.respond (h : Inbox P c) (hstop : c.state ≠ .stop) :
    Inbox P (respond t type c).2 := by
  obtain ⟨hs, hr⟩ := (respond_moves t type hstop).socket
  rcases hs with hs | hs
  · exact h.of_eq hs hr
  · exact h.reopen hs

/-- What a call does with the next datagram. -/
theorem dhcpRun_cases (h : Inbox P c) (t : Turn) :
    (∃ r, dhcpRun t c = .ok r ∧ Inbox P r.2) ∨
      (dhcpRun t c = .error .msgBounds ∧ c.state ≠ .stop ∧ t.udp = true ∧
        ∃ done d todo, Between c.socket done (d :: todo) ∧ P d ∧ msgSize < d.data.length) := by
  by_cases hstop : c.state = .stop
  · exact .inl ⟨_, dhcpRun_stop hstop, h⟩
  cases hudp : t.udp with
  | false =>
    refine .inl ⟨_, dhcpRun_reopen hstop hudp, Inbox.respond ?_ hstop⟩
    exact h.reopen rfl
  | true =>
    obtain ⟨done, todo, hb, hP⟩ := h.waiting
    cases todo with
    | nil => exact .inl ⟨_, dhcpRun_silent hstop hudp hb.rx, h.respond hstop⟩
    | cons d todo =>
      have hcons := dhcpRun_cons hstop hudp hb h.lt
      have hstore := h.store hb fun d' hd' => hP d' (List.mem_cons_of_mem d hd')
      split_ifs at hcons with hbig
      · exact .inr ⟨hcons, hstop, rfl, done, d, todo, hb, hP d List.mem_cons_self, hbig⟩
      · exact .inl ⟨_, hcons, hstore.respond hstop⟩
      · exact .inl ⟨_, hcons, hstore.respond hstop⟩
      · exact .inl ⟨_, hcons, Inbox.respond (hstore.of_eq rfl rfl) hstop⟩

theorem Inbox.step {s : Step} {rets : List DhcpRun} (h : Inbox P c) (hs : ∀ d, s = .arrive d → P d)
    (hstep : c.step s = .ok (rets, c₁)) : Inbox P c₁ := by
  cases s with
  | arrive d =>
    obtain ⟨-, rfl⟩ := Prod.mk.inj (Except.ok.inj hstep)
    exact h.arrive (hs d rfl)
  | second =>
    obtain ⟨-, rfl⟩ := Prod.mk.inj (Except.ok.inj hstep)
    exact h.of_eq rfl rfl
  | run t =>
    rcases dhcpRun_cases h t with ⟨r, hr, hi⟩ | ⟨hr, -⟩
    · rw [Client.step, hr] at hstep
      obtain ⟨-, rfl⟩ := Prod.mk.inj (Except.ok.inj hstep)
      exact hi
    · rw [Client.step, hr] at hstep
      cases hstep

theorem Inbox.init {done : List Datagram} (h : Between c.socket done []) :
    Inbox P (dhcpInit c) := by
  have hrx : c.socket.rx = [] := h.rx
  have hi : Inbox P c := ⟨⟨done, [], h, by simp⟩, by simp [hrx]⟩
  rw [dhcpInit]
  split_ifs
  all_goals exact hi.of_eq rfl rfl

theorem Inbox.run {ss : List Step} {rets : List DhcpRun} (h : Inbox P c)
    (hss : ∀ d, .arrive d ∈ ss → P d) (hrun : c.steps ss = .ok (rets, c₁)) : Inbox P c₁ := by
  refine Mealy.run_invariant (I := fun ss _ c => (∀ d, Step.arrive d ∈ ss → P d) → Inbox P c) ?_
    (fun _ => h) hrun hss
  intro ss rets c s rets' c' hi hstep hss
  refine (hi fun d hd => hss d (by simp [hd])).step (fun d hd => hss d (by simp [hd])) hstep

section Overrun

/-- A datagram of one byte more than the buffer has. -/
def longDatagram : Datagram :=
  ⟨⟨[192, 168, 0, 1], dhcpServerPort⟩, List.replicate 1025 0, rfl, by
    rw [List.length_replicate]
    decide⟩

def overlong : List Step := [.run ⟨false, 0, 0⟩, .arrive longDatagram, .run ⟨true, 0, 0⟩]

/-- The buffer is overrun exactly when the client takes a datagram that is longer. -/
theorem overrun_iff {c₀ : Client} {gone : List Datagram} {ss : List Step} {f : Fault}
    (h : Between c₀.socket gone []) :
    (dhcpInit c₀).steps ss = .error f ↔ ∃ before t after rets c done d todo,
      ss = before ++ .run t :: after ∧ (dhcpInit c₀).steps before = .ok (rets, c) ∧
      c.state ≠ .stop ∧ t.udp = true ∧ Between c.socket done (d :: todo) ∧ .arrive d ∈ before ∧
      msgSize < d.data.length := by
  constructor
  · intro hrun
    obtain ⟨before, s, after, rets, c, rfl, hb, hs⟩ := Mealy.run_error_iff.mp hrun
    have hinbox : Inbox (fun d => .arrive d ∈ before) c := (Inbox.init h).run (fun d hd => hd) hb
    cases s with
    | arrive d => cases hs
    | second => cases hs
    | run t =>
      rcases dhcpRun_cases hinbox t with ⟨r, hr, -⟩ | ⟨-, hstop, hudp, done, d, todo, hbt, hd, hbig⟩
      · rw [Client.step, hr] at hs
        cases hs
      · exact ⟨before, t, after, rets, c, done, d, todo, rfl, hb, hstop, hudp, hbt, hd, hbig⟩
  · rintro ⟨before, t, after, rets, c, done, d, todo, rfl, hb, hstop, hudp, hbt, -, hbig⟩
    have hinbox : Inbox (fun _ => True) c := (Inbox.init h).run (fun _ _ => trivial) hb
    refine Mealy.run_error_iff.mpr ⟨before, .run t, after, rets, c, rfl, hb, ?_⟩
    rw [Client.step, dhcpRun_cons hstop hudp hbt hinbox.lt, if_pos hbig]
    rfl

theorem overrun_iff_long : ∃ before t after rets c done d todo,
    overlong = before ++ Step.run t :: after ∧
      (dhcpInit poweredOn).steps before = .ok (rets, c) ∧ c.state ≠ .stop ∧ t.udp = true ∧
      Between c.socket done (d :: todo) ∧ .arrive d ∈ before ∧ msgSize < d.data.length := by
  have hsocket : Between poweredOn.socket [] [] := ⟨rfl, rfl, rfl⟩
  have hmap : ((dhcpInit poweredOn).steps overlong).map Prod.fst = .error .msgBounds := by
    decide +kernel
  cases hrun : (dhcpInit poweredOn).steps overlong with
  | error f => exact (overrun_iff hsocket).mp hrun
  | ok r =>
    rw [hrun] at hmap
    cases hmap

end Overrun

section Uninitialized

/-- A datagram of a server is a message with well-formed options. -/
def Sound (d : Datagram) : Prop := d.sender.port = dhcpServerPort → ∃ fs, Formed d fs

/-- The same but for the buffer. -/
structure Twin (c c' : Client) : Prop where
  same : ∃ mem, c' = { c with mem }
  inbox : Inbox Sound c

theorem exists_mem_of_forget {c c' : Client} (h : c'.forget = c.forget) :
    ∃ mem, c' = { c with mem } := by
  refine ⟨c'.mem, ?_⟩
  obtain ⟨⟩ := c
  obtain ⟨⟩ := c'
  simpa [Client.forget] using h

theorem dhcpRun_alike {c c' : Client} (h : Twin c c') (t : Turn) :
    Mealy.Alike Twin (c.step (.run t)) (c'.step (.run t)) := by
  obtain ⟨⟨mem', rfl⟩, hinbox⟩ := h
  obtain ⟨done, todo, hb, hsound⟩ := hinbox.waiting
  have hforget := dhcpRun_forget t mem' hb hinbox.lt fun d hd hport => by
    obtain ⟨fs, hfs⟩ := hsound d (List.mem_of_mem_head? hd) hport
    exact hfs.agrees c mem'
  simp only [Client.step]
  rcases dhcpRun_cases hinbox t with ⟨⟨ret, c₁⟩, hr, hi⟩ | ⟨hr, -⟩
  · rw [hr] at hforget ⊢
    cases hr' : dhcpRun t { c with mem := mem' } with
    | error f =>
      rw [hr'] at hforget
      cases hforget
    | ok r' =>
      obtain ⟨ret', c₁'⟩ := r'
      rw [hr'] at hforget
      obtain ⟨hret, hsame⟩ := Prod.mk.inj (Except.ok.inj hforget)
      obtain rfl : ret' = ret := hret
      exact .ok ⟨exists_mem_of_forget hsame, hi⟩
  · rw [hr] at hforget ⊢
    cases hr' : dhcpRun t { c with mem := mem' } with
    | error f =>
      rw [hr'] at hforget
      obtain rfl : f = .msgBounds := Except.error.inj hforget
      exact .error
    | ok r' =>
      rw [hr'] at hforget
      cases hforget

theorem step_alike {c c' : Client} {s : Step} (h : Twin c c') (hs : ∀ d, s = .arrive d → Sound d) :
    Mealy.Alike Twin (c.step s) (c'.step s) := by
  cases s with
  | arrive d =>
    obtain ⟨⟨mem', rfl⟩, hinbox⟩ := h
    refine .ok ⟨⟨mem', ?_⟩, hinbox.arrive (hs d rfl)⟩
    simp only [Client.arrive]
    split_ifs <;> rfl
  | second =>
    obtain ⟨⟨mem', rfl⟩, hinbox⟩ := h
    exact .ok ⟨⟨mem', rfl⟩, hinbox.of_eq rfl rfl⟩
  | run t => exact dhcpRun_alike h t

/-- What the buffer holds at the start makes no difference if the messages of the servers are well
formed. -/
theorem uninitialized_unread {c₀ : Client} {gone : List Datagram} {ss : List Step}
    {mem' : List UInt8} (h : Between c₀.socket gone []) (hss : ∀ d, .arrive d ∈ ss → Sound d) :
    ((dhcpInit { c₀ with mem := mem' }).steps ss).map (Prod.map id Client.forget) =
      ((dhcpInit c₀).steps ss).map (Prod.map id Client.forget) := by
  have hinit : Twin (dhcpInit c₀) (dhcpInit { c₀ with mem := mem' }) := by
    refine ⟨⟨mem', ?_⟩, Inbox.init h⟩
    simp only [dhcpInit]
    split_ifs <;> rfl
  have halike : Mealy.Alike Twin ((dhcpInit c₀).steps ss)
      ((dhcpInit { c₀ with mem := mem' }).steps ss) :=
    Mealy.run_alike (P := fun s => ∀ d, s = .arrive d → Sound d) step_alike
      (fun s hs d hd => hss d (by rwa [← hd])) hinit
  refine (halike.map_eq ?_).symm
  rintro c c' ⟨⟨mem, rfl⟩, -⟩
  rfl

theorem uninitialized_unread_served :
    ((dhcpInit { poweredOn with mem := [1, 2, 3] }).steps
      [.run ⟨false, 0, 0⟩, .arrive (plainReply dhcpOffer).datagram, .run ⟨true, 0, 0⟩]).map
        (Prod.map id Client.forget) =
      ((dhcpInit poweredOn).steps
        [.run ⟨false, 0, 0⟩, .arrive (plainReply dhcpOffer).datagram, .run ⟨true, 0, 0⟩]).map
        (Prod.map id Client.forget) := by
  have hsocket : Between poweredOn.socket [] [] := ⟨rfl, rfl, rfl⟩
  refine uninitialized_unread hsocket ?_
  intro d hd
  have heq : d = (plainReply dhcpOffer).datagram := by simpa using hd
  exact fun _ => ⟨_, heq ▸ (plainReply dhcpOffer).formed⟩

end Uninitialized

end NucleoW5500.Dhcp
