import NucleoW5500.DhcpReplies

/-! The DHCP client over whole runs: what a call of `DHCP_run` can do, how long it takes to give
up, and which addresses it comes to use. -/

namespace NucleoW5500.Dhcp

open CString Ticks

section Transitions

/-- What parsing leaves behind: nothing new, or the parameters of a message and a note of it. -/
inductive Heard (c : Client) : UInt8 → Client → Prop
  | silent (socket : Udp.Socket) (mem : List UInt8) : Heard c 0 { c with socket, mem }
  | message (socket : Udp.Socket) (mem : List UInt8) (params : Params) (type : UInt8) :
    Heard c type ({ c with socket, mem, params }.note (.received type (peekIp mem 16)))

theorem parseDhcpMsg_heard {t : Turn} {c c' : Client} {type : UInt8}
    (h : parseDhcpMsg t c = .ok (type, c')) : Heard c type c' := by
  rw [parseDhcpMsg] at h
  dsimp only at h
  split_ifs at h
  · obtain ⟨rfl, rfl⟩ := Prod.mk.inj (Except.ok.inj h)
    exact .silent c.socket c.mem
  · obtain ⟨rfl, rfl⟩ := Prod.mk.inj (Except.ok.inj h)
    exact .silent _ _
  · obtain ⟨rfl, rfl⟩ := Prod.mk.inj (Except.ok.inj h)
    exact .silent _ _
  · obtain ⟨rfl, rfl⟩ := Prod.mk.inj (Except.ok.inj h)
    exact .message _ _ _ _

/-- The transitions of the client. -/
inductive Moves (t : Turn) (type : UInt8) (c : Client) : DhcpRun → Client → Prop
  | starts : c.state = .init →
    Moves t type c .running { sendDhcpDiscover { c with ip := .zero } with state := .discover }
  | requests : c.state = .discover → type = dhcpOffer →
    Moves t type c .running
      { sendDhcpRequest { c with ip := peekIp c.mem 16 } with state := .request }
  | waits : c.state = .discover ∨ c.state = .request ∨ c.state = .rerequest →
    Moves t type c .running c
  | repeats : c.state = .discover → c.retryCount < maxDhcpRetry → c.tickNext < c.tick1s →
    Moves t type c .running
      { sendDhcpDiscover c with
        tick1s := 0, tickNext := 0 + dhcpWaitTime, retryCount := c.retryCount + 1 }
  | asksAgain : c.state = .request ∨ c.state = .rerequest → c.retryCount < maxDhcpRetry →
    c.tickNext < c.tick1s →
    Moves t type c .running
      { sendDhcpRequest c with
        tick1s := 0, tickNext := 0 + dhcpWaitTime, retryCount := c.retryCount + 1 }
  | fails : c.state = .discover → ¬ c.retryCount < maxDhcpRetry →
    Moves t type c .failed (resetDhcpTimeout { c with state := .init })
  | startsOver : c.state = .request ∨ c.state = .rerequest →
    Moves t type c .running (resetDhcpTimeout { sendDhcpDiscover c with state := .discover })
  | binds : c.state = .request → type = dhcpAck → probeRet t c.ip = sockerrTimeout →
    Moves t type c .running
      { resetDhcpTimeout (defaultIpAssign (c.note (.probed c.ip sockerrTimeout))) with
        state := .leased }
  | conflicts : c.state = .request → type = dhcpAck → probeRet t c.ip ≠ sockerrTimeout →
    Moves t type c .running
      { defaultIpConflict (resetDhcpTimeout
        { sendDhcpDecline (c.note (.probed c.ip (probeRet t c.ip))) with
          tick1s := c.tick1s + 2 }) with
        state := .init }
  | refused : c.state = .request → type = dhcpNak →
    Moves t type c .running (resetDhcpTimeout { c with state := .discover })
  | loses : c.state = .rerequest → type = dhcpNak →
    Moves t type c .ipLeased (resetDhcpTimeout { c with state := .discover })
  | holds : c.state = .leased → Moves t type c .ipLeased c
  | renews : c.state = .leased → c.params.leaseTime / 2 < c.tick1s →
    Moves t type c .ipLeased
      { resetDhcpTimeout (sendDhcpRequest { c with oldIp := c.ip, xid := c.xid + 1 }) with
        state := .rerequest }
  | renewed : c.state = .rerequest → type = dhcpAck → c.oldIp = c.ip →
    Moves t type c .ipLeased { resetDhcpTimeout { c with retryCount := 0 } with state := .leased }
  | changed : c.state = .rerequest → type = dhcpAck → c.oldIp ≠ c.ip →
    Moves t type c .ipChanged
      { resetDhcpTimeout (defaultIpUpdate { c with retryCount := 0 }) with state := .leased }

theorem checkDhcpTimeout_moves (t : Turn) (type : UInt8) {c : Client}
    (h : c.state = .discover ∨ c.state = .request ∨ c.state = .rerequest) :
    Moves t type c (checkDhcpTimeout c).1 (checkDhcpTimeout c).2 := by
  rw [checkDhcpTimeout]
  by_cases hretry : c.retryCount < maxDhcpRetry
  · rw [if_pos hretry]
    by_cases htick : c.tickNext < c.tick1s
    · rw [if_pos htick]
      rcases h with h | h | h
      · rw [h]
        exact .repeats h hretry htick
      · rw [h]
        exact .asksAgain (.inl h) hretry htick
      · rw [h]
        exact .asksAgain (.inr h) hretry htick
    · rw [if_neg htick]
      exact .waits h
  · rw [if_neg hretry]
    rcases h with h | h | h
    · rw [h]
      exact .fails h hretry
    · rw [h]
      exact .startsOver (.inl h)
    · rw [h]
      exact .startsOver (.inr h)

theorem respond_moves (t : Turn) (type : UInt8) {c : Client} (hstop : c.state ≠ .stop) :
    Moves t type c (respond t type c).1 (respond t type c).2 := by
  cases hs : c.state with
  | init =>
    rw [respond, hs]
    exact .starts hs
  | discover =>
    by_cases hoffer : type = dhcpOffer
    · have hr : respond t type c = (.running,
          { sendDhcpRequest { c with ip := peekIp c.mem 16 } with state := .request }) := by
        simp only [respond, hs, if_pos hoffer]
      rw [hr]
      exact .requests hs hoffer
    · rw [respond, hs]
      dsimp only
      rw [if_neg hoffer]
      exact checkDhcpTimeout_moves t type (.inl hs)
  | request =>
    rw [respond, hs]
    dsimp only
    by_cases hack : type = dhcpAck
    · rw [if_pos hack]
      by_cases hprobe : probeRet t c.ip = sockerrTimeout
      · rw [checkDhcpLeasedIp_unique hprobe]
        exact .binds hs hack hprobe
      · rw [checkDhcpLeasedIp_conflict hprobe]
        exact .conflicts hs hack hprobe
    rw [if_neg hack]
    by_cases hnak : type = dhcpNak
    · rw [if_pos hnak]
      exact .refused hs hnak
    · rw [if_neg hnak]
      exact checkDhcpTimeout_moves t type (.inr (.inl hs))
  | leased =>
    by_cases hrenew : c.params.leaseTime ≠ infiniteLeasetime ∧ c.params.leaseTime / 2 < c.tick1s
    · have hr : respond t type c = (.ipLeased,
          { resetDhcpTimeout (sendDhcpRequest { c with oldIp := c.ip, xid := c.xid + 1 }) with
            state := .rerequest }) := by
        simp only [respond, hs, if_pos hrenew]
      rw [hr]
      exact .renews hs hrenew.2
    · rw [respond, hs]
      dsimp only
      rw [if_neg hrenew]
      exact .holds hs
  | rerequest =>
    rw [respond, hs]
    dsimp only
    by_cases hack : type = dhcpAck
    · rw [if_pos hack]
      by_cases hip : c.oldIp = c.ip
      · rw [if_neg (not_not.mpr hip)]
        exact .renewed hs hack hip
      · rw [if_pos hip]
        exact .changed hs hack hip
    rw [if_neg hack]
    by_cases hnak : type = dhcpNak
    · rw [if_pos hnak]
      exact .loses hs hnak
    · rw [if_neg hnak]
      exact checkDhcpTimeout_moves t type (.inr (.inr hs))
  | stop => exact absurd hs hstop

/-- What a step does to a client, apart from its socket and its buffer. -/
inductive Did (c : Client) : Step → List DhcpRun → Client → Prop
  | arrive (d : Udp.Datagram) (socket : Udp.Socket) : Did c (.arrive d) [] { c with socket }
  | second : Did c .second [] (dhcpTimeHandler c)
  | stopped (t : Turn) : c.state = .stop → Did c (.run t) [.stopped] c
  | run {t : Turn} {type : UInt8} {c₁ c₂ : Client} {ret : DhcpRun} : Heard c type c₁ →
    Moves t type c₁ ret c₂ → Did c (.run t) [ret] c₂

theorem Heard.state {c c₁ : Client} {type : UInt8} (h : Heard c type c₁) : c₁.state = c.state := by
  cases h <;> rfl

theorem step_did {c c' : Client} {s : Step} {rets : List DhcpRun}
    (h : c.step s = .ok (rets, c')) : Did c s rets c' := by
  cases s with
  | arrive d =>
    obtain ⟨rfl, rfl⟩ := Prod.mk.inj (Except.ok.inj h)
    rw [Client.arrive]
    split_ifs
    · exact .arrive d _
    · exact .arrive d c.socket
  | second =>
    obtain ⟨rfl, rfl⟩ := Prod.mk.inj (Except.ok.inj h)
    exact .second
  | run t =>
    rw [Client.step] at h
    by_cases hstop : c.state = .stop
    · rw [dhcpRun_stop hstop] at h
      obtain ⟨rfl, rfl⟩ := Prod.mk.inj (Except.ok.inj h)
      exact .stopped t hstop
    · have hheard : ∀ {type c₁}, parseDhcpMsg t (if t.udp then c else
          { c with socket := c.socket.reopen }) = .ok (type, c₁) → Heard c type c₁ := by
        intro type c₁ hp
        split_ifs at hp
        · exact parseDhcpMsg_heard hp
        · cases parseDhcpMsg_heard hp with
          | silent socket mem => exact .silent socket mem
          | message socket mem params type => exact .message socket mem params type
      rw [dhcpRun, if_neg hstop] at h
      dsimp only at h
      cases hp : parseDhcpMsg t (if t.udp then c else { c with socket := c.socket.reopen }) with
      | error f =>
        rw [hp] at h
        cases h
      | ok r =>
        obtain ⟨type, c₁⟩ := r
        rw [hp] at h
        obtain ⟨rfl, rfl⟩ := Prod.mk.inj (Except.ok.inj h)
        have hstop₁ : c₁.state ≠ .stop := by rwa [(hheard hp).state]
        exact .run (hheard hp) (respond_moves t type hstop₁)

end Transitions

section Patience

def Message.type (msg : Message) : Option UInt8 :=
  (msg.options.find? fun f => f.kind = dhcpMessageType).map fun f => peek f.value 0

def isDiscover : Io → Bool
  | .sent _ m => (readMessage m).bind Message.type = some dhcpDiscover
  | _ => false

def discovers (log : List Io) : Nat := log.countP isDiscover

def seconds (ss : List Step) : Nat := ss.count .second

theorem seconds_append (ss : List Step) (s : Step) :
    seconds (ss ++ [s]) = seconds ss + if s = .second then 1 else 0 := by
  rw [seconds, List.count_append, List.count_singleton, seconds]
  simp

theorem failures_append (rets : List DhcpRun) (ret : DhcpRun) :
    (rets ++ [ret]).count .failed = rets.count .failed + if ret = .failed then 1 else 0 := by
  rw [List.count_append, List.count_singleton]
  simp

theorem discovers_append (log : List Io) (e : Io) :
    discovers (log ++ [e]) = discovers log + if isDiscover e then 1 else 0 := by
  rw [discovers, List.countP_append, List.countP_singleton, discovers]

theorem isDiscover_discover (ip : Ip) (c : Client) :
    isDiscover (.sent ip (discoverMsg c)) = true := by
  simp only [isDiscover, readMessage_discover]
  rfl

/-- Each failure takes six seconds and two messages, and what has been waited for since the last
counts for the next. Before the first, `n` messages had been sent. -/
structure Patience (n : Nat) (ss : List Step) (rets : List DhcpRun) (c : Client) : Prop where
  next : c.tickNext = dhcpWaitTime
  low : 0 ≤ c.retryCount
  high : c.retryCount ≤ maxDhcpRetry
  waited : 6 * rets.count .failed + 3 * c.retryCount.toNat + c.tick1s.toNat ≤ seconds ss
  asked : n + 2 * rets.count .failed +
    (if c.state = .init ∨ c.state = .discover then c.retryCount.toNat else 0) ≤ discovers c.log

variable {n : Nat} {ss : List Step} {rets : List DhcpRun} {c c' : Client} {t : Turn} {type : UInt8}
  {ret : DhcpRun}

theorem Patience.heard (h : Patience n ss rets c) (hc : Heard c type c') :
    Patience n ss rets c' := by
  cases hc with
  | silent socket mem => exact ⟨h.next, h.low, h.high, h.waited, h.asked⟩
  | message socket mem params type =>
    refine ⟨h.next, h.low, h.high, h.waited, h.asked.trans ?_⟩
    simp only [Client.note, discovers_append]
    omega

/-- The counters go on. -/
theorem Patience.stays (h : Patience n ss rets c) (hret : ret ≠ .failed)
    (hnext : c'.tickNext = c.tickNext) (hretry : c'.retryCount = c.retryCount)
    (htick : c'.tick1s = c.tick1s) (hlog : discovers c.log ≤ discovers c'.log)
    (hstate : c'.state = .init ∨ c'.state = .discover → c.state = .init ∨ c.state = .discover) :
    Patience n (ss ++ [.run t]) (rets ++ [ret]) c' := by
  have hs := h.waited
  have hd := h.asked
  refine ⟨hnext.trans h.next, hretry ▸ h.low, hretry ▸ h.high, ?_, ?_⟩
  · rw [failures_append, if_neg hret, seconds_append, hretry, htick]
    simpa using hs
  · rw [failures_append, if_neg hret, hretry]
    by_cases hc' : c'.state = .init ∨ c'.state = .discover
    · rw [if_pos hc']
      rw [if_pos (hstate hc')] at hd
      omega
    · rw [if_neg hc']
      omega

/-- `reset_DHCP_timeout` -/
theorem Patience.restarts (h : Patience n ss rets c) (hret : ret ≠ .failed)
    (hnext : c'.tickNext = dhcpWaitTime) (hretry : c'.retryCount = 0) (htick : c'.tick1s = 0)
    (hlog : discovers c.log ≤ discovers c'.log) :
    Patience n (ss ++ [.run t]) (rets ++ [ret]) c' := by
  have hs := h.waited
  have hd := h.asked
  refine ⟨hnext, hretry ▸ le_rfl, by rw [hretry]; decide, ?_, ?_⟩
  · rw [failures_append, if_neg hret, seconds_append, hretry, htick]
    have h0 : (0 : UInt32).toNat = 0 := rfl
    simp only [reduceCtorEq, if_false]
    omega
  · rw [failures_append, if_neg hret, hretry]
    simp only [Int.toNat_zero, ite_self]
    omega

/-- A message is sent once more. -/
theorem Patience.repeats (h : Patience n ss rets c) (hretry : c.retryCount < maxDhcpRetry)
    (htick : c.tickNext < c.tick1s) (hret : ret ≠ .failed)
    (hnext' : c'.tickNext = dhcpWaitTime) (hretry' : c'.retryCount = c.retryCount + 1)
    (htick' : c'.tick1s = 0) (hlog : discovers c.log ≤ discovers c'.log)
    (hstate : c'.state = .init ∨ c'.state = .discover →
      (c.state = .init ∨ c.state = .discover) ∧ discovers c'.log = discovers c.log + 1) :
    Patience n (ss ++ [.run t]) (rets ++ [ret]) c' := by
  have hs := h.waited
  have hd := h.asked
  have hlow := h.low
  rw [h.next, UInt32.lt_iff_toNat_lt] at htick
  have h2 : dhcpWaitTime.toNat = 2 := rfl
  have hmax : maxDhcpRetry = 2 := rfl
  refine ⟨hnext', by omega, by omega, ?_, ?_⟩
  · rw [failures_append, if_neg hret, seconds_append, hretry', htick']
    have h0 : (0 : UInt32).toNat = 0 := rfl
    simp only [reduceCtorEq, if_false]
    omega
  · rw [failures_append, if_neg hret, hretry']
    by_cases hc' : c'.state = .init ∨ c'.state = .discover
    · rw [if_pos hc', (hstate hc').2]
      rw [if_pos (hstate hc').1] at hd
      omega
    · rw [if_neg hc']
      omega

theorem Patience.fails (h : Patience n ss rets c) (hs : c.state = .discover)
    (hretry : ¬ c.retryCount < maxDhcpRetry) : Patience n (ss ++ [.run t]) (rets ++ [.failed])
      (resetDhcpTimeout { c with state := .init }) := by
  have hsec := h.waited
  have hd := h.asked
  have hhigh := h.high
  have hmax : maxDhcpRetry = 2 := rfl
  have h0 : (0 : UInt32).toNat = 0 := rfl
  rw [if_pos (.inr hs)] at hd
  refine ⟨rfl, le_rfl, show (0 : Int) ≤ maxDhcpRetry by decide, ?_, ?_⟩
  · rw [failures_append, if_pos rfl, seconds_append]
    simp only [resetDhcpTimeout, reduceCtorEq, if_false, h0]
    omega
  · rw [failures_append, if_pos rfl]
    simp only [resetDhcpTimeout, true_or, if_true]
    omega

theorem Patience.moves (h : Patience n ss rets c) (hm : Moves t type c ret c') :
    Patience n (ss ++ [.run t]) (rets ++ [ret]) c' := by
  have hsent (c : Client) (ip : Ip) (msg : List UInt8) :
      discovers c.log ≤ discovers (sendMsg c ip msg).log := by
    simp only [sendMsg, Client.note, discovers_append]
    omega
  cases hm with
  | starts hs => exact h.stays (by decide) rfl rfl rfl (hsent _ _ _) fun _ => .inl hs
  | requests hs _ =>
    exact h.stays (by decide) rfl rfl rfl (hsent _ _ _) (by rintro (h | h) <;> cases h)
  | waits => exact h.stays (by decide) rfl rfl rfl le_rfl id
  | repeats hs hretry htick =>
    refine h.repeats hretry htick (by decide) rfl rfl rfl (hsent _ _ _) fun _ => ⟨.inr hs, ?_⟩
    simp only [sendDhcpDiscover, sendMsg, Client.note, discovers_append, isDiscover_discover,
      if_true]
  | asksAgain hs hretry htick =>
    refine h.repeats hretry htick (by decide) rfl rfl rfl (hsent _ _ _) fun hs' => ?_
    have hs' : c.state = .init ∨ c.state = .discover := hs'
    rcases hs with hs | hs <;> rw [hs] at hs' <;> rcases hs' with hs' | hs' <;> cases hs'
  | fails hs hretry => exact h.fails hs hretry
  | startsOver => exact h.restarts (by decide) rfl rfl rfl (hsent _ _ _)
  | binds =>
    refine h.restarts (by decide) rfl rfl rfl ?_
    simp only [resetDhcpTimeout, defaultIpAssign, Client.note, discovers_append]
    omega
  | conflicts =>
    refine h.restarts (by decide) rfl rfl rfl ?_
    simp only [defaultIpConflict, setShar, softwareReset, resetDhcpTimeout, sendDhcpDecline,
      sendMsg, Client.note, discovers_append]
    omega
  | refused => exact h.restarts (by decide) rfl rfl rfl le_rfl
  | loses => exact h.restarts (by decide) rfl rfl rfl le_rfl
  | holds => exact h.stays (by decide) rfl rfl rfl le_rfl id
  | renews => exact h.restarts (by decide) rfl rfl rfl (hsent _ _ _)
  | renewed => exact h.restarts (by decide) rfl rfl rfl le_rfl
  | changed =>
    refine h.restarts (by decide) rfl rfl rfl ?_
    simp only [defaultIpUpdate, setShar, defaultIpAssign, softwareReset, resetDhcpTimeout,
      Client.note, discovers_append]
    omega

theorem Patience.did {s : Step} {rets' : List DhcpRun} (h : Patience n ss rets c)
    (hd : Did c s rets' c') : Patience n (ss ++ [s]) (rets ++ rets') c' := by
  cases hd with
  | arrive d socket =>
    refine ⟨h.next, h.low, h.high, ?_, ?_⟩
    · rw [List.append_nil, seconds_append, if_neg (by simp)]
      exact h.waited
    · rw [List.append_nil]
      exact h.asked
  | second =>
    have hs := h.waited
    refine ⟨h.next, h.low, h.high, ?_, ?_⟩
    · rw [List.append_nil, seconds_append, if_pos rfl]
      have htick : (c.tick1s + 1).toNat ≤ c.tick1s.toNat + 1 := by
        rw [UInt32.toNat_add]
        exact Nat.mod_le _ _
      simp only [dhcpTimeHandler]
      omega
    · rw [List.append_nil]
      exact h.asked
  | stopped t hs => exact h.stays (by decide) rfl rfl rfl le_rfl id
  | run hheard hmoves => exact (h.heard hheard).moves hmoves

theorem Patience.init (c : Client) : Patience (discovers c.log) [] [] (dhcpInit c) := by
  rw [dhcpInit]
  split_ifs
  all_goals
    exact ⟨rfl, le_rfl, show (0 : Int) ≤ maxDhcpRetry by decide, le_rfl,
      by simp [resetDhcpTimeout, setShar]⟩

/-- `DHCP_FAILED` is no hasty answer: a client that has given up `k` times has waited for six
seconds and sent two DISCOVERs each time. -/
theorem failures_late {c₀ c : Client} {ss : List Step} {rets : List DhcpRun}
    (h : (dhcpInit c₀).steps ss = .ok (rets, c)) :
    6 * rets.count .failed ≤ ss.count .second ∧
      discovers c₀.log + 2 * rets.count .failed ≤ discovers c.log := by
  have hp : Patience (discovers c₀.log) ss rets c :=
    Mealy.run_invariant (I := Patience (discovers c₀.log)) (fun h hs => h.did (step_did hs))
      (Patience.init c₀) h
  have hs := hp.waited
  have hd := hp.asked
  rw [seconds] at hs
  exact ⟨by omega, by omega⟩

theorem exists_of_map {α β ε : Type} {f : α → β} {x : Except ε α} {b : β} (h : x.map f = .ok b) :
    ∃ a, x = .ok a ∧ f a = b := by
  cases x with
  | error e => cases h
  | ok a => exact ⟨a, rfl, Except.ok.inj h⟩

/-- A run in which no server answers. -/
def unanswered : List Step :=
  [.run ⟨false, 0, 0⟩, .second, .second, .second, .run ⟨true, 0, 0⟩, .second, .second, .second,
    .run ⟨true, 0, 0⟩, .run ⟨true, 0, 0⟩]

theorem failures_late_one : ∃ rets c, (dhcpInit poweredOn).steps unanswered = .ok (rets, c) ∧
    rets = [.running, .running, .running, .failed] ∧
      6 * rets.count .failed ≤ unanswered.count .second ∧
      discovers poweredOn.log + 2 * rets.count .failed ≤ discovers c.log := by
  have hrets : ((dhcpInit poweredOn).steps unanswered).map Prod.fst =
      .ok [.running, .running, .running, .failed] := by decide +kernel
  obtain ⟨⟨rets, c⟩, hc, rfl⟩ := exists_of_map hrets
  exact ⟨_, c, hc, rfl, failures_late hc⟩

end Patience

end NucleoW5500.Dhcp
