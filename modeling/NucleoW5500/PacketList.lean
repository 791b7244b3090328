import NucleoW5500.CloseWait
import NucleoW5500.Ring

/-! The list of received packets as the C code links it: a ring through the packets
and `packet_list`. Each operation is shown to be what the plain list of packets does. -/

namespace NucleoW5500

open CString Lockstep

/-- What `tcp_packet3_processor` does with a packet that it has taken off the list. -/
def processPacket (env : HeapEnv) (st : BigfileState) (p : Block TcpPacket3) : CM BigfileState := do
  printLine (receivedLine p.val)
  printTcpPacket3 p.val 40
  echoPlainPacket env p.val
  let st ← processPacketType env st p.val
  free p.addr
  pure st

namespace Linked

/-- The addresses of `struct list_head`s: the head, and the field of each packet. -/
inductive Ptr
  | packetList
  | packet (addr : Nat)
  | poison1
  | poison2
  deriving DecidableEq, Repr

def link (p : Block TcpPacket3) : Ptr := .packet p.addr

/-- The links in memory, and the packets they run through. -/
structure PacketList where
  links : Links Ptr
  packets : Nat → Option TcpPacket3

/-- `LIST_HEAD(packet_list)` -/
def PacketList.start : PacketList := ⟨.init ⟨id, id⟩ .packetList, fun _ => none⟩

def PacketList.first (q : PacketList) : Ptr := q.links.next .packetList

def listEntry (q : PacketList) : Ptr → CM (Block TcpPacket3)
  | .packet addr =>
    match q.packets addr with
    | none => CM.halt (.fault .freedBlock)
    | some p => pure ⟨addr, p⟩
  | _ => CM.halt (.fault .nullPointer)

def listAddTail (p : Block TcpPacket3) (q : PacketList) : PacketList where
  links := q.links.insertLast (link p) .packetList
  packets := Function.update q.packets p.addr (some p.val)

def listDel (entry : Ptr) (q : PacketList) : PacketList :=
  { q with links := q.links.remove entry .poison1 .poison2 }

def initListHead (q : PacketList) : PacketList := { q with links := q.links.init .packetList }

/-- `list_for_each(pos, &packet_list)`, from `pos` on. -/
def listForEach {σ : Type} (q : PacketList) (body : σ → Ptr → CM σ) : Nat → Ptr → σ → CM σ
  | 0, _, _ => CM.halt .blocked
  | fuel + 1, pos, s =>
    if pos = .packetList then pure s
    else do
      let s ← body s pos
      listForEach q body fuel (q.links.next pos) s

/-- The loop from the first entry. A list has no more packets than there were `malloc`s. -/
def forEachPacket {σ : Type} (q : PacketList) (body : σ → Ptr → CM σ) (s : σ) : CM σ := fun w =>
  listForEach q body (w.next + 1) q.first s w

def listCount (q : PacketList) : CM Nat := forEachPacket q (fun count _ => pure (count + 1)) 0

def dumpTcpPacket3List (q : PacketList) : CM Unit := do
  let count ← listCount q
  if count > 0 then
    forEachPacket q (fun _ p => do
      let entry ← listEntry q p
      printTcpPacket3 entry.val 8) ()
  else pure ()

/-- `if ( entry ) free(entry);` -/
def freeEntry : Option (Block TcpPacket3) → CM Unit
  | none => pure ()
  | some entry => free entry.addr

def freeTcpPacket3List (q : PacketList) : CM PacketList := do
  let entry ← forEachPacket q (fun entry p => do
    freeEntry entry
    let entry ← listEntry q p
    pure (some entry)) none
  freeEntry entry
  pure (initListHead q)

def getReceivedPacket (q : PacketList) : CM (Option (Block TcpPacket3) × PacketList) :=
  if q.first = .packetList then pure (none, q)
  else do
    let entry ← listEntry q q.first
    pure (some entry, listDel (link entry) q)

def tcpPacket3Processor (env : HeapEnv) (st : BigfileState) (phead : PacketList) :
    CM (PacketList × BigfileState) := do
  match ← getReceivedPacket phead with
  | (none, phead) => pure (phead, st)
  | (some p, phead) =>
    let st ← processPacket env st p
    pure (phead, st)

/-- The memory holds the packets `ps`, linked in this order. -/
structure Holds (q : PacketList) (ps : List (Block TcpPacket3)) : Prop where
  ring : q.links.Ring .packetList (ps.map link)
  packets : ∀ p ∈ ps, q.packets p.addr = some p.val

theorem Holds.start : Holds .start [] := ⟨.init _ _, by simp⟩

theorem listEntry_ok {q : PacketList} {p : Block TcpPacket3}
    (h : q.packets p.addr = some p.val) : listEntry q (link p) = pure p := by
  show listEntry q (.packet p.addr) = pure p
  rw [listEntry, h]

theorem Holds.listAddTail {q : PacketList} {ps : List (Block TcpPacket3)} (h : Holds q ps)
    {p : Block TcpPacket3} (hp : ∀ r ∈ ps, r.addr ≠ p.addr) : Holds (listAddTail p q) (ps ++ [p]) := by
  have hnew : link p ∉ Ptr.packetList :: ps.map link := by
    intro hmem
    rcases List.mem_cons.mp hmem with heq | hmem
    · cases heq
    · obtain ⟨r, hr, heq⟩ := List.mem_map.mp hmem
      exact hp r hr (Ptr.packet.inj heq)
  refine ⟨?_, fun r hr => ?_⟩
  · rw [List.map_append, List.map_singleton]
    exact h.ring.insertLast hnew
  · rcases List.mem_append.mp hr with hr | hr
    · exact (Function.update_of_ne (hp r hr) _ _).trans (h.packets r hr)
    · rw [List.mem_singleton.mp hr]
      exact Function.update_self _ _ _

theorem listForEach_path {σ : Type} {q : PacketList} {body : σ → Ptr → CM σ} {xs : List Ptr}
    {a : Ptr} (h : q.links.Path a xs .packetList) (hxs : Ptr.packetList ∉ xs) {fuel : Nat}
    (hfuel : xs.length < fuel) (s : σ) :
    listForEach q body fuel (q.links.next a) s = xs.foldlM body s := by
  induction xs generalizing a fuel s with
  | nil =>
    obtain ⟨n, rfl⟩ := Nat.exists_eq_succ_of_ne_zero (Nat.ne_zero_of_lt hfuel)
    rw [listForEach, if_pos h.1]
    rfl
  | cons x xs ih =>
    obtain ⟨n, rfl⟩ := Nat.exists_eq_succ_of_ne_zero (Nat.ne_zero_of_lt hfuel)
    obtain ⟨⟨hnext, -⟩, hpath⟩ := h
    have hx : x ≠ .packetList := fun heq => hxs (heq ▸ List.mem_cons_self)
    have hrest : Ptr.packetList ∉ xs := fun hmem => hxs (List.mem_cons_of_mem x hmem)
    rw [listForEach, hnext, if_neg hx, List.foldlM_cons]
    exact congrArg _ (funext fun s => ih hpath hrest (Nat.lt_of_succ_lt_succ hfuel) s)

theorem forEachPacket_holds {σ : Type} {q : PacketList} {ps : List (Block TcpPacket3)}
    (h : Holds q ps) {body : σ → Ptr → CM σ} (s : σ) {w : World} (hw : ps.length ≤ w.next) :
    forEachPacket q body s w = (ps.map link).foldlM body s w := by
  have hlen : (ps.map link).length < w.next + 1 := by
    rw [List.length_map]
    exact Nat.lt_succ_of_le hw
  rw [forEachPacket, PacketList.first,
    listForEach_path h.ring.path (List.nodup_cons.mp h.ring.nodup).1 hlen]

/-- Each entry is freed in the turn after its own, and the last one behind the loop. -/
theorem foldlM_free {q : PacketList} {ps : List (Block TcpPacket3)}
    (h : ∀ p ∈ ps, q.packets p.addr = some p.val) (entry : Option (Block TcpPacket3)) :
    ((ps.map link).foldlM (fun entry p => do
        freeEntry entry
        let entry ← listEntry q p
        pure (some entry)) entry >>= freeEntry) =
      (do freeEntry entry; NucleoW5500.freeTcpPacket3List ps) := by
  induction ps generalizing entry with
  | nil => exact (pure_bind entry freeEntry).trans (bind_pure (freeEntry entry)).symm
  | cons p ps ih =>
    rw [List.map_cons, List.foldlM_cons, bind_assoc, bind_assoc, listEntry_ok (h p List.mem_cons_self)]
    refine congrArg _ (funext fun _ => ?_)
    rw [pure_bind, pure_bind, ih (fun r hr => h r (List.mem_cons_of_mem p hr))]
    rfl

theorem freeTcpPacket3List_refines {q : PacketList} {ps : List (Block TcpPacket3)}
    (h : Holds q ps) {w : World} (hw : ps.length ≤ w.next) :
    freeTcpPacket3List q w =
      (do NucleoW5500.freeTcpPacket3List ps; pure (initListHead q)) w := by
  have hloop : freeTcpPacket3List q w = (((ps.map link).foldlM (fun entry p => do
      freeEntry entry
      let entry ← listEntry q p
      pure (some entry)) none >>= freeEntry) >>= fun _ => pure (initListHead q)) w := by
    rw [freeTcpPacket3List, bind_assoc, bind_apply, bind_apply, forEachPacket_holds h _ hw]
  rw [hloop, foldlM_free h.packets]
  rfl

end Linked

end NucleoW5500
