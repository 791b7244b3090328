import NucleoW5500.NodeHeap
import NucleoW5500.PacketList

/-! `free_tcp_packet3_list` on a heap from which the records go while their list is
walked. A record goes by the address of its field `list`, which `list_entry` turns into
that of the record. -/

namespace NucleoW5500.FreeList

open Linked NodeHeap Lockstep

/-- `packet_list` is part of no record. -/
def isStatic (p : Ptr) : Bool := p = .packetList

abbrev RecordHeap := NodeHeap Ptr isStatic

abbrev HM := NodeHeap.Program Ptr isStatic

def initListHead (phead : Ptr) : HM Unit := do
  setNext phead phead
  setPrev phead phead

def listAdd (new prev next : Ptr) : HM Unit := do
  setPrev next new
  setNext new next
  setPrev new prev
  setNext prev new

def listAddTail (new phead : Ptr) : HM Unit := do
  let last ← prev phead
  listAdd new last phead

def addPackets (phead : Ptr) : List Nat → HM Unit
  | [] => pure ()
  | addr :: addrs => do
    listAddTail (.packet addr) phead
    addPackets phead addrs

/-- `if ( entry ) free(entry);` -/
def freeEntry : Option Ptr → HM Unit
  | none => pure ()
  | some entry => NodeHeap.free entry

/-- The body of the loop: the entry of the last turn goes, the one of this turn waits. -/
def freePrevious (entry : Option Ptr) (p : Ptr) : HM (Option Ptr) := do
  freeEntry entry
  pure (some p)

def freeTcpPacket3List (phead : Ptr) (fuel : Nat) : HM Unit := do
  let p ← next phead
  let entry ← walk phead freePrevious fuel p none
  freeEntry entry
  initListHead phead

/-- The records at `xs` are allocated and linked in this order. -/
structure Listed (h : RecordHeap) (xs : List Ptr) : Prop where
  ring : h.links.Ring .packetList xs
  allocated : ∀ x ∈ xs, h.allocated x = true

/-- The loop has done `done` of the list of `h₀`: the last of it waits, the others are freed. -/
structure FreedBehind (h₀ : RecordHeap) (done : List Ptr) (entry : Option Ptr) (h : RecordHeap) :
    Prop where
  entry : entry = done.getLast?
  freed : Freed h₀ done.dropLast h

theorem packetList_there (h : RecordHeap) : h.there .packetList = true := there_of_static rfl

theorem initListHead_ok (h : RecordHeap) :
    initListHead .packetList h = .ok () { h with links := h.links.init .packetList } := by
  simp only [initListHead, bind_apply, setNext_ok (packetList_there _),
    setPrev_ok (packetList_there _)]
  rfl

theorem listAdd_ok {h : RecordHeap} {new prev next : Ptr} (hnew : h.there new = true)
    (hprev : h.there prev = true) (hnext : h.there next = true) :
    listAdd new prev next h = .ok () { h with links := h.links.insert new prev next } := by
  have hsame : ∀ (l : Links Ptr) (x : Ptr), NodeHeap.there { h with links := l } x = h.there x :=
    fun _ _ => rfl
  simp [listAdd, bind_apply, hsame, hnew, hprev, hnext, Links.insert]

theorem Listed.last_there {h : RecordHeap} {xs : List Ptr} (hl : Listed h xs) :
    h.there (h.links.prev .packetList) = true := by
  rcases List.eq_nil_or_concat xs with rfl | ⟨ys, z, rfl⟩
  · rw [hl.ring.path.2]
    exact packetList_there h
  · have hpath := hl.ring.path
    rw [List.concat_eq_append] at hpath
    have hlast : h.links.prev .packetList = z := (Links.path_append.mp hpath).2.2
    rw [hlast]
    exact there_of_allocated (hl.allocated z (by simp))

theorem Listed.listAddTail {h : RecordHeap} {xs : List Ptr} (hl : Listed h xs) {new : Ptr}
    (hnew : new ∉ Ptr.packetList :: xs) (ha : h.allocated new = true) :
    ∃ l, FreeList.listAddTail new .packetList h = .ok () { h with links := l } ∧
      Listed { h with links := l } (xs ++ [new]) := by
  refine ⟨h.links.insertLast new .packetList, ?_, hl.ring.insertLast hnew, fun x hx => ?_⟩
  · rw [FreeList.listAddTail, bind_ok (prev_ok (packetList_there h))]
    exact listAdd_ok (there_of_allocated ha) hl.last_there (packetList_there h)
  · rcases List.mem_append.mp hx with hx | hx
    · exact hl.allocated x hx
    · rw [List.mem_singleton.mp hx]
      exact ha

theorem Listed.addPackets {addrs : List Nat} {h : RecordHeap} {xs : List Ptr} (hl : Listed h xs)
    (hnodup : (xs ++ addrs.map Ptr.packet).Nodup)
    (ha : ∀ addr ∈ addrs, h.allocated (.packet addr) = true) :
    ∃ l, addPackets .packetList addrs h = .ok () { h with links := l } ∧
      Listed { h with links := l } (xs ++ addrs.map Ptr.packet) := by
  induction addrs generalizing h xs with
  | nil => exact ⟨h.links, rfl, by simpa using hl⟩
  | cons addr addrs ih =>
    have hxs : xs ++ (addr :: addrs).map Ptr.packet = xs ++ [.packet addr] ++ addrs.map .packet := by
      simp
    have hnew : Ptr.packet addr ∉ Ptr.packetList :: xs := by
      intro hmem
      rcases List.mem_cons.mp hmem with heq | hmem
      · cases heq
      · exact List.disjoint_of_nodup_append hnodup hmem (by simp)
    obtain ⟨l, hok, hl'⟩ := hl.listAddTail hnew (ha addr List.mem_cons_self)
    rw [hxs] at hnodup ⊢
    obtain ⟨l', hok', hl''⟩ := ih hl' hnodup fun a ha' => ha a (List.mem_cons_of_mem addr ha')
    refine ⟨l', ?_, hl''⟩
    rw [FreeList.addPackets, bind_ok hok, hok']

section Frees

variable {h₀ h : RecordHeap} {xs done rest : List Ptr} {entry : Option Ptr} {x : Ptr}

theorem FreedBehind.freeEntry (hb : FreedBehind h₀ done entry h) (hnodup : done.Nodup)
    (ha : ∀ y ∈ done, h₀.allocated y = true) :
    ∃ h', FreeList.freeEntry entry h = .ok () h' ∧ Freed h₀ done h' := by
  obtain ⟨rfl, hf⟩ := hb
  rcases List.eq_nil_or_concat done with rfl | ⟨ys, y, rfl⟩
  · exact ⟨h, rfl, hf⟩
  · rw [List.concat_eq_append] at hf hnodup ha ⊢
    have hy : y ∉ ys := fun hmem => List.disjoint_of_nodup_append hnodup hmem List.mem_cons_self
    rw [List.dropLast_concat] at hf
    rw [List.getLast?_concat]
    exact hf.free hy (ha y (by simp))

/-- One turn. Everything in front of the cursor is freed, and the cursor's record is not. -/
theorem FreedBehind.step (hl : Listed h₀ xs) (hxs : xs = done ++ x :: rest)
    (hb : FreedBehind h₀ done entry h) :
    ∃ entry' h', freePrevious entry x h = .ok entry' h' ∧
      FreedBehind h₀ (done ++ [x]) entry' h' ∧ h'.there x = true := by
  have hnodup := (List.nodup_cons.mp hl.ring.nodup).2
  have ha := hl.allocated
  rw [hxs] at hnodup ha
  have hx : x ∉ done := fun hmem => List.disjoint_of_nodup_append hnodup hmem List.mem_cons_self
  obtain ⟨h', hok, hf⟩ := hb.freeEntry (List.Nodup.of_append_left hnodup)
    fun y hy => ha y (List.mem_append_left _ hy)
  refine ⟨some x, h', ?_, ⟨?_, ?_⟩, ?_⟩
  · rw [freePrevious, bind_ok hok]
    rfl
  · rw [List.getLast?_concat]
  · rw [List.dropLast_concat]
    exact hf
  · rw [hf.there hx]
    exact there_of_allocated (ha x (by simp))

theorem Listed.freeTcpPacket3List (hl : Listed h xs) {fuel : Nat} (hfuel : xs.length < fuel) :
    ∃ h', FreeList.freeTcpPacket3List .packetList fuel h = .ok () h' ∧
      h'.links = h.links.init .packetList ∧ h'.freed = xs.reverse ++ h.freed ∧
      ∀ y, h'.allocated y = (h.allocated y && decide (y ∉ xs)) := by
  obtain ⟨hhead, hnodup⟩ := List.nodup_cons.mp hl.ring.nodup
  have hstart : FreedBehind h [] none h := ⟨rfl, .refl h⟩
  obtain ⟨entry, h₁, hwalk, hb⟩ := @walk_rule Ptr (Option Ptr) isStatic _ .packetList freePrevious
    h.links xs (FreedBehind h) (fun _ _ _ hb => hb.freed.links)
    (fun _ _ _ _ _ hxs hb => hb.step hl hxs) [] xs .packetList none h fuel rfl hl.ring.path hhead
    hfuel hstart
  obtain ⟨h₂, hlast, hf⟩ := hb.freeEntry hnodup hl.allocated
  refine ⟨{ h₂ with links := h₂.links.init .packetList }, ?_, ?_, hf.freed, hf.allocated⟩
  · rw [FreeList.freeTcpPacket3List, bind_ok (next_ok (packetList_there h)), bind_ok hwalk,
      bind_ok hlast, initListHead_ok]
  · rw [hf.links]

end Frees

theorem Listed.init (h : RecordHeap) :
    Listed { h with links := h.links.init .packetList } [] :=
  ⟨.init h.links .packetList, by simp⟩

theorem freeTcpPacket3List_list (ps : List (Block TcpPacket3)) (w : World) :
    NucleoW5500.freeTcpPacket3List ps w =
      .ok () { w with frees := (ps.map Block.addr).reverse ++ w.frees } := by
  induction ps generalizing w with
  | nil => rfl
  | cons p ps ih =>
    rw [NucleoW5500.freeTcpPacket3List, CM.bind_ok (free_ok p.addr w), ih]
    simp

/-- The client's list, whose records stay readable, and the list on this heap lose the
same records, in the same order. -/
theorem freeTcpPacket3List_same {q : PacketList} {ps : List (Block TcpPacket3)} {h : RecordHeap}
    (hq : Holds q ps) (hlinks : h.links = q.links)
    (ha : ∀ p ∈ ps, h.allocated (link p) = true) {w : World} (hw : ps.length ≤ w.next) :
    ∃ h' w', FreeList.freeTcpPacket3List .packetList (w.next + 1) h = .ok () h' ∧
      Linked.freeTcpPacket3List q w = .ok (Linked.initListHead q) w' ∧
      h'.links = (Linked.initListHead q).links ∧
      ∃ addrs, w'.frees = addrs ++ w.frees ∧ h'.freed = addrs.map .packet ++ h.freed := by
  have hl : Listed h (ps.map link) :=
    ⟨hlinks ▸ hq.ring, List.forall_mem_map.mpr ha⟩
  obtain ⟨h', hok, hlinks', hfreed, -⟩ :=
    hl.freeTcpPacket3List (by rw [List.length_map]; exact Nat.lt_succ_of_le hw)
  refine ⟨h', { w with frees := (ps.map Block.addr).reverse ++ w.frees }, hok, ?_, ?_,
    (ps.map Block.addr).reverse, rfl, ?_⟩
  · rw [freeTcpPacket3List_refines hq hw, CM.bind_ok (freeTcpPacket3List_list ps w)]
    rfl
  · rw [hlinks', hlinks]
    rfl
  · rw [hfreed, List.map_reverse, List.map_map]
    rfl

/-- The list of the packets at `addrs`, built up on an empty head and then freed: no
record is read once it is gone, each goes once, and the head is an empty list again. -/
theorem freeTcpPacket3List_each_once (h : RecordHeap) {addrs : List Nat} (hnodup : addrs.Nodup)
    (ha : ∀ addr ∈ addrs, h.allocated (.packet addr) = true) :
    ∃ h₁, (do initListHead .packetList; addPackets .packetList addrs) h = .ok () h₁ ∧
      h₁.links.Ring .packetList (addrs.map .packet) ∧
      ∀ fuel, addrs.length < fuel →
        ∃ h₂, FreeList.freeTcpPacket3List .packetList fuel h₁ = .ok () h₂ ∧
          h₂.freed = (addrs.map .packet).reverse ++ h.freed ∧
          (∀ p, h₂.allocated p = (h.allocated p && decide (p ∉ addrs.map .packet))) ∧
          h₂.links.Ring .packetList [] := by
  have hnd : (addrs.map Ptr.packet).Nodup :=
    hnodup.map fun _ _ heq => Ptr.packet.inj heq
  obtain ⟨l, hok, hl⟩ := (Listed.init h).addPackets (by simpa using hnd) ha
  rw [List.nil_append] at hl
  refine ⟨{ h with links := l }, ?_, hl.ring, fun fuel hfuel => ?_⟩
  · rw [bind_ok (initListHead_ok h), hok]
  · obtain ⟨h₂, hfree, hlinks, hfreed, hall⟩ :=
      hl.freeTcpPacket3List (by rw [List.length_map]; exact hfuel)
    refine ⟨h₂, hfree, hfreed, hall, ?_⟩
    rw [hlinks]
    exact .init l .packetList

theorem freeTcpPacket3List_each_once_two :
    let h : RecordHeap := ⟨⟨id, id⟩, fun p => p = .packet 3 ∨ p = .packet 7, []⟩
    ∃ h₁ h₂, (do initListHead .packetList; addPackets .packetList [7, 3]) h = .ok () h₁ ∧
      FreeList.freeTcpPacket3List .packetList 3 h₁ = .ok () h₂ ∧
      h₂.freed = [.packet 3, .packet 7] ∧ h₂.links.Ring .packetList [] := by
  intro h
  obtain ⟨h₁, hbuild, -, hfree⟩ :=
    @freeTcpPacket3List_each_once h [7, 3] (by decide) (by decide)
  obtain ⟨h₂, hok, hfreed, -, hring⟩ := hfree 3 (by decide)
  exact ⟨h₁, h₂, hbuild, hok, hfreed, hring⟩

end NucleoW5500.FreeList
