import NucleoW5500.ClientSteps
import NucleoW5500.Frames

/-! The event loop up to the turn that finds the peer gone. What has been read of the
stream has been processed by then, and that turn reads no more. -/

namespace NucleoW5500

open CString Lockstep

def Unread (w w' : World) : Prop := w'.incoming = w.incoming ∧ w.next ≤ w'.next

instance : SendFrame Unread where
  refl _ := ⟨rfl, le_rfl⟩
  trans _ _ _ h h' := ⟨h'.1.trans h.1, h.2.trans h'.2⟩
  next w := ⟨rfl, Nat.le_succ w.next⟩
  frees _ _ := ⟨rfl, le_rfl⟩
  console _ _ := ⟨rfl, le_rfl⟩
  lines _ _ := ⟨rfl, le_rfl⟩
  send _ _ _ := ⟨rfl, le_rfl⟩

theorem Serving.unread {env : HeapEnv} {lo : Nat} {c c' : Client} {w w' : World} {s : List UInt8}
    {ps : List WirePacket} (h : Serving env lo c w s ps) (hc : c'.receiver = c.receiver)
    (hw : Unread w w') : Serving env lo c' w' s ps := by
  obtain ⟨ph, htr, hst⟩ := h
  refine ⟨ph, hc ▸ htr, ?_⟩
  rw [hw.1]
  exact hst.mono hw.2

end NucleoW5500
