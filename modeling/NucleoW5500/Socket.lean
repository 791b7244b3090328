import NucleoW5500.Machine

/-! The calls of the socket library on the TCP socket. One scripted event answers
each call; a call made after the last event has not returned yet. -/

namespace NucleoW5500

open CString

/-- A negative return value, or the bytes received (none of them is `SOCK_BUSY`). -/
inductive RxReply
  | err (code : Nat)
  | got (bs : List UInt8)
  deriving DecidableEq, Repr

/-- `SOCKERR_DATALEN` is `-14`. -/
def sockerrDatalen : Nat := 13

/-- `recv`: an error `code` stands for the return value `-(code + 1)`. A call hands
out what the chip has, up to the length asked for. -/
def recv (len : UInt16) : CM RxReply := fun w =>
  let w := { w with asked := w.asked ++ [len] }
  match w.rxScript with
  | [] => .error .blocked w
  | e :: es =>
    let w := { w with rxScript := es }
    if len = 0 then .ok (.err sockerrDatalen) w
    else match e with
      | .fail code => .ok (.err code) w
      | .ready count =>
        let n := min count len.toNat
        .ok (.got (w.incoming.take n)) { w with incoming := w.incoming.drop n }

/-- `send(sock, &buf[i], len)`. -/
def send (buf : List UInt8) (i : Nat) (len : UInt16) : CM Int := fun w =>
  match w.txScript with
  | [] => .error .blocked w
  | e :: es =>
    let w := { w with txScript := es }
    if len = 0 then .ok (-(sockerrDatalen + 1)) w
    else match e with
      | .fail code => .ok (-(code + 1)) w
      | .room count =>
        let n := min count len.toNat
        .ok n { w with sent := w.sent ++ read buf i n }

/-- The loop of `wiz_sendb`. The fuel is one more than the calls left in the script. -/
def wizSendbLoop (buf : List UInt8) : Nat → Nat → Int → CM Int
  | 0, _, _ => CM.halt .blocked
  | fuel + 1, sentSize, remainSize => do
    let ret ← send buf sentSize (UInt16.ofInt remainSize)
    if ret < 0 then pure ret
    else
      let remainSize := remainSize - ret
      let sentSize := sentSize + ret.toNat
      if remainSize > 0 then wizSendbLoop buf fuel sentSize remainSize
      else pure sentSize

def wizSendb (buf : List UInt8) (size : Int) : CM Int := fun w =>
  wizSendbLoop buf (w.txScript.length + 1) 0 size w

def consoleWriteb (buf : List UInt8) (size : Int) : CM Unit :=
  CM.modify fun w => { w with console := w.console ++ read buf 0 size.toNat }

def printLine (l : Line) : CM Unit := CM.modify fun w => { w with lines := w.lines ++ [l] }

theorem consoleWriteb_ok (buf : List UInt8) (size : Int) (w : World) :
    consoleWriteb buf size w = .ok () { w with console := w.console ++ read buf 0 size.toNat } := rfl

theorem recv_blocked {len : UInt16} {w : World} (hs : w.rxScript = []) :
    recv len w = .error .blocked { w with asked := w.asked ++ [len] } := by
  simp [recv, hs]

theorem recv_zero {w : World} {e : RxEvent} {es : List RxEvent} (hs : w.rxScript = e :: es) :
    recv 0 w = .ok (.err sockerrDatalen) { w with asked := w.asked ++ [0], rxScript := es } := by
  simp [recv, hs]

theorem recv_fail {len : UInt16} {w : World} {code : Nat} {es : List RxEvent} (hne : len ≠ 0)
    (hs : w.rxScript = .fail code :: es) :
    recv len w = .ok (.err code) { w with asked := w.asked ++ [len], rxScript := es } := by
  simp [recv, hs, hne]

theorem recv_ready {len : UInt16} {w : World} {count : Nat} {es : List RxEvent} (hne : len ≠ 0)
    (hs : w.rxScript = .ready count :: es) :
    recv len w = .ok (.got (w.incoming.take (min count len.toNat)))
      { w with
        asked := w.asked ++ [len], rxScript := es
        incoming := w.incoming.drop (min count len.toNat) } := by
  simp [recv, hs, hne]

theorem toNat_ofInt_of_lt {n : Nat} (h : n < 65536) : (UInt16.ofInt n).toNat = n := by
  rw [UInt16.ofInt, UInt16.toNat_ofNat']
  omega

theorem ofInt_ne_zero {n : Nat} (hpos : 0 < n) (h : n < 65536) : UInt16.ofInt n ≠ 0 := by
  intro he
  have hn := toNat_ofInt_of_lt h
  rw [he] at hn
  have h0 : (0 : UInt16).toNat = 0 := rfl
  omega

end NucleoW5500
