import NucleoW5500.Contents

/-! The big-file receiver: a start packet, numbered fragments and an end packet
carry a file that is too long for one packet. -/

namespace NucleoW5500

open CString

/-- The conversion of an `int` to `size_t`. -/
def sizeT (n : Int) : Nat := (UInt32.ofInt n).toNat

/-- `sizeof(struct bigfile_recv_rec)` -/
def sizeofBigfileRecvRec : UInt32 := 24

/-- The offset of `buf` in the record. -/
def bigfileBufOffset : Nat := 21

structure BigfileInfo where
  id : UInt8
  filename : List UInt8
  size : UInt32
  count : UInt32
  deriving DecidableEq, Repr

/-- The record, in a block of `memSize` bytes. The file name and its terminator are
at `buf`, and `contents` is the rest of the block behind them. -/
structure BigfileRecv extends BigfileInfo where
  next : UInt32
  memSize : Nat
  contents : List UInt8
  deriving DecidableEq, Repr

/-- The statics of `receive_bigfile_from_packet`. `pContents` is a block and an
offset in its contents. -/
structure BigfileState where
  pBig : Option (Block BigfileRecv)
  remainSize : UInt32
  remainCount : UInt32
  pContents : Option (Nat × Nat)
  deriving DecidableEq, Repr

def BigfileState.start : BigfileState := ⟨none, 0, 0, none⟩

/-- Which of `p_size`, `pp_name` and `pp_file` are not `NULL`. -/
structure BigfileArgs where
  size : Bool
  name : Bool
  file : Bool
  deriving DecidableEq, Repr

def BigfileArgs.any (args : BigfileArgs) : Bool := args.size || args.name || args.file

def BigfileArgs.all (args : BigfileArgs) : Bool := args.size && args.name && args.file

/-- What a call stored through its pointers. -/
structure BigfileOut where
  size : Option UInt32 := none
  name : Option Buf := none
  file : Option Buf := none
  deriving DecidableEq, Repr

def parseBigfileInfo (mem : List UInt8) (contentsSize : Int) : Option BigfileInfo :=
  let pFilename := 1
  match memchr mem 0 pFilename (sizeT (contentsSize - 1)) with
  | none => none
  | some k =>
    let pSize := k + 1
    let filenameLen := strlen mem pFilename
    match memchr mem 0 pSize (sizeT (contentsSize - 1 - filenameLen)) with
    | none => none
    | some k =>
      let pCount := k + 1
      match memchr mem 0 pCount (sizeT (contentsSize - 1 - filenameLen)) with
      | none => none
      | some _ =>
        some ⟨peek mem 0, cstr mem pFilename, UInt32.ofInt (atoi mem pSize),
          UInt32.ofInt (atoi mem pCount)⟩

/-- `mem_size`, computed modulo `2 ^ 32`. -/
def BigfileInfo.memSize (info : BigfileInfo) : UInt32 :=
  sizeofBigfileRecvRec + UInt32.ofNat info.filename.length + info.size + 4

/-- `memset` and the stores into the fresh record, which must reach the end of the name. -/
def fillBigfileRecv (block : Buf) (info : BigfileInfo) : CM BigfileRecv :=
  let contents := bigfileBufOffset + info.filename.length + 1
  if block.size < contents then CM.halt (.fault .recordBounds)
  else pure
    { info with
      next := 0, memSize := block.size
      contents := List.replicate (block.size - contents) 0 }

def allocBigfileInfoFromPacket (env : HeapEnv) (p : TcpPacket3) :
    CM (Option (Block BigfileRecv)) := do
  match ← extractPacketContents env p with
  | none => pure none
  | some buf =>
    match parseBigfileInfo buf.mem (getPacketPlainContentsSize p) with
    | none =>
      free buf.addr
      pure none
    | some info =>
      match ← malloc env info.memSize.toNat with
      | none =>
        free buf.addr
        pure none
      | some block =>
        let big ← fillBigfileRecv block info
        free buf.addr
        pure (some ⟨block.addr, big⟩)

def strndup (env : HeapEnv) (mem : List UInt8) (i n : Nat) : CM (Option Buf) := do
  let len := min n (strlen mem i)
  match ← malloc env (len + 1) with
  | none => pure none
  | some buf =>
    let buf ← memcpy buf 0 (read mem i len ++ [0]) 0 (len + 1)
    pure (some buf)

def copyFilename (env : HeapEnv) (big : BigfileRecv) (want : Bool) : CM (Option (Option Buf)) :=
  if want then do
    match ← strndup env (big.filename ++ [0]) 0 (strlen (big.filename ++ [0]) 0 + 1) with
    | none => pure none
    | some name => pure (some (some name))
  else pure (some none)

def copyContents (env : HeapEnv) (big : BigfileRecv) (want : Bool) : CM (Option (Option Buf)) :=
  if want then do
    match ← malloc env (big.size + 1).toNat with
    | none => pure none
    | some file =>
      if big.contents.length < big.size.toNat then CM.halt (.fault .blockBounds)
      else
        let file ← memcpy file 0 big.contents 0 big.size.toNat
        let file ← memcpy file big.size.toNat [0] 0 1
        pure (some (some file))
  else pure (some none)

def extractBigfile (env : HeapEnv) (big : BigfileRecv) (args : BigfileArgs) :
    CM (Int × BigfileOut) :=
  if big.count ≠ big.next then pure (-1, {})
  else do
    let size := if args.size then some big.size else none
    match ← copyFilename env big args.name with
    | none => pure (-1, { size })
    | some name =>
      match ← copyContents env big args.file with
      | none => pure (-1, { size, name })
      | some file => pure (0, { size, name, file })

/-- `extract_bigfile`, after which the record is freed if everything was copied. -/
def deliverBigfile (env : HeapEnv) (st : BigfileState) (big : Block BigfileRecv)
    (args : BigfileArgs) : CM (Int × BigfileOut × BigfileState) := do
  let (ret, out) ← extractBigfile env big.val args
  if ret < 0 then pure (ret, out, st)
  else if args.all then
    free big.addr
    pure (0, out, { st with pBig := none })
  else pure (0, out, st)

/-- `p == NULL` -/
def bigfileExtract (env : HeapEnv) (st : BigfileState) (args : BigfileArgs) :
    CM (Int × BigfileOut × BigfileState) :=
  match st.pBig with
  | none => pure (-1, {}, st)
  | some big => if args.any then deliverBigfile env st big args else pure (-1, {}, st)

def freeBigfile : Option (Block BigfileRecv) → CM Unit
  | none => pure ()
  | some big => free big.addr

def bigfileStart (env : HeapEnv) (st : BigfileState) (p : TcpPacket3) :
    CM (Int × BigfileOut × BigfileState) := do
  freeBigfile st.pBig
  match ← allocBigfileInfoFromPacket env p with
  | none => pure (-1, {}, { st with pBig := none })
  | some big => pure (1, {}, { st with pBig := some big })

def bigfileEnd (env : HeapEnv) (st : BigfileState) (big : Block BigfileRecv) (buf : Buf)
    (args : BigfileArgs) : CM (Int × BigfileOut × BigfileState) := do
  let crcType := peek buf.mem 1
  free buf.addr
  if st.remainSize > 0 ∨ st.remainCount > 0 ∨ crcType ≠ tcpPacket3BigfileChecksumTypeNone then
    free big.addr
    pure (-1, {}, { st with pBig := none })
  else deliverBigfile env st big args

/-- The checks on a fragment, with its payload if it passes. `memchr` may leave
`p_next` at `NULL`: the source tests `p_cur` in its place. -/
def fragmentPayload (mem : List UInt8) (contentsSize : Int) (next remainSize : UInt32) :
    Except Fault (Option (List UInt8)) :=
  let pCur := 1
  let pNext := memchr mem 0 pCur (sizeT (contentsSize - 1))
  let fragNumber := UInt32.ofInt (atoi mem pCur)
  if fragNumber ≠ next then .ok none
  else match pNext with
    | none => .error .nullPointer
    | some k =>
      let pNext := k + 1
      let fragSize := (convertBuf2short mem pNext).toUInt32
      if fragSize > remainSize then .ok none
      else
        let pNext := pNext + tcpPacket3DataSizeLen
        let calcFragSize := UInt32.ofInt (contentsSize - pNext)
        if fragSize ≠ calcFragSize then .ok none
        else .ok (some (read mem pNext fragSize.toNat))

/-- `memcpy(p_contents, p_next, frag_size)` -/
def copyFragment (pContents : Option (Nat × Nat)) (big : Block BigfileRecv) (payload : List UInt8) :
    CM (List UInt8) :=
  match pContents with
  | none => CM.halt (.fault .nullPointer)
  | some (addr, offset) =>
    if addr ≠ big.addr then CM.halt (.fault .freedBlock)
    else store .recordBounds big.val.contents offset payload

/-- What the copy of a fragment is given. -/
abbrev CopyInto := Option (Nat × Nat) → Block BigfileRecv → List UInt8 → CM (List UInt8)

/-- The first fragment sets up the counters. -/
def firstFragment (st : BigfileState) (big : Block BigfileRecv) : BigfileState :=
  if big.val.next = 0 then
    { st with
      remainSize := big.val.size, remainCount := big.val.count
      pContents := some (big.addr, 0) }
  else st

/-- A fragment, with the copy into the record as a parameter. -/
def bigfileFragBy (copy : CopyInto) (st : BigfileState) (big : Block BigfileRecv) (buf : Buf)
    (contentsSize : Int) : CM (Int × BigfileOut × BigfileState) := do
  let st := firstFragment st big
  if st.remainCount = 0 then
    free buf.addr
    pure (-1, {}, st)
  else match fragmentPayload buf.mem contentsSize big.val.next st.remainSize with
    | .error f => CM.halt (.fault f)
    | .ok none =>
      free buf.addr
      pure (-1, {}, st)
    | .ok (some payload) =>
      let contents ← copy st.pContents big payload
      pure (1, {},
        { pBig := some ⟨big.addr, { big.val with next := big.val.next + 1, contents }⟩
          remainCount := st.remainCount - 1
          remainSize := st.remainSize - UInt32.ofNat payload.length
          pContents := st.pContents.map fun q => (q.1, q.2 + payload.length) })

def receiveBigfileFromPacketBy (copy : CopyInto) (env : HeapEnv) (st : BigfileState)
    (p : Option TcpPacket3) (args : BigfileArgs) : CM (Int × BigfileOut × BigfileState) :=
  match p with
  | none => bigfileExtract env st args
  | some p =>
    if p.dataSize = 0 then pure (-1, {}, st)
    else if p.type = tcpPacket3TypeBigfileStart then bigfileStart env st p
    else if p.type ≠ tcpPacket3TypeBigfileFrag ∧ p.type ≠ tcpPacket3TypeBigfileEnd then
      pure (-1, {}, st)
    else match st.pBig with
      | none => pure (-1, {}, st)
      | some big => do
        match ← extractPacketContents env p with
        | none =>
          free big.addr
          pure (-1, {}, { st with pBig := none })
        | some buf =>
          if peek buf.mem 0 ≠ big.val.id then
            free buf.addr
            pure (-1, {}, st)
          else if p.type = tcpPacket3TypeBigfileEnd then bigfileEnd env st big buf args
          else bigfileFragBy copy st big buf (getPacketPlainContentsSize p)

def bigfileFrag (st : BigfileState) (big : Block BigfileRecv) (buf : Buf) (contentsSize : Int) :
    CM (Int × BigfileOut × BigfileState) :=
  bigfileFragBy copyFragment st big buf contentsSize

def receiveBigfileFromPacket (env : HeapEnv) (st : BigfileState) (p : Option TcpPacket3)
    (args : BigfileArgs) : CM (Int × BigfileOut × BigfileState) :=
  receiveBigfileFromPacketBy copyFragment env st p args

end NucleoW5500
