import NucleoW5500.BigFile

/-! `tcp_packet3_processor` takes a packet off the list of received ones and answers it.
Of the formatted lines those are kept that report what the packet is. -/

namespace NucleoW5500

open CString

def receivedLine (p : TcpPacket3) : Line :=
  .received (tcpPacket3HeaderSize + p.dataSize.toNat) (veryfyTcpPacket3Checksum p)

def packetLine (p : TcpPacket3) : Line :=
  .packet p.version p.flag p.type p.dataSize
    (if flagHasChecksum p.flag then some p.checksum else none)
    (if flagHasEncryption p.flag then some p.orgSize else none)

def printTcpPacket3 (p : TcpPacket3) (dumpContentsLen : Int) : CM Unit := do
  printLine (packetLine p)
  let offset := (if flagHasChecksum p.flag then tcpPacket3DataChecksumLen else 0) +
    (if flagHasEncryption p.flag then tcpPacket3DataSizeLen else 0)
  if p.dataSize > 0 ∧ dumpContentsLen > 0 then
    let max := dumpContentsLen
    let max := if max > p.dataSize.toNat then (p.dataSize.toNat : Int) else max
    consoleWriteb (p.data.drop offset) max
  else pure ()

/-- `printf("%s\r\n", buf)` -/
def printString (mem : List UInt8) : CM Unit :=
  CM.modify fun w => { w with console := w.console ++ cstr mem 0 ++ [13, 10] }

def freeBuf : Option Buf → CM Unit
  | none => pure ()
  | some buf => free buf.addr

def getCmdlineFromPacket (env : HeapEnv) (p : TcpPacket3) : CM (Option Buf) :=
  if p.type ≠ tcpPacket3TypeCmdline ∨ p.dataSize = 0 then pure none
  else extractPacketContents env p

/-- The second half of `get_file_from_packet`, with `p_file` behind the file name. -/
def copySmallfile (env : HeapEnv) (buf : Buf) (name : Buf) (contentsSize : Int) (pFile : Nat) :
    CM (Int × Option Buf × Option Buf) := do
  let filenameSize : Int := pFile
  let fileSize : Int := (convertBuf2short buf.mem pFile).toNat
  let pFile := pFile + tcpPacket3DataSizeLen
  let calcFileSize := contentsSize - filenameSize - tcpPacket3DataSizeLen
  if fileSize ≠ calcFileSize then
    free buf.addr
    pure (0, some name, none)
  else
    match ← malloc env fileSize with
    | none =>
      free buf.addr
      pure (0, some name, none)
    | some file =>
      let file ← memcpy file 0 buf.mem pFile fileSize
      free buf.addr
      pure (fileSize, some name, some file)

def getFileFromPacket (env : HeapEnv) (p : TcpPacket3) : CM (Int × Option Buf × Option Buf) :=
  if p.type ≠ tcpPacket3TypeSmallfile ∨ p.dataSize = 0 then pure (0, none, none)
  else do
    match ← extractPacketContents env p with
    | none => pure (0, none, none)
    | some buf =>
      let contentsSize := getPacketPlainContentsSize p
      match memchr buf.mem 0 0 (sizeT contentsSize) with
      | none =>
        free buf.addr
        pure (0, none, none)
      | some k =>
        match ← strndup env buf.mem 0 (k + 1) with
        | none =>
          free buf.addr
          pure (0, none, none)
        | some name => copySmallfile env buf name contentsSize (k + 1)

def showFile (fileSize : Int) (filename file : Option Buf) : CM Unit :=
  match file with
  | none => CM.halt (.fault .nullPointer)
  | some buf => do
    consoleWriteb buf.mem fileSize
    freeBuf filename
    free buf.addr

def sendCreated : Option (Block TcpPacket3) → CM Unit
  | none => pure ()
  | some pSend => do
    let _ ← sendTcpPacket3 pSend.val
    free pSend.addr

/-- The plain echo of an encrypted packet. -/
def echoPlainPacket (env : HeapEnv) (p : TcpPacket3) : CM Unit :=
  if isPacketEncrypted p then do
    match ← extractPacketContents env p with
    | none => pure ()
    | some buf =>
      consoleWriteb buf.mem 40
      let pSend ← createTcpPacket3 env 0 0 (some buf.mem) p.orgSize.toNat
      sendCreated pSend
      free buf.addr
  else pure ()

def processCmdline (env : HeapEnv) (p : TcpPacket3) : CM Unit := do
  match ← getCmdlineFromPacket env p with
  | none =>
    let _ ← sendTcpPacket3 p
    pure ()
  | some buf =>
    printString buf.mem
    free buf.addr
    let _ ← sendTcpPacket3 p
    pure ()

def processSmallfile (env : HeapEnv) (p : TcpPacket3) : CM Unit := do
  let (fileSize, filename, file) ← getFileFromPacket env p
  if fileSize > 0 then showFile fileSize filename file
  else pure ()

def processBigfile (env : HeapEnv) (st : BigfileState) (p : TcpPacket3) : CM BigfileState := do
  let (ret, out, st) ← receiveBigfileFromPacket env st (some p) ⟨true, true, true⟩
  if ret = 0 then
    showFile (out.size.getD 0).toInt32.toInt out.name out.file
    pure st
  else pure st

/-- `switch (p->type)` -/
def processPacketType (env : HeapEnv) (st : BigfileState) (p : TcpPacket3) : CM BigfileState :=
  if p.type = tcpPacket3TypeCmdline then do
    processCmdline env p
    pure st
  else if p.type = tcpPacket3TypeSmallfile then do
    processSmallfile env p
    pure st
  else if p.type = tcpPacket3TypeBigfileStart ∨ p.type = tcpPacket3TypeBigfileFrag ∨
      p.type = tcpPacket3TypeBigfileEnd then processBigfile env st p
  else pure st

def tcpPacket3Processor (env : HeapEnv) (st : BigfileState) (phead : List (Block TcpPacket3)) :
    CM (List (Block TcpPacket3) × BigfileState) :=
  match phead with
  | [] => pure ([], st)
  | p :: phead => do
    printLine (receivedLine p.val)
    printTcpPacket3 p.val 40
    echoPlainPacket env p.val
    let st ← processPacketType env st p.val
    free p.addr
    pure (phead, st)

end NucleoW5500
