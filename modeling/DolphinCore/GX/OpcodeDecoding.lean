import DolphinCore.GX.VertexLoaderManager
import DolphinCore.Lib.Endian
import DolphinCore.Lib.Incremental

/-!
# DolphinCore.GX.OpcodeDecoding

`OpcodeDecoder::Run`: the commands of a stream, for the main decoder and for the
one that preprocesses the stream on the CPU thread. What the main decoder hands
on to the rest of the GPU is its log; what the preprocessing decoder copied from
memory waits in the auxiliary buffer until the main one takes it.

A display list is decoded without checks of its size; a list that ends within a
command makes its decoder run past the end, which is a fault here.
-/

namespace DolphinCore.GX

/-! ## state -/

/-- What the decoders depend on. -/
structure GPU where
  bWii : Bool
  /-- `UseDeterministicGPUThread` -/
  deterministic : Bool
  getPointer : BitVec 32 → Option (Nat → Byte)

/-- What the main decoder had executed. -/
inductive Executed where
  | cp (sub_cmd : BitVec 8) (value : BitVec 32)
  | xf (address : Nat) (words : List (BitVec 32))
  | indexedXF (ref_array : Fin 16) (val : BitVec 32) (words : List (BitVec 32))
  | bp (bp_cmd : BitVec 32)
  | draw (primitive : BitVec 8) (group : Fin 8) (loader : VertexLoader) (vertices : List Byte)

/-- The decoders, the auxiliary buffer and the log of the main decoder. -/
structure Decoders where
  loaders : LoaderState
  aux : List Byte
  log : List Executed

/-- A command: its bytes, and the block of memory that belongs to it. -/
structure Command where
  bytes : List Byte
  block : Option (List Byte)
deriving DecidableEq

/-- What ends decoding other than the end of the stream. -/
inductive Fault where
  /-- A display list ended within a command. -/
  | overrun
  /-- A pointer that is not there was used. -/
  | nullPointer
  /-- "absurdly large aux buffer" -/
  | absurdlyLarge
  /-- The auxiliary buffer does not hold what is to be taken from it. -/
  | auxUnderrun
  /-- Display lists call each other too deep. -/
  | stackOverflow
deriving DecidableEq

abbrev Step := Except Fault (DecodeStep Decoders Command)

/-! ## reading -/

def read16 (data : List Byte) : BitVec 16 := BitVec.ofNat 16 (Endian.fromBE (data.take 2))

def read32 (data : List Byte) : BitVec 32 := BitVec.ofNat 32 (Endian.fromBE (data.take 4))

/-- `ReadU32xN`. -/
def readWords (n : Nat) (data : List Byte) : List (BitVec 32) :=
  (List.range n).map fun i => read32 (data.drop (4 * i))

/-- A command of `n` bytes after its first one. -/
def finish (s : Decoders) (cmd_byte : Byte) (data : List Byte) (n : Nat) (block : Option (List Byte))
    (nested : List Command) : Step :=
  .ok (.next s n (⟨cmd_byte :: data.take n, block⟩ :: nested))

/-- Without `n` bytes a decoder that checks the size stops, and another one runs past the end. -/
def checked (sizeCheck : Bool) (s : Decoders) (data : List Byte) (n : Nat) (k : Step) : Step :=
  if data.length < n then if sizeCheck then .ok (.stop s) else .error .overrun else k

/-! ## the auxiliary buffer -/

def FIFO_SIZE : Nat := 2 * 1024 * 1024

/-- A block of memory. -/
def blockAt (p : Nat → Byte) (size : Nat) : List Byte := (List.range size).map p

namespace Decoders

/-- `PushFifoAuxBuffer`; the buffer was compacted where there was no room behind its end. -/
def pushFifoAuxBuffer (s : Decoders) (p : Option (Nat → Byte)) (size : Nat) :
    Except Fault (List Byte × Decoders) :=
  if FIFO_SIZE < s.aux.length + size then .error .absurdlyLarge
  else
    match p with
    | none => if size = 0 then .ok ([], s) else .error .nullPointer
    | some p => .ok (blockAt p size, { s with aux := s.aux ++ blockAt p size })

def popFifoAuxBuffer (s : Decoders) (size : Nat) : Except Fault (List Byte × Decoders) :=
  if s.aux.length < size then .error .auxUnderrun
  else .ok (s.aux.take size, { s with aux := s.aux.drop size })

/-- The decoder's own registers. -/
def decoder (s : Decoders) (is_preprocess : Bool) : Decoder :=
  if is_preprocess then s.loaders.pre else s.loaders.main

/-- The main decoder hands something on. -/
def execute (s : Decoders) (is_preprocess : Bool) (e : Executed) : Decoders :=
  if is_preprocess then s else { s with log := s.log ++ [e] }

end Decoders

/-! ## the commands -/

section

variable (gpu : GPU) (is_preprocess sizeCheck : Bool) (s : Decoders) (cmd_byte : Byte)
  (data : List Byte)

/-- `GX_LOAD_CP_REG`. -/
def loadCPCommand : Step :=
  checked sizeCheck s data 5 <|
    let sub_cmd := data.headD 0
    let value := read32 (data.drop 1)
    let s := { s with loaders := s.loaders.loadCPReg gpu.bWii is_preprocess sub_cmd value }
    finish (s.execute is_preprocess (.cp sub_cmd value)) cmd_byte data 5 none []

/-- The words that `LoadXFReg` reads: no writes past registers. -/
def xfWords (transferSize baseAddress : Nat) : Nat :=
  if baseAddress + transferSize > 0x1058 then
    if baseAddress ≥ 0x1058 then 0 else 0x1058 - baseAddress
  else transferSize

/-- The number of words and the address of a load. -/
def xfTransferSize (Cmd2 : BitVec 32) : Nat := (Cmd2.toNat / 2 ^ 16) % 16 + 1

def xfAddress (Cmd2 : BitVec 32) : Nat := Cmd2.toNat % 2 ^ 16

/-- `GX_LOAD_XF_REG`: the preprocessing decoder skips the words, the main one reads them. -/
def loadXFCommand : Step :=
  checked sizeCheck s data 4 <|
    let Cmd2 := read32 data
    let transfer_size := xfTransferSize Cmd2
    if sizeCheck && decide (data.length < 4 + 4 * transfer_size) then .ok (.stop s)
    else
      let words := if is_preprocess then transfer_size else xfWords transfer_size (xfAddress Cmd2)
      if data.length < 4 + 4 * words then .error .overrun
      else
        finish (s.execute is_preprocess (.xf (xfAddress Cmd2) (readWords words (data.drop 4))))
          cmd_byte data (4 + 4 * words) none []

/-- What a command did with a block of memory: the block, the state, and the commands of a
display list. -/
structure Fetched where
  block : List Byte
  state : Decoders
  nested : List Command

/-- The array a load by index reads from. -/
def refArray (cmd_byte : Byte) : Fin 16 := Fin.ofNat 16 (cmd_byte.toNat / 8 + 8)

/-- Where a load by index reads. -/
def indexedAddress (cp : CPState) (refarray : Fin 16) (val : BitVec 32) : BitVec 32 :=
  cp.array_bases refarray + cp.array_strides refarray * (val >>> 16)

/-- How many bytes it reads. -/
def indexedSize (val : BitVec 32) : Nat := 4 * ((val.toNat / 2 ^ 12) % 16 + 1)

def loadIndexedXF (val : BitVec 32) (refarray : Fin 16) : Except Fault Fetched :=
  let size := indexedSize val
  let newData :=
    if gpu.deterministic then s.popFifoAuxBuffer size
    else
      match gpu.getPointer (indexedAddress s.loaders.main.cp refarray val) with
      | none => .error .nullPointer
      | some p => .ok (blockAt p size, s)
  newData.map fun (block, s) =>
    ⟨block, s.execute false (.indexedXF refarray val (readWords (size / 4) block)), []⟩

def preprocessIndexedXF (val : BitVec 32) (refarray : Fin 16) : Except Fault Fetched :=
  (s.pushFifoAuxBuffer (gpu.getPointer (indexedAddress s.loaders.pre.cp refarray val))
    (indexedSize val)).map fun (block, s) => ⟨block, s, []⟩

/-- `GX_LOAD_INDX_A` to `GX_LOAD_INDX_D`. -/
def loadIndexedCommand : Step :=
  checked sizeCheck s data 4 <|
    (if is_preprocess then preprocessIndexedXF gpu s (read32 data) (refArray cmd_byte)
      else loadIndexedXF gpu s (read32 data) (refArray cmd_byte)).bind fun r =>
        finish r.state cmd_byte data 4 (some r.block) r.nested

/-- `GX_LOAD_BP_REG`. -/
def loadBPCommand : Step :=
  checked sizeCheck s data 4 <|
    finish (s.execute is_preprocess (.bp (read32 data))) cmd_byte data 4 none []

/-- The attribute group a draw names. -/
def drawGroup (cmd_byte : Byte) : Fin 8 := Fin.ofNat 8 cmd_byte.toNat

/-- The state in which the size of the vertices is looked at. -/
def Decoders.drawn (count : BitVec 16) : Decoders :=
  { s with loaders := s.loaders.draw is_preprocess (drawGroup cmd_byte) count }

/-- The vertices of a draw, whose loader was looked up. -/
def drawVertices (count : BitVec 16) : Step :=
  match (s.decoder is_preprocess).loaders (drawGroup cmd_byte) with
  | none => .error .nullPointer
  | some loader =>
    let readsize := count.toNat * loader.m_VertexSize
    if data.length < 2 + readsize then .ok (.stop s)
    else
      finish (s.execute is_preprocess (.draw ((cmd_byte &&& 0x78) >>> 3) (drawGroup cmd_byte)
          loader ((data.drop 2).take readsize)))
        cmd_byte data (2 + readsize) none []

/-- `GX_DRAW_PRIMITIVES`: the loader is looked up before the size is known. -/
def drawCommand : Step :=
  checked sizeCheck s data 2 <|
    let count := read16 data
    if count = 0 then finish s cmd_byte data 2 none []
    else drawVertices is_preprocess (s.drawn is_preprocess cmd_byte count) cmd_byte data count

variable (callDL : Decoders → List Byte → Except Fault (Decoders × List Command))

/-- `InterpretDisplayList`; without a pointer there is no list. -/
def interpretDisplayList (address : BitVec 32) (size : Nat) : Except Fault Fetched :=
  let list :=
    if gpu.deterministic then s.popFifoAuxBuffer size
    else .ok (((gpu.getPointer address).map fun p => blockAt p size).getD [], s)
  list.bind fun (list, s) => (callDL s list).map fun (s, nested) => ⟨list, s, nested⟩

def interpretDisplayListPreprocess (address : BitVec 32) (size : Nat) : Except Fault Fetched :=
  (s.pushFifoAuxBuffer (gpu.getPointer address) size).bind fun (list, s) =>
    (callDL s list).map fun (s, nested) => ⟨list, s, nested⟩

/-- `GX_CMD_CALL_DL`. -/
def callDLCommand : Step :=
  checked sizeCheck s data 8 <|
    (if is_preprocess then
        interpretDisplayListPreprocess gpu s callDL (read32 data) (read32 (data.drop 4)).toNat
      else
        interpretDisplayList gpu s callDL (read32 data) (read32 (data.drop 4)).toNat).bind fun r =>
          finish r.state cmd_byte data 8 (some r.block) r.nested

/-- One command. -/
def command : Step :=
  match cmd_byte.toNat with
  -- GX_NOP, GX_UNKNOWN_RESET, GX_CMD_UNKNOWN_METRICS and GX_CMD_INVL_VC
  | 0x00 | 0x01 | 0x44 | 0x48 => finish s cmd_byte data 0 none []
  | 0x08 => loadCPCommand gpu is_preprocess sizeCheck s cmd_byte data
  | 0x10 => loadXFCommand is_preprocess sizeCheck s cmd_byte data
  | 0x20 | 0x28 | 0x30 | 0x38 => loadIndexedCommand gpu is_preprocess sizeCheck s cmd_byte data
  | 0x40 => callDLCommand gpu is_preprocess sizeCheck s cmd_byte data callDL
  | 0x61 => loadBPCommand is_preprocess sizeCheck s cmd_byte data
  | _ =>
    if cmd_byte &&& 0xc0 = 0x80 then drawCommand is_preprocess sizeCheck s cmd_byte data
    -- an unknown opcode is reported and passed over
    else finish s cmd_byte data 0 none []

end

/-! ## Run -/

/-- Display lists within display lists, as far as the stack goes. -/
def runDL (gpu : GPU) (is_preprocess : Bool) :
    Nat → Decoders → List Byte → Except Fault (Decoders × List Command)
  | 0, _, _ => .error .stackOverflow
  | depth + 1, s, list =>
    (decode (fun s cmd_byte data =>
        command gpu is_preprocess false s cmd_byte data (runDL gpu is_preprocess depth)) s list).map
      fun r => (r.state, r.outs)

/-- `Run`: the commands of the unread bytes of the video buffer. -/
def run (gpu : GPU) (depth : Nat) (is_preprocess : Bool) (s : Decoders) (unread : List Byte) :
    Except Fault (Decoded Decoders Byte Command) :=
  decode (fun s cmd_byte data =>
    command gpu is_preprocess true s cmd_byte data (runDL gpu is_preprocess depth)) s unread

end DolphinCore.GX
