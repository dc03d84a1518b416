import DolphinCore.GX.OpcodeDecoding

/-!
# DolphinCore.GX.DisplayList

`InterpretDisplayList` and `InterpretDisplayListPreprocess` on the memory of the
host. A list is decoded without checks of its size, from a pointer to its start
until the pointer is at its end; a decoder that passes the end goes on behind it.
Every access of the decoder to its list is recorded with the list.
-/

namespace DolphinCore.GX

/-! ## readers -/

/-- Reads bytes up to `end`. -/
structure DataReader where
  Rbuffer : BitVec 64
  end_ : BitVec 64
deriving DecidableEq

namespace DataReader

def size (r : DataReader) : BitVec 64 := r.end_ - r.Rbuffer

def readSkip (r : DataReader) (skip : Nat) : DataReader :=
  { r with Rbuffer := r.Rbuffer + BitVec.ofNat 64 skip }

end DataReader

/-- What a decoder did with the bytes of a list. -/
inductive Access where
  /-- It read `count` bytes. -/
  | read (list : DataReader) (address : BitVec 64) (count : Nat)
  /-- It executed the command between two positions. -/
  | command (list : DataReader) (opcodeStart opcodeEnd : BitVec 64)
deriving DecidableEq

/-- It is within the list. -/
def Access.Within : Access → Prop
  | .read list address count => (address - list.Rbuffer).toNat + count ≤ list.size.toNat
  | .command list opcodeStart opcodeEnd =>
    (opcodeStart - list.Rbuffer).toNat ≤ (opcodeEnd - list.Rbuffer).toNat ∧
      (opcodeEnd - list.Rbuffer).toNat ≤ list.size.toNat

instance : DecidablePred Access.Within
  | .read .. => inferInstanceAs (Decidable (_ ≤ _))
  | .command .. => inferInstanceAs (Decidable (_ ∧ _))

/-! ## the host -/

/-- What the decoders depend on. -/
structure Host where
  bWii : Bool
  /-- `UseDeterministicGPUThread` -/
  deterministic : Bool
  getPointer : BitVec 32 → Option (BitVec 64)
  memory : BitVec 64 → Byte
  /-- `s_fifo_aux_data + FIFO_SIZE` -/
  auxEnd : BitVec 64
  /-- The pointers for writing and reading after `SyncGPU`; none while the GPU shuts down. -/
  syncGPU : BitVec 64 × BitVec 64 → Option (BitVec 64 × BitVec 64)

/-- Bytes of memory. -/
def Host.bytes (host : Host) (p : BitVec 64) (count : Nat) : List Byte :=
  (List.range count).map fun i => host.memory (p + BitVec.ofNat 64 i)

/-- What commands change that decides how further commands are read. -/
structure ListEnv where
  loaders : LoaderState
  s_fifo_aux_write_ptr : BitVec 64
  s_fifo_aux_read_ptr : BitVec 64

/-- What keeps a decoder from its end. -/
inductive ListFault where
  | outOfFuel
  /-- A pointer that is not there was used. -/
  | nullPointer
deriving DecidableEq

/-- The decoders on the host. -/
structure ListState where
  env : ListEnv
  g_VideoData : DataReader
  /-- The `dlist_reader` of the preprocessed list that is read. -/
  dlist_reader : DataReader
  trace : List Access

namespace ListEnv

variable (host : Host) (env : ListEnv)

/-- `PushFifoAuxBuffer`; the bytes that it copies are not read by its caller. -/
def pushFifoAuxBuffer (ptr : Option (BitVec 64)) (size : BitVec 64) : Except ListFault ListEnv :=
  let copy (env : ListEnv) : Except ListFault ListEnv :=
    if ptr = none ∧ size ≠ 0 then .error .nullPointer
    else .ok { env with s_fifo_aux_write_ptr := env.s_fifo_aux_write_ptr + size }
  if size > host.auxEnd - env.s_fifo_aux_write_ptr then
    match host.syncGPU (env.s_fifo_aux_write_ptr, env.s_fifo_aux_read_ptr) with
    | none => .ok env
    | some (write, read) =>
      let env := { env with s_fifo_aux_write_ptr := write, s_fifo_aux_read_ptr := read }
      -- "absurdly large aux buffer"
      if size > host.auxEnd - env.s_fifo_aux_write_ptr then .ok env else copy env
  else copy env

def popFifoAuxBuffer (size : BitVec 64) : BitVec 64 × ListEnv :=
  (env.s_fifo_aux_read_ptr,
    { env with s_fifo_aux_read_ptr := env.s_fifo_aux_read_ptr + size })

def loadIndexedXF (val : BitVec 32) (refarray : Fin 16) : Except ListFault ListEnv :=
  if host.deterministic then
    .ok (env.popFifoAuxBuffer (BitVec.ofNat 64 (indexedSize val))).2
  else
    match host.getPointer (indexedAddress env.loaders.main.cp refarray val) with
    | none => .error .nullPointer
    | some _ => .ok env

def preprocessIndexedXF (val : BitVec 32) (refarray : Fin 16) : Except ListFault ListEnv :=
  env.pushFifoAuxBuffer host (host.getPointer (indexedAddress env.loaders.pre.cp refarray val))
    (BitVec.ofNat 64 (indexedSize val))

variable (is_preprocess : Bool)

def loadCPReg (sub_cmd : BitVec 8) (value : BitVec 32) : ListEnv :=
  { env with loaders := env.loaders.loadCPReg host.bWii is_preprocess sub_cmd value }

def indexed (val : BitVec 32) (refarray : Fin 16) : Except ListFault ListEnv :=
  if is_preprocess then env.preprocessIndexedXF host val refarray
  else env.loadIndexedXF host val refarray

/-- The state in which the size of the vertices of a draw is looked at. -/
def drawn (cmd_byte : Byte) (count : BitVec 16) : ListEnv :=
  { env with loaders := env.loaders.draw is_preprocess (drawGroup cmd_byte) count }

/-- The loader of a group. -/
def loader (group : Fin 8) : Option VertexLoader :=
  (if is_preprocess then env.loaders.pre else env.loaders.main).loaders group

/-- `readsize`, in 32 bits -/
def readsize (loader : VertexLoader) (count : BitVec 16) : Nat :=
  (count.toNat * loader.m_VertexSize) % 2 ^ 32

/-- Where a list that is called starts. -/
def startAddress (address size : BitVec 32) : Except ListFault (Option (BitVec 64) × ListEnv) :=
  if is_preprocess then
    (env.pushFifoAuxBuffer host (host.getPointer address) (size.setWidth 64)).map fun env =>
      (host.getPointer address, env)
  else if host.deterministic then
    .ok ((some (env.popFifoAuxBuffer (size.setWidth 64)).1),
      (env.popFifoAuxBuffer (size.setWidth 64)).2)
  else .ok (host.getPointer address, env)

end ListEnv

/-! ## commands -/

namespace ListState

section

variable (host : Host) (is_preprocess : Bool) (list : DataReader) (m : ListState)

/-- The reader of a decoder. -/
def reader : DataReader := if is_preprocess then m.dlist_reader else m.g_VideoData

def setReader (r : DataReader) : ListState :=
  if is_preprocess then { m with dlist_reader := r } else { m with g_VideoData := r }

def readSkip (skip : Nat) : ListState :=
  m.setReader is_preprocess ((m.reader is_preprocess).readSkip skip)

/-- Reads `n` bytes. -/
def read (n : Nat) : List Byte × ListState :=
  let r := m.reader is_preprocess
  let m := m.readSkip is_preprocess n
  (host.bytes r.Rbuffer n, { m with trace := m.trace ++ [.read list r.Rbuffer n] })

end

/-- What a turn of the loop in `Run` did. -/
inductive Turn where
  /-- `goto end` -/
  | stop (m : ListState)
  | next (m : ListState)

section

variable (host : Host) (is_preprocess : Bool) (list : DataReader)

/-- The vertices of a draw. -/
def drawVertices (cmd_byte : Byte) (count : BitVec 16) (distance : BitVec 64) (m : ListState) :
    Except ListFault Turn :=
  let m := { m with env := m.env.drawn is_preprocess cmd_byte count }
  match m.env.loader is_preprocess (drawGroup cmd_byte) with
  | none => .error .nullPointer
  | some loader =>
    let readsize := ListEnv.readsize loader count
    if distance.toNat < readsize then .ok (.stop m)
    -- the preprocessing decoder passes over the vertices
    else if is_preprocess then .ok (.next (m.readSkip is_preprocess readsize))
    else .ok (.next (m.read host is_preprocess list readsize).2)

/-- `GX_DRAW_PRIMITIVES`. -/
def draw (cmd_byte : Byte) (distance : BitVec 64) (m : ListState) : Except ListFault Turn :=
  let (data, m) := m.read host is_preprocess list 2
  let count := read16 data
  let distance := distance - 2
  if count = 0 then .ok (.next m)
  else drawVertices host is_preprocess list cmd_byte count distance m

/-- `GX_LOAD_CP_REG`. -/
def loadCP (m : ListState) : ListState :=
  let (sub_cmd, m) := m.read host is_preprocess list 1
  let (value, m) := m.read host is_preprocess list 4
  { m with env := m.env.loadCPReg host is_preprocess (sub_cmd.headD 0) (read32 value) }

/-- `GX_LOAD_XF_REG`. -/
def loadXF (m : ListState) : ListState :=
  let (data, m) := m.read host is_preprocess list 4
  let Cmd2 := read32 data
  if is_preprocess then m.readSkip is_preprocess (4 * xfTransferSize Cmd2)
  else (m.read host is_preprocess list (4 * xfWords (xfTransferSize Cmd2) (xfAddress Cmd2))).2

/-- `GX_LOAD_INDX_A` to `GX_LOAD_INDX_D`. -/
def loadIndexed (cmd_byte : Byte) (m : ListState) : Except ListFault ListState :=
  let (val, m) := m.read host is_preprocess list 4
  (m.env.indexed host is_preprocess (read32 val) (refArray cmd_byte)).map fun env =>
    { m with env := env }

variable (callDL : BitVec 32 → BitVec 32 → ListState → Except ListFault ListState)

/-- `GX_CMD_CALL_DL`. -/
def callDisplayList (m : ListState) : Except ListFault ListState :=
  let (address, m) := m.read host is_preprocess list 4
  let (count, m) := m.read host is_preprocess list 4
  callDL (read32 address) (read32 count) m

/-- One command. -/
def command (cmd_byte : Byte) (distance : BitVec 64) (m : ListState) : Except ListFault Turn :=
  match cmd_byte.toNat with
  -- GX_NOP, GX_UNKNOWN_RESET, GX_CMD_UNKNOWN_METRICS and GX_CMD_INVL_VC
  | 0x00 | 0x01 | 0x44 | 0x48 => .ok (.next m)
  | 0x08 => .ok (.next (m.loadCP host is_preprocess list))
  | 0x10 => .ok (.next (m.loadXF host is_preprocess list))
  | 0x20 | 0x28 | 0x30 | 0x38 => (m.loadIndexed host is_preprocess list cmd_byte).map .next
  | 0x40 => (m.callDisplayList host is_preprocess list callDL).map .next
  -- GX_LOAD_BP_REG
  | 0x61 => .ok (.next (m.read host is_preprocess list 4).2)
  | _ =>
    if cmd_byte &&& 0xc0 = 0x80 then m.draw host is_preprocess list cmd_byte distance
    -- an unknown opcode is reported and passed over
    else .ok (.next m)

/-- One turn of the loop. -/
def turn (m : ListState) : Except ListFault Turn :=
  let opcodeStart := (m.reader is_preprocess).Rbuffer
  let (data, m) := m.read host is_preprocess list 1
  let distance := (m.reader is_preprocess).size
  (command host is_preprocess list callDL (data.headD 0) distance m).map fun
    | .stop m => .stop m
    | .next m => .next { m with trace := m.trace ++
        [.command list opcodeStart (m.reader is_preprocess).Rbuffer] }

end

/-! ## lists -/

section

variable (host : Host) (run : DataReader → ListState → Except ListFault ListState)
  (address size : BitVec 32) (m : ListState)

/-- `InterpretDisplayList`, with `Run` for the list. -/
def interpretDisplayList : Except ListFault ListState :=
  (m.env.startAddress host false address size).bind fun (startAddress, env) =>
    let m := { m with env := env }
    match startAddress with
    | none => .ok m
    | some start =>
      let old := m.g_VideoData
      let list := ⟨start, start + size.setWidth 64⟩
      (run list { m with g_VideoData := list }).map fun m => { m with g_VideoData := old }

/-- `InterpretDisplayListPreprocess`, with `Run` for the list. -/
def interpretDisplayListPreprocess : Except ListFault ListState :=
  (m.env.startAddress host true address size).bind fun (startAddress, env) =>
    let m := { m with env := env }
    match startAddress with
    | none => .ok m
    | some start =>
      let old := m.dlist_reader
      let list := ⟨start, start + size.setWidth 64⟩
      (run list { m with dlist_reader := list }).map fun m => { m with dlist_reader := old }

/-- The one of the two for a decoder. -/
def displayList (is_preprocess : Bool) : Except ListFault ListState :=
  if is_preprocess then interpretDisplayListPreprocess host run address size m
  else interpretDisplayList host run address size m

end

/-- `Run` without checks of the size. -/
def Run (host : Host) (is_preprocess : Bool) :
    Nat → DataReader → ListState → Except ListFault ListState
  | 0, _, _ => .error .outOfFuel
  | fuel + 1, list, m =>
    if (m.reader is_preprocess).size = 0 then .ok m
    else
      (turn host is_preprocess list (fun address size m =>
        displayList host (Run host is_preprocess fuel) address size m is_preprocess) m).bind fun
          | .stop m => .ok m
          | .next m => Run host is_preprocess fuel list m

end ListState

end DolphinCore.GX
