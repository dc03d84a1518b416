import DolphinCore.FifoPlayer.FifoAnalyzer

/-!
# DolphinCore.FifoPlayer.FifoRecorder

The recorder appends the commands that the main decoder executed to the current
frame. Of the memory that they use it keeps a shadow, and logs what is not as the
shadow has it, at the position that the recorded commands have reached.

A frame that ended is handed to the file with the next command.
-/

namespace DolphinCore.FifoPlayer

open GX

/-! ## memory -/

/-- RAM (`false`) and EXRAM (`true`). -/
abbrev Memory := Bool → Nat → Byte

def RAM_SIZE : Nat := 2 ^ 25

def EXRAM_SIZE : Nat := 2 ^ 26

def bankSize (exram : Bool) : Nat := if exram then EXRAM_SIZE else RAM_SIZE

/-- Some bytes of a bank. -/
structure Region where
  exram : Bool
  start : Nat
  size : Nat
deriving DecidableEq

/-- The bytes from an address on; the size of a bank is a power of two. -/
def Region.at (address : BitVec 32) (size : Nat) : Region :=
  let exram := address.getLsbD 28
  ⟨exram, address.toNat % bankSize exram, size⟩

/-- The region lies in its bank. -/
def Region.Within (r : Region) : Prop := r.start + r.size ≤ bankSize r.exram

instance (r : Region) : Decidable r.Within := inferInstanceAs (Decidable (_ ≤ _))

namespace Memory

def zero : Memory := fun _ _ => 0

def read (m : Memory) (r : Region) : List Byte :=
  (List.range r.size).map fun i => m r.exram (r.start + i)

/-- The memory with `data` at the start of the region. -/
def write (m : Memory) (r : Region) (data : List Byte) : Memory := fun exram i =>
  if exram = r.exram ∧ r.start ≤ i ∧ i < r.start + data.length then data.getD (i - r.start) 0
  else m exram i

variable {m m' : Memory} {r r' : Region}

@[simp] theorem length_read (m : Memory) (r : Region) : (m.read r).length = r.size := by
  unfold read
  rw [List.length_map, List.length_range]

theorem read_congr (h : ∀ i < r.size, m r.exram (r.start + i) = m' r.exram (r.start + i)) :
    m.read r = m'.read r :=
  List.map_congr_left fun i hi => h i (List.mem_range.mp hi)

theorem read_getD {i : Nat} (hi : i < r.size) : (m.read r).getD i 0 = m r.exram (r.start + i) := by
  unfold read
  rw [List.getD_eq_getElem?_getD, List.getElem?_map, List.getElem?_range hi]
  rfl

theorem write_read_apply (m m' : Memory) (r : Region) (exram : Bool) (i : Nat) :
    m.write r (m'.read r) exram i =
      if exram = r.exram ∧ r.start ≤ i ∧ i < r.start + r.size then m' exram i else m exram i := by
  unfold write
  rw [length_read]
  split
  · next h =>
    obtain ⟨rfl, hle, hlt⟩ := h
    rw [read_getD (by omega), Nat.add_sub_cancel' hle]
  · rfl

theorem read_write_read (m m' : Memory) (r : Region) :
    (m.write r (m'.read r)).read r = m'.read r := by
  refine read_congr fun i hi => ?_
  rw [write_read_apply, if_pos ⟨rfl, by omega, by omega⟩]

end Memory

/-! ## the recorder -/

/-- Data that the recorder was given with a size other than the analyzer's. -/
structure SizeAlert where
  analyzed_size : Nat
  size : Nat

/-- `FifoRecorder`, and the analyzer that it uses. -/
structure FifoRecorder where
  m_IsRecording : Bool
  m_WasRecording : Bool
  m_RequestedRecordingEnd : Bool
  m_RecordFramesRemaining : Int
  m_File : Option FifoDataFile
  m_SkipNextData : Bool
  m_SkipFutureData : Bool
  m_FrameEnded : Bool
  m_CurrentFrame : FifoFrameInfo
  m_FifoData : List Byte
  /-- `m_Ram` and `m_ExRam` -/
  m_Ram : Memory
  analyzer : Analyzer
  alerts : List SizeAlert

/-- The file as it is made. -/
def FifoDataFile.new (isWii : Bool) : FifoDataFile :=
  ⟨fun _ => 0, fun _ => 0, fun _ => 0, fun _ => 0, fun _ => 0, if isWii then 1 else 0, 0, []⟩

namespace FifoRecorder

def StartRecording (r : FifoRecorder) (bWii : Bool) (numFrames : Int) : FifoRecorder :=
  let r := { r with m_File := some (.new bWii), m_Ram := .zero, m_RequestedRecordingEnd := false }
  if r.m_IsRecording then r
  else
    { r with
      m_WasRecording := false
      m_IsRecording := true
      m_RecordFramesRemaining := numFrames }

def StopRecording (r : FifoRecorder) : FifoRecorder := { r with m_RequestedRecordingEnd := true }

/-- `UseMemory`, of memory that the video backend did not write itself. -/
def UseMemory (r : FifoRecorder) (mem : Memory) (use : MemoryUse) : Option FifoRecorder :=
  let region := Region.at use.address use.size.toNat
  if ¬ region.Within then none
  else if r.m_Ram.read region = mem.read region then some r
  else
    let data := mem.read region
    let memUpdate : MemoryUpdate :=
      ⟨BitVec.ofNat 32 r.m_FifoData.length, use.address, data, use.type⟩
    some { r with
      m_Ram := r.m_Ram.write region data
      m_CurrentFrame := { r.m_CurrentFrame with
        memoryUpdates := r.m_CurrentFrame.memoryUpdates ++ [memUpdate] } }

/-- One use of memory after another. -/
def UseAll (r : FifoRecorder) (mem : Memory) : List MemoryUse → Option FifoRecorder
  | [] => some r
  | use :: uses => (r.UseMemory mem use).bind fun r => r.UseAll mem uses

/-- The analyzer looks at a command, and the command is appended to the data of the frame. -/
def append (r : FifoRecorder) (data : List Byte) : FifoRecorder :=
  let (analyzed_size, analyzer) := AnalyzeCommand r.analyzer data
  { r with
    analyzer := analyzer
    alerts :=
      if analyzed_size ≠ data.length then r.alerts ++ [⟨analyzed_size, data.length⟩] else r.alerts
    m_FifoData := r.m_FifoData ++ data }

/-- A frame that ended is added to the file. -/
def closeFrame (r : FifoRecorder) : FifoRecorder :=
  if r.m_FrameEnded ∧ r.m_FifoData ≠ [] then
    let frame := { r.m_CurrentFrame with fifoData := r.m_FifoData }
    { r with
      m_File := r.m_File.map fun file => file.AddFrame frame
      m_CurrentFrame := { frame with memoryUpdates := [] }
      m_FifoData := []
      m_FrameEnded := false }
  else r

/-- The next data is skipped when future data is. -/
def skipNext (r : FifoRecorder) : FifoRecorder := { r with m_SkipNextData := r.m_SkipFutureData }

def WriteGPCommand (r : FifoRecorder) (mem : Memory) (data : List Byte) : Option FifoRecorder :=
  (if r.m_SkipNextData then some r
    else (r.UseAll mem (commandUses r.analyzer.cpMem data)).map fun r => r.append data).map fun r =>
      r.closeFrame.skipNext

/-- The recording ends with the data that comes next. -/
def checkEnd (r : FifoRecorder) : FifoRecorder :=
  if r.m_RequestedRecordingEnd then { r with m_SkipFutureData := true, m_IsRecording := false }
  else r

def EndFrame (r : FifoRecorder) (fifoStart fifoEnd : BitVec 32) : FifoRecorder :=
  let r := { r with
    m_FrameEnded := true
    m_CurrentFrame := { r.m_CurrentFrame with fifoStart := fifoStart, fifoEnd := fifoEnd } }
  checkEnd <|
    if r.m_WasRecording then
      if r.m_RecordFramesRemaining > 0 then
        { r with
          m_RecordFramesRemaining := r.m_RecordFramesRemaining - 1
          m_RequestedRecordingEnd :=
            r.m_RequestedRecordingEnd || decide (r.m_RecordFramesRemaining - 1 = 0) }
      else r
    else
      -- skip the first data, which is the frame copy command
      { r with
        m_WasRecording := true
        m_SkipNextData := true
        m_SkipFutureData := false
        m_FrameEnded := false
        m_FifoData := [] }

/-- The registers of the analyzer that `Initialize` loads. -/
def Initialize (cpMem : Fin CP_MEM_SIZE → BitVec 32) (a : Analyzer) : Analyzer :=
  let m := LoadCPReg 0x60 (cpMem 0x60) (LoadCPReg 0x50 (cpMem 0x50) a.cpMem)
  let m := (List.finRange 8).foldl (fun m (i : Fin 8) =>
    LoadCPReg (0x70 + BitVec.ofNat 8 i) (cpMem (Fin.ofNat 256 (0x70 + i))) m) m
  ⟨{ m with
      arrayBases := fun i => cpMem (Fin.ofNat 256 (0xa0 + i))
      arrayStrides := fun i => cpMem (Fin.ofNat 256 (0xb0 + i)) }, false⟩

/-- `SetVideoMemory`; the other memories are copied as well. -/
def SetVideoMemory (r : FifoRecorder) (bpMem : Fin BP_MEM_SIZE → BitVec 32)
    (cpMem : Fin CP_MEM_SIZE → BitVec 32) (xfMem : Fin XF_MEM_SIZE → BitVec 32)
    (xfRegs : Fin XF_REGS_SIZE → BitVec 32) (texMem : Fin TEX_MEM_SIZE → Byte) : FifoRecorder :=
  { r with
    m_File := r.m_File.map fun file =>
      { file with m_BPMem := bpMem, m_CPMem := cpMem, m_XFMem := xfMem, m_XFRegs := xfRegs,
                  m_TexMem := texMem }
    analyzer := Initialize cpMem r.analyzer }

end FifoRecorder

end DolphinCore.FifoPlayer
