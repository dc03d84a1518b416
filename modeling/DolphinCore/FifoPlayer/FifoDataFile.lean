import DolphinCore.Lib.FinLiteral
import Mathlib.Data.BitVec
import DolphinCore.Lib.StdString

/-!
# DolphinCore.FifoPlayer.FifoDataFile

What a recording holds: the registers and the texture memory at its start, and
for each frame its GX commands and the changes of memory that they depend on.
-/

namespace DolphinCore.FifoPlayer

/-- `MemoryUpdate::Type` -/
inductive MemoryUpdateType where
  | TEXTURE_MAP
  | XF_DATA
  | VERTEX_STREAM
  | TMEM
deriving DecidableEq

/-- Memory that changed before the byte at `fifoPosition`. -/
structure MemoryUpdate where
  fifoPosition : BitVec 32
  address : BitVec 32
  data : List Byte
  type : MemoryUpdateType
deriving DecidableEq

/-- A frame; its updates are sorted by `fifoPosition`. -/
structure FifoFrameInfo where
  fifoData : List Byte
  fifoStart : BitVec 32
  fifoEnd : BitVec 32
  memoryUpdates : List MemoryUpdate
deriving DecidableEq

abbrev BP_MEM_SIZE : Nat := 256
abbrev CP_MEM_SIZE : Nat := 256
abbrev XF_MEM_SIZE : Nat := 4096
abbrev XF_REGS_SIZE : Nat := 96
abbrev TEX_MEM_SIZE : Nat := 1024 * 1024

/-- A recording. -/
structure FifoDataFile where
  m_BPMem : Fin BP_MEM_SIZE → BitVec 32
  m_CPMem : Fin CP_MEM_SIZE → BitVec 32
  m_XFMem : Fin XF_MEM_SIZE → BitVec 32
  m_XFRegs : Fin XF_REGS_SIZE → BitVec 32
  m_TexMem : Fin TEX_MEM_SIZE → Byte
  m_Flags : BitVec 32
  m_Version : BitVec 32
  m_Frames : List FifoFrameInfo

def FifoDataFile.AddFrame (f : FifoDataFile) (frameInfo : FifoFrameInfo) : FifoDataFile :=
  { f with m_Frames := f.m_Frames ++ [frameInfo] }

end DolphinCore.FifoPlayer
