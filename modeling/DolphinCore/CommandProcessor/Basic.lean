import Mathlib.Data.BitVec

/-!
# DolphinCore.CommandProcessor.Basic

The registers of the command FIFO, which the CPU thread and the GPU thread share,
and what the CPU reads of them.
-/

namespace DolphinCore.CommandProcessor

structure SCPFifoStruct where
  CPBase : BitVec 32
  CPEnd : BitVec 32
  CPHiWatermark : BitVec 32
  CPLoWatermark : BitVec 32
  CPReadWriteDistance : BitVec 32
  CPWritePointer : BitVec 32
  CPReadPointer : BitVec 32
  CPBreakpoint : BitVec 32
  SafeCPReadPointer : BitVec 32
  bFF_GPReadEnable : Bool
  bFF_BPEnable : Bool
  bFF_BPInt : Bool
  bFF_Breakpoint : Bool
  bFF_LoWatermarkInt : Bool
  bFF_HiWatermarkInt : Bool
  bFF_LoWatermark : Bool
  bFF_HiWatermark : Bool
deriving DecidableEq

namespace SCPFifoStruct

/-- `memset(&fifo, 0, sizeof(fifo))` -/
def zero : SCPFifoStruct :=
  ⟨0, 0, 0, 0, 0, 0, 0, 0, 0, false, false, false, false, false, false, false, false⟩

/-- `GATHER_PIPE_SIZE`, which is also the size of a read. -/
def GATHER_PIPE_SIZE : BitVec 32 := 32

/-- The slot after the one at a pointer: the slot at the end is followed by that at the base. -/
def nextSlot (fifo : SCPFifoStruct) (ptr : BitVec 32) : BitVec 32 :=
  if ptr = fifo.CPEnd then fifo.CPBase else ptr + GATHER_PIPE_SIZE

def atBreakpoint (fifo : SCPFifoStruct) : Bool :=
  fifo.bFF_BPEnable && fifo.CPReadPointer = fifo.CPBreakpoint

/-! ## reads of the registers -/

def readLow (reg : BitVec 32) : BitVec 16 := reg.extractLsb' 0 16

def readHigh (reg : BitVec 32) : BitVec 16 := reg.extractLsb' 16 16

/-- What is read of the distance: with a GPU thread it is computed from the safe read
pointer. -/
def rwDistance (fifo : SCPFifoStruct) (isOnThread : Bool) : BitVec 32 :=
  if isOnThread then
    if fifo.SafeCPReadPointer ≤ fifo.CPWritePointer then
      fifo.CPWritePointer - fifo.SafeCPReadPointer
    else fifo.CPEnd - fifo.SafeCPReadPointer + fifo.CPWritePointer - fifo.CPBase + 32
  else fifo.CPReadWriteDistance

/-- `FIFO_RW_DISTANCE_LO` -/
def rwDistanceLo (fifo : SCPFifoStruct) (isOnThread : Bool) : BitVec 16 :=
  readLow (fifo.rwDistance isOnThread)

/-- `FIFO_RW_DISTANCE_HI` -/
def rwDistanceHi (fifo : SCPFifoStruct) (isOnThread : Bool) : BitVec 16 :=
  readHigh (fifo.rwDistance isOnThread)

end SCPFifoStruct

/-- The configuration and `UseDeterministicGPUThread`. -/
inductive GPUMode where
  | singleCore
  | dualCore
  | deterministic
deriving DecidableEq

/-- `IsOnThread`: the GPU has a thread of its own. -/
def GPUMode.isOnThread : GPUMode → Bool
  | .singleCore => false
  | .dualCore => true
  | .deterministic => true

end DolphinCore.CommandProcessor
