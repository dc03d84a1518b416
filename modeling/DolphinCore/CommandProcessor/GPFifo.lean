import DolphinCore.CommandProcessor.Basic
import DolphinCore.Lib.Endian
import DolphinCore.PPCCache.Basic
import DolphinCore.Lib.RingPointer
import DolphinCore.Lib.Run

/-!
# DolphinCore.CommandProcessor.GPFifo

The gather pipe: the CPU writes numbers into it, and when it has 32 bytes or more
they go to the ring of the CPU FIFO in bursts. A burst also moves the registers of
a linked command FIFO, and mirrors them back where the GPU reads.

The pipe is the bytes in front of `gather_pipe_ptr`; its buffer has 512.

The bytes that are written into the gather pipe come to memory in order, in blocks
of 32 at the slots of the ring. The pointer into memory goes along with the write
pointer, which a linked command FIFO gives back as it is.
-/

namespace DolphinCore.CommandProcessor

open PPCCache

abbrev GATHER_PIPE_SIZE : Nat := 32

/-- The pipe, the registers of the CPU FIFO, those of the command FIFO, and memory. -/
structure GPFifo where
  s_gather_pipe : List (BitVec 8)
  Fifo_CPUBase : BitVec 32
  Fifo_CPUEnd : BitVec 32
  Fifo_CPUWritePointer : BitVec 32
  fifo : SCPFifoStruct
  GPLinkEnable : Bool
  GPReadEnable : Bool
  memory : Memory

namespace GPFifo

/-- `GatherPipeBursted`, as far as the registers of the FIFOs go. -/
def GatherPipeBursted (s : GPFifo) : GPFifo :=
  if !s.GPLinkEnable then s
  else
    -- update the fifo pointer
    let fifo := { s.fifo with CPWritePointer := s.fifo.nextSlot s.fifo.CPWritePointer }
    let s := if s.GPReadEnable && s.GPLinkEnable then
        { s with Fifo_CPUWritePointer := fifo.CPWritePointer, Fifo_CPUBase := fifo.CPBase
                 Fifo_CPUEnd := fifo.CPEnd }
      else s
    { s with fifo := { fifo with
        CPReadWriteDistance := fifo.CPReadWriteDistance + SCPFifoStruct.GATHER_PIPE_SIZE } }

/-- The loop of `UpdateGatherPipe`, with the bytes that are not processed yet. Where there is no
memory nothing can be copied. -/
def burstLoop (cur_mem : Option (BitVec 32)) (pipe : List (BitVec 8)) (s : GPFifo) :
    Option GPFifo :=
  if GATHER_PIPE_SIZE ≤ pipe.length then
    match cur_mem with
    | none => none
    | some pointer =>
      -- copy the GatherPipe
      let bytes := s.memory.bytes.write pointer (pipe.take GATHER_PIPE_SIZE)
      let s := { s with memory := { s.memory with bytes := bytes } }
      -- increase the CPUWritePointer
      if s.Fifo_CPUWritePointer = s.Fifo_CPUEnd then
        let s := { s with Fifo_CPUWritePointer := s.Fifo_CPUBase }
        burstLoop (getPointer s.memory s.Fifo_CPUWritePointer) (pipe.drop GATHER_PIPE_SIZE)
          s.GatherPipeBursted
      else
        let s := { s with Fifo_CPUWritePointer := s.Fifo_CPUWritePointer + 32 }
        burstLoop (some (pointer + 32)) (pipe.drop GATHER_PIPE_SIZE) s.GatherPipeBursted
  else some { s with s_gather_pipe := pipe }
termination_by pipe.length
decreasing_by all_goals grind

def UpdateGatherPipe (s : GPFifo) : Option GPFifo :=
  burstLoop (getPointer s.memory s.Fifo_CPUWritePointer) s.s_gather_pipe s

/-- `CheckGatherPipe`, and `FastCheckGatherPipe` -/
def CheckGatherPipe (s : GPFifo) : Option GPFifo :=
  if GATHER_PIPE_SIZE ≤ s.s_gather_pipe.length then s.UpdateGatherPipe else some s

/-- A number that is written. -/
inductive Value where
  | u8 (value : BitVec 8)
  | u16 (value : BitVec 16)
  | u32 (value : BitVec 32)
  | u64 (value : BitVec 64)

/-- The bytes that a write puts into the pipe: the number is swapped, and copied as it lies in
memory. -/
def Value.bytes : Value → List (BitVec 8)
  | .u8 value => Endian.toBE 1 value.toNat
  | .u16 value => Endian.toBE 2 value.toNat
  | .u32 value => Endian.toBE 4 value.toNat
  | .u64 value => Endian.toBE 8 value.toNat

/-- What is done with the pipe. -/
inductive Action where
  /-- `FastWrite8` to `FastWrite64` -/
  | fastWrite (value : Value)
  /-- `Write8` to `Write64` -/
  | write (value : Value)
  /-- `CheckGatherPipe`, or `FastCheckGatherPipe` -/
  | check

/-- What an action puts into the pipe. -/
def Action.bytes : Action → List (BitVec 8)
  | .fastWrite value | .write value => value.bytes
  | .check => []

def fastWrite (s : GPFifo) (value : Value) : GPFifo :=
  { s with s_gather_pipe := s.s_gather_pipe ++ value.bytes }

def step (s : GPFifo) : Action → Option GPFifo
  | .fastWrite value => some (s.fastWrite value)
  | .write value => (s.fastWrite value).CheckGatherPipe
  | .check => s.CheckGatherPipe

end GPFifo

end DolphinCore.CommandProcessor

namespace DolphinCore.CommandProcessor

open PPCCache

/-! ## memory -/

theorem getPointer_congr {mem mem' : Memory} (h : mem'.exram = mem.exram) (address : BitVec 32) :
    getPointer mem' address = getPointer mem address := by
  unfold getPointer
  rw [h]

theorem toNat_and_30 (x : BitVec 32) : (x &&& 0x3FFFFFFF).toNat = x.toNat % 2 ^ 30 := by
  exact Nat.and_two_pow_sub_one_eq_mod _ 30

theorem getPointer_eq_some {mem : Memory} {x pointer : BitVec 32}
    (h : getPointer mem x = some pointer) : pointer.toNat = x.toNat % 2 ^ 30 ∧
      (x.toNat % 2 ^ 30 < 0x02000000 ∨
        0x10000000 ≤ x.toNat % 2 ^ 30 ∧ x.toNat % 2 ^ 30 < 0x14000000) := by
  have hmask := toNat_and_30 x
  unfold getPointer at h
  dsimp only at h
  generalize x &&& 0x3FFFFFFF = y at h hmask
  rw [← hmask]
  split at h
  · next hram =>
    obtain rfl := Option.some.inj h
    exact ⟨rfl, .inl hram⟩
  · split at h
    · next hram hexram =>
      simp only [Bool.and_eq_true, decide_eq_true_eq] at hexram
      obtain ⟨⟨-, hhigh⟩, hlow⟩ := hexram
      have hhigh : y.toNat / 2 ^ 28 = 1 := by
        have := congrArg BitVec.toNat hhigh
        rwa [BitVec.toNat_ushiftRight, Nat.shiftRight_eq_div_pow] at this
      have hand : (y &&& 0x0fffffff).toNat = y.toNat % 2 ^ 28 := by
        exact Nat.and_two_pow_sub_one_eq_mod _ 28
      have hlow : y.toNat % 2 ^ 28 < 0x04000000 := by
        rw [← hand]
        exact hlow
      have hoffset : (y &&& 0x03ffffff).toNat = y.toNat % 2 ^ 26 := by
        exact Nat.and_two_pow_sub_one_eq_mod _ 26
      obtain rfl := Option.some.inj h
      rw [BitVec.toNat_add, hoffset]
      have hbase : (0x10000000 : BitVec 32).toNat = 0x10000000 := rfl
      omega
    · cases h

theorem getPointer_add {mem : Memory} {x pointer : BitVec 32} (h : getPointer mem x = some pointer)
    (hnext : (getPointer mem (x + 32)).isSome) : getPointer mem (x + 32) = some (pointer + 32) := by
  obtain ⟨next, hnext⟩ := Option.isSome_iff_exists.mp hnext
  obtain ⟨hpointer, hfrom⟩ := getPointer_eq_some h
  obtain ⟨hn, hto⟩ := getPointer_eq_some hnext
  rw [hnext]
  congr 1
  have hadd : (x + 32).toNat = (x.toNat + 32) % 2 ^ 32 := BitVec.toNat_add ..
  have hthirty : (32 : BitVec 32).toNat = 32 := rfl
  refine BitVec.eq_of_toNat_eq ?_
  rw [BitVec.toNat_add, hn, hpointer, hadd, hthirty]
  omega

namespace GPFifo

/-! ## the ring -/

/-- The CPU FIFO lies in memory, its write pointer is at one of its slots, and where the burst
mirrors the registers of the command FIFO the two are in sync. -/
structure Ready (s : GPFifo) : Prop where
  base_aligned : s.Fifo_CPUBase.toNat % 32 = 0
  end_aligned : s.Fifo_CPUEnd.toNat % 32 = 0
  aligned : s.Fifo_CPUWritePointer.toNat % 32 = 0
  base_le : s.Fifo_CPUBase ≤ s.Fifo_CPUWritePointer
  le_end : s.Fifo_CPUWritePointer ≤ s.Fifo_CPUEnd
  inMemory : ∀ x, s.Fifo_CPUBase ≤ x → x ≤ s.Fifo_CPUEnd → (getPointer s.memory x).isSome
  sync : s.GPLinkEnable → s.GPReadEnable → s.fifo.CPBase = s.Fifo_CPUBase ∧
    s.fifo.CPEnd = s.Fifo_CPUEnd ∧ s.fifo.CPWritePointer = s.Fifo_CPUWritePointer

/-- The slots of the ring. -/
def ringSlots (s : GPFifo) : Nat := (s.Fifo_CPUEnd.toNat - s.Fifo_CPUBase.toNat) / 32 + 1

/-- The slot of the write pointer. -/
def firstSlot (s : GPFifo) : Nat := (s.Fifo_CPUWritePointer.toNat - s.Fifo_CPUBase.toNat) / 32

/-- The address of the slot that is `k` behind the write pointer, around the ring. -/
def slot (s : GPFifo) (k : Nat) : BitVec 32 :=
  BitVec.ofNat 32 (slotAddr s.Fifo_CPUBase.toNat 32 s.ringSlots (s.firstSlot + k))

/-- Memory with the first blocks of some bytes at the slots from the write pointer on. -/
def blocksWritten (s : GPFifo) (bytes : List (BitVec 8)) : Nat → Memory
  | 0 => s.memory
  | k + 1 =>
    let memory := blocksWritten s bytes k
    match getPointer s.memory (s.slot k) with
    | none => memory
    | some pointer =>
      { memory with bytes := memory.bytes.write pointer ((bytes.drop (32 * k)).take 32) }

variable {s s₀ : GPFifo}

theorem blocksWritten_exram (s : GPFifo) (bytes : List (BitVec 8)) (k : Nat) :
    (s.blocksWritten bytes k).exram = s.memory.exram := by
  induction k with
  | zero => rfl
  | succ k ih =>
    unfold blocksWritten
    split <;> exact ih

variable {k : Nat} {written : List (BitVec 8)}

theorem blocksWritten_append (s : GPFifo) {bytes : List (BitVec 8)} (h : 32 * k ≤ bytes.length)
    (more : List (BitVec 8)) :
    s.blocksWritten (bytes ++ more) k = s.blocksWritten bytes k := by
  induction k with
  | zero => rfl
  | succ k ih =>
    have hblock : ((bytes ++ more).drop (32 * k)).take 32 = (bytes.drop (32 * k)).take 32 := by
      rw [List.drop_append_of_le_length (by omega), List.take_append_of_le_length]
      rw [List.length_drop]
      omega
    rw [blocksWritten, blocksWritten, ih (by omega), hblock]

theorem Ready.end_eq (h : s.Ready) :
    s.Fifo_CPUEnd.toNat = s.Fifo_CPUBase.toNat + 32 * (s.ringSlots - 1) := by
  have hle : s.Fifo_CPUBase.toNat ≤ s.Fifo_CPUWritePointer.toNat := h.base_le
  have hend : s.Fifo_CPUWritePointer.toNat ≤ s.Fifo_CPUEnd.toNat := h.le_end
  have := h.base_aligned
  have := h.end_aligned
  unfold ringSlots
  omega

theorem ringSlots_pos (s : GPFifo) : 0 < s.ringSlots := Nat.succ_pos _

theorem Ready.slot_bounds (h : s.Ready) (k : Nat) :
    (s.slot k).toNat = slotAddr s.Fifo_CPUBase.toNat 32 s.ringSlots (s.firstSlot + k) ∧
      s.Fifo_CPUBase ≤ s.slot k ∧ s.slot k ≤ s.Fifo_CPUEnd ∧ (s.slot k).toNat % 32 = 0 := by
  have hend := h.end_eq
  have hbase := h.base_aligned
  have hge := @le_slotAddr s.Fifo_CPUBase.toNat 32 s.ringSlots (s.firstSlot + k)
  have hle := @slotAddr_le s.Fifo_CPUBase.toNat 32 s.ringSlots s.ringSlots_pos (s.firstSlot + k)
  have hslot : (s.slot k).toNat =
      slotAddr s.Fifo_CPUBase.toNat 32 s.ringSlots (s.firstSlot + k) := by
    unfold slot
    rw [BitVec.toNat_ofNat, Nat.mod_eq_of_lt (by omega)]
  refine ⟨hslot, ?_, ?_, ?_⟩
  · rw [BitVec.le_def]
    omega
  · rw [BitVec.le_def]
    omega
  · rw [hslot, slotAddr]
    omega

theorem Ready.slot_zero (h : s.Ready) : s.slot 0 = s.Fifo_CPUWritePointer := by
  have hle : s.Fifo_CPUBase.toNat ≤ s.Fifo_CPUWritePointer.toNat := h.base_le
  have hend : s.Fifo_CPUWritePointer.toNat ≤ s.Fifo_CPUEnd.toNat := h.le_end
  have := h.base_aligned
  have := h.aligned
  refine BitVec.eq_of_toNat_eq ?_
  rw [(h.slot_bounds 0).1, slotAddr_of_lt (by unfold firstSlot ringSlots; omega)]
  unfold firstSlot
  omega

theorem Ready.slot_succ (h : s.Ready) (k : Nat) :
    s.slot (k + 1) = ringNext s.Fifo_CPUBase s.Fifo_CPUEnd 32 (s.slot k) := by
  refine BitVec.eq_of_toNat_eq ?_
  rw [(h.slot_bounds (k + 1)).1]
  exact (toNat_ringNext (show 0 < (32 : BitVec 32).toNat by decide) s.ringSlots_pos h.end_eq
    (h.slot_bounds k).1).symm

/-! ## a burst -/

/-- The bytes up to the pipe are in memory, and the rest of `written` is in the pipe. -/
structure Gathered (s₀ : GPFifo) (written : List (BitVec 8)) (k : Nat) (s : GPFifo) : Prop where
  blocks : 32 * k ≤ written.length
  pipe : s.s_gather_pipe = written.drop (32 * k)
  memory : s.memory = s₀.blocksWritten written k
  writePointer : s.Fifo_CPUWritePointer = s₀.slot k
  base : s.Fifo_CPUBase = s₀.Fifo_CPUBase
  end_ : s.Fifo_CPUEnd = s₀.Fifo_CPUEnd
  link : s.GPLinkEnable = s₀.GPLinkEnable ∧ s.GPReadEnable = s₀.GPReadEnable
  sync : s.GPLinkEnable → s.GPReadEnable → s.fifo.CPBase = s.Fifo_CPUBase ∧
    s.fifo.CPEnd = s.Fifo_CPUEnd ∧ s.fifo.CPWritePointer = s.Fifo_CPUWritePointer

/-- The registers of the command FIFO are those of the CPU FIFO, but for a burst that they have
still to follow. -/
structure Follows (s : GPFifo) : Prop where
  base : s.fifo.CPBase = s.Fifo_CPUBase
  end_ : s.fifo.CPEnd = s.Fifo_CPUEnd
  writePointer : s.fifo.nextSlot s.fifo.CPWritePointer = s.Fifo_CPUWritePointer

/-- **The callback** of a burst leaves the registers of the CPU FIFO as they are. -/
theorem bursted_spec (h : s.GPLinkEnable → s.GPReadEnable → s.Follows) :
    s.GatherPipeBursted.s_gather_pipe = s.s_gather_pipe ∧ s.GatherPipeBursted.memory = s.memory ∧
      s.GatherPipeBursted.Fifo_CPUWritePointer = s.Fifo_CPUWritePointer ∧
      s.GatherPipeBursted.Fifo_CPUBase = s.Fifo_CPUBase ∧
      s.GatherPipeBursted.Fifo_CPUEnd = s.Fifo_CPUEnd ∧
      (s.GatherPipeBursted.GPLinkEnable = s.GPLinkEnable ∧
        s.GatherPipeBursted.GPReadEnable = s.GPReadEnable) ∧
      (s.GPLinkEnable → s.GPReadEnable → s.GatherPipeBursted.fifo.CPBase = s.Fifo_CPUBase ∧
        s.GatherPipeBursted.fifo.CPEnd = s.Fifo_CPUEnd ∧
        s.GatherPipeBursted.fifo.CPWritePointer = s.Fifo_CPUWritePointer) := by
  unfold GatherPipeBursted
  cases hlink : s.GPLinkEnable with
  | false => simp [hlink]
  | true =>
    cases hread : s.GPReadEnable with
    | false => simp [hlink, hread]
    | true =>
      obtain ⟨hbase, hend, hwp⟩ := h hlink hread
      simp [hbase, hend, hwp]

/-- The CPU FIFO behind a block that was copied. -/
def copied (s : GPFifo) (pointer : BitVec 32) (block : List (BitVec 8)) : GPFifo :=
  { s with
    memory := { s.memory with bytes := s.memory.bytes.write pointer block }
    Fifo_CPUWritePointer := ringNext s.Fifo_CPUBase s.Fifo_CPUEnd 32 s.Fifo_CPUWritePointer }

theorem burstLoop_next {pipe : List (BitVec 8)} (hlen : GATHER_PIPE_SIZE ≤ pipe.length)
    {pointer : BitVec 32} (hpointer : getPointer s.memory s.Fifo_CPUWritePointer = some pointer)
    (hnext : (getPointer s.memory
      (ringNext s.Fifo_CPUBase s.Fifo_CPUEnd 32 s.Fifo_CPUWritePointer)).isSome) :
    burstLoop (getPointer s.memory s.Fifo_CPUWritePointer) pipe s = burstLoop (getPointer s.memory
          (ringNext s.Fifo_CPUBase s.Fifo_CPUEnd 32 s.Fifo_CPUWritePointer))
        (pipe.drop GATHER_PIPE_SIZE)
        (s.copied pointer (pipe.take GATHER_PIPE_SIZE)).GatherPipeBursted := by
  rw [hpointer, burstLoop, if_pos hlen]
  unfold ringNext at hnext ⊢
  unfold copied ringNext
  dsimp only
  split
  · exact congrArg (burstLoop · _ _) (getPointer_congr rfl _)
  · next hend =>
    rw [if_neg hend] at hnext
    rw [getPointer_add hpointer hnext]

/-- A block that was copied, and the callback behind it. -/
theorem Gathered.next (h₀ : s₀.Ready) {written pipe : List (BitVec 8)}
    (h : Gathered s₀ written k { s with s_gather_pipe := pipe })
    (hlen : GATHER_PIPE_SIZE ≤ pipe.length) :
    ∃ pointer, getPointer s.memory s.Fifo_CPUWritePointer = some pointer ∧ (getPointer s.memory
        (ringNext s.Fifo_CPUBase s.Fifo_CPUEnd 32 s.Fifo_CPUWritePointer)).isSome ∧
      getPointer s.memory (ringNext s.Fifo_CPUBase s.Fifo_CPUEnd 32 s.Fifo_CPUWritePointer) =
        getPointer (s.copied pointer (pipe.take GATHER_PIPE_SIZE)).GatherPipeBursted.memory
          (s.copied pointer (pipe.take GATHER_PIPE_SIZE)).GatherPipeBursted.Fifo_CPUWritePointer ∧
      Gathered s₀ written (k + 1)
        { (s.copied pointer (pipe.take GATHER_PIPE_SIZE)).GatherPipeBursted with
          s_gather_pipe := pipe.drop GATHER_PIPE_SIZE } := by
  obtain ⟨hblocks, hpipe, hmemory, hwp, hbase, hend, hlink, hsync⟩ := h
  dsimp only at hpipe hmemory hwp hbase hend hlink hsync
  have hexram : s.memory.exram = s₀.memory.exram := by
    rw [hmemory, blocksWritten_exram]
  obtain ⟨-, hge, hle, -⟩ := h₀.slot_bounds k
  obtain ⟨-, hge', hle', -⟩ := h₀.slot_bounds (k + 1)
  obtain ⟨pointer, hpointer⟩ := Option.isSome_iff_exists.mp (h₀.inMemory _ hge hle)
  have hslot : ringNext s.Fifo_CPUBase s.Fifo_CPUEnd 32 s.Fifo_CPUWritePointer =
      s₀.slot (k + 1) := by
    rw [hbase, hend, hwp, h₀.slot_succ]
  have hfollows : s.GPLinkEnable → s.GPReadEnable →
      (s.copied pointer (pipe.take GATHER_PIPE_SIZE)).Follows := by
    intro hl hr
    obtain ⟨hb, he, hw⟩ := hsync hl hr
    refine ⟨hb, he, ?_⟩
    show s.fifo.nextSlot s.fifo.CPWritePointer = ringNext _ _ _ _
    rw [hw, SCPFifoStruct.nextSlot, hb, he]
    rfl
  obtain ⟨-, hmemory', hwp', hbase', hend', hlink', hsync'⟩ :=
    @bursted_spec (s.copied pointer (pipe.take GATHER_PIPE_SIZE)) hfollows
  refine ⟨pointer, ?_, ?_, ?_, ?_, ?_, ?_, ?_, ?_, ?_, ?_, ?_⟩
  · rw [getPointer_congr hexram, hwp, hpointer]
  · rw [getPointer_congr hexram, hslot]
    exact h₀.inMemory _ hge' hle'
  · rw [hmemory', hwp']
    exact (getPointer_congr rfl _).symm
  · rw [hpipe, List.length_drop] at hlen
    have hblock : 32 ≤ written.length - 32 * k := hlen
    omega
  · rw [hpipe, List.drop_drop, Nat.mul_succ]
  · rw [hmemory', blocksWritten, hpointer]
    show ({ s.memory with bytes := _ } : Memory) = _
    rw [hpipe, hmemory]
  · exact hwp'.trans hslot
  · exact hbase'.trans hbase
  · exact hend'.trans hend
  · exact ⟨hlink'.1.trans hlink.1, hlink'.2.trans hlink.2⟩
  · intro hl hr
    obtain ⟨hb, he, hw⟩ := hsync' (hlink'.1 ▸ hl) (hlink'.2 ▸ hr)
    exact ⟨hb.trans hbase'.symm, he.trans hend'.symm, hw.trans hwp'.symm⟩

/-- **The loop** brings all blocks of the pipe to memory. -/
theorem burstLoop_gathered (h₀ : s₀.Ready) {written pipe : List (BitVec 8)}
    (h : Gathered s₀ written k { s with s_gather_pipe := pipe }) :
    ∃ k' s', burstLoop (getPointer s.memory s.Fifo_CPUWritePointer) pipe s = some s' ∧
      Gathered s₀ written k' s' ∧ s'.s_gather_pipe.length < GATHER_PIPE_SIZE := by
  induction hn : pipe.length using Nat.strongRecOn generalizing s pipe k with
  | _ n ih =>
    by_cases hlen : GATHER_PIPE_SIZE ≤ pipe.length
    · obtain ⟨pointer, hpointer, hnext, hagain, hgathered⟩ := h.next h₀ hlen
      rw [burstLoop_next hlen hpointer hnext, hagain]
      exact ih _ (by rw [List.length_drop]; unfold GATHER_PIPE_SIZE at *; omega) hgathered rfl
    · rw [burstLoop.eq_def, if_neg hlen]
      exact ⟨k, _, rfl, h, Nat.lt_of_not_le hlen⟩

/-! ## writes -/

theorem CheckGatherPipe_gathered (h₀ : s₀.Ready) (h : Gathered s₀ written k s) :
    ∃ k' s', s.CheckGatherPipe = some s' ∧
      Gathered s₀ written k' s' ∧ s'.s_gather_pipe.length < GATHER_PIPE_SIZE := by
  unfold CheckGatherPipe
  split
  · exact burstLoop_gathered h₀ h
  · next hlen => exact ⟨k, s, rfl, h, Nat.lt_of_not_le hlen⟩

theorem Gathered.fastWrite (h : Gathered s₀ written k s) (value : Value) :
    Gathered s₀ (written ++ value.bytes) k (s.fastWrite value) := by
  refine ⟨?_, ?_, ?_, h.writePointer, h.base, h.end_, h.link, h.sync⟩
  · rw [List.length_append]
    exact Nat.le_add_right_of_le h.blocks
  · show s.s_gather_pipe ++ _ = _
    rw [h.pipe, List.drop_append_of_le_length h.blocks]
  · exact h.memory.trans (s₀.blocksWritten_append h.blocks _).symm

/-- An action that ends with a check. -/
def Action.checked : Action → Prop
  | .fastWrite _ => False
  | .write _ | .check => True

/-- **One action**: nothing is lost, and a check leaves less than a block. -/
theorem step_gathered (h₀ : s₀.Ready) (h : Gathered s₀ written k s) (a : Action) :
    ∃ k' s', s.step a = some s' ∧ Gathered s₀ (written ++ a.bytes) k' s' ∧
      (a.checked → s'.s_gather_pipe.length < GATHER_PIPE_SIZE) := by
  cases a with
  | fastWrite value => exact ⟨k, _, rfl, h.fastWrite value, nofun⟩
  | write value =>
    obtain ⟨k', s', hs', hg, hlen⟩ := CheckGatherPipe_gathered h₀ (h.fastWrite value)
    exact ⟨k', s', hs', hg, fun _ => hlen⟩
  | check =>
    obtain ⟨k', s', hs', hg, hlen⟩ := CheckGatherPipe_gathered h₀ h
    refine ⟨k', s', hs', ?_, fun _ => hlen⟩
    rw [show Action.check.bytes = [] from rfl, List.append_nil]
    exact hg

/-- A step, with the bytes that were written so far. -/
def tracedStep (t : GPFifo × List (BitVec 8)) (a : Action) : Option (GPFifo × List (BitVec 8)) :=
  (t.1.step a).map (·, t.2 ++ a.bytes)

/-- The pipe has room for any number before a write. -/
def HasRoom (t : GPFifo × List (BitVec 8)) (a : Action) : Prop :=
  a.bytes ≠ [] → t.1.s_gather_pipe.length ≤ 16 * GATHER_PIPE_SIZE - 8

instance (t : GPFifo × List (BitVec 8)) (a : Action) : Decidable (HasRoom t a) :=
  inferInstanceAs (Decidable (_ → _))

theorem gathered_start (h : s.Ready) : Gathered s s.s_gather_pipe 0 s :=
  ⟨Nat.zero_le _, rfl, rfl, h.slot_zero.symm, rfl, rfl, ⟨rfl, rfl⟩, h.sync⟩

/-- A ring of two blocks at the front of RAM, linked, with the write pointer at its end. -/
def twoBlocks : GPFifo where
  s_gather_pipe := []
  Fifo_CPUBase := 0x100
  Fifo_CPUEnd := 0x120
  Fifo_CPUWritePointer := 0x120
  fifo := { SCPFifoStruct.zero with CPBase := 0x100, CPEnd := 0x120, CPWritePointer := 0x120 }
  GPLinkEnable := true
  GPReadEnable := true
  memory := ⟨fun _ => 0, false⟩

theorem twoBlocks_ready : twoBlocks.Ready where
  base_aligned := rfl
  end_aligned := rfl
  aligned := rfl
  base_le := by decide
  le_end := by decide
  inMemory x _ hle := by
    have hram : x &&& 0x3FFFFFFF < 0x02000000 := by
      rw [BitVec.lt_def, toNat_and_30]
      exact Nat.lt_of_le_of_lt (Nat.mod_le _ _) (Nat.lt_of_le_of_lt hle (by decide))
    unfold getPointer
    rw [if_pos hram]
    rfl
  sync _ _ := ⟨rfl, rfl, rfl⟩

end GPFifo

end DolphinCore.CommandProcessor
