import DolphinCore.CommandProcessor.Basic
import DolphinCore.Lib.RingPointer
import DolphinCore.Lib.Run

/-!
# DolphinCore.CommandProcessor.RingDistance

The linked FIFO: the CPU writes blocks of 32 bytes through its gather pipe, the
GPU reads them, and both go round the ring from `CPBase` to `CPEnd`. A pointer and
the distance are updated one after the other, on two threads in dual core mode.
-/

namespace DolphinCore.CommandProcessor

/-! ## the two sides -/

/-- How far `GatherPipeBursted` is. -/
inductive Burst where
  | idle
  /-- `CPWritePointer` is updated, the distance is not. -/
  | written
deriving DecidableEq

/-- How far a read is. -/
inductive Reading where
  | idle
  /-- The block is copied; `readPtr` is already that of the next one. -/
  | copied (readPtr : BitVec 32)
  /-- `CPReadPointer` is updated, the distance is not. -/
  | advanced
  /-- The distance is updated, `SafeCPReadPointer` may have to be. -/
  | subtracted
deriving DecidableEq

/-- The registers, where both sides are, and how many blocks were put into the FIFO and taken
out of it. -/
structure Link where
  fifo : SCPFifoStruct
  burst : Burst
  reading : Reading
  written : Nat
  fetched : Nat
deriving DecidableEq

inductive LinkAction where
  /-- The control register and the breakpoint are set. -/
  | control (readEnable bpEnable : Bool) (breakpoint : BitVec 32)
  | burst
  | addDistance
  /-- `RunGpuLoop` or `RunGpuOnCpu` copies a block. -/
  | fetch
  | advance
  | subtract
  /-- The end of a read of `RunGpuLoop`, where the decoder left nothing unread or not. -/
  | finish (allRead : Bool)

namespace Link

/-- The GPU may read. -/
def canRead (fifo : SCPFifoStruct) : Bool :=
  fifo.bFF_GPReadEnable && fifo.CPReadWriteDistance ≠ 0 && !fifo.atBreakpoint

/-- A step of `GatherPipeBursted` or of a read. Without a GPU thread of its own, or with the
deterministic one, the CPU thread does both, and neither within the other. -/
def step (mode : GPUMode) (s : Link) : LinkAction → Option Link
  | .control readEnable bpEnable breakpoint =>
    if s.burst = .idle then
      some { s with fifo := { s.fifo with bFF_GPReadEnable := readEnable, bFF_BPEnable := bpEnable,
                                          CPBreakpoint := breakpoint } }
    else none
  | .burst =>
    if s.burst = .idle ∧ (mode = .dualCore ∨ s.reading = .idle) then
      some { s with fifo := { s.fifo with CPWritePointer := s.fifo.nextSlot s.fifo.CPWritePointer },
                    burst := .written, written := s.written + 1 }
    else none
  | .addDistance =>
    if s.burst = .written then
      let distance := s.fifo.CPReadWriteDistance + SCPFifoStruct.GATHER_PIPE_SIZE
      some { s with fifo := { s.fifo with CPReadWriteDistance := distance }, burst := .idle }
    else none
  | .fetch =>
    if s.reading = .idle ∧ canRead s.fifo ∧ (mode = .dualCore ∨ s.burst = .idle) then
      some { s with reading := .copied (s.fifo.nextSlot s.fifo.CPReadPointer),
                    fetched := s.fetched + 1 }
    else none
  | .advance =>
    match s.reading with
    | .copied readPtr =>
      some { s with fifo := { s.fifo with CPReadPointer := readPtr }, reading := .advanced }
    | _ => none
  | .subtract =>
    if s.reading = .advanced then
      some { s with fifo := { s.fifo with CPReadWriteDistance := s.fifo.CPReadWriteDistance - 32 },
                    reading := if mode = .dualCore then .subtracted else .idle }
    else none
  | .finish allRead =>
    if s.reading = .subtracted then
      let safe := if allRead then s.fifo.CPReadPointer else s.fifo.SafeCPReadPointer
      some { s with fifo := { s.fifo with SafeCPReadPointer := safe }, reading := .idle }
    else none

/-- `CPEnd - CPBase + 32`: the slot at the end belongs to the ring. -/
def ringSize (fifo : SCPFifoStruct) : Nat := fifo.CPEnd.toNat - fifo.CPBase.toNat + 32

/-- A burst never writes beyond the capacity of the FIFO. -/
def StepOk (s : Link) : LinkAction → Prop
  | .burst => 32 * (s.written - s.fetched) + 32 ≤ ringSize s.fifo
  | _ => True

instance (s : Link) : (a : LinkAction) → Decidable (StepOk s a)
  | .burst => inferInstanceAs (Decidable (_ ≤ _))
  | .control .. | .addDistance | .fetch | .advance | .subtract | .finish _ =>
    inferInstanceAs (Decidable True)

/-- A pointer stays within the ring. -/
def Within (fifo : SCPFifoStruct) (ptr : BitVec 32) : Prop := fifo.CPBase ≤ ptr ∧ ptr ≤ fifo.CPEnd

/-- An empty FIFO whose pointers are at the same slot. -/
structure Linked (fifo : SCPFifoStruct) : Prop where
  base_aligned : fifo.CPBase.toNat % 32 = 0
  end_aligned : fifo.CPEnd.toNat % 32 = 0
  base_lt : fifo.CPBase < fifo.CPEnd
  empty : fifo.CPReadPointer = fifo.CPWritePointer ∧ fifo.CPReadWriteDistance = 0
  write : Within fifo fifo.CPWritePointer ∧ fifo.CPWritePointer.toNat % 32 = 0
  safe : Within fifo fifo.SafeCPReadPointer

def start (fifo : SCPFifoStruct) : Link := ⟨fifo, .idle, .idle, 0, 0⟩

/-! ## the ring -/

/-- The slots of a ring. -/
def slots (fifo : SCPFifoStruct) : Nat := ringSize fifo / 32

/-- The pointer is at the slot after `k` ones, counted from the base. -/
def At (fifo : SCPFifoStruct) (k : Nat) (ptr : BitVec 32) : Prop :=
  ptr.toNat = slotAddr fifo.CPBase.toNat 32 (slots fifo) k

section

variable {fifo : SCPFifoStruct}

theorem slots_pos : 0 < slots fifo := by
  unfold slots ringSize
  omega

theorem Linked.ringSize_eq (h : Linked fifo) : ringSize fifo = 32 * slots fifo := by
  have := h.base_aligned
  have := h.end_aligned
  unfold slots ringSize
  omega

theorem Linked.end_eq (h : Linked fifo) :
    fifo.CPEnd.toNat = fifo.CPBase.toNat + 32 * (slots fifo - 1) := by
  have hlt : fifo.CPBase.toNat < fifo.CPEnd.toNat := h.base_lt
  have hsize := h.ringSize_eq
  unfold ringSize at hsize
  omega

theorem Linked.ringSize_le (h : Linked fifo) : ringSize fifo ≤ 2 ^ 32 := by
  have := h.end_aligned
  unfold ringSize
  omega

theorem At.within {k : Nat} {ptr : BitVec 32} (hl : Linked fifo) (h : At fifo k ptr) :
    Within fifo ptr := by
  constructor
  · rw [BitVec.le_def, h]
    exact le_slotAddr k
  · rw [BitVec.le_def, h, hl.end_eq]
    exact slotAddr_le slots_pos k

theorem At.next {k : Nat} {ptr : BitVec 32} (hl : Linked fifo) (h : At fifo k ptr) :
    At fifo (k + 1) (fifo.nextSlot ptr) :=
  toNat_ringNext (by decide) slots_pos hl.end_eq h

theorem Linked.at_start (h : Linked fifo) : ∃ k, At fifo k fifo.CPWritePointer := by
  obtain ⟨⟨hbase, hend⟩, halign⟩ := h.write
  have hbase : fifo.CPBase.toNat ≤ fifo.CPWritePointer.toNat := hbase
  have hend : fifo.CPWritePointer.toNat ≤ fifo.CPEnd.toNat := hend
  have hb := h.base_aligned
  have he := h.end_eq
  have hn : 0 < slots fifo := slots_pos
  refine ⟨(fifo.CPWritePointer.toNat - fifo.CPBase.toNat) / 32, ?_⟩
  rw [At, slotAddr_of_lt (by omega)]
  omega

end

/-! ## the invariant -/

/-- How many blocks the distance counts as written. -/
def added (s : Link) : Nat := s.written - if s.burst = .written then 1 else 0

/-- How many slots the read pointer has passed. -/
def passed (s : Link) : Nat :=
  match s.reading with
  | .copied _ => s.fetched - 1
  | _ => s.fetched

/-- How many blocks the distance counts as read. -/
def subtracted (s : Link) : Nat :=
  match s.reading with
  | .copied _ | .advanced => s.fetched - 1
  | _ => s.fetched

theorem subtracted_le (s : Link) : s.subtracted ≤ s.fetched := by
  obtain ⟨f, burst, reading, written, fetched⟩ := s
  cases reading with
  | idle => exact Nat.le_refl _
  | copied readPtr => exact Nat.sub_le _ _
  | advanced => exact Nat.sub_le _ _
  | subtracted => exact Nat.le_refl _

/-- The pointers are as far from the slot at which they started as blocks were written and
read, and the distance counts the blocks between. -/
structure Counted (fifo : SCPFifoStruct) (k : Nat) (s : Link) : Prop where
  fixed : s.fifo.CPBase = fifo.CPBase ∧ s.fifo.CPEnd = fifo.CPEnd
  write : At fifo (k + s.written) s.fifo.CPWritePointer
  read : At fifo (k + s.passed) s.fifo.CPReadPointer
  next : ∀ readPtr, s.reading = .copied readPtr → At fifo (k + s.fetched) readPtr
  pos : s.reading ≠ .idle → 0 < s.fetched
  written_pos : s.burst = .written → 0 < s.written
  fetched_le : s.fetched ≤ s.added
  capacity : s.written - s.fetched ≤ slots fifo
  distance : s.fifo.CPReadWriteDistance.toNat = 32 * (s.added - s.subtracted) % 2 ^ 32
  safe : Within fifo s.fifo.SafeCPReadPointer

section

variable {fifo : SCPFifoStruct} {k : Nat} {mode : GPUMode} {s t : Link}

theorem nextSlot_congr {fifo' : SCPFifoStruct}
    (h : fifo'.CPBase = fifo.CPBase ∧ fifo'.CPEnd = fifo.CPEnd) (ptr : BitVec 32) :
    fifo'.nextSlot ptr = fifo.nextSlot ptr := by
  unfold SCPFifoStruct.nextSlot
  rw [h.1, h.2]

theorem Counted.start (hl : Linked fifo) (hk : At fifo k fifo.CPWritePointer) :
    Counted fifo k (start fifo) where
  fixed := ⟨rfl, rfl⟩
  write := hk
  read := by
    show At fifo k fifo.CPReadPointer
    rw [hl.empty.1]
    exact hk
  next := nofun
  pos h := absurd rfl h
  written_pos := nofun
  fetched_le := Nat.zero_le _
  capacity := Nat.zero_le _
  distance := by
    show fifo.CPReadWriteDistance.toNat = 0
    rw [hl.empty.2]
    rfl
  safe := hl.safe

theorem Counted.step (hl : Linked fifo) (h : Counted fifo k s) {a : LinkAction} (hok : StepOk s a)
    (hs : step mode s a = some t) : Counted fifo k t := by
  obtain ⟨hfixed, hwrite, hread, hnext, hpos, hwpos, hle, hcap, hdist, hsafe⟩ := h
  obtain ⟨f, burst, reading, written, fetched⟩ := s
  have hsize : SCPFifoStruct.GATHER_PIPE_SIZE.toNat = 32 := rfl
  cases a with
  | control readEnable bpEnable breakpoint =>
    obtain ⟨-, rfl⟩ := Option.ite_none_right_eq_some.mp hs |>.imp_right Option.some.inj
    exact ⟨hfixed, hwrite, hread, hnext, hpos, hwpos, hle, hcap, hdist, hsafe⟩
  | burst =>
    obtain ⟨⟨rfl, -⟩, rfl⟩ := Option.ite_none_right_eq_some.mp hs |>.imp_right Option.some.inj
    have hroom : 32 * (written - fetched) + 32 ≤ ringSize f := hok
    have hring : ringSize f = 32 * slots fifo := by
      rw [← hl.ringSize_eq, ringSize, ringSize, hfixed.1, hfixed.2]
    have hadded : added ⟨{ f with CPWritePointer := f.nextSlot f.CPWritePointer }, .written,
      reading, written + 1, fetched⟩ = added ⟨f, .idle, reading, written, fetched⟩ := rfl
    refine ⟨hfixed, ?_, hread, hnext, hpos, fun _ => Nat.succ_pos _, hle, ?_, ?_, hsafe⟩
    · rw [nextSlot_congr hfixed, ← Nat.add_assoc]
      exact hwrite.next hl
    · show written + 1 - fetched ≤ slots fifo
      omega
    · exact hdist
  | addDistance =>
    obtain ⟨rfl, rfl⟩ := Option.ite_none_right_eq_some.mp hs |>.imp_right Option.some.inj
    have hwpos : 0 < written := hwpos rfl
    have hle : fetched ≤ written - 1 := hle
    have hle' : fetched ≤ written := by omega
    refine ⟨hfixed, hwrite, hread, hnext, hpos, nofun, hle', hcap, ?_, hsafe⟩
    have hsub : subtracted ⟨f, .written, reading, written, fetched⟩ ≤ fetched := subtracted_le _
    have hdist : f.CPReadWriteDistance.toNat =
      32 * (written - 1 - subtracted ⟨f, .written, reading, written, fetched⟩) % 2 ^ 32 := hdist
    show (f.CPReadWriteDistance + SCPFifoStruct.GATHER_PIPE_SIZE).toNat =
      32 * (written - subtracted ⟨f, .written, reading, written, fetched⟩) % 2 ^ 32
    rw [BitVec.toNat_add, hsize, hdist]
    omega
  | fetch =>
    obtain ⟨⟨rfl, hcan, -⟩, rfl⟩ :=
      Option.ite_none_right_eq_some.mp hs |>.imp_right Option.some.inj
    -- there is a block to read: the distance is not zero
    have hne : f.CPReadWriteDistance.toNat ≠ 0 := by
      intro h0
      have hzero : f.CPReadWriteDistance = 0 := BitVec.eq_of_toNat_eq h0
      simp [canRead, hzero] at hcan
    have hdist : f.CPReadWriteDistance.toNat =
      32 * (added ⟨f, burst, .idle, written, fetched⟩ - fetched) % 2 ^ 32 := hdist
    have hblock : fetched + 1 ≤ added ⟨f, burst, .idle, written, fetched⟩ := by omega
    refine ⟨hfixed, hwrite, hread, ?_, fun _ => Nat.succ_pos _, hwpos, hblock, ?_, hdist, hsafe⟩
    · intro readPtr hr
      rw [← Reading.copied.inj hr, nextSlot_congr hfixed, ← Nat.add_assoc]
      exact hread.next hl
    · show written - (fetched + 1) ≤ slots fifo
      have : written - fetched ≤ slots fifo := hcap
      omega
  | advance =>
    cases reading with
    | copied readPtr =>
      cases hs
      exact ⟨hfixed, hwrite, hnext readPtr rfl, nofun, fun _ => hpos nofun, hwpos, hle, hcap, hdist,
        hsafe⟩
    | idle => cases hs
    | advanced => cases hs
    | subtracted => cases hs
  | subtract =>
    obtain ⟨rfl, rfl⟩ := Option.ite_none_right_eq_some.mp hs |>.imp_right Option.some.inj
    have hreading : ∀ f' b, subtracted ⟨f', b, if mode = .dualCore then .subtracted else .idle,
        written, fetched⟩ = fetched ∧ passed ⟨f', b, if mode = .dualCore then .subtracted
          else .idle, written, fetched⟩ = fetched := by
      intro f' b
      split <;> exact ⟨rfl, rfl⟩
    have hfpos : 0 < fetched := hpos nofun
    have hdist : f.CPReadWriteDistance.toNat =
      32 * (added ⟨f, burst, .advanced, written, fetched⟩ - (fetched - 1)) % 2 ^ 32 := hdist
    have hle : fetched ≤ added ⟨f, burst, .advanced, written, fetched⟩ := hle
    refine ⟨hfixed, hwrite, ?_, ?_, fun _ => hfpos, hwpos, hle, hcap, ?_, hsafe⟩
    · rw [(hreading _ _).2]
      exact hread
    · intro readPtr hr
      split at hr <;> cases hr
    · rw [(hreading _ _).1]
      show (f.CPReadWriteDistance - 32).toNat =
        32 * (added ⟨f, burst, .advanced, written, fetched⟩ - fetched) % 2 ^ 32
      have hthirtyTwo : (32 : BitVec 32).toNat = 32 := rfl
      rw [BitVec.toNat_sub, hthirtyTwo, hdist]
      omega
  | finish allRead =>
    obtain ⟨rfl, rfl⟩ := Option.ite_none_right_eq_some.mp hs |>.imp_right Option.some.inj
    cases allRead with
    | true =>
      exact ⟨hfixed, hwrite, hread, nofun, nofun, hwpos, hle, hcap, hdist, hread.within hl⟩
    | false => exact ⟨hfixed, hwrite, hread, nofun, nofun, hwpos, hle, hcap, hdist, hsafe⟩

theorem counted_of_run (hl : Linked fifo) (hk : At fifo k fifo.CPWritePointer)
    (h : Run (step mode) StepOk (start fifo) s) : Counted fifo k s :=
  h.invariant (Counted.start hl hk) fun _ _ _ hs hok ht => hs.step hl hok ht

/-! ## what is read -/

theorem rwDistance_onThread {f : SCPFifoStruct} (hring : ringSize f ≤ 2 ^ 32)
    (hw : Within f f.CPWritePointer) (hsafe : Within f f.SafeCPReadPointer) :
    ((f.rwDistance true).toNat : Int) =
      ((f.CPWritePointer.toNat : Int) - f.SafeCPReadPointer.toNat) % ringSize f := by
  obtain ⟨hwb, hwe⟩ := hw
  obtain ⟨hsb, hse⟩ := hsafe
  rw [BitVec.le_def] at hwb hwe hsb hse
  have hthirtyTwo : (32 : BitVec 32).toNat = 32 := rfl
  unfold ringSize at hring ⊢
  unfold SCPFifoStruct.rwDistance
  rw [if_pos rfl]
  split
  · next hle =>
    have hle := BitVec.le_def.mp hle
    rw [BitVec.toNat_sub, Int.emod_eq_of_lt (by omega) (by omega)]
    omega
  · next hgt =>
    have hgt : ¬ f.SafeCPReadPointer.toNat ≤ f.CPWritePointer.toNat := fun hle =>
      hgt (BitVec.le_def.mpr hle)
    rw [← Int.add_emod_right, Int.emod_eq_of_lt (by omega) (by omega), BitVec.toNat_add,
      BitVec.toNat_sub, BitVec.toNat_add, BitVec.toNat_sub, hthirtyTwo]
    omega

theorem readHigh_append_readLow (v : BitVec 32) :
    SCPFifoStruct.readHigh v ++ SCPFifoStruct.readLow v = v := by
  unfold SCPFifoStruct.readHigh SCPFifoStruct.readLow
  refine BitVec.eq_of_toNat_eq ?_
  rw [BitVec.toNat_append, BitVec.extractLsb'_toNat, BitVec.extractLsb'_toNat,
    ← Nat.shiftLeft_add_eq_or_of_lt (Nat.mod_lt _ (by decide)), Nat.shiftLeft_eq,
    Nat.shiftRight_eq_div_pow, Nat.shiftRight_eq_div_pow]
  omega

end

/-- An empty ring of four slots whose pointers are at the last one. -/
def lastSlot : SCPFifoStruct :=
  { SCPFifoStruct.zero with CPEnd := 96, CPWritePointer := 96, CPReadPointer := 96,
                            SafeCPReadPointer := 96, bFF_GPReadEnable := true }

end Link

end DolphinCore.CommandProcessor
