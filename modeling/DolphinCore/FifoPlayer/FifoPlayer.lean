import DolphinCore.FifoPlayer.FifoPlaybackAnalyzer
import DolphinCore.FifoPlayer.FifoRecorder
import DolphinCore.Lib.Timeline

/-!
# DolphinCore.FifoPlayer.FifoPlayer

The player sends the FIFO data of a frame and writes memory in between, as the
updates that the analysis has found say. A frame is played in parts: what is
before the objects, the objects that are drawn, and what is left when the others
are skipped.

An index past the updates that were found is no value here.
-/

namespace DolphinCore.FifoPlayer

/-- What the player does: it sends a byte, or writes memory. -/
abbrev PlayEvent := Timed Byte MemoryUpdate

/-! ## the parts of a frame -/

def slice (data : List Byte) (first last : Nat) : List Byte := (data.drop first).take (last - first)

/-- `WriteFifo`: the data is sent in bursts of up to 256 bytes. -/
def WriteFifo (data : List Byte) (written last : Nat) : List PlayEvent :=
  if written < last then
    let burstEnd := min (written + 255) (last - 1)
    (slice data written (burstEnd + 1)).map .item ++ WriteFifo data (burstEnd + 1) last
  else []
termination_by last - written

/-- `WriteFramePart`, from `dataStart` to `dataEnd`; the next update comes with what is done. -/
def WriteFramePart (frame : FifoFrameInfo) (info : AnalyzedFrameInfo) (dataEnd dataStart : Nat)
    (nextMemUpdate : Nat) : Option (List PlayEvent × Nat) :=
  if nextMemUpdate < frame.memoryUpdates.length ∧ dataStart < dataEnd then
    match info.memoryUpdates[nextMemUpdate]? with
    | none => none
    | some memUpdate =>
      let fifoPosition := memUpdate.fifoPosition.toNat
      if fifoPosition < dataEnd then
        let before :=
          if dataStart < fifoPosition then WriteFifo frame.fifoData dataStart fifoPosition else []
        let next := if dataStart < fifoPosition then fifoPosition else dataStart
        (WriteFramePart frame info dataEnd next (nextMemUpdate + 1)).map fun (events, n) =>
          (before ++ .event memUpdate :: events, n)
      else some (WriteFifo frame.fifoData dataStart dataEnd, nextMemUpdate)
  else
    some (if dataStart < dataEnd then WriteFifo frame.fifoData dataStart dataEnd else [],
      nextMemUpdate)
termination_by frame.memoryUpdates.length - nextMemUpdate

/-- The parts up to objects that are skipped, and the position behind them. -/
def skipObjects (info : AnalyzedFrameInfo) : Nat → List Nat → List (Nat × Nat) × Nat
  | position, [] => ([], position)
  | position, objectNum :: objects =>
    let (parts, last) := skipObjects info (info.objectEnds.getD objectNum 0) objects
    ((position, info.objectStarts.getD objectNum 0) :: parts, last)

/-- The object range of the player. -/
structure ObjectRange where
  first : Nat
  last : Nat

/-- The parts of a frame that are written. -/
def frameParts (frame : FifoFrameInfo) (info : AnalyzedFrameInfo) (range : ObjectRange) :
    List (Nat × Nat) :=
  let numObjects := info.objectStarts.length
  let drawStart := min numObjects range.first
  let drawEnd := min (numObjects - 1) range.last
  let (before, position) := skipObjects info 0 (List.range drawStart)
  let (drawn, position, objectNum) :=
    if drawStart < numObjects ∧ drawStart ≤ drawEnd then
      ([(position, info.objectEnds.getD drawEnd 0)], info.objectEnds.getD drawEnd 0, drawEnd + 1)
    else ([], position, drawStart)
  let (after, position) :=
    skipObjects info position (List.range' objectNum (numObjects - objectNum))
  -- the size is cut off to 32 bits
  before ++ drawn ++ after ++ [(position, frame.fifoData.length % 2 ^ 32)]

/-- One part after another. -/
def writeParts (frame : FifoFrameInfo) (info : AnalyzedFrameInfo) :
    Nat → List (Nat × Nat) → Option (List PlayEvent)
  | _, [] => some []
  | memoryUpdate, (dataStart, dataEnd) :: parts =>
    (WriteFramePart frame info dataEnd dataStart memoryUpdate).bind fun (events, memoryUpdate) =>
      (writeParts frame info memoryUpdate parts).map (events ++ ·)

/-- `WriteFrame`; with early memory updates all of them were written before. -/
def WriteFrame (m_EarlyMemoryUpdates : Bool) (range : ObjectRange) (frame : FifoFrameInfo)
    (info : AnalyzedFrameInfo) : Option (List PlayEvent) :=
  writeParts frame info (if m_EarlyMemoryUpdates then frame.memoryUpdates.length else 0)
    (frameParts frame info range)

/-- The frames are played one after another. -/
def playFrames (range : ObjectRange) :
    List FifoFrameInfo → List AnalyzedFrameInfo → Option (List (List PlayEvent))
  | frame :: frames, info :: infos =>
    (WriteFrame false range frame info).bind fun events =>
      (playFrames range frames infos).map (events :: ·)
  | _, _ => some []

def WriteMemory (m : Memory) (u : MemoryUpdate) : Memory :=
  m.write (.at u.address u.data.length) u.data

/-- The memory after what the player did. -/
def memoryAfter (m : Memory) (events : List PlayEvent) : Memory :=
  (Timed.events events).foldl WriteMemory m

/-! ## a part -/

theorem slice_append (data : List Byte) {a b c : Nat} (hab : a ≤ b) (hbc : b ≤ c) :
    slice data a b ++ slice data b c = slice data a c := by
  unfold slice
  rw [show c - a = (b - a) + (c - b) by omega, List.take_add, List.drop_drop,
    Nat.add_sub_cancel' hab]

variable {data : List Byte}

theorem length_slice {a b : Nat} (h : b ≤ data.length) : (slice data a b).length = b - a := by
  unfold slice
  rw [List.length_take, List.length_drop]
  omega

theorem WriteFifo_eq (data : List Byte) (written last : Nat) :
    WriteFifo data written last = (slice data written last).map .item := by
  induction written using WriteFifo.induct last with
  | case1 written h burstEnd ih =>
    have hle : burstEnd + 1 ≤ last := by omega
    rw [WriteFifo, if_pos h, ← slice_append data (show written ≤ burstEnd + 1 by omega) hle,
      List.map_append]
    exact congrArg (_ ++ ·) ih
  | case2 written h =>
    rw [WriteFifo, if_neg h]
    unfold slice
    rw [Nat.sub_eq_zero_of_le (Nat.le_of_not_lt h)]
    rfl

/-- The time of an update. -/
def MemoryUpdate.position (u : MemoryUpdate) : Nat := u.fifoPosition.toNat

/-- The bytes of a part, each behind the updates whose time has come. -/
abbrev partTimeline (data : List Byte) (first last : Nat) (us : List MemoryUpdate) :
    List PlayEvent :=
  timeline MemoryUpdate.position first (slice data first last) us

abbrev partLater (data : List Byte) (first last : Nat) (us : List MemoryUpdate) :
    List MemoryUpdate :=
  laterEvents MemoryUpdate.position first (slice data first last) us

theorem slice_self (data : List Byte) {a b : Nat} (h : b ≤ a) : slice data a b = [] := by
  unfold slice
  rw [Nat.sub_eq_zero_of_le h, List.take_zero]

theorem slice_ne_nil {a b : Nat} (hab : a < b) (hb : b ≤ data.length) : slice data a b ≠ [] := by
  intro h
  have hlen := length_slice (a := a) hb
  rw [h, List.length_nil] at hlen
  omega

theorem partTimeline_cons {first last : Nat} {u : MemoryUpdate} (us : List MemoryUpdate)
    (hlt : first < last) (hlast : last ≤ data.length) (hu : u.position < last) :
    partTimeline data first last (u :: us) = (slice data first (max first u.position)).map .item ++
          .event u :: partTimeline data (max first u.position) last us ∧
      partLater data first last (u :: us) = partLater data (max first u.position) last us := by
  have hq : max first u.position < last := by omega
  have hsplit := slice_append data (show first ≤ max first u.position by omega) (Nat.le_of_lt hq)
  have hlen := length_slice (a := first) (Nat.le_trans (Nat.le_of_lt hq) hlast)
  have hq' : first + (slice data first (max first u.position)).length = max first u.position := by
    omega
  have hbefore : timeline MemoryUpdate.position first (slice data first (max first u.position))
        (u :: us) = (slice data first (max first u.position)).map .item ∧
      laterEvents MemoryUpdate.position first (slice data first (max first u.position))
        (u :: us) = u :: us := by
    rcases Nat.lt_or_ge first u.position with h | h
    · exact timeline_of_le (by omega)
    · rw [slice_self data (by omega)]
      exact ⟨rfl, rfl⟩
  have hnow : u.position ≤ max first u.position := by omega
  obtain ⟨hat, hlater⟩ := @timeline_of_ge _ _ MemoryUpdate.position _ _ u us hnow
    (slice_ne_nil hq hlast)
  unfold partTimeline partLater
  rw [← hsplit, timeline_append, laterEvents_append, hbefore.1, hbefore.2, hq', hat, hlater]
  exact ⟨rfl, rfl⟩

section

variable {frame : FifoFrameInfo} {info : AnalyzedFrameInfo}

/-- **A part** when the analysis has found all updates: its bytes are sent in order, each behind
the updates whose time has come. -/
theorem WriteFramePart_eq (hlen : info.memoryUpdates.length = frame.memoryUpdates.length)
    {dataEnd : Nat} (hend : dataEnd ≤ frame.fifoData.length) (dataStart k : Nat) :
    ∃ k', WriteFramePart frame info dataEnd dataStart k =
        some (partTimeline frame.fifoData dataStart dataEnd (info.memoryUpdates.drop k), k') ∧
      info.memoryUpdates.drop k' =
        partLater frame.fifoData dataStart dataEnd (info.memoryUpdates.drop k) := by
  induction hn : frame.memoryUpdates.length - k generalizing dataStart k with
  | zero =>
    have hnil : info.memoryUpdates.drop k = [] := List.drop_eq_nil_of_le (by omega)
    refine ⟨k, ?_, ?_⟩
    · rw [WriteFramePart, if_neg (by omega), hnil, partTimeline, timeline_nil]
      split
      · rw [WriteFifo_eq]
      · next h => rw [slice_self _ (Nat.le_of_not_lt h), List.map_nil]
    · rw [hnil, partLater, laterEvents_nil]
  | succ n ih =>
    rcases Nat.lt_or_ge dataStart dataEnd with hlt | hge
    · have hk : k < info.memoryUpdates.length := by omega
      have hcons := List.drop_eq_getElem_cons hk
      have hget := List.getElem?_eq_getElem hk
      generalize info.memoryUpdates[k] = u at hcons hget
      rw [WriteFramePart, if_pos ⟨by omega, hlt⟩, hget, hcons]
      simp only
      split
      · next hu =>
        obtain ⟨hat, hlater⟩ := partTimeline_cons (info.memoryUpdates.drop (k + 1)) hlt hend hu
        have hnext : (if dataStart < u.fifoPosition.toNat then u.fifoPosition.toNat else dataStart) =
            max dataStart u.position := by
          unfold MemoryUpdate.position
          split <;> omega
        have hbefore : (if dataStart < u.fifoPosition.toNat then
              WriteFifo frame.fifoData dataStart u.fifoPosition.toNat else []) =
            (slice frame.fifoData dataStart (max dataStart u.position)).map .item := by
          split
          · next h => rw [WriteFifo_eq, ← hnext, if_pos h]
          · next h =>
            rw [slice_self _ (by unfold MemoryUpdate.position; omega)]
            rfl
        obtain ⟨k', hk', hdrop⟩ := ih (max dataStart u.position) (k + 1) (by omega)
        refine ⟨k', ?_, hdrop.trans hlater.symm⟩
        rw [hnext, hbefore, hk', hat]
        rfl
      · next hu =>
        have hle : dataStart + (slice frame.fifoData dataStart dataEnd).length ≤ u.position := by
          rw [length_slice hend]
          unfold MemoryUpdate.position
          omega
        have hall := @timeline_of_le _ _ MemoryUpdate.position _ _ _
          (info.memoryUpdates.drop (k + 1)) hle
        refine ⟨k, ?_, ?_⟩
        · rw [WriteFifo_eq, partTimeline, hall.1]
        · rw [partLater, hall.2, hcons]
    · refine ⟨k, ?_, ?_⟩
      · rw [WriteFramePart, if_neg (by omega), if_neg (by omega), partTimeline, slice_self _ hge]
        rfl
      · rw [partLater, slice_self _ hge]
        rfl

/-! ## a frame -/

/-- The range has all objects. -/
structure ObjectRange.Full (range : ObjectRange) (info : AnalyzedFrameInfo) : Prop where
  first : range.first = 0
  last : info.objectStarts.length ≤ range.last + 1

/-- Where the last object ends. -/
def AnalyzedFrameInfo.lastEnd (info : AnalyzedFrameInfo) : Nat :=
  info.objectEnds.getD (info.objectStarts.length - 1) 0

theorem frameParts_full {range : ObjectRange} (h : range.Full info) :
    frameParts frame info range = if info.objectStarts.length = 0 then
        [(0, frame.fifoData.length % 2 ^ 32)]
      else [(0, info.lastEnd), (info.lastEnd, frame.fifoData.length % 2 ^ 32)] := by
  have hlast : min (info.objectStarts.length - 1) range.last = info.objectStarts.length - 1 :=
    Nat.min_eq_left (by have := h.last; omega)
  unfold frameParts
  simp only [h.first, Nat.min_zero, List.range_zero, skipObjects, Nat.zero_le, and_true, hlast]
  rcases Nat.eq_zero_or_pos info.objectStarts.length with hzero | hpos
  · simp only [hzero, if_neg (Nat.lt_irrefl 0), if_true, Nat.sub_self, List.range'_zero, skipObjects]
    rfl
  · have hn : info.objectStarts.length - (info.objectStarts.length - 1 + 1) = 0 := by omega
    simp only [if_pos hpos, if_neg (Nat.ne_of_gt hpos), hn, List.range'_zero, skipObjects]
    rfl

theorem AnalyzedFrameInfo.Objects.lastEnd_le {size : Nat} (h : info.Objects size) :
    info.lastEnd ≤ size := by
  unfold AnalyzedFrameInfo.lastEnd
  rw [List.getD_eq_getElem?_getD]
  cases hget : info.objectEnds[info.objectStarts.length - 1]? with
  | none => exact Nat.zero_le _
  | some t =>
    exact h.within t (mem_interleave (.inl h.length_eq) (.inr (List.mem_of_getElem? hget)))

theorem slice_all (data : List Byte) : slice data 0 data.length = data := by
  unfold slice
  rw [List.drop_zero, Nat.sub_zero, List.take_length]

/-- **A frame** when the analysis has found all updates, and all objects are in the range. -/
theorem WriteFrame_full (hlen : info.memoryUpdates.length = frame.memoryUpdates.length)
    (hobjects : info.Objects frame.fifoData.length) (hsize : frame.fifoData.length < 2 ^ 32)
    {range : ObjectRange} (hfull : range.Full info) :
    WriteFrame false range frame info =
      some (timeline MemoryUpdate.position 0 frame.fifoData info.memoryUpdates) := by
  have hall : partTimeline frame.fifoData 0 frame.fifoData.length info.memoryUpdates =
      timeline MemoryUpdate.position 0 frame.fifoData info.memoryUpdates := by
    rw [partTimeline, slice_all]
  unfold WriteFrame
  rw [frameParts_full hfull, Nat.mod_eq_of_lt hsize]
  simp only [Bool.false_eq_true, if_false]
  split
  · obtain ⟨k, hk, -⟩ := WriteFramePart_eq hlen (Nat.le_refl _) 0 0
    rw [List.drop_zero, hall] at hk
    simp [writeParts, hk]
  · have hle := hobjects.lastEnd_le
    obtain ⟨k, hk, hdrop⟩ := WriteFramePart_eq hlen hle 0 0
    obtain ⟨k', hk', -⟩ := WriteFramePart_eq hlen (Nat.le_refl _) info.lastEnd k
    rw [List.drop_zero] at hk hdrop
    have hsplit := slice_append frame.fifoData (Nat.zero_le _) hle
    have hstart : 0 + (slice frame.fifoData 0 info.lastEnd).length = info.lastEnd := by
      rw [length_slice hle]
      omega
    simp only [writeParts, hk, hk', Option.bind_some, Option.map_some, List.append_nil]
    rw [hdrop, ← hall]
    unfold partTimeline partLater
    rw [← hsplit, timeline_append, hstart]

end

end DolphinCore.FifoPlayer
