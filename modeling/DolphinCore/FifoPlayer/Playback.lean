import DolphinCore.FifoPlayer.RecordedCommands
import DolphinCore.FifoPlayer.UpdateIndices
import DolphinCore.Lib.Run

/-!
# DolphinCore.FifoPlayer.Playback

A recording, played from the beginning with all its objects, sends the recorded
bytes in order, and writes every update of memory once, before the byte at its
position. So a command finds in the memory that it used what it found when it was
recorded: the player's memory is the recorder's shadow.
-/

namespace DolphinCore.FifoPlayer

open GX

/-! ## what commands see -/

/-- Memory that a command used, as it was. -/
structure Seen where
  region : Region
  bytes : List Byte

/-- The same, of the command at a position of a frame. -/
structure SeenAt extends Seen where
  frame : Nat
  position : Nat

def seen (mem : Memory) (use : MemoryUse) : Seen :=
  ⟨.at use.address use.size.toNat, mem.read (.at use.address use.size.toNat)⟩

def Region.Contains (r : Region) (exram : Bool) (i : Nat) : Prop :=
  exram = r.exram ∧ r.start ≤ i ∧ i < r.start + r.size

/-- Of the memory that the command used before, what it uses again has not changed. -/
def Unchanged (pending : List Seen) (mem : Memory) (use : MemoryUse) : Prop :=
  ∀ p ∈ pending, ∀ i < p.region.size,
    (Region.at use.address use.size.toNat).Contains p.region.exram (p.region.start + i) →
      mem p.region.exram (p.region.start + i) = p.bytes.getD i 0

/-! ## a recording -/

/-- The recorder, what the command in progress has used, and what the recorded ones have used. -/
structure Tape where
  recorder : FifoRecorder
  pending : List Seen
  log : List SeenAt

inductive TapeAction where
  | useMemory (mem : Memory) (use : MemoryUse)
  | writeGPCommand (mem : Memory) (data : List Byte)
  | endFrame (fifoStart fifoEnd : BitVec 32)
  | setVideoMemory (bpMem : Fin BP_MEM_SIZE → BitVec 32) (cpMem : Fin CP_MEM_SIZE → BitVec 32)
    (xfMem : Fin XF_MEM_SIZE → BitVec 32) (xfRegs : Fin XF_REGS_SIZE → BitVec 32)
    (texMem : Fin TEX_MEM_SIZE → Byte)
  | stopRecording

/-- The frame that is being recorded. -/
def FifoRecorder.frameNumber (r : FifoRecorder) : Nat :=
  (r.m_File.map fun file => file.m_Frames.length).getD 0

namespace Tape

/-- What the command at the end of the current frame has seen. -/
def note (r : FifoRecorder) (p : Seen) : SeenAt := ⟨p, r.frameNumber, r.m_FifoData.length⟩

def step (s : Tape) : TapeAction → Option Tape
  | .useMemory mem use =>
    (s.recorder.UseMemory mem use).map fun r =>
      { s with recorder := r, pending := s.pending ++ [seen mem use] }
  | .writeGPCommand mem data =>
    (s.recorder.WriteGPCommand mem data).map fun r =>
      if s.recorder.m_SkipNextData then { s with recorder := r, pending := [] }
      else
        let uses := (commandUses s.recorder.analyzer.cpMem data).map (seen mem)
        ⟨r, [], s.log ++ (s.pending ++ uses).map (note s.recorder)⟩
  -- assumed to be called only while recording
  | .endFrame fifoStart fifoEnd =>
    if s.recorder.m_IsRecording then
      some { s with recorder := s.recorder.EndFrame fifoStart fifoEnd }
    else none
  | .setVideoMemory bpMem cpMem xfMem xfRegs texMem =>
    some { s with recorder := s.recorder.SetVideoMemory bpMem cpMem xfMem xfRegs texMem }
  | .stopRecording => some { s with recorder := s.recorder.StopRecording }

/-- Recorded commands have the size that the analyzer finds, and do not see memory change while
they use it; at the first frame the analyzers of the recorder and of the player (which begins as
`a`) have the same formats. -/
def StepOk (a : Analyzer) (s : Tape) : TapeAction → Prop
  | .useMemory mem use => s.recorder.m_SkipNextData = false → Unchanged s.pending mem use
  | .writeGPCommand mem data => s.recorder.m_SkipNextData = false →
    SizedCommand s.recorder.analyzer data ∧
    (∀ use ∈ commandUses s.recorder.analyzer.cpMem data, Unchanged s.pending mem use) ∧
    s.recorder.m_FifoData.length + data.length < 2 ^ 32
  | .endFrame _ _ => s.recorder.m_WasRecording = false →
    ∀ file, s.recorder.m_File = some file →
      SameFormats (loadRegisters file.m_CPMem a) s.recorder.analyzer
  | .setVideoMemory _ _ _ _ _ => s.recorder.m_WasRecording = false
  | .stopRecording => True

/-- The first recording is to begin, or the last one is over; nothing is left of it. -/
structure Over (r : FifoRecorder) : Prop where
  isRecording : r.m_IsRecording = false
  skipNext : r.m_SkipNextData = true
  skipFuture : r.m_SkipFutureData = true
  fifoData : r.m_FifoData = []
  memoryUpdates : r.m_CurrentFrame.memoryUpdates = []

/-- `StartRecording` -/
def start (r : FifoRecorder) (bWii : Bool) (numFrames : Int) : Tape :=
  ⟨r.StartRecording bWii numFrames, [], []⟩

end Tape

/-! ## memory at a position -/

/-- The updates before the byte at a position of a frame. -/
def updatesBefore (frames : List FifoFrameInfo) (frame position : Nat) : List MemoryUpdate :=
  ((frames.take frame).flatMap fun f => f.memoryUpdates) ++
    ((frames[frame]?.map fun f => f.memoryUpdates).getD []).filter fun u => u.position ≤ position

/-- The memory that they make. -/
def memoryAt (frames : List FifoFrameInfo) (frame position : Nat) : Memory :=
  (updatesBefore frames frame position).foldl WriteMemory .zero

/-- At its position the command sees what it saw. -/
def SeenIn (frames : List FifoFrameInfo) (e : SeenAt) : Prop :=
  ∃ frame, frames[e.frame]? = some frame ∧ e.position < frame.fifoData.length ∧
    (memoryAt frames e.frame e.position).read e.region = e.bytes

section

variable {frames : List FifoFrameInfo} {e : SeenAt}

theorem updatesBefore_append {i : Nat} (h : i < frames.length) (more : List FifoFrameInfo)
    (p : Nat) : updatesBefore (frames ++ more) i p = updatesBefore frames i p := by
  unfold updatesBefore
  rw [List.take_append_of_le_length (Nat.le_of_lt h), List.getElem?_append_left h]

theorem SeenIn.append (h : SeenIn frames e) (more : List FifoFrameInfo) :
    SeenIn (frames ++ more) e := by
  obtain ⟨frame, hget, hpos, hread⟩ := h
  have hlt := (List.getElem?_eq_some_iff.mp hget).1
  refine ⟨frame, by rw [List.getElem?_append_left hlt, hget], hpos, ?_⟩
  unfold memoryAt at hread ⊢
  rw [updatesBefore_append hlt, hread]

theorem SeenIn.extend {last last' : FifoFrameInfo} (us : List MemoryUpdate)
    (h : SeenIn (frames ++ [last]) e) (hupdates : last'.memoryUpdates = last.memoryUpdates ++ us)
    (hdata : last.fifoData.length ≤ last'.fifoData.length)
    (hlater : ∀ u ∈ us, last.fifoData.length ≤ u.position) : SeenIn (frames ++ [last']) e := by
  obtain ⟨frame, hget, hpos, hread⟩ := h
  have hlt := (List.getElem?_eq_some_iff.mp hget).1
  rw [List.length_append, List.length_singleton] at hlt
  rcases Nat.lt_or_ge e.frame frames.length with hin | hlast
  · rw [List.getElem?_append_left hin] at hget
    unfold memoryAt at hread
    rw [updatesBefore_append hin] at hread
    exact SeenIn.append ⟨frame, hget, hpos, hread⟩ [last']
  · have heq : e.frame = frames.length := by omega
    have hsame : frame = last := by
      rw [heq, List.getElem?_concat_length] at hget
      exact (Option.some.inj hget).symm
    subst hsame
    refine ⟨last', by rw [heq, List.getElem?_concat_length], Nat.lt_of_lt_of_le hpos hdata, ?_⟩
    have hnone : us.filter (fun u => u.position ≤ e.position) = [] := by
      refine List.filter_eq_nil_iff.mpr fun u hu => ?_
      have := hlater u hu
      simp only [decide_eq_true_eq]
      omega
    unfold memoryAt updatesBefore at hread ⊢
    rw [heq, List.getElem?_concat_length, List.take_left] at hread ⊢
    simp only [Option.map_some, Option.getD_some, hupdates, List.filter_append, hnone,
      List.append_nil] at hread ⊢
    exact hread

end

/-! ## what a recording keeps -/

/-- Updates in the data of a frame: in order, and not after the start of its last command. -/
structure Placed (frame : FifoFrameInfo) (cs : List (List Byte)) : Prop where
  sorted : frame.memoryUpdates.Pairwise fun u v => u.position ≤ v.position
  before : ∃ init c, cs = init ++ [c] ∧ ∀ u ∈ frame.memoryUpdates, u.position ≤ init.flatten.length
  size : frame.fifoData.length < 2 ^ 32

/-- The frames of the file, and the one that is being recorded. -/
def framesOf (r : FifoRecorder) (file : FifoDataFile) : List FifoFrameInfo :=
  file.m_Frames ++ [Commands.currentFrame r]

def allUpdates (frames : List FifoFrameInfo) : List MemoryUpdate :=
  frames.flatMap fun frame => frame.memoryUpdates

/-- A recording of commands: the recorder's shadow is the memory that the updates make, and every
recorded command finds in it what it has seen. -/
structure Recorded (a : Analyzer) (s : Tape) (file : FifoDataFile) (css : List (List (List Byte)))
    (cur : List (List Byte)) : Prop where
  commands : Commands a s.recorder file css cur
  placed : List.Forall₂ Placed file.m_Frames css
  sorted : s.recorder.m_CurrentFrame.memoryUpdates.Pairwise fun u v => u.position ≤ v.position
  before : ∀ u ∈ s.recorder.m_CurrentFrame.memoryUpdates, u.position ≤ s.recorder.m_FifoData.length
  size : s.recorder.m_FifoData.length < 2 ^ 32
  shadow : s.recorder.m_Ram = (allUpdates (framesOf s.recorder file)).foldl WriteMemory .zero
  log : ∀ e ∈ s.log, SeenIn (framesOf s.recorder file) e
  pending : s.recorder.m_SkipNextData = false →
    ∀ p ∈ s.pending, s.recorder.m_Ram.read p.region = p.bytes
  unstarted : s.recorder.m_WasRecording = false →
    s.recorder.m_SkipNextData = true ∧ s.recorder.m_SkipFutureData = true ∧ css = []
  skipped : s.recorder.m_SkipNextData = true → cur = []
  ending : s.recorder.m_SkipFutureData = true → s.recorder.m_SkipNextData = false →
    s.recorder.m_FrameEnded = true

theorem allUpdates_framesOf (r : FifoRecorder) (file : FifoDataFile) :
    allUpdates (framesOf r file) = allUpdates file.m_Frames ++ r.m_CurrentFrame.memoryUpdates := by
  unfold allUpdates framesOf
  rw [List.flatMap_append, List.flatMap_singleton]
  rfl

theorem memoryAt_last {frames : List FifoFrameInfo} {last : FifoFrameInfo} {p : Nat}
    (h : ∀ u ∈ last.memoryUpdates, u.position ≤ p) :
    memoryAt (frames ++ [last]) frames.length p =
      (allUpdates (frames ++ [last])).foldl WriteMemory .zero := by
  have hall : last.memoryUpdates.filter (fun u => u.position ≤ p) = last.memoryUpdates :=
    List.filter_eq_self.mpr fun u hu => decide_eq_true (h u hu)
  unfold memoryAt updatesBefore allUpdates
  rw [List.getElem?_concat_length, List.take_left, Option.map_some, Option.getD_some, hall,
    List.flatMap_append, List.flatMap_singleton]

theorem writeMemory_read (m mem : Memory) (use : MemoryUse) (position : BitVec 32) :
    WriteMemory m ⟨position, use.address, mem.read (.at use.address use.size.toNat), use.type⟩ =
      m.write (.at use.address use.size.toNat) (mem.read (.at use.address use.size.toNat)) := by
  rfl

namespace Recorded

variable {a : Analyzer} {s : Tape} {r : FifoRecorder} {pending : List Seen} {log : List SeenAt}
  {file : FifoDataFile} {css : List (List (List Byte))} {cur : List (List Byte)}

theorem start {r : FifoRecorder} (h : Tape.Over r) (a : Analyzer) (bWii : Bool) (numFrames : Int) :
    Recorded a (.start r bWii numFrames) (.new bWii) [] [] := by
  obtain ⟨hrec, hnext, hfuture, hdata, hupdates⟩ := h
  have hstart : Tape.start r bWii numFrames =
      ⟨{ r with
        m_File := some (.new bWii), m_Ram := .zero, m_RequestedRecordingEnd := false,
        m_WasRecording := false, m_IsRecording := true, m_RecordFramesRemaining := numFrames },
        [], []⟩ := by
    unfold Tape.start FifoRecorder.StartRecording
    simp [hrec]
  have hnoFormats : ¬ (r.m_SkipNextData = false ∨ r.m_SkipFutureData = false) := by
    rw [hnext, hfuture]
    decide
  have hnotSkipped : ¬ r.m_SkipNextData = false := by
    rw [hnext]
    decide
  rw [hstart]
  constructor
  case commands => exact ⟨rfl, .nil, hdata, trivial, fun h => absurd h hnoFormats⟩
  case placed => exact .nil
  case sorted =>
    rw [hupdates]
    exact .nil
  case before =>
    rw [hupdates]
    exact nofun
  case size =>
    rw [hdata]
    decide
  case shadow =>
    show Memory.zero = (r.m_CurrentFrame.memoryUpdates ++ []).foldl WriteMemory .zero
    rw [hupdates]
    rfl
  case log => exact nofun
  case pending => exact nofun
  case unstarted => exact fun _ => ⟨hnext, hfuture, rfl⟩
  case skipped => exact fun _ => rfl
  case ending => exact fun _ h => absurd h hnotSkipped

/-! ## memory -/

variable {mem : Memory} {use : MemoryUse}

theorem read_write_of_unchanged {m : Memory} {p : Seen} (hread : m.read p.region = p.bytes)
    (h : Unchanged [p] mem use) :
    (m.write (.at use.address use.size.toNat) (mem.read (.at use.address use.size.toNat))).read
      p.region = p.bytes := by
  rw [← hread]
  refine Memory.read_congr fun i hi => ?_
  rw [Memory.write_read_apply]
  split
  · next hin =>
    rw [h p (List.mem_singleton.mpr rfl) i hi hin, ← hread, Memory.read_getD hi]
  · rfl

theorem useMemory (h : Recorded a ⟨r, pending, log⟩ file css cur)
    (hunchanged : r.m_SkipNextData = false → Unchanged pending mem use) {r' : FifoRecorder}
    (hr : r.UseMemory mem use = some r') :
    Recorded a ⟨r', pending ++ [seen mem use], log⟩ file css cur := by
  have hcommands := h.commands.onlyMemory (useMemory_only hr)
  obtain ⟨-, hplaced, hsorted, hbefore, hsize, hshadow, hlog, hpending, hunstarted, hskipped,
    hending⟩ := h
  unfold FifoRecorder.UseMemory at hr
  simp only at hr
  split at hr
  · cases hr
  split at hr
  · next hsame =>
    cases hr
    refine ⟨hcommands, hplaced, hsorted, hbefore, hsize, hshadow, hlog, fun hskip p hp => ?_,
      hunstarted, hskipped, hending⟩
    rcases List.mem_append.mp hp with hp | hp
    · exact hpending hskip p hp
    · rw [List.mem_singleton.mp hp]
      exact hsame
  · cases hr
    have hpos : (BitVec.ofNat 32 r.m_FifoData.length).toNat = r.m_FifoData.length := by
      exact Nat.mod_eq_of_lt hsize
    refine ⟨hcommands, hplaced, ?_, ?_, hsize, ?_, ?_, ?_, hunstarted, hskipped, hending⟩
    · refine List.pairwise_append.mpr ⟨hsorted, List.pairwise_singleton _ _, fun u hu v hv => ?_⟩
      rw [List.mem_singleton.mp hv]
      exact Nat.le_trans (hbefore u hu) hpos.ge
    · intro u hu
      rcases List.mem_append.mp hu with hu | hu
      · exact hbefore u hu
      · rw [List.mem_singleton.mp hu]
        exact hpos.le
    · rw [allUpdates_framesOf, ← List.append_assoc, List.foldl_append, ← allUpdates_framesOf,
        ← hshadow]
      exact (writeMemory_read ..).symm
    · intro e he
      refine (hlog e he).extend [_] rfl (Nat.le_refl _) fun u hu => ?_
      rw [List.mem_singleton.mp hu]
      exact hpos.ge
    · intro hskip p hp
      have hother := hunchanged hskip
      rcases List.mem_append.mp hp with hp | hp
      · refine read_write_of_unchanged (hpending hskip p hp) fun q hq => ?_
        rw [List.mem_singleton.mp hq]
        exact hother p hp
      · rw [List.mem_singleton.mp hp]
        exact Memory.read_write_read ..

theorem unchanged_append (h : Unchanged pending mem use) (ms : List MemoryUse) :
    Unchanged (pending ++ ms.map (seen mem)) mem use := by
  intro p hp i hi hin
  rcases List.mem_append.mp hp with hp | hp
  · exact h p hp i hi hin
  · obtain ⟨m, -, rfl⟩ := List.mem_map.mp hp
    exact (Memory.read_getD hi).symm

theorem useAll (h : Recorded a ⟨r, pending, log⟩ file css cur) {uses : List MemoryUse}
    (hunchanged : ∀ use ∈ uses, Unchanged pending mem use) {r' : FifoRecorder}
    (hr : r.UseAll mem uses = some r') :
    Recorded a ⟨r', pending ++ uses.map (seen mem), log⟩ file css cur := by
  induction uses generalizing r pending with
  | nil =>
    cases hr
    rw [List.map_nil, List.append_nil]
    exact h
  | cons use uses ih =>
    rw [FifoRecorder.UseAll, Option.bind_eq_some_iff] at hr
    obtain ⟨r₁, h₁, hr⟩ := hr
    obtain ⟨huse, huses⟩ := List.forall_mem_cons.mp hunchanged
    have hnext := ih (h.useMemory (fun _ => huse) h₁)
      (fun use' hmem => unchanged_append (huses use' hmem) [use]) hr
    rw [List.append_assoc] at hnext
    exact hnext

/-! ## commands -/

/-- A command is appended; all updates are at its start or before it. -/
theorem append (h : Recorded a ⟨r, pending, log⟩ file css cur) (hskip : r.m_SkipNextData = false)
    {c : List Byte} (hc : SizedCommand r.analyzer c)
    (hsize : r.m_FifoData.length + c.length < 2 ^ 32) :
    Recorded a ⟨r.append c, [], log ++ pending.map (Tape.note r)⟩ file css (cur ++ [c]) ∧
      ∀ u ∈ r.m_CurrentFrame.memoryUpdates, u.position ≤ cur.flatten.length := by
  have hcommands := h.commands.append hskip hc
  obtain ⟨hcur, hplaced, hsorted, hbefore, -, hshadow, hlog, hpending, hunstarted, -, hending⟩ := h
  have hlen : (r.append c).m_FifoData.length = r.m_FifoData.length + c.length :=
    List.length_append
  have hshadow' : r.m_Ram = (allUpdates (framesOf (r.append c) file)).foldl WriteMemory .zero := by
    rw [allUpdates_framesOf] at hshadow ⊢
    exact hshadow
  refine ⟨⟨hcommands, hplaced, hsorted, ?_, ?_, hshadow', ?_, fun _ => nofun, hunstarted, ?_,
    hending⟩, ?_⟩
  · intro u hu
    exact Nat.le_trans (hbefore u hu) (Nat.le_of_add_right_le hlen.ge)
  · rw [hlen]
    exact hsize
  · intro e he
    rcases List.mem_append.mp he with he | he
    · refine (hlog e he).extend [] (List.append_nil _).symm ?_ nofun
      exact Nat.le_of_add_right_le hlen.ge
    · obtain ⟨p, hp, rfl⟩ := List.mem_map.mp he
      have hframe : r.frameNumber = file.m_Frames.length := by
        unfold FifoRecorder.frameNumber
        rw [show r.m_File = some file from hcur.inFile]
        rfl
      have hnow : memoryAt (framesOf (r.append c) file) r.frameNumber r.m_FifoData.length =
          r.m_Ram := by
        rw [hframe, hshadow']
        exact memoryAt_last hbefore
      refine ⟨Commands.currentFrame (r.append c), ?_, ?_, ?_⟩
      · show (file.m_Frames ++ [_])[r.frameNumber]? = _
        rw [hframe, List.getElem?_concat_length]
      · show r.m_FifoData.length < (r.append c).m_FifoData.length
        rw [hlen]
        exact Nat.lt_add_of_pos_right (List.length_pos_iff.mpr hc.nonempty)
      · show (memoryAt _ r.frameNumber r.m_FifoData.length).read p.region = p.bytes
        rw [hnow]
        exact hpending hskip p hp
  · exact fun hskip' => absurd (hskip.symm.trans hskip') (by decide)
  · intro u hu
    rw [← hcur.current]
    exact hbefore u hu

theorem skipNext (h : Recorded a ⟨r, [], log⟩ file css cur)
    (hskip : r.m_SkipFutureData = true → cur = []) :
    Recorded a ⟨r.skipNext, [], log⟩ file css cur := by
  obtain ⟨hcommands, hplaced, hsorted, hbefore, hsize, hshadow, hlog, -, hunstarted, -, -⟩ := h
  refine ⟨hcommands.skipNext, hplaced, hsorted, hbefore, hsize, hshadow, hlog, fun _ => nofun,
    fun hwas => ?_, hskip, fun htrue hfalse => absurd (htrue.symm.trans hfalse) (by decide)⟩
  obtain ⟨-, hfuture, hcss⟩ := hunstarted hwas
  exact ⟨hfuture, hfuture, hcss⟩

theorem skipData (h : Recorded a ⟨r, pending, log⟩ file css cur)
    (hskip : r.m_SkipNextData = true) :
    Recorded a ⟨r.closeFrame.skipNext, [], log⟩ file css cur := by
  have hcur := h.skipped hskip
  have hdata : r.m_FifoData = [] := by
    rw [show r.m_FifoData = cur.flatten from h.commands.current, hcur]
    rfl
  have hclose : r.closeFrame = r := by
    exact if_neg fun hne => hne.2 hdata
  rw [hclose]
  refine skipNext ?_ fun _ => hcur
  obtain ⟨hcommands, hplaced, hsorted, hbefore, hsize, hshadow, hlog, -, hunstarted, hskipped,
    hending⟩ := h
  exact ⟨hcommands, hplaced, hsorted, hbefore, hsize, hshadow, hlog, fun _ => nofun, hunstarted,
    hskipped, hending⟩

theorem closeFrame (h : Recorded a ⟨r, [], log⟩ file css cur) (hskip : r.m_SkipNextData = false)
    (hplace : ∃ init c, cur = init ++ [c] ∧
      ∀ u ∈ r.m_CurrentFrame.memoryUpdates, u.position ≤ init.flatten.length)
    (hdata : r.m_FifoData ≠ []) :
    ∃ file' css' cur', Recorded a ⟨r.closeFrame.skipNext, [], log⟩ file' css' cur' := by
  by_cases hended : r.m_FrameEnded = true
  · have hclose : r.m_FrameEnded = true ∧ r.m_FifoData ≠ [] := ⟨hended, hdata⟩
    have hcommands := (h.commands.closeFrame hclose).skipNext
    obtain ⟨-, hplaced, hsorted, -, hsize, hshadow, hlog, -, hunstarted, -, -⟩ := h
    have heq : r.closeFrame.skipNext =
        { r with
          m_File := r.m_File.map fun file => file.AddFrame (Commands.currentFrame r)
          m_CurrentFrame := { Commands.currentFrame r with memoryUpdates := [] }
          m_FifoData := []
          m_FrameEnded := false
          m_SkipNextData := r.m_SkipFutureData } := by
      unfold FifoRecorder.closeFrame
      rw [if_pos hclose]
      rfl
    have hwas : r.m_WasRecording = true := by
      by_contra hnot
      have hnext := (hunstarted (Bool.eq_false_iff.mpr hnot)).1
      exact absurd (hskip.symm.trans hnext) (by decide)
    rw [heq] at hcommands ⊢
    refine ⟨_, _, _, hcommands, ?_, .nil, nofun, Nat.two_pow_pos 32, ?_, ?_, fun _ => nofun, ?_,
      fun _ => rfl, ?_⟩
    · exact List.rel_append hplaced (.cons ⟨hsorted, hplace, hsize⟩ .nil)
    · rw [allUpdates_framesOf, List.append_nil]
      exact hshadow
    · exact fun e he => (hlog e he).append _
    · exact fun hfalse => absurd (hwas.symm.trans hfalse) (by decide)
    · exact fun htrue hfalse => absurd (htrue.symm.trans hfalse) (by decide)
  · have hclose : r.closeFrame = r := by
      exact if_neg fun h => hended h.1
    rw [hclose]
    exact ⟨file, css, cur, h.skipNext fun hfuture => absurd (h.ending hfuture hskip) hended⟩

/-! ## frames -/

theorem frameEnded (h : Recorded a ⟨r, pending, log⟩ file css cur) (fifoStart fifoEnd : BitVec 32)
    (framesRemaining : Int) (requestedEnd : Bool) :
    Recorded a ⟨{ r with
      m_FrameEnded := true
      m_CurrentFrame := { r.m_CurrentFrame with fifoStart := fifoStart, fifoEnd := fifoEnd }
      m_RecordFramesRemaining := framesRemaining
      m_RequestedRecordingEnd := requestedEnd }, pending, log⟩ file css cur := by
  obtain ⟨⟨hfile, hframes, hcur, hsized, hformats⟩, hplaced, hsorted, hbefore, hsize, hshadow, hlog,
    hpending, hunstarted, hskipped, hending⟩ := h
  refine ⟨⟨hfile, hframes, hcur, hsized, hformats⟩, hplaced, hsorted, hbefore, hsize, ?_, ?_,
    hpending, hunstarted, hskipped, fun _ _ => rfl⟩
  · rw [allUpdates_framesOf] at hshadow ⊢
    exact hshadow
  · exact fun e he => (hlog e he).extend [] (List.append_nil _).symm (Nat.le_refl _) nofun

theorem firstFrame (h : Recorded a ⟨r, pending, log⟩ file css cur)
    (hwas : r.m_WasRecording = false)
    (hformats : SameFormats (loadRegisters file.m_CPMem a) r.analyzer) :
    Recorded a ⟨{ r with
      m_WasRecording := true
      m_SkipNextData := true
      m_SkipFutureData := false
      m_FrameEnded := false
      m_FifoData := [] }, pending, log⟩ file css cur := by
  obtain ⟨⟨hfile, hframes, hcur, hsized, -⟩, hplaced, hsorted, hbefore, hsize, hshadow, hlog,
    hpending, hunstarted, hskipped, hending⟩ := h
  obtain ⟨hnext, -, rfl⟩ := hunstarted hwas
  obtain rfl := hskipped hnext
  have hdata : r.m_FifoData = [] := hcur
  rw [← hdata]
  refine ⟨⟨hfile, hframes, hcur, hsized, fun _ => hformats⟩, hplaced, hsorted, hbefore, hsize, ?_,
    hlog, nofun, nofun, fun _ => rfl, nofun⟩
  exact hshadow

theorem checkEnd (h : Recorded a ⟨r, pending, log⟩ file css cur) (hwas : r.m_WasRecording = true)
    (hended : r.m_SkipNextData = false → r.m_FrameEnded = true) :
    Recorded a ⟨r.checkEnd, pending, log⟩ file css cur := by
  unfold FifoRecorder.checkEnd
  split
  · obtain ⟨⟨hfile, hframes, hcur, hsized, hformats⟩, hplaced, hsorted, hbefore, hsize, hshadow,
      hlog, hpending, -, hskipped, -⟩ := h
    refine ⟨⟨hfile, hframes, hcur, hsized, fun hskip => hformats (.inl ?_)⟩, hplaced, hsorted,
      hbefore, hsize, ?_, hlog, hpending, fun hfalse => ?_, hskipped, fun _ => hended⟩
    · exact hskip.resolve_right nofun
    · exact hshadow
    · exact absurd (hwas.symm.trans hfalse) (by decide)
  · exact h

theorem endFrame (h : Recorded a ⟨r, pending, log⟩ file css cur)
    (hformats : r.m_WasRecording = false →
      SameFormats (loadRegisters file.m_CPMem a) r.analyzer) (fifoStart fifoEnd : BitVec 32) :
    Recorded a ⟨r.EndFrame fifoStart fifoEnd, pending, log⟩ file css cur := by
  unfold FifoRecorder.EndFrame
  simp only
  split
  · next hwas =>
    split
    · exact (h.frameEnded fifoStart fifoEnd _ _).checkEnd hwas fun _ => rfl
    · exact (h.frameEnded fifoStart fifoEnd r.m_RecordFramesRemaining
        r.m_RequestedRecordingEnd).checkEnd hwas fun _ => rfl
  · next hwas =>
    have hwas : r.m_WasRecording = false := Bool.eq_false_iff.mpr hwas
    exact ((h.frameEnded fifoStart fifoEnd r.m_RecordFramesRemaining
      r.m_RequestedRecordingEnd).firstFrame hwas (hformats hwas)).checkEnd rfl nofun

theorem setVideoMemory (h : Recorded a ⟨r, pending, log⟩ file css cur)
    (hwas : r.m_WasRecording = false) (bpMem : Fin BP_MEM_SIZE → BitVec 32)
    (cpMem : Fin CP_MEM_SIZE → BitVec 32) (xfMem : Fin XF_MEM_SIZE → BitVec 32)
    (xfRegs : Fin XF_REGS_SIZE → BitVec 32) (texMem : Fin TEX_MEM_SIZE → Byte) :
    ∃ file', Recorded a ⟨r.SetVideoMemory bpMem cpMem xfMem xfRegs texMem, pending, log⟩ file' css
      cur := by
  obtain ⟨⟨hfile, hframes, hcur, -, -⟩, hplaced, hsorted, hbefore, hsize, hshadow, hlog, hpending,
    hunstarted, hskipped, hending⟩ := h
  obtain ⟨hnext, hfuture, rfl⟩ := hunstarted hwas
  obtain rfl := hskipped hnext
  have hnoFormats : ¬ (r.m_SkipNextData = false ∨ r.m_SkipFutureData = false) := by
    rw [show r.m_SkipNextData = true from hnext, show r.m_SkipFutureData = true from hfuture]
    decide
  refine ⟨{ file with m_BPMem := bpMem, m_CPMem := cpMem, m_XFMem := xfMem, m_XFRegs := xfRegs,
                      m_TexMem := texMem },
    ⟨?_, hframes, hcur, trivial, fun h => absurd h hnoFormats⟩, hplaced, hsorted, hbefore, hsize, ?_, hlog, hpending, hunstarted, hskipped, hending⟩
  · show Option.map _ r.m_File = _
    rw [show r.m_File = some file from hfile]
    rfl
  · exact hshadow

theorem stopRecording (h : Recorded a ⟨r, pending, log⟩ file css cur) :
    Recorded a ⟨r.StopRecording, pending, log⟩ file css cur := by
  obtain ⟨⟨hfile, hframes, hcur, hsized, hformats⟩, hplaced, hsorted, hbefore, hsize, hshadow, hlog,
    hpending, hunstarted, hskipped, hending⟩ := h
  exact ⟨⟨hfile, hframes, hcur, hsized, hformats⟩, hplaced, hsorted, hbefore, hsize, hshadow, hlog,
    hpending, hunstarted, hskipped, hending⟩

end Recorded

end DolphinCore.FifoPlayer
