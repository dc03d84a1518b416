import DolphinCore.FifoPlayer.Playback
import DolphinCore.FifoPlayer.Recording

/-!
# DolphinCore.FifoPlayer.Replay

Runs of the recorder, played by the player: the recorded bytes in order, every
update once and in time, and memory as the commands saw it.
-/

namespace DolphinCore.FifoPlayer

open GX Timed

/-! ## runs of the recorder -/

namespace Tape

variable {a : Analyzer} {s t : Tape}

/-- A recording of commands, of any file. -/
def Ok (a : Analyzer) (s : Tape) : Prop := ∃ file css cur, Recorded a s file css cur

theorem writeGPCommand_ok {r r' : FifoRecorder} {pending : List Seen} {log : List SeenAt}
    {mem : Memory} {data : List Byte} (h : Ok a ⟨r, pending, log⟩)
    (hok : StepOk a ⟨r, pending, log⟩ (.writeGPCommand mem data))
    (hr : r.WriteGPCommand mem data = some r') :
    Ok a (if r.m_SkipNextData then ⟨r', [], log⟩
      else ⟨r', [], log ++ (pending ++ (commandUses r.analyzer.cpMem data).map (seen mem)).map
        (note r)⟩) := by
  obtain ⟨file, css, cur, h⟩ := h
  unfold FifoRecorder.WriteGPCommand at hr
  rw [Option.map_eq_some_iff] at hr
  obtain ⟨r₁, h₁, rfl⟩ := hr
  split at h₁
  · next hskip =>
    cases h₁
    rw [if_pos hskip]
    exact ⟨file, css, cur, h.skipData hskip⟩
  · next hskip =>
    rw [if_neg hskip]
    have hskip : r.m_SkipNextData = false := Bool.eq_false_iff.mpr hskip
    obtain ⟨hsized, hunchanged, hsize⟩ := hok hskip
    rw [Option.map_eq_some_iff] at h₁
    obtain ⟨r₂, h₂, rfl⟩ := h₁
    have hused := h.useAll hunchanged h₂
    obtain ⟨ram, frame, rfl⟩ := useAll_only h₂
    obtain ⟨happ, hplaced⟩ := hused.append hskip hsized hsize
    refine happ.closeFrame hskip ⟨cur, data, rfl, hplaced⟩ ?_
    exact List.append_ne_nil_of_right_ne_nil _ hsized.nonempty

theorem step_ok (h : Ok a s) {act : TapeAction} (hok : StepOk a s act)
    (hs : step s act = some t) : Ok a t := by
  obtain ⟨r, pending, log⟩ := s
  cases act with
  | useMemory mem use =>
    obtain ⟨file, css, cur, h⟩ := h
    obtain ⟨r', hr, rfl⟩ := Option.map_eq_some_iff.mp hs
    exact ⟨file, css, cur, h.useMemory hok hr⟩
  | writeGPCommand mem data =>
    obtain ⟨r', hr, rfl⟩ := Option.map_eq_some_iff.mp hs
    exact writeGPCommand_ok h hok hr
  | endFrame fifoStart fifoEnd =>
    obtain ⟨file, css, cur, h⟩ := h
    obtain ⟨-, hsome⟩ := Option.ite_none_right_eq_some.mp hs
    cases hsome
    exact ⟨file, css, cur, h.endFrame (fun hwas => hok hwas file h.commands.inFile) _ _⟩
  | setVideoMemory bpMem cpMem xfMem xfRegs texMem =>
    obtain ⟨file, css, cur, h⟩ := h
    cases hs
    obtain ⟨file', h'⟩ := h.setVideoMemory hok bpMem cpMem xfMem xfRegs texMem
    exact ⟨file', css, cur, h'⟩
  | stopRecording =>
    obtain ⟨file, css, cur, h⟩ := h
    cases hs
    exact ⟨file, css, cur, h.stopRecording⟩

/-- **Every run of the recorder** records what the commands see. -/
theorem run_ok {r : FifoRecorder} (h : Over r) {bWii : Bool} {numFrames : Int}
    (hrun : Run step (StepOk a) (start r bWii numFrames) s) : Ok a s :=
  hrun.invariant ⟨_, _, _, Recorded.start h a bWii numFrames⟩ fun _ _ _ h hok hs => step_ok h hok hs

end Tape

/-! ## what the player is given -/

variable {frames : List FifoFrameInfo}

theorem analyzeAll_placed {css : List (List (List Byte))}
    (hdata : List.Forall₂ (fun frame cs => frame.fifoData = cs.flatten) frames css)
    (hplaced : List.Forall₂ Placed frames css) {a : Analyzer} (h : Sized a css.flatten) :
    List.Forall₂ (fun (frame : FifoFrameInfo) (info : AnalyzedFrameInfo) =>
      info.memoryUpdates = frame.memoryUpdates) frames (analyzeAll a frames) := by
  induction hdata generalizing a with
  | nil => exact .nil
  | @cons frame cs frames css hframe _ ih =>
    obtain ⟨hplace, hplaced⟩ := List.forall₂_cons.mp hplaced
    rw [List.flatten_cons, Sized.append] at h
    have hsame : SameFormats a { a with drawingObject := false } := ⟨rfl, rfl⟩
    have hafter := FrameWalk.foldl_advance_analyzer (.start a frame) cs
    rw [analyzeAll, analyzeFrame_of_sized hframe (hsame.sized h.1)]
    refine .cons ?_ (ih hplaced ?_)
    · obtain ⟨init, c, rfl, hbefore⟩ := hplace.before
      rw [FrameWalk.finish_memoryUpdates, FrameWalk.foldl_advance_memoryUpdates fun u hu => ?_]
      · rfl
      · exact Nat.le_add_left_of_le (hbefore u hu)
    · rw [FrameWalk.finish_analyzer, hafter]
      exact (hsame.after cs).sized h.2

/-- A frame is played: its bytes in order, and its updates, each once, and at every byte exactly
those whose position has come. -/
structure Played (frame : FifoFrameInfo) (es : List PlayEvent) : Prop where
  bytes : items es = frame.fifoData
  updates : events es = frame.memoryUpdates
  inTime : ∀ pre b post, es = pre ++ .item b :: post →
    events pre = frame.memoryUpdates.filter fun u => u.position ≤ (items pre).length

/-- When the command is played, the memory that it uses is as it was seen. -/
def SeesAgain (ess : List (List PlayEvent)) (e : SeenAt) : Prop :=
  ∃ pre b post, ess[e.frame]? = some (pre ++ .item b :: post) ∧ (items pre).length = e.position ∧
    (memoryAfter .zero ((ess.take e.frame).flatten ++ pre)).read e.region = e.bytes

/-- What the player does for a frame. -/
def frameTimeline (frame : FifoFrameInfo) : List PlayEvent :=
  timeline MemoryUpdate.position 0 frame.fifoData frame.memoryUpdates

section

variable {frame : FifoFrameInfo} {cs : List (List Byte)}

theorem Placed.events (h : Placed frame cs) (hdata : frame.fifoData = cs.flatten)
    (hne : ∀ c ∈ cs, c ≠ []) : events (frameTimeline frame) = frame.memoryUpdates := by
  obtain ⟨init, c, rfl, hbefore⟩ := h.before
  have hc : c ≠ [] := hne c (List.mem_append_right _ (List.mem_singleton_self c))
  rw [List.flatten_append, List.flatten_singleton] at hdata
  have hall := @events_timeline _ _ MemoryUpdate.position 0 frame.fifoData frame.memoryUpdates
  have hnil : laterEvents MemoryUpdate.position 0 frame.fifoData frame.memoryUpdates = [] := by
    refine laterEvents_eq_nil ?_ fun u hu => ?_
    · rw [hdata]
      exact List.append_ne_nil_of_right_ne_nil _ hc
    · have hpos := List.length_pos_iff.mpr hc
      have hle := hbefore u hu
      rw [hdata, List.length_append]
      omega
  rwa [hnil, List.append_nil] at hall

theorem Placed.played (h : Placed frame cs) (hdata : frame.fifoData = cs.flatten)
    (hne : ∀ c ∈ cs, c ≠ []) : Played frame (frameTimeline frame) := by
  refine ⟨items_timeline, h.events hdata hne, fun pre b post hsplit => ?_⟩
  have hbefore := events_before h.sorted hsplit
  rwa [Nat.zero_add] at hbefore

end

theorem playFrames_eq {range : ObjectRange} {infos : List AnalyzedFrameInfo}
    (hupdates : List.Forall₂ (fun frame info => info.memoryUpdates = frame.memoryUpdates) frames
      infos)
    (hobjects : List.Forall₂ (fun frame info => info.Objects frame.fifoData.length) frames infos)
    (hsize : ∀ frame ∈ frames, frame.fifoData.length < 2 ^ 32)
    (hfull : ∀ info ∈ infos, range.Full info) :
    playFrames range frames infos = some (frames.map frameTimeline) := by
  induction hupdates with
  | nil => rfl
  | @cons frame info frames infos hupdate _ ih =>
    obtain ⟨hobject, hobjects⟩ := List.forall₂_cons.mp hobjects
    obtain ⟨hframe, hframes⟩ := List.forall_mem_cons.mp hsize
    obtain ⟨hinfo, hinfos⟩ := List.forall_mem_cons.mp hfull
    rw [playFrames, WriteFrame_full (congrArg List.length hupdate) hobject hframe hinfo, hupdate,
      ih hobjects hframes hinfos]
    rfl

theorem memoryAfter_append (m : Memory) (xs ys : List PlayEvent) :
    memoryAfter m (xs ++ ys) = memoryAfter (memoryAfter m xs) ys := by
  unfold memoryAfter
  rw [events_append, List.foldl_append]

theorem memoryAfter_flatten
    (h : ∀ frame ∈ frames, events (frameTimeline frame) = frame.memoryUpdates) (m : Memory) :
    memoryAfter m (frames.map frameTimeline).flatten = (allUpdates frames).foldl WriteMemory m := by
  induction frames generalizing m with
  | nil => rfl
  | cons frame frames ih =>
    obtain ⟨hframe, hframes⟩ := List.forall_mem_cons.mp h
    unfold allUpdates at ih ⊢
    rw [List.map_cons, List.flatten_cons, memoryAfter_append, ih hframes, List.flatMap_cons,
      List.foldl_append, memoryAfter, hframe]

theorem SeenIn.seesAgain {e : SeenAt} (h : SeenIn frames e)
    (hplayed : ∀ frame ∈ frames, Played frame (frameTimeline frame)) :
    SeesAgain (frames.map frameTimeline) e := by
  obtain ⟨frame, hget, hpos, hread⟩ := h
  have hframe := hplayed frame (List.mem_of_getElem? hget)
  rw [← hframe.bytes] at hpos
  obtain ⟨pre, b, post, hsplit, hpre⟩ := exists_item hpos
  refine ⟨pre, b, post, ?_, hpre, ?_⟩
  · rw [List.getElem?_map, hget, Option.map_some, hsplit]
  · have htake : ∀ f ∈ frames.take e.frame, events (frameTimeline f) = f.memoryUpdates :=
      fun f hf => (hplayed f (List.mem_of_mem_take hf)).updates
    rw [← List.map_take, memoryAfter_append, memoryAfter_flatten htake]
    unfold memoryAfter
    rw [hframe.inTime pre b post hsplit, hpre, ← List.foldl_append]
    unfold memoryAt updatesBefore at hread
    rw [hget] at hread
    exact hread

theorem SeenIn.of_append {frames more : List FifoFrameInfo} {e : SeenAt}
    (h : SeenIn (frames ++ more) e) (hlt : e.frame < frames.length) : SeenIn frames e := by
  obtain ⟨frame, hget, hpos, hread⟩ := h
  rw [List.getElem?_append_left hlt] at hget
  unfold memoryAt at hread
  rw [updatesBefore_append hlt] at hread
  exact ⟨frame, hget, hpos, hread⟩

theorem exists_placed {css : List (List (List Byte))}
    (hdata : List.Forall₂ (fun frame cs => frame.fifoData = cs.flatten) frames css)
    (hplaced : List.Forall₂ Placed frames css) {frame : FifoFrameInfo} (hmem : frame ∈ frames) :
    ∃ cs ∈ css, frame.fifoData = cs.flatten ∧ Placed frame cs := by
  induction hdata with
  | nil => cases hmem
  | cons hframe _ ih =>
    obtain ⟨hplace, hplaced⟩ := List.forall₂_cons.mp hplaced
    rcases List.mem_cons.mp hmem with rfl | hmem
    · exact ⟨_, List.mem_cons_self .., hframe, hplace⟩
    · obtain ⟨cs, hcs, h⟩ := ih hplaced hmem
      exact ⟨cs, List.mem_cons_of_mem _ hcs, h⟩

/-- **A recording is played** as it was recorded, when its commands are those of the analyzer;
and the player indexes the updates of any file in range exactly when the analysis finds them. -/
theorem playback_of_run (a : Analyzer) :
    (∀ (r : FifoRecorder) (bWii : Bool) (numFrames : Int) (s : Tape), Tape.Over r →
      Run Tape.step (Tape.StepOk a) (.start r bWii numFrames) s →
      ∀ file, s.recorder.m_File = some file →
      ∀ range : ObjectRange, (∀ info ∈ AnalyzeFrames a file, range.Full info) →
      ∃ ess, playFrames range file.m_Frames (AnalyzeFrames a file) = some ess ∧
        List.Forall₂ Played file.m_Frames ess ∧
        ∀ e ∈ s.log, e.frame < file.m_Frames.length → SeesAgain ess e) ∧
    ∀ file : FifoDataFile, (∀ frame ∈ file.m_Frames, frame.fifoData.length < 2 ^ 32) →
      (List.Forall₂ (fun frame info => ∀ early range, (WriteFrame early range frame info).isSome)
          file.m_Frames (AnalyzeFrames a file) ↔
        UpdatesFound (loadRegisters file.m_CPMem a) file.m_Frames) := by
  refine ⟨fun r bWii numFrames s hover hrun file hfile range hfull => ?_,
    fun file hsize => analyzeAll_isSome_iff _ hsize⟩
  obtain ⟨file', css, cur, h⟩ := Tape.run_ok hover hrun
  obtain rfl : file' = file := Option.some.inj (h.commands.inFile.symm.trans hfile)
  have hframes := h.commands.frames
  have hsized : Sized (loadRegisters file'.m_CPMem a) css.flatten :=
    (Sized.append.mp h.commands.sized).1
  have hplaced : ∀ frame ∈ file'.m_Frames, frame.fifoData.length < 2 ^ 32 ∧
      Played frame (frameTimeline frame) := by
    intro frame hmem
    obtain ⟨cs, hcs, hdata, hplace⟩ := exists_placed hframes h.placed hmem
    have hne : ∀ c ∈ cs, c ≠ [] := fun c hc => hsized.nonempty c (List.mem_flatten_of_mem hcs hc)
    exact ⟨hplace.size, hplace.played hdata hne⟩
  refine ⟨file'.m_Frames.map frameTimeline, ?_, ?_, fun e he hlt => ?_⟩
  · exact playFrames_eq (analyzeAll_placed hframes h.placed hsized)
      (walked_of_sized hframes hsized).analyzeAll (fun frame hmem => (hplaced frame hmem).1) hfull
  · exact List.forall₂_map_right_iff.mpr (List.forall₂_same.mpr fun frame hmem =>
      (hplaced frame hmem).2)
  · exact ((h.log e he).of_append hlt).seesAgain fun frame hmem => (hplaced frame hmem).2

/-! ## runs -/

/-- The recorder before it was used. -/
def unused : FifoRecorder :=
  ⟨false, false, false, 0, none, true, true, false, ⟨[], 0, 0, []⟩, [], .zero,
    Session.zeroAnalyzer, []⟩

/-- Memory in which all bytes are seven. -/
def sevens : Memory := fun _ _ => 7

/-- An opcode without operands, with a byte of memory that was used before it, and the copy that
ends the frame. -/
def sevensFrame : FifoFrameInfo :=
  ⟨[0x00, 0x61, 0x52, 0, 0x40, 0], 0, 0, [⟨0, 0x20, [7], .TEXTURE_MAP⟩]⟩

theorem sevens_run : ∃ s file,
    Run Tape.step (Tape.StepOk Session.zeroAnalyzer) (.start unused false 1) s ∧
      s.recorder.m_File = some file ∧
      file.m_Frames = [sevensFrame] ∧ s.log = [⟨⟨.at 0x20 1, [7]⟩, 0, 0⟩] := by
  have hformats : SameFormats (loadRegisters (fun _ => 0) Session.zeroAnalyzer)
      Session.zeroAnalyzer := by
    refine ⟨by decide, funext fun i => ?_⟩
    revert i
    decide
  have hframe : Run Tape.step (Tape.StepOk Session.zeroAnalyzer) (.start unused false 1) _ :=
    .single (.endFrame 0 0) (by intro _ file hfile; cases hfile; exact hformats) rfl
  have hskipped := hframe.tail (.writeGPCommand sevens [0x00]) (by intro h; cases h) rfl
  have hused := hskipped.tail (.useMemory sevens ⟨0x20, 1, .TEXTURE_MAP⟩)
    (by intro _ p hp; cases hp) rfl
  have hnop := hused.tail (.writeGPCommand sevens [0x00])
    (by intro _; exact ⟨⟨rfl, by decide, by decide, by decide⟩, nofun, by decide⟩) rfl
  have hended := hnop.tail (.endFrame 0 0) (by intro h; cases h) rfl
  have hcopy := hended.tail (.writeGPCommand sevens [0x61, 0x52, 0, 0x40, 0])
    (by intro _; exact ⟨⟨rfl, by decide, by decide, by decide⟩, nofun, by decide⟩) rfl
  exact ⟨_, _, hcopy, rfl, rfl, rfl⟩

theorem sevens_full (a : Analyzer) :
    ∀ info ∈ analyzeAll a [sevensFrame], ObjectRange.Full ⟨0, 10000⟩ info := by
  have hsized : Sized { a with drawingObject := false } [[0x00], [0x61, 0x52, 0, 0x40, 0]] :=
    ⟨⟨rfl, by decide, by decide, by decide⟩, ⟨rfl, by decide, by decide, by decide⟩, trivial⟩
  intro info hinfo
  unfold analyzeAll at hinfo
  rw [analyzeFrame_of_sized (show sevensFrame.fifoData = List.flatten [_, _] from rfl) hsized]
    at hinfo
  obtain rfl := List.mem_singleton.mp hinfo
  exact ⟨rfl, Nat.zero_le _⟩

theorem sevens_starts (a : Analyzer) :
    commandStarts { a with drawingObject := false } 0 sevensFrame.fifoData =
      ([0, 1], some { a with drawingObject := false }) := by
  have hend : commandStarts { a with drawingObject := false } 6 [] =
      ([], some { a with drawingObject := false }) := by rw [commandStarts]
  have hcopy : commandStarts { a with drawingObject := false } 1 [0x61, 0x52, 0, 0x40, 0] =
      ([1], some { a with drawingObject := false }) := by
    refine (commandStarts_cons (by exact Nat.succ_ne_zero 4)).trans ?_
    show (1 :: (commandStarts { a with drawingObject := false } 6 []).1,
      (commandStarts { a with drawingObject := false } 6 []).2) = _
    rw [hend]
  refine (commandStarts_cons (by exact Nat.succ_ne_zero 0)).trans ?_
  show (0 :: (commandStarts { a with drawingObject := false } 1 [0x61, 0x52, 0, 0x40, 0]).1,
    (commandStarts { a with drawingObject := false } 1 [0x61, 0x52, 0, 0x40, 0]).2) = _
  rw [hcopy]

theorem playback_of_run_sevens : ∃ s file ess,
    Run Tape.step (Tape.StepOk Session.zeroAnalyzer) (.start unused false 1) s ∧
      s.recorder.m_File = some file ∧
      playFrames ⟨0, 10000⟩ file.m_Frames (AnalyzeFrames Session.zeroAnalyzer file) = some ess ∧
      List.Forall₂ Played [sevensFrame] ess ∧ SeesAgain ess ⟨⟨.at 0x20 1, [7]⟩, 0, 0⟩ ∧
      List.Forall₂ (fun frame info => ∀ early range, (WriteFrame early range frame info).isSome)
        file.m_Frames (AnalyzeFrames Session.zeroAnalyzer file) := by
  obtain ⟨s, file, hrun, hfile, hframes, hlog⟩ := sevens_run
  have hover : Tape.Over unused := ⟨rfl, rfl, rfl, rfl, rfl⟩
  have hfull : ∀ info ∈ AnalyzeFrames Session.zeroAnalyzer file,
      ObjectRange.Full ⟨0, 10000⟩ info := by
    unfold AnalyzeFrames
    rw [hframes]
    exact sevens_full _
  obtain ⟨hplay, hindices⟩ := playback_of_run Session.zeroAnalyzer
  obtain ⟨ess, hess, hplayed, hseen⟩ := hplay _ _ _ _ hover hrun file hfile _ hfull
  have hfound : UpdatesFound (loadRegisters file.m_CPMem Session.zeroAnalyzer) file.m_Frames := by
    rw [hframes, UpdatesFound, sevens_starts]
    refine ⟨.inr fun u hu => ⟨0, List.mem_cons_self .., ?_⟩, trivial⟩
    rw [List.mem_singleton.mp hu]
    decide
  refine ⟨s, file, ess, hrun, hfile, hess, hframes ▸ hplayed, ?_,
    (hindices file (by rw [hframes]; decide)).mpr hfound⟩
  exact hseen _ (by rw [hlog]; exact List.mem_singleton_self _) (by rw [hframes]; decide)

/-- A frame of an opcode that the analyzer does not know and another one, with an update between
them. -/
def unknownFrame : FifoFrameInfo := ⟨[0x01, 0x00], 0, 0, [⟨1, 0, [0x07], .TEXTURE_MAP⟩]⟩

theorem analyzeAll_unknown (a : Analyzer) : analyzeAll a [unknownFrame] = [.empty] := by
  have herror : analyzeFrame a unknownFrame =
      .error (.start { a with drawingObject := false } unknownFrame) := by
    unfold analyzeFrame
    rw [show unknownFrame.fifoData = [0x01, 0x00] from rfl, decode_of_error rfl]
    rfl
  unfold analyzeAll
  rw [herror]
  rfl

/-- The analysis ends before the update, and the player asks for it. -/
theorem index_past_end : ¬ ∀ (a : Analyzer) (file : FifoDataFile) (range : ObjectRange),
    (∀ frame ∈ file.m_Frames, frame.fifoData.length < 2 ^ 32) →
    List.Forall₂ (fun frame info => (WriteFrame false range frame info).isSome)
      file.m_Frames (AnalyzeFrames a file) := by
  intro h
  have hfile := h ⟨⟨⟨0⟩, fun _ => ⟨0, 0, 0⟩, fun _ => 0, fun _ => 0⟩, false⟩
    { FifoDataFile.new false with m_Frames := [unknownFrame] } ⟨0, 10000⟩ (by decide)
  unfold AnalyzeFrames at hfile
  rw [analyzeAll_unknown, List.forall₂_cons] at hfile
  have hparts : WriteFramePart unknownFrame .empty 2 0 0 = none := by
    rw [WriteFramePart, if_pos (by decide)]
    rfl
  have hwrite : WriteFrame false ⟨0, 10000⟩ unknownFrame .empty = none := by
    unfold WriteFrame
    rw [show frameParts unknownFrame .empty ⟨0, 10000⟩ = [(0, 2)] from rfl]
    show writeParts unknownFrame .empty 0 [(0, 2)] = none
    rw [writeParts, hparts]
    rfl
  rw [hwrite] at hfile
  cases hfile.1

end DolphinCore.FifoPlayer
