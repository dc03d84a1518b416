import DolphinCore.FifoPlayer.RecordedCommands
import DolphinCore.Lib.Run

/-!
# DolphinCore.FifoPlayer.Recording

The main decoder and the recorder together: every command that the decoder
executes while a recording is on is given to the recorder, commands of display
lists one by one. A recording begins, and each of its frames ends, at a copy to
the XFB, which is a BP command.

The size check of the recorder never fires, and the player's analysis walks every
recorded frame, as long as the commands are analyzable.
-/

namespace DolphinCore.FifoPlayer

open GX

/-! ## the system -/

/-- The main decoder, the recorder and `g_bRecordFifoData`. -/
structure Session where
  decoders : Decoders
  recorder : FifoRecorder
  g_bRecordFifoData : Bool

/-- The memories other than that of the command processor. -/
structure VideoMemory where
  bpMem : Fin BP_MEM_SIZE → BitVec 32
  xfMem : Fin XF_MEM_SIZE → BitVec 32
  xfRegs : Fin XF_REGS_SIZE → BitVec 32
  texMem : Fin TEX_MEM_SIZE → Byte

inductive SessionAction where
  /-- The main decoder executes a command, of the stream or of a display list. -/
  | command (sizeCheck : Bool) (cmd_byte : Byte) (data : List Byte) (mem : Memory)
  /-- It executes a copy to the XFB. -/
  | copyToXFB (sizeCheck : Bool) (data : List Byte) (video : VideoMemory)
    (CPBase CPEnd : BitVec 32) (mem : Memory)
  /-- The video backend uses memory. -/
  | useMemory (mem : Memory) (use : MemoryUse)
  | startRecording (bWii : Bool) (numFrames : Int)
  | stopRecording

namespace Session

/-- A command that was executed is given to the recorder. -/
def record (s : Session) (mem : Memory) (bytes : List Byte) : Option Session :=
  if s.g_bRecordFifoData then
    (s.recorder.WriteGPCommand mem bytes).map fun r => { s with recorder := r }
  else some s

/-- `CheckFifoRecording`, which also begins a recording. -/
def CheckFifoRecording (s : Session) (video : VideoMemory) (CPBase CPEnd : BitVec 32) : Session :=
  let wasRecording := s.g_bRecordFifoData
  let s := { s with g_bRecordFifoData := s.recorder.m_IsRecording }
  if s.g_bRecordFifoData then
    let r :=
      if wasRecording then s.recorder
      else s.recorder.SetVideoMemory video.bpMem (FillCPMemoryArray s.decoders.loaders.main.cp)
        video.xfMem video.xfRegs video.texMem
    { s with recorder := r.EndFrame CPBase CPEnd }
  else s

/-- The main decoder takes a command and goes on behind it; what a display list does is done by
the commands that come next. -/
def execute (gpu : GPU) (s : Session) (sizeCheck : Bool) (cmd_byte : Byte) (data : List Byte) :
    Option (Session × Nat) :=
  match command gpu false sizeCheck s.decoders cmd_byte data fun d _ => .ok (d, []) with
  | .ok (.next d n _) => some ({ s with decoders := d }, n)
  | _ => none

def step (gpu : GPU) (s : Session) : SessionAction → Option Session
  | .command sizeCheck cmd_byte data mem =>
    (s.execute gpu sizeCheck cmd_byte data).bind fun (s, n) =>
      if cmd_byte = 0x40 then some s else s.record mem (cmd_byte :: data.take n)
  | .copyToXFB sizeCheck data video CPBase CPEnd mem =>
    (s.execute gpu sizeCheck 0x61 data).bind fun (s, n) =>
      (s.CheckFifoRecording video CPBase CPEnd).record mem (0x61 :: data.take n)
  | .useMemory mem use =>
    if s.g_bRecordFifoData then
      (s.recorder.UseMemory mem use).map fun r => { s with recorder := r }
    else some s
  | .startRecording bWii numFrames =>
    some { s with recorder := s.recorder.StartRecording bWii numFrames }
  | .stopRecording => some { s with recorder := s.recorder.StopRecording }

/-- Commands are known, and those that are recorded are analyzable; a recording begins when the
last one is over, with an analyzer that has the formats that `Initialize` does not load. -/
def StepOk (s : Session) : SessionAction → Prop
  | .command _ cmd_byte data _ =>
    Known cmd_byte ∧ (s.g_bRecordFifoData = true → s.recorder.m_SkipNextData = false →
      Analyzable s.recorder.analyzer.cpMem cmd_byte data)
  | .copyToXFB _ _ _ _ _ _ =>
    s.recorder.m_IsRecording = true → s.g_bRecordFifoData = false → ∀ i,
      (s.recorder.analyzer.cpMem.vtxAttr i).g1 = (s.decoders.loaders.main.cp.vtx_attr i).g1 ∧
      (s.recorder.analyzer.cpMem.vtxAttr i).g2 = (s.decoders.loaders.main.cp.vtx_attr i).g2
  | .startRecording _ _ => s.recorder.m_IsRecording = false ∧ s.g_bRecordFifoData = false
  | .useMemory _ _ | .stopRecording => True

instance (s : Session) : (action : SessionAction) → Decidable (StepOk s action)
  | .command _ _ _ _ | .copyToXFB _ _ _ _ _ _ | .startRecording _ _ | .useMemory _ _
  | .stopRecording => by
    unfold StepOk
    infer_instance

end Session

/-- The recorder before the first recording. -/
def FifoRecorder.idle (analyzer : Analyzer) : FifoRecorder :=
  ⟨false, false, false, 0, none, true, true, false, ⟨[], 0, 0, []⟩, [], .zero, analyzer, []⟩

/-! ## one step -/

namespace Session

/-- What holds in a session at any time, when the player's analyzer will begin as `a`. -/
structure Base (a : Analyzer) (s : Session) : Prop where
  loaders : s.decoders.loaders.Ok
  fits : DescFits s.decoders.loaders.main.cp.vtx_desc
  alerts : s.recorder.alerts = []
  framed : s.recorder.m_WasRecording = true → Framed a s.recorder
  empty : s.recorder.m_WasRecording = false → ∀ file, s.recorder.m_File = some file →
    file.m_Frames = []
  hasFile : s.recorder.m_IsRecording = true → s.recorder.m_File.isSome = true
  armed : s.recorder.m_WasRecording = false → s.g_bRecordFifoData = false
  recording : s.recorder.m_IsRecording = true → s.recorder.m_WasRecording = true →
    s.g_bRecordFifoData = true

/-- Between the steps. -/
structure Ok (a : Analyzer) (s : Session) : Prop extends Base a s where
  settled : s.g_bRecordFifoData = true → s.recorder.m_SkipNextData = s.recorder.m_SkipFutureData
  mirrors : s.g_bRecordFifoData = true → s.recorder.m_SkipNextData = false →
    Mirrors s.recorder.analyzer.cpMem s.decoders.loaders.main.cp

/-- When a command was executed and is to be recorded; before it the main decoder had the
registers `cp`. -/
structure Executed (a : Analyzer) (cp : CPState) (s : Session) : Prop extends Base a s where
  mirrors : s.g_bRecordFifoData = true →
    s.recorder.m_SkipNextData = false ∨ s.recorder.m_SkipFutureData = false →
      Mirrors s.recorder.analyzer.cpMem cp

variable {gpu : GPU} {a : Analyzer} {s s' : Session} {sizeCheck : Bool} {cmd_byte : Byte}
  {data : List Byte} {n : Nat}

variable {outs : List Command}

theorem callDLCommand_loaders {d d' : Decoders}
    (h : callDLCommand gpu false sizeCheck d cmd_byte data (fun d _ => .ok (d, [])) =
      .ok (.next d' n outs)) : d'.loaders = d.loaders := by
  obtain ⟨-, h⟩ := checked_next h
  cases hr : interpretDisplayList gpu d (fun d _ => .ok (d, [])) (read32 data)
      (read32 (data.drop 4)).toNat with
  | error e =>
    rw [hr] at h
    cases h
  | ok r =>
    rw [hr] at h
    obtain ⟨rfl, -, -⟩ := finish_next h
    unfold interpretDisplayList at hr
    split at hr
    · cases hp : d.popFifoAuxBuffer (read32 (data.drop 4)).toNat with
      | error e =>
        rw [hp] at hr
        cases hr
      | ok p =>
        obtain ⟨block, t⟩ := p
        rw [hp] at hr
        cases hr
        exact popFifoAuxBuffer_loaders hp
    · cases hr
      rfl

theorem execute_some (hok : s.decoders.loaders.Ok) (hknown : Known cmd_byte)
    (h : s.execute gpu sizeCheck cmd_byte data = some (s', n)) :
    ∃ d, s' = { s with decoders := d } ∧ (cmd_byte = 0x40 → d.loaders = s.decoders.loaders) ∧
      (cmd_byte ≠ 0x40 → ∃ outs, Effect gpu.bWii s.decoders cmd_byte data d n outs) := by
  unfold execute at h
  split at h
  · next d n' outs hc =>
    cases h
    refine ⟨d, rfl, ?_, fun hne => ⟨outs, command_next hok hknown hne hc⟩⟩
    rintro rfl
    exact callDLCommand_loaders hc
  · cases h

theorem sized_of_effect {d d' : Decoders} {a : Analyzer}
    (h : Effect gpu.bWii d cmd_byte data d' n outs) (hmirror : Mirrors a.cpMem d.loaders.main.cp)
    (hknown : Known cmd_byte) (hcall : cmd_byte ≠ 0x40)
    (hanalyzable : Analyzable a.cpMem cmd_byte data) :
    SizedCommand a (cmd_byte :: data.take n) ∧
      Mirrors (AnalyzeCommand a (cmd_byte :: data.take n)).2.cpMem d'.loaders.main.cp := by
  have hlen : (data.take n).length = n := List.length_take_of_le h.complete
  have hoperands : operandSize cmd_byte ≤ (data.take n).length := by
    rw [hlen]
    exact h.operands
  have happ := AnalyzeCommand_append a hknown hoperands (data.drop n)
  rw [List.take_append_drop] at happ
  rw [← happ]
  refine ⟨⟨?_, List.cons_ne_nil _ _, hknown, ?_⟩, ?_⟩
  · rw [← happ, List.length_cons, hlen, h.size]
    exact (AnalyzeCommand_size hmirror hknown hcall data).mpr hanalyzable
  · rw [List.length_cons, hlen]
    exact Nat.succ_le_succ h.operands
  · exact (AnalyzeCommand_mirrors hmirror hknown gpu.bWii data).congr h.layout

/-- **A command is recorded.** One that is skipped when the next one will not be is a copy to
the XFB, which loads no register of the command processor. -/
theorem Executed.record {d : Decoders} {mem : Memory} (h : Executed a d.loaders.main.cp s)
    (heffect : Effect gpu.bWii d cmd_byte data s.decoders n outs) (hknown : Known cmd_byte)
    (hcall : cmd_byte ≠ 0x40)
    (hanalyzable : s.g_bRecordFifoData = true → s.recorder.m_SkipNextData = false →
      Analyzable s.recorder.analyzer.cpMem cmd_byte data)
    (hkeep : s.g_bRecordFifoData = true → s.recorder.m_SkipNextData = true →
      s.recorder.m_SkipFutureData = false →
        commandCP gpu.bWii d.loaders.main.cp cmd_byte data = d.loaders.main.cp)
    (hr : s.record mem (cmd_byte :: data.take n) = some s') : Ok a s' := by
  obtain ⟨hbase, hmirrors⟩ := h
  unfold Session.record at hr
  split at hr
  · next hg =>
    rw [Option.map_eq_some_iff] at hr
    obtain ⟨r, hr, rfl⟩ := hr
    have hsized : s.recorder.m_SkipNextData = false →
        SizedCommand s.recorder.analyzer (cmd_byte :: data.take n) ∧
          Mirrors (AnalyzeCommand s.recorder.analyzer (cmd_byte :: data.take n)).2.cpMem
            s.decoders.loaders.main.cp := fun hskip =>
      sized_of_effect heffect (hmirrors hg (.inl hskip)) hknown hcall (hanalyzable hg hskip)
    have hw := writeGPCommand_wrote a (fun hskip => (hsized hskip).1) hr
    have hwas : s.recorder.m_WasRecording = true := by
      by_contra hwas
      have := hbase.armed (by simpa using hwas)
      rw [hg] at this
      cases this
    refine ⟨⟨hbase.loaders, hbase.fits, hw.alerts.trans hbase.alerts,
      fun _ => hw.framed (hbase.framed hwas), ?_, ?_, ?_, fun _ _ => hg⟩, ?_, ?_⟩
    · intro hwas'
      rw [hw.wasRecording, hwas] at hwas'
      cases hwas'
    · intro hrec
      rw [hw.hasFile]
      exact hbase.hasFile (hw.isRecording ▸ hrec)
    · intro hwas'
      rw [hw.wasRecording, hwas] at hwas'
      cases hwas'
    · exact fun _ => hw.skipNext.trans hw.skipFuture.symm
    · intro _ hskip
      rw [hw.skipNext] at hskip
      rw [hw.analyzer]
      cases hnow : s.recorder.m_SkipNextData with
      | false => exact (hsized hnow).2
      | true =>
        have hcp := hkeep hg hnow hskip
        have hlayout := heffect.layout
        rw [hcp] at hlayout
        exact (hmirrors hg (.inr hskip)).congr hlayout
  · next hg =>
    cases hr
    exact ⟨hbase, fun h => absurd h hg, fun h => absurd h hg⟩

theorem Ok.executed {d : Decoders} (h : Ok a s)
    (heffect : Effect gpu.bWii s.decoders cmd_byte data d n outs) :
    Executed a s.decoders.loaders.main.cp { s with decoders := d } := by
  have hfits : DescFits d.loaders.main.cp.vtx_desc := by
    rw [heffect.layout.1]
    unfold commandCP
    split
    · exact h.fits.loadCPReg _ _ _
    · exact h.fits
  refine ⟨⟨heffect.ok, hfits, h.alerts, h.framed, h.empty, h.hasFile, h.armed, h.recording⟩,
    fun hg hskip => h.mirrors hg ?_⟩
  rcases hskip with hskip | hskip
  · exact hskip
  · exact (h.settled hg).trans hskip

theorem checkEnd_same (r : FifoRecorder) : r.checkEnd.alerts = r.alerts ∧
    r.checkEnd.analyzer = r.analyzer ∧ r.checkEnd.m_WasRecording = r.m_WasRecording ∧
    r.checkEnd.m_SkipNextData = r.m_SkipNextData ∧ r.checkEnd.m_File = r.m_File ∧
    r.checkEnd.m_FifoData = r.m_FifoData ∧
    (r.checkEnd.m_SkipFutureData = false → r.m_SkipFutureData = false) ∧
    (r.checkEnd.m_IsRecording = true → r.m_IsRecording = true) := by
  unfold FifoRecorder.checkEnd
  split
  · exact ⟨rfl, rfl, rfl, rfl, rfl, rfl, nofun, nofun⟩
  · exact ⟨rfl, rfl, rfl, rfl, rfl, rfl, id, id⟩

theorem endFrame_recording {r : FifoRecorder} (hwas : r.m_WasRecording = true)
    (fifoStart fifoEnd : BitVec 32) :
    (r.EndFrame fifoStart fifoEnd).alerts = r.alerts ∧
    (r.EndFrame fifoStart fifoEnd).analyzer = r.analyzer ∧
    (r.EndFrame fifoStart fifoEnd).m_WasRecording = true ∧
    (r.EndFrame fifoStart fifoEnd).m_SkipNextData = r.m_SkipNextData ∧
    (r.EndFrame fifoStart fifoEnd).m_File = r.m_File ∧
    (r.EndFrame fifoStart fifoEnd).m_FifoData = r.m_FifoData ∧
    ((r.EndFrame fifoStart fifoEnd).m_SkipFutureData = false → r.m_SkipFutureData = false) ∧
    ((r.EndFrame fifoStart fifoEnd).m_IsRecording = true → r.m_IsRecording = true) := by
  unfold FifoRecorder.EndFrame
  simp only [hwas, if_true]
  split
  · exact checkEnd_same _
  · exact checkEnd_same _

theorem endFrame_first {r : FifoRecorder} (hwas : r.m_WasRecording = false)
    (fifoStart fifoEnd : BitVec 32) :
    (r.EndFrame fifoStart fifoEnd).alerts = r.alerts ∧
    (r.EndFrame fifoStart fifoEnd).analyzer = r.analyzer ∧
    (r.EndFrame fifoStart fifoEnd).m_WasRecording = true ∧
    (r.EndFrame fifoStart fifoEnd).m_SkipNextData = true ∧
    (r.EndFrame fifoStart fifoEnd).m_File = r.m_File ∧
    (r.EndFrame fifoStart fifoEnd).m_FifoData = [] ∧
    ((r.EndFrame fifoStart fifoEnd).m_IsRecording = true → r.m_IsRecording = true) := by
  unfold FifoRecorder.EndFrame
  simp only [hwas, Bool.false_eq_true, if_false]
  obtain ⟨halerts, hanalyzer, hrec, hskip, hfile, hdata, -, hend⟩ := checkEnd_same
    { r with
      m_CurrentFrame := { r.m_CurrentFrame with fifoStart := fifoStart, fifoEnd := fifoEnd }
      m_WasRecording := true
      m_SkipNextData := true
      m_SkipFutureData := false
      m_FrameEnded := false
      m_FifoData := [] }
  exact ⟨halerts, hanalyzer, hrec, hskip, hfile, hdata, hend⟩

/-- **A copy to the XFB** begins a recording, or ends a frame, or does nothing. -/
theorem Executed.check {cp : CPState} (h : Executed a cp s)
    (hlayout : SameLayout s.decoders.loaders.main.cp cp)
    (hformats : s.recorder.m_IsRecording = true → s.g_bRecordFifoData = false → ∀ i,
      (s.recorder.analyzer.cpMem.vtxAttr i).g1 = (cp.vtx_attr i).g1 ∧
      (s.recorder.analyzer.cpMem.vtxAttr i).g2 = (cp.vtx_attr i).g2)
    (video : VideoMemory) (CPBase CPEnd : BitVec 32) :
    Executed a cp (s.CheckFifoRecording video CPBase CPEnd) := by
  obtain ⟨hbase, hmirrors⟩ := h
  unfold CheckFifoRecording
  cases hrec : s.recorder.m_IsRecording with
  | false =>
    exact ⟨⟨hbase.loaders, hbase.fits, hbase.alerts, hbase.framed, hbase.empty, hbase.hasFile,
      fun _ => rfl, fun h => absurd (hrec.symm.trans h) (by decide)⟩, nofun⟩
  | true =>
    cases hg : s.g_bRecordFifoData with
    | true =>
      have hwas : s.recorder.m_WasRecording = true := by
        by_contra hwas
        have := hbase.armed (by simpa using hwas)
        rw [hg] at this
        cases this
      obtain ⟨halerts, hanalyzer, hwas', hskip, hfile, hdata, hfuture, -⟩ :=
        endFrame_recording hwas CPBase CPEnd
      simp only [if_true]
      refine ⟨⟨hbase.loaders, hbase.fits, halerts.trans hbase.alerts, fun _ => ?_, ?_, ?_, ?_,
        fun _ _ => rfl⟩, fun _ hs => ?_⟩
      · obtain ⟨file, css, cur, hin, hframes, hcur, hsized, hsame⟩ := hbase.framed hwas
        refine ⟨file, css, cur, hfile.trans hin, hframes, hdata.trans hcur, hsized, fun hs => ?_⟩
        rw [hanalyzer]
        exact hsame (hs.imp hskip.symm.trans hfuture)
      · intro hno
        rw [hwas'] at hno
        cases hno
      · intro _
        rw [hfile]
        exact hbase.hasFile hrec
      · intro hno
        rw [hwas'] at hno
        cases hno
      · rw [hanalyzer]
        exact hmirrors hg (hs.imp hskip.symm.trans hfuture)
    | false =>
      have hwas : s.recorder.m_WasRecording = false := by
        by_contra hwas
        have := hbase.recording hrec (by simpa using hwas)
        rw [hg] at this
        cases this
      have hcpMem := loadRegisters_mirrors hbase.fits a
      have hinit := initialize_mirrors (a := s.recorder.analyzer) hbase.fits fun i => by
        rw [hlayout.2]
        exact hformats hrec hg i
      obtain ⟨file, hin⟩ := Option.isSome_iff_exists.mp (hbase.hasFile hrec)
      have hnone := hbase.empty hwas file hin
      simp only [Bool.false_eq_true, if_true, if_false]
      generalize hr : s.recorder.SetVideoMemory video.bpMem
        (FillCPMemoryArray s.decoders.loaders.main.cp) video.xfMem video.xfRegs video.texMem = r
      have hrwas : r.m_WasRecording = false := by
        rw [← hr]
        exact hwas
      have hranalyzer : r.analyzer = FifoRecorder.Initialize
          (FillCPMemoryArray s.decoders.loaders.main.cp) s.recorder.analyzer := by
        rw [← hr]
        rfl
      have hrfile : r.m_File = some { file with
          m_BPMem := video.bpMem, m_CPMem := FillCPMemoryArray s.decoders.loaders.main.cp,
          m_XFMem := video.xfMem, m_XFRegs := video.xfRegs, m_TexMem := video.texMem } := by
        rw [← hr]
        show Option.map _ s.recorder.m_File = _
        rw [hin]
        rfl
      have hralerts : r.alerts = [] := by
        rw [← hr]
        exact hbase.alerts
      obtain ⟨halerts, hanalyzer, hwas', hskip, hfile, hdata, -⟩ :=
        endFrame_first hrwas CPBase CPEnd
      refine ⟨⟨hbase.loaders, hbase.fits, halerts.trans hralerts, fun _ => ?_, ?_, ?_, ?_,
        fun _ _ => rfl⟩, fun _ _ => ?_⟩
      · refine ⟨_, [], [], hfile.trans hrfile, ?_, hdata, trivial, fun _ => ?_⟩
        · rw [hnone]
          exact .nil
        · rw [hanalyzer, hranalyzer]
          exact ⟨hcpMem.1.trans hinit.1.symm, hcpMem.2.trans hinit.2.symm⟩
      · intro hno
        rw [hwas'] at hno
        cases hno
      · intro _
        rw [hfile, hrfile]
        rfl
      · intro hno
        rw [hwas'] at hno
        cases hno
      · rw [hanalyzer, hranalyzer]
        exact hinit.congr ⟨hlayout.1.symm, hlayout.2.symm⟩

/-- **What a step preserves.** -/
theorem Ok.step {action : SessionAction} (h : Ok a s) (hok : StepOk s action)
    (hs : step gpu s action = some s') : Ok a s' := by
  cases action with
  | command sizeCheck cmd_byte data mem =>
    obtain ⟨hknown, hanalyzable⟩ := hok
    simp only [Session.step, Option.bind_eq_some_iff] at hs
    obtain ⟨⟨t, n⟩, ht, hs⟩ := hs
    obtain ⟨d, rfl, hcall, heffect⟩ := execute_some h.loaders hknown ht
    split at hs
    · next hc =>
      cases hs
      have hloaders := hcall hc
      refine ⟨⟨?_, ?_, h.alerts, h.framed, h.empty, h.hasFile, h.armed, h.recording⟩, h.settled, ?_⟩
      · rw [hloaders]
        exact h.loaders
      · rw [hloaders]
        exact h.fits
      · intro hg hskip
        rw [hloaders]
        exact h.mirrors hg hskip
    · next hc =>
      obtain ⟨outs, heffect⟩ := heffect hc
      refine (h.executed heffect).record heffect hknown hc hanalyzable ?_ hs
      intro hg hskip hfuture
      have hsame := h.settled hg
      rw [hskip, hfuture] at hsame
      cases hsame
  | copyToXFB sizeCheck data video CPBase CPEnd mem =>
    have hknown : Known 0x61 := by decide
    simp only [Session.step, Option.bind_eq_some_iff] at hs
    obtain ⟨⟨t, n⟩, ht, hs⟩ := hs
    obtain ⟨d, rfl, -, heffect⟩ := execute_some h.loaders hknown ht
    obtain ⟨outs, heffect⟩ := heffect (by decide)
    have hdecoders : (CheckFifoRecording { s with decoders := d } video CPBase CPEnd).decoders = d := by
      unfold CheckFifoRecording
      simp only
      split <;> rfl
    refine ((h.executed heffect).check heffect.layout hok video CPBase CPEnd).record
      (by rw [hdecoders]; exact heffect) hknown (by decide) ?_ (fun _ _ _ => rfl) hs
    exact fun _ _ => ⟨by decide, fun h => absurd h (by decide), fun h => absurd h (by decide)⟩
  | useMemory mem use =>
    simp only [Session.step] at hs
    split at hs
    · rw [Option.map_eq_some_iff] at hs
      obtain ⟨r, hr, rfl⟩ := hs
      have honly := useMemory_only hr
      have hframed : s.recorder.m_WasRecording = true → Framed a r := fun hwas =>
        (h.framed hwas).onlyMemory honly
      obtain ⟨_, _, rfl⟩ := honly
      exact ⟨⟨h.loaders, h.fits, h.alerts, hframed, h.empty, h.hasFile, h.armed, h.recording⟩,
        h.settled, h.mirrors⟩
    · cases hs
      exact h
  | startRecording bWii numFrames =>
    obtain ⟨hrec, hg⟩ := hok
    cases hs
    have hnot : ∀ {P : Prop}, s.g_bRecordFifoData = true → P := fun h => by
      rw [hg] at h
      cases h
    unfold FifoRecorder.StartRecording
    simp only [hrec, Bool.false_eq_true, if_false]
    refine ⟨⟨h.loaders, h.fits, h.alerts, nofun, ?_, fun _ => rfl, fun _ => hg, nofun⟩,
      fun h => hnot h, fun h => hnot h⟩
    intro _ file hfile
    cases hfile
    rfl
  | stopRecording =>
    cases hs
    have hframed : s.recorder.m_WasRecording = true → Framed a s.recorder.StopRecording := by
      intro hwas
      obtain ⟨file, css, cur, hin, hframes, hcur, hsized, hsame⟩ := h.framed hwas
      exact ⟨file, css, cur, hin, hframes, hcur, hsized, hsame⟩
    exact ⟨⟨h.loaders, h.fits, h.alerts, hframed, h.empty, h.hasFile, h.armed, h.recording⟩,
      h.settled, h.mirrors⟩

/-- Before the first recording. -/
def idle (decoders : Decoders) (analyzer : Analyzer) : Session :=
  ⟨decoders, .idle analyzer, false⟩

theorem ok_idle {decoders : Decoders} (hok : decoders.loaders.Ok)
    (hfits : DescFits decoders.loaders.main.cp.vtx_desc) (a analyzer : Analyzer) :
    Ok a (idle decoders analyzer) := by
  have hno : ∀ {P : Prop}, false = true → P := fun h => by cases h
  exact ⟨⟨hok, hfits, rfl, fun h => hno h, fun _ _ h => (nomatch h), fun h => hno h, fun _ => rfl,
    fun h => hno h⟩, fun h => hno h, fun h => hno h⟩

/-- **The analyzer and the main decoder**: of a command that the main decoder accepts the
analyzer finds the size exactly when the command is analyzable, and it keeps the same registers.
In a session whose recorded commands are analyzable the size check never fires, and every frame
of the file is walked. -/
theorem walked_of_run (gpu : GPU) :
    (∀ (callDL : Decoders → List Byte → Except Fault (Decoders × List Command)) (sizeCheck : Bool)
      (d d' : Decoders) (cmd_byte : Byte) (data : List Byte) (n : Nat) (outs : List Command)
      (a : Analyzer), d.loaders.Ok → Mirrors a.cpMem d.loaders.main.cp → Known cmd_byte →
      cmd_byte ≠ 0x40 →
      command gpu false sizeCheck d cmd_byte data callDL = .ok (.next d' n outs) →
      ((AnalyzeCommand a (cmd_byte :: data)).1 = n + 1 ↔ Analyzable a.cpMem cmd_byte data) ∧
      Mirrors (AnalyzeCommand a (cmd_byte :: data)).2.cpMem d'.loaders.main.cp) ∧
    ∀ (decoders : Decoders) (analyzer : Analyzer) (s : Session), decoders.loaders.Ok →
      DescFits decoders.loaders.main.cp.vtx_desc →
      Run (step gpu) StepOk (idle decoders analyzer) s →
      s.recorder.alerts = [] ∧ ∀ file, s.recorder.m_File = some file → ∀ a,
        Walked (loadRegisters file.m_CPMem a) file.m_Frames ∧
        List.Forall₂ (fun (frame : FifoFrameInfo) (info : AnalyzedFrameInfo) =>
          info.Objects frame.fifoData.length) file.m_Frames (AnalyzeFrames a file) := by
  constructor
  · intro callDL sizeCheck d d' cmd_byte data n outs a hok hmirror hknown hcall h
    have heffect := command_next hok hknown hcall h
    rw [heffect.size]
    exact ⟨AnalyzeCommand_size hmirror hknown hcall data,
      (AnalyzeCommand_mirrors hmirror hknown gpu.bWii data).congr heffect.layout⟩
  · intro decoders analyzer s hok hfits hrun
    have hinv : ∀ a, Ok a s := fun a =>
      hrun.invariant (ok_idle hok hfits a analyzer) fun _ _ _ h hok' hs => h.step hok' hs
    refine ⟨(hinv analyzer).alerts, fun file hfile a => ?_⟩
    have hwalked : Walked (loadRegisters file.m_CPMem a) file.m_Frames := by
      cases hwas : s.recorder.m_WasRecording with
      | true =>
        obtain ⟨file', css, cur, hin, hframes, -, hsized, -⟩ := (hinv a).framed hwas
        rw [hin] at hfile
        cases hfile
        exact walked_of_sized hframes (Sized.append.mp hsized).1
      | false =>
        rw [(hinv a).empty hwas file hfile]
        trivial
    exact ⟨hwalked, hwalked.analyzeAll⟩

/-! ## runs -/

/-- Registers that are all zero. -/
def zeroAnalyzer : Analyzer :=
  ⟨⟨⟨0⟩, fun _ => ⟨0, 0, 0⟩, fun _ => 0, fun _ => 0⟩, false⟩

def powerOn : Decoders := ⟨.init, [], []⟩

theorem powerOn_ok : powerOn.loaders.Ok := LoaderState.Ok.initManager .empty

def noVideo : VideoMemory := ⟨fun _ => 0, fun _ => 0, fun _ => 0, fun _ => 0⟩

/-- One frame is recorded: an opcode without operands, and the copy that ends the frame. -/
def oneFrame : List SessionAction :=
  [.startRecording false 1, .copyToXFB true [0x52, 0, 0x40, 0] noVideo 0 0 .zero,
    .command true 0x00 [] .zero, .copyToXFB true [0x52, 0, 0x40, 0] noVideo 0 0 .zero]

theorem oneFrame_run : ∃ s file, Run (step noMemory) StepOk (idle powerOn zeroAnalyzer) s ∧
    s.recorder.m_File = some file ∧
    file.m_Frames.map FifoFrameInfo.fifoData = [[0x00, 0x61, 0x52, 0, 0x40, 0]] :=
  ⟨_, _, Run.of_exec_guarded oneFrame rfl, rfl, rfl⟩

theorem walked_of_run_oneFrame : (AnalyzeCommand zeroAnalyzer [0x00]).1 = 1 ∧
      ∃ s file, Run (step noMemory) StepOk (idle powerOn zeroAnalyzer) s ∧
        s.recorder.m_File = some file ∧
        file.m_Frames.map FifoFrameInfo.fifoData = [[0x00, 0x61, 0x52, 0, 0x40, 0]] ∧
        s.recorder.alerts = [] ∧ Walked (loadRegisters file.m_CPMem zeroAnalyzer) file.m_Frames := by
  obtain ⟨hsize, hruns⟩ := walked_of_run noMemory
  have hnop := (hsize (fun d _ => .ok (d, [])) true powerOn powerOn 0x00 [] 0
    [⟨[0x00], none⟩] zeroAnalyzer powerOn_ok ⟨rfl, rfl⟩ (by decide) (by decide) rfl).1.mpr
    ⟨by decide, fun h => absurd h (by decide), fun h => absurd h (by decide)⟩
  obtain ⟨s, file, hrun, hfile, hdata⟩ := oneFrame_run
  have hfits : DescFits powerOn.loaders.main.cp.vtx_desc := fun i _ => BitVec.getLsbD_zero
  obtain ⟨halerts, hwalked⟩ := hruns powerOn zeroAnalyzer s powerOn_ok hfits hrun
  exact ⟨hnop, s, file, hrun, hfile, hdata, halerts, (hwalked file hfile zeroAnalyzer).1⟩

/-- The main decoder takes one byte for a reset; to the analyzer the opcode is unknown. -/
theorem reset_unknown : ¬ ∀ (d d' : Decoders) (cmd_byte : Byte) (data : List Byte) (n : Nat)
    (outs : List Command) (a : Analyzer), d.loaders.Ok → Mirrors a.cpMem d.loaders.main.cp →
    Known cmd_byte → cmd_byte ≠ 0x40 →
    command noMemory false true d cmd_byte data (fun d _ => .ok (d, [])) = .ok (.next d' n outs) →
    (AnalyzeCommand a (cmd_byte :: data)).1 = n + 1 := by
  intro h
  have hsize := h powerOn powerOn 0x01 [] 0 [⟨[0x01], none⟩] zeroAnalyzer powerOn_ok ⟨rfl, rfl⟩
    (by decide) (by decide) rfl
  rw [analyze_reset] at hsize
  cases hsize

end Session

end DolphinCore.FifoPlayer
