import DolphinCore.FifoPlayer.FifoPlaybackAnalyzer
import DolphinCore.FifoPlayer.FifoRecorder

/-!
# DolphinCore.FifoPlayer.RecordedCommands

A recording is made of commands: the analyzer of the recorder and that of the
player begin with the registers of the main decoder, and see the same commands
after that.
-/

namespace DolphinCore.FifoPlayer

open GX

/-! ## registers at the start of a recording -/

def FillCPMemoryArray (cp : CPState) (i : Fin CP_MEM_SIZE) : BitVec 32 :=
  let group : Fin 8 := Fin.ofNat 8 i
  let array : Fin 16 := Fin.ofNat 16 i
  match i.val / 16 with
  | 0x3 => if i.val = 0x30 then cp.matrix_index_a.setWidth 32 else 0
  | 0x4 => if i.val = 0x40 then cp.matrix_index_b.setWidth 32 else 0
  | 0x5 => if i.val = 0x50 then cp.vtx_desc.Hex.setWidth 32 else 0
  | 0x6 => if i.val = 0x60 then (cp.vtx_desc.Hex >>> 17).setWidth 32 else 0
  | 0x7 => if i.val < 0x78 then (cp.vtx_attr group).g0 else 0
  | 0x8 => if i.val < 0x88 then (cp.vtx_attr group).g1 else 0
  | 0x9 => if i.val < 0x98 then (cp.vtx_attr group).g2 else 0
  | 0xa => cp.array_bases array
  | 0xb => cp.array_strides array
  | _ => 0

theorem LoadCPReg_g0 (m : CPMemory) (i : Fin 8) (value : BitVec 32) :
    LoadCPReg (0x70 + BitVec.ofNat 8 i) value m = m.setAttr i fun vat => { vat with g0 := value } := by
  match i with
  | 0 | 1 | 2 | 3 | 4 | 5 | 6 | 7 => rfl

theorem LoadCPReg_g1 (m : CPMemory) (i : Fin 8) (value : BitVec 32) :
    LoadCPReg (0x80 + BitVec.ofNat 8 i) value m = m.setAttr i fun vat => { vat with g1 := value } := by
  match i with
  | 0 | 1 | 2 | 3 | 4 | 5 | 6 | 7 => rfl

theorem LoadCPReg_g2 (m : CPMemory) (i : Fin 8) (value : BitVec 32) :
    LoadCPReg (0x90 + BitVec.ofNat 8 i) value m = m.setAttr i fun vat => { vat with g2 := value } := by
  match i with
  | 0 | 1 | 2 | 3 | 4 | 5 | 6 | 7 => rfl

theorem FillCPMemoryArray_group (cp : CPState) (i : Fin 8) :
    FillCPMemoryArray cp (Fin.ofNat 256 (0x70 + i)) = (cp.vtx_attr i).g0 ∧
    FillCPMemoryArray cp (Fin.ofNat 256 (0x80 + i)) = (cp.vtx_attr i).g1 ∧
    FillCPMemoryArray cp (Fin.ofNat 256 (0x90 + i)) = (cp.vtx_attr i).g2 := by
  match i with
  | 0 | 1 | 2 | 3 | 4 | 5 | 6 | 7 => exact ⟨rfl, rfl, rfl⟩

theorem foldl_setAttr {f : Fin 8 → VAT → VAT} (hf : ∀ i v, f i (f i v) = f i v)
    (l : List (Fin 8)) (m : CPMemory) :
    (l.foldl (fun m i => m.setAttr i (f i)) m).vtxDesc = m.vtxDesc ∧
      ∀ j, (l.foldl (fun m i => m.setAttr i (f i)) m).vtxAttr j =
        if j ∈ l then f j (m.vtxAttr j) else m.vtxAttr j := by
  induction l generalizing m with
  | nil => exact ⟨rfl, fun j => (if_neg (List.not_mem_nil)).symm⟩
  | cons i l ih =>
    obtain ⟨hdesc, hattr⟩ := ih (m.setAttr i (f i))
    refine ⟨hdesc, fun j => ?_⟩
    rw [List.foldl_cons, hattr]
    unfold CPMemory.setAttr
    by_cases hji : j = i
    · subst hji
      simp [hf]
    · simp [hji]

/-- No register load sets more bits of the descriptor. -/
def DescFits (d : TVtxDesc) : Prop := ∀ i, 49 ≤ i → d.Hex.getLsbD i = false

theorem DescFits.loadCPReg {cp : CPState} (h : DescFits cp.vtx_desc) (bWii : Bool)
    (subCmd : BitVec 8) (value : BitVec 32) :
    DescFits (cp.loadCPReg bWii false subCmd value).vtx_desc := by
  have hvalue : ∀ i, 49 ≤ i → value.getLsbD i = false ∧ value.getLsbD (i - 17) = false :=
    fun i hi => ⟨BitVec.getLsbD_of_ge _ _ (by omega), BitVec.getLsbD_of_ge _ _ (by omega)⟩
  unfold CPState.loadCPReg
  split
  any_goals exact h
  · intro i hi
    show BitVec.getLsbD (_ &&& _ ||| _) i = false
    simp [h i hi, (hvalue i hi).1]
  · intro i hi
    simp only [CPState.setDesc, BitVec.getLsbD_or, BitVec.getLsbD_and, BitVec.getLsbD_shiftLeft,
      BitVec.getLsbD_setWidth, h i hi, (hvalue i hi).2, Bool.false_and, Bool.and_false,
      Bool.or_false]

theorem desc_reload {d : TVtxDesc} (h : DescFits d) (old : BitVec 64) :
    (old &&& ~~~(0x1ffff : BitVec 64) ||| (d.Hex.setWidth 32).setWidth 64) &&& 0x1ffff |||
      ((d.Hex >>> 17).setWidth 32).setWidth 64 <<< 17 = d.Hex := by
  have hmask : ∀ i : Fin 64, (0x1ffff : BitVec 64).getLsbD i = decide (i.val < 17) := by decide
  refine BitVec.eq_of_getLsbD_eq fun i hi => ?_
  have hi17 : (0x1ffff : BitVec 64).getLsbD i = decide (i < 17) := hmask ⟨i, hi⟩
  have hcast : ((0x1ffff : Nat) : BitVec 64).getLsbD i = decide (i < 17) := hmask ⟨i, hi⟩
  simp only [BitVec.getLsbD_or, BitVec.getLsbD_and, BitVec.getLsbD_not, BitVec.getLsbD_setWidth,
    BitVec.getLsbD_shiftLeft, BitVec.getLsbD_ushiftRight, hi17, hcast]
  rcases Nat.lt_or_ge i 17 with h17 | h17
  · simp [h17, hi, show i < 32 by omega]
  · have h49 : i - 17 < 32 ↔ i < 49 := by omega
    rcases Nat.lt_or_ge i 49 with hlt | hge
    · simp [hi, Nat.not_lt.mpr h17, h49.mpr hlt, Nat.add_sub_cancel' h17, show i - 17 < 64 by omega]
    · simp [Nat.not_lt.mpr h17, h49.not.mpr (Nat.not_lt.mpr hge), h i hge]

theorem load_desc_attr (m : CPMemory) (v w : BitVec 32) :
    (LoadCPReg 0x60 v (LoadCPReg 0x50 w m)).vtxAttr = m.vtxAttr := rfl

section

variable {cp : CPState} (hfits : DescFits cp.vtx_desc)

include hfits

theorem load_desc (m : CPMemory) :
    (LoadCPReg 0x60 (FillCPMemoryArray cp 0x60) (LoadCPReg 0x50 (FillCPMemoryArray cp 0x50) m)).vtxDesc =
      cp.vtx_desc :=
  congrArg TVtxDesc.mk (desc_reload hfits m.vtxDesc.Hex)

/-- **The player begins** with the registers that the recording began with. -/
theorem loadRegisters_mirrors (a : Analyzer) :
    Mirrors (loadRegisters (FillCPMemoryArray cp) a).cpMem cp := by
  have hset : (fun (m : CPMemory) (i : Fin 8) =>
      LoadCPReg (0x90 + BitVec.ofNat 8 i) (FillCPMemoryArray cp (Fin.ofNat 256 (0x90 + i)))
        (LoadCPReg (0x80 + BitVec.ofNat 8 i) (FillCPMemoryArray cp (Fin.ofNat 256 (0x80 + i)))
          (LoadCPReg (0x70 + BitVec.ofNat 8 i) (FillCPMemoryArray cp (Fin.ofNat 256 (0x70 + i)))
            m))) = fun m i => m.setAttr i fun _ => cp.vtx_attr i := by
    funext m i
    obtain ⟨h0, h1, h2⟩ := FillCPMemoryArray_group cp i
    rw [LoadCPReg_g0, LoadCPReg_g1, LoadCPReg_g2, h0, h1, h2]
    unfold CPMemory.setAttr
    simp only [Function.update_self, Function.update_idem]
  obtain ⟨hdesc, hattr⟩ := foldl_setAttr (f := fun i _ => cp.vtx_attr i) (fun _ _ => rfl)
    (List.finRange 8) (LoadCPReg 0x60 (FillCPMemoryArray cp 0x60)
      (LoadCPReg 0x50 (FillCPMemoryArray cp 0x50) a.cpMem))
  unfold loadRegisters
  simp only [hset]
  refine ⟨hdesc.trans (load_desc hfits _), funext fun i => ?_⟩
  rw [hattr, if_pos (List.mem_finRange i)]

theorem initialize_mirrors {a : Analyzer}
    (hformats : ∀ i, (a.cpMem.vtxAttr i).g1 = (cp.vtx_attr i).g1 ∧
      (a.cpMem.vtxAttr i).g2 = (cp.vtx_attr i).g2) :
    Mirrors (FifoRecorder.Initialize (FillCPMemoryArray cp) a).cpMem cp := by
  have hset : (fun (m : CPMemory) (i : Fin 8) =>
      LoadCPReg (0x70 + BitVec.ofNat 8 i) (FillCPMemoryArray cp (Fin.ofNat 256 (0x70 + i))) m) =
      fun m i => m.setAttr i fun vat => { vat with g0 := (cp.vtx_attr i).g0 } := by
    funext m i
    rw [LoadCPReg_g0, (FillCPMemoryArray_group cp i).1]
  obtain ⟨hdesc, hattr⟩ := foldl_setAttr
    (f := fun i vat => { vat with g0 := (cp.vtx_attr i).g0 }) (fun _ _ => rfl)
    (List.finRange 8) (LoadCPReg 0x60 (FillCPMemoryArray cp 0x60)
      (LoadCPReg 0x50 (FillCPMemoryArray cp 0x50) a.cpMem))
  unfold FifoRecorder.Initialize
  simp only [hset]
  refine ⟨hdesc.trans (load_desc hfits _), funext fun i => ?_⟩
  refine (hattr i).trans ?_
  rw [if_pos (List.mem_finRange i), load_desc_attr, (hformats i).1, (hformats i).2]

end

/-! ## recorded commands -/

/-- What `UseMemory` may change. -/
def OnlyMemory (r r' : FifoRecorder) : Prop :=
  ∃ ram frame, r' = { r with m_Ram := ram, m_CurrentFrame := frame }

theorem OnlyMemory.refl (r : FifoRecorder) : OnlyMemory r r :=
  ⟨r.m_Ram, r.m_CurrentFrame, rfl⟩

theorem OnlyMemory.trans {r r' r'' : FifoRecorder} (h : OnlyMemory r r') (h' : OnlyMemory r' r'') :
    OnlyMemory r r'' := by
  obtain ⟨_, _, rfl⟩ := h
  obtain ⟨ram, frame, rfl⟩ := h'
  exact ⟨ram, frame, rfl⟩

variable {r r' : FifoRecorder} {mem : Memory}

theorem useMemory_only {use : MemoryUse} (h : r.UseMemory mem use = some r') : OnlyMemory r r' := by
  unfold FifoRecorder.UseMemory at h
  simp only at h
  split at h
  · cases h
  · split at h
    · cases h
      exact .refl _
    · cases h
      exact ⟨_, _, rfl⟩

theorem useAll_only {uses : List MemoryUse} (h : r.UseAll mem uses = some r') :
    OnlyMemory r r' := by
  induction uses generalizing r with
  | nil =>
    cases h
    exact .refl _
  | cons use uses ih =>
    rw [FifoRecorder.UseAll, Option.bind_eq_some_iff] at h
    obtain ⟨r₁, h₁, h⟩ := h
    exact (useMemory_only h₁).trans (ih h)

/-- The commands of the file and of the current frame, to which the analyzer of the player, that
began as `a`, finds the sizes. -/
structure Commands (a : Analyzer) (r : FifoRecorder) (file : FifoDataFile)
    (css : List (List (List Byte))) (cur : List (List Byte)) : Prop where
  inFile : r.m_File = some file
  frames : List.Forall₂ (fun frame cs => frame.fifoData = cs.flatten) file.m_Frames css
  current : r.m_FifoData = cur.flatten
  sized : Sized (loadRegisters file.m_CPMem a) (css.flatten ++ cur)
  /-- Commands that will be recorded are looked at with the same registers. -/
  formats : r.m_SkipNextData = false ∨ r.m_SkipFutureData = false →
    SameFormats (analyzerAfter (loadRegisters file.m_CPMem a) (css.flatten ++ cur)) r.analyzer

namespace Commands

variable {a : Analyzer} {file : FifoDataFile} {css : List (List (List Byte))}
  {cur : List (List Byte)}

theorem onlyMemory (h : Commands a r file css cur) (h' : OnlyMemory r r') :
    Commands a r' file css cur := by
  obtain ⟨hfile, hframes, hcur, hsized, hformats⟩ := h
  obtain ⟨_, _, rfl⟩ := h'
  exact ⟨hfile, hframes, hcur, hsized, hformats⟩

theorem append (h : Commands a r file css cur) (hskip : r.m_SkipNextData = false) {c : List Byte}
    (hc : SizedCommand r.analyzer c) : Commands a (r.append c) file css (cur ++ [c]) := by
  obtain ⟨hfile, hframes, hcur, hsized, hformats⟩ := h
  have hsame := hformats (.inl hskip)
  have hflat : css.flatten ++ (cur ++ [c]) = (css.flatten ++ cur) ++ [c] :=
    (List.append_assoc _ _ _).symm
  refine ⟨hfile, hframes, ?_, ?_, fun _ => ?_⟩
  · show r.m_FifoData ++ c = _
    rw [hcur, List.flatten_append, List.flatten_singleton]
  · rw [hflat, Sized.append]
    exact ⟨hsized, SameFormats.sizedCommand ⟨hsame.1.symm, hsame.2.symm⟩ hc, trivial⟩
  · rw [hflat, analyzerAfter_append]
    exact (hsame.analyze c).2

/-- The frame with the data that was recorded. -/
def currentFrame (r : FifoRecorder) : FifoFrameInfo :=
  { r.m_CurrentFrame with fifoData := r.m_FifoData }

theorem closeFrame (h : Commands a r file css cur)
    (hclose : r.m_FrameEnded = true ∧ r.m_FifoData ≠ []) :
    Commands a r.closeFrame (file.AddFrame (currentFrame r)) (css ++ [cur]) [] := by
  obtain ⟨hfile, hframes, hcur, hsized, hformats⟩ := h
  have hflat : (css ++ [cur]).flatten ++ [] = css.flatten ++ cur := by
    rw [List.flatten_append, List.flatten_singleton, List.append_nil]
  unfold FifoRecorder.closeFrame
  rw [if_pos hclose]
  refine ⟨?_, List.rel_append hframes (.cons hcur .nil), rfl, ?_, ?_⟩
  · show Option.map _ r.m_File = _
    rw [hfile]
    rfl
  · rw [hflat]
    exact hsized
  · rw [hflat]
    exact hformats

theorem skipNext (h : Commands a r file css cur) : Commands a r.skipNext file css cur :=
  ⟨h.inFile, h.frames, h.current, h.sized, fun hskip => h.formats (.inr (or_self_iff.mp hskip))⟩

end Commands

/-- The file and the current frame are made of commands. -/
def Framed (a : Analyzer) (r : FifoRecorder) : Prop := ∃ file css cur, Commands a r file css cur

namespace Framed

variable {a : Analyzer}

theorem onlyMemory (h : Framed a r) (h' : OnlyMemory r r') : Framed a r' := by
  obtain ⟨file, css, cur, h⟩ := h
  exact ⟨file, css, cur, h.onlyMemory h'⟩

theorem append (h : Framed a r) (hskip : r.m_SkipNextData = false) {c : List Byte}
    (hc : SizedCommand r.analyzer c) : Framed a (r.append c) := by
  obtain ⟨file, css, cur, h⟩ := h
  exact ⟨file, css, cur ++ [c], h.append hskip hc⟩

theorem closeFrame (h : Framed a r) : Framed a r.closeFrame := by
  by_cases hclose : r.m_FrameEnded = true ∧ r.m_FifoData ≠ []
  · obtain ⟨file, css, cur, h⟩ := h
    exact ⟨_, _, _, h.closeFrame hclose⟩
  · unfold FifoRecorder.closeFrame
    rw [if_neg hclose]
    exact h

theorem skipNext (h : Framed a r) : Framed a r.skipNext := by
  obtain ⟨file, css, cur, h⟩ := h
  exact ⟨file, css, cur, h.skipNext⟩

end Framed

theorem append_alerts {r : FifoRecorder} {c : List Byte} (hc : SizedCommand r.analyzer c) :
    (r.append c).alerts = r.alerts :=
  if_neg (not_not.mpr hc.size)

theorem closeFrame_same (r : FifoRecorder) : r.closeFrame.alerts = r.alerts ∧
    r.closeFrame.analyzer = r.analyzer ∧ r.closeFrame.m_SkipFutureData = r.m_SkipFutureData ∧
    r.closeFrame.m_IsRecording = r.m_IsRecording ∧
    r.closeFrame.m_WasRecording = r.m_WasRecording ∧
    (r.closeFrame.m_File.isSome = r.m_File.isSome) := by
  unfold FifoRecorder.closeFrame
  split
  · exact ⟨rfl, rfl, rfl, rfl, rfl, Option.isSome_map ..⟩
  · exact ⟨rfl, rfl, rfl, rfl, rfl, rfl⟩

/-- What a command does to a recorder that was recording. -/
structure Wrote (a : Analyzer) (r : FifoRecorder) (c : List Byte) (r' : FifoRecorder) : Prop where
  framed : Framed a r → Framed a r'
  alerts : r'.alerts = r.alerts
  analyzer : r'.analyzer =
    if r.m_SkipNextData then r.analyzer else (AnalyzeCommand r.analyzer c).2
  skipNext : r'.m_SkipNextData = r.m_SkipFutureData
  skipFuture : r'.m_SkipFutureData = r.m_SkipFutureData
  isRecording : r'.m_IsRecording = r.m_IsRecording
  wasRecording : r'.m_WasRecording = r.m_WasRecording
  hasFile : r'.m_File.isSome = r.m_File.isSome

theorem writeGPCommand_wrote (a : Analyzer) {c : List Byte}
    (hc : r.m_SkipNextData = false → SizedCommand r.analyzer c)
    (h : r.WriteGPCommand mem c = some r') : Wrote a r c r' := by
  unfold FifoRecorder.WriteGPCommand at h
  rw [Option.map_eq_some_iff] at h
  obtain ⟨r₁, h₁, rfl⟩ := h
  obtain ⟨halerts, hanalyzer, hfuture, hrec, hwas, hfile⟩ := closeFrame_same r₁
  split at h₁
  · next hskip =>
    cases h₁
    exact ⟨fun hf => hf.closeFrame.skipNext, halerts, by rw [if_pos hskip]; exact hanalyzer,
      hfuture, hfuture, hrec, hwas, hfile⟩
  · next hskip =>
    have hskip' : r.m_SkipNextData = false := by simpa using hskip
    rw [Option.map_eq_some_iff] at h₁
    obtain ⟨r₂, h₂, rfl⟩ := h₁
    have honly := useAll_only h₂
    have hsized : SizedCommand r₂.analyzer c := by
      obtain ⟨_, _, rfl⟩ := honly
      exact hc hskip'
    have hframed : Framed a r → Framed a (r₂.append c) := fun hf => by
      refine (hf.onlyMemory honly).append ?_ hsized
      obtain ⟨_, _, rfl⟩ := honly
      exact hskip'
    obtain ⟨_, _, rfl⟩ := honly
    exact ⟨fun hf => (hframed hf).closeFrame.skipNext, halerts.trans (append_alerts hsized),
      by rw [if_neg hskip]; exact hanalyzer, hfuture, hfuture, hrec, hwas, hfile⟩

end DolphinCore.FifoPlayer
