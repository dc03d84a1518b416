import DolphinCore.FifoPlayer.FileRoundTrip

/-!
# DolphinCore.FifoPlayer.SavedFile

What `Save` leaves in the file: the data of frames and updates is appended, and
their entries fill the lists that were reserved.
-/

namespace DolphinCore

/-! ## what an operation did -/

namespace IOFile

variable {f f' : IOFile} {holes : List Extent}

theorem writeBytes_some {bs : List Byte} (h : f.WriteBytes bs = some f') :
    f.pos + bs.length ≤ OFF_MAX ∧
      f' = ⟨putAt f.data f.pos bs, f.pos + bs.length, f.writes ++ [⟨f.pos, bs.length⟩]⟩ := by
  obtain ⟨hle, hf⟩ := Option.ite_none_right_eq_some.mp h
  exact ⟨hle, (Option.some.inj hf).symm⟩

theorem writeBytes_end {bs : List Byte} (h : f.WriteBytes bs = some f')
    (hpos : f.pos = f.data.length) (hw : Written f.writes holes f.data.length) :
    f'.data = f.data ++ bs ∧ f'.pos = f'.data.length ∧ f'.data.length ≤ OFF_MAX ∧
      Written f'.writes holes f'.data.length := by
  obtain ⟨hle, rfl⟩ := writeBytes_some h
  have hdata : putAt f.data f.pos bs = f.data ++ bs := by rw [hpos, putAt_end]
  have hlen : (putAt f.data f.pos bs).length = f.data.length + bs.length := by
    rw [hdata, List.length_append]
  rw [hpos] at hle
  refine ⟨hdata, ?_, ?_, ?_⟩
  · rw [hlen, hpos]
  · exact hlen.trans_le hle
  · show Written (f.writes ++ [⟨f.pos, bs.length⟩]) holes (putAt f.data f.pos bs).length
    rw [hlen, hpos]
    exact hw.append bs.length

theorem padFile_end {n : Nat} (h : f.PadFile n = some f') (hpos : f.pos = f.data.length)
    (hw : Written f.writes holes f.data.length) :
    f'.data = f.data ++ List.replicate n 0 ∧ f'.pos = f'.data.length ∧ f'.data.length ≤ OFF_MAX ∧
      Written f'.writes (⟨f.data.length, n⟩ :: holes) f'.data.length := by
  obtain ⟨hle, hf⟩ := Option.ite_none_right_eq_some.mp h
  obtain rfl := Option.some.inj hf
  have hdata : putAt f.data f.pos (List.replicate n 0) = f.data ++ List.replicate n 0 := by
    rw [hpos, putAt_end]
  have hlen : (putAt f.data f.pos (List.replicate n 0)).length = f.data.length + n := by
    rw [hdata, List.length_append, List.length_replicate]
  rw [hpos] at hle
  refine ⟨hdata, ?_, hlen.trans_le hle, ?_⟩
  · rw [hlen, hpos]
  · show Written f.writes _ (putAt f.data f.pos (List.replicate n 0)).length
    rw [hlen]
    exact hw.reserve n

theorem writeBytes_fill {off n : Nat} {p r bs : List Byte} {f'' : IOFile}
    (hseek : f.Seek (off % 2 ^ 64) = some f') (hwrite : f'.WriteBytes bs = some f'')
    (hdata : f.data = p ++ (List.replicate (bs.length + n) 0 ++ r)) (hoff : p.length = off)
    (hmax : f.data.length ≤ OFF_MAX)
    (hw : Written f.writes (⟨off, bs.length + n⟩ :: holes) f.data.length) :
    f''.data = (p ++ bs) ++ (List.replicate n 0 ++ r) ∧ f''.data.length = f.data.length ∧
      Written f''.writes (⟨off + bs.length, n⟩ :: holes) f''.data.length := by
  have hlen := congrArg List.length hdata
  simp only [List.length_append, List.length_replicate] at hlen
  obtain ⟨-, hsome⟩ := Option.ite_none_right_eq_some.mp hseek
  obtain rfl := Option.some.inj hsome
  have hmod : off % 2 ^ 64 = off := by
    unfold OFF_MAX at hmax
    omega
  obtain ⟨-, rfl⟩ := writeBytes_some hwrite
  rw [List.replicate_add, List.append_assoc] at hdata
  have hput : putAt f.data (off % 2 ^ 64) bs = (p ++ bs) ++ (List.replicate n 0 ++ r) := by
    rw [hmod, hdata, putAt_middle hoff (by rw [List.length_replicate]), List.append_assoc]
  have hlen' : (putAt f.data (off % 2 ^ 64) bs).length = f.data.length := by
    rw [hput]
    simp only [List.length_append, List.length_replicate]
    omega
  refine ⟨hput, hlen', ?_⟩
  show Written (f.writes ++ [⟨off % 2 ^ 64, bs.length⟩]) _ (putAt f.data (off % 2 ^ 64) bs).length
  rw [hlen', hmod]
  exact hw.fill

end IOFile

namespace FifoPlayer

/-! ## updates -/

variable {holes : List Extent} {file next : IOFile}

theorem writeUpdates_some {reserved : Nat → Fin 3 → Byte} {listOffset i : Nat}
    {us : List MemoryUpdate} {p r : List Byte}
    (h : writeUpdates reserved listOffset i us file = some next)
    (hdata : file.data = p ++ (List.replicate (24 * us.length) 0 ++ r))
    (hp : p.length = listOffset + i * 24) (hmax : file.data.length ≤ OFF_MAX)
    (hw : Written file.writes (⟨p.length, 24 * us.length⟩ :: holes) file.data.length) :
    next.data = p ++ (updateEntries reserved i file.data.length us ++ (r ++ updateDatas us)) ∧
      next.data.length ≤ OFF_MAX ∧ Written next.writes holes next.data.length := by
  induction us generalizing file i p r with
  | nil =>
    cases h
    refine ⟨?_, hmax, hw.done⟩
    rw [hdata]
    simp [updateEntries, updateDatas]
  | cons u us ih =>
    simp only [writeUpdates, Option.bind_eq_some_iff] at h
    obtain ⟨f₁, h₁, f₂, h₂, f₃, h₃, h⟩ := h
    have hentry := FileMemoryUpdate.length_toBytes
      (updateEntry (reserved i) file.SeekEnd.Tell u)
    obtain ⟨hdata₁, -, hmax₁, hw₁⟩ := IOFile.writeBytes_end h₁ rfl hw
    have hcount : 24 * (u :: us).length =
        (updateEntry (reserved i) file.SeekEnd.Tell u).toBytes.length + 24 * us.length := by
      rw [hentry, List.length_cons]
      omega
    have hreserved : f₁.data = p ++ (List.replicate
        ((updateEntry (reserved i) file.SeekEnd.Tell u).toBytes.length + 24 * us.length) 0 ++
          (r ++ u.data)) := by
      rw [hdata₁, ← hcount]
      show file.data ++ u.data = _
      rw [hdata, List.append_assoc, List.append_assoc]
    rw [hcount, hp] at hw₁
    obtain ⟨hdata₃, hlen₃, hw₃⟩ := IOFile.writeBytes_fill h₂ h₃ hreserved hp hmax₁ hw₁
    have hoff : (p ++ (updateEntry (reserved i) file.SeekEnd.Tell u).toBytes).length =
        listOffset + i * 24 + 24 := by
      rw [List.length_append, hp, hentry]
    have hlen : f₃.data.length = file.data.length + u.data.length := by
      rw [hlen₃, hdata₁]
      exact List.length_append
    rw [hentry, ← hoff] at hw₃
    obtain ⟨hdata', hmax', hw'⟩ := ih h hdata₃ (by omega) (hlen₃.trans_le hmax₁) hw₃
    refine ⟨?_, hmax', hw'⟩
    rw [hdata', hlen, updateEntries, updateDatas, updateDatas, List.flatMap_cons]
    simp only [List.append_assoc]
    rfl

theorem writeMemoryUpdates_some {reserved : Nat → Fin 3 → Byte} {us : List MemoryUpdate}
    {offset : Nat} (h : WriteMemoryUpdates reserved us file = some (offset, next))
    (hpos : file.pos = file.data.length) (hw : Written file.writes holes file.data.length) :
    offset = file.data.length ∧
      next.data = file.data ++ (updateEntries reserved 0 (file.data.length + 24 * us.length) us ++
        updateDatas us) ∧
      next.data.length ≤ OFF_MAX ∧ Written next.writes holes next.data.length := by
  simp only [WriteMemoryUpdates, Option.bind_eq_some_iff, Option.map_eq_some_iff,
    Prod.mk.injEq] at h
  obtain ⟨f₁, h₁, f₂, h₂, hoffset, rfl⟩ := h
  obtain ⟨hdata₁, -, hmax₁, hw₁⟩ := IOFile.padFile_end h₁ hpos hw
  have hlen : f₁.data.length = file.data.length + 24 * us.length := by
    rw [hdata₁, List.length_append, List.length_replicate, Nat.mul_comm]
  rw [Nat.mul_comm] at hw₁ hdata₁
  have hreserved : f₁.data = file.data ++ (List.replicate (24 * us.length) 0 ++ []) := by
    rw [hdata₁, List.append_nil]
  have hoff : file.data.length = file.Tell + 0 * 24 := hpos.symm
  obtain ⟨hdata₂, hmax₂, hw₂⟩ := writeUpdates_some h₂ hreserved hoff hmax₁ hw₁
  refine ⟨hoffset.symm.trans hpos, ?_, hmax₂, hw₂⟩
  rw [hdata₂, hlen, List.nil_append]

/-! ## frames -/

theorem writeFrames_some {unset : Unset} {listOffset i : Nat} {frames : List FifoFrameInfo}
    {p r : List Byte} (h : writeFrames unset listOffset i frames file = some next)
    (hdata : file.data = p ++ (List.replicate (64 * frames.length) 0 ++ r))
    (hp : p.length = listOffset + i * 64) (hmax : file.data.length ≤ OFF_MAX)
    (hw : Written file.writes (⟨p.length, 64 * frames.length⟩ :: holes) file.data.length) :
    next.data = p ++ (frameEntries unset i file.data.length frames ++
        (r ++ frameBlocks unset i file.data.length frames)) ∧
      next.data.length ≤ OFF_MAX ∧ Written next.writes holes next.data.length := by
  induction frames generalizing file i p r with
  | nil =>
    cases h
    refine ⟨?_, hmax, hw.done⟩
    rw [hdata]
    simp [frameEntries, frameBlocks]
  | cons frame frames ih =>
    simp only [writeFrames, Option.bind_eq_some_iff] at h
    obtain ⟨f₁, h₁, ⟨updatesOffset, f₂⟩, h₂, f₃, h₃, f₄, h₄, h⟩ := h
    obtain ⟨hdata₁, hpos₁, -, hw₁⟩ := IOFile.writeBytes_end h₁ rfl hw
    obtain ⟨rfl, hdata₂, hmax₂, hw₂⟩ := writeMemoryUpdates_some h₂ hpos₁ hw₁
    dsimp only at h₃ h₄
    have hlen₁ : f₁.data.length = file.data.length + frame.fifoData.length := by
      rw [hdata₁]
      exact List.length_append
    have hblock : f₂.data = file.data ++ frameBlock (unset.update i) file.data.length frame := by
      rw [hdata₂, hlen₁, hdata₁, frameBlock]
      exact List.append_assoc _ _ _
    have hentry := FileFrameInfo.length_toBytes
      (frameEntry (unset.frame i) file.SeekEnd.Tell f₁.data.length frame)
    have hcount : 64 * (frame :: frames).length =
        (frameEntry (unset.frame i) file.SeekEnd.Tell f₁.data.length frame).toBytes.length +
          64 * frames.length := by
      rw [hentry, List.length_cons]
      omega
    have hreserved : f₂.data = p ++ (List.replicate
        ((frameEntry (unset.frame i) file.SeekEnd.Tell f₁.data.length frame).toBytes.length +
          64 * frames.length) 0 ++ (r ++ frameBlock (unset.update i) file.data.length frame)) := by
      rw [hblock, ← hcount, hdata, List.append_assoc, List.append_assoc]
    rw [hcount, hp] at hw₂
    obtain ⟨hdata₄, hlen₄, hw₄⟩ := IOFile.writeBytes_fill h₃ h₄ hreserved hp hmax₂ hw₂
    have hoff : (p ++ (frameEntry (unset.frame i) file.SeekEnd.Tell f₁.data.length
        frame).toBytes).length = listOffset + i * 64 + 64 := by
      rw [List.length_append, hp, hentry]
    have hlen : f₄.data.length =
        file.data.length + (frameBlock (unset.update i) file.data.length frame).length := by
      rw [hlen₄, hblock]
      exact List.length_append
    rw [hentry, ← hoff] at hw₄
    obtain ⟨hdata', hmax', hw'⟩ := ih h hdata₄ (by omega) (hlen₄.trans_le hmax₂) hw₄
    refine ⟨?_, hmax', hw'⟩
    rw [hdata', hlen, frameEntries, frameBlocks, hlen₁]
    simp only [List.append_assoc]
    rfl

/-! ## the file -/

theorem save_some {unset : Unset} {f : FifoDataFile} {file : IOFile}
    (h : f.Save unset = some file) : file.data = savedData unset f ∧
      (savedData unset f).length ≤ OFF_MAX ∧ Written file.writes [] file.data.length := by
  simp only [FifoDataFile.Save, Option.bind_eq_some_iff] at h
  obtain ⟨f₁, h₁, f₂, h₂, f₃, h₃, f₄, h₄, f₅, h₅, f₆, h₆, f₇, h₇, f₈, h₈, f₉, h₉, h⟩ := h
  obtain ⟨d₁, p₁, -, w₁⟩ := IOFile.padFile_end h₁ rfl Written.empty
  obtain ⟨d₂, p₂, -, w₂⟩ := IOFile.padFile_end h₂ p₁ w₁
  obtain ⟨d₃, p₃, -, w₃⟩ := IOFile.writeBytes_end h₃ p₂ w₂
  obtain ⟨d₄, p₄, -, w₄⟩ := IOFile.writeBytes_end h₄ p₃ w₃
  obtain ⟨d₅, p₅, -, w₅⟩ := IOFile.writeBytes_end h₅ p₄ w₄
  obtain ⟨d₆, p₆, -, w₆⟩ := IOFile.writeBytes_end h₆ p₅ w₅
  obtain ⟨d₇, p₇, m₇, w₇⟩ := IOFile.writeBytes_end h₇ p₆ w₆
  have l₁ : f₁.data.length = 128 := by rw [d₁]; rfl
  have l₂ : f₂.data.length = 128 + 64 * f.m_Frames.length := by
    rw [d₂, List.length_append, List.length_replicate, l₁, Nat.mul_comm]
  have l₃ : f₃.data.length = 128 + 64 * f.m_Frames.length + 1024 := by
    rw [d₃, List.length_append, l₂, length_words]
    rfl
  have l₄ : f₄.data.length = 128 + 64 * f.m_Frames.length + 2048 := by
    rw [d₄, List.length_append, l₃, length_words, Nat.add_assoc]
    rfl
  have l₅ : f₅.data.length = 128 + 64 * f.m_Frames.length + 18432 := by
    rw [d₅, List.length_append, l₄, length_words, Nat.add_assoc]
    rfl
  have l₆ : f₆.data.length = 128 + 64 * f.m_Frames.length + 18816 := by
    rw [d₆, List.length_append, l₅, length_words, Nat.add_assoc]
    rfl
  have hheader : fileHeader unset f f₁.Tell f₂.Tell f₃.Tell f₄.Tell f₅.Tell f₆.Tell =
      savedHeader unset f := by
    unfold IOFile.Tell savedHeader
    rw [p₁, p₂, p₃, p₄, p₅, p₆, l₁, l₂, l₃, l₄, l₅, l₆]
  have hlen := FileHeader.length_toBytes (savedHeader unset f)
  have hdata : f₇.data = [] ++ (List.replicate ((savedHeader unset f).toBytes.length + 0) 0 ++
      (List.replicate (64 * f.m_Frames.length) 0 ++ arrays f)) := by
    rw [d₇, d₆, d₅, d₄, d₃, d₂, d₁, hlen, Nat.mul_comm, arrays]
    simp only [List.append_assoc, IOFile.create]
  rw [l₁, Nat.mul_comm] at w₇
  have hholes : Written f₇.writes [⟨0, (savedHeader unset f).toBytes.length + 0⟩,
      ⟨128, 64 * f.m_Frames.length⟩] f₇.data.length := by
    exact w₇.perm (.append_left _ (.swap _ _ _))
  rw [hheader] at h₉
  obtain ⟨hdata₉, hlen₉, hw₉⟩ :=
    IOFile.writeBytes_fill h₈ h₉ hdata List.length_nil m₇ hholes
  rw [List.nil_append, List.replicate_zero, List.nil_append] at hdata₉
  have hoffset : f₉.data.length = framesOffset f := by
    rw [hdata₉]
    simp only [List.length_append, List.length_replicate, hlen, length_arrays, framesOffset]
    omega
  have hstart : (savedHeader unset f).toBytes.length = f₁.Tell + 0 * 64 := by
    exact (p₁.trans l₁).symm
  have hw₉ : Written f₉.writes
      [⟨(savedHeader unset f).toBytes.length, 64 * f.m_Frames.length⟩] f₉.data.length := by
    exact hw₉.done
  obtain ⟨hfile, hmax, hw⟩ := writeFrames_some h hdata₉ hstart (hlen₉.trans_le m₇) hw₉
  have hsaved : file.data = savedData unset f := by
    rw [hfile, hoffset, savedData, List.append_nil]
  refine ⟨hsaved, ?_, hw⟩
  rw [← hsaved]
  exact hmax

/-- **A recording that was saved** is loaded as it was, but for the version; and no byte of its
file was written for two of the things in it. -/
theorem load_save (unset : Unset) (stale : Stale) (f : FifoDataFile) (hfits : f.Fits)
    (file : IOFile) (hsave : f.Save unset = some file) :
    FifoDataFile.Load stale file.data false = some { f with m_Version := VERSION_NUMBER } ∧
      file.writes.Pairwise Extent.Disjoint := by
  obtain ⟨hdata, hmax, hw⟩ := save_some hsave
  refine ⟨?_, ?_⟩
  · rw [hdata]
    exact load_savedData stale unset hfits hmax
  · have hdisjoint := hw.disjoint
    rwa [List.append_nil] at hdisjoint

/-! ## a recording that is saved -/

/-- One frame, with one update. -/
def oneUpdate : FifoDataFile :=
  ⟨fun _ => 0, fun _ => 0, fun _ => 0, fun _ => 0, fun _ => 0, 1, 0,
    [⟨[0x00, 0x00], 0x100, 0x200, [⟨1, 0x20, [7], .TEXTURE_MAP⟩]⟩]⟩

/-- Nothing is far into the file. -/
def Small (n : Nat) (file : IOFile) : Prop := file.pos ≤ n ∧ file.data.length ≤ n

section

variable {file : IOFile} {n : Nat} (h : Small n file)

include h

theorem Small.putAt (bs : List Byte) : (putAt file.data file.pos bs).length ≤ n + bs.length := by
  obtain ⟨hpos, hlen⟩ := h
  unfold DolphinCore.putAt
  split
  · exact Nat.le_add_right_of_le hlen
  · simp only [List.length_append, List.length_take, List.length_replicate, List.length_drop]
    omega

theorem Small.writeBytes {bs : List Byte} (hle : n + bs.length ≤ OFF_MAX) :
    ∃ next, file.WriteBytes bs = some next ∧ Small (n + bs.length) next :=
  ⟨_, IOFile.writeBytes_of_le (Nat.le_trans (Nat.add_le_add_right h.1 _) hle),
    Nat.add_le_add_right h.1 _, h.putAt bs⟩

theorem Small.writeWords {m : Nat} (mem : Fin m → BitVec 32) (hle : n + 4 * m ≤ OFF_MAX) :
    ∃ next, file.WriteBytes (words mem) = some next ∧ Small (n + 4 * m) next := by
  rw [← length_words mem] at hle ⊢
  exact h.writeBytes hle

theorem Small.padFile {numBytes : Nat} (hle : n + numBytes ≤ OFF_MAX) :
    ∃ next, file.PadFile numBytes = some next ∧ Small (n + numBytes) next := by
  have hput := h.putAt (List.replicate numBytes 0)
  rw [List.length_replicate] at hput
  refine ⟨_, if_pos (Nat.le_trans (Nat.add_le_add_right h.1 _) hle), ?_, hput⟩
  exact Nat.add_le_add_right h.1 _

theorem Small.seek {off : Nat} (hoff : off ≤ n) (hle : n ≤ OFF_MAX) :
    ∃ next, file.Seek off = some next ∧ Small n next :=
  ⟨_, IOFile.seek_of_le (Nat.le_trans hoff hle), hoff, h.2⟩

theorem Small.seekEnd : Small n file.SeekEnd := ⟨h.2, h.2⟩

end

theorem oneUpdate_save (unset : Unset) : ∃ file, oneUpdate.Save unset = some file := by
  have hmax : 2000000 ≤ OFF_MAX := by
    unfold OFF_MAX
    omega
  have hstart : Small 0 IOFile.create := ⟨Nat.le_refl _, Nat.le_refl _⟩
  obtain ⟨f₁, h₁, s₁⟩ := @Small.padFile _ _ hstart 128 (by omega)
  obtain ⟨f₂, h₂, s₂⟩ := @Small.padFile _ _ s₁ (1 * 64) (by omega)
  obtain ⟨f₃, h₃, s₃⟩ := @Small.writeWords _ _ s₂ 256 oneUpdate.m_BPMem (by omega)
  obtain ⟨f₄, h₄, s₄⟩ := @Small.writeWords _ _ s₃ 256 oneUpdate.m_CPMem (by omega)
  obtain ⟨f₅, h₅, s₅⟩ := @Small.writeWords _ _ s₄ 4096 oneUpdate.m_XFMem (by omega)
  obtain ⟨f₆, h₆, s₆⟩ := @Small.writeWords _ _ s₅ 96 oneUpdate.m_XFRegs (by omega)
  have htex : (List.ofFn oneUpdate.m_TexMem).length = 1048576 := List.length_ofFn
  obtain ⟨f₇, h₇, s₇⟩ := @Small.writeBytes _ _ s₆ (List.ofFn oneUpdate.m_TexMem)
    (by rw [htex]; omega)
  obtain ⟨f₈, h₈, s₈⟩ := @Small.seek _ _ s₇ 0 (Nat.zero_le _) (by omega)
  have hheader := FileHeader.length_toBytes
    (fileHeader unset oneUpdate f₁.Tell f₂.Tell f₃.Tell f₄.Tell f₅.Tell f₆.Tell)
  obtain ⟨f₉, h₉, s₉⟩ := @Small.writeBytes _ _ s₈ (FileHeader.toBytes _)
    (by rw [hheader]; omega)
  -- the frame
  obtain ⟨g₁, k₁, t₁⟩ := @Small.writeBytes _ _ s₉.seekEnd [0x00, 0x00]
    (by rw [List.length_cons, List.length_singleton]; omega)
  rw [List.length_cons, List.length_singleton] at t₁
  obtain ⟨g₂, k₂, t₂⟩ := @Small.padFile _ _ t₁ (1 * 24) (by omega)
  obtain ⟨g₃, k₃, t₃⟩ := @Small.writeBytes _ _ t₂.seekEnd [7] (by rw [List.length_singleton]; omega)
  rw [List.length_singleton] at t₃
  have hlist : (g₁.Tell + 0 * 24) % 2 ^ 64 ≤ 1067777 := by
    have hpos : g₁.Tell ≤ _ := t₁.1
    exact Nat.le_trans (Nat.mod_le _ _) (by omega)
  obtain ⟨g₄, k₄, t₄⟩ := @Small.seek _ 1067777 ⟨Nat.le_trans t₃.1 (by omega),
    Nat.le_trans t₃.2 (by omega)⟩ _ hlist (by omega)
  have hupdate := FileMemoryUpdate.length_toBytes
    (updateEntry (unset.update 0 0) g₂.SeekEnd.Tell ⟨1, 0x20, [7], .TEXTURE_MAP⟩)
  obtain ⟨g₅, k₅, t₅⟩ := @Small.writeBytes _ _ t₄ (FileMemoryUpdate.toBytes _)
    (by rw [hupdate]; omega)
  have hlist' : (f₁.Tell + 0 * 64) % 2 ^ 64 ≤ 1067777 + 24 := by
    have hpos : f₁.Tell ≤ _ := s₁.1
    exact Nat.le_trans (Nat.mod_le _ _) (by omega)
  obtain ⟨g₆, k₆, t₆⟩ := @Small.seek _ _ t₅ _ hlist' (by omega)
  have hframe := FileFrameInfo.length_toBytes (frameEntry (unset.frame 0) f₉.SeekEnd.Tell g₁.Tell
    ⟨[0x00, 0x00], 0x100, 0x200, [⟨1, 0x20, [7], .TEXTURE_MAP⟩]⟩)
  obtain ⟨g₇, k₇, -⟩ := @Small.writeBytes _ _ t₆ (FileFrameInfo.toBytes _)
    (by rw [hframe]; omega)
  refine ⟨g₇, ?_⟩
  have hupdates : WriteMemoryUpdates (unset.update 0) [⟨1, 0x20, [7], .TEXTURE_MAP⟩] g₁ =
      some (g₁.Tell, g₅) := by
    simp only [WriteMemoryUpdates, List.length_singleton, k₂, writeUpdates, k₃, k₄, k₅,
      Option.bind_some, Option.map_some]
  have hframes : writeFrames unset f₁.Tell 0 oneUpdate.m_Frames f₉ = some g₇ := by
    simp only [oneUpdate, writeFrames, k₁, hupdates, k₆, k₇, Option.bind_some]
  have hthen : ∀ {α β : Type} {x : Option α} {a : α} {k : α → Option β} {b : β}, x = some a →
      k a = some b → x.bind k = some b := fun hx hk => Option.bind_eq_some_iff.mpr ⟨_, hx, hk⟩
  exact hthen h₁ (hthen h₂ (hthen h₃ (hthen h₄ (hthen h₅ (hthen h₆ (hthen h₇ (hthen h₈
    (hthen h₉ hframes))))))))

theorem load_save_oneUpdate : ∃ file, oneUpdate.Save ⟨fun _ => 0, fun _ _ => 0, fun _ _ _ => 0⟩ =
    some file ∧ FifoDataFile.Load (fun _ _ => 0xff) file.data false =
      some { oneUpdate with m_Version := VERSION_NUMBER } ∧
      file.writes.Pairwise Extent.Disjoint := by
  obtain ⟨file, hsave⟩ := oneUpdate_save ⟨fun _ => 0, fun _ _ => 0, fun _ _ _ => 0⟩
  have hfits : oneUpdate.Fits := by
    refine ⟨Nat.one_lt_two_pow (by decide), fun frame hframe => ?_⟩
    obtain rfl := List.mem_singleton.mp hframe
    refine ⟨by decide, by decide, fun u hu => ?_⟩
    obtain rfl := List.mem_singleton.mp hu
    decide
  exact ⟨file, hsave, load_save _ (fun _ _ => 0xff) oneUpdate hfits file hsave⟩

end FifoPlayer

end DolphinCore
