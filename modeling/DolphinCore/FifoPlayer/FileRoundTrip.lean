import DolphinCore.FifoPlayer.SaveLoad

/-!
# DolphinCore.FifoPlayer.FileRoundTrip

A recording that was saved is loaded as it was, and no byte of its file is
written for two things.
-/

namespace DolphinCore.FifoPlayer

open Endian

/-! ## structures -/

section

variable (x : FileMemoryUpdate)

theorem FileMemoryUpdate.length_toBytes : x.toBytes.length = 24 := by
  rfl

theorem FileMemoryUpdate.ofBytes_toBytes : ofBytes x.toBytes = x := by
  have hvalues : getFields widths x.toBytes = x.values :=
    getFields_putFields (.cons x.fifoPosition.isLt (.cons x.address.isLt (.cons x.dataOffset.isLt
      (.cons x.dataSize.isLt (.cons x.type.isLt .nil))))) _
  have hreserved : ∀ i : Fin 3, x.toBytes.getD (21 + i) 0 = x.reserved i := fun i =>
    getD_putFields_append (show widths.length = x.values.length from rfl) x.reserved i
  unfold ofBytes
  simp only [hvalues, hreserved]
  simp [values]

end

section

variable (x : FileFrameInfo)

theorem FileFrameInfo.length_toBytes : x.toBytes.length = 64 := by
  rfl

theorem FileFrameInfo.ofBytes_toBytes : ofBytes x.toBytes = x := by
  have hvalues : getFields widths x.toBytes = x.values :=
    getFields_putFields (.cons x.fifoDataOffset.isLt (.cons x.fifoDataSize.isLt
      (.cons x.fifoStart.isLt (.cons x.fifoEnd.isLt (.cons x.memoryUpdatesOffset.isLt
        (.cons x.numMemoryUpdates.isLt .nil)))))) _
  have hreserved : ∀ i : Fin 32, x.toBytes.getD (32 + i) 0 = x.reserved i := fun i =>
    getD_putFields_append (show widths.length = x.values.length from rfl) x.reserved i
  unfold ofBytes
  simp only [hvalues, hreserved]
  simp [values]

end

section

variable (x : FileHeader)

theorem FileHeader.length_toBytes : x.toBytes.length = 128 := by
  rfl

theorem FileHeader.ofBytes_toBytes : ofBytes x.toBytes = x := by
  have hvalues : getFields widths x.toBytes = x.values :=
    getFields_putFields (.cons x.fileId.isLt (.cons x.file_version.isLt
      (.cons x.min_loader_version.isLt (.cons x.bpMemOffset.isLt (.cons x.bpMemSize.isLt
      (.cons x.cpMemOffset.isLt (.cons x.cpMemSize.isLt (.cons x.xfMemOffset.isLt
      (.cons x.xfMemSize.isLt (.cons x.xfRegsOffset.isLt (.cons x.xfRegsSize.isLt
      (.cons x.frameListOffset.isLt (.cons x.frameCount.isLt (.cons x.flags.isLt
      (.cons x.texMemOffset.isLt (.cons x.texMemSize.isLt .nil)))))))))))))))) _
  have hreserved : ∀ i : Fin 40, x.toBytes.getD (88 + i) 0 = x.reserved i := fun i =>
    getD_putFields_append (show widths.length = x.values.length from rfl) x.reserved i
  unfold ofBytes
  simp only [hvalues, hreserved]
  simp [values]

end

theorem MemoryUpdateType.ofValue_value (type : MemoryUpdateType) :
    ofValue type.value = some type := by
  cases type <;> rfl

/-! ## the parts of the file -/

/-- The sizes and the counts of a frame fit into 32 bits. -/
structure FifoFrameInfo.Fits (frame : FifoFrameInfo) : Prop where
  fifoData : frame.fifoData.length < 2 ^ 32
  memoryUpdates : frame.memoryUpdates.length < 2 ^ 32
  data : ∀ u ∈ frame.memoryUpdates, u.data.length < 2 ^ 32

/-- The entries of updates, the first of which has its data at `off`. -/
def updateEntries (reserved : Nat → Fin 3 → Byte) : Nat → Nat → List MemoryUpdate → List Byte
  | _, _, [] => []
  | i, off, u :: us =>
    (updateEntry (reserved i) off u).toBytes ++
      updateEntries reserved (i + 1) (off + u.data.length) us

def updateDatas (us : List MemoryUpdate) : List Byte := us.flatMap fun u => u.data

/-- A frame whose data is at `off`: its data, the list of its updates, and their data. -/
def frameBlock (reserved : Nat → Fin 3 → Byte) (off : Nat) (frame : FifoFrameInfo) : List Byte :=
  frame.fifoData ++
    (updateEntries reserved 0 (off + frame.fifoData.length + 24 * frame.memoryUpdates.length)
      frame.memoryUpdates ++ updateDatas frame.memoryUpdates)

/-- The entries of frames, the first of which has its data at `off`. -/
def frameEntries (unset : Unset) : Nat → Nat → List FifoFrameInfo → List Byte
  | _, _, [] => []
  | i, off, frame :: frames =>
    (frameEntry (unset.frame i) off (off + frame.fifoData.length) frame).toBytes ++
      frameEntries unset (i + 1) (off + (frameBlock (unset.update i) off frame).length) frames

def frameBlocks (unset : Unset) : Nat → Nat → List FifoFrameInfo → List Byte
  | _, _, [] => []
  | i, off, frame :: frames =>
    frameBlock (unset.update i) off frame ++
      frameBlocks unset (i + 1) (off + (frameBlock (unset.update i) off frame).length) frames

theorem length_updateEntries {reserved : Nat → Fin 3 → Byte} {i off : Nat}
    {us : List MemoryUpdate} : (updateEntries reserved i off us).length = 24 * us.length := by
  induction us generalizing i off with
  | nil => rfl
  | cons u us ih =>
    rw [updateEntries, List.length_append, FileMemoryUpdate.length_toBytes, ih, List.length_cons]
    omega

theorem length_frameEntries {unset : Unset} {i off : Nat} {frames : List FifoFrameInfo} :
    (frameEntries unset i off frames).length = 64 * frames.length := by
  induction frames generalizing i off with
  | nil => rfl
  | cons frame frames ih =>
    rw [frameEntries, List.length_append, FileFrameInfo.length_toBytes, ih, List.length_cons]
    omega

/-! ## loading -/

section

variable {stale : Stale} {file : IOFile}

theorem readBuffer_at {p m s : List Byte} {pos n : Nat} (hdata : file.data = p ++ (m ++ s))
    (hpos : p.length = pos) (hlen : m.length = n) (hmax : pos ≤ OFF_MAX) :
    ∃ next, readBuffer stale (file.seekTo pos) n = (m, next) ∧ next.data = file.data := by
  have hread := file.readBytes_at hdata hpos hlen
  rw [IOFile.seekTo_of_le hmax]
  refine ⟨_, Prod.ext ?_ rfl, rfl⟩
  unfold readBuffer
  simp only [hread]
  refine List.ext_getElem (by rw [List.length_map, List.length_range, hlen]) fun i hi hi' => ?_
  rw [List.getElem_map, List.getElem_range, List.getD_eq_getElem?_getD,
    List.getElem?_eq_getElem hi', Option.getD_some]

theorem readUpdates_eq {reserved : Nat → Fin 3 → Byte} {fileOffset i off : Nat}
    {us : List MemoryUpdate} {p r s : List Byte}
    (hdata : file.data = p ++ (updateEntries reserved i off us ++ (r ++ (updateDatas us ++ s))))
    (hp : p.length = fileOffset + i * 24) (hoff : off = p.length + 24 * us.length + r.length)
    (hsizes : ∀ u ∈ us, u.data.length < 2 ^ 32) (hmax : file.data.length ≤ OFF_MAX) :
    ∃ next, readUpdates stale fileOffset i us.length file = some (us, next) ∧
      next.data = file.data := by
  induction us generalizing file i off p r with
  | nil => exact ⟨file, rfl, rfl⟩
  | cons u us ih =>
    obtain ⟨hu, hus⟩ := List.forall_mem_cons.mp hsizes
    have hentries := @length_updateEntries reserved (i + 1) (off + u.data.length) us
    have hentry := FileMemoryUpdate.length_toBytes (updateEntry (reserved i) off u)
    rw [updateEntries, updateDatas, List.flatMap_cons, ← updateDatas] at hdata
    generalize he : (updateEntry (reserved i) off u).toBytes = e at hdata hentry
    generalize hes : updateEntries reserved (i + 1) (off + u.data.length) us = es at hdata hentries
    have hlen := congrArg List.length hdata
    simp only [List.length_append, List.length_cons] at hlen hoff
    unfold OFF_MAX at hmax
    have hat : (fileOffset + i * 24) % 2 ^ 64 = p.length := by omega
    obtain ⟨f₁, h₁, hf₁⟩ := @readBuffer_at stale file p e
      (es ++ (r ++ (u.data ++ updateDatas us ++ s))) _ 24 (by rw [hdata, List.append_assoc]) rfl hentry (by unfold OFF_MAX; omega)
    obtain ⟨f₂, h₂, hf₂⟩ := @readBuffer_at (fun _ _ => 0) f₁ (p ++ (e ++ (es ++ r))) u.data
      (updateDatas us ++ s) off _ (by rw [hf₁, hdata]; simp only [List.append_assoc])
      (by simp only [List.length_append]; omega) rfl (by unfold OFF_MAX; omega)
    obtain ⟨f₃, h₃, hf₃⟩ := @ih f₂ (i + 1) (off + u.data.length) (p ++ e) (r ++ u.data)
      (by rw [hf₂, hf₁, hdata, hes]; simp only [List.append_assoc])
      (by rw [List.length_append]; omega)
      (by simp only [List.length_append]; omega) hus (by rw [hf₂, hf₁]; unfold OFF_MAX; omega)
    refine ⟨f₃, ?_, by rw [hf₃, hf₂, hf₁]⟩
    have hoff' : (BitVec.ofNat 64 off).toNat = off := by
      rw [BitVec.toNat_ofNat]
      omega
    have hsize : (BitVec.ofNat 32 u.data.length).toNat = u.data.length := by
      exact Nat.mod_eq_of_lt hu
    rw [List.length_cons, readUpdates, hat, h₁]
    simp only [← he, FileMemoryUpdate.ofBytes_toBytes, updateEntry, MemoryUpdateType.ofValue_value,
      Option.bind_some, hoff', hsize, h₂, h₃, Option.map_some]

theorem readFrames_eq {unset : Unset} {frameListOffset i off : Nat} {frames : List FifoFrameInfo}
    {p r s : List Byte}
    (hdata : file.data =
      p ++ (frameEntries unset i off frames ++ (r ++ (frameBlocks unset i off frames ++ s))))
    (hp : p.length = frameListOffset + i * 64)
    (hoff : off = p.length + 64 * frames.length + r.length) (hfits : ∀ frame ∈ frames, frame.Fits)
    (hmax : file.data.length ≤ OFF_MAX) :
    readFrames stale frameListOffset i frames.length file = some frames := by
  induction frames generalizing file i off p r with
  | nil => rfl
  | cons frame frames ih =>
    obtain ⟨hfit, hfits⟩ := List.forall_mem_cons.mp hfits
    have hentry := FileFrameInfo.length_toBytes
      (frameEntry (unset.frame i) off (off + frame.fifoData.length) frame)
    rw [frameEntries, frameBlocks] at hdata
    generalize hnext : off + (frameBlock (unset.update i) off frame).length = off' at hdata
    have hentries := @length_frameEntries unset (i + 1) off' frames
    generalize he : (frameEntry (unset.frame i) off (off + frame.fifoData.length) frame).toBytes = e
      at hdata hentry
    generalize hes : frameEntries unset (i + 1) off' frames = es at hdata hentries
    generalize hbs : frameBlocks unset (i + 1) off' frames = bs at hdata
    rw [frameBlock] at hdata hnext
    have hupdates := @length_updateEntries (unset.update i) 0
      (off + frame.fifoData.length + 24 * frame.memoryUpdates.length) frame.memoryUpdates
    generalize hus : updateEntries (unset.update i) 0
      (off + frame.fifoData.length + 24 * frame.memoryUpdates.length) frame.memoryUpdates = us
      at hdata hupdates hnext
    have hlen := congrArg List.length hdata
    simp only [List.length_append, List.length_cons] at hlen hoff hnext
    unfold OFF_MAX at hmax
    have hat : (frameListOffset + i * 64) % 2 ^ 64 = p.length := by omega
    obtain ⟨f₁, h₁, hf₁⟩ := @readBuffer_at stale file p e
      (es ++ (r ++ (frame.fifoData ++ (us ++ updateDatas frame.memoryUpdates) ++ bs ++ s))) _ 64
      (by rw [hdata, List.append_assoc]) rfl hentry (by unfold OFF_MAX; omega)
    obtain ⟨f₂, h₂, hf₂⟩ := @readBuffer_at (fun _ _ => 0) f₁ (p ++ (e ++ (es ++ r))) frame.fifoData
      (us ++ (updateDatas frame.memoryUpdates ++ (bs ++ s))) off _
      (by rw [hf₁, hdata]; simp only [List.append_assoc])
      (by simp only [List.length_append]; omega) rfl (by unfold OFF_MAX; omega)
    obtain ⟨f₃, h₃, hf₃⟩ := @readUpdates_eq stale f₂ (unset.update i)
      (off + frame.fifoData.length) 0 (off + frame.fifoData.length + 24 * frame.memoryUpdates.length) frame.memoryUpdates
      (p ++ (e ++ (es ++ (r ++ frame.fifoData)))) [] (bs ++ s)
      (by rw [hf₂, hf₁, hdata, hus]; simp only [List.append_assoc, List.nil_append])
      (by simp only [List.length_append]; omega)
      (by simp only [List.length_append, List.length_nil]; omega) hfit.data
      (by rw [hf₂, hf₁]; unfold OFF_MAX; omega)
    have h₄ := @ih f₃ (i + 1) off' (p ++ e)
      (r ++ (frame.fifoData ++ (us ++ updateDatas frame.memoryUpdates)))
      (by rw [hf₃, hf₂, hf₁, hdata, hes, hbs]; simp only [List.append_assoc])
      (by rw [List.length_append]; omega)
      (by simp only [List.length_append]; omega) hfits
      (by rw [hf₃, hf₂, hf₁]; unfold OFF_MAX; omega)
    have hoff' : (BitVec.ofNat 64 off).toNat = off := by
      rw [BitVec.toNat_ofNat]
      omega
    have hoff'' : (BitVec.ofNat 64 (off + frame.fifoData.length)).toNat =
        off + frame.fifoData.length := by
      rw [BitVec.toNat_ofNat]
      omega
    have hsize : (BitVec.ofNat 32 frame.fifoData.length).toNat = frame.fifoData.length := by
      exact Nat.mod_eq_of_lt hfit.fifoData
    have hcount : (BitVec.ofNat 32 frame.memoryUpdates.length).toNat =
        frame.memoryUpdates.length := by
      exact Nat.mod_eq_of_lt hfit.memoryUpdates
    rw [List.length_cons, readFrames, hat, h₁]
    simp only [← he, FileFrameInfo.ofBytes_toBytes, frameEntry, hoff', hoff'', hsize, hcount, h₂,
      ReadMemoryUpdates, h₃, h₄, Option.bind_some, Option.map_some]

theorem length_words {n : Nat} (mem : Fin n → BitVec 32) : (words mem).length = 4 * n := by
  unfold words
  rw [length_flatMap_of_length fun word => length_toLE 4 _, List.length_ofFn]

theorem word_at {n : Nat} (mem : Fin n → BitVec 32) (i : Fin n) (old : Nat → Byte) :
    (List.range 4).map (fun k => (words mem).getD (4 * i + k) (old (4 * i + k))) =
      toLE 4 (mem i).toNat := by
  have hlen := length_words mem
  have hi : (i : Nat) < (List.ofFn mem).length := by
    rw [List.length_ofFn]
    exact i.isLt
  have hword := take_drop_flatMap (fun word : BitVec 32 => length_toLE 4 word.toNat) (List.ofFn mem)
    i hi []
  rw [List.append_nil, List.getElem_ofFn] at hword
  refine Eq.trans (List.ext_getElem ?_ fun k hk hk' => ?_) hword
  · rw [List.length_map, List.length_range, List.length_take, List.length_drop]
    show 4 = min 4 ((words mem).length - _)
    omega
  · rw [List.length_map, List.length_range] at hk
    have hin : 4 * i.val + k < (words mem).length := by omega
    rw [List.getElem_map, List.getElem_range, List.getElem_take, List.getElem_drop,
      List.getD_eq_getElem?_getD, List.getElem?_eq_getElem hin, Option.getD_some]
    rfl

theorem readWords_at {n : Nat} {mem : Fin n → BitVec 32} {p s : List Byte} {pos : Nat}
    (hdata : file.data = p ++ (words mem ++ s)) (hpos : p.length = pos) (hn : n < 2 ^ 32)
    (hmax : pos ≤ OFF_MAX) : ∃ next,
      readWords stale file (BitVec.ofNat 64 pos) n (BitVec.ofNat 32 n) = (mem, next) ∧
        next.data = file.data := by
  have hpos' : (BitVec.ofNat 64 pos).toNat = pos := by
    rw [BitVec.toNat_ofNat]
    unfold OFF_MAX at hmax
    omega
  have hsize : min n (BitVec.ofNat 32 n).toNat = n := by
    rw [BitVec.toNat_ofNat, Nat.mod_eq_of_lt hn, Nat.min_self]
  have hread := file.readBytes_at hdata hpos (length_words mem)
  unfold readWords
  rw [hpos', hsize, IOFile.seekTo_of_le hmax]
  refine ⟨_, Prod.ext (funext fun i => ?_) rfl, rfl⟩
  simp only [hread, word_at mem i]
  rw [fromLE_toLE_of_lt (mem i).isLt, BitVec.ofNat_toNat, BitVec.setWidth_eq]

end

/-- The registers and the texture memory. -/
def arrays (f : FifoDataFile) : List Byte :=
  words f.m_BPMem ++ (words f.m_CPMem ++ (words f.m_XFMem ++ (words f.m_XFRegs ++
    List.ofFn f.m_TexMem)))

theorem length_arrays (f : FifoDataFile) : (arrays f).length = 1067392 := by
  unfold arrays
  simp only [List.length_append, length_words, List.length_ofFn]
  rfl

/-- Where the frames begin. -/
def framesOffset (f : FifoDataFile) : Nat := 128 + 64 * f.m_Frames.length + 1067392

def savedHeader (unset : Unset) (f : FifoDataFile) : FileHeader :=
  let start := 128 + 64 * f.m_Frames.length
  fileHeader unset f 128 start (start + 1024) (start + 2048) (start + 18432) (start + 18816)

/-- What is in the file of a recording. -/
def savedData (unset : Unset) (f : FifoDataFile) : List Byte :=
  (savedHeader unset f).toBytes ++ (frameEntries unset 0 (framesOffset f) f.m_Frames ++
    (arrays f ++ (frameBlocks unset 0 (framesOffset f) f.m_Frames ++ [])))

/-- The counts and sizes of a recording fit into 32 bits. -/
structure FifoDataFile.Fits (f : FifoDataFile) : Prop where
  frames : f.m_Frames.length < 2 ^ 32
  frame : ∀ frame ∈ f.m_Frames, frame.Fits

/-- **The file is loaded** as the recording was. -/
theorem load_savedData (stale : Stale) (unset : Unset) {f : FifoDataFile} (hfits : f.Fits)
    (hmax : (savedData unset f).length ≤ OFF_MAX) :
    FifoDataFile.Load stale (savedData unset f) false =
      some { f with m_Version := VERSION_NUMBER } := by
  have hheader := FileHeader.length_toBytes (savedHeader unset f)
  have hentries := @length_frameEntries unset 0 (framesOffset f) f.m_Frames
  have harrays := length_arrays f
  have hlen : (savedData unset f).length = 128 + (64 * f.m_Frames.length + (1067392 +
      (frameBlocks unset 0 (framesOffset f) f.m_Frames).length)) := by
    unfold savedData
    simp only [List.length_append, List.length_nil, hheader, hentries, harrays, Nat.add_zero]
  generalize hd : savedData unset f = d at hlen hmax
  generalize hframes : frameBlocks unset 0 (framesOffset f) f.m_Frames = blocks at hlen
  have hbp : (words f.m_BPMem).length = 1024 := length_words f.m_BPMem
  have hcp : (words f.m_CPMem).length = 1024 := length_words f.m_CPMem
  have hxf : (words f.m_XFMem).length = 16384 := length_words f.m_XFMem
  have hregs : (words f.m_XFRegs).length = 384 := length_words f.m_XFRegs
  have htex : (List.ofFn f.m_TexMem).length = TEX_MEM_SIZE := List.length_ofFn
  unfold savedData at hd
  rw [hframes] at hd
  generalize hhead : (savedHeader unset f).toBytes = head at hd hheader
  generalize hlist : frameEntries unset 0 (framesOffset f) f.m_Frames = list at hd hentries
  have hd' := hd
  unfold arrays at hd'
  generalize htexs : List.ofFn f.m_TexMem = tex at hd' htex
  simp only [List.append_assoc] at hd'
  unfold OFF_MAX at hmax
  obtain ⟨f₀, h₀, hf₀⟩ := @readBuffer_at stale (.openRead d) [] head _ 0 128 hd.symm rfl hheader
    (by decide)
  obtain ⟨f₁, h₁, hf₁⟩ := @readWords_at stale f₀ _ f.m_BPMem (head ++ list)
    (words f.m_CPMem ++ (words f.m_XFMem ++ (words f.m_XFRegs ++ (tex ++ (blocks ++ [])))))
    (128 + 64 * f.m_Frames.length) (by rw [hf₀, List.append_assoc]; exact hd'.symm)
    (by rw [List.length_append]; omega) (by decide) (by unfold OFF_MAX; omega)
  obtain ⟨f₂, h₂, hf₂⟩ := @readWords_at stale f₁ _ f.m_CPMem (head ++ (list ++ words f.m_BPMem))
    (words f.m_XFMem ++ (words f.m_XFRegs ++ (tex ++ (blocks ++ []))))
    (128 + 64 * f.m_Frames.length + 1024)
    (by rw [hf₁, hf₀, List.append_assoc, List.append_assoc]; exact hd'.symm)
    (by simp only [List.length_append]; omega) (by decide) (by unfold OFF_MAX; omega)
  obtain ⟨f₃, h₃, hf₃⟩ := @readWords_at stale f₂ _ f.m_XFMem
    (head ++ (list ++ (words f.m_BPMem ++ words f.m_CPMem)))
    (words f.m_XFRegs ++ (tex ++ (blocks ++ []))) (128 + 64 * f.m_Frames.length + 2048)
    (by rw [hf₂, hf₁, hf₀, ← hd']; simp only [List.append_assoc, IOFile.openRead])
    (by simp only [List.length_append]; omega) (by decide) (by unfold OFF_MAX; omega)
  obtain ⟨f₄, h₄, hf₄⟩ := @readWords_at stale f₃ _ f.m_XFRegs
    (head ++ (list ++ (words f.m_BPMem ++ (words f.m_CPMem ++ words f.m_XFMem))))
    (tex ++ (blocks ++ [])) (128 + 64 * f.m_Frames.length + 18432)
    (by rw [hf₃, hf₂, hf₁, hf₀, ← hd']; simp only [List.append_assoc, IOFile.openRead])
    (by simp only [List.length_append]; omega) (by decide) (by unfold OFF_MAX; omega)
  have h₅ := @IOFile.readBytes_at f₄ (head ++ (list ++ (words f.m_BPMem ++ (words f.m_CPMem ++
      (words f.m_XFMem ++ words f.m_XFRegs))))) tex (blocks ++ [])
    (128 + 64 * f.m_Frames.length + 18816) TEX_MEM_SIZE
    (by rw [hf₄, hf₃, hf₂, hf₁, hf₀, ← hd']; simp only [List.append_assoc, IOFile.openRead])
    (by simp only [List.length_append]; omega) htex
  have h₆ := fun f₅ (hf₅ : f₅.data = d) => @readFrames_eq stale f₅ unset 128 0 (framesOffset f)
    f.m_Frames head (arrays f) [] (by rw [hf₅, hframes, hlist]; exact hd.symm) hheader
    (by unfold framesOffset; rw [hheader, harrays]) hfits.frame (by rw [hf₅]; unfold OFF_MAX; omega)
  have hoff : ∀ n ≤ OFF_MAX, (BitVec.ofNat 64 n).toNat = n := by
    intro n hn
    rw [BitVec.toNat_ofNat]
    unfold OFF_MAX at hn
    omega
  have hcount : (BitVec.ofNat 32 f.m_Frames.length).toNat = f.m_Frames.length := by
    exact Nat.mod_eq_of_lt hfits.frames
  have htexOff : 128 + 64 * f.m_Frames.length + 18816 ≤ OFF_MAX := by
    unfold OFF_MAX
    omega
  have htexSize : min TEX_MEM_SIZE (BitVec.ofNat 32 TEX_MEM_SIZE).toNat = TEX_MEM_SIZE := by decide
  have htexGet : ∀ i : Fin TEX_MEM_SIZE, tex.getD i 0 = f.m_TexMem i := by
    intro i
    rw [← htexs, List.getD_eq_getElem?_getD, List.getElem?_ofFn, dif_pos i.isLt, Option.getD_some]
  have haccept : ¬ ((savedHeader unset f).fileId ≠ FILE_ID ∨
      VERSION_NUMBER < (savedHeader unset f).min_loader_version) := by
    show ¬ (FILE_ID ≠ FILE_ID ∨ VERSION_NUMBER < MIN_LOADER_VERSION)
    decide
  have hversion : 4 ≤ (savedHeader unset f).file_version := by
    show 4 ≤ VERSION_NUMBER
    decide
  unfold FifoDataFile.Load
  rw [show IOFile.openRead d = (IOFile.openRead d).seekTo 0 from rfl, h₀]
  simp only [← hhead, FileHeader.ofBytes_toBytes]
  rw [if_neg haccept, if_neg Bool.false_ne_true, if_pos hversion]
  simp only [savedHeader, fileHeader, h₁, h₂, h₃, h₄, hoff _ htexOff, htexSize,
    IOFile.seekTo_of_le htexOff, h₅, hcount]
  rw [show (128#64).toNat = 128 from rfl,
    h₆ _ (by rw [IOFile.readBytes_data]; exact ((hf₄.trans hf₃).trans (hf₂.trans hf₁)).trans hf₀)]
  simp only [Option.map_some, htexGet]

end DolphinCore.FifoPlayer
