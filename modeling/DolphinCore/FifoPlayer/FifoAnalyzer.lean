import DolphinCore.FifoPlayer.FifoDataFile
import DolphinCore.GX.CommandEffect
import DolphinCore.GX.StreamChunks

/-!
# DolphinCore.FifoPlayer.FifoAnalyzer

The second decoder of GX commands, which the recorder and the player use: it has
registers of its own and only finds out how long a command is, and, for the
recorder, which memory the command uses. A recorded stream is cut at the commands
that the main decoder executed.
-/

namespace DolphinCore.FifoPlayer

open GX

/-! ## the analyzer -/

structure CPMemory where
  vtxDesc : TVtxDesc
  vtxAttr : Fin 8 → VAT
  arrayBases : Fin 16 → BitVec 32
  arrayStrides : Fin 16 → BitVec 32

/-- `s_CpMem` and `s_DrawingObject`. -/
structure Analyzer where
  cpMem : CPMemory
  drawingObject : Bool

/-- A format register of a group is loaded. -/
def CPMemory.setAttr (m : CPMemory) (group : Fin 8) (f : VAT → VAT) : CPMemory :=
  { m with vtxAttr := Function.update m.vtxAttr group (f (m.vtxAttr group)) }

def LoadCPReg (subCmd : BitVec 8) (value : BitVec 32) (m : CPMemory) : CPMemory :=
  match (subCmd &&& 0xf0).toNat with
  -- keep the upper bits
  | 0x50 => { m with vtxDesc := ⟨m.vtxDesc.Hex &&& ~~~0x1ffff ||| value.setWidth 64⟩ }
  -- keep the lower 17 bits
  | 0x60 => { m with vtxDesc := ⟨m.vtxDesc.Hex &&& 0x1ffff ||| value.setWidth 64 <<< 17⟩ }
  | 0x70 => m.setAttr (CPState.groupOf subCmd) fun vat => { vat with g0 := value }
  | 0x80 => m.setAttr (CPState.groupOf subCmd) fun vat => { vat with g1 := value }
  | 0x90 => m.setAttr (CPState.groupOf subCmd) fun vat => { vat with g2 := value }
  | 0xa0 =>
    { m with arrayBases := Function.update m.arrayBases (subCmd.setWidth 4).toFin value }
  | 0xb0 =>
    { m with arrayStrides :=
        Function.update m.arrayStrides (subCmd.setWidth 4).toFin (value &&& 0xff) }
  | _ => m

/-- The sizes of the elements of a vertex. -/
def elementSizes (m : CPMemory) (group : Fin 8) : List Nat :=
  CalculateVertexElementSizes m.vtxDesc (m.vtxAttr group)

/-- The size of a vertex: the sum of the sizes of its elements. -/
def vertexSize (m : CPMemory) (group : Fin 8) : Nat := (elementSizes m group).sum

/-- The command `cmd`: how many bytes it has, or 0 for an unknown opcode. -/
def analyzeOpcode (s : Analyzer) (cmd : Byte) (data : List Byte) : Nat × Analyzer :=
  match cmd.toNat with
  | 0x00 | 0x44 | 0x48 => (1, s)
  | 0x08 => (6, ⟨LoadCPReg (data.headD 0) (read32 (data.drop 1)) s.cpMem, false⟩)
  | 0x10 => (5 + 4 * xfTransferSize (read32 data), { s with drawingObject := false })
  | 0x20 | 0x28 | 0x30 | 0x38 => (5, { s with drawingObject := false })
  -- the recorder has expanded display lists
  | 0x40 => (9, s)
  | 0x61 => (5, { s with drawingObject := false })
  | _ =>
    if cmd &&& 0x80 ≠ 0 then
      (3 + (read16 data).toNat * vertexSize s.cpMem (drawGroup cmd), { s with drawingObject := true })
    else (0, s)

/-- `AnalyzeCommand`, at the front of `data`. -/
def AnalyzeCommand (s : Analyzer) : List Byte → Nat × Analyzer
  | [] => (0, s)
  | cmd :: data => analyzeOpcode s cmd data

/-! ## memory that commands use -/

/-- The arguments of `UseMemory`. -/
structure MemoryUse where
  address : BitVec 32
  size : BitVec 32
  type : MemoryUpdateType

def ProcessLoadIndexedXf (m : CPMemory) (val : BitVec 32) (array : Fin 16) : MemoryUse :=
  ⟨m.arrayBases array + m.arrayStrides array * (val >>> 16), BitVec.ofNat 32 (indexedSize val),
    .XF_DATA⟩

/-- The largest index of an array; the largest number of its width skips a vertex. -/
def maxIndex (index8 : Bool) (vertexData : List Byte) (vertexSize numVertices : Nat) : Nat :=
  (List.range numVertices).foldl (fun maxIndex i =>
    let data := vertexData.drop (i * vertexSize)
    let index := if index8 then (data.headD 0).toNat else (read16 data).toNat
    if index ≠ (if index8 then 0xff else 0xffff) ∧ index > maxIndex then index else maxIndex) 0

/-- `WriteVertexArray`: an attribute that is present by index uses its array. -/
def WriteVertexArray (m : CPMemory) (arrayIndex : Fin 12) (vertexData : List Byte)
    (vertexSize numVertices : Nat) : List MemoryUse :=
  let arrayType := m.vtxDesc.Hex.extractLsb' (9 + arrayIndex * 2) 2
  if arrayType.toNat < 2 then []
  else
    let index := maxIndex (arrayType = 2) vertexData vertexSize numVertices
    let array : Fin 16 := Fin.ofNat 16 arrayIndex
    [⟨m.arrayBases array, m.arrayStrides array * BitVec.ofNat 32 (index + 1), .VERTEX_STREAM⟩]

/-- The memory that `AnalyzeCommand` finds a command to use, in `DECODE_RECORD`. -/
def commandUses (m : CPMemory) : List Byte → List MemoryUse
  | [] => []
  | cmd :: data =>
    match cmd.toNat with
    | 0x20 | 0x28 | 0x30 | 0x38 => [ProcessLoadIndexedXf m (read32 data) (refArray cmd)]
    | 0x00 | 0x44 | 0x48 | 0x08 | 0x10 | 0x40 | 0x61 => []
    | _ =>
      if cmd &&& 0x80 ≠ 0 ∧ read16 data ≠ 0 then
        (List.finRange 12).flatMap fun (i : Fin 12) =>
          let offset := ((elementSizes m (drawGroup cmd)).take (9 + i)).sum
          WriteVertexArray m i (data.drop (2 + offset)) (vertexSize m (drawGroup cmd))
            (read16 data).toNat
      else []

/-! ## mirrored registers -/

/-- The analyzer has the same descriptor and formats. -/
def Mirrors (m : CPMemory) (cp : CPState) : Prop :=
  m.vtxDesc = cp.vtx_desc ∧ m.vtxAttr = cp.vtx_attr

variable {m : CPMemory}

theorem Mirrors.congr {cp cp' : CPState} (h : Mirrors m cp) (hsame : SameLayout cp' cp) :
    Mirrors m cp' :=
  ⟨h.1.trans hsame.1.symm, h.2.trans hsame.2.symm⟩

theorem Mirrors.loadCPReg {cp : CPState} (h : Mirrors m cp) (bWii : Bool) (subCmd : BitVec 8)
    (value : BitVec 32) :
    Mirrors (LoadCPReg subCmd value m) (cp.loadCPReg bWii false subCmd value) := by
  obtain ⟨hdesc, hattr⟩ := h
  have hset : ∀ group f, Mirrors (m.setAttr group f) (cp.setAttr group f) := by
    intro group f
    refine ⟨hdesc, ?_⟩
    unfold CPMemory.setAttr CPState.setAttr
    rw [hattr]
  unfold LoadCPReg CPState.loadCPReg
  generalize (subCmd &&& 0xf0).toNat = k
  split
  · exact ⟨congrArg TVtxDesc.mk (by rw [hdesc]), hattr⟩
  · exact ⟨congrArg TVtxDesc.mk (by rw [hdesc]), hattr⟩
  · exact hset _ _
  · exact hset _ _
  · exact hset _ _
  · exact ⟨hdesc, hattr⟩
  · exact ⟨hdesc, hattr⟩
  · split <;> first | exact ⟨hdesc, hattr⟩ | exact absurd rfl (by assumption)

/-! ## the sizes agree -/

/-- The main decoder took all the words of an XF load, and a draw with vertices has no absent
texture coordinate of a format out of range. -/
structure Analyzable (m : CPMemory) (cmd : Byte) (data : List Byte) : Prop where
  /-- `GX_UNKNOWN_RESET` is not known to the analyzer. -/
  noReset : cmd ≠ 0x01
  xf : cmd = 0x10 → xfAddress (read32 data) + xfTransferSize (read32 data) ≤ 0x1058
  draw : IsDraw cmd → read16 data ≠ 0 → ∀ i, m.vtxDesc.TexCoord i = 0 →
    ((m.vtxAttr (drawGroup cmd)).decode.texCoord i).Format ≤ 4

instance (m : CPMemory) (cmd : Byte) (data : List Byte) : Decidable (Analyzable m cmd data) :=
  decidable_of_iff (cmd ≠ 0x01 ∧
    (cmd = 0x10 → xfAddress (read32 data) + xfTransferSize (read32 data) ≤ 0x1058) ∧
    (IsDraw cmd → read16 data ≠ 0 → ∀ i, m.vtxDesc.TexCoord i = 0 →
      ((m.vtxAttr (drawGroup cmd)).decode.texCoord i).Format ≤ 4))
    ⟨fun h => ⟨h.1, h.2.1, h.2.2⟩, fun h => ⟨h.1, h.2, h.3⟩⟩

theorem xfWords_eq {transferSize : Nat} (hpos : 0 < transferSize) (baseAddress : Nat) :
    xfWords transferSize baseAddress = transferSize ↔ baseAddress + transferSize ≤ 0x1058 := by
  unfold xfWords
  split
  · split <;> omega
  · omega

theorem IsDraw.analyze {cmd : Byte} (h : IsDraw cmd) (a : Analyzer) (data : List Byte) :
    AnalyzeCommand a (cmd :: data) = (3 + (read16 data).toNat * vertexSize a.cpMem (drawGroup cmd),
        { a with drawingObject := true }) := by
  have hge := GX.IsDraw.ge h
  have hbit : cmd &&& 0x80 ≠ 0 := by
    revert h
    revert cmd
    decide
  show analyzeOpcode a cmd data = _
  unfold analyzeOpcode
  split <;> first | omega | exact if_pos hbit

theorem analyze_reset (a : Analyzer) (data : List Byte) :
    AnalyzeCommand a (0x01 :: data) = (0, a) := rfl

theorem analyze_loadCP (a : Analyzer) (data : List Byte) : AnalyzeCommand a (0x08 :: data) =
      (6, ⟨LoadCPReg (data.headD 0) (read32 (data.drop 1)) a.cpMem, false⟩) := rfl

theorem analyze_loadXF (a : Analyzer) (data : List Byte) : AnalyzeCommand a (0x10 :: data) =
      (5 + 4 * xfTransferSize (read32 data), { a with drawingObject := false }) := rfl

theorem AnalyzeCommand_append (a : Analyzer) {cmd : Byte} (hknown : Known cmd) {data : List Byte}
    (h : operandSize cmd ≤ data.length) (more : List Byte) :
    AnalyzeCommand a (cmd :: (data ++ more)) = AnalyzeCommand a (cmd :: data) := by
  rcases hknown with hmem | hdraw
  · simp only [List.mem_cons, List.not_mem_nil, or_false] at hmem
    rcases hmem with rfl | rfl | rfl | rfl | rfl | rfl | rfl | rfl | rfl | rfl | rfl | rfl
    · rfl
    · rw [analyze_reset, analyze_reset]
    · have h5 : 5 ≤ data.length := h
      rw [analyze_loadCP, analyze_loadCP, headD_append (by omega), read32_drop_append (by omega)]
    · have h4 : 4 ≤ data.length := h
      rw [analyze_loadXF, analyze_loadXF, read32_append h4]
    · rfl
    · rfl
    · rfl
    · rfl
    · rfl
    · rfl
    · rfl
    · rfl
  · rw [hdraw.operandSize_eq] at h
    rw [IsDraw.analyze hdraw, IsDraw.analyze hdraw, read16_append h]

theorem draw_size {cp : CPState} (h : Mirrors m cp) (group : Fin 8) (count : Nat) :
    count * vertexSize m group =
        count * (VertexLoader.create cp.vtx_desc (cp.vtx_attr group)).m_VertexSize ↔
      (count ≠ 0 → ∀ i, m.vtxDesc.TexCoord i = 0 →
        ((m.vtxAttr group).decode.texCoord i).Format ≤ 4) := by
  unfold vertexSize elementSizes
  rw [← h.1, ← h.2, ← VertexLoader.size_add_absent, ← absentTexCoordSizes_eq_zero]
  constructor
  · intro heq hne
    have := Nat.eq_of_mul_eq_mul_left (Nat.pos_of_ne_zero hne) heq
    omega
  · intro hzero
    by_cases hc : count = 0
    · rw [hc, Nat.zero_mul, Nat.zero_mul]
    · rw [hzero hc, Nat.add_zero]

/-- **The size of a command**: of the commands that the main decoder knows, the analyzer finds
the size of exactly the analyzable ones. -/
theorem AnalyzeCommand_size {a : Analyzer} {cp : CPState} (hmirror : Mirrors a.cpMem cp)
    {cmd : Byte} (hknown : Known cmd) (hcall : cmd ≠ 0x40) (data : List Byte) :
    (AnalyzeCommand a (cmd :: data)).1 = commandSize cp cmd data + 1 ↔
      Analyzable a.cpMem cmd data := by
  have hother : ∀ {c : Byte}, c ≠ 0x01 → c ≠ 0x10 → ¬ IsDraw c → Analyzable a.cpMem c data :=
    fun h1 h10 hd => ⟨h1, fun h => absurd h h10, fun h => absurd h hd⟩
  rcases hknown with hmem | hdraw
  · simp only [List.mem_cons, List.not_mem_nil, or_false] at hmem
    rcases hmem with rfl | rfl | rfl | rfl | rfl | rfl | rfl | rfl | rfl | rfl | rfl | rfl
    · exact iff_of_true rfl (hother (by decide) (by decide) (by decide))
    · exact iff_of_false (by exact nofun) fun h => h.noReset rfl
    · exact iff_of_true rfl (hother (by decide) (by decide) (by decide))
    · have hpos : 0 < xfTransferSize (read32 data) := Nat.succ_pos _
      have hwords := xfWords_eq hpos (xfAddress (read32 data))
      show 5 + 4 * xfTransferSize (read32 data) = 4 + 4 * xfWords _ _ + 1 ↔ _
      constructor
      · intro h
        exact ⟨by decide, fun _ => hwords.mp (by omega), fun h => absurd h (by decide)⟩
      · intro h
        rw [hwords.mpr (h.xf rfl)]
        omega
    · exact iff_of_true rfl (hother (by decide) (by decide) (by decide))
    · exact iff_of_true rfl (hother (by decide) (by decide) (by decide))
    · exact iff_of_true rfl (hother (by decide) (by decide) (by decide))
    · exact iff_of_true rfl (hother (by decide) (by decide) (by decide))
    · exact absurd rfl hcall
    · exact iff_of_true rfl (hother (by decide) (by decide) (by decide))
    · exact iff_of_true rfl (hother (by decide) (by decide) (by decide))
    · exact iff_of_true rfl (hother (by decide) (by decide) (by decide))
  · have hge := GX.IsDraw.ge hdraw
    have hsize := draw_size hmirror (drawGroup cmd) (read16 data).toNat
    have hne : (read16 data).toNat ≠ 0 ↔ read16 data ≠ 0 :=
      not_congr (BitVec.toNat_inj (y := 0))
    rw [IsDraw.analyze hdraw, hdraw.commandSize_eq]
    constructor
    · intro h
      have hmul := hsize.mp (by omega)
      refine ⟨?_, ?_, fun _ hc => hmul (hne.mpr hc)⟩
      · rintro rfl
        exact absurd hge (by decide)
      · rintro rfl
        exact absurd hge (by decide)
    · intro h
      have hmul := hsize.mpr fun hc => h.draw hdraw (hne.mp hc)
      omega

theorem AnalyzeCommand_mirrors {a : Analyzer} {cp : CPState} (hmirror : Mirrors a.cpMem cp)
    {cmd : Byte} (hknown : Known cmd) (bWii : Bool) (data : List Byte) :
    Mirrors (AnalyzeCommand a (cmd :: data)).2.cpMem (commandCP bWii cp cmd data) := by
  rcases hknown with hmem | hdraw
  · simp only [List.mem_cons, List.not_mem_nil, or_false] at hmem
    rcases hmem with rfl | rfl | rfl | rfl | rfl | rfl | rfl | rfl | rfl | rfl | rfl | rfl
    any_goals exact hmirror
    exact hmirror.loadCPReg bWii _ _
  · rw [IsDraw.analyze hdraw, hdraw.commandCP_eq]
    exact hmirror

end DolphinCore.FifoPlayer
