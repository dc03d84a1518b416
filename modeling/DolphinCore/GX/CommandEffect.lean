import DolphinCore.GX.OpcodeDecoding

/-!
# DolphinCore.GX.CommandEffect

What a command that the main decoder accepts did: how many bytes it took, and
which descriptor and formats there are after it.
-/

namespace DolphinCore.GX

/-! ## opcodes -/

/-- `GX_DRAW_PRIMITIVES`. -/
def IsDraw (cmd_byte : Byte) : Prop := cmd_byte &&& 0xc0 = 0x80

instance (cmd_byte : Byte) : Decidable (IsDraw cmd_byte) := inferInstanceAs (Decidable (_ = _))

/-- An opcode that `Run` knows. -/
def Known (cmd_byte : Byte) : Prop :=
  cmd_byte ∈ [0x00, 0x01, 0x08, 0x10, 0x20, 0x28, 0x30, 0x38, 0x40, 0x44, 0x48, (0x61 : Byte)] ∨
    IsDraw cmd_byte

instance (cmd_byte : Byte) : Decidable (Known cmd_byte) := inferInstanceAs (Decidable (_ ∨ _))

/-- The operands, after its first byte, that say how long a command is and what it loads. -/
def operandSize (cmd_byte : Byte) : Nat :=
  match cmd_byte.toNat with
  | 0x00 | 0x01 | 0x44 | 0x48 => 0
  | 0x08 => 5
  | 0x10 | 0x20 | 0x28 | 0x30 | 0x38 | 0x61 => 4
  | 0x40 => 8
  | _ => 2

/-- The bytes, after its first one, that the main decoder takes for a command. -/
def commandSize (cp : CPState) (cmd_byte : Byte) (data : List Byte) : Nat :=
  match cmd_byte.toNat with
  | 0x10 => 4 + 4 * xfWords (xfTransferSize (read32 data)) (xfAddress (read32 data))
  | 0x00 | 0x01 | 0x44 | 0x48 => 0
  | 0x08 => 5
  | 0x20 | 0x28 | 0x30 | 0x38 | 0x61 => 4
  | 0x40 => 8
  | _ => 2 + (read16 data).toNat *
      (VertexLoader.create cp.vtx_desc (cp.vtx_attr (drawGroup cmd_byte))).m_VertexSize

/-- The registers after a command. -/
def commandCP (bWii : Bool) (cp : CPState) (cmd_byte : Byte) (data : List Byte) : CPState :=
  match cmd_byte.toNat with
  | 0x08 => cp.loadCPReg bWii false (data.headD 0) (read32 (data.drop 1))
  | _ => cp

/-- The two have the same descriptor and formats. -/
def SameLayout (cp cp' : CPState) : Prop :=
  cp.vtx_desc = cp'.vtx_desc ∧ cp.vtx_attr = cp'.vtx_attr

/-- What the main decoder did with a command. -/
structure Effect (bWii : Bool) (s : Decoders) (cmd_byte : Byte) (data : List Byte) (s' : Decoders)
    (n : Nat) (outs : List Command) : Prop where
  operands : operandSize cmd_byte ≤ n
  complete : n ≤ data.length
  size : n = commandSize s.loaders.main.cp cmd_byte data
  ok : s'.loaders.Ok
  layout : SameLayout s'.loaders.main.cp (commandCP bWii s.loaders.main.cp cmd_byte data)
  outs : ∃ block, outs = [⟨cmd_byte :: data.take n, block⟩]

/-! ## each command -/

section

variable {gpu : GPU} {sizeCheck : Bool} {s s' : Decoders} {cmd_byte : Byte} {data : List Byte}
  {n : Nat} {outs : List Command}

variable {size : Nat}

theorem checked_next {k : Step} (h : checked sizeCheck s data size k = .ok (.next s' n outs)) :
    size ≤ data.length ∧ k = .ok (.next s' n outs) := by
  unfold checked at h
  split at h
  · split at h <;> cases h
  · next hlen => exact ⟨Nat.le_of_not_lt hlen, h⟩

theorem finish_next {block : Option (List Byte)} {nested : List Command} {t : Decoders}
    (h : finish t cmd_byte data size block nested = .ok (.next s' n outs)) :
    s' = t ∧ n = size ∧ outs = ⟨cmd_byte :: data.take size, block⟩ :: nested := by
  cases h
  exact ⟨rfl, rfl, rfl⟩

theorem execute_loaders (t : Decoders) (is_preprocess : Bool) (e : Executed) :
    (t.execute is_preprocess e).loaders = t.loaders := by
  unfold Decoders.execute
  split <;> rfl

theorem loadCPCommand_next
    (h : loadCPCommand gpu false sizeCheck s cmd_byte data = .ok (.next s' n outs)) :
    5 ≤ data.length ∧ n = 5 ∧
      s'.loaders = s.loaders.loadCPReg gpu.bWii false (data.headD 0) (read32 (data.drop 1)) ∧
      outs = [⟨cmd_byte :: data.take n, none⟩] := by
  obtain ⟨hlen, h⟩ := checked_next h
  obtain ⟨rfl, rfl, rfl⟩ := finish_next h
  exact ⟨hlen, rfl, execute_loaders _ _ _, rfl⟩

theorem loadXFCommand_next
    (h : loadXFCommand false sizeCheck s cmd_byte data = .ok (.next s' n outs)) :
    n = 4 + 4 * xfWords (xfTransferSize (read32 data)) (xfAddress (read32 data)) ∧
      n ≤ data.length ∧ s'.loaders = s.loaders ∧ outs = [⟨cmd_byte :: data.take n, none⟩] := by
  obtain ⟨-, h⟩ := checked_next h
  simp only [Bool.false_eq_true, if_false] at h
  split at h
  · cases h
  · split at h
    · cases h
    · next hlen =>
      obtain ⟨rfl, rfl, rfl⟩ := finish_next h
      exact ⟨rfl, Nat.le_of_not_lt hlen, execute_loaders _ _ _, rfl⟩

theorem loadBPCommand_next
    (h : loadBPCommand false sizeCheck s cmd_byte data = .ok (.next s' n outs)) :
    4 ≤ data.length ∧ n = 4 ∧ s'.loaders = s.loaders ∧
      outs = [⟨cmd_byte :: data.take n, none⟩] := by
  obtain ⟨hlen, h⟩ := checked_next h
  obtain ⟨rfl, rfl, rfl⟩ := finish_next h
  exact ⟨hlen, rfl, execute_loaders _ _ _, rfl⟩

theorem popFifoAuxBuffer_loaders {block : List Byte}
    (h : s.popFifoAuxBuffer size = .ok (block, s')) : s'.loaders = s.loaders := by
  unfold Decoders.popFifoAuxBuffer at h
  split at h
  · cases h
  · cases h
    rfl

theorem loadIndexedXF_ok {val : BitVec 32} {refarray : Fin 16} {r : Fetched}
    (h : loadIndexedXF gpu s val refarray = .ok r) :
    r.state.loaders = s.loaders ∧ r.nested = [] := by
  have hpair : ∀ newData : Except Fault (List Byte × Decoders),
      (∀ block t, newData = .ok (block, t) → t.loaders = s.loaders) →
      (newData.map fun p => (⟨p.1, p.2.execute false (.indexedXF refarray val
        (readWords (indexedSize val / 4) p.1)), []⟩ : Fetched)) = .ok r →
      r.state.loaders = s.loaders ∧ r.nested = [] := by
    intro newData hload hr
    cases newData with
    | error e => cases hr
    | ok p =>
      cases hr
      exact ⟨(execute_loaders _ _ _).trans (hload _ _ rfl), rfl⟩
  refine hpair _ ?_ h
  intro block t ht
  split at ht
  · exact popFifoAuxBuffer_loaders ht
  · split at ht
    · cases ht
    · cases ht
      rfl

theorem loadIndexedCommand_next
    (h : loadIndexedCommand gpu false sizeCheck s cmd_byte data = .ok (.next s' n outs)) :
    4 ≤ data.length ∧ n = 4 ∧ s'.loaders = s.loaders ∧
      ∃ block, outs = [⟨cmd_byte :: data.take n, block⟩] := by
  obtain ⟨hlen, h⟩ := checked_next h
  cases hr : loadIndexedXF gpu s (read32 data) (refArray cmd_byte) with
  | error e =>
    simp only [Bool.false_eq_true, if_false, hr] at h
    cases h
  | ok r =>
    simp only [Bool.false_eq_true, if_false, hr] at h
    obtain ⟨hloaders, hnested⟩ := loadIndexedXF_ok hr
    obtain ⟨rfl, rfl, rfl⟩ := finish_next h
    rw [hnested]
    exact ⟨hlen, rfl, hloaders, _, rfl⟩

theorem drawn_loader {l : LoaderState} (hok : l.Ok) {count : BitVec 16} (hc : count ≠ 0)
    (group : Fin 8) : ∃ loader, (l.draw false group count).main.loaders group = some loader ∧
      loader.m_VertexSize =
        (VertexLoader.create l.main.cp.vtx_desc (l.main.cp.vtx_attr group)).m_VertexSize := by
  have hmain : (l.draw false group count).main = (l.main.refreshLoader l.map group).1 := by
    unfold LoaderState.draw
    rw [if_neg hc]
    rfl
  have hcur := (hok.draw false group count).current (hok.draw false group count).main group
  rw [hmain] at hcur ⊢
  obtain ⟨loader, hl, -, hsame⟩ := hcur (l.main.refreshLoader_clears l.map group)
  obtain ⟨hdesc, hattr⟩ := l.main.refreshLoader_layout l.map group
  rw [hdesc, hattr] at hsame
  exact ⟨loader, hl, hsame.1⟩

theorem draw_layout (l : LoaderState) (group : Fin 8) (count : BitVec 16) :
    SameLayout (l.draw false group count).main.cp l.main.cp := by
  unfold LoaderState.draw
  split
  · exact ⟨rfl, rfl⟩
  · exact l.main.refreshLoader_layout l.map group

theorem drawCommand_next (hok : s.loaders.Ok)
    (h : drawCommand false sizeCheck s cmd_byte data = .ok (.next s' n outs)) :
    2 ≤ data.length ∧ n ≤ data.length ∧
      n = 2 + (read16 data).toNat * (VertexLoader.create s.loaders.main.cp.vtx_desc
        (s.loaders.main.cp.vtx_attr (drawGroup cmd_byte))).m_VertexSize ∧
      s'.loaders.Ok ∧ SameLayout s'.loaders.main.cp s.loaders.main.cp ∧
      outs = [⟨cmd_byte :: data.take n, none⟩] := by
  obtain ⟨hlen, h⟩ := checked_next h
  simp only at h
  split at h
  · next hc =>
    obtain ⟨rfl, rfl, rfl⟩ := finish_next h
    rw [hc]
    exact ⟨hlen, hlen, (congrArg (2 + ·) (Nat.zero_mul _)).symm, hok, ⟨rfl, rfl⟩, rfl⟩
  · next hc =>
    obtain ⟨loader, hl, hsize⟩ := drawn_loader hok hc (drawGroup cmd_byte)
    have hfound : ((s.drawn false cmd_byte (read16 data)).decoder false).loaders
        (drawGroup cmd_byte) = some loader := hl
    unfold drawVertices at h
    rw [hfound] at h
    simp only at h
    split at h
    · cases h
    · next hroom =>
      obtain ⟨rfl, rfl, rfl⟩ := finish_next h
      rw [← hsize]
      refine ⟨hlen, Nat.le_of_not_lt hroom, rfl, ?_, ?_, rfl⟩
      · exact hok.draw false _ _
      · exact draw_layout _ _ _

/-! ## any command -/

variable {callDL : Decoders → List Byte → Except Fault (Decoders × List Command)}

theorem IsDraw.ge (h : IsDraw cmd_byte) : 0x80 ≤ cmd_byte.toNat := by
  revert h
  revert cmd_byte
  decide

theorem IsDraw.command_eq (h : IsDraw cmd_byte) :
    command gpu false sizeCheck s cmd_byte data callDL =
      drawCommand false sizeCheck s cmd_byte data := by
  have hge := h.ge
  unfold command
  split <;> first | omega | exact if_pos h

theorem IsDraw.operandSize_eq (h : IsDraw cmd_byte) : operandSize cmd_byte = 2 := by
  have hge := h.ge
  unfold operandSize
  split <;> omega

theorem IsDraw.commandSize_eq (h : IsDraw cmd_byte) (cp : CPState) :
    commandSize cp cmd_byte data = 2 + (read16 data).toNat *
      (VertexLoader.create cp.vtx_desc (cp.vtx_attr (drawGroup cmd_byte))).m_VertexSize := by
  have hge := h.ge
  unfold commandSize
  split <;> omega

theorem IsDraw.commandCP_eq (h : IsDraw cmd_byte) (bWii : Bool) (cp : CPState) :
    commandCP bWii cp cmd_byte data = cp := by
  have hge := h.ge
  unfold commandCP
  split <;> first | omega | rfl

/-- **The effect of a command** that is known and calls no display list. -/
theorem command_next (hok : s.loaders.Ok) (hknown : Known cmd_byte) (hcall : cmd_byte ≠ 0x40)
    (h : command gpu false sizeCheck s cmd_byte data callDL = .ok (.next s' n outs)) :
    Effect gpu.bWii s cmd_byte data s' n outs := by
  have hnop : ∀ {c : Byte}, operandSize c = 0 → commandSize s.loaders.main.cp c data = 0 →
      commandCP gpu.bWii s.loaders.main.cp c data = s.loaders.main.cp →
      finish s c data 0 none [] = .ok (.next s' n outs) →
      Effect gpu.bWii s c data s' n outs := by
    intro c hops hsize hcp hfin
    obtain ⟨rfl, rfl, rfl⟩ := finish_next hfin
    exact ⟨Nat.le_of_eq hops, Nat.zero_le _, hsize.symm, hok, by rw [hcp]; exact ⟨rfl, rfl⟩, _, rfl⟩
  have hindexed : ∀ {c : Byte}, operandSize c = 4 → commandSize s.loaders.main.cp c data = 4 →
      commandCP gpu.bWii s.loaders.main.cp c data = s.loaders.main.cp →
      loadIndexedCommand gpu false sizeCheck s c data = .ok (.next s' n outs) →
      Effect gpu.bWii s c data s' n outs := by
    intro c hops hsize hcp hload
    obtain ⟨hlen, rfl, hloaders, block, houts⟩ := loadIndexedCommand_next hload
    exact ⟨Nat.le_of_eq hops, hlen, hsize.symm, hloaders ▸ hok,
      by rw [hcp, hloaders]; exact ⟨rfl, rfl⟩, block, houts⟩
  rcases hknown with hmem | hdraw
  · simp only [List.mem_cons, List.not_mem_nil, or_false] at hmem
    rcases hmem with rfl | rfl | rfl | rfl | rfl | rfl | rfl | rfl | rfl | rfl | rfl | rfl
    · exact hnop rfl rfl rfl h
    · exact hnop rfl rfl rfl h
    · obtain ⟨hlen, rfl, hloaders, houts⟩ := loadCPCommand_next h
      exact ⟨Nat.le_refl 5, hlen, rfl, by rw [hloaders]; exact hok.loadCPReg _ _ _ _,
        by rw [hloaders]; exact ⟨rfl, rfl⟩, none, houts⟩
    · obtain ⟨hn, hlen, hloaders, houts⟩ := loadXFCommand_next h
      exact ⟨hn ▸ Nat.le_add_right 4 _, hlen, hn, hloaders ▸ hok,
        by rw [hloaders]; exact ⟨rfl, rfl⟩, none, houts⟩
    · exact hindexed rfl rfl rfl h
    · exact hindexed rfl rfl rfl h
    · exact hindexed rfl rfl rfl h
    · exact hindexed rfl rfl rfl h
    · exact absurd rfl hcall
    · exact hnop rfl rfl rfl h
    · exact hnop rfl rfl rfl h
    · obtain ⟨hlen, rfl, hloaders, houts⟩ := loadBPCommand_next h
      exact ⟨Nat.le_refl 4, hlen, rfl, hloaders ▸ hok,
        by rw [hloaders]; exact ⟨rfl, rfl⟩, none, houts⟩
  · rw [hdraw.command_eq] at h
    obtain ⟨-, hlen, hn, hok', hlayout, houts⟩ := drawCommand_next hok h
    exact ⟨by rw [hdraw.operandSize_eq, hn]; exact Nat.le_add_right 2 _, hlen,
      by rw [hdraw.commandSize_eq]; exact hn, hok', by rw [hdraw.commandCP_eq]; exact hlayout,
      none, houts⟩

end

end DolphinCore.GX
