import DolphinCore.GX.VertexLoaderUID
import DolphinCore.Lib.Run

/-!
# DolphinCore.GX.VertexLoaderManager

Loaders are kept in one map for both decoders, and each decoder remembers for
every attribute group the loader it used last. A group is looked up again when
its bit in `attr_dirty` is set; a group whose bit is clear has the loader of its
current descriptor and formats.
-/

namespace DolphinCore.GX

/-! ## looking up a loader -/

/-- `s_vertex_loader_map`. -/
abbrev VertexLoaderMap := VertexLoaderUID → Option VertexLoader

/-- `GetOrAddLoader`: the loader of a key, made where there is none. -/
def VertexLoaderMap.getOrAddLoader (map : VertexLoaderMap) (d : TVtxDesc) (vat : VAT) :
    VertexLoader × VertexLoaderMap :=
  let uid := VertexLoaderUID.create d vat
  match map uid with
  | some loader => (loader, map)
  | none => (.create d vat, Function.update map uid (some (.create d vat)))

/-- The registers of a decoder and the loaders it used last. -/
structure Decoder where
  cp : CPState
  loaders : Fin 8 → Option VertexLoader

namespace Decoder

/-- The group is to be looked up again. -/
def needsRefresh (s : Decoder) (group : Fin 8) : Bool := s.cp.attr_dirty.getLsbD group

/-- What a draw does before it looks at its vertices: `UpdateLoader` for the main decoder,
`GetVertexSizeAndComponents` for the preprocessing one. -/
def refreshLoader (s : Decoder) (map : VertexLoaderMap) (group : Fin 8) :
    Decoder × VertexLoaderMap :=
  let clear : CPState := { s.cp with attr_dirty := s.cp.attr_dirty &&& ~~~CPState.groupBit group }
  if s.needsRefresh group then
    let (loader, map) := map.getOrAddLoader s.cp.vtx_desc (s.cp.vtx_attr group)
    (⟨clear, Function.update s.loaders group (some loader)⟩, map)
  else (⟨clear, s.loaders⟩, map)

def loadCPReg (bWii is_preprocess : Bool) (sub_cmd : BitVec 8) (value : BitVec 32)
    (s : Decoder) : Decoder :=
  { s with cp := s.cp.loadCPReg bWii is_preprocess sub_cmd value }

def markAllDirty (s : Decoder) : Decoder := { s with cp := s.cp.markAllDirty }

end Decoder

/-! ## the events -/

/-- Both decoders and the map. -/
structure LoaderState where
  main : Decoder
  pre : Decoder
  map : VertexLoaderMap

inductive LoaderEvent where
  | loadCPReg (is_preprocess : Bool) (sub_cmd : BitVec 8) (value : BitVec 32)
  | draw (is_preprocess : Bool) (group : Fin 8) (count : BitVec 16)
  /-- A savestate is loaded to its end. -/
  | doState (saved : CPState)
  /-- `UpdateWantDeterminism` turns the preprocessing decoder on. -/
  | wantDeterminism
  /-- `VertexLoaderManager::Shutdown` and `Init`. -/
  | deviceReset
  /-- The backend is started again. -/
  | restart

namespace LoaderState

/-- `VertexLoaderManager::Init`. -/
def initManager (s : LoaderState) : LoaderState :=
  { s with main := { s.main with loaders := fun _ => none }.markAllDirty, pre := s.pre.markAllDirty }

/-- `VertexLoaderManager::Shutdown`: the map is cleared. -/
def shutdown (s : LoaderState) : LoaderState := { s with map := fun _ => none }

def init : LoaderState :=
  initManager ⟨⟨.zero, fun _ => none⟩, ⟨.zero, fun _ => none⟩, fun _ => none⟩

def copyPreprocessCPStateFromMain (s : LoaderState) : LoaderState :=
  { s with pre := { s.pre with cp := s.main.cp } }

def markAllDirty (s : LoaderState) : LoaderState :=
  { s with main := s.main.markAllDirty, pre := s.pre.markAllDirty }

/-- `DoCPState` when a savestate is read. -/
def doCPState (s : LoaderState) (saved : CPState) : LoaderState :=
  let cp : CPState := { saved with attr_dirty := s.main.cp.attr_dirty, bases_dirty := true }
  copyPreprocessCPStateFromMain { s with main := { s.main with cp := cp } }

/-- A draw of one of the decoders; one without vertices looks nothing up. -/
def draw (s : LoaderState) (is_preprocess : Bool) (group : Fin 8) (count : BitVec 16) :
    LoaderState :=
  if count = 0 then s
  else if is_preprocess then
    let (pre, map) := s.pre.refreshLoader s.map group
    { s with pre := pre, map := map }
  else
    let (main, map) := s.main.refreshLoader s.map group
    { s with main := main, map := map }

/-- A register of one of the decoders is written. -/
def loadCPReg (s : LoaderState) (bWii is_preprocess : Bool) (sub_cmd : BitVec 8)
    (value : BitVec 32) : LoaderState :=
  if is_preprocess then { s with pre := s.pre.loadCPReg bWii true sub_cmd value }
  else { s with main := s.main.loadCPReg bWii false sub_cmd value }

def event (bWii : Bool) (s : LoaderState) : LoaderEvent → Option LoaderState
  | .loadCPReg is_preprocess sub_cmd value => some (s.loadCPReg bWii is_preprocess sub_cmd value)
  | .draw is_preprocess group count => some (s.draw is_preprocess group count)
  | .doState saved => some (s.doCPState saved).markAllDirty
  | .wantDeterminism => some s.copyPreprocessCPStateFromMain.markAllDirty
  | .deviceReset => some s.shutdown.initManager
  | .restart => some { s.shutdown with main := ⟨.zero, s.main.loaders⟩ }.initManager

end LoaderState

/-! ## the map -/

variable {loader : VertexLoader}

namespace VertexLoaderMap

variable {map : VertexLoaderMap} {d : TVtxDesc} {vat : VAT}

/-- Every loader is under its key. -/
def Keyed (map : VertexLoaderMap) : Prop :=
  ∀ uid loader, map uid = some loader → uid = VertexLoaderUID.create loader.m_VtxDesc loader.m_vat ∧
      loader = .create loader.m_VtxDesc loader.m_vat

theorem Keyed.empty : Keyed fun _ => none := nofun

theorem getOrAddLoader_found (map : VertexLoaderMap) (d : TVtxDesc) (vat : VAT) :
    (map.getOrAddLoader d vat).2 (VertexLoaderUID.create d vat) =
      some (map.getOrAddLoader d vat).1 := by
  unfold getOrAddLoader
  cases h : map (VertexLoaderUID.create d vat) with
  | some loader => simp only [h]
  | none => simp only [h, Function.update_self]

theorem getOrAddLoader_mono {uid : VertexLoaderUID} (h : map uid = some loader) :
    (map.getOrAddLoader d vat).2 uid = some loader := by
  unfold getOrAddLoader
  cases hm : map (VertexLoaderUID.create d vat) with
  | some _ => simpa only [hm] using h
  | none =>
    have hne : uid ≠ VertexLoaderUID.create d vat := by
      rintro rfl
      rw [hm] at h
      cases h
    simpa only [hm, Function.update_of_ne hne] using h

theorem Keyed.getOrAddLoader (h : Keyed map) : Keyed (map.getOrAddLoader d vat).2 := by
  intro uid loader hl
  unfold VertexLoaderMap.getOrAddLoader at hl
  cases hm : map (VertexLoaderUID.create d vat) with
  | some _ =>
    simp only [hm] at hl
    exact h uid loader hl
  | none =>
    simp only [hm] at hl
    by_cases hu : uid = VertexLoaderUID.create d vat
    · subst hu
      rw [Function.update_self] at hl
      cases hl
      exact ⟨rfl, rfl⟩
    · rw [Function.update_of_ne hu] at hl
      exact h uid loader hl

theorem Keyed.sameVertices (h : Keyed map) (hl : map (VertexLoaderUID.create d vat) = some loader) :
    loader.SameVertices (.create d vat) := by
  obtain ⟨huid, hself⟩ := h _ _ hl
  rw [hself]
  exact VertexLoader.sameVertices_of_uid huid.symm

end VertexLoaderMap

/-! ## groups whose bit is clear -/

namespace Decoder

variable {s : Decoder} {map : VertexLoaderMap}

/-- A group whose bit is clear has the loader of its descriptor and formats. -/
def Fresh (s : Decoder) (map : VertexLoaderMap) : Prop :=
  ∀ group, s.needsRefresh group = false → ∃ loader, s.loaders group = some loader ∧
    map (VertexLoaderUID.create s.cp.vtx_desc (s.cp.vtx_attr group)) = some loader

theorem groupBit_getLsbD (g k : Fin 8) : (CPState.groupBit g).getLsbD k = decide (g = k) := by
  revert g k
  decide

theorem allDirty (k : Fin 8) : (0xff : BitVec 32).getLsbD k = true := by
  revert k
  decide

theorem fresh_markAllDirty (s : Decoder) (map : VertexLoaderMap) : s.markAllDirty.Fresh map := by
  intro group h
  have hset : s.markAllDirty.needsRefresh group = true := allDirty group
  rw [hset] at h
  cases h

theorem loadCPReg_clear {bWii is_preprocess : Bool} {sub_cmd : BitVec 8} {value : BitVec 32}
    {cp : CPState} {group : Fin 8}
    (h : (cp.loadCPReg bWii is_preprocess sub_cmd value).attr_dirty.getLsbD group = false) :
    cp.attr_dirty.getLsbD group = false ∧
      (cp.loadCPReg bWii is_preprocess sub_cmd value).vtx_desc = cp.vtx_desc ∧
      (cp.loadCPReg bWii is_preprocess sub_cmd value).vtx_attr group = cp.vtx_attr group := by
  have hdesc : ∀ hex, (cp.setDesc hex).attr_dirty.getLsbD group ≠ false := by
    intro hex
    rw [show (cp.setDesc hex).attr_dirty = 0xff from rfl, allDirty]
    exact nofun
  have hattr : ∀ g f, (cp.setAttr g f).attr_dirty.getLsbD group = false →
      cp.attr_dirty.getLsbD group = false ∧ (cp.setAttr g f).vtx_desc = cp.vtx_desc ∧
        (cp.setAttr g f).vtx_attr group = cp.vtx_attr group := by
    intro g f hg
    rw [show (cp.setAttr g f).attr_dirty = cp.attr_dirty ||| CPState.groupBit g from rfl,
      BitVec.getLsbD_or, groupBit_getLsbD, Bool.or_eq_false_iff, decide_eq_false_iff_not] at hg
    exact ⟨hg.1, rfl, Function.update_of_ne (Ne.symm hg.2) _ _⟩
  unfold CPState.loadCPReg at h ⊢
  split at h
  · cases is_preprocess <;> exact ⟨h, rfl, rfl⟩
  · cases is_preprocess <;> exact ⟨h, rfl, rfl⟩
  · exact absurd h (hdesc _)
  · exact absurd h (hdesc _)
  · exact hattr _ _ h
  · exact hattr _ _ h
  · exact hattr _ _ h
  · exact ⟨h, rfl, rfl⟩
  · exact ⟨h, rfl, rfl⟩
  · exact ⟨h, rfl, rfl⟩

theorem Fresh.loadCPReg (h : s.Fresh map) (bWii is_preprocess : Bool) (sub_cmd : BitVec 8)
    (value : BitVec 32) : (s.loadCPReg bWii is_preprocess sub_cmd value).Fresh map := by
  intro group hclear
  obtain ⟨hbit, hdesc, hattr⟩ := loadCPReg_clear hclear
  obtain ⟨loader, hl, hm⟩ := h group hbit
  refine ⟨loader, hl, ?_⟩
  rw [← hdesc, ← hattr] at hm
  exact hm

theorem Fresh.mono {map' : VertexLoaderMap} (h : s.Fresh map)
    (hmap : ∀ uid loader, map uid = some loader → map' uid = some loader) : s.Fresh map' := by
  intro group hclear
  obtain ⟨loader, hl, hm⟩ := h group hclear
  exact ⟨loader, hl, hmap _ _ hm⟩

theorem refreshLoader_mono {uid : VertexLoaderUID} (h : map uid = some loader) (group : Fin 8) :
    (s.refreshLoader map group).2 uid = some loader := by
  unfold refreshLoader
  split
  · exact VertexLoaderMap.getOrAddLoader_mono h
  · exact h

theorem refreshLoader_keyed (h : map.Keyed) (group : Fin 8) :
    (s.refreshLoader map group).2.Keyed := by
  unfold refreshLoader
  split
  · exact h.getOrAddLoader
  · exact h

theorem clear_getLsbD {v : BitVec 32} {g k : Fin 8}
    (h : (v &&& ~~~CPState.groupBit g).getLsbD k = false) : k = g ∨ v.getLsbD k = false := by
  have hk : k.val < 32 := by omega
  rw [BitVec.getLsbD_and, BitVec.getLsbD_not, decide_eq_true hk, groupBit_getLsbD,
    Bool.true_and, Bool.and_eq_false_iff] at h
  rcases h with h | h
  · exact .inr h
  · simp only [Bool.not_eq_false', decide_eq_true_eq] at h
    exact .inl h.symm

theorem refreshLoader_layout (s : Decoder) (map : VertexLoaderMap) (group : Fin 8) :
    (s.refreshLoader map group).1.cp.vtx_desc = s.cp.vtx_desc ∧
      (s.refreshLoader map group).1.cp.vtx_attr = s.cp.vtx_attr := by
  unfold refreshLoader
  split <;> exact ⟨rfl, rfl⟩

theorem refreshLoader_clears (s : Decoder) (map : VertexLoaderMap) (group : Fin 8) :
    (s.refreshLoader map group).1.needsRefresh group = false := by
  have hcp : (s.refreshLoader map group).1.cp.attr_dirty =
      s.cp.attr_dirty &&& ~~~CPState.groupBit group := by
    unfold refreshLoader
    split <;> rfl
  unfold needsRefresh
  rw [hcp, BitVec.getLsbD_and, BitVec.getLsbD_not, groupBit_getLsbD]
  simp

theorem Fresh.refreshLoader (h : s.Fresh map) (group : Fin 8) :
    (s.refreshLoader map group).1.Fresh (s.refreshLoader map group).2 := by
  intro g hclear
  have hold : s.needsRefresh g = false → ∃ loader, s.loaders g = some loader ∧
      (s.refreshLoader map group).2
        (VertexLoaderUID.create s.cp.vtx_desc (s.cp.vtx_attr g)) = some loader := by
    intro hg
    obtain ⟨loader, hl, hm⟩ := h g hg
    exact ⟨loader, hl, refreshLoader_mono hm group⟩
  unfold Decoder.refreshLoader at hclear hold ⊢
  by_cases hneed : s.needsRefresh group = true
  · simp only [if_pos hneed] at hclear hold ⊢
    by_cases hg : g = group
    · subst hg
      exact ⟨_, Function.update_self .., VertexLoaderMap.getOrAddLoader_found _ _ _⟩
    · obtain ⟨loader, hl, hm⟩ := hold ((clear_getLsbD hclear).resolve_left hg)
      exact ⟨loader, (Function.update_of_ne hg _ _).trans hl, hm⟩
  · simp only [if_neg hneed] at hclear hold ⊢
    rcases clear_getLsbD hclear with rfl | hg
    · exact hold (Bool.eq_false_iff.mpr hneed)
    · exact hold hg

end Decoder

/-! ## runs -/

namespace LoaderState

variable {s : LoaderState}

/-- The invariant of the manager. -/
structure Ok (s : LoaderState) : Prop where
  keyed : s.map.Keyed
  main : s.main.Fresh s.map
  pre : s.pre.Fresh s.map

theorem Ok.markAllDirty (h : s.map.Keyed) : s.markAllDirty.Ok :=
  ⟨h, s.main.fresh_markAllDirty _, s.pre.fresh_markAllDirty _⟩

theorem Ok.initManager (h : s.map.Keyed) : s.initManager.Ok :=
  ⟨h, Decoder.fresh_markAllDirty _ _, s.pre.fresh_markAllDirty _⟩

theorem Ok.draw (h : s.Ok) (is_preprocess : Bool) (group : Fin 8) (count : BitVec 16) :
    (s.draw is_preprocess group count).Ok := by
  unfold LoaderState.draw
  split
  · exact h
  · split
    · exact ⟨Decoder.refreshLoader_keyed h.keyed group,
        h.main.mono fun _ _ hm => Decoder.refreshLoader_mono hm group, h.pre.refreshLoader group⟩
    · exact ⟨Decoder.refreshLoader_keyed h.keyed group, h.main.refreshLoader group,
        h.pre.mono fun _ _ hm => Decoder.refreshLoader_mono hm group⟩

theorem Ok.loadCPReg (h : s.Ok) (bWii is_preprocess : Bool) (sub_cmd : BitVec 8)
    (value : BitVec 32) : (s.loadCPReg bWii is_preprocess sub_cmd value).Ok := by
  unfold LoaderState.loadCPReg
  split
  · exact ⟨h.keyed, h.main, h.pre.loadCPReg _ _ _ _⟩
  · exact ⟨h.keyed, h.main.loadCPReg _ _ _ _, h.pre⟩

theorem ok_of_run {bWii : Bool} (h : Run (event bWii) (fun _ _ => True) init s) : s.Ok := by
  refine h.invariant (Ok.initManager .empty) ?_
  intro s a t hs _ ht
  cases a with
  | loadCPReg is_preprocess sub_cmd value =>
    cases ht
    exact hs.loadCPReg bWii is_preprocess sub_cmd value
  | draw is_preprocess group count =>
    cases ht
    exact hs.draw is_preprocess group count
  | doState saved =>
    cases ht
    exact Ok.markAllDirty hs.keyed
  | wantDeterminism =>
    cases ht
    exact Ok.markAllDirty hs.keyed
  | deviceReset =>
    cases ht
    exact Ok.initManager .empty
  | restart =>
    cases ht
    exact Ok.initManager .empty

/-- A group whose bit is clear has in its decoder the loader that the map has for its
descriptor and formats, and that loader reads their vertices. -/
def Current (s : LoaderState) (decoder : Decoder) : Prop :=
  ∀ group, decoder.needsRefresh group = false → ∃ loader, decoder.loaders group = some loader ∧
    s.map (VertexLoaderUID.create decoder.cp.vtx_desc (decoder.cp.vtx_attr group)) = some loader ∧
    loader.SameVertices (.create decoder.cp.vtx_desc (decoder.cp.vtx_attr group))

theorem Ok.current (h : s.Ok) {decoder : Decoder} (hfresh : decoder.Fresh s.map) :
    s.Current decoder := by
  intro group hclear
  obtain ⟨loader, hl, hm⟩ := hfresh group hclear
  exact ⟨loader, hl, hm, h.keyed.sameVertices hm⟩

end LoaderState

/-- **Vertex loaders**: equal keys mean the same vertices; in every reachable state both
decoders have the current loader for each group whose bit is clear; and a vertex has the size
that the analyzer computes. -/
theorem vertexLoaders_current {bWii : Bool} {s : LoaderState}
    (h : Run (LoaderState.event bWii) (fun _ _ => True) LoaderState.init s) :
    (∀ d d' vat vat', VertexLoaderUID.create d vat = VertexLoaderUID.create d' vat' →
      (VertexLoader.create d vat).SameVertices (.create d' vat')) ∧
    (s.Current s.main ∧ s.Current s.pre) ∧
    ∀ d (vat : VAT), vat.decode.FormatsInRange →
      (VertexLoader.create d vat).m_VertexSize = (CalculateVertexElementSizes d vat).sum := by
  have hok := LoaderState.ok_of_run h
  exact ⟨fun _ _ _ _ huid => VertexLoader.sameVertices_of_uid huid,
    ⟨hok.current hok.main, hok.current hok.pre⟩, fun _ _ hrange => VertexLoader.size_eq_sum hrange⟩

/-- A first draw, of vertices with a direct position of two bytes. -/
theorem vertexLoaders_current_draw :
    (LoaderState.init.draw false 0 1).Current (LoaderState.init.draw false 0 1).main ∧
      (VertexLoader.create ⟨0x200⟩ ⟨0, 0, 0⟩).m_VertexSize = 2 := by
  have hrun : Run (LoaderState.event false) (fun _ _ => True) LoaderState.init
      (LoaderState.init.draw false 0 1) := Run.single (.draw false 0 1) trivial rfl
  have hrange : (VAT.mk 0 0 0).decode.FormatsInRange :=
    ⟨by decide, by decide, by decide, by decide⟩
  obtain ⟨-, hcurrent, hsize⟩ := vertexLoaders_current hrun
  exact ⟨hcurrent.1, (hsize _ _ hrange).trans (by decide)⟩

end DolphinCore.GX
