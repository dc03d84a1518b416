import DolphinCore.Lib.FinLiteral
import Mathlib.Data.BitVec
import Mathlib.Logic.Function.Basic

/-!
# DolphinCore.GX.VertexLoader

Registers of the command processor: which attributes a vertex has (`TVtxDesc`),
how they are encoded for each of the eight attribute groups (`VAT`), and where
the vertex arrays are. The main decoder and the preprocessing decoder each have
their own copy.

Bit fields are read by position; a family of fields with an index in its name
(`Tex0Coord` to `Tex7Coord`) is one definition with that index.

`VertexLoader::CompileVertexTranslator`: how many bytes a vertex has in the
command stream, and what the vertex that is given to the renderer looks like.
A loader is looked up by a `VertexLoaderUID`, in which the bits of attributes
that a vertex does not have are masked out; what those bits say has no part in
the result.

`FifoAnalyzer::CalculateVertexElementSizes` computes the sizes a second time.
-/

namespace DolphinCore.GX

/-! ## vertex descriptors -/

/-- Which attributes a vertex has: 0 not present, 1 direct, 2 and 3 an index. -/
structure TVtxDesc where
  Hex : BitVec 64
deriving DecidableEq

namespace TVtxDesc

variable (d : TVtxDesc)

def PosMatIdx : BitVec 1 := d.Hex.extractLsb' 0 1

def TexMatIdx (i : Fin 8) : BitVec 1 := d.Hex.extractLsb' (1 + i) 1

def Position : BitVec 2 := d.Hex.extractLsb' 9 2

def Normal : BitVec 2 := d.Hex.extractLsb' 11 2

def Color (i : Fin 2) : BitVec 2 := d.Hex.extractLsb' (13 + 2 * i) 2

def TexCoord (i : Fin 8) : BitVec 2 := d.Hex.extractLsb' (17 + 2 * i) 2

end TVtxDesc

/-! ## attribute formats -/

structure ColorAttr where
  Elements : Nat
  Comp : Nat
deriving DecidableEq

structure TexAttr where
  Elements : Nat
  Format : Nat
  Frac : Nat
deriving DecidableEq

/-- The formats of an attribute group, decoded. -/
structure TVtxAttr where
  PosElements : Nat
  PosFormat : Nat
  PosFrac : Nat
  NormalElements : Nat
  NormalFormat : Nat
  color : Fin 2 → ColorAttr
  texCoord : Fin 8 → TexAttr
  ByteDequant : Nat
  NormalIndex3 : Nat

/-- The three format registers of an attribute group. -/
structure VAT where
  g0 : BitVec 32
  g1 : BitVec 32
  g2 : BitVec 32
deriving DecidableEq

/-- `width` bits of a register. -/
def field (hex : BitVec 32) (start width : Nat) : Nat := (hex.extractLsb' start width).toNat

/-- `SetVAT`: the registers decoded. -/
def VAT.decode (vat : VAT) : TVtxAttr where
  PosElements := field vat.g0 0 1
  PosFormat := field vat.g0 1 3
  PosFrac := field vat.g0 4 5
  NormalElements := field vat.g0 9 1
  NormalFormat := field vat.g0 10 3
  color
    | 0 => ⟨field vat.g0 13 1, field vat.g0 14 3⟩
    | 1 => ⟨field vat.g0 17 1, field vat.g0 18 3⟩
  texCoord
    | 0 => ⟨field vat.g0 21 1, field vat.g0 22 3, field vat.g0 25 5⟩
    | 1 => ⟨field vat.g1 0 1, field vat.g1 1 3, field vat.g1 4 5⟩
    | 2 => ⟨field vat.g1 9 1, field vat.g1 10 3, field vat.g1 13 5⟩
    | 3 => ⟨field vat.g1 18 1, field vat.g1 19 3, field vat.g1 22 5⟩
    -- the fractional bits are in the next register
    | 4 => ⟨field vat.g1 27 1, field vat.g1 28 3, field vat.g2 0 5⟩
    | 5 => ⟨field vat.g2 5 1, field vat.g2 6 3, field vat.g2 9 5⟩
    | 6 => ⟨field vat.g2 14 1, field vat.g2 15 3, field vat.g2 18 5⟩
    | 7 => ⟨field vat.g2 23 1, field vat.g2 24 3, field vat.g2 27 5⟩
  ByteDequant := field vat.g0 30 1
  NormalIndex3 := field vat.g0 31 1

/-! ## registers -/

/-- The registers of the command processor, with the attribute groups and array bases that
changed since they were last looked at. -/
structure CPState where
  array_bases : Fin 16 → BitVec 32
  array_strides : Fin 16 → BitVec 32
  matrix_index_a : BitVec 30
  matrix_index_b : BitVec 24
  vtx_desc : TVtxDesc
  vtx_attr : Fin 8 → VAT
  attr_dirty : BitVec 32
  bases_dirty : Bool

namespace CPState

/-- All registers zero, as at start. -/
def zero : CPState := ⟨fun _ => 0, fun _ => 0, 0, 0, ⟨0⟩, fun _ => ⟨0, 0, 0⟩, 0, false⟩

/-- The part of the state a savestate holds. -/
def SameRegisters (s t : CPState) : Prop :=
  s.array_bases = t.array_bases ∧ s.array_strides = t.array_strides ∧
    s.vtx_desc = t.vtx_desc ∧ s.vtx_attr = t.vtx_attr

/-- Every attribute group and the array bases are to be looked at again. -/
def markAllDirty (s : CPState) : CPState := { s with attr_dirty := 0xff, bases_dirty := true }

/-- The attribute group a register names. -/
def groupOf (sub_cmd : BitVec 8) : Fin 8 := (sub_cmd.setWidth 3).toFin

/-- The bit of an attribute group. -/
def groupBit (group : Fin 8) : BitVec 32 := 1#32 <<< group.val

/-- A format register of a group is written. -/
def setAttr (s : CPState) (group : Fin 8) (f : VAT → VAT) : CPState :=
  { s with
    vtx_attr := Function.update s.vtx_attr group (f (s.vtx_attr group))
    attr_dirty := s.attr_dirty ||| groupBit group }

/-- The vertex descriptor is written. -/
def setDesc (s : CPState) (hex : BitVec 64) : CPState :=
  { s with vtx_desc := ⟨hex⟩, attr_dirty := 0xff, bases_dirty := true }

/-- The mask of physical addresses depends on the console. -/
def physicalAddressMask (bWii : Bool) : BitVec 32 := if bWii then 0x1fffffff else 0x03ffffff

/-- `LoadCPReg`: a register is written. The matrix indices are those of the main decoder only. -/
def loadCPReg (bWii is_preprocess : Bool) (sub_cmd : BitVec 8) (value : BitVec 32) (s : CPState) :
    CPState :=
  match (sub_cmd &&& 0xf0).toNat with
  | 0x30 => if is_preprocess then s else { s with matrix_index_a := value.setWidth 30 }
  | 0x40 => if is_preprocess then s else { s with matrix_index_b := value.setWidth 24 }
  -- keep the upper bits
  | 0x50 => s.setDesc (s.vtx_desc.Hex &&& ~~~0x1ffff ||| value.setWidth 64)
  -- keep the lower 17 bits
  | 0x60 => s.setDesc (s.vtx_desc.Hex &&& 0x1ffff ||| value.setWidth 64 <<< 17)
  | 0x70 => s.setAttr (groupOf sub_cmd) fun vat => { vat with g0 := value }
  | 0x80 => s.setAttr (groupOf sub_cmd) fun vat => { vat with g1 := value }
  | 0x90 => s.setAttr (groupOf sub_cmd) fun vat => { vat with g2 := value }
  -- pointers to vertex arrays in GC RAM
  | 0xa0 =>
    { s with
      array_bases := Function.update s.array_bases (sub_cmd.setWidth 4).toFin
        (value &&& physicalAddressMask bWii)
      bases_dirty := true }
  | 0xb0 =>
    { s with
      array_strides := Function.update s.array_strides (sub_cmd.setWidth 4).toFin
        (value &&& 0xff) }
  | _ => s

end CPState

end DolphinCore.GX

namespace DolphinCore.GX

/-! ## sizes of the attributes -/

/-- Sizes by type, format and number of elements; a format past the last of a row reads on in
the next row. -/
def tableReadPositionVertexSize : List Nat :=
  [0, 0, 0, 0, 0, 0, 0, 0, 0, 0, 2, 3, 2, 3, 4, 6, 4, 6, 8, 12, 1, 1, 1, 1, 1, 1, 1, 1, 1, 1,
   2, 2, 2, 2, 2, 2, 2, 2, 2, 2]

def tableReadTexCoordVertexSize : List Nat :=
  [0, 0, 0, 0, 0, 0, 0, 0, 0, 0, 1, 2, 1, 2, 2, 4, 2, 4, 4, 8, 1, 1, 1, 1, 1, 1, 1, 1, 1, 1,
   2, 2, 2, 2, 2, 2, 2, 2, 2, 2]

/-- Sizes by type, number of indices, number of elements and format. -/
def normalTable : List Nat :=
  [0, 0, 0, 0, 0,  0, 0, 0, 0, 0,  0, 0, 0, 0, 0,  0, 0, 0, 0, 0,
   3, 3, 6, 6, 12,  9, 9, 18, 18, 36,  3, 3, 6, 6, 12,  9, 9, 18, 18, 36,
   1, 1, 1, 1, 1,  1, 1, 1, 1, 1,  1, 1, 1, 1, 1,  3, 3, 3, 3, 3,
   2, 2, 2, 2, 2,  2, 2, 2, 2, 2,  2, 2, 2, 2, 2,  6, 6, 6, 6, 6]

def positionSize (type : BitVec 2) (format elements : Nat) : Nat :=
  tableReadPositionVertexSize.getD ((type.toNat * 5 + format) * 2 + elements) 0

def texCoordSize (type : BitVec 2) (format elements : Nat) : Nat :=
  tableReadTexCoordVertexSize.getD ((type.toNat * 5 + format) * 2 + elements) 0

def normalSize (type : BitVec 2) (format elements index3 : Nat) : Nat :=
  normalTable.getD (((type.toNat * 2 + index3) * 2 + elements) * 5 + format) 0

/-- The size of a colour: that of its format, or of an index. -/
def colorSize (type : BitVec 2) (comp : Nat) : Nat :=
  match type.toNat with
  | 0 => 0
  | 1 =>
    match comp with
    | 0 => 2
    | 1 => 3
    | 2 => 4
    | 3 => 2
    | 4 => 3
    | 5 => 4
    | _ => 0
  | 2 => 1
  | _ => 2

/-! ## native vertices -/

inductive EVTXComponentFormat where
  | ubyte | byte | ushort | short | float
deriving DecidableEq

structure AttributeFormat where
  type : EVTXComponentFormat
  components : Nat
  offset : Nat
  enable : Bool
deriving DecidableEq

def AttributeFormat.zero : AttributeFormat := ⟨.ubyte, 0, 0, false⟩

/-- The layout of a native vertex. -/
structure PortableVertexDeclaration where
  stride : Nat
  position : AttributeFormat
  normals : Fin 3 → AttributeFormat
  colors : Fin 2 → AttributeFormat
  texcoords : Fin 8 → AttributeFormat
  posmtx : AttributeFormat
deriving DecidableEq

def PortableVertexDeclaration.zero : PortableVertexDeclaration :=
  ⟨0, .zero, fun _ => .zero, fun _ => .zero, fun _ => .zero, .zero⟩

/-- `VB_HAS_TEXMTXIDX0`, `VB_HAS_NRM0`, `VB_HAS_COL0` and `VB_HAS_UV0` are the first bits of
their kind. -/
def VB_HAS_TEXMTXIDX (i : Nat) : BitVec 32 := 1#32 <<< i

def VB_HAS_TEXMTXIDXALL : BitVec 32 := 0xff

def VB_HAS_NRM (i : Nat) : BitVec 32 := 1#32 <<< (8 + i)

def VB_HAS_COL (i : Nat) : BitVec 32 := 1#32 <<< (11 + i)

def VB_HAS_UV (i : Nat) : BitVec 32 := 1#32 <<< (13 + i)

/-! ## the loader -/

/-- A loader: what it was made for, and what `CompileVertexTranslator` found. -/
structure VertexLoader where
  m_VtxDesc : TVtxDesc
  m_vat : VAT
  m_VertexSize : Nat
  m_native_components : BitVec 32
  m_native_vtx_decl : PortableVertexDeclaration
deriving DecidableEq

/-- The translator under way. -/
structure Translator where
  m_VertexSize : Nat
  m_native_components : BitVec 32
  m_native_vtx_decl : PortableVertexDeclaration
  nat_offset : Nat

namespace Translator

def start : Translator := ⟨0, 0, .zero, 0⟩

/-- The indices of the position matrix and of the texture matrices. -/
def matrixIndices (d : TVtxDesc) (t : Translator) : Translator :=
  (List.finRange 8).foldl (fun t i =>
      if d.TexMatIdx i ≠ 0 then
        { t with
          m_VertexSize := t.m_VertexSize + 1
          m_native_components := t.m_native_components ||| VB_HAS_TEXMTXIDX i }
      else t)
    (if d.PosMatIdx ≠ 0 then { t with m_VertexSize := t.m_VertexSize + 1 } else t)

def position (d : TVtxDesc) (a : TVtxAttr) (t : Translator) : Translator :=
  { t with
    m_VertexSize := t.m_VertexSize + positionSize d.Position a.PosFormat a.PosElements
    m_native_vtx_decl := { t.m_native_vtx_decl with position := ⟨.float, 3, 0, true⟩ }
    nat_offset := t.nat_offset + 12 }

/-- A normal of the native vertex. -/
def nativeNormal (t : Translator) (i : Fin 3) : Translator :=
  { t with
    m_native_vtx_decl :=
      { t.m_native_vtx_decl with
        normals := Function.update t.m_native_vtx_decl.normals i
          ⟨.float, 3, t.nat_offset, true⟩ }
    nat_offset := t.nat_offset + 12 }

def normals (d : TVtxDesc) (a : TVtxAttr) (t : Translator) : Translator :=
  if d.Normal ≠ 0 then
    let t := { t with
      m_VertexSize := t.m_VertexSize +
        normalSize d.Normal a.NormalFormat a.NormalElements a.NormalIndex3 }
    let t := ((List.finRange 3).take (if a.NormalElements ≠ 0 then 3 else 1)).foldl nativeNormal t
    { t with
      m_native_components := t.m_native_components ||| VB_HAS_NRM 0 |||
        if a.NormalElements = 1 then VB_HAS_NRM 1 ||| VB_HAS_NRM 2 else 0 }
  else t

def color (d : TVtxDesc) (a : TVtxAttr) (t : Translator) (i : Fin 2) : Translator :=
  let t := { t with m_VertexSize := t.m_VertexSize + colorSize (d.Color i) (a.color i).Comp }
  if d.Color i ≠ 0 then
    { t with
      m_native_components := t.m_native_components ||| VB_HAS_COL i
      m_native_vtx_decl :=
        { t.m_native_vtx_decl with
          colors := Function.update t.m_native_vtx_decl.colors i ⟨.ubyte, 4, t.nat_offset, true⟩ }
      nat_offset := t.nat_offset + 4 }
  else t

/-- A texture coordinate of the native vertex. -/
def nativeTexCoord (t : Translator) (i : Fin 8) (components : Nat) : Translator :=
  { t with
    m_native_vtx_decl :=
      { t.m_native_vtx_decl with
        texcoords := Function.update t.m_native_vtx_decl.texcoords i
          ⟨.float, components, t.nat_offset, true⟩ }
    nat_offset := t.nat_offset + 4 * components }

def texCoord (d : TVtxDesc) (a : TVtxAttr) (t : Translator) (i : Fin 8) : Translator :=
  let t :=
    if d.TexCoord i ≠ 0 then
      { t with
        m_native_components := t.m_native_components ||| VB_HAS_UV i
        m_VertexSize := t.m_VertexSize +
          texCoordSize (d.TexCoord i) (a.texCoord i).Format (a.texCoord i).Elements }
    else t
  if t.m_native_components &&& VB_HAS_TEXMTXIDX i ≠ 0 then
    -- with a matrix index the coordinate has three floats, the last is the index
    let t := t.nativeTexCoord i 3
    if d.TexCoord i ≠ 0 then t
    else { t with m_native_components := t.m_native_components ||| VB_HAS_UV i }
  else if d.TexCoord i ≠ 0 then
    t.nativeTexCoord i (if (a.texCoord i).Elements ≠ 0 then 2 else 1)
  else t

/-- No texture coordinate and no texture matrix comes after this one. -/
def lastTexCoord (d : TVtxDesc) (t : Translator) (i : Fin 8) : Bool :=
  decide (d.TexCoord i = 0) && (List.finRange 8).all (fun j => i < j → d.TexCoord j = 0) &&
    decide (t.m_native_components &&& VB_HAS_TEXMTXIDXALL &&&
      VB_HAS_TEXMTXIDXALL <<< (i.val + 1) = 0)

/-- The loop over the texture coordinates, left where none comes after. -/
def texCoords (d : TVtxDesc) (a : TVtxAttr) : List (Fin 8) → Translator → Translator
  | [], t => t
  | i :: is, t =>
    let t := texCoord d a t i
    if lastTexCoord d t i then t else texCoords d a is t

def posmtx (t : Translator) : Translator :=
  { t with
    m_native_vtx_decl :=
      { t.m_native_vtx_decl with
        posmtx := ⟨.ubyte, 4, t.nat_offset, true⟩
        stride := t.nat_offset + 4 }
    nat_offset := t.nat_offset + 4 }

/-- `CompileVertexTranslator`. -/
def compile (d : TVtxDesc) (a : TVtxAttr) : Translator :=
  let t := normals d a (position d a (matrixIndices d start))
  let t := (List.finRange 2).foldl (color d a) t
  posmtx (texCoords d a (List.finRange 8) t)

end Translator

/-- A new loader. -/
def VertexLoader.create (d : TVtxDesc) (vat : VAT) : VertexLoader :=
  let t := Translator.compile d vat.decode
  ⟨d, vat, t.m_VertexSize, t.m_native_components, t.m_native_vtx_decl⟩

/-! ## sizes as the analyzer computes them -/

/-- `CalculateVertexElementSizes`: matrix indices, position, normal, colours, coordinates. -/
def CalculateVertexElementSizes (d : TVtxDesc) (vat : VAT) : List Nat :=
  let a := vat.decode
  (List.range 9).map (fun i => (d.Hex.extractLsb' i 1).toNat) ++
    [positionSize d.Position a.PosFormat a.PosElements,
      if d.Normal ≠ 0 then normalSize d.Normal a.NormalFormat a.NormalElements a.NormalIndex3
      else 0] ++
    (List.finRange 2).map (fun i => colorSize (d.Color i) (a.color i).Comp) ++
    (List.finRange 8).map fun i =>
      texCoordSize (d.TexCoord i) (a.texCoord i).Format (a.texCoord i).Elements

end DolphinCore.GX
