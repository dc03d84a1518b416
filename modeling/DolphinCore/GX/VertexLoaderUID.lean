import Mathlib.Algebra.BigOperators.Group.List.Basic
import Mathlib.Data.List.FinRange
import DolphinCore.GX.VertexLoader

/-!
# DolphinCore.GX.VertexLoaderUID

The key under which loaders are kept. Equal keys mean equal descriptors and equal
formats of the attributes that are present, so the loaders of two
configurations with one key read vertices of the same size and write the same
native vertices.
-/

namespace DolphinCore.GX

/-! ## the key -/

def VAT_0_FRACBITS : BitVec 32 := 0x3e0001f0
def VAT_0_NRMBITS : BitVec 32 := 0x80001e00
def VAT_0_COL0BITS : BitVec 32 := 0x0001e000
def VAT_0_COL1BITS : BitVec 32 := 0x001e0000
def VAT_0_TEX0BITS : BitVec 32 := 0x3fe00000
def VAT_1_FRACBITS : BitVec 32 := 0x07c3e1f0
def VAT_1_TEX1BITS : BitVec 32 := 0x000001ff
def VAT_1_TEX2BITS : BitVec 32 := 0x0003fe00
def VAT_1_TEX3BITS : BitVec 32 := 0x07fc0000
def VAT_1_TEX4BITS : BitVec 32 := 0x78000000
def VAT_2_FRACBITS : BitVec 32 := 0xf87c3e1f
def VAT_2_TEX4BITS : BitVec 32 := 0x0000001f
def VAT_2_TEX5BITS : BitVec 32 := 0x00003fe0
def VAT_2_TEX6BITS : BitVec 32 := 0x007fc000
def VAT_2_TEX7BITS : BitVec 32 := 0xff800000

/-- `mask &= present ? fullmask : ~bits`. -/
def keepIf (present : Bool) (bits : BitVec 32) : BitVec 32 :=
  if present then 0xffffffff else ~~~bits

/-- The attribute uses the format of a texture coordinate. -/
def TVtxDesc.usesTex (d : TVtxDesc) (i : Fin 8) : Bool :=
  decide (d.TexCoord i ≠ 0) || decide (d.TexMatIdx i ≠ 0)

/-- The key of a loader; its hash is computed from the four words. -/
structure VertexLoaderUID where
  vid0 : BitVec 32
  vid1 : BitVec 32
  vid2 : BitVec 32
  vid3 : BitVec 32
deriving DecidableEq

namespace VertexLoaderUID

def mask1 (d : TVtxDesc) : BitVec 32 :=
  ~~~VAT_0_FRACBITS &&& keepIf (decide (d.Color 0 ≠ 0)) VAT_0_COL0BITS &&&
    keepIf (decide (d.Color 1 ≠ 0)) VAT_0_COL1BITS &&&
    keepIf (decide (d.Normal ≠ 0)) VAT_0_NRMBITS &&& keepIf (d.usesTex 0) VAT_0_TEX0BITS

def mask2 (d : TVtxDesc) : BitVec 32 :=
  ~~~VAT_1_FRACBITS &&& keepIf (d.usesTex 1) VAT_1_TEX1BITS &&&
    keepIf (d.usesTex 2) VAT_1_TEX2BITS &&& keepIf (d.usesTex 3) VAT_1_TEX3BITS &&&
    keepIf (d.usesTex 4) VAT_1_TEX4BITS

def mask3 (d : TVtxDesc) : BitVec 32 :=
  ~~~VAT_2_FRACBITS &&& keepIf (d.usesTex 4) VAT_2_TEX4BITS &&&
    keepIf (d.usesTex 5) VAT_2_TEX5BITS &&& keepIf (d.usesTex 6) VAT_2_TEX6BITS &&&
    keepIf (d.usesTex 7) VAT_2_TEX7BITS

/-- The constructor of the key. -/
def create (d : TVtxDesc) (vat : VAT) : VertexLoaderUID where
  vid0 := (d.Hex >>> 1).setWidth 32
  vid1 := vat.g0 &&& mask1 d
  -- encode posmtxidx in the free bit inside VAT2
  vid2 :=
    if d.PosMatIdx ≠ 0 then vat.g1 &&& mask2 d ||| 0x80000000
    else vat.g1 &&& mask2 d &&& 0x7fffffff
  vid3 := vat.g2 &&& mask3 d

end VertexLoaderUID

/-! ## what a loader depends on -/

/-- The same attributes, and the same formats of those that are present. -/
structure SameFormat (d d' : TVtxDesc) (a a' : TVtxAttr) : Prop where
  posMatIdx : d.PosMatIdx = d'.PosMatIdx
  texMatIdx : ∀ i, d.TexMatIdx i = d'.TexMatIdx i
  position : d.Position = d'.Position
  normal : d.Normal = d'.Normal
  color : ∀ i, d.Color i = d'.Color i
  texCoord : ∀ i, d.TexCoord i = d'.TexCoord i
  posFormat : a.PosFormat = a'.PosFormat
  posElements : a.PosElements = a'.PosElements
  normalFormat : d.Normal ≠ 0 → a.NormalFormat = a'.NormalFormat
  normalElements : d.Normal ≠ 0 → a.NormalElements = a'.NormalElements
  normalIndex3 : d.Normal ≠ 0 → a.NormalIndex3 = a'.NormalIndex3
  colorComp : ∀ i, d.Color i ≠ 0 → (a.color i).Comp = (a'.color i).Comp
  texFormat : ∀ i, d.TexCoord i ≠ 0 → (a.texCoord i).Format = (a'.texCoord i).Format
  texElements : ∀ i, d.TexCoord i ≠ 0 → (a.texCoord i).Elements = (a'.texCoord i).Elements

namespace SameFormat

variable {d d' : TVtxDesc} {a a' : TVtxAttr}

theorem matrixIndices (h : SameFormat d d' a a') :
    Translator.matrixIndices d = Translator.matrixIndices d' := by
  funext t
  simp only [Translator.matrixIndices, h.posMatIdx, h.texMatIdx]

theorem position_eq (h : SameFormat d d' a a') :
    Translator.position d a = Translator.position d' a' := by
  funext t
  simp only [Translator.position, h.position, h.posFormat, h.posElements]

theorem normals (h : SameFormat d d' a a') : Translator.normals d a = Translator.normals d' a' := by
  funext t
  unfold Translator.normals
  by_cases hn : d.Normal ≠ 0
  · have hn' : d'.Normal ≠ 0 := h.normal ▸ hn
    simp only [if_pos hn', h.normal, h.normalFormat hn, h.normalElements hn, h.normalIndex3 hn]
  · have hn' : ¬ d'.Normal ≠ 0 := h.normal ▸ hn
    rw [if_neg hn, if_neg hn']

theorem colorSize_eq (h : SameFormat d d' a a') (i : Fin 2) :
    colorSize (d.Color i) (a.color i).Comp = colorSize (d'.Color i) (a'.color i).Comp := by
  rw [← h.color i]
  by_cases hc : d.Color i = 0
  · rw [hc]
    rfl
  · rw [h.colorComp i hc]

theorem color_eq (h : SameFormat d d' a a') : Translator.color d a = Translator.color d' a' := by
  funext t i
  unfold Translator.color
  rw [h.colorSize_eq i, h.color i]

theorem texCoord_eq (h : SameFormat d d' a a') :
    Translator.texCoord d a = Translator.texCoord d' a' := by
  funext t i
  unfold Translator.texCoord
  by_cases hc : d.TexCoord i ≠ 0
  · have hc' : d'.TexCoord i ≠ 0 := h.texCoord i ▸ hc
    simp only [if_pos hc', h.texCoord i, h.texFormat i hc, h.texElements i hc]
  · have hc' : ¬ d'.TexCoord i ≠ 0 := h.texCoord i ▸ hc
    simp only [if_neg hc, if_neg hc']

theorem texCoords (h : SameFormat d d' a a') (is : List (Fin 8)) :
    ∀ t, Translator.texCoords d a is t = Translator.texCoords d' a' is t := by
  induction is with
  | nil => exact fun _ => rfl
  | cons i is ih =>
    intro t
    have hlast : ∀ t, Translator.lastTexCoord d t i = Translator.lastTexCoord d' t i := fun t => by
      simp only [Translator.lastTexCoord, h.texCoord]
    simp only [Translator.texCoords, h.texCoord_eq, hlast, ih]

theorem compile (h : SameFormat d d' a a') : Translator.compile d a = Translator.compile d' a' := by
  unfold Translator.compile
  rw [h.matrixIndices, h.position_eq, h.normals, h.color_eq]
  exact congrArg Translator.posmtx (h.texCoords _ _)

end SameFormat

/-! ## equal keys -/

theorem extract_shiftRight (x : BitVec 64) {start len : Nat} (h : start + len ≤ 32) :
    ((x >>> 1).setWidth 32).extractLsb' start len = x.extractLsb' (1 + start) len := by
  ext i hi
  simp only [BitVec.getElem_extractLsb', BitVec.getLsbD_setWidth, BitVec.getLsbD_ushiftRight]
  have h32 : start + i < 32 := by omega
  simp only [h32, decide_true, Bool.true_and, Nat.add_assoc]

/-- The mask keeps these bits. -/
def FullAt (m : BitVec 32) (start len : Nat) : Prop :=
  m.extractLsb' start len = BitVec.allOnes len

instance (m : BitVec 32) (start len : Nat) : Decidable (FullAt m start len) :=
  inferInstanceAs (Decidable (_ = _))

theorem FullAt.extract {m : BitVec 32} {start len : Nat} (h : FullAt m start len)
    (x : BitVec 32) : (x &&& m).extractLsb' start len = x.extractLsb' start len := by
  rw [BitVec.extractLsb'_and, h, BitVec.and_allOnes]

theorem FullAt.and {m m' : BitVec 32} {start len : Nat} (h : FullAt m start len)
    (h' : FullAt m' start len) : FullAt (m &&& m') start len := by
  unfold FullAt
  rw [BitVec.extractLsb'_and, h, h', BitVec.and_self]

theorem FullAt.keepIf {present : Bool} {bits : BitVec 32} {start len : Nat}
    (h : present = true ∨ FullAt (~~~bits) start len) (hlen : start + len ≤ 32) :
    FullAt (keepIf present bits) start len := by
  unfold GX.keepIf
  split
  · ext i hi
    have hlt : start + i < 32 := by omega
    rw [BitVec.getElem_extractLsb', BitVec.getElem_allOnes,
      show (0xffffffff : BitVec 32) = BitVec.allOnes 32 from rfl, BitVec.getLsbD_allOnes]
    exact decide_eq_true hlt
  · next hp => exact h.resolve_left hp

theorem FullAt.keepIfTex {d : TVtxDesc} {i : Fin 8} {bits : BitVec 32} {start len : Nat}
    (h : d.TexCoord i ≠ 0 ∨ FullAt (~~~bits) start len) (hlen : start + len ≤ 32) :
    FullAt (GX.keepIf (d.usesTex i) bits) start len := by
  refine .keepIf (h.imp_left fun hi => ?_) hlen
  unfold TVtxDesc.usesTex
  rw [decide_eq_true hi, Bool.true_or]

namespace VertexLoaderUID

section

variable {d : TVtxDesc} {start len : Nat}

theorem mask1_full (hlen : start + len ≤ 32) (hfrac : FullAt (~~~VAT_0_FRACBITS) start len)
    (h0 : d.Color 0 ≠ 0 ∨ FullAt (~~~VAT_0_COL0BITS) start len)
    (h1 : d.Color 1 ≠ 0 ∨ FullAt (~~~VAT_0_COL1BITS) start len)
    (hn : d.Normal ≠ 0 ∨ FullAt (~~~VAT_0_NRMBITS) start len)
    (ht : d.TexCoord 0 ≠ 0 ∨ FullAt (~~~VAT_0_TEX0BITS) start len) :
    FullAt (mask1 d) start len :=
  (((hfrac.and (.keepIf (h0.imp_left decide_eq_true) hlen)).and
    (.keepIf (h1.imp_left decide_eq_true) hlen)).and
    (.keepIf (hn.imp_left decide_eq_true) hlen)).and (.keepIfTex ht hlen)

theorem mask2_full (hlen : start + len ≤ 32) (hfrac : FullAt (~~~VAT_1_FRACBITS) start len)
    (h1 : d.TexCoord 1 ≠ 0 ∨ FullAt (~~~VAT_1_TEX1BITS) start len)
    (h2 : d.TexCoord 2 ≠ 0 ∨ FullAt (~~~VAT_1_TEX2BITS) start len)
    (h3 : d.TexCoord 3 ≠ 0 ∨ FullAt (~~~VAT_1_TEX3BITS) start len)
    (h4 : d.TexCoord 4 ≠ 0 ∨ FullAt (~~~VAT_1_TEX4BITS) start len) :
    FullAt (mask2 d) start len :=
  (((hfrac.and (.keepIfTex h1 hlen)).and (.keepIfTex h2 hlen)).and (.keepIfTex h3 hlen)).and
    (.keepIfTex h4 hlen)

theorem mask3_full (hlen : start + len ≤ 32) (hfrac : FullAt (~~~VAT_2_FRACBITS) start len)
    (h4 : d.TexCoord 4 ≠ 0 ∨ FullAt (~~~VAT_2_TEX4BITS) start len)
    (h5 : d.TexCoord 5 ≠ 0 ∨ FullAt (~~~VAT_2_TEX5BITS) start len)
    (h6 : d.TexCoord 6 ≠ 0 ∨ FullAt (~~~VAT_2_TEX6BITS) start len)
    (h7 : d.TexCoord 7 ≠ 0 ∨ FullAt (~~~VAT_2_TEX7BITS) start len) :
    FullAt (mask3 d) start len :=
  (((hfrac.and (.keepIfTex h4 hlen)).and (.keepIfTex h5 hlen)).and (.keepIfTex h6 hlen)).and
    (.keepIfTex h7 hlen)

end

variable {d d' : TVtxDesc} {vat vat' : VAT} {start len : Nat}

theorem desc_extract {k n : Nat} (h : create d vat = create d' vat') (hlen : k + n ≤ 32) :
    d.Hex.extractLsb' (1 + k) n = d'.Hex.extractLsb' (1 + k) n := by
  have h0 := congrArg VertexLoaderUID.vid0 h
  rw [← extract_shiftRight _ hlen, ← extract_shiftRight _ hlen]
  exact congrArg (BitVec.extractLsb' k n) h0

theorem texMatIdx_eq (h : create d vat = create d' vat') (i : Fin 8) :
    d.TexMatIdx i = d'.TexMatIdx i :=
  desc_extract h (by omega)

theorem position_eq (h : create d vat = create d' vat') : d.Position = d'.Position :=
  desc_extract (k := 8) h (by omega)

theorem normal_eq (h : create d vat = create d' vat') : d.Normal = d'.Normal :=
  desc_extract (k := 10) h (by omega)

theorem color_eq (h : create d vat = create d' vat') (i : Fin 2) : d.Color i = d'.Color i := by
  have hc := desc_extract (k := 12 + 2 * i) (n := 2) h (by omega)
  rwa [← Nat.add_assoc] at hc

theorem texCoord_eq (h : create d vat = create d' vat') (i : Fin 8) :
    d.TexCoord i = d'.TexCoord i := by
  have hc := desc_extract (k := 16 + 2 * i) (n := 2) h (by omega)
  rwa [← Nat.add_assoc] at hc

theorem usesTex_eq (h : create d vat = create d' vat') (i : Fin 8) :
    d.usesTex i = d'.usesTex i := by
  unfold TVtxDesc.usesTex
  rw [texCoord_eq h i, texMatIdx_eq h i]

theorem vid2_top (d : TVtxDesc) (vat : VAT) :
    (create d vat).vid2.getLsbD 31 = decide (d.PosMatIdx ≠ 0) := by
  unfold create
  by_cases hp : d.PosMatIdx ≠ 0
  · have hset : (0x80000000 : BitVec 32).getLsbD 31 = true := by decide
    simp only [if_pos hp, BitVec.getLsbD_or, hset, Bool.or_true, decide_eq_true hp]
  · have hclear : (0x7fffffff : BitVec 32).getLsbD 31 = false := by decide
    simp only [if_neg hp, BitVec.getLsbD_and, hclear, Bool.and_false, decide_eq_false hp]

theorem posMatIdx_eq (h : create d vat = create d' vat') : d.PosMatIdx = d'.PosMatIdx := by
  have htop := congrArg (fun u => u.vid2.getLsbD 31) h
  simp only [vid2_top] at htop
  have hne := decide_eq_decide.mp htop
  generalize d.PosMatIdx = p at hne
  generalize d'.PosMatIdx = q at hne
  revert p q
  decide

theorem vid2_extract (d : TVtxDesc) (vat : VAT) (hlen : start + len ≤ 31) :
    (create d vat).vid2.extractLsb' start len = (vat.g1 &&& mask2 d).extractLsb' start len := by
  have hbit : ∀ k < 31, (0x80000000 : BitVec 32).getLsbD k = false ∧
      (0x7fffffff : BitVec 32).getLsbD k = true := by decide
  ext i hi
  obtain ⟨hset, hclear⟩ := hbit (start + i) (by omega)
  rw [BitVec.getElem_extractLsb', BitVec.getElem_extractLsb']
  unfold create
  split
  · rw [BitVec.getLsbD_or, hset, Bool.or_false]
  · rw [BitVec.getLsbD_and, hclear, Bool.and_true]

theorem g0_extract (h : create d vat = create d' vat') (hm : FullAt (mask1 d) start len) :
    field vat.g0 start len = field vat'.g0 start len := by
  have hmask : mask1 d = mask1 d' := by
    unfold mask1
    rw [color_eq h, color_eq h, normal_eq h, usesTex_eq h]
  have hv := congrArg (fun u => u.vid1.extractLsb' start len) h
  simp only [create, ← hmask, hm.extract] at hv
  exact congrArg BitVec.toNat hv

theorem g1_extract (h : create d vat = create d' vat') (hlen : start + len ≤ 31)
    (hm : FullAt (mask2 d) start len) : field vat.g1 start len = field vat'.g1 start len := by
  have hmask : mask2 d = mask2 d' := by
    unfold mask2
    rw [usesTex_eq h, usesTex_eq h, usesTex_eq h, usesTex_eq h]
  have hv := congrArg (fun u => u.vid2.extractLsb' start len) h
  simp only [vid2_extract _ _ hlen, ← hmask, hm.extract] at hv
  exact congrArg BitVec.toNat hv

theorem g2_extract (h : create d vat = create d' vat') (hm : FullAt (mask3 d) start len) :
    field vat.g2 start len = field vat'.g2 start len := by
  have hmask : mask3 d = mask3 d' := by
    unfold mask3
    rw [usesTex_eq h, usesTex_eq h, usesTex_eq h, usesTex_eq h]
  have hv := congrArg (fun u => u.vid3.extractLsb' start len) h
  simp only [create, ← hmask, hm.extract] at hv
  exact congrArg BitVec.toNat hv

/-- Texture coordinates that are present have their formats in the key. -/
theorem texAttr_eq (h : create d vat = create d' vat') (i : Fin 8) (hi : d.TexCoord i ≠ 0) :
    (vat.decode.texCoord i).Format = (vat'.decode.texCoord i).Format ∧
      (vat.decode.texCoord i).Elements = (vat'.decode.texCoord i).Elements := by
  match i with
  | 0 =>
    exact ⟨g0_extract h (mask1_full (by decide) (by decide) (.inr (by decide)) (.inr (by decide))
        (.inr (by decide)) (.inl hi)),
      g0_extract h (mask1_full (by decide) (by decide) (.inr (by decide)) (.inr (by decide))
        (.inr (by decide)) (.inl hi))⟩
  | 1 =>
    exact ⟨g1_extract h (by decide) (mask2_full (by decide) (by decide) (.inl hi)
        (.inr (by decide)) (.inr (by decide)) (.inr (by decide))),
      g1_extract h (by decide) (mask2_full (by decide) (by decide) (.inl hi)
        (.inr (by decide)) (.inr (by decide)) (.inr (by decide)))⟩
  | 2 =>
    exact ⟨g1_extract h (by decide) (mask2_full (by decide) (by decide) (.inr (by decide))
        (.inl hi) (.inr (by decide)) (.inr (by decide))),
      g1_extract h (by decide) (mask2_full (by decide) (by decide) (.inr (by decide))
        (.inl hi) (.inr (by decide)) (.inr (by decide)))⟩
  | 3 =>
    exact ⟨g1_extract h (by decide) (mask2_full (by decide) (by decide) (.inr (by decide))
        (.inr (by decide)) (.inl hi) (.inr (by decide))),
      g1_extract h (by decide) (mask2_full (by decide) (by decide) (.inr (by decide))
        (.inr (by decide)) (.inl hi) (.inr (by decide)))⟩
  | 4 =>
    exact ⟨g1_extract h (by decide) (mask2_full (by decide) (by decide) (.inr (by decide))
        (.inr (by decide)) (.inr (by decide)) (.inl hi)),
      g1_extract h (by decide) (mask2_full (by decide) (by decide) (.inr (by decide))
        (.inr (by decide)) (.inr (by decide)) (.inl hi))⟩
  | 5 =>
    exact ⟨g2_extract h (mask3_full (by decide) (by decide) (.inr (by decide)) (.inl hi)
        (.inr (by decide)) (.inr (by decide))),
      g2_extract h (mask3_full (by decide) (by decide) (.inr (by decide)) (.inl hi)
        (.inr (by decide)) (.inr (by decide)))⟩
  | 6 =>
    exact ⟨g2_extract h (mask3_full (by decide) (by decide) (.inr (by decide)) (.inr (by decide))
        (.inl hi) (.inr (by decide))),
      g2_extract h (mask3_full (by decide) (by decide) (.inr (by decide)) (.inr (by decide))
        (.inl hi) (.inr (by decide)))⟩
  | 7 =>
    exact ⟨g2_extract h (mask3_full (by decide) (by decide) (.inr (by decide)) (.inr (by decide))
        (.inr (by decide)) (.inl hi)),
      g2_extract h (mask3_full (by decide) (by decide) (.inr (by decide)) (.inr (by decide))
        (.inr (by decide)) (.inl hi))⟩

theorem colorComp_eq (h : create d vat = create d' vat') (i : Fin 2) (hi : d.Color i ≠ 0) :
    (vat.decode.color i).Comp = (vat'.decode.color i).Comp := by
  match i with
  | 0 =>
    exact g0_extract h (mask1_full (by decide) (by decide) (.inl hi) (.inr (by decide))
      (.inr (by decide)) (.inr (by decide)))
  | 1 =>
    exact g0_extract h (mask1_full (by decide) (by decide) (.inr (by decide)) (.inl hi)
      (.inr (by decide)) (.inr (by decide)))

theorem normalField_eq (h : create d vat = create d' vat') (hn : d.Normal ≠ 0)
    (hlen : start + len ≤ 32) (hfrac : FullAt (~~~VAT_0_FRACBITS) start len)
    (h0 : FullAt (~~~VAT_0_COL0BITS) start len) (h1 : FullAt (~~~VAT_0_COL1BITS) start len)
    (ht : FullAt (~~~VAT_0_TEX0BITS) start len) :
    field vat.g0 start len = field vat'.g0 start len :=
  g0_extract h (mask1_full hlen hfrac (.inr h0) (.inr h1) (.inl hn) (.inr ht))

/-- **The key of a loader**: equal keys mean the same attributes in the same formats. -/
theorem sameFormat (h : create d vat = create d' vat') :
    SameFormat d d' vat.decode vat'.decode where
  posMatIdx := posMatIdx_eq h
  texMatIdx := texMatIdx_eq h
  position := position_eq h
  normal := normal_eq h
  color := color_eq h
  texCoord := texCoord_eq h
  posFormat := g0_extract h (mask1_full (by decide) (by decide) (.inr (by decide))
    (.inr (by decide)) (.inr (by decide)) (.inr (by decide)))
  posElements := g0_extract h (mask1_full (by decide) (by decide) (.inr (by decide))
    (.inr (by decide)) (.inr (by decide)) (.inr (by decide)))
  normalFormat hn := normalField_eq h hn (by decide) (by decide) (by decide) (by decide) (by decide)
  normalElements hn :=
    normalField_eq h hn (by decide) (by decide) (by decide) (by decide) (by decide)
  normalIndex3 hn := normalField_eq h hn (by decide) (by decide) (by decide) (by decide) (by decide)
  colorComp := colorComp_eq h
  texFormat i hi := (texAttr_eq h i hi).1
  texElements i hi := (texAttr_eq h i hi).2

end VertexLoaderUID

/-- Two loaders read vertices of one size and write the same native vertices. -/
structure VertexLoader.SameVertices (l l' : VertexLoader) : Prop where
  size : l.m_VertexSize = l'.m_VertexSize
  decl : l.m_native_vtx_decl = l'.m_native_vtx_decl
  components : l.m_native_components = l'.m_native_components

theorem VertexLoader.sameVertices_of_uid {d d' : TVtxDesc} {vat vat' : VAT}
    (h : VertexLoaderUID.create d vat = VertexLoaderUID.create d' vat') :
    (create d vat).SameVertices (create d' vat') := by
  have hc := (VertexLoaderUID.sameFormat h).compile
  exact ⟨congrArg Translator.m_VertexSize hc, congrArg Translator.m_native_vtx_decl hc,
    congrArg Translator.m_native_components hc⟩

/-! ## the size of a vertex -/

/-- Every format is one of the enumerations. -/
structure TVtxAttr.FormatsInRange (a : TVtxAttr) : Prop where
  position : a.PosFormat ≤ 4
  normal : a.NormalFormat ≤ 4
  color : ∀ i, (a.color i).Comp ≤ 5
  texCoord : ∀ i, (a.texCoord i).Format ≤ 4

namespace Translator

variable {d : TVtxDesc} {a : TVtxAttr}

theorem add_bit (x : BitVec 1) (n : Nat) : (if x ≠ 0 then n + 1 else n) = n + x.toNat := by
  have hx : x = 0 ∨ x = 1 := by
    revert x
    decide
  rcases hx with rfl | rfl
  · rfl
  · rfl

theorem foldl_size {f : Translator → α → Translator} {c : α → Nat}
    (h : ∀ t x, (f t x).m_VertexSize = t.m_VertexSize + c x) (xs : List α) :
    ∀ t, (xs.foldl f t).m_VertexSize = t.m_VertexSize + (xs.map c).sum := by
  induction xs with
  | nil => exact fun _ => rfl
  | cons x xs ih =>
    intro t
    rw [List.foldl_cons, ih, h, List.map_cons, List.sum_cons, Nat.add_assoc]

variable (t : Translator)

theorem matrixIndices_size : (matrixIndices d t).m_VertexSize =
    t.m_VertexSize + d.PosMatIdx.toNat +
      ((List.finRange 8).map fun i => (d.TexMatIdx i).toNat).sum := by
  unfold matrixIndices
  rw [foldl_size (c := fun i => (d.TexMatIdx i).toNat)]
  · rw [← add_bit d.PosMatIdx]
    split <;> rfl
  · intro t i
    rw [← add_bit]
    split <;> rfl

theorem normals_size : (normals d a t).m_VertexSize = t.m_VertexSize +
    if d.Normal ≠ 0 then normalSize d.Normal a.NormalFormat a.NormalElements a.NormalIndex3
    else 0 := by
  have hnative : ∀ (is : List (Fin 3)) (t : Translator),
      (is.foldl nativeNormal t).m_VertexSize = t.m_VertexSize := by
    intro is t
    have hsize := foldl_size (f := nativeNormal) (c := fun _ => 0) (fun _ _ => rfl) is t
    simpa using hsize
  unfold normals
  split
  · exact hnative _ _
  · rfl

theorem color_size (i : Fin 2) : (color d a t i).m_VertexSize =
    t.m_VertexSize + colorSize (d.Color i) (a.color i).Comp := by
  unfold color
  simp only
  split <;> rfl

theorem texCoord_size (i : Fin 8) : (texCoord d a t i).m_VertexSize =
    t.m_VertexSize + if d.TexCoord i ≠ 0 then
      texCoordSize (d.TexCoord i) (a.texCoord i).Format (a.texCoord i).Elements else 0 := by
  unfold texCoord
  by_cases hi : d.TexCoord i ≠ 0
  · simp only [if_pos hi]
    split <;> rfl
  · simp only [if_neg hi]
    split <;> rfl

theorem lastTexCoord_absent {t : Translator} {i : Fin 8} (h : lastTexCoord d t i = true)
    {j : Fin 8} (hj : i < j) : d.TexCoord j = 0 := by
  unfold lastTexCoord at h
  simp only [Bool.and_eq_true, List.all_eq_true, decide_eq_true_eq] at h
  exact h.1.2 j (List.mem_finRange j) hj

theorem texCoords_size (is : List (Fin 8)) (hsorted : is.Pairwise (· < ·)) :
    ∀ t, (texCoords d a is t).m_VertexSize = t.m_VertexSize + (is.map fun i =>
      if d.TexCoord i ≠ 0 then
        texCoordSize (d.TexCoord i) (a.texCoord i).Format (a.texCoord i).Elements else 0).sum := by
  induction is with
  | nil => exact fun _ => rfl
  | cons i is ih =>
    intro t
    rw [List.pairwise_cons] at hsorted
    rw [List.map_cons, List.sum_cons, ← Nat.add_assoc, ← texCoord_size]
    unfold texCoords
    simp only
    split
    · next hlast =>
      have hzero : (is.map fun i => if d.TexCoord i ≠ 0 then
          texCoordSize (d.TexCoord i) (a.texCoord i).Format (a.texCoord i).Elements
          else 0).sum = 0 := by
        refine List.sum_eq_zero fun x hx => ?_
        obtain ⟨j, hj, rfl⟩ := List.mem_map.mp hx
        exact if_neg fun hne => hne (lastTexCoord_absent hlast (hsorted.1 j hj))
      rw [hzero]
      rfl
    · exact ih hsorted.2 _

end Translator

/-- What the analyzer counts for texture coordinates that a vertex does not have. -/
def absentTexCoordSizes (d : TVtxDesc) (vat : VAT) : Nat :=
  ((List.finRange 8).map fun i =>
    if d.TexCoord i = 0 then
      texCoordSize 0 (vat.decode.texCoord i).Format (vat.decode.texCoord i).Elements
    else 0).sum

theorem VertexLoader.size_add_absent (d : TVtxDesc) (vat : VAT) :
    (create d vat).m_VertexSize + absentTexCoordSizes d vat =
      (CalculateVertexElementSizes d vat).sum := by
  have htex : ((List.finRange 8).map fun i => texCoordSize (d.TexCoord i)
      (vat.decode.texCoord i).Format (vat.decode.texCoord i).Elements).sum =
      ((List.finRange 8).map fun i => if d.TexCoord i ≠ 0 then texCoordSize (d.TexCoord i)
        (vat.decode.texCoord i).Format (vat.decode.texCoord i).Elements else 0).sum +
      absentTexCoordSizes d vat := by
    unfold absentTexCoordSizes
    rw [← List.sum_map_add]
    refine congrArg List.sum (List.map_congr_left fun i _ => ?_)
    by_cases hi : d.TexCoord i = 0
    · rw [if_neg (not_not.mpr hi), if_pos hi, hi, Nat.zero_add]
    · rw [if_pos hi, if_neg hi, Nat.add_zero]
  have hindices : ((List.range 9).map fun i => (d.Hex.extractLsb' i 1).toNat).sum =
      d.PosMatIdx.toNat + ((List.finRange 8).map fun i => (d.TexMatIdx i).toNat).sum := by
    simp [List.range_succ, List.finRange_succ, TVtxDesc.PosMatIdx, TVtxDesc.TexMatIdx]
  show (Translator.texCoords d vat.decode (List.finRange 8) _).m_VertexSize + _ = _
  rw [Translator.texCoords_size _ (List.pairwise_lt_finRange 8),
    Translator.foldl_size Translator.color_size, Translator.normals_size]
  show (Translator.matrixIndices d Translator.start).m_VertexSize + _ + _ + _ + _ + _ = _
  rw [Translator.matrixIndices_size]
  simp only [CalculateVertexElementSizes, List.sum_append, htex, hindices, List.sum_cons,
    List.sum_nil]
  show 0 + _ + _ + _ + _ + _ + _ + _ = _
  omega

theorem texCoordSize_zero {vat : VAT} (i : Fin 8) :
    texCoordSize 0 (vat.decode.texCoord i).Format (vat.decode.texCoord i).Elements = 0 ↔
      (vat.decode.texCoord i).Format ≤ 4 := by
  have hformat : (vat.decode.texCoord i).Format < 8 := by
    match i with
    | 0 | 1 | 2 | 3 | 4 | 5 | 6 | 7 => exact BitVec.isLt _
  have helements : (vat.decode.texCoord i).Elements < 2 := by
    match i with
    | 0 | 1 | 2 | 3 | 4 | 5 | 6 | 7 => exact BitVec.isLt _
  generalize (vat.decode.texCoord i).Format = f at hformat ⊢
  generalize (vat.decode.texCoord i).Elements = e at helements ⊢
  have hrow : ∀ f < 8, ∀ e < 2, (texCoordSize 0 f e = 0 ↔ f ≤ 4) := by decide
  exact hrow f hformat e helements

theorem absentTexCoordSizes_eq_zero {d : TVtxDesc} {vat : VAT} : absentTexCoordSizes d vat = 0 ↔
      ∀ i, d.TexCoord i = 0 → (vat.decode.texCoord i).Format ≤ 4 := by
  unfold absentTexCoordSizes
  rw [List.sum_eq_zero_iff_forall_eq_nat]
  constructor
  · intro h i hi
    have hzero := h _ (List.mem_map_of_mem (List.mem_finRange i))
    rw [if_pos hi] at hzero
    exact (texCoordSize_zero i).mp hzero
  · intro h x hx
    obtain ⟨i, -, rfl⟩ := List.mem_map.mp hx
    split
    · next hi => exact (texCoordSize_zero i).mpr (h i hi)
    · rfl

/-- **The size of a vertex** is the sum of the sizes of its elements. -/
theorem VertexLoader.size_eq_sum {d : TVtxDesc} {vat : VAT} (h : vat.decode.FormatsInRange) :
    (create d vat).m_VertexSize = (CalculateVertexElementSizes d vat).sum := by
  have habsent : absentTexCoordSizes d vat = 0 :=
    absentTexCoordSizes_eq_zero.mpr fun i _ => h.texCoord i
  rw [← size_add_absent, habsent, Nat.add_zero]

end DolphinCore.GX
