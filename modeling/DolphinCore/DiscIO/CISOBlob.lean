import DolphinCore.Common.File
import Mathlib.Tactic.ByContra

/-!
# DolphinCore.DiscIO.CISOBlob

Reads of a disc from a CISO file, which has the used blocks of the disc one behind the other.  The
size of the disc is a product of 32 bits, and the offsets of a request that reaches beyond the last
one are read from the begin of the disc.
-/

namespace DolphinCore.DiscIO

def CISO_MAGIC : BitVec 32 := 0x4F534943
def CISO_HEADER_SIZE : Nat := 0x8000
def CISO_MAP_SIZE : BitVec 32 := 0x7FF8

/-! ## the reader -/

structure CISOFileReader where
  m_file : List Byte
  m_block_size : BitVec 32
  m_ciso_map : List (BitVec 16)

namespace CISOFileReader

def UNUSED_BLOCK_ID : BitVec 16 := 0xFFFF

/-- The loop of the constructor over the map of the header. -/
def mapFrom (count : BitVec 16) : List Byte → List (BitVec 16)
  | [] => []
  | v :: map =>
    if v = 1 then count :: mapFrom (count + 1) map else UNUSED_BLOCK_ID :: mapFrom count map

/-- A number of the header, in little endian. -/
def headerWord (header : List Byte) (offset : Nat) : BitVec 32 :=
  BitVec.ofNat 32 (Endian.fromLE ((header.drop offset).take 4))

/-- `Create` and the constructor -/
def create (file : List Byte) : Option CISOFileReader :=
  let header := ((IOFile.openRead file).ReadBytes CISO_HEADER_SIZE).1
  if header.length = CISO_HEADER_SIZE ∧ headerWord header 0 = CISO_MAGIC then
    some ⟨file, headerWord header 4, mapFrom 0 (header.drop 8)⟩
  else none

variable (r : CISOFileReader)

/-- `GetDataSize`: both factors have 32 bits. -/
def getDataSize : Nat := (CISO_MAP_SIZE * r.m_block_size).toNat

/-- What `Read` does in one block. -/
def readBlock (block data_offset bytes_to_read : Nat) : Option (List Byte) :=
  let id := r.m_ciso_map.getD block UNUSED_BLOCK_ID
  if block < CISO_MAP_SIZE.toNat ∧ UNUSED_BLOCK_ID ≠ id then
    let file_off := CISO_HEADER_SIZE + id.toNat * r.m_block_size.toNat + data_offset
    ((IOFile.openRead r.m_file).Seek file_off).bind fun f =>
      let out := (f.ReadBytes bytes_to_read).1
      if out.length = bytes_to_read then some out else none
  else some (List.replicate bytes_to_read 0)

/-- `Read`; a division by zero has no value. -/
def read (offset nbytes : Nat) : Option (List Byte) :=
  if nbytes = 0 then some []
  else if hsize : r.m_block_size.toNat = 0 then none
  else
    let block := offset / r.m_block_size.toNat
    let data_offset := offset % r.m_block_size.toNat
    let bytes_to_read := min (r.m_block_size.toNat - data_offset) nbytes
    (r.readBlock block data_offset bytes_to_read).bind fun out =>
      (read ((offset + bytes_to_read) % 2 ^ 64) (nbytes - bytes_to_read)).map (out ++ ·)
termination_by nbytes
decreasing_by
  have := Nat.mod_lt offset (Nat.pos_of_ne_zero hsize)
  omega

end CISOFileReader

/-! ## the disc -/

/-- A file that begins with a header of the format; its offsets are signed numbers of 64 bits. -/
structure CISOImage where
  data : List Byte
  size_le : data.length ≤ OFF_MAX
  header_le : CISO_HEADER_SIZE ≤ data.length
  magic : CISOFileReader.headerWord data 0 = CISO_MAGIC
  block_size_ne : CISOFileReader.headerWord data 4 ≠ 0

namespace CISOImage

variable (image : CISOImage)

def blockSize : Nat := (CISOFileReader.headerWord image.data 4).toNat

def map : List Byte := (image.data.take CISO_HEADER_SIZE).drop 8

/-- How many blocks in front of one are in the file. -/
def usedBefore (b : Nat) : Nat := (image.map.take b).count 1

/-- A byte of the disc, that the file may be too short for. -/
def discByte (o : Nat) : Option Byte :=
  let b := o / image.blockSize
  if image.map[b]? = some 1 then
    image.data[CISO_HEADER_SIZE + image.usedBefore b * image.blockSize + o % image.blockSize]?
  else some 0

/-- Bytes that are read, or a byte that is missing. -/
def Gives (byte : Nat → Option Byte) (n : Nat) : Option (List Byte) → Prop
  | some out => out.length = n ∧ ∀ i, i < n → out[i]? = byte i
  | none => ∃ i, i < n ∧ byte i = none

/-- A request gets the bytes of the disc, whose size is known. -/
def Meets (offset nbytes : Nat) : Prop :=
  ∃ r, CISOFileReader.create image.data = some r ∧
    Gives (fun i => image.discByte (offset + i)) nbytes (r.read offset nbytes) ∧
    r.getDataSize = CISO_MAP_SIZE.toNat * image.blockSize

/-- The first block that begins beyond the last offset. -/
def wrapStart : Nat := (2 ^ 64 + image.blockSize - 1) / image.blockSize * image.blockSize

/-- What is read beyond the last offset, from the begin of the disc on, is zero as it is there; or
the request fails before. -/
def WrapsToZeros (offset nbytes : Nat) : Prop :=
  (∃ o, offset ≤ o ∧ o < offset + nbytes ∧ image.discByte o = none) ∨
    ∀ o, image.wrapStart ≤ o → o < offset + nbytes → image.discByte (o - 2 ^ 64) = some 0

/-! ## the bytes of a request -/

section Gives

variable {byte byte' : Nat → Option Byte} {m n : Nat} {got got' : Option (List Byte)}

theorem Gives.congr (h : Gives byte n got) (heq : ∀ i, i < n → byte i = byte' i) :
    Gives byte' n got := by
  cases got with
  | none =>
    obtain ⟨i, hi, hnone⟩ := h
    exact ⟨i, hi, heq i hi ▸ hnone⟩
  | some out => exact ⟨h.1, fun i hi => (h.2 i hi).trans (heq i hi)⟩

theorem Gives.append {k : Nat} (h : Gives byte m got) (h' : Gives (fun i => byte (m + i)) n got')
    (hk : m + n = k) : Gives byte k (got.bind fun out => got'.map (out ++ ·)) := by
  subst hk
  cases got with
  | none =>
    obtain ⟨i, hi, hnone⟩ := h
    exact ⟨i, by omega, hnone⟩
  | some out =>
    obtain ⟨hlen, hout⟩ := h
    cases got' with
    | none =>
      obtain ⟨i, hi, hnone⟩ := h'
      exact ⟨m + i, by omega, hnone⟩
    | some out' =>
      obtain ⟨hlen', hout'⟩ := h'
      refine ⟨by rw [List.length_append, hlen, hlen'], fun i hi => ?_⟩
      by_cases hin : i < m
      · rw [List.getElem?_append_left (by omega), hout i hin]
      · have hrest := hout' (i - m) (by omega)
        dsimp only at hrest
        rw [Nat.add_sub_cancel' (by omega)] at hrest
        exact (List.getElem?_append_right (by omega)).trans (by rw [hlen, hrest])

theorem Gives.iff (h : Gives byte n got) : Gives byte' n got ↔
    ((∃ i, i < n ∧ byte i = none) ∧ ∃ i, i < n ∧ byte' i = none) ∨
      ∀ i, i < n → byte i = byte' i := by
  refine ⟨fun h' => ?_, fun h' => ?_⟩
  · cases got with
    | none => exact .inl ⟨h, h'⟩
    | some out => exact .inr fun i hi => (h.2 i hi).symm.trans (h'.2 i hi)
  · obtain ⟨⟨i, hi, hnone⟩, hnone'⟩ | heq := h'
    · cases got with
      | none => exact hnone'
      | some out =>
        have hout := h.2 i hi
        rw [hnone, List.getElem?_eq_none_iff, h.1] at hout
        omega
    · exact h.congr heq

end Gives

/-! ## the reader of an image -/

theorem mapFrom_getD {map : List Byte} {count : BitVec 16} (b : Nat)
    (hroom : count.toNat + map.length < 2 ^ 16) :
    (CISOFileReader.mapFrom count map).getD b CISOFileReader.UNUSED_BLOCK_ID =
      if map[b]? = some 1 then BitVec.ofNat 16 (count.toNat + (map.take b).count 1)
      else CISOFileReader.UNUSED_BLOCK_ID := by
  induction map generalizing count b with
  | nil => rfl
  | cons v map ih =>
    rw [List.length_cons] at hroom
    unfold CISOFileReader.mapFrom
    cases b with
    | zero =>
      by_cases hv : v = 1
      · rw [if_pos hv, List.getElem?_cons_zero, if_pos (congrArg some hv)]
        exact (BitVec.ofNat_toNat 16 count).trans (BitVec.setWidth_eq count) |>.symm
      · rw [if_neg hv, List.getElem?_cons_zero, if_neg fun h => hv (Option.some.inj h)]
        rfl
    | succ b =>
      by_cases hv : v = 1
      · have hnext : (count + 1).toNat = count.toNat + 1 := by
          refine BitVec.toNat_add_of_lt ?_
          change count.toNat + 1 < _
          omega
        rw [if_pos hv, List.getD_cons_succ, ih b (by omega), hnext, List.getElem?_cons_succ,
          List.take_succ_cons, List.count_cons, hv]
        simp only [beq_self_eq_true, if_true, Nat.add_assoc, Nat.add_comm 1]
      · rw [if_neg hv, List.getD_cons_succ, ih b (by omega), List.getElem?_cons_succ,
          List.take_succ_cons, List.count_cons_of_ne hv]

def reader : CISOFileReader :=
  ⟨image.data, CISOFileReader.headerWord image.data 4, CISOFileReader.mapFrom 0 image.map⟩

theorem headerWord_take (data : List Byte) {k : Nat} (hk : k + 4 ≤ CISO_HEADER_SIZE) :
    CISOFileReader.headerWord (data.take CISO_HEADER_SIZE) k =
      CISOFileReader.headerWord data k := by
  unfold CISOFileReader.headerWord
  rw [List.drop_take, List.take_take, Nat.min_eq_left (by omega)]

theorem create_eq : CISOFileReader.create image.data = some image.reader := by
  have hlen : (image.data.take CISO_HEADER_SIZE).length = CISO_HEADER_SIZE :=
    List.length_take_of_le image.header_le
  have hword := headerWord_take image.data (k := 4) (by decide)
  have hmagic := (headerWord_take image.data (k := 0) (by decide)).trans image.magic
  refine (if_pos ⟨hlen, hmagic⟩).trans (congrArg some ?_)
  exact congrArg (CISOFileReader.mk image.data · _) hword

theorem blockSize_pos : 0 < image.blockSize :=
  Nat.pos_of_ne_zero fun h => image.block_size_ne (BitVec.eq_of_toNat_eq h)

theorem blockSize_lt : image.blockSize < 2 ^ 32 := BitVec.isLt _

theorem length_map : image.map.length = 0x7FF8 := by
  unfold map
  rw [List.length_drop, List.length_take_of_le image.header_le]
  rfl

theorem usedBefore_lt {b : Nat} : image.usedBefore b < 0x7FF9 := by
  have hcount := List.count_le_length (a := 1) (l := image.map.take b)
  have hlen := image.length_map
  rw [List.length_take] at hcount
  unfold usedBefore
  omega

theorem readBlock_gives {offset n : Nat} (h : offset % image.blockSize + n ≤ image.blockSize) :
    Gives (fun i => image.discByte (offset + i)) n
      (image.reader.readBlock (offset / image.blockSize) (offset % image.blockSize) n) := by
  obtain ⟨b, hb⟩ : ∃ b, offset / image.blockSize = b := ⟨_, rfl⟩
  obtain ⟨d, hd⟩ : ∃ d, offset % image.blockSize = d := ⟨_, rfl⟩
  have hbyte (i : Nat) (hi : i < n) : image.discByte (offset + i) =
      if image.map[b]? = some 1 then
        image.data[CISO_HEADER_SIZE + image.usedBefore b * image.blockSize + (d + i)]?
      else some 0 := by
    have hoff : offset + i = d + i + image.blockSize * b := by
      rw [← hd, ← hb, Nat.add_right_comm, Nat.mod_add_div]
    have hin : d + i < image.blockSize := by omega
    have hdiv : (offset + i) / image.blockSize = b := by
      rw [hoff, Nat.add_mul_div_left _ _ image.blockSize_pos, Nat.div_eq_of_lt hin, Nat.zero_add]
    have hmod : (offset + i) % image.blockSize = d + i := by
      rw [hoff, Nat.add_mul_mod_self_left, Nat.mod_eq_of_lt hin]
    unfold discByte
    rw [hdiv, hmod]
  have hlen := image.length_map
  have hid : image.reader.m_ciso_map.getD b CISOFileReader.UNUSED_BLOCK_ID =
      if image.map[b]? = some 1 then BitVec.ofNat 16 (image.usedBefore b)
      else CISOFileReader.UNUSED_BLOCK_ID := by
    have hroom : (0 : BitVec 16).toNat + image.map.length < 2 ^ 16 := by rw [hlen]; decide
    have := mapFrom_getD b hroom
    rwa [show (0 : BitVec 16).toNat = 0 from rfl, Nat.zero_add] at this
  have hused := image.usedBefore_lt (b := b)
  rw [hb, hd]
  unfold CISOFileReader.readBlock
  rw [hid]
  by_cases hone : image.map[b]? = some 1
  · obtain ⟨hbmap, -⟩ := List.getElem?_eq_some_iff.mp hone
    have hne : CISOFileReader.UNUSED_BLOCK_ID ≠ BitVec.ofNat 16 (image.usedBefore b) := by
      intro heq
      have := congrArg BitVec.toNat heq
      rw [BitVec.toNat_ofNat, Nat.mod_eq_of_lt (by omega)] at this
      change 0xFFFF = _ at this
      omega
    have hnat : (BitVec.ofNat 16 (image.usedBefore b)).toNat = image.usedBefore b := by
      rw [BitVec.toNat_ofNat, Nat.mod_eq_of_lt (by omega)]
    obtain ⟨off, hoff⟩ :
      ∃ off, CISO_HEADER_SIZE + image.usedBefore b * image.blockSize + d = off := ⟨_, rfl⟩
    have hle : off ≤ OFF_MAX := by
      have hprod := Nat.mul_le_mul (Nat.le_of_lt_succ hused) image.blockSize_lt.le
      have hsize := image.blockSize_lt
      unfold CISO_HEADER_SIZE at hoff
      unfold OFF_MAX
      omega
    rw [if_pos hone, if_pos ⟨by rw [hlen] at hbmap; exact hbmap, hne⟩, hnat]
    change Gives _ n (((IOFile.openRead image.data).Seek
      (CISO_HEADER_SIZE + image.usedBefore b * image.blockSize + d)).bind _)
    rw [hoff, IOFile.seek_of_le hle, Option.bind_some]
    have hgot : ((image.data.drop off).take n).length = min n (image.data.length - off) := by
      rw [List.length_take, List.length_drop]
    change Gives _ n (if ((image.data.drop off).take n).length = n then
      some ((image.data.drop off).take n) else none)
    by_cases hall : ((image.data.drop off).take n).length = n
    · rw [if_pos hall]
      refine ⟨hall, fun i hi => ?_⟩
      refine Eq.trans ?_ (hbyte i hi).symm
      rw [if_pos hone, List.getElem?_take_of_lt hi, List.getElem?_drop, ← Nat.add_assoc, hoff]
    · rw [if_neg hall]
      refine ⟨image.data.length - off, by omega, (hbyte _ (by omega)).trans ?_⟩
      rw [if_pos hone, ← Nat.add_assoc, hoff, List.getElem?_eq_none_iff]
      omega
  · rw [if_neg hone, if_neg fun h => h.2 rfl]
    refine ⟨List.length_replicate, fun i hi => ?_⟩
    refine Eq.trans ?_ (hbyte i hi).symm
    rw [if_neg hone, List.getElem?_replicate_of_lt hi]

/-! ## a whole request -/

/-- The byte that is read, where the request may reach beyond the last offset. -/
def seen (o : Nat) : Option Byte :=
  if o < image.wrapStart then image.discByte o else image.discByte (o - 2 ^ 64)

theorem wrapStart_eq :
    image.wrapStart = ((2 ^ 64 - 1) / image.blockSize + 1) * image.blockSize := by
  have hpos := image.blockSize_pos
  unfold wrapStart
  rw [← Nat.add_div_right _ hpos]
  congr 2
  omega

theorem le_wrapStart : 2 ^ 64 ≤ image.wrapStart := by
  have hmod := Nat.mod_lt (2 ^ 64 - 1) image.blockSize_pos
  have hdiv := Nat.div_add_mod (2 ^ 64 - 1) image.blockSize
  rw [wrapStart_eq, Nat.add_mul, Nat.one_mul, Nat.mul_comm]
  omega

theorem blockEnd_le {offset : Nat} (h : offset < 2 ^ 64) :
    offset + (image.blockSize - offset % image.blockSize) ≤ image.wrapStart := by
  have hmod := Nat.mod_lt offset image.blockSize_pos
  have hdiv := Nat.div_add_mod offset image.blockSize
  have hle := Nat.mul_le_mul_left image.blockSize
    (Nat.div_le_div_right (c := image.blockSize) (Nat.le_pred_of_lt h))
  rw [wrapStart_eq, Nat.add_mul, Nat.one_mul, Nat.mul_comm]
  simp only [Nat.pred_eq_sub_one] at hle
  omega

theorem blockEnd_eq {offset : Nat} (h : offset < 2 ^ 64)
    (hend : 2 ^ 64 ≤ offset + (image.blockSize - offset % image.blockSize)) :
    offset + (image.blockSize - offset % image.blockSize) = image.wrapStart := by
  refine Nat.le_antisymm (image.blockEnd_le h) ?_
  have hdiv := Nat.div_add_mod offset image.blockSize
  have hlt : (2 ^ 64 - 1) / image.blockSize < offset / image.blockSize + 1 := by
    rw [Nat.div_lt_iff_lt_mul image.blockSize_pos, Nat.add_mul, Nat.one_mul, Nat.mul_comm]
    omega
  have hle := Nat.mul_le_mul_left image.blockSize (Nat.le_of_lt_succ hlt)
  rw [wrapStart_eq, Nat.add_mul, Nat.one_mul, Nat.mul_comm]
  omega

theorem read_step {offset nbytes n : Nat} (h : nbytes ≠ 0)
    (hn : min (image.blockSize - offset % image.blockSize) nbytes = n) :
    image.reader.read offset nbytes =
      (image.reader.readBlock (offset / image.blockSize) (offset % image.blockSize) n).bind
        fun out => (image.reader.read ((offset + n) % 2 ^ 64) (nbytes - n)).map (out ++ ·) := by
  subst hn
  rw [CISOFileReader.read, if_neg h]
  exact dif_neg image.blockSize_pos.ne'

theorem read_gives {offset nbytes : Nat} (hoff : offset < 2 ^ 64)
    (hstop : offset + nbytes < 2 ^ 65) :
    Gives (fun i => image.seen (offset + i)) nbytes (image.reader.read offset nbytes) := by
  induction nbytes using Nat.strongRecOn generalizing offset with
  | ind nbytes ih =>
    by_cases hzero : nbytes = 0
    · rw [CISOFileReader.read, if_pos hzero]
      exact ⟨hzero.symm, fun i hi => absurd hi (by omega)⟩
    have hmod := Nat.mod_lt offset image.blockSize_pos
    have hblock := image.blockEnd_le hoff
    obtain ⟨n, hn⟩ : ∃ n, min (image.blockSize - offset % image.blockSize) nbytes = n := ⟨_, rfl⟩
    have hchunk : Gives (fun i => image.seen (offset + i)) n _ :=
      (image.readBlock_gives (by omega : offset % image.blockSize + n ≤ _)).congr fun i hi =>
        (if_pos (by omega : offset + i < image.wrapStart)).symm
    have hrest := ih (nbytes - n) (by omega) (by omega : (offset + n) % 2 ^ 64 < 2 ^ 64) (by omega)
    have hbehind : ∀ i, i < nbytes - n →
        image.seen ((offset + n) % 2 ^ 64 + i) = image.seen (offset + (n + i)) := by
      intro i hi
      by_cases hlast : offset + n < 2 ^ 64
      · rw [Nat.mod_eq_of_lt hlast, Nat.add_assoc]
      · -- the rest is read from the begin of the disc on
        have heq := image.blockEnd_eq hoff (by omega)
        have hmod' : (offset + n) % 2 ^ 64 = offset + n - 2 ^ 64 := by omega
        unfold seen
        rw [if_neg (by omega : ¬ offset + (n + i) < image.wrapStart),
          if_pos (by omega : (offset + n) % 2 ^ 64 + i < image.wrapStart), hmod']
        exact congrArg image.discByte (by omega)
    rw [image.read_step hzero hn]
    exact hchunk.append (hrest.congr hbehind) (by omega)

theorem discByte_of_le {o : Nat} (h : 2 ^ 64 ≤ o) : image.discByte o = some 0 := by
  have hdiv : image.map.length ≤ o / image.blockSize := by
    have hsize := image.blockSize_lt
    rw [length_map, Nat.le_div_iff_mul_le image.blockSize_pos]
    omega
  unfold discByte
  dsimp only
  rw [List.getElem?_eq_none_iff.mpr hdiv, if_neg (by simp)]

theorem reader_gives_iff {offset nbytes : Nat} (hoff : offset < 2 ^ 64) (hn : nbytes < 2 ^ 64) :
    Gives (fun i => image.discByte (offset + i)) nbytes (image.reader.read offset nbytes) ↔
      image.WrapsToZeros offset nbytes := by
  have hwrap := image.le_wrapStart
  rw [(image.read_gives hoff (by omega)).iff]
  have hbehind {o : Nat} (ho : ¬ o < image.wrapStart) : image.discByte o = some 0 :=
    image.discByte_of_le (by omega)
  constructor
  · rintro (⟨-, i, hi, hnone⟩ | heq)
    · exact .inl ⟨offset + i, Nat.le_add_right _ _, by omega, hnone⟩
    · refine .inr fun o ho hlt => ?_
      have := heq (o - offset) (by omega)
      rw [Nat.add_sub_cancel' (by omega)] at this
      unfold seen at this
      rw [if_neg (by omega)] at this
      rw [this, hbehind (by omega)]
  · rintro (⟨o, hle, hlt, hnone⟩ | hzeros)
    · have hin : o < image.wrapStart := by
        by_contra hout
        rw [hbehind hout] at hnone
        cases hnone
      refine .inl ⟨⟨o - offset, by omega, ?_⟩, o - offset, by omega, ?_⟩
      · rw [Nat.add_sub_cancel' hle]
        exact (if_pos hin).trans hnone
      · rw [Nat.add_sub_cancel' hle, hnone]
    · refine .inr fun i hi => ?_
      unfold seen
      split
      · rfl
      · next hout => rw [hzeros _ (by omega) (by omega), hbehind hout]

theorem getDataSize_iff : image.reader.getDataSize = CISO_MAP_SIZE.toNat * image.blockSize ↔
      CISO_MAP_SIZE.toNat * image.blockSize < 2 ^ 32 := by
  exact ⟨fun h => h ▸ Nat.mod_lt _ (by decide), Nat.mod_eq_of_lt⟩

theorem meets_iff (offset nbytes : BitVec 64) : image.Meets offset.toNat nbytes.toNat ↔
      CISO_MAP_SIZE.toNat * image.blockSize < 2 ^ 32 ∧
        image.WrapsToZeros offset.toNat nbytes.toNat := by
  have hread := image.reader_gives_iff offset.isLt nbytes.isLt
  constructor
  · rintro ⟨r, hcreate, hgives, hsize⟩
    obtain rfl := Option.some.inj (hcreate.symm.trans image.create_eq)
    exact ⟨image.getDataSize_iff.mp hsize, hread.mp hgives⟩
  · rintro ⟨hsize, hwraps⟩
    exact ⟨image.reader, image.create_eq, hread.mpr hwraps, image.getDataSize_iff.mpr hsize⟩

end CISOImage

/-- A disc of blocks of two gibibytes, none of which is used. -/
def emptyImage : CISOImage where
  data := [0x43, 0x49, 0x53, 0x4F, 0, 0, 0, 0x80] ++ List.replicate 0x7FF8 0
  size_le := by
    rw [List.length_append, List.length_replicate]
    decide
  header_le := by
    rw [List.length_append, List.length_replicate]
    decide
  magic := rfl
  block_size_ne := by
    change (0x80000000#32) ≠ 0
    decide

/-- Its size is not known, whatever is read of it. -/
theorem emptyImage_not_meets : ¬ emptyImage.Meets 0 0 := by
  rintro ⟨r, hcreate, -, hsize⟩
  obtain rfl := Option.some.inj (hcreate.symm.trans emptyImage.create_eq)
  have hlt := emptyImage.getDataSize_iff.mp hsize
  have hblock : emptyImage.blockSize = 0x80000000 := rfl
  rw [hblock] at hlt
  exact absurd hlt (by decide)

end DolphinCore.DiscIO
