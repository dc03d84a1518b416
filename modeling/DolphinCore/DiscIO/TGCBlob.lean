import DolphinCore.Common.File

/-!
# DolphinCore.DiscIO.TGCBlob

Reads of the disc in a TGC file, whose file area is moved from the place that it has on the disc.
What lies in front of the file area on the disc, and is not in the file, is meant to be read as
zeros, but is not read so up to its end.
-/

namespace DolphinCore.DiscIO

/-! ## intervals -/

structure Interval where
  start : Nat
  length : Nat

namespace Interval

/-- `End`, in 64 bits. -/
def stop (i : Interval) : Nat := (i.start + i.length) % 2 ^ 64

/-- `SplitInterval` -/
def split (split_point : Nat) (i : Interval) : Interval × Interval :=
  (if i.start < split_point then ⟨i.start, min i.length (split_point - i.start)⟩ else ⟨0, 0⟩,
    if split_point < i.stop then ⟨max i.start split_point, min i.length (i.stop - split_point)⟩
    else ⟨0, 0⟩)

end Interval

/-! ## the reader -/

def TGC_MAGIC : BitVec 32 := 0xA2380FAE

/-- The numbers of the header that are used, as they are after `swap32`. -/
structure TGCHeader where
  magic : BitVec 32
  tgc_header_size : BitVec 32
  fst_real_offset : BitVec 32
  dol_real_offset : BitVec 32
  file_area_real_offset : BitVec 32
  file_area_virtual_offset : BitVec 32

/-- The reader; an offset in its file fits a signed number of 64 bits. -/
structure TGCFileReader where
  m_header : TGCHeader
  m_file : List Byte
  size_le : m_file.length ≤ OFF_MAX

namespace TGCFileReader

/-- A number of the header. -/
def headerWord (file : List Byte) (offset : Nat) : BitVec 32 :=
  BitVec.ofNat 32 (Endian.fromBE ((file.drop offset).take 4))

/-- `Create` and the constructor -/
def create (file : List Byte) (h : file.length ≤ OFF_MAX) : Option TGCFileReader :=
  if 0x38 ≤ file.length ∧ headerWord file 0 = TGC_MAGIC then
    some ⟨⟨headerWord file 0, headerWord file 8, headerWord file 0x10, headerWord file 0x1C,
      headerWord file 0x24, headerWord file 0x34⟩, file, h⟩
  else none

variable (r : TGCFileReader)

/-- `tgc_header_size` -/
def H : Nat := r.m_header.tgc_header_size.toNat

/-- `file_area_real_offset` -/
def R : Nat := r.m_header.file_area_real_offset.toNat

/-- `file_area_virtual_offset` -/
def V : Nat := r.m_header.file_area_virtual_offset.toNat

def m_file_area_shift : Int := (r.V : Int) - r.R + r.H

/-- `Replace8`, in a buffer from `d` on. -/
def replace8 (offset nbytes d replace_offset : Nat) (replace_value : Byte) (out : Nat → Byte) :
    Nat → Byte :=
  if offset ≤ replace_offset ∧ replace_offset < (offset + nbytes) % 2 ^ 64 then
    Function.update out (d + (replace_offset - offset)) replace_value
  else out

/-- A byte of a number in big endian. -/
def byteBE (v : BitVec 32) (i : Nat) : Byte := v.extractLsb' (8 * (3 - i)) 8

def replace32 (offset nbytes d replace_offset : Nat) (replace_value : BitVec 32)
    (out : Nat → Byte) : Nat → Byte :=
  (List.range 4).foldl
    (fun out i => replace8 offset nbytes d (replace_offset + i) (byteBE replace_value i) out) out

/-- Bytes are written to a buffer from `d` on. -/
def writeBuffer (d : Nat) (bytes : List Byte) (out : Nat → Byte) : Nat → Byte :=
  fun i => if d ≤ i ∧ i < d + bytes.length then bytes.getD (i - d) 0 else out i

def internalRead (offset nbytes d : Nat) (out : Nat → Byte) : Option (Nat → Byte) :=
  match (IOFile.openRead r.m_file).Seek ((offset + r.H) % 2 ^ 64) with
  | none => none
  | some f =>
    let bytes := (f.ReadBytes nbytes).1
    if bytes.length = nbytes then
      let out := writeBuffer d bytes out
      let out := replace32 offset nbytes d 0x420
        (r.m_header.dol_real_offset - r.m_header.tgc_header_size) out
      let out := replace32 offset nbytes d 0x424
        (r.m_header.fst_real_offset - r.m_header.tgc_header_size) out
      some out
    else none

/-- The part of `Read` that follows the splitting. -/
def readParts (offset : Nat) (first_part empty_part file_part : Interval) (out : Nat → Byte) :
    Option (Nat → Byte) :=
  let first :=
    if first_part.length = 0 then some out
    else r.internalRead first_part.start first_part.length (first_part.start - offset) out
  first.bind fun out =>
    let out :=
      if empty_part.length = 0 then out
      else writeBuffer (empty_part.start - offset) (List.replicate empty_part.length 0) out
    if file_part.length = 0 then some out
    else r.internalRead ((file_part.start - r.m_file_area_shift) % 2 ^ 64).toNat file_part.length
      (file_part.start - offset) out

/-- The second splitting of `Read`. -/
def splitGap (file_part : Interval) : Interval × Interval :=
  if (r.H : Int) < r.m_file_area_shift then
    Interval.split (r.m_file_area_shift - r.H).toNat file_part
  else (⟨0, 0⟩, file_part)

def read (offset nbytes : Nat) (out : Nat → Byte) : Option (Nat → Byte) :=
  let split_point := (r.m_header.file_area_real_offset - r.m_header.tgc_header_size).toNat
  let parts := Interval.split split_point ⟨offset, nbytes⟩
  let rest := r.splitGap parts.2
  r.readParts offset parts.1 rest.1 rest.2 out

/-! ## the disc -/

/-- A byte of the file. -/
def tgcByte (i : Nat) : Byte := r.m_file.getD i 0

/-- The bytes of the disc header that are replaced. -/
def patchByte (i : Nat) : Option Byte :=
  if 0x420 ≤ i ∧ i < 0x424 then
    some (byteBE (r.m_header.dol_real_offset - r.m_header.tgc_header_size) (i - 0x420))
  else if 0x424 ≤ i ∧ i < 0x428 then
    some (byteBE (r.m_header.fst_real_offset - r.m_header.tgc_header_size) (i - 0x424))
  else none

/-- A byte of the disc. -/
def discByte (o : Nat) : Byte :=
  (r.patchByte o).getD
    (if o < r.R - r.H then r.tgcByte (o + r.H)
    else if o < r.V then 0
    else r.tgcByte (o - r.V + r.R))

/-- The areas are in their order, in the file and on the disc. -/
structure Consistent : Prop where
  header_le : r.H ≤ r.R
  le_virtual : r.R - r.H ≤ r.V

/-- The file has the bytes of a part of the disc. -/
structure InDisc (offset nbytes : Nat) : Prop where
  stop_lt : offset + nbytes < 2 ^ 64
  bytes : ∀ o, offset ≤ o → o < offset + nbytes →
    (o < r.R - r.H → o + r.H < r.m_file.length) ∧ (r.V ≤ o → o - r.V + r.R < r.m_file.length)

/-- A part of the disc is read, whatever the buffer holds. -/
def ReadsDisc (offset nbytes : Nat) : Prop :=
  ∀ out, ∃ out', r.read offset nbytes out = some out' ∧
    ∀ i, i < nbytes → out' i = r.discByte (offset + i)

/-! ## what a part of the file gives -/

theorem replace8_apply {offset nbytes : Nat} (hstop : offset + nbytes < 2 ^ 64)
    (d replace_offset : Nat) (v : Byte) (out : Nat → Byte) (i : Nat) :
    replace8 offset nbytes d replace_offset v out i =
      if d ≤ i ∧ i < d + nbytes ∧ offset + (i - d) = replace_offset then v else out i := by
  unfold replace8
  rw [Nat.mod_eq_of_lt hstop]
  by_cases hin : offset ≤ replace_offset ∧ replace_offset < offset + nbytes
  · rw [if_pos hin, Function.update_apply]
    exact if_congr (by omega) rfl rfl
  · rw [if_neg hin, if_neg (by omega)]

theorem replace8_of_lt {offset replace_offset : Nat} (h : replace_offset < offset)
    (nbytes d : Nat) (v : Byte) (out : Nat → Byte) :
    replace8 offset nbytes d replace_offset v out = out :=
  if_neg fun hin => absurd hin.1 (Nat.not_le_of_lt h)

theorem replace32_eq (offset nbytes d replace_offset : Nat) (v : BitVec 32) (out : Nat → Byte) :
    replace32 offset nbytes d replace_offset v out =
      replace8 offset nbytes d (replace_offset + 3) (byteBE v 3)
        (replace8 offset nbytes d (replace_offset + 2) (byteBE v 2)
          (replace8 offset nbytes d (replace_offset + 1) (byteBE v 1)
            (replace8 offset nbytes d replace_offset (byteBE v 0) out))) := rfl

theorem replace32_apply {offset nbytes : Nat} (hstop : offset + nbytes < 2 ^ 64)
    (d replace_offset : Nat) (v : BitVec 32) (out : Nat → Byte) (i : Nat) :
    replace32 offset nbytes d replace_offset v out i =
      if d ≤ i ∧ i < d + nbytes ∧ replace_offset ≤ offset + (i - d) ∧
          offset + (i - d) < replace_offset + 4 then
        byteBE v (offset + (i - d) - replace_offset)
      else out i := by
  rw [replace32_eq, replace8_apply hstop, replace8_apply hstop, replace8_apply hstop,
    replace8_apply hstop]
  by_cases hin : d ≤ i ∧ i < d + nbytes
  · obtain ⟨k, hk⟩ : ∃ k, offset + (i - d) = k := ⟨_, rfl⟩
    simp only [hin, true_and, hk]
    by_cases h0 : k = replace_offset
    · subst h0
      simp
    by_cases h1 : k = replace_offset + 1
    · subst h1
      simp
    by_cases h2 : k = replace_offset + 2
    · subst h2
      simp
    by_cases h3 : k = replace_offset + 3
    · subst h3
      simp
    rw [if_neg h3, if_neg h2, if_neg h1, if_neg h0, if_neg (by omega)]
  · rw [if_neg (by omega), if_neg (by omega), if_neg (by omega), if_neg (by omega),
      if_neg (by omega)]

theorem replace32_of_lt {offset replace_offset : Nat} (h : replace_offset + 3 < offset)
    (nbytes d : Nat) (v : BitVec 32) (out : Nat → Byte) :
    replace32 offset nbytes d replace_offset v out = out := by
  rw [replace32_eq, replace8_of_lt (by omega), replace8_of_lt (by omega),
    replace8_of_lt (by omega), replace8_of_lt (by omega)]

/-- What `InternalRead` gives for an offset that may lie in front of the disc. -/
def internalByte (x : Int) (j : Nat) : Byte :=
  if 0 ≤ x then (r.patchByte (x.toNat + j)).getD (r.tgcByte (x.toNat + j + r.H))
  else r.tgcByte ((x + r.H).toNat + j)

theorem H_lt : r.H < 2 ^ 32 := r.m_header.tgc_header_size.isLt

theorem internalRead_eq {x : Int} {n : Nat} (hlow : 0 ≤ x + r.H)
    (hhigh : x + r.H + n ≤ r.m_file.length) (d : Nat) (out : Nat → Byte) :
    r.internalRead (x % 2 ^ 64).toNat n d out =
      some fun i => if d ≤ i ∧ i < d + n then r.internalByte x (i - d) else out i := by
  have hsize := r.size_le
  have hH := r.H_lt
  unfold OFF_MAX at hsize
  have hpos : ((x % 2 ^ 64).toNat + r.H) % 2 ^ 64 = (x + r.H).toNat := by omega
  have hlen : ((r.m_file.drop (x + r.H).toNat).take n).length = n := by
    rw [List.length_take, List.length_drop]
    omega
  unfold internalRead
  rw [hpos, IOFile.seek_of_le (by unfold OFF_MAX; omega)]
  refine Eq.trans (if_pos hlen) (congrArg some (funext fun i => ?_))
  change replace32 _ n d 0x424 _ (replace32 _ n d 0x420 _
    (writeBuffer d ((r.m_file.drop (x + r.H).toNat).take n) out)) i = _
  have hbyte : ∀ out, writeBuffer d ((r.m_file.drop (x + r.H).toNat).take n) out i =
      if d ≤ i ∧ i < d + n then r.tgcByte ((x + r.H).toNat + (i - d)) else out i := by
    intro out
    unfold writeBuffer tgcByte
    rw [hlen]
    split
    · rw [List.getD_eq_getElem?_getD, List.getElem?_take, if_pos (by omega), List.getElem?_drop,
        List.getD_eq_getElem?_getD]
    · rfl
  unfold internalByte
  by_cases hneg : 0 ≤ x
  · have hoff : (x % 2 ^ 64).toNat = x.toNat := by omega
    have hstop : x.toNat + n < 2 ^ 64 := by omega
    have htgc : (x + r.H).toNat + (i - d) = x.toNat + (i - d) + r.H := by omega
    rw [hoff, replace32_apply hstop, replace32_apply hstop, hbyte, if_pos hneg, htgc]
    unfold patchByte
    by_cases hin : d ≤ i ∧ i < d + n
    · obtain ⟨y, hy⟩ : ∃ y, x.toNat + (i - d) = y := ⟨_, rfl⟩
      simp only [hin, true_and, hy]
      by_cases hfst : 0x424 ≤ y ∧ y < 0x428
      · have hdol : ¬ (0x420 ≤ y ∧ y < 0x424) := by omega
        simp only [hfst, hdol, and_self, if_true, if_false, Option.getD_some]
      · by_cases hdol : 0x420 ≤ y ∧ y < 0x424
        · simp only [hfst, hdol, and_self, if_true, if_false, Option.getD_some]
        · simp only [hfst, hdol, if_false, Option.getD_none, if_true]
    · rw [if_neg (by omega), if_neg (by omega), if_neg hin, if_neg hin]
  · rw [replace32_of_lt (by omega), replace32_of_lt (by omega), hbyte, if_neg hneg]

/-! ## the parts of a read -/

/-- An interval with these bounds, whatever its start is when it is empty. -/
structure Covers (i : Interval) (lo hi : Nat) : Prop where
  length : i.length = hi - lo
  start : lo < hi → i.start = lo

variable {i : Interval}

theorem Covers.front {lo hi : Nat} (h : Covers i lo hi) (p : Nat) :
    Covers (Interval.split p i).1 lo (min hi p) := by
  have hlen := h.length
  have hfront : (Interval.split p i).1 =
      if i.start < p then ⟨i.start, min i.length (p - i.start)⟩ else ⟨0, 0⟩ := rfl
  rw [hfront]
  by_cases hne : lo < hi
  · have hstart := h.start hne
    by_cases hp : i.start < p
    · rw [if_pos hp]
      exact ⟨by dsimp only; omega, fun _ => hstart⟩
    · rw [if_neg hp]
      exact ⟨by dsimp only; omega, fun _ => by omega⟩
  · refine ⟨?_, fun _ => by omega⟩
    split <;> dsimp only <;> omega

theorem Covers.back {lo hi : Nat} (h : Covers i lo hi) (hhi : hi < 2 ^ 64) (p : Nat) :
    Covers (Interval.split p i).2 (max lo p) hi := by
  have hlen := h.length
  have hback : (Interval.split p i).2 =
      if p < i.stop then ⟨max i.start p, min i.length (i.stop - p)⟩ else ⟨0, 0⟩ := rfl
  rw [hback]
  by_cases hne : lo < hi
  · have hstart := h.start hne
    have hstop : i.stop = hi := by
      unfold Interval.stop
      rw [hstart, hlen, Nat.add_sub_cancel' hne.le, Nat.mod_eq_of_lt hhi]
    by_cases hp : p < i.stop
    · rw [if_pos hp]
      exact ⟨by dsimp only; omega, fun _ => by rw [hstart]⟩
    · rw [if_neg hp]
      exact ⟨by dsimp only; omega, fun _ => by omega⟩
  · refine ⟨?_, fun _ => by omega⟩
    split <;> dsimp only <;> omega

/-- The end of the area in front of the files. -/
def P : Nat := r.R - r.H

/-- The end of what is read as zeros. -/
def Q : Nat := r.V - r.R

/-- The start of what is read from the file area. -/
def M : Nat := max r.P r.Q

variable {r} in
theorem Consistent.split_point (h : r.Consistent) :
    (r.m_header.file_area_real_offset - r.m_header.tgc_header_size).toNat = r.P := by
  have hle : r.m_header.tgc_header_size ≤ r.m_header.file_area_real_offset := h.header_le
  rw [BitVec.toNat_sub_of_le hle]
  rfl

/-- What is read for a byte, in a read from `a` on. -/
def readByte (a o : Nat) : Byte :=
  if o < r.P then (r.patchByte o).getD (r.tgcByte (o + r.H))
  else if o < r.Q then 0
  else r.internalByte (max a r.M - r.m_file_area_shift) (o - max a r.M)

variable {a n : Nat}

theorem covers_splitGap (hi : Covers i (max a r.P) (a + n)) (hstop : a + n < 2 ^ 64) :
    Covers (r.splitGap i).1 (max a r.P) (min (a + n) r.Q) ∧
      Covers (r.splitGap i).2 (max a r.M) (a + n) := by
  have hshift : r.m_file_area_shift = (r.V : Int) - r.R + r.H := rfl
  have hM : max a r.M = max (max a r.P) r.Q := (Nat.max_assoc ..).symm
  unfold splitGap
  rw [hM]
  by_cases hlt : (r.H : Int) < r.m_file_area_shift
  · have hQ : (r.m_file_area_shift - r.H).toNat = r.Q := by
      unfold Q
      omega
    rw [if_pos hlt, hQ]
    exact ⟨hi.front r.Q, hi.back hstop r.Q⟩
  · have hQ : r.Q = 0 := by
      unfold Q
      omega
    rw [if_neg hlt, hQ, Nat.max_zero]
    exact ⟨⟨by dsimp only; omega, by omega⟩, hi⟩

theorem read_first (hi : Covers i a (min (a + n) r.P)) (hstop : a + n < 2 ^ 64)
    (hfirst : a < min (a + n) r.P → min (a + n) r.P + r.H ≤ r.m_file.length) (out : Nat → Byte) :
    (if i.length = 0 then some out else r.internalRead i.start i.length (i.start - a) out) =
      some fun k => if k < n ∧ a + k < r.P then
        (r.patchByte (a + k)).getD (r.tgcByte (a + k + r.H)) else out k := by
  have hlen := hi.length
  by_cases hne : a < min (a + n) r.P
  · have hread := r.internalRead_eq (x := a) (n := i.length) (by omega) (by omega) 0 out
    have hoff : ((a : Int) % 2 ^ 64).toNat = a := by omega
    rw [hoff] at hread
    rw [if_neg (by omega), hi.start hne, Nat.sub_self, hread]
    congr 1
    funext k
    exact if_congr (by omega) rfl rfl
  · rw [if_pos (by omega)]
    congr 1
    funext k
    rw [if_neg (by omega)]

theorem read_empty (hi : Covers i (max a r.P) (min (a + n) r.Q)) (out : Nat → Byte) :
    (if i.length = 0 then out
      else writeBuffer (i.start - a) (List.replicate i.length 0) out) =
      fun k => if k < n ∧ r.P ≤ a + k ∧ a + k < r.Q then 0 else out k := by
  have hlen := hi.length
  funext k
  by_cases hne : max a r.P < min (a + n) r.Q
  · rw [if_neg (by omega), hi.start hne]
    unfold writeBuffer
    rw [List.length_replicate]
    by_cases hin : k < n ∧ r.P ≤ a + k ∧ a + k < r.Q
    · rw [if_pos hin, if_pos (by omega), List.getD_eq_getElem?_getD, List.getElem?_replicate,
        if_pos (by omega), Option.getD_some]
    · rw [if_neg hin, if_neg (by omega)]
  · rw [if_pos (by omega), if_neg (by omega)]

theorem read_file (hi : Covers i (max a r.M) (a + n))
    (hfile : max a r.M < a + n → a + n + r.R ≤ r.m_file.length + r.V) (out : Nat → Byte) :
    (if i.length = 0 then some out
      else r.internalRead ((i.start - r.m_file_area_shift) % 2 ^ 64).toNat i.length (i.start - a)
        out) =
      some fun k => if k < n ∧ r.M ≤ a + k then
        r.internalByte (max a r.M - r.m_file_area_shift : Int) (a + k - max a r.M)
        else out k := by
  have hlen := hi.length
  by_cases hne : max a r.M < a + n
  · have hQ : r.V - r.R ≤ r.M := Nat.le_max_right ..
    have hshift : r.m_file_area_shift = (r.V : Int) - r.R + r.H := rfl
    have hread := r.internalRead_eq (x := (max a r.M : Nat) - r.m_file_area_shift)
      (n := i.length) (by omega) (by omega) (max a r.M - a) out
    rw [if_neg (by omega), hi.start hne, hread]
    congr 1
    funext k
    by_cases hin : k < n ∧ r.M ≤ a + k
    · rw [if_pos hin, if_pos (by omega)]
      congr 1
      omega
    · rw [if_neg hin, if_neg (by omega)]
  · rw [if_pos (by omega)]
    congr 1
    funext k
    rw [if_neg (by omega)]

variable {r} in
theorem Consistent.read_eq (h : r.Consistent) (hstop : a + n < 2 ^ 64)
    (hfirst : a < min (a + n) r.P → min (a + n) r.P + r.H ≤ r.m_file.length)
    (hfile : max a r.M < a + n → a + n + r.R ≤ r.m_file.length + r.V) (out : Nat → Byte) :
    r.read a n out = some fun i => if i < n then r.readByte a (a + i) else out i := by
  have hall : Covers ⟨a, n⟩ a (a + n) := ⟨(Nat.add_sub_cancel_left ..).symm, fun _ => rfl⟩
  obtain ⟨hempty, hrest⟩ := r.covers_splitGap (hall.back hstop r.P) hstop
  unfold read
  rw [h.split_point]
  unfold readParts
  dsimp only
  rw [r.read_first (hall.front r.P) hstop hfirst, Option.bind_some, r.read_empty hempty,
    r.read_file hrest hfile]
  congr 1
  funext k
  unfold readByte M
  by_cases hk : k < n
  · rw [if_pos hk]
    by_cases hP : a + k < r.P
    · rw [if_neg (by omega), if_neg (by omega), if_pos ⟨hk, hP⟩, if_pos hP]
    · by_cases hQ : a + k < r.Q
      · rw [if_neg (by omega), if_pos (by omega), if_neg hP, if_pos hQ]
      · rw [if_pos (by omega), if_neg hP, if_neg hQ]
  · rw [if_neg hk, if_neg (by omega), if_neg (by omega), if_neg (by omega)]

/-! ## the reads that give the disc -/

variable {r}

/-- A read that stays out of the end of the gap gives the disc, if the file area does not hold the
replaced bytes, or is not moved. -/
theorem Consistent.readsDisc (h : r.Consistent) (hpatch : r.V = r.P ∨ 0x428 ≤ r.P)
    (hdisc : r.InDisc a n) (hgap : ∀ o, a ≤ o → o < a + n → o < r.M ∨ r.V ≤ o) :
    r.ReadsDisc a n := by
  have hHR := h.header_le
  have hP : r.P = r.R - r.H := rfl
  have hQ : r.Q = r.V - r.R := rfl
  have hshift : r.m_file_area_shift = (r.V : Int) - r.R + r.H := rfl
  have hfirst : a < min (a + n) r.P → min (a + n) r.P + r.H ≤ r.m_file.length := fun hlt => by
    have := (hdisc.bytes (min (a + n) r.P - 1) (by omega) (by omega)).1 (by omega)
    omega
  have hfile : max a r.M < a + n → a + n + r.R ≤ r.m_file.length + r.V := fun hlt => by
    have hV := hgap (a + n - 1) (by omega) (by omega)
    have := (hdisc.bytes (a + n - 1) (by omega) (by omega)).2 (by omega)
    omega
  intro out
  refine ⟨_, h.read_eq hdisc.stop_lt hfirst hfile out, fun i hi => ?_⟩
  rw [if_pos hi]
  obtain ⟨o, ho⟩ : ∃ o, a + i = o := ⟨_, rfl⟩
  rw [ho]
  unfold readByte discByte
  rw [← hP]
  by_cases hoP : o < r.P
  · rw [if_pos hoP, if_pos hoP]
  rw [if_neg hoP, if_neg hoP]
  by_cases hoQ : o < r.Q
  · have hnone : r.patchByte o = none := by
      unfold patchByte
      rw [if_neg (by omega), if_neg (by omega)]
    rw [if_pos hoQ, if_pos (by omega), hnone]
    rfl
  have hM : r.M ≤ o := Nat.max_le.mpr ⟨by omega, by omega⟩
  have hmo : max a r.M ≤ o := Nat.max_le.mpr ⟨by omega, hM⟩
  have hMm : r.M ≤ max a r.M := Nat.le_max_right ..
  have hVstart : r.V ≤ max a r.M :=
    (hgap (max a r.M) (Nat.le_max_left ..) (by omega)).resolve_left (Nat.not_lt_of_le hMm)
  obtain ⟨m, hm⟩ : ∃ m, max a r.M = m := ⟨_, rfl⟩
  rw [hm] at hmo hVstart ⊢
  have hx : (0 : Int) ≤ m - r.m_file_area_shift := by omega
  rw [if_neg hoQ, if_neg (by omega)]
  unfold internalByte
  rw [if_pos hx]
  have htgc : (m - r.m_file_area_shift : Int).toNat + (o - m) + r.H = o - r.V + r.R := by omega
  rw [htgc]
  obtain hV | hpatch := hpatch
  · have hoff : (m - r.m_file_area_shift : Int).toNat + (o - m) = o := by omega
    rw [hoff]
  · have hnone : ∀ k, 0x428 ≤ k → r.patchByte k = none := by
      intro k hk
      unfold patchByte
      rw [if_neg (by omega), if_neg (by omega)]
    rw [hnone o (by omega), hnone _ (by omega)]

/-- The offsets of the areas. -/
structure HasLayout (r : TGCFileReader) (H R V : BitVec 32) : Prop where
  header : r.m_header.tgc_header_size = H
  real : r.m_header.file_area_real_offset = R
  virtual : r.m_header.file_area_virtual_offset = V

/-- A reader with a layout, a file of one repeated byte, and all replaced bytes different. -/
def filled (H R V : BitVec 32) (size : Nat) (h : size ≤ OFF_MAX) (v : Byte) : TGCFileReader :=
  ⟨⟨TGC_MAGIC, H, H + 0x05060708, H + 0x01020304, R, V⟩, List.replicate size v,
    by rwa [List.length_replicate]⟩

theorem patchByte_filled {H R V : BitVec 32} {size : Nat} (h : size ≤ OFF_MAX) (v : Byte)
    (i : Nat) : (filled H R V size h v).patchByte i =
      if 0x420 ≤ i ∧ i < 0x428 then some (BitVec.ofNat 8 (i - 0x41F)) else none := by
  have hsub : ∀ x : BitVec 32, H + x - H = x := fun x => by
    rw [BitVec.add_comm, BitVec.add_sub_cancel]
  unfold patchByte filled
  rw [hsub, hsub]
  by_cases hin : 0x420 ≤ i ∧ i < 0x428
  · obtain ⟨k, hk, rfl⟩ : ∃ k, k < 8 ∧ i = 0x420 + k := ⟨i - 0x420, by omega, by omega⟩
    revert k
    decide
  · rw [if_neg hin, if_neg (by omega), if_neg (by omega)]

theorem tgcByte_filled {H R V : BitVec 32} {size : Nat} (h : size ≤ OFF_MAX) (v : Byte)
    {i : Nat} (hi : i < size) : (filled H R V size h v).tgcByte i = v := by
  unfold tgcByte filled
  rw [List.getD_eq_getElem?_getD, List.getElem?_replicate, if_pos hi]
  rfl

theorem Consistent.not_readsDisc (h : r.Consistent) (hstop : a + 1 < 2 ^ 64) (hP : r.P ≤ a)
    (hfile : r.M ≤ a → a + 1 + r.R ≤ r.m_file.length + r.V)
    (hne : r.readByte a a ≠ r.discByte a) : ¬ r.ReadsDisc a 1 := by
  intro hread
  obtain ⟨out, hout, hbyte⟩ := hread fun _ => 0
  rw [h.read_eq hstop (fun hlt => by omega) fun hlt => hfile (by omega)] at hout
  have h0 := hbyte 0 Nat.one_pos
  rw [← Option.some.inj hout] at h0
  exact hne h0

theorem readByte_self (hP : r.P ≤ a) (hM : r.M ≤ a) :
    r.readByte a a = r.internalByte (a - r.m_file_area_shift) 0 := by
  have hQ : r.Q ≤ r.M := Nat.le_max_right ..
  unfold readByte
  rw [if_neg (by omega), if_neg (by omega), Nat.max_eq_left hM, Nat.sub_self]

/-- The replaced bytes are all different. -/
def Patched (r : TGCFileReader) : Prop :=
  ∀ i, r.patchByte i = if 0x420 ≤ i ∧ i < 0x428 then some (BitVec.ofNat 8 (i - 0x41F)) else none

theorem Consistent.patch_moved (h : r.Consistent) (hpatch : r.Patched)
    (hzero : ∀ i, r.tgcByte i = 0) (hP : r.P < 0x428) (hV : r.P < r.V) (ha : a = max r.P 0x420) :
    r.readByte a a ≠ r.discByte a := by
  have hdisc : r.discByte a = BitVec.ofNat 8 (a - 0x41F) := by
    unfold discByte
    rw [hpatch, if_pos (by omega), Option.getD_some]
  have hbytes : ∀ k, k < 8 → BitVec.ofNat 8 (k + 1) ≠ 0 ∧
      ∀ j, j < k → BitVec.ofNat 8 (j + 1) ≠ BitVec.ofNat 8 (k + 1) := by decide
  obtain ⟨k, hk⟩ : ∃ k, a = 0x420 + k := ⟨a - 0x420, by omega⟩
  have hdisc' : r.discByte a = BitVec.ofNat 8 (k + 1) := by
    rw [hdisc, show a - 0x41F = k + 1 by omega]
  obtain ⟨hne, hother⟩ := hbytes k (by omega)
  rw [hdisc']
  by_cases hM : r.M ≤ a
  · have hP' : r.P = r.R - r.H := rfl
    have hshift : r.m_file_area_shift = (r.V : Int) - r.R + r.H := rfl
    rw [readByte_self (by omega) hM]
    unfold internalByte
    split
    · next hx =>
      rw [hpatch, hzero]
      by_cases hin : 0x420 ≤ (a - r.m_file_area_shift : Int).toNat + 0
      · -- another replaced byte
        rw [if_pos (by omega)]
        have := hother ((a - r.m_file_area_shift : Int).toNat - 0x420) (by omega)
        rwa [show (a - r.m_file_area_shift : Int).toNat + 0 - 0x41F =
          (a - r.m_file_area_shift : Int).toNat - 0x420 + 1 by omega]
      · rw [if_neg (by omega)]
        exact hne.symm
    · rw [hzero]
      exact hne.symm
  · have hQ : a < r.Q := by
      unfold M at hM
      omega
    unfold readByte
    rw [if_neg (by omega), if_pos hQ]
    exact hne.symm

theorem Consistent.gap_end (h : r.Consistent) (hpatch : r.Patched)
    (hone : ∀ i, i < r.R → r.tgcByte i = 1) (hP : 0x428 ≤ r.P) (hV : r.P < r.V)
    (ha : a + 1 = r.V) : r.M ≤ a ∧ r.readByte a a ≠ r.discByte a := by
  have hP' : r.P = r.R - r.H := rfl
  have hshift : r.m_file_area_shift = (r.V : Int) - r.R + r.H := rfl
  have hM : r.M ≤ a := Nat.max_le.mpr ⟨by omega, by unfold Q; omega⟩
  refine ⟨hM, ?_⟩
  have hdisc : r.discByte a = 0 := by
    unfold discByte
    rw [hpatch, if_neg (by omega), if_neg (by omega), if_pos (by omega)]
    rfl
  rw [hdisc, readByte_self (by omega) hM]
  unfold internalByte
  rw [if_pos (by omega), hpatch]
  split
  · next hin =>
    rw [show (a - r.m_file_area_shift : Int).toNat + 0 = 0x427 by omega, Option.getD_some]
    decide
  · rw [hone _ (by omega)]
    decide

section Layout

variable {H R V : BitVec 32}

theorem consistent_of_hasLayout (hHR : H ≤ R) (hRV : R - H ≤ V) (hr : r.HasLayout H R V) :
    r.Consistent := by
  obtain ⟨rfl, rfl, rfl⟩ := hr
  refine ⟨hHR, ?_⟩
  have h := BitVec.le_def.mp hRV
  rw [BitVec.toNat_sub_of_le hHR] at h
  exact h

theorem exists_not_readsDisc (hHR : H ≤ R) (hRV : R - H ≤ V) (hne : V ≠ R - H) :
    ∃ r : TGCFileReader, r.HasLayout H R V ∧ ∃ a n, r.InDisc a n ∧ ¬ r.ReadsDisc a n := by
  have hP := BitVec.toNat_sub_of_le hHR
  have hV := BitVec.le_def.mp hRV
  have hVne : V.toNat ≠ (R - H).toNat := fun h => hne (BitVec.eq_of_toNat_eq h)
  have hsize : R.toNat + 0x428 ≤ OFF_MAX := by
    unfold OFF_MAX
    omega
  have hlayout : ∀ v, (filled H R V _ hsize v).HasLayout H R V := fun _ => ⟨rfl, rfl, rfl⟩
  have hcons := fun v => consistent_of_hasLayout hHR hRV (hlayout v)
  have hRn : ∀ v, (filled H R V _ hsize v).R = R.toNat := fun _ => rfl
  have hVn : ∀ v, (filled H R V _ hsize v).V = V.toNat := fun _ => rfl
  have hPn : ∀ v, (filled H R V _ hsize v).P = (R - H).toNat := fun _ => hP.symm
  have hlen : ∀ v, (filled H R V _ hsize v).m_file.length = R.toNat + 0x428 :=
    fun _ => List.length_replicate
  by_cases hlow : (R - H).toNat < 0x428
  · obtain ⟨o, ho⟩ : ∃ o, o = max (R - H).toNat 0x420 := ⟨_, rfl⟩
    have hzero : ∀ i, (filled H R V _ hsize 0).tgcByte i = 0 := by
      intro i
      unfold tgcByte filled
      rw [List.getD_eq_getElem?_getD, List.getElem?_replicate]
      split <;> rfl
    have hwrong := (hcons 0).patch_moved (patchByte_filled hsize 0) hzero
      (by rw [hPn]; exact hlow) (by rw [hPn, hVn]; omega) (a := o) (by rw [hPn]; exact ho)
    refine ⟨_, hlayout 0, o, 1, ⟨by omega, fun k hk hk' => ⟨fun hlt => ?_, fun hle => ?_⟩⟩,
      (hcons 0).not_readsDisc (by omega) (by rw [hPn]; omega) (fun _ => ?_) hwrong⟩
    · change k < R.toNat - H.toNat at hlt
      omega
    · rw [hVn, hRn, hlen] at *
      omega
    · rw [hRn, hlen, hVn]
      omega
  · have hone : ∀ i, i < (filled H R V _ hsize 1).R → (filled H R V _ hsize 1).tgcByte i = 1 :=
      fun i hi => tgcByte_filled hsize 1 (Nat.lt_add_right _ hi)
    obtain ⟨hM, hwrong⟩ := (hcons 1).gap_end (patchByte_filled hsize 1) hone
      (by rw [hPn]; omega) (by rw [hPn, hVn]; omega) (a := V.toNat - 1) (by rw [hVn]; omega)
    refine ⟨_, hlayout 1, V.toNat - 1, 1,
      ⟨by omega, fun k hk hk' => ⟨fun hlt => ?_, fun hle => ?_⟩⟩,
      (hcons 1).not_readsDisc (by omega) (by rw [hPn]; omega) (fun _ => ?_) hwrong⟩
    · change k < R.toNat - H.toNat at hlt
      omega
    · rw [hVn] at hle
      omega
    · rw [hRn, hlen, hVn]
      omega

end Layout

/-- A file with a gap of one byte, behind an area of which the last byte is one. -/
def gapFile : List Byte :=
  [0xA2, 0x38, 0x0F, 0xAE, 0, 0, 0, 0, 0, 0, 0, 0x38, 0, 0, 0, 0, 0, 0, 0, 0x38, 0, 0, 0, 0,
    0, 0, 0, 0, 0, 0, 0, 0x38, 0, 0, 0, 0, 0, 0, 0x04, 0x68, 0, 0, 0, 0, 0, 0, 0, 0,
    0, 0, 0, 0, 0, 0, 0x04, 0x31] ++ (List.replicate 0x42F 0 ++ [1, 2])

theorem gapFile_length : gapFile.length = 0x469 := by
  rw [gapFile, List.length_append, List.length_append, List.length_replicate]
  rfl

theorem gapFile_size : gapFile.length ≤ OFF_MAX := by
  rw [gapFile_length]
  decide

/-- The reader that is created for it. -/
def gapReader : TGCFileReader :=
  ⟨⟨TGC_MAGIC, 0x38, 0x38, 0x38, 0x468, 0x431⟩, gapFile, gapFile_size⟩

theorem create_gapFile : create gapFile gapFile_size = some gapReader := by
  have hwords : headerWord gapFile 0 = TGC_MAGIC ∧ headerWord gapFile 8 = 0x38 ∧
      headerWord gapFile 0x10 = 0x38 ∧ headerWord gapFile 0x1C = 0x38 ∧
      headerWord gapFile 0x24 = 0x468 ∧ headerWord gapFile 0x34 = 0x431 :=
    ⟨rfl, rfl, rfl, rfl, rfl, rfl⟩
  obtain ⟨h0, h1, h2, h3, h4, h5⟩ := hwords
  unfold create
  rw [if_pos ⟨by rw [gapFile_length]; decide, h0⟩, h0, h1, h2, h3, h4, h5]
  rfl

end TGCFileReader

end DolphinCore.DiscIO
