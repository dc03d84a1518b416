import DolphinCore.Lib.FinLiteral
import DolphinCore.Lib.Endian

/-!
# DolphinCore.Common.SysConf

`SysConf` of `Common/SysConf.cpp`: the list of the Wii's settings, the image of `0x4000` bytes that
is saved, and what is loaded from it.
-/

namespace DolphinCore.Common

open Endian

namespace SysConf

/-! ## entries -/

/-- `SysConf::Entry::Type` -/
inductive EntryType
  | BigArray
  | SmallArray
  | Byte
  | Short
  | Long
  | LongLong
  | ByteBool
  deriving DecidableEq, Repr

def EntryType.toU8 : EntryType → DolphinCore.Byte
  | BigArray => 1
  | SmallArray => 2
  | Byte => 3
  | Short => 4
  | Long => 5
  | LongLong => 6
  | ByteBool => 7

/-- The type that is stored in three bits, `none` where the switch of `LoadFromFile` has no case. -/
def EntryType.ofU8? (b : DolphinCore.Byte) : Option EntryType :=
  if b = 1 then some BigArray
  else if b = 2 then some SmallArray
  else if b = 3 then some Byte
  else if b = 4 then some Short
  else if b = 5 then some Long
  else if b = 6 then some LongLong
  else if b = 7 then some ByteBool
  else none

theorem EntryType.ofU8?_toU8 : (t : EntryType) → ofU8? t.toU8 = some t := by
  intro t
  cases t <;> rfl

structure Entry where
  type : EntryType
  name : List DolphinCore.Byte
  bytes : List DolphinCore.Byte
  deriving DecidableEq, Repr

/-- `GetNonArrayEntrySize`, which asserts that the type is not an array. -/
def getNonArrayEntrySize : EntryType → Nat
  | .Byte => 1
  | .ByteBool => 1
  | .Short => 2
  | .Long => 4
  | .LongLong => 8
  | _ => 0

/-- A name and data of the sizes that the format has room for. -/
structure Entry.Valid (e : Entry) : Prop where
  name_pos : 0 < e.name.length
  name_le : e.name.length ≤ 32
  bytes_pos : 0 < e.bytes.length
  bigArray : e.type = .BigArray → e.bytes.length ≤ 65536
  smallArray : e.type = .SmallArray → e.bytes.length ≤ 256
  nonArray : e.type ≠ .BigArray → e.type ≠ .SmallArray →
    e.bytes.length = getNonArrayEntrySize e.type

/-! ## Save -/

abbrev SYSCONF_SIZE : Nat := 0x4000

/-- `resize` of a vector of bytes. -/
def resize (n : Nat) (v : List DolphinCore.Byte) : List DolphinCore.Byte :=
  v.take n ++ List.replicate (n - v.length) 0

/-- The byte with the type and the length of the name. -/
def description (item : Entry) : DolphinCore.Byte :=
  (item.type.toU8 <<< 5) ||| (BitVec.ofNat 8 item.name.length - 1)

/-- The data of an entry.  The size of an array is cast before it is stored, less one. -/
def encodeData (item : Entry) : List DolphinCore.Byte :=
  match item.type with
  | .BigArray =>
    let data_size := BitVec.ofNat 16 item.bytes.length
    toBE 2 (data_size - 1).toNat ++ item.bytes.take data_size.toNat
  | .SmallArray =>
    let data_size := BitVec.ofNat 8 item.bytes.length
    toBE 1 (data_size - 1).toNat ++ item.bytes.take data_size.toNat
  | _ => item.bytes

def encodeEntry (item : Entry) : List DolphinCore.Byte :=
  description item :: (item.name ++ encodeData item)

/-- The offsets of the entries that begin at an offset. -/
def entryOffsets : Nat → List Entry → List (BitVec 16)
  | _, [] => []
  | offset, item :: items =>
    BitVec.ofNat 16 offset :: entryOffsets (offset + (encodeEntry item).length) items

def entriesBeginOffset (m_entries : List Entry) : Nat := 6 + 2 * (m_entries.length + 1)

def version : List DolphinCore.Byte := [0x53, 0x43, 0x76, 0x30]

def footer : List DolphinCore.Byte := [0x53, 0x43, 0x65, 0x64]

/-- The offset of the dummy entry past the end. -/
def dummyOffset (m_entries : List Entry) : BitVec 16 :=
  BitVec.ofNat 16 (entriesBeginOffset m_entries + (m_entries.flatMap encodeEntry).length)

/-- The header of the image: version, number of entries and offsets. -/
def header (m_entries : List Entry) : List DolphinCore.Byte :=
  version ++ (toBE 2 (BitVec.ofNat 16 m_entries.length).toNat ++
    (entryOffsets (entriesBeginOffset m_entries) m_entries ++ [dummyOffset m_entries]).flatMap
      fun offset => toBE 2 offset.toNat)

/-- The buffer of `Save` before it is resized. -/
def mainData (m_entries : List Entry) : List DolphinCore.Byte :=
  header m_entries ++ m_entries.flatMap encodeEntry

/-- The buffer that is written, with the footer at its end. -/
def image (m_entries : List Entry) : List DolphinCore.Byte :=
  (resize SYSCONF_SIZE (mainData m_entries)).take (SYSCONF_SIZE - footer.length) ++ footer

/-- How the operations on files end. -/
structure Host where
  writeBytes : Bool
  renameSync : Bool

/-- `Save`: its result and the file there is afterwards. -/
def save (host : Host) (file : List DolphinCore.Byte) (m_entries : List Entry) :
    Bool × List DolphinCore.Byte :=
  if ¬ host.writeBytes then (false, file)
  else if host.renameSync then (true, image m_entries)
  else (false, file)

/-! ## LoadFromFile -/

/-- What `ReadBytes` at a position leaves in a buffer of zeros. -/
def readBytes (file : List DolphinCore.Byte) (pos n : Nat) : List DolphinCore.Byte :=
  resize n (file.drop pos)

/-- The body of the loop, `none` for an unknown type. -/
def readEntry (file : List DolphinCore.Byte) (offset : Nat) : Option Entry :=
  let description := BitVec.ofNat 8 (fromBE (readBytes file offset 1))
  let name_length := (description &&& 0x1f).toNat + 1
  let name := readBytes file (offset + 1) name_length
  let pos := offset + 1 + name_length
  (EntryType.ofU8? ((description &&& 0xe0) >>> 5)).map fun type =>
    match type with
    | .BigArray =>
      ⟨type, name, readBytes file (pos + 2) (fromBE (readBytes file pos 2) + 1)⟩
    | .SmallArray =>
      ⟨type, name, readBytes file (pos + 1) (fromBE (readBytes file pos 1) + 1)⟩
    | _ => ⟨type, name, readBytes file pos (getNonArrayEntrySize type)⟩

/-- The loop over the offsets, with the entries that were added. -/
def readLoop (file : List DolphinCore.Byte) : List Nat → List Entry → Bool × List Entry
  | [], m_entries => (true, m_entries)
  | offset :: offsets, m_entries =>
    match readEntry file offset with
    | none => (false, m_entries)
    | some entry => readLoop file offsets (m_entries ++ [entry])

/-- `LoadFromFile` after `Clear`. -/
def loadFromFile (file : List DolphinCore.Byte) : Bool × List Entry :=
  let number_of_entries := fromBE (readBytes file 4 2)
  let offsets := (List.range number_of_entries).map fun i => fromBE (readBytes file (6 + 2 * i) 2)
  readLoop file offsets []

/-! ## reading in a string -/

theorem length_resize (n : Nat) (v : List DolphinCore.Byte) : (resize n v).length = n := by
  rw [resize, List.length_append, List.length_take, List.length_replicate]
  omega

variable {v : List DolphinCore.Byte} {n : Nat} {e : Entry} {es : List Entry}

theorem resize_append (h : v.length = n) (s : List DolphinCore.Byte) : resize n (v ++ s) = v := by
  rw [resize, ← h, List.take_left, List.length_append]
  simp

theorem resize_of_ge (h : n ≤ v.length) : resize n v = v.take n := by
  rw [resize, Nat.sub_eq_zero_of_le h, List.replicate_zero, List.append_nil]

theorem resize_of_le (h : v.length ≤ n) : resize n v = v ++ List.replicate (n - v.length) 0 := by
  rw [resize, List.take_of_length_le h]

theorem readBytes_append (p s : List DolphinCore.Byte) (k n : Nat) :
    readBytes (p ++ s) (p.length + k) n = readBytes s k n := by
  rw [readBytes, readBytes, ← List.drop_drop, List.drop_left]

theorem readEntry_append (p s : List DolphinCore.Byte) :
    readEntry (p ++ s) p.length = readEntry s 0 := by
  have hk (k n : Nat) : readBytes (p ++ s) (p.length + k) n = readBytes s (0 + k) n := by
    rw [Nat.zero_add]
    exact readBytes_append p s k n
  have h0 : readBytes (p ++ s) p.length 1 = readBytes s 0 1 := readBytes_append p s 0 1
  simp only [readEntry, h0, hk, Nat.add_assoc]

/-! ## one entry -/

/-- An array of the largest size: its length is cast to zero, and its data is not written. -/
def Entry.LeftOut (e : Entry) : Prop :=
  e.type = .BigArray ∧ e.bytes.length = 65536 ∨ e.type = .SmallArray ∧ e.bytes.length = 256

instance (e : Entry) : Decidable e.LeftOut := inferInstanceAs (Decidable (_ ∨ _))

/-- The data that is read for an entry in front of a string. -/
def bytesReadBack (e : Entry) (rest : List DolphinCore.Byte) : List DolphinCore.Byte :=
  if e.LeftOut then resize e.bytes.length rest else e.bytes

theorem description_eq (h : e.Valid) : (description e &&& 0x1f).toNat + 1 = e.name.length ∧
      EntryType.ofU8? ((description e &&& 0xe0) >>> 5) = some e.type := by
  have hcases : ∀ (t : EntryType) (k : Fin 32),
      (((t.toU8 <<< 5) ||| (BitVec.ofNat 8 (k.val + 1) - 1)) &&& 0x1f).toNat + 1 = k.val + 1 ∧
      (((t.toU8 <<< 5) ||| (BitVec.ofNat 8 (k.val + 1) - 1)) &&& 0xe0) >>> 5 = t.toU8 := by
    intro t
    cases t <;> decide
  have hpos := h.name_pos
  have hle := h.name_le
  obtain ⟨hlen, htype⟩ := hcases e.type ⟨e.name.length - 1, by omega⟩
  have hk : e.name.length - 1 + 1 = e.name.length := by omega
  simp only [hk] at hlen htype
  rw [description]
  exact ⟨hlen, by rw [htype, EntryType.ofU8?_toU8]⟩

theorem bigArray_size (hpos : 0 < n) (hle : n ≤ 65536) : (BitVec.ofNat 16 n - 1).toNat + 1 = n ∧
      (BitVec.ofNat 16 n).toNat = if n = 65536 then 0 else n := by
  have h1 : (1 : BitVec 16).toNat = 1 := rfl
  rw [BitVec.toNat_sub, BitVec.toNat_ofNat, h1]
  split <;> omega

theorem smallArray_size (hpos : 0 < n) (hle : n ≤ 256) : (BitVec.ofNat 8 n - 1).toNat + 1 = n ∧
      (BitVec.ofNat 8 n).toNat = if n = 256 then 0 else n := by
  have h1 : (1 : BitVec 8).toNat = 1 := rfl
  rw [BitVec.toNat_sub, BitVec.toNat_ofNat, h1]
  split <;> omega

theorem resize_array {size : Nat} {big : Prop} [Decidable big] (rest)
    (hsize : size = if big then 0 else e.bytes.length) :
    resize e.bytes.length (e.bytes.take size ++ rest) =
      if big then resize e.bytes.length rest else e.bytes := by
  by_cases hbig : big
  · rw [if_pos hbig] at hsize
    rw [if_pos hbig, hsize, List.take_zero, List.nil_append]
  · rw [if_neg hbig] at hsize
    rw [if_neg hbig, hsize, List.take_length, resize_append rfl]

theorem readArray {k s n : Nat} {p : List DolphinCore.Byte} (rest) (hn : n < 256 ^ k)
    (hlen : n + 1 = e.bytes.length) :
    readBytes (p ++ (toBE k n ++ e.bytes.take s ++ rest)) (p.length + k)
        (fromBE (readBytes (p ++ (toBE k n ++ e.bytes.take s ++ rest)) p.length k) + 1) =
      resize e.bytes.length (e.bytes.take s ++ rest) := by
  have hfield : readBytes (p ++ (toBE k n ++ e.bytes.take s ++ rest)) p.length k = toBE k n := by
    have h := readBytes_append p (toBE k n ++ e.bytes.take s ++ rest) 0 k
    rw [Nat.add_zero] at h
    rw [h, readBytes, List.drop_zero, List.append_assoc, resize_append (length_toBE k n)]
  have hdata := readBytes_append p (toBE k n ++ e.bytes.take s ++ rest) k (n + 1)
  rw [hfield, fromBE_toBE_of_lt hn, hdata, readBytes, List.append_assoc,
    List.drop_left' (length_toBE k n), hlen]

/-- **An entry in front of a string.**  It is read back, but for data that was left out. -/
theorem readEntry_encodeEntry (h : e.Valid) (rest : List DolphinCore.Byte) :
    readEntry (encodeEntry e ++ rest) 0 = some { e with bytes := bytesReadBack e rest } := by
  obtain ⟨hlen, htype⟩ := description_eq h
  have hdesc : BitVec.ofNat 8 (fromBE (readBytes (encodeEntry e ++ rest) 0 1)) = description e := by
    have hread : readBytes (encodeEntry e ++ rest) 0 1 = [description e] :=
      resize_append (v := [description e]) rfl _
    have hval : fromBE [description e] = (description e).toNat := by
      change (description e).toNat + 256 * 0 = _
      omega
    rw [hread, hval, BitVec.ofNat_toNat, BitVec.setWidth_eq]
  have hname : readBytes (encodeEntry e ++ rest) (0 + 1) e.name.length = e.name := by
    rw [encodeEntry, List.cons_append, List.append_assoc, readBytes]
    exact resize_append rfl _
  have hpos : 0 + 1 + e.name.length = (description e :: e.name).length := by
    rw [List.length_cons]
    omega
  have hfile : encodeEntry e ++ rest = (description e :: e.name) ++ (encodeData e ++ rest) := by
    rw [encodeEntry, List.cons_append, List.cons_append, List.append_assoc]
  have hdata : readBytes ((description e :: e.name) ++ (encodeData e ++ rest))
      (description e :: e.name).length (getNonArrayEntrySize e.type) =
      resize (getNonArrayEntrySize e.type) (encodeData e ++ rest) :=
    readBytes_append (description e :: e.name) (encodeData e ++ rest) 0 _
  simp only [readEntry, hdesc, hlen, htype, hname, Option.map_some]
  rw [hpos, hfile]
  obtain ⟨type, name, bytes⟩ := e
  cases type with
  | BigArray =>
    obtain ⟨hsize, htake⟩ := bigArray_size h.bytes_pos (h.bigArray rfl)
    have hlt : (BitVec.ofNat 16 bytes.length - 1).toNat < 256 ^ 2 := BitVec.isLt _
    have hread := readArray (e := ⟨.BigArray, name, bytes⟩) (s := (BitVec.ofNat 16 bytes.length).toNat)
      (p := description ⟨.BigArray, name, bytes⟩ :: name) rest hlt hsize
    have hback := resize_array (e := ⟨.BigArray, name, bytes⟩) rest htake
    simp only [encodeData, hread, hback, bytesReadBack, Entry.LeftOut]
    simp
  | SmallArray =>
    obtain ⟨hsize, htake⟩ := smallArray_size h.bytes_pos (h.smallArray rfl)
    have hlt : (BitVec.ofNat 8 bytes.length - 1).toNat < 256 ^ 1 := BitVec.isLt _
    have hread := readArray (e := ⟨.SmallArray, name, bytes⟩) (s := (BitVec.ofNat 8 bytes.length).toNat)
      (p := description ⟨.SmallArray, name, bytes⟩ :: name) rest hlt hsize
    have hback := resize_array (e := ⟨.SmallArray, name, bytes⟩) rest htake
    simp only [encodeData, hread, hback, bytesReadBack, Entry.LeftOut]
    simp
  | _ =>
    have hsize := h.nonArray (by simp) (by simp)
    have hback : resize bytes.length (bytes ++ rest) = bytes := resize_append rfl rest
    simp only [hdata]
    rw [← hsize]
    simp [encodeData, hback, bytesReadBack, Entry.LeftOut]

/-! ## the loop over the entries -/

/-- The entries that are read in front of a string. -/
def entriesReadBack : List Entry → List DolphinCore.Byte → List Entry
  | [], _ => []
  | e :: es, rest =>
    { e with bytes := bytesReadBack e (es.flatMap encodeEntry ++ rest) } :: entriesReadBack es rest

theorem length_entryOffsets : (offset : Nat) → (es : List Entry) →
    (entryOffsets offset es).length = es.length
  | _, [] => rfl
  | offset, e :: es => by
    rw [entryOffsets, List.length_cons, length_entryOffsets, List.length_cons]

theorem readLoop_entryOffsets : (es : List Entry) → (∀ e ∈ es, e.Valid) →
    (p rest : List DolphinCore.Byte) → (m_entries : List Entry) →
    p.length + (es.flatMap encodeEntry).length < 2 ^ 16 →
    readLoop (p ++ (es.flatMap encodeEntry ++ rest))
      ((entryOffsets p.length es).map BitVec.toNat) m_entries =
      (true, m_entries ++ entriesReadBack es rest)
  | [], _, p, rest, m_entries, _ => by
    rw [entryOffsets, List.map_nil, readLoop, entriesReadBack, List.append_nil]
  | e :: es, hvalid, p, rest, m_entries, hlt => by
    rw [List.flatMap_cons, List.length_append] at hlt
    have hoffset : (BitVec.ofNat 16 p.length).toNat = p.length := by
      rw [BitVec.toNat_ofNat]
      omega
    have hread : readEntry (p ++ ((e :: es).flatMap encodeEntry ++ rest)) p.length =
        some { e with bytes := bytesReadBack e (es.flatMap encodeEntry ++ rest) } := by
      rw [readEntry_append, List.flatMap_cons, List.append_assoc]
      exact readEntry_encodeEntry (hvalid e (List.mem_cons_self ..)) _
    have hfile : p ++ ((e :: es).flatMap encodeEntry ++ rest) =
        (p ++ encodeEntry e) ++ (es.flatMap encodeEntry ++ rest) := by
      rw [List.flatMap_cons, List.append_assoc, List.append_assoc]
    have hlength : p.length + (encodeEntry e).length = (p ++ encodeEntry e).length :=
      List.length_append.symm
    have ih := readLoop_entryOffsets es (fun e' he' => hvalid e' (List.mem_cons_of_mem _ he'))
      (p ++ encodeEntry e) rest
      (m_entries ++ [{ e with bytes := bytesReadBack e (es.flatMap encodeEntry ++ rest) }])
      (by rw [List.length_append]; omega)
    rw [entryOffsets, List.map_cons, hoffset, readLoop, hread]
    simp only
    rw [hfile, hlength, ih, entriesReadBack, List.append_assoc, List.singleton_append]

theorem entriesReadBack_eq_iff : (es : List Entry) → (rest : List DolphinCore.Byte) →
    (entriesReadBack es rest = es ↔ ∀ e post, e :: post <:+ es → e.LeftOut →
      e.bytes = resize e.bytes.length (post.flatMap encodeEntry ++ rest))
  | [], rest => by
    refine ⟨fun _ e post hsuffix => ?_, fun _ => rfl⟩
    cases List.suffix_nil.mp hsuffix
  | e :: es, rest => by
    have ih := entriesReadBack_eq_iff es rest
    rw [entriesReadBack, List.cons.injEq, ih]
    constructor
    · rintro ⟨hhead, htail⟩ e' post hsuffix hleft
      rcases List.suffix_cons_iff.mp hsuffix with heq | hsuffix'
      · cases heq
        have hbytes := congrArg Entry.bytes hhead
        rw [bytesReadBack, if_pos hleft] at hbytes
        exact hbytes.symm
      · exact htail e' post hsuffix' hleft
    · intro hall
      refine ⟨?_, fun e' post hsuffix => hall e' post (hsuffix.trans (List.suffix_cons e es))⟩
      rw [bytesReadBack]
      split
      · next hleft => rw [← hall e es List.suffix_rfl hleft]
      · rfl

/-! ## the image -/

theorem length_header (es : List Entry) : (header es).length = entriesBeginOffset es := by
  have htable := length_flatMap_of_length (fun offset : BitVec 16 => length_toBE 2 offset.toNat)
    (entryOffsets (entriesBeginOffset es) es ++ [dummyOffset es])
  rw [header, List.length_append, List.length_append, length_toBE, htable, List.length_append,
    length_entryOffsets, entriesBeginOffset]
  simp only [version, List.length_cons, List.length_nil]
  omega

/-- The main data is in front of the footer. -/
def FitsImage (es : List Entry) : Prop := (mainData es).length ≤ SYSCONF_SIZE - footer.length

instance (es : List Entry) : Decidable (FitsImage es) := inferInstanceAs (Decidable (_ ≤ _))

/-- What is behind the entries of an image. -/
def imageTail (es : List Entry) : List DolphinCore.Byte :=
  List.replicate (SYSCONF_SIZE - footer.length - (mainData es).length) 0 ++ footer

theorem image_eq (h : FitsImage es) :
    image es = header es ++ (es.flatMap encodeEntry ++ imageTail es) := by
  have hle : (mainData es).length ≤ SYSCONF_SIZE := Nat.le_trans h (Nat.sub_le ..)
  rw [image, resize_of_le hle, List.take_append, List.take_of_length_le h, List.take_replicate,
    imageTail, mainData, List.append_assoc, List.append_assoc]
  congr 4
  omega

theorem mainData_isPrefix_iff (es : List Entry) :
    mainData es <+: (image es).take (SYSCONF_SIZE - footer.length) ↔ FitsImage es := by
  constructor
  · intro h
    exact Nat.le_trans h.length_le (List.length_take_le ..)
  · intro h
    have hle : (mainData es).length ≤ (SYSCONF_SIZE - footer.length) := h
    rw [image_eq h, ← List.append_assoc, ← mainData, List.take_append, List.take_of_length_le hle]
    exact List.prefix_append ..

theorem readOffsets {p : List DolphinCore.Byte} (hp : p.length = 6) (offsets : List (BitVec 16))
    (dummy : BitVec 16) (body : List DolphinCore.Byte) :
    ((List.range offsets.length).map fun i => fromBE (readBytes
      (p ++ ((offsets ++ [dummy]).flatMap (fun offset => toBE 2 offset.toNat) ++ body))
      (6 + 2 * i) 2)) = offsets.map BitVec.toNat := by
  refine List.ext_getElem (by simp) fun i hi hi' => ?_
  have hlt : i < offsets.length := by
    rw [List.length_map] at hi'
    exact hi'
  have hi2 : i < (offsets ++ [dummy]).length := by
    rw [List.length_append]
    omega
  have hlen (offset : BitVec 16) : (toBE 2 offset.toNat).length = 2 := length_toBE _ _
  have htable := length_flatMap_of_length hlen (offsets ++ [dummy])
  have hitem := take_drop_flatMap hlen (offsets ++ [dummy]) i hi2 body
  have hroom : 2 ≤ (((offsets ++ [dummy]).flatMap (fun offset => toBE 2 offset.toNat) ++
      body).drop (2 * i)).length := by
    rw [List.length_drop, List.length_append, htable]
    omega
  rw [List.getElem_map, List.getElem_map, List.getElem_range, ← hp, readBytes_append, readBytes,
    resize_of_ge hroom, hitem, fromBE_toBE_of_lt (BitVec.isLt _), List.getElem_append_left hlt]

/-- **What is loaded from an image that has room for the entries.** -/
theorem loadFromFile_image (hvalid : ∀ e ∈ es, e.Valid) (h : FitsImage es) :
    loadFromFile (image es) = (true, entriesReadBack es (imageTail es)) := by
  have hlength : (mainData es).length =
      entriesBeginOffset es + (es.flatMap encodeEntry).length := by
    rw [mainData, List.length_append, length_header]
  have hfits : entriesBeginOffset es + (es.flatMap encodeEntry).length < 2 ^ 16 := by
    have hle : (mainData es).length ≤ 0x3ffc := h
    omega
  have hcount : (BitVec.ofNat 16 es.length).toNat = es.length := by
    rw [BitVec.toNat_ofNat]
    rw [entriesBeginOffset] at hfits
    omega
  have hnumber : fromBE (readBytes (image es) 4 2) = es.length := by
    have hread := readBytes_append version (toBE 2 (BitVec.ofNat 16 es.length).toNat ++
      ((entryOffsets (entriesBeginOffset es) es ++ [dummyOffset es]).flatMap
        (fun offset => toBE 2 offset.toNat) ++ (es.flatMap encodeEntry ++ imageTail es))) 0 2
    rw [image_eq h, header, List.append_assoc, List.append_assoc]
    change fromBE (readBytes _ (version.length + 0) 2) = _
    rw [hread, readBytes, List.drop_zero, resize_append (length_toBE ..),
      fromBE_toBE_of_lt (BitVec.isLt _), hcount]
  have hoffsets : ((List.range es.length).map fun i => fromBE (readBytes (image es) (6 + 2 * i) 2)) =
      (entryOffsets (entriesBeginOffset es) es).map BitVec.toNat := by
    have hread := readOffsets (p := version ++ toBE 2 (BitVec.ofNat 16 es.length).toNat)
      (by rw [List.length_append, length_toBE]; rfl) (entryOffsets (entriesBeginOffset es) es)
      (dummyOffset es) (es.flatMap encodeEntry ++ imageTail es)
    rw [length_entryOffsets, List.append_assoc] at hread
    rw [image_eq h, header, List.append_assoc, List.append_assoc]
    exact hread
  rw [loadFromFile, hnumber, hoffsets, image_eq h, ← length_header es]
  have hloop := readLoop_entryOffsets es hvalid (header es) (imageTail es) []
    (by rw [length_header]; exact hfits)
  rwa [List.nil_append] at hloop

/-! ## what is saved is loaded -/

/-- When `Save` reports success, the buffer stands in the file, and the entries are loaded again. -/
def KeepsEntries (es : List Entry) : Prop :=
  ∀ host file, (save host file es).1 = true →
    mainData es <+: (save host file es).2.take (SYSCONF_SIZE - footer.length) ∧
      loadFromFile (save host file es).2 = (true, es)

theorem keepsEntries_iff_image (es : List Entry) : KeepsEntries es ↔ FitsImage es ∧
    loadFromFile (image es) = (true, es) := by
  rw [← mainData_isPrefix_iff]
  constructor
  · intro h
    exact h ⟨true, true⟩ [] rfl
  · rintro h ⟨writeBytes, renameSync⟩ file hsaved
    cases writeBytes
    · exact absurd hsaved Bool.false_ne_true
    · cases renameSync
      · exact absurd hsaved Bool.false_ne_true
      · exact h

theorem keepsEntries_iff_readBack (hvalid : ∀ e ∈ es, e.Valid) :
    KeepsEntries es ↔ FitsImage es ∧ entriesReadBack es (imageTail es) = es := by
  rw [keepsEntries_iff_image]
  refine and_congr_right fun hfits => ?_
  rw [loadFromFile_image hvalid hfits, Prod.mk.injEq]
  exact and_iff_right rfl

/-- **The settings survive `Save` and `LoadFromFile` exactly** if the image has room for them, and
the bytes of an array whose data is left out are those with which the image goes on behind it. -/
theorem keepsEntries_iff {es : List Entry} (hvalid : ∀ e ∈ es, e.Valid) :
    KeepsEntries es ↔ FitsImage es ∧ ∀ e post, e :: post <:+ es → e.LeftOut →
      e.bytes = resize e.bytes.length (post.flatMap encodeEntry ++ imageTail es) := by
  rw [keepsEntries_iff_readBack hvalid, entriesReadBack_eq_iff]

/-- A setting of each kind of size. -/
def someEntries : List Entry :=
  [⟨.SmallArray, [0x49], [0, 1]⟩, ⟨.Long, [0x42, 0x54], [0, 0, 0, 3]⟩, ⟨.BigArray, [0x49], [7]⟩]

theorem someEntries_valid : ∀ e ∈ someEntries, e.Valid := by
  simp only [someEntries, List.forall_mem_cons]
  refine ⟨?_, ?_, ?_, fun _ h => absurd h List.not_mem_nil⟩ <;> constructor <;> decide

theorem keepsEntries_someEntries : (∀ e ∈ someEntries, e.Valid) ∧ (KeepsEntries someEntries ↔
    FitsImage someEntries ∧ ∀ e post, e :: post <:+ someEntries → e.LeftOut →
      e.bytes = resize e.bytes.length (post.flatMap encodeEntry ++ imageTail someEntries)) :=
  ⟨someEntries_valid, keepsEntries_iff someEntries_valid⟩

/-- A small array of 256 bytes. -/
def fullSmallArray : Entry := ⟨.SmallArray, [0x49], List.replicate 256 1⟩

/-- Its length is cast to zero, so that it is read back as padding. -/
theorem not_keepsEntries_fullSmallArray :
    (∀ e ∈ [fullSmallArray], e.Valid) ∧ ¬ KeepsEntries [fullSmallArray] := by
  have hlen : fullSmallArray.bytes.length = 256 := List.length_replicate
  have hvalid : ∀ e ∈ [fullSmallArray], e.Valid := by
    rintro e (_ | ⟨_, ⟨⟩⟩)
    refine ⟨Nat.one_pos, by decide, ?_, nofun, fun _ => ?_, fun _ hsmall => absurd rfl hsmall⟩
    · rw [hlen]
      decide
    · rw [hlen]
  refine ⟨hvalid, fun h => ?_⟩
  have hback := ((keepsEntries_iff_readBack hvalid).mp h).2
  have hbytes := (entriesReadBack_eq_iff _ _).mp hback fullSmallArray [] List.suffix_rfl
    (.inr ⟨rfl, hlen⟩)
  have hroom : (mainData [fullSmallArray]).length < SYSCONF_SIZE - footer.length := by
    decide +kernel
  obtain ⟨n, hn⟩ := Nat.exists_eq_add_one.mpr (Nat.sub_pos_of_lt hroom)
  have htail : imageTail [fullSmallArray] = 0 :: (List.replicate n 0 ++ footer) := by
    rw [imageTail, hn]
    rfl
  rw [htail, hlen] at hbytes
  have hhead : (1 : DolphinCore.Byte) = 0 := Option.some.inj (congrArg List.head? hbytes)
  exact absurd hhead (by decide)

end SysConf

end DolphinCore.Common
