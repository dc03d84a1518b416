import DolphinCore.Memcard.Basic

/-!
# DolphinCore.Memcard.GciFiles

Saves outside of a card: `ExportGci`, `ImportGci` and `CopyFrom`, and the three formats
of a file with one save.
-/

namespace DolphinCore.Memcard

open Endian

def DENTRY_SIZE : Nat := 0x40

inductive SaveType
  | GCI
  | GCS
  | SAV
  deriving DecidableEq, Repr

/-- The enumerator as the number that it is. -/
def SaveType.offset : SaveType → Nat
  | .GCI => 0
  | .GCS => 0x110
  | .SAV => 0x80

/-- The codes of the functions below. -/
inductive FileCode
  | code (code : Code)
  | OPENFAIL
  | LENGTHFAIL
  | INVALIDFILESIZE
  | GCSFAIL
  | SAVFAIL
  deriving DecidableEq, Repr

/-! ## the bytes of an entry -/

/-- The widths of the fields. -/
structure DEntry.Fits (e : DEntry) : Prop where
  Gamecode : e.Gamecode < 256 ^ 4
  Filename : e.Filename.length = 0x20
  CopyCounter : e.CopyCounter < 256 ^ 1
  FirstBlock : e.FirstBlock < 256 ^ 2
  BlockCount : e.BlockCount < 256 ^ 2
  Other : e.Other.length = 0x17

/-- The entry as it stands in memory. -/
def DEntry.toBytes (e : DEntry) : List Byte :=
  toBE 4 e.Gamecode ++ (e.Other.take 4 ++ (e.Filename ++ ((e.Other.drop 4).take 13 ++
    (toBE 1 e.CopyCounter ++ (toBE 2 e.FirstBlock ++ (toBE 2 e.BlockCount ++ e.Other.drop 17))))))

def DEntry.ofBytes (bytes : List Byte) : DEntry where
  Gamecode := fromBE (bytes.take 4)
  Filename := (bytes.drop 0x08).take 0x20
  CopyCounter := fromBE ((bytes.drop 0x35).take 1)
  FirstBlock := fromBE ((bytes.drop 0x36).take 2)
  BlockCount := fromBE ((bytes.drop 0x38).take 2)
  Other := (bytes.drop 0x04).take 4 ++ ((bytes.drop 0x28).take 13 ++ (bytes.drop 0x3A).take 6)

variable {e : DEntry}

theorem DEntry.Fits.length_toBytes (h : e.Fits) : e.toBytes.length = DENTRY_SIZE := by
  simp [toBytes, h.Filename, h.Other, DENTRY_SIZE]

theorem DEntry.Fits.ofBytes_toBytes (h : e.Fits) : ofBytes e.toBytes = e := by
  have hother : e.Other.take 4 ++ ((e.Other.drop 4).take 13 ++ e.Other.drop 17) = e.Other := by
    have hdrop : e.Other.drop 17 = (e.Other.drop 4).drop 13 := by rw [List.drop_drop]
    rw [hdrop, List.take_append_drop, List.take_append_drop]
  simp [ofBytes, toBytes, List.drop_append, h.Filename, h.Other, fromBE_toBE_of_lt h.Gamecode,
    fromBE_toBE_of_lt h.CopyCounter, fromBE_toBE_of_lt h.FirstBlock,
    fromBE_toBE_of_lt h.BlockCount, List.drop_eq_nil_of_le, List.take_of_length_le, hother]

/-! ## the formats of a file -/

/-- `ByteSwap` of a byte and the next one. -/
def byteSwap (bytes : List Byte) (i : Nat) : List Byte :=
  (bytes.set i (bytes.getD (i + 1) 0)).set (i + 1) (bytes.getD i 0)

/-- Where the pairs begin that `.sav` files swap. -/
def savPairs : List Nat :=
  [0x06, 0x2C, 0x2E, 0x30, 0x32, 0x34, 0x36, 0x38, 0x3A, 0x3C, 0x3E]

def gcsSavConvert (saveType : SaveType) (length : Int) (tempDEntry : List Byte) : List Byte :=
  match saveType with
  | .GCS =>
    tempDEntry.take 0x38 ++ (toBE 2 (BitVec.ofInt 16 (length.tdiv BLOCK_SIZE)).toNat ++
      tempDEntry.drop 0x3A)
  | .SAV => savPairs.foldl byteSwap tempDEntry
  | .GCI => tempDEntry

/-- The letters that a file of this type begins with. -/
def SaveType.magic : SaveType → String
  | .GCI => ""
  | .GCS => "GCSAVE"
  | .SAV => "DATELGC_SAVE"

/-- `gcsHDR`, `savHDR` -/
def fileHeader (saveType : SaveType) : List Byte :=
  nameBytes saveType.magic ++ List.replicate (saveType.offset - saveType.magic.length) 0

/-- `strcasecmp(fileType, name) == 0`, for a name in lower case. -/
def hasType (fileType name : String) : Bool := fileType.toList.map Char.toLower == name.toList

/-- The type of a file, from its extension. -/
def saveType? (fileType : String) : Option SaveType :=
  if hasType fileType ".gci" then some .GCI
  else if hasType fileType ".gcs" then some .GCS
  else if hasType fileType ".sav" then some .SAV
  else none

/-- Where a byte comes from in a swap. -/
def swapIndex (i k : Nat) : Nat := if k = i then i + 1 else if k = i + 1 then i else k

@[simp] theorem length_byteSwap (bytes : List Byte) (i : Nat) :
    (byteSwap bytes i).length = bytes.length := by
  simp [byteSwap]

theorem getElem?_byteSwap {bytes : List Byte} {i : Nat} (h : i + 1 < bytes.length) (k : Nat) :
    (byteSwap bytes i)[k]? = bytes[swapIndex i k]? := by
  grind [byteSwap, swapIndex]

theorem length_foldl_byteSwap (pairs : List Nat) (bytes : List Byte) :
    (pairs.foldl byteSwap bytes).length = bytes.length := by
  induction pairs generalizing bytes with
  | nil => rfl
  | cons i pairs ih => simp [ih]

theorem getElem?_foldl_byteSwap {pairs : List Nat} {bytes : List Byte}
    (h : ∀ i ∈ pairs, i + 1 < bytes.length) (k : Nat) :
    (pairs.foldl byteSwap bytes)[k]? = bytes[pairs.foldr swapIndex k]? := by
  induction pairs generalizing bytes with
  | nil => rfl
  | cons i pairs ih =>
    have hi := h i (by simp)
    have hpairs : ∀ j ∈ pairs, j + 1 < (byteSwap bytes i).length := by
      simpa using fun j hj => h j (by simp [hj])
    rw [List.foldl_cons, ih hpairs, getElem?_byteSwap hi, List.foldr_cons]

/-- The bytes that `.sav` files swap are back after a second time. -/
theorem foldl_byteSwap_savPairs {bytes : List Byte} (h : bytes.length = DENTRY_SIZE) :
    savPairs.foldl byteSwap (savPairs.foldl byteSwap bytes) = bytes := by
  have hin : ∀ i ∈ savPairs, i + 1 < DENTRY_SIZE := by decide
  have hback : ∀ k < DENTRY_SIZE, savPairs.foldr swapIndex (savPairs.foldr swapIndex k) = k := by
    decide
  have hlen := (length_foldl_byteSwap savPairs bytes).trans h
  refine List.ext_getElem?' fun k hk => ?_
  rw [length_foldl_byteSwap, hlen, h, max_self] at hk
  rw [getElem?_foldl_byteSwap fun i hi => (hin i hi).trans_eq hlen.symm,
    getElem?_foldl_byteSwap fun i hi => (hin i hi).trans_eq h.symm, hback k hk]

theorem DEntry.Fits.gcsSavConvert (h : e.Fits) (saveType : SaveType) :
    gcsSavConvert saveType (e.BlockCount * BLOCK_SIZE : Nat)
      (gcsSavConvert saveType BLOCK_SIZE e.toBytes) = e.toBytes := by
  cases saveType with
  | GCI => rfl
  | SAV =>
    simp only [Memcard.gcsSavConvert]
    exact foldl_byteSwap_savPairs h.length_toBytes
  | GCS =>
    have hcount : ((e.BlockCount * BLOCK_SIZE : Nat) : Int).tdiv BLOCK_SIZE = e.BlockCount := by
      rw [Int.natCast_mul, Int.mul_tdiv_cancel _ (by decide)]
    have hnat : (BitVec.ofInt 16 (e.BlockCount : Int)).toNat = e.BlockCount := by
      rw [BitVec.ofInt_natCast, BitVec.toNat_ofNat]
      exact Nat.mod_eq_of_lt h.BlockCount
    have hsame : e.toBytes.take 0x38 ++ (toBE 2 e.BlockCount ++ e.toBytes.drop 0x3A) = e.toBytes := by
      simp [toBytes, List.take_append, List.drop_append, h.Filename, h.Other,
        List.drop_eq_nil_of_le, List.take_of_length_le]
    have hlen := h.length_toBytes
    simp only [Memcard.gcsSavConvert, hcount, hnat]
    simp [List.drop_append, hlen, DENTRY_SIZE, hsame, List.drop_eq_nil_of_le]

/-! ## export, import and copy -/

namespace GCMemcard

/-- `ExportGci`: what it returns, and the file as it leaves it. -/
def exportGci (s : GCMemcard) (index : Nat) (fileType : String) :
    Option (FileCode × List Byte) :=
  let saveType := (saveType? fileType).getD .GCI
  let gci := fileHeader saveType
  if s.m_valid = false ∨ DIRLEN ≤ index then some (.code .NOMEMCARD, gci)
  else
    let gci := gci ++ gcsSavConvert saveType BLOCK_SIZE (s.currentDir.Dir index).toBytes
    if s.dEntryBlockCount index = 0xFFFF then some (.code .FAIL, gci)
    else
      (s.getSaveData index).map fun r =>
        if r.1 = .SUCCESS then (.code .SUCCESS, gci ++ r.2.flatMap GCMBlock.block)
        else (.code r.1, gci)

/-- A block whose first bytes are read from a file. -/
def readBlock (bytes : List Byte) : GCMBlock :=
  ⟨(bytes ++ List.replicate BLOCK_SIZE 0xFF).take BLOCK_SIZE, by simp⟩

/-- `ImportGciInternal` before it writes: the type of the file, then what it reads. -/
def readGci (fileType : String) (gci : List Byte) : Option (Except FileCode (DEntry × List GCMBlock)) :=
  match saveType? fileType with
  | none => some (.error .OPENFAIL)
  | some saveType =>
    if gci.length < saveType.magic.length then none
    else if gci.take saveType.magic.length ≠ nameBytes saveType.magic then
      some (.error (if saveType = .GCS then .GCSFAIL else .SAVFAIL))
    else
      let start := (gci.drop saveType.offset).take DENTRY_SIZE
      let length : Int := gci.length - (saveType.offset + start.length : Nat)
      let tempDEntry := DEntry.ofBytes (gcsSavConvert saveType length
        (start ++ List.replicate (DENTRY_SIZE - start.length) 0xFF))
      if length ≠ (tempDEntry.BlockCount * BLOCK_SIZE : Nat) then some (.error .LENGTHFAIL)
      else
        some (.ok (tempDEntry, (List.range tempDEntry.BlockCount).map fun i =>
          readBlock ((gci.drop (saveType.offset + DENTRY_SIZE + BLOCK_SIZE * i)).take BLOCK_SIZE)))

/-- `ImportGci` into the card. -/
def importGci (s : GCMemcard) (fileType : String) (gci : List Byte) :
    Option (FileCode × GCMemcard) :=
  if s.m_valid = false then some (.OPENFAIL, s)
  else
    (readGci fileType gci).bind fun
      | .error code => some (code, s)
      | .ok save => (s.importFile save.1 save.2).map fun r => (.code r.1, r.2.1)

/-- `ImportGci` with the name of a file to write: what is written there. -/
def convertGci (fileType : String) (gci : List Byte) : Option (Except FileCode (List Byte)) :=
  (readGci fileType gci).map fun
    | .error code => .error code
    | .ok save => .ok (save.1.toBytes ++ save.2.flatMap GCMBlock.block)

def copyFrom (s source : GCMemcard) (index : Nat) : Option (FileCode × GCMemcard) :=
  if s.m_valid = false ∨ source.m_valid = false ∨ DIRLEN ≤ index then some (.code .NOMEMCARD, s)
  else if source.dEntryBlockCount index = 0xFFFF then some (.INVALIDFILESIZE, s)
  else
    (source.getSaveData index).bind fun r =>
      if r.1 = .SUCCESS then
        (s.importFile (source.currentDir.Dir index) r.2).map fun r => (.code r.1, r.2.1)
      else some (.code r.1, s)

theorem readBlock_block (b : GCMBlock) : readBlock b.block = b := by
  obtain ⟨block, hsize⟩ := b
  simp [readBlock, ← hsize]

variable {blocks : List GCMBlock} {s : GCMemcard}

theorem length_readBlocks {n block : Nat} (h : s.readBlocks n block = some (.SUCCESS, blocks)) :
    blocks.length = n := by
  induction n generalizing block blocks with
  | zero => cases h; rfl
  | succ n ih =>
    rw [readBlocks] at h
    split at h
    · cases h
    · split at h
      · obtain ⟨rest, hrest, hr⟩ := Option.map_eq_some_iff.mp h
        obtain ⟨hok, rfl⟩ := Prod.mk.inj hr
        rw [List.length_cons, ih (hrest.trans (congrArg some (Prod.ext hok rfl)))]
      · cases h

theorem length_gcsSavConvert {bytes : List Byte} (h : bytes.length = DENTRY_SIZE)
    (saveType : SaveType) (length : Int) :
    (gcsSavConvert saveType length bytes).length = DENTRY_SIZE := by
  cases saveType with
  | GCI => exact h
  | SAV => exact (length_foldl_byteSwap ..).trans h
  | GCS => simp [gcsSavConvert, h, DENTRY_SIZE]

theorem length_nameBytes (name : String) : (nameBytes name).length = name.length :=
  (List.length_map _).trans String.length_toList

theorem length_fileHeader (saveType : SaveType) :
    (fileHeader saveType).length = saveType.offset := by
  rw [fileHeader, List.length_append, List.length_replicate, length_nameBytes]
  cases saveType <;> rfl

theorem readBlock_flatMap {front : List Byte} {offset : Nat} (hfront : front.length = offset) :
    ((List.range blocks.length).map fun i => readBlock
      (((front ++ blocks.flatMap GCMBlock.block).drop (offset + BLOCK_SIZE * i)).take BLOCK_SIZE)) =
      blocks := by
  refine List.ext_getElem (by simp) fun i _ hi => ?_
  have hblock := take_drop_flatMap GCMBlock.size blocks i hi []
  rw [List.append_nil] at hblock
  rw [List.getElem_map, List.getElem_range, ← List.drop_drop, ← hfront, List.drop_left, hblock,
    readBlock_block]

variable {fileType : String}

/-- A file as an export writes it is read back. -/
theorem readGci_export {e : DEntry} (h : e.Fits) (hblocks : blocks.length = e.BlockCount)
    {saveType : SaveType} (htype : saveType? fileType = some saveType) :
    readGci fileType (fileHeader saveType ++ gcsSavConvert saveType BLOCK_SIZE e.toBytes ++
      blocks.flatMap GCMBlock.block) = some (.ok (e, blocks)) := by
  set entry := gcsSavConvert saveType BLOCK_SIZE e.toBytes with hentry
  set data := blocks.flatMap GCMBlock.block with hdata
  have hlenEntry : entry.length = DENTRY_SIZE := length_gcsSavConvert h.length_toBytes _ _
  have hlenData : data.length = e.BlockCount * BLOCK_SIZE := by
    rw [hdata, length_flatMap_of_length GCMBlock.size, hblocks, Nat.mul_comm]
  have hlen : (fileHeader saveType ++ entry ++ data).length =
      saveType.offset + DENTRY_SIZE + e.BlockCount * BLOCK_SIZE := by
    rw [List.length_append, List.length_append, length_fileHeader, hlenEntry, hlenData]
  have hstart : ((fileHeader saveType ++ entry ++ data).drop saveType.offset).take DENTRY_SIZE =
      entry := by
    rw [List.append_assoc]
    exact take_drop_append (length_fileHeader saveType) hlenEntry
  have hmagic : (fileHeader saveType ++ entry ++ data).take saveType.magic.length =
      nameBytes saveType.magic := by
    rw [fileHeader, List.append_assoc, List.append_assoc]
    exact List.take_left' (length_nameBytes _)
  have hlong : ¬ saveType.offset + DENTRY_SIZE + e.BlockCount * BLOCK_SIZE <
      saveType.magic.length := by
    have hle : saveType.magic.length ≤ saveType.offset := by cases saveType <;> decide
    omega
  have hrest : ((saveType.offset + DENTRY_SIZE + e.BlockCount * BLOCK_SIZE : Nat) -
      (saveType.offset + DENTRY_SIZE : Nat) : Int) = (e.BlockCount * BLOCK_SIZE : Nat) := by
    omega
  have hfront : (fileHeader saveType ++ entry).length = saveType.offset + DENTRY_SIZE := by
    rw [List.length_append, length_fileHeader, hlenEntry]
  have hof : DEntry.ofBytes (gcsSavConvert saveType (e.BlockCount * BLOCK_SIZE : Nat)
      (entry ++ List.replicate (DENTRY_SIZE - DENTRY_SIZE) 0xFF)) = e := by
    rw [Nat.sub_self, List.replicate_zero, List.append_nil, hentry, h.gcsSavConvert,
      h.ofBytes_toBytes]
  rw [readGci, htype]
  simp only [hlen, hstart, hlenEntry, hrest, hof]
  rw [if_neg hlong, if_neg (not_not.mpr hmagic), if_neg (by simp), ← hblocks,
    readBlock_flatMap hfront]

variable {index : Nat}

/-- The parts of a read that does not fail. -/
theorem getSaveData_success (h : s.getSaveData index = some (.SUCCESS, blocks)) :
    s.m_valid = true ∧ index < DIRLEN ∧ s.dEntryBlockCount index ≠ 0xFFFF ∧
      blocks.length = (s.currentDir.Dir index).BlockCount := by
  unfold getSaveData at h
  split at h
  · cases h
  · next hvalid =>
    split at h
    · cases h
    · next hfields =>
      have hcount : s.dEntryBlockCount index ≠ 0xFFFF := fun hc => hfields (.inr hc)
      have hlen := length_readBlocks h
      unfold dEntryBlockCount at hcount hlen
      split at hcount
      · exact absurd rfl hcount
      · next hin =>
        rw [if_neg hin] at hlen
        split at hcount
        · exact absurd rfl hcount
        · next hmax =>
          rw [if_neg hmax] at hlen
          exact ⟨by simpa using hvalid, by omega, by rwa [dEntryBlockCount, if_neg hin, if_neg hmax],
            hlen⟩

theorem exportGci_eq (h : s.getSaveData index = some (.SUCCESS, blocks)) {saveType : SaveType}
    (htype : saveType? fileType = some saveType) :
    s.exportGci index fileType = some (.code .SUCCESS, fileHeader saveType ++
      gcsSavConvert saveType BLOCK_SIZE (s.currentDir.Dir index).toBytes ++
      blocks.flatMap GCMBlock.block) := by
  obtain ⟨hvalid, hindex, hcount, -⟩ := getSaveData_success h
  simp [exportGci, htype, hvalid, hindex, hcount, h]

/-- **A save goes through a file unchanged**: a save that can be read from a card can be exported;
importing the file into another card does what copying from card to card does, and converting it
gives the file that the export writes as `.gci`. -/
theorem import_of_export {source s : GCMemcard} (hvalid : s.m_valid = true)
    (hfits : (source.currentDir.Dir index).Fits)
    (hsave : source.getSaveData index = some (.SUCCESS, blocks))
    (htype : saveType? fileType ≠ none) :
    ∃ file gci, source.exportGci index fileType = some (.code .SUCCESS, file) ∧
      source.exportGci index ".gci" = some (.code .SUCCESS, gci) ∧
      s.importGci fileType file = s.copyFrom source index ∧
      convertGci fileType file = some (.ok gci) := by
  obtain ⟨saveType, htype⟩ := Option.ne_none_iff_exists'.mp htype
  obtain ⟨hsource, hindex, hcount, hblocks⟩ := getSaveData_success hsave
  have hread := readGci_export hfits hblocks htype
  have hgci : saveType? ".gci" = some .GCI := rfl
  refine ⟨_, _, exportGci_eq hsave htype, exportGci_eq hsave hgci, ?_, ?_⟩
  · have hnot : ¬ DIRLEN ≤ index := Nat.not_le.mpr hindex
    rw [importGci, hread]
    simp [copyFrom, hvalid, hsource, hnot, hcount, hsave]
  · rw [convertGci, hread]
    rfl

/-- A card with one save of one block. -/
def oneSave : GCMemcard :=
  let card := format ⟨[]⟩ 4
  { card with
    dir_backup := ⟨Function.update (fun _ => .empty) 0
      ⟨0x47414645, List.replicate 0x20 0x41, 0, 5, 1, List.replicate 0x17 0⟩, 1⟩
    bat_backup := { card.bat_backup with
      Map := Function.update (fun _ => 0) 0 0xFFFF
      FreeBlocks := 58 } }

theorem import_of_export_oneSave : ∃ file gci,
    oneSave.exportGci 0 ".SAV" = some (.code .SUCCESS, file) ∧
      oneSave.exportGci 0 ".gci" = some (.code .SUCCESS, gci) ∧
      (format ⟨[]⟩ 4).importGci ".SAV" file = (format ⟨[]⟩ 4).copyFrom oneSave 0 ∧
      convertGci ".SAV" file = some (.ok gci) :=
  import_of_export rfl ⟨by decide, rfl, by decide, by decide, by decide, rfl⟩ rfl (by decide)

end GCMemcard

end DolphinCore.Memcard
