import DolphinCore.IOS.Formats
import DolphinCore.IOS.IOSC
import DolphinCore.IOS.SharedContentMap
import DolphinCore.Lib.FaultyProgram
import Mathlib.Data.List.AList
import Mathlib.Data.List.Sort

/-!
# DolphinCore.IOS.NandUtils

The part of the NAND that title imports work on, the state of ES, and the functions of
`IOS/ES/NandUtils.cpp` that move titles between `/title` and `/import`.

Every file operation is an action of its own, which may fail or be the last one.  Results that
the code does not look at are dropped here as well.
-/

namespace DolphinCore.IOS

/-- A title id -/
abbrev TitleId := BitVec 64

/-! ## the NAND -/

/-- The name of a file in the content directory of a title. -/
inductive Entry
  | titleTmd
  | app (id : BitVec 32)
  | other (name : List Byte)
deriving DecidableEq

/-- A content directory; no directory is inside of it. -/
abbrev Dir := AList fun _ : Entry => List Byte

/-- The two content directories of a title, `/title/…/content` and `/import/…/content`. -/
inductive Place
  | title
  | import
deriving DecidableEq

structure Nand where
  /-- `/sys/cert.sys` -/
  certSys : Option (List Byte)
  /-- `/ticket/…/….tik` -/
  ticket : TitleId → Option (List Byte)
  /-- the title directories in `/title` and in `/import` -/
  titleDirs : Place → List TitleId
  /-- the content directories in them -/
  content : Place → TitleId → Option Dir
  /-- `/tmp/title.tmd` -/
  tmpTmd : Option (List Byte)
  /-- `/tmp/….app` -/
  tmpApp : BitVec 32 → Option (List Byte)
  /-- `/tmp/shared1/cont` -/
  tmpMap : Option (List SharedContentMap.Entry)
  /-- `/shared1/content.map` -/
  contentMap : Option (List SharedContentMap.Entry)
  /-- the files `/shared1/….app`, by their paths -/
  shared : List Byte → Option (List Byte)

inductive Path
  | certSys
  | ticket (title : TitleId)
  | titleDir (place : Place) (title : TitleId)
  | contentDir (place : Place) (title : TitleId)
  | entry (place : Place) (title : TitleId) (entry : Entry)
  | dataDir (title : TitleId)
  | importDir
  | tmpTmd
  | tmpApp (id : BitVec 32)
  | tmpMap
  | contentMap
  | shared (path : List Byte)
deriving DecidableEq

/-- A file operation. -/
inductive Action
  | openFile (path : Path)
  | read (path : Path)
  | write (path : Path)
  | createDir (path : Path)
  | rename (src dest : Path)
  | delete (path : Path)
  | deleteDir (path : Path)
deriving DecidableEq

namespace Nand

/-- The NAND with another content directory. -/
def setContent (nand : Nand) (place : Place) (title : TitleId) (dir : Option Dir) : Nand :=
  let dirs := Function.update (nand.content place) title dir
  { nand with content := Function.update nand.content place dirs }

/-- A file of a content directory. -/
def file (nand : Nand) (place : Place) (title : TitleId) (entry : Entry) : Option (List Byte) :=
  (nand.content place title).bind fun dir => dir.lookup entry

/-- `mkdir` of a title directory -/
def createTitleDir (nand : Nand) (place : Place) (title : TitleId) : Nand :=
  if title ∈ nand.titleDirs place then nand
  else
    let titles := title :: nand.titleDirs place
    { nand with titleDirs := Function.update nand.titleDirs place titles }

/-- `mkdir` of a content directory -/
def createContentDir (nand : Nand) (place : Place) (title : TitleId) : Option Nand :=
  if title ∈ nand.titleDirs place then
    match nand.content place title with
    | some _ => some nand
    | none => some (nand.setContent place title (some ∅))
  else none

/-- `rename` of a content directory; what is there must be empty. -/
def renameContent (nand : Nand) (src dest : Place) (title : TitleId) : Option Nand :=
  match nand.content src title with
  | none => none
  | some dir =>
    if title ∈ nand.titleDirs dest ∧
        ((nand.content dest title).all fun present => present.keys.isEmpty) then
      some ((nand.setContent src title none).setContent dest title (some dir))
    else none

/-- `rename` onto a file of a content directory -/
def renameTo (nand : Nand) (place : Place) (title : TitleId) (entry : Entry)
    (data : List Byte) : Option Nand :=
  (nand.content place title).map fun dir =>
    nand.setContent place title (some (dir.insert entry data))

/-- `unlink` of a file of a content directory -/
def deleteEntry (nand : Nand) (place : Place) (title : TitleId) (entry : Entry) : Nand :=
  match nand.content place title with
  | none => nand
  | some dir => nand.setContent place title (some (dir.erase entry))

/-- `rmdir` of a content directory -/
def deleteContentDir (nand : Nand) (place : Place) (title : TitleId) : Option Nand :=
  match nand.content place title with
  | none => none
  | some dir => if dir.keys.isEmpty then some (nand.setContent place title none) else none

/-- `rmdir` of a title directory in `/import` -/
def deleteTitleDir (nand : Nand) (place : Place) (title : TitleId) : Option Nand :=
  match nand.content place title with
  | some _ => none
  | none =>
    let titles := (nand.titleDirs place).filter fun t => t ≠ title
    some { nand with titleDirs := Function.update nand.titleDirs place titles }

end Nand

/-! ## ES -/

/-- The return codes of ES, as far as they are used -/
inductive EsCode
  | IPC_SUCCESS
  | iosc (ret : ReturnCode)
  | ES_EINVAL
  | ES_EIO
  | ES_NO_TICKET
  | ES_INVALID_TICKET
  | ES_UNKNOWN_ISSUER
  | ES_HASH_MISMATCH
  | ES_SHORT_READ
  | ES_FD_EXHAUSTED
  | FS_ENOENT
  /-- any other number, such as a content descriptor -/
  | number (n : Int)
deriving DecidableEq

/-- A return code of IOSC, which ES passes on. -/
def EsCode.ofIosc : ReturnCode → EsCode
  | .IPC_SUCCESS => .IPC_SUCCESS
  | ret => .iosc ret

namespace ES

/-- `TitleImportExportContext::ContentContext`; the default value is a closed one. -/
structure ContentContext where
  valid : Bool := false
  id : BitVec 32 := 0
  iv : List Byte := List.replicate 16 0
  buffer : List Byte := []

structure TitleImportExportContext where
  valid : Bool := false
  tmd : TMDReader := TMDReader.empty
  key_handle : Nat := 0
  content : ContentContext := {}

structure Context where
  title_import_export : TitleImportExportContext := {}
  active : Bool := false
  ipc_fd : Int := -1

end ES

/-- The number of contexts. -/
def contextCount : Nat := 3

structure ES where
  m_iosc : IOSC
  m_contexts : Fin contextCount → ES.Context
  nand : Nand

/-- A program of ES. -/
abbrev Es (β : Type) := Prog Action ES β

namespace ES

/-! ## file operations -/

/-- An operation that changes the NAND. -/
def change (a : Action) (f : Nand → Option Nand) : Es Bool :=
  .attempt a fun s => (f s.nand).map fun nand => { s with nand := nand }

/-- An operation that leaves the NAND as it is, and is possible if there is something. -/
def probe (a : Action) (exists_ : Nand → Bool) : Es Bool :=
  .attempt a fun s => if exists_ s.nand then some s else none

/-- The bytes of a file that can be opened and read. -/
def readFile (path : Path) (file : Nand → Option (List Byte)) : Es (Option (List Byte)) := do
  if ← probe (.openFile path) fun nand => (file nand).isSome then
    let s ← .get
    if ← probe (.read path) fun _ => true then pure (file s.nand) else pure none
  else pure none

/-- `File::Delete` of an entry: one that does not exist is deleted. -/
def deleteEntry (place : Place) (title : TitleId) (entry : Entry) : Es Bool := do
  let s ← .get
  if (s.nand.file place title entry).isNone then pure true
  else change (.delete (.entry place title entry)) fun nand =>
    some (nand.deleteEntry place title entry)

/-- The names in a content directory. -/
def scanDirectory (place : Place) (title : TitleId) : Es (List Entry) := do
  let s ← .get
  pure (((s.nand.content place title).map fun dir => dir.keys).getD [])

/-- `File::DeleteDirRecursively` of a content directory -/
def deleteContentDir (place : Place) (title : TitleId) : Es Bool := do
  if ← probe (.openFile (.contentDir place title)) fun nand =>
      (nand.content place title).isSome then
    let entries ← scanDirectory place title
    if ← .forWhile (deleteEntry place title) entries then
      let _ ← change (.deleteDir (.contentDir place title)) fun nand =>
        nand.deleteContentDir place title
      pure true
    else pure false
  else pure false

/-- `File::CreateFullPath`, up to a title directory -/
def createTitleDir (place : Place) (title : TitleId) : Es Unit := do
  let _ ← change (.createDir (.titleDir place title)) fun nand =>
    some (nand.createTitleDir place title)

/-- `File::CreateFullPath`, up to a content directory -/
def createContentDir (place : Place) (title : TitleId) : Es Unit := do
  createTitleDir place title
  let _ ← change (.createDir (.contentDir place title)) fun nand =>
    nand.createContentDir place title

/-- `File::Rename` of a content directory -/
def renameContent (src dest : Place) (title : TitleId) : Es Bool :=
  change (.rename (.contentDir src title) (.contentDir dest title)) fun nand =>
    nand.renameContent src dest title

/-! ## imports -/

/-- `FindTMD`, for `FindInstalledTMD` and `FindImportTMD` -/
def findTMD (place : Place) (title : TitleId) : Es TMDReader := do
  match ← readFile (.entry place title .titleTmd) fun nand => nand.file place title .titleTmd with
  | some bytes => pure ⟨bytes⟩
  | none => pure .empty

/-- `InitImport`: the directories are made, and the contents of an installed title are moved. -/
def initImport (title : TitleId) : Es Bool := do
  createContentDir .title title
  let _ ← probe (.createDir (.dataDir title)) fun _ => true
  let s ← .get
  if (s.nand.file .title title .titleTmd).isSome then
    createTitleDir .import title
    renameContent .title .import title
  else pure true

/-- The entries that a title with this metadata has. -/
def expectedEntries (tmd : TMDReader) : List Entry :=
  .titleTmd :: tmd.getContents.map fun content => .app content.id

def finishImport (tmd : TMDReader) : Es Bool := do
  let title := tmd.getTitleId
  let entries ← scanDirectory .import title
  let _ ← .forWhile (fun entry => do
      let _ ← deleteEntry .import title entry
      pure true)
    (entries.filter fun entry => entry ∉ expectedEntries tmd)
  let s ← .get
  if (s.nand.content .title title).isSome then
    let _ ← deleteContentDir .title title
    renameContent .import .title title
  else renameContent .import .title title

def writeImportTMD (tmd : TMDReader) : Es Bool := do
  if ← change (.openFile .tmpTmd) fun nand => some { nand with tmpTmd := some [] } then
    if ← change (.write .tmpTmd) fun nand => some { nand with tmpTmd := some tmd.m_bytes } then
      change (.rename .tmpTmd (.entry .import tmd.getTitleId .titleTmd)) fun nand =>
        nand.tmpTmd.bind fun data =>
          ({ nand with tmpTmd := none }).renameTo .import tmd.getTitleId .titleTmd data
    else pure false
  else pure false

def finishStaleImport (title : TitleId) : Es Unit := do
  let import_tmd ← findTMD .import title
  if !import_tmd.isValid then
    let _ ← deleteContentDir .import title
  else
    let _ ← finishImport import_tmd

/-- `GetTitleImports`: the titles from the highest id down -/
def getTitleImports : Es (List TitleId) := do
  let s ← .get
  pure ((s.nand.titleDirs .import).insertionSort fun a b => b.toNat ≤ a.toNat)

/-- `File::DeleteDirRecursively` of a title directory in `/import` -/
def deleteTitleDir (title : TitleId) : Es Bool := do
  let s ← .get
  if (s.nand.content .import title).isSome then
    if ← deleteContentDir .import title then
      let _ ← change (.deleteDir (.titleDir .import title)) fun nand =>
        nand.deleteTitleDir .import title
      pure true
    else pure false
  else
    let _ ← change (.deleteDir (.titleDir .import title)) fun nand =>
      nand.deleteTitleDir .import title
    pure true

/-- `FinishAllStaleImports`, which ends with an empty `/import` -/
def finishAllStaleImports : Es Unit := do
  let titles ← getTitleImports
  let _ ← .forWhile (fun title => do
      finishStaleImport title
      pure true) titles
  let s ← .get
  let _ ← .forWhile deleteTitleDir (s.nand.titleDirs .import)

end ES

end DolphinCore.IOS
