import DolphinCore.IOS.NandUtils

/-!
# DolphinCore.IOS.TitleManagement

The contexts of ES, and the calls of `IOS/ES/TitleManagement.cpp` that import and export titles
and delete shared contents.

What happens to the key objects, to the contexts and to the NAND is followed through every
return.  Reading behind a buffer is undefined.
-/

namespace DolphinCore.IOS

def pidEs : Nat := 1

inductive VerifyContainerType
  | TMD
  | Ticket
deriving DecidableEq

inductive VerifyMode
  | DoNotUpdateCertStore
  | UpdateCertStore
deriving DecidableEq

/-- The certificates that a container is verified with. -/
structure Certs where
  ca_cert : List Byte
  issuer_cert : List Byte

/-- What the calls depend on and do not change. -/
structure Config where
  crypto : Crypto
  m_enable_signature_checks : Bool
  /-- `m_title_context.tmd` -/
  titleContextTmd : TMDReader

/-- The memory that holds a list of bytes. -/
def pointerTo (bytes : List Byte) : Pointer := fun i => bytes.getD i 0

/-- A hash as one number. -/
def hashNumber (sha1 : List Byte) : BitVec 160 := BitVec.ofNat 160 (Endian.fromBE sha1)

namespace ES

/-- A function of IOSC. -/
def iosc {β : Type} (f : IOSC → β × IOSC) : Es β :=
  .modifyGet fun s => ((f s.m_iosc).1, { s with m_iosc := (f s.m_iosc).2 })

/-- A change of `title_import_export` of a context. -/
def modifyContext (i : Fin contextCount)
    (f : TitleImportExportContext → TitleImportExportContext) : Es Unit :=
  .modify fun s =>
    let context := s.m_contexts i
    let context := { context with title_import_export := f context.title_import_export }
    { s with m_contexts := Function.update s.m_contexts i context }

/-- `title_import_export` of a context -/
def importExport (s : ES) (i : Fin contextCount) : TitleImportExportContext :=
  (s.m_contexts i).title_import_export

/-- A program that looks at a context. -/
def getContext (i : Fin contextCount) : Es TitleImportExportContext := do
  let s ← .get
  pure (s.importExport i)

/-- `CreateObject`; there is a handle on success only. -/
def createObject (type : ObjectType) (subtype : ObjectSubType) : Es (ReturnCode × Option Nat) :=
  iosc fun s =>
    let (ret, handle, s) := s.createObject type subtype pidEs
    ((ret, handle), s)

/-- `DeleteObject`, where the result is not looked at -/
def deleteObject (handle : Nat) : Es Unit :=
  iosc fun s => ((), (s.deleteObject handle pidEs).2)

/-! ## certificates -/

def readCertStore (cfg : Config) : Es (EsCode × List Byte) := do
  if !cfg.m_enable_signature_checks then pure (.IPC_SUCCESS, [])
  else if ← probe (.openFile .certSys) fun nand => nand.certSys.isSome then
    if ← probe (.read .certSys) fun _ => true then
      let s ← .get
      pure (.IPC_SUCCESS, s.nand.certSys.getD [])
    else pure (.ES_SHORT_READ, [])
  else pure (.FS_ENOENT, [])

def writeNewCertToStore (cfg : Config) (cert : List Byte) : Es EsCode := do
  let (ret, store) ← readCertStore cfg
  if ret = .IPC_SUCCESS ∧ (findCert store (certName cert)).isSome then pure .IPC_SUCCESS
  else if ← change (.openFile .certSys) fun nand =>
      some { nand with certSys := some (nand.certSys.getD []) } then
    if ← change (.write .certSys) fun nand =>
        some { nand with certSys := nand.certSys.map fun store => store ++ cert } then
      pure .IPC_SUCCESS
    else pure EsCode.ES_EIO
  else pure EsCode.ES_EIO

def isIssuerCorrect (type : VerifyContainerType) (issuer_cert : List Byte) : Bool :=
  match type with
  | .TMD => (certName issuer_cert).take 2 = [0x43, 0x50]
  | .Ticket => (certName issuer_cert).take 2 = [0x58, 0x53]

/-- `VerifyContainer`, up to the key objects: the certificates of the issuers. -/
def findCerts (type : VerifyContainerType) (blob chain : List Byte) : Except EsCode Certs :=
  match splitString (getIssuer blob) 0x2d with
  | [_, ca, issuer] =>
    match findCert chain issuer, findCert chain ca with
    | some issuer_cert, some ca_cert =>
      if !isIssuerCorrect type issuer_cert then .error .ES_EINVAL else .ok ⟨ca_cert, issuer_cert⟩
    | _, _ => .error .ES_UNKNOWN_ISSUER
  | _ => .error .ES_EINVAL

/-- The hash of a container, from the issuer on. -/
def blobHash (cfg : Config) (blob : List Byte) : List Byte :=
  cfg.crypto.sha1 (blob.drop 0x140)

/-- `VerifyContainer`, with both key objects. -/
def verifyWithIssuer (cfg : Config) (mode : VerifyMode) (blob : List Byte) (certs : Certs)
    (handle issuer_handle : Nat) : Es EsCode := do
  let ret ← iosc fun s =>
    s.importCertificate cfg.crypto (pointerTo certs.issuer_cert) handle issuer_handle pidEs
  if ret ≠ .IPC_SUCCESS then pure (.ofIosc ret)
  else
    let s ← .get
    let ret := s.m_iosc.verifyPublicKeySign cfg.crypto (blobHash cfg blob) issuer_handle
      (pointerTo (getSignatureData blob)) pidEs
    if ret ≠ .IPC_SUCCESS then pure (.ofIosc ret)
    else if mode = .UpdateCertStore then
      let _ ← writeNewCertToStore cfg certs.issuer_cert
      writeNewCertToStore cfg certs.ca_cert
    else pure .IPC_SUCCESS

/-- `VerifyContainer`, with the key object of the first certificate.  The second object is
deleted on every return. -/
def verifyWithCa (cfg : Config) (mode : VerifyMode) (blob : List Byte) (certs : Certs)
    (handle : Nat) : Es EsCode := do
  let ret ← iosc fun s =>
    s.importCertificate cfg.crypto (pointerTo certs.ca_cert) handleRootKey handle pidEs
  if ret ≠ .IPC_SUCCESS then pure (.ofIosc ret)
  else
    let (ret, issuer_handle) ← createObject .publicKey .rsa2048
    match issuer_handle with
    | none => pure (.ofIosc ret)
    | some issuer_handle =>
      let ret ← verifyWithIssuer cfg mode blob certs handle issuer_handle
      deleteObject issuer_handle
      pure ret

/-- `VerifyContainer`.  The first object is deleted on every return. -/
def verifyContainer (cfg : Config) (type : VerifyContainerType) (mode : VerifyMode)
    (blob chain : List Byte) : Es EsCode := do
  if !cfg.m_enable_signature_checks then pure .IPC_SUCCESS
  else if !isSignatureValid blob then pure .ES_EINVAL
  else
    match findCerts type blob chain with
    | .error ret => pure ret
    | .ok certs =>
      let (ret, handle) ← createObject .publicKey .rsa2048
      match handle with
      | none => pure (.ofIosc ret)
      | some handle =>
        let ret ← verifyWithCa cfg mode blob certs handle
        deleteObject handle
        pure ret

/-! ## keys of imports and exports -/

/-- The key of a context is deleted, if there is one. -/
def deleteKey (handle : Nat) : Es Unit :=
  if handle ≠ 0 then deleteObject handle else pure ()

def resetTitleImportContext (i : Fin contextCount) : Es Unit := do
  let context ← getContext i
  deleteKey context.key_handle
  modifyContext i fun _ => {}

/-- `CreateObject` of a secret key, whose handle goes into a context. -/
def createKey (i : Fin contextCount) : Es ReturnCode := do
  let (ret, handle) ← createObject .secretKey .aes128
  match handle with
  | none => pure ret
  | some handle =>
    modifyContext i fun context => { context with key_handle := handle }
    pure ret

def handleCommonKey : Nat := 4

def handlePrngKey : Nat := 5

/-- Whether `InitBackupKey` keeps to the zeroed key for a title. -/
def usesNullKey (tmd : TMDReader) : Bool :=
  let title_id := tmd.getTitleId ||| 0xff
  let affected_type : BitVec 32 := 0x10 ||| 0x8
  !(title_id = 0x0000000100000002 || tmd.getTitleFlags &&& affected_type ≠ affected_type ||
    !(title_id = 0x00010005735841ff || title_id - 0x00010005735a41ff ≤ 0x700))

/-- `InitBackupKey`, for the title that runs; without one its metadata cannot be read. -/
def initBackupKey (cfg : Config) (i : Fin contextCount) : Es EsCode := do
  if cfg.titleContextTmd.m_bytes.length < tmdHeaderSize then .undefined
  else if !usesNullKey cfg.titleContextTmd then
    modifyContext i fun context => { context with key_handle := handlePrngKey }
    pure .IPC_SUCCESS
  else
    let ret ← createKey i
    if ret = .IPC_SUCCESS then
      let context ← getContext i
      let ret ← iosc fun s => s.importDecryptedKey context.key_handle (fun _ => 0) pidEs
      pure (.ofIosc ret)
    else pure (.ofIosc ret)

def initTitleImportKey (cfg : Config) (ticket : TicketReader) (i : Fin contextCount) :
    Es EsCode := do
  let ret ← createKey i
  if ret ≠ .IPC_SUCCESS then pure (.ofIosc ret)
  else
    let iv := ticket.titleIdBytes ++ List.replicate 8 0
    let index := ticket.commonKeyIndex
    if 1 < index then pure .ES_INVALID_TICKET
    else
      let context ← getContext i
      let commonKey := if index = 0 then handleCommonKey else handleNewCommonKey
      let ret ← iosc fun s =>
        s.importSecretKey cfg.crypto context.key_handle commonKey iv (pointerTo ticket.titleKey)
          pidEs
      pure (.ofIosc ret)

/-! ## imports -/

def importTmd (cfg : Config) (i : Fin contextCount) (tmd_bytes : List Byte) : Es EsCode := do
  resetTitleImportContext i
  let tmd : TMDReader := ⟨tmd_bytes⟩
  modifyContext i fun context => { context with tmd := tmd }
  if !tmd.isValid then pure .ES_EINVAL
  else
    let (ret, cert_store) ← readCertStore cfg
    if ret ≠ .IPC_SUCCESS then pure ret
    else
      let ret ← verifyContainer cfg .TMD .UpdateCertStore tmd_bytes cert_store
      if ret ≠ .IPC_SUCCESS then pure ret
      else if ← initImport tmd.getTitleId then
        let ret ← initBackupKey cfg i
        if ret ≠ .IPC_SUCCESS then pure ret
        else
          modifyContext i fun context => { context with valid := true }
          pure .IPC_SUCCESS
      else pure EsCode.ES_EIO

def findSignedTicket (title : TitleId) : Es TicketReader := do
  match ← readFile (.ticket title) fun nand => nand.ticket title with
  | some bytes => pure ⟨bytes⟩
  | none => pure ⟨[]⟩

/-- `ImportTitleInit`, after the metadata was verified: the ticket is looked for, and the key
is made from it. -/
def importTitleKey (cfg : Config) (i : Fin contextCount) (title : TitleId) : Es EsCode := do
  let ticket ← findSignedTicket title
  if !ticket.isValid then pure .ES_NO_TICKET
  else
    let (ret, cert_store) ← readCertStore cfg
    if ret ≠ .IPC_SUCCESS then pure ret
    else
      let ret ← verifyContainer cfg .Ticket .DoNotUpdateCertStore ticket.m_bytes cert_store
      if ret ≠ .IPC_SUCCESS then pure ret
      else initTitleImportKey cfg ticket i

def importTitleInit (cfg : Config) (i : Fin contextCount) (tmd_bytes cert_chain : List Byte) :
    Es EsCode := do
  resetTitleImportContext i
  let tmd : TMDReader := ⟨tmd_bytes⟩
  modifyContext i fun context => { context with tmd := tmd }
  if !tmd.isValid then pure .ES_EINVAL
  else
    finishStaleImport tmd.getTitleId
    let ret ← verifyContainer cfg .TMD .UpdateCertStore tmd_bytes cert_chain
    if ret ≠ .IPC_SUCCESS then pure ret
    else
      let ret ← importTitleKey cfg i tmd.getTitleId
      if ret ≠ .IPC_SUCCESS then pure ret
      else if ← initImport tmd.getTitleId then
        modifyContext i fun context => { context with valid := true }
        pure .IPC_SUCCESS
      else pure EsCode.ES_EIO

/-- The initialization vector of a content: the bytes of its index, and zeros. -/
def contentIv (info : Content) : List Byte :=
  Endian.toBE 2 info.index.toNat ++ List.replicate 14 0

/-- `ImportContentBegin`; the descriptor that it returns is 0. -/
def importContentBegin (i : Fin contextCount) (title_id : TitleId) (content_id : BitVec 32) :
    Es EsCode := do
  let context ← getContext i
  if context.content.valid then pure .ES_EINVAL
  else
    modifyContext i fun context => { context with content := { id := content_id } }
    if !context.valid then pure .ES_EINVAL
    else if title_id ≠ context.tmd.getTitleId then pure .ES_EINVAL
    else
      match context.tmd.findContentById content_id with
      | none => pure .ES_EINVAL
      | some info =>
        modifyContext i fun context =>
          { context with content := { context.content with iv := contentIv info, valid := true } }
        pure .IPC_SUCCESS

def importContentData (i : Fin contextCount) (data : List Byte) : Es EsCode := do
  modifyContext i fun context =>
    { context with content := { context.content with buffer := context.content.buffer ++ data } }
  pure .IPC_SUCCESS

/-! ### shared contents -/

/-- The entries of `content.map` that can be read. -/
def readMapEntries : List SharedContentMap.Entry → Es (List SharedContentMap.Entry)
  | [] => pure []
  | entry :: entries => do
    if ← probe (.read .contentMap) fun _ => true then
      let rest ← readMapEntries entries
      pure (entry :: rest)
    else pure []

/-- The constructor of `SharedContentMap` -/
def loadSharedContentMap : Es SharedContentMap := do
  if ← probe (.openFile .contentMap) fun nand => nand.contentMap.isSome then
    let s ← .get
    let entries ← readMapEntries (s.nand.contentMap.getD [])
    pure (SharedContentMap.load entries)
  else pure (SharedContentMap.load [])

def writeEntries (entries : List SharedContentMap.Entry) : Es Bool := do
  if ← change (.openFile .tmpMap) fun nand => some { nand with tmpMap := some [] } then
    if ← change (.write .tmpMap) fun nand => some { nand with tmpMap := some entries } then
      change (.rename .tmpMap .contentMap) fun nand =>
        nand.tmpMap.map fun written => { nand with tmpMap := none, contentMap := some written }
    else pure false
  else pure false

/-- `AddSharedContent`: the path of the file for a hash. -/
def addSharedContent (map : SharedContentMap) (sha1 : BitVec 160) : Es (List Byte) := do
  match map.getFilenameFromSHA1 [] sha1 with
  | some filename => pure filename
  | none =>
    let id := formatId map.lastId
    let _ ← writeEntries (map.entries ++ [⟨id, sha1⟩])
    pure (SharedContentMap.appPath [] id)

/-! ### the end of a content -/

/-- Where a content goes. -/
inductive ContentPath
  | shared (path : List Byte)
  | imported (title : TitleId) (id : BitVec 32)
deriving DecidableEq

def ContentPath.path : ContentPath → Path
  | .shared path => .shared path
  | .imported title id => .entry .import title (.app id)

/-- `File::Rename` of a content in `/tmp` -/
def renameTmpApp (id : BitVec 32) (content_path : ContentPath) : Es Bool :=
  change (.rename (.tmpApp id) content_path.path) fun nand =>
    (nand.tmpApp id).bind fun data =>
      let nand := { nand with tmpApp := Function.update nand.tmpApp id none }
      match content_path with
      | .shared path => some { nand with shared := Function.update nand.shared path (some data) }
      | .imported title content => nand.renameTo .import title (.app content) data

/-- `WriteBytes` to a content in `/tmp` -/
def writeTmpApp (id : BitVec 32) (data : List Byte) : Es Bool := do
  if ← change (.openFile (.tmpApp id)) fun nand =>
      some { nand with tmpApp := Function.update nand.tmpApp id (some []) } then
    change (.write (.tmpApp id)) fun nand =>
      some { nand with tmpApp := Function.update nand.tmpApp id (some data) }
  else pure false

/-- `ImportContentEnd`: the content is written to `/tmp` and moved. -/
def storeContent (id : BitVec 32) (data : List Byte) (content_path : ContentPath) : Es EsCode := do
  if ← writeTmpApp id data then
    if ← renameTmpApp id content_path then pure .IPC_SUCCESS else pure EsCode.ES_EIO
  else pure EsCode.ES_EIO

/-- The path that a content goes to. -/
def contentPath (title : TitleId) (info : Content) (id : BitVec 32) : Es ContentPath := do
  if info.isShared then
    let map ← loadSharedContentMap
    let path ← addSharedContent map info.sha1
    pure (.shared path)
  else
    createContentDir .import title
    pure (.imported title id)

/-- `CheckIfContentHashMatches`, of bytes that are there -/
def checkIfContentHashMatches (cfg : Config) (data : List Byte) (info : Content) : Bool :=
  hashNumber (cfg.crypto.sha1 (data.take info.size)) = info.sha1

/-- `ImportContentEnd`, with the data decrypted.  The hash is taken over as many bytes as the
metadata says, whatever was supplied. -/
def importDecryptedContent (cfg : Config) (i : Fin contextCount) (data : List Byte) :
    Es EsCode := do
  let context ← getContext i
  match context.tmd.findContentById context.content.id with
  | none => .undefined
  | some info =>
    if data.length < info.size then .undefined
    else if !checkIfContentHashMatches cfg data info then pure .ES_HASH_MISMATCH
    else
      let content_path ← contentPath context.tmd.getTitleId info context.content.id
      let ret ← storeContent context.content.id (data.take info.size) content_path
      if ret ≠ .IPC_SUCCESS then pure ret
      else
        modifyContext i fun context => { context with content := {} }
        pure .IPC_SUCCESS

/-- `ImportContentEnd`; the buffer of the decrypted data is as long as the other one. -/
def importContentEnd (cfg : Config) (i : Fin contextCount) : Es EsCode := do
  let s ← .get
  let context := s.importExport i
  if !context.valid || !context.content.valid then pure .ES_EINVAL
  else
    let buffer := context.content.buffer
    match s.m_iosc.decryptEncrypt cfg.crypto false context.key_handle context.content.iv buffer
        pidEs with
    | (.IPC_SUCCESS, some (output, _)) =>
      importDecryptedContent cfg i ((pointerTo output).bytes buffer.length)
    | (ret, _) => pure (.ofIosc ret)

/-! ### the end of an import -/

/-- Whether a listed content is there, or does not have to be. -/
def hasContent (map : SharedContentMap) (nand : Nand) (title : TitleId) (content : Content) :
    Bool :=
  if content.isOptional then true
  else if content.isShared then (map.getFilenameFromSHA1 [] content.sha1).isSome
  else (nand.file .import title (.app content.id)).isSome

def importTitleDone (i : Fin contextCount) : Es EsCode := do
  let context ← getContext i
  if !context.valid || context.content.valid then pure .ES_EINVAL
  else
    let map ← loadSharedContentMap
    let s ← .get
    if !context.tmd.getContents.all (hasContent map s.nand context.tmd.getTitleId) then
      pure .ES_EINVAL
    else if ← writeImportTMD context.tmd then
      if ← finishImport context.tmd then
        resetTitleImportContext i
        pure .IPC_SUCCESS
      else pure EsCode.ES_EIO
    else pure EsCode.ES_EIO

/-- `ImportTitleCancel`, as far as it is about the NAND -/
def finishCancelled (context : TitleImportExportContext) : Es Unit :=
  if context.valid then finishStaleImport context.tmd.getTitleId else pure ()

def importTitleCancel (i : Fin contextCount) : Es EsCode := do
  let context ← getContext i
  if context.tmd.m_bytes.isEmpty || context.content.valid then pure .ES_EINVAL
  else
    finishCancelled context
    resetTitleImportContext i
    pure .IPC_SUCCESS

/-! ## exports -/

def exportTitleInit (cfg : Config) (i : Fin contextCount) (title_id : TitleId)
    (tmd_size : Nat) : Es EsCode := do
  let context ← getContext i
  if context.valid then pure .ES_EINVAL
  else
    let tmd ← findTMD .title title_id
    if !tmd.isValid then pure .FS_ENOENT
    else
      resetTitleImportContext i
      modifyContext i fun context => { context with tmd := tmd }
      let ret ← initBackupKey cfg i
      if ret ≠ .IPC_SUCCESS then pure ret
      else if tmd_size ≠ tmd.m_bytes.length then pure .ES_EINVAL
      else
        modifyContext i fun context => { context with valid := true }
        pure .IPC_SUCCESS

/-- `ExportContentBegin`; `opened` is what `OpenContent` returns. -/
def exportContentBegin (i : Fin contextCount) (title_id : TitleId) (content_id : BitVec 32)
    (opened : Int) : Es EsCode := do
  modifyContext i fun context => { context with content := {} }
  let context ← getContext i
  if !context.valid || context.tmd.getTitleId ≠ title_id then pure .ES_EINVAL
  else
    match context.tmd.findContentById content_id with
    | none => pure .ES_EINVAL
    | some info =>
      modifyContext i fun context =>
        { context with content := { context.content with id := content_id, valid := true } }
      if opened < 0 then
        resetTitleImportContext i
        pure (.number opened)
      else
        modifyContext i fun context =>
          { context with content := { context.content with iv := contentIv info } }
        pure (.number opened)

/-- `ExportContentData`; `data` says whether there is a buffer for the data, and `read_size` is
what `ReadContent` returns.  The refusal clears the context without deleting its key. -/
def exportContentData (cfg : Config) (i : Fin contextCount) (data : Bool) (data_size : Nat)
    (read_size : Int) : Es EsCode := do
  let s ← .get
  let context := s.importExport i
  if !context.valid || !context.content.valid || !data || data_size = 0 then
    modifyContext i fun _ => {}
    pure .ES_EINVAL
  else if read_size < 0 then
    resetTitleImportContext i
    pure .ES_SHORT_READ
  else
    let buffer := List.replicate ((data_size + 31) / 32 * 32) 0
    let ret := (s.m_iosc.decryptEncrypt cfg.crypto true context.key_handle context.content.iv
      buffer pidEs).1
    pure (.ofIosc ret)

/-- `ExportContentEnd`; `closed` is what `CloseContent` returns. -/
def exportContentEnd (i : Fin contextCount) (closed : EsCode) : Es EsCode := do
  let context ← getContext i
  if !context.valid || !context.content.valid then pure .ES_EINVAL
  else pure closed

def exportTitleDone (i : Fin contextCount) : Es EsCode := do
  resetTitleImportContext i
  pure .IPC_SUCCESS

/-! ## deleting shared contents -/

/-- `IsTitleType` with `TitleType::System` -/
def isSystemTitle (title : TitleId) : Bool := title >>> 32 = 1

/-- Whether the metadata of an installed system title keeps a shared content from being
deleted. -/
def keepsSharedContent (sha1 : BitVec 160) (title : TitleId) : Es Bool := do
  if !isSystemTitle title then pure false
  else
    let tmd ← findTMD .title title
    if !tmd.isValid then pure true
    else pure (tmd.getContents.any fun content => content.sha1 = sha1)

/-- `File::Delete` of the file of a shared content -/
def deleteSharedFile (path : List Byte) : Es Bool := do
  let s ← .get
  if (s.nand.shared path).isNone then pure true
  else change (.delete (.shared path)) fun nand =>
    some { nand with shared := Function.update nand.shared path none }

def deleteSharedContent (sha1 : BitVec 160) : Es EsCode := do
  let map ← loadSharedContentMap
  match map.getFilenameFromSHA1 [] sha1 with
  | none => pure .ES_EINVAL
  | some content_path =>
    let s ← .get
    if ← .forWhile (fun title => do
        let kept ← keepsSharedContent sha1 title
        pure !kept) (s.nand.titleDirs .title) then
      if ← deleteSharedFile content_path then
        if ← writeEntries (map.entries.filter fun entry => ¬ entry.sha1 = sha1) then
          pure .IPC_SUCCESS
        else pure EsCode.ES_EIO
      else pure .FS_ENOENT
    else pure .ES_EINVAL

/-! ## calls -/

/-- The calls on a context; `opened`, `read_size` and `closed` are the results of the functions
for contents. -/
inductive Request
  | importTmd (tmd_bytes : List Byte)
  | importTitleInit (tmd_bytes cert_chain : List Byte)
  | importContentBegin (title_id : TitleId) (content_id : BitVec 32)
  | importContentData (data : List Byte)
  | importContentEnd
  | importTitleDone
  | importTitleCancel
  | exportTitleInit (title_id : TitleId) (tmd_size : Nat)
  | exportContentBegin (title_id : TitleId) (content_id : BitVec 32) (opened : Int)
  | exportContentData (data : Bool) (data_size : Nat) (read_size : Int)
  | exportContentEnd (closed : EsCode)
  | exportTitleDone
  | deleteSharedContent (sha1 : BitVec 160)

/-- `IOCtlV`, on the context that was found, with vectors of the right number -/
def request (cfg : Config) (i : Fin contextCount) : Request → Es EsCode
  | .importTmd tmd_bytes =>
    if !isValidTMDSize tmd_bytes.length then pure .ES_EINVAL else importTmd cfg i tmd_bytes
  | .importTitleInit tmd_bytes cert_chain =>
    if !isValidTMDSize tmd_bytes.length then pure .ES_EINVAL
    else importTitleInit cfg i tmd_bytes cert_chain
  | .importContentBegin title_id content_id => importContentBegin i title_id content_id
  | .importContentData data => importContentData i data
  | .importContentEnd => importContentEnd cfg i
  | .importTitleDone => importTitleDone i
  | .importTitleCancel => importTitleCancel i
  | .exportTitleInit title_id tmd_size => exportTitleInit cfg i title_id tmd_size
  | .exportContentBegin title_id content_id opened =>
    exportContentBegin i title_id content_id opened
  | .exportContentData data data_size read_size =>
    if data_size = 0 then pure .ES_EINVAL else exportContentData cfg i data data_size read_size
  | .exportContentEnd closed => exportContentEnd i closed
  | .exportTitleDone => exportTitleDone i
  | .deleteSharedContent sha1 => deleteSharedContent sha1

def findActiveContext (s : ES) (fd : Int) : Option (Fin contextCount) :=
  (List.finRange contextCount).find? fun i =>
    (s.m_contexts i).ipc_fd = fd && (s.m_contexts i).active

def findInactiveContext (s : ES) : Option (Fin contextCount) :=
  (List.finRange contextCount).find? fun i => !(s.m_contexts i).active

/-- `Open`: the context that is taken is left as it is otherwise. -/
def openContext (fd : Int) : Es EsCode := do
  let s ← .get
  match s.findInactiveContext with
  | none => pure .ES_FD_EXHAUSTED
  | some i =>
    let context := { s.m_contexts i with active := true, ipc_fd := fd }
    .modify fun s => { s with m_contexts := Function.update s.m_contexts i context }
    pure .IPC_SUCCESS

/-- `Close` -/
def closeContext (fd : Int) : Es EsCode := do
  let s ← .get
  match s.findActiveContext fd with
  | none => pure .ES_EINVAL
  | some i =>
    let context := { s.m_contexts i with active := false, ipc_fd := -1 }
    .modify fun s => { s with m_contexts := Function.update s.m_contexts i context }
    pure .IPC_SUCCESS

/-- What comes in for the device `/dev/es`. -/
inductive Call
  | openDevice (fd : Int)
  | close (fd : Int)
  | ioctlv (fd : Int) (request : Request)

def call (cfg : Config) : Call → Es EsCode
  | .openDevice fd => openContext fd
  | .close fd => closeContext fd
  | .ioctlv fd req => do
    let s ← .get
    match s.findActiveContext fd with
    | none => pure .ES_EINVAL
    | some i => request cfg i req

/-- A call that returns, and what becomes of its file operations. -/
def step (cfg : Config) (s : ES) (a : Call × Faults Action) : Option ES :=
  ((call cfg a.1).exec a.2 s).map Prod.snd

end ES

end DolphinCore.IOS
