import DolphinCore.IOS.TitleManagement

/-!
# DolphinCore.IOS.NandFrames

What every program keeps that works on the NAND only: a relation that allows each of the
changes of the NAND is kept by all of them.
-/

namespace DolphinCore.IOS

/-! ## what operations leave alone -/

/-- Nothing but directories, and the metadata in `/tmp`, differs. -/
structure Nand.DirsOnly (nand nand' : Nand) : Prop where
  certSys : nand'.certSys = nand.certSys
  ticket : nand'.ticket = nand.ticket
  tmpApp : nand'.tmpApp = nand.tmpApp
  tmpMap : nand'.tmpMap = nand.tmpMap
  contentMap : nand'.contentMap = nand.contentMap
  shared : nand'.shared = nand.shared

namespace Nand

variable {nand nand' : Nand} {p q : Place} {t : TitleId}

theorem DirsOnly.refl (nand : Nand) : DirsOnly nand nand := ⟨rfl, rfl, rfl, rfl, rfl, rfl⟩

theorem dirsOnly_setContent (dir : Option Dir) : DirsOnly nand (nand.setContent p t dir) :=
  ⟨rfl, rfl, rfl, rfl, rfl, rfl⟩

theorem dirsOnly_createTitleDir : DirsOnly nand (nand.createTitleDir p t) := by
  unfold createTitleDir
  split
  · exact .refl nand
  · exact ⟨rfl, rfl, rfl, rfl, rfl, rfl⟩

theorem dirsOnly_createContentDir (h : nand.createContentDir p t = some nand') :
    DirsOnly nand nand' := by
  unfold createContentDir at h
  split at h
  · split at h
    · cases h
      exact .refl nand
    · cases h
      exact dirsOnly_setContent _
  · cases h

theorem dirsOnly_renameContent (h : nand.renameContent p q t = some nand') :
    DirsOnly nand nand' := by
  unfold renameContent at h
  split at h
  · cases h
  · rw [Option.ite_none_right_eq_some] at h
    cases h.2
    exact ⟨rfl, rfl, rfl, rfl, rfl, rfl⟩

theorem dirsOnly_deleteEntry (entry : Entry) : DirsOnly nand (nand.deleteEntry p t entry) := by
  unfold deleteEntry
  split
  · exact .refl nand
  · exact dirsOnly_setContent _

theorem dirsOnly_deleteContentDir (h : nand.deleteContentDir p t = some nand') :
    DirsOnly nand nand' := by
  unfold deleteContentDir at h
  split at h
  · cases h
  · rw [Option.ite_none_right_eq_some] at h
    cases h.2
    exact dirsOnly_setContent _

theorem dirsOnly_deleteTitleDir (h : nand.deleteTitleDir p t = some nand') :
    DirsOnly nand nand' := by
  unfold deleteTitleDir at h
  split at h
  · cases h
  · cases h
    exact ⟨rfl, rfl, rfl, rfl, rfl, rfl⟩

theorem dirsOnly_renameTo {entry : Entry} {data : List Byte}
    (h : nand.renameTo p t entry data = some nand') : DirsOnly nand nand' := by
  obtain ⟨dir, -, rfl⟩ := Option.map_eq_some_iff.mp h
  exact dirsOnly_setContent _

end Nand

/-! ## relations that allow operations -/

/-- A relation that allows certificates to be stored. -/
structure AllowsCerts (R : ES → ES → Prop) : Prop where
  openCerts : ∀ s, R s { s with nand := { s.nand with certSys := some (s.nand.certSys.getD []) } }
  addCert : ∀ s cert, R s { s with
      nand := { s.nand with certSys := s.nand.certSys.map fun store => store ++ cert } }

/-- A relation that allows what is done to the directories of titles. -/
structure AllowsDirs (R : ES → ES → Prop) : Prop extends AllowsCerts R where
  createTitleDir : ∀ s place title, R s { s with nand := s.nand.createTitleDir place title }
  createContentDir : ∀ s place title nand, s.nand.createContentDir place title = some nand →
    R s { s with nand := nand }
  renameContent : ∀ s src dest title nand, s.nand.renameContent src dest title = some nand →
    R s { s with nand := nand }
  deleteEntry : ∀ s place title entry, R s { s with nand := s.nand.deleteEntry place title entry }
  deleteContentDir : ∀ s place title nand, s.nand.deleteContentDir place title = some nand →
    R s { s with nand := nand }
  deleteTitleDir : ∀ s place title nand, s.nand.deleteTitleDir place title = some nand →
    R s { s with nand := nand }
  /-- the metadata that is moved is the one that was written before -/
  writeImportTMD : ∀ tmd, (ES.writeImportTMD tmd).Keeps R

/-- A relation that allows what is done to the NAND, one operation at a time. -/
structure Allows (R : ES → ES → Prop) : Prop extends AllowsDirs R where
  tmpApp : ∀ s tmpApp, R s { s with nand := { s.nand with tmpApp := tmpApp } }
  tmpMap : ∀ s tmpMap, R s { s with nand := { s.nand with tmpMap := tmpMap } }
  contentMap : ∀ s contentMap, R s { s with nand := { s.nand with contentMap := contentMap } }
  shared : ∀ s shared, R s { s with nand := { s.nand with shared := shared } }
  renameApp : ∀ s place title id data nand,
    s.nand.renameTo place title (.app id) data = some nand → R s { s with nand := nand }

theorem AllowsDirs.of_dirsOnly {R : ES → ES → Prop} [IsPreorder ES R] (hcerts : AllowsCerts R)
    (h : ∀ s nand, s.nand.DirsOnly nand → R s { s with nand := nand }) : AllowsDirs R where
  toAllowsCerts := hcerts
  createTitleDir s _ _ := h s _ Nand.dirsOnly_createTitleDir
  createContentDir s _ _ nand hnand := h s nand (Nand.dirsOnly_createContentDir hnand)
  renameContent s _ _ _ nand hnand := h s nand (Nand.dirsOnly_renameContent hnand)
  deleteEntry s _ _ entry := h s _ (Nand.dirsOnly_deleteEntry entry)
  deleteContentDir s _ _ nand hnand := h s nand (Nand.dirsOnly_deleteContentDir hnand)
  deleteTitleDir s _ _ nand hnand := h s nand (Nand.dirsOnly_deleteTitleDir hnand)
  writeImportTMD tmd := by
    have hchange : ∀ a f, (∀ nand nand', f nand = some nand' → nand.DirsOnly nand') →
        (ES.change a f).Keeps R := by
      intro a f hf
      refine Prog.keeps_attempt fun s t ht => ?_
      obtain ⟨nand, hnand, rfl⟩ := Option.map_eq_some_iff.mp ht
      exact h s nand (hf _ _ hnand)
    have htmp : ∀ nand tmpTmd, Nand.DirsOnly nand { nand with tmpTmd := tmpTmd } :=
      fun _ _ => ⟨rfl, rfl, rfl, rfl, rfl, rfl⟩
    refine Prog.keeps_bind (hchange _ _ ?_) fun _ => Prog.keeps_ite
      (Prog.keeps_bind (hchange _ _ ?_) fun _ => Prog.keeps_ite (hchange _ _ ?_)
        (Prog.keeps_pure _)) (Prog.keeps_pure _)
    · intro nand nand' hnand
      cases hnand
      exact htmp nand _
    · intro nand nand' hnand
      cases hnand
      exact htmp nand _
    · intro nand nand' hnand
      obtain ⟨data, -, hdata⟩ := Option.bind_eq_some_iff.mp hnand
      obtain ⟨dir, -, rfl⟩ := Option.map_eq_some_iff.mp hdata
      exact ⟨rfl, rfl, rfl, rfl, rfl, rfl⟩

theorem Allows.of_nand {R : ES → ES → Prop} [IsPreorder ES R]
    (h : ∀ s nand, R s { s with nand := nand }) : Allows R where
  toAllowsDirs := .of_dirsOnly ⟨fun s => h s _, fun s _ => h s _⟩ fun s nand _ => h s nand
  tmpApp s _ := h s _
  tmpMap s _ := h s _
  contentMap s _ := h s _
  shared s _ := h s _
  renameApp s _ _ _ _ nand _ := h s nand

namespace ES

open Prog

variable {R : ES → ES → Prop}

/-! ## file operations -/

variable {a : Action}

section

variable {F : Faults Action} {C : ES → Prop} {U : Prop} {s : ES}

theorem wp_change {f : Nand → Option Nand} {Q : Bool → ES → Prop}
    (hdone : ∀ n nand, F n a = .done → f s.nand = some nand → Q true { s with nand := nand })
    (hfails : ∀ n, F n a = .fails ∨ F n a = .done ∧ f s.nand = none → Q false s)
    (hcrash : ∀ n, F n a = .crash → C s) : wp F C U (change a f) s Q := by
  refine wp_attempt (fun n t hF ht => ?_) (fun n hF => hfails n (hF.imp_right ?_)) hcrash
  · obtain ⟨nand, hnand, rfl⟩ := Option.map_eq_some_iff.mp ht
    exact hdone n nand hF hnand
  · exact fun h => ⟨h.1, Option.map_eq_none_iff.mp h.2⟩

theorem wp_probe {exists_ : Nand → Bool} {Q : Bool → ES → Prop}
    (hdone : exists_ s.nand = true → Q true s) (hfails : Q false s) (hcrash : C s) :
    wp F C U (probe a exists_) s Q := by
  refine wp_attempt (fun _ t _ ht => ?_) (fun _ _ => hfails) fun _ _ => hcrash
  obtain ⟨hexists, hst⟩ := Option.ite_none_right_eq_some.mp ht
  cases hst
  exact hdone hexists

end

theorem keeps_change {f : Nand → Option Nand} [IsPreorder ES R]
    (h : ∀ s nand, f s.nand = some nand → R s { s with nand := nand }) : (change a f).Keeps R := by
  refine keeps_attempt fun s t ht => ?_
  obtain ⟨nand, hnand, rfl⟩ := Option.map_eq_some_iff.mp ht
  exact h s nand hnand

theorem keeps_change_some {f : Nand → Nand} [IsPreorder ES R]
    (h : ∀ s, R s { s with nand := f s.nand }) : (change a fun nand => some (f nand)).Keeps R :=
  keeps_change fun s nand hnand => by
    cases hnand
    exact h s

theorem keeps_probe {exists_ : Nand → Bool} [IsPreorder ES R] : (probe a exists_).Keeps R := by
  refine keeps_attempt fun s t ht => ?_
  obtain ⟨-, hst⟩ := Option.ite_none_right_eq_some.mp ht
  cases hst
  exact refl_of R s

theorem keeps_readFile [IsPreorder ES R] (path : Path) (file : Nand → Option (List Byte)) :
    (readFile path file).Keeps R :=
  keeps_bind keeps_probe fun _ => keeps_ite
    (keeps_bind keeps_get fun _ => keeps_bind keeps_probe fun _ =>
      keeps_ite (keeps_pure _) (keeps_pure _))
    (keeps_pure _)

theorem keeps_scanDirectory [IsPreorder ES R] (place : Place) (title : TitleId) :
    (scanDirectory place title).Keeps R :=
  keeps_bind keeps_get fun _ => keeps_pure _

theorem keeps_findTMD [IsPreorder ES R] (place : Place) (title : TitleId) :
    (findTMD place title).Keeps R :=
  keeps_bind (keeps_readFile _ _) fun file => by
    cases file with
    | some bytes => exact keeps_pure _
    | none => exact keeps_pure _

theorem keeps_readCertStore [IsPreorder ES R] (cfg : Config) : (readCertStore cfg).Keeps R :=
  keeps_ite (keeps_pure _) (keeps_bind keeps_probe fun _ => keeps_ite
    (keeps_bind keeps_probe fun _ => keeps_ite (keeps_bind keeps_get fun _ => keeps_pure _)
      (keeps_pure _))
    (keeps_pure _))

theorem keeps_findSignedTicket [IsPreorder ES R] (title : TitleId) :
    (findSignedTicket title).Keeps R :=
  keeps_bind (keeps_readFile _ _) fun file => by
    cases file with
    | some bytes => exact keeps_pure _
    | none => exact keeps_pure _

theorem keeps_readMapEntries [IsPreorder ES R] :
    (entries : List SharedContentMap.Entry) → (readMapEntries entries).Keeps R
  | [] => keeps_pure _
  | _ :: entries => keeps_bind keeps_probe fun _ => keeps_ite
      (keeps_bind (keeps_readMapEntries entries) fun _ => keeps_pure _) (keeps_pure _)

theorem keeps_loadSharedContentMap [IsPreorder ES R] : loadSharedContentMap.Keeps R :=
  keeps_bind keeps_probe fun _ => keeps_ite
    (keeps_bind keeps_get fun _ => keeps_bind (keeps_readMapEntries _) fun _ => keeps_pure _)
    (keeps_pure _)

theorem keeps_keepsSharedContent [IsPreorder ES R] (sha1 : BitVec 160) (title : TitleId) :
    (keepsSharedContent sha1 title).Keeps R :=
  keeps_ite (keeps_pure _) (keeps_bind (keeps_findTMD _ _) fun _ =>
    keeps_ite (keeps_pure _) (keeps_pure _))

theorem keeps_writeNewCertToStore [IsPreorder ES R] (h : AllowsCerts R) (cfg : Config)
    (cert : List Byte) :
    (writeNewCertToStore cfg cert).Keeps R :=
  keeps_bind (keeps_readCertStore cfg) fun _ => keeps_ite (keeps_pure _)
    (keeps_bind (keeps_change_some fun s => h.openCerts s) fun _ => keeps_ite
      (keeps_bind (keeps_change_some fun s => h.addCert s cert) fun _ =>
        keeps_ite (keeps_pure _) (keeps_pure _))
      (keeps_pure _))

/-! ## directories and files -/

section

variable [IsPreorder ES R] (h : AllowsDirs R)

include h

theorem keeps_deleteEntry (place : Place) (title : TitleId) (entry : Entry) :
    (deleteEntry place title entry).Keeps R :=
  keeps_bind keeps_get fun _ => keeps_ite (keeps_pure _)
    (keeps_change_some fun s => h.deleteEntry s place title entry)

theorem keeps_deleteContentDir (place : Place) (title : TitleId) :
    (deleteContentDir place title).Keeps R :=
  keeps_bind keeps_probe fun _ => keeps_ite
    (keeps_bind (keeps_scanDirectory _ _) fun _ =>
      keeps_bind (keeps_forWhile (keeps_deleteEntry h place title) _) fun _ => keeps_ite
        (keeps_bind (keeps_change fun s nand => h.deleteContentDir s place title nand) fun _ =>
          keeps_pure _)
        (keeps_pure _))
    (keeps_pure _)

theorem keeps_createTitleDir (place : Place) (title : TitleId) :
    (createTitleDir place title).Keeps R :=
  keeps_bind (keeps_change_some fun s => h.createTitleDir s place title) fun _ => keeps_pure _

theorem keeps_createContentDir (place : Place) (title : TitleId) :
    (createContentDir place title).Keeps R :=
  keeps_bind (keeps_createTitleDir h place title) fun _ =>
    keeps_bind (keeps_change fun s nand => h.createContentDir s place title nand) fun _ =>
      keeps_pure _

theorem keeps_renameContent (src dest : Place) (title : TitleId) :
    (renameContent src dest title).Keeps R :=
  keeps_change fun s nand => h.renameContent s src dest title nand

theorem keeps_initImport (title : TitleId) : (initImport title).Keeps R :=
  keeps_bind (keeps_createContentDir h _ _) fun _ => keeps_bind keeps_probe fun _ =>
    keeps_bind keeps_get fun _ => keeps_ite
      (keeps_bind (keeps_createTitleDir h _ _) fun _ => keeps_renameContent h _ _ _)
      (keeps_pure _)

theorem keeps_finishImport (tmd : TMDReader) : (finishImport tmd).Keeps R :=
  keeps_bind (keeps_scanDirectory _ _) fun _ =>
    keeps_bind (keeps_forWhile (fun _ => keeps_bind (keeps_deleteEntry h _ _ _) fun _ =>
      keeps_pure _) _) fun _ =>
    keeps_bind keeps_get fun _ => keeps_ite
      (keeps_bind (keeps_deleteContentDir h _ _) fun _ => keeps_renameContent h _ _ _)
      (keeps_renameContent h _ _ _)

theorem keeps_finishStaleImport (title : TitleId) : (finishStaleImport title).Keeps R :=
  keeps_bind (keeps_findTMD _ _) fun _ => keeps_ite
    (keeps_bind (keeps_deleteContentDir h _ _) fun _ => keeps_pure _)
    (keeps_bind (keeps_finishImport h _) fun _ => keeps_pure _)

theorem keeps_finishCancelled (context : TitleImportExportContext) :
    (finishCancelled context).Keeps R :=
  keeps_ite (keeps_finishStaleImport h _) (keeps_pure _)

end

/-! ## shared contents -/

section

variable [IsPreorder ES R] (h : Allows R)

include h

theorem keeps_writeEntries (entries : List SharedContentMap.Entry) :
    (writeEntries entries).Keeps R := by
  refine keeps_bind (keeps_change_some fun s => h.tmpMap s _) fun _ => keeps_ite
    (keeps_bind (keeps_change_some fun s => h.tmpMap s _) fun _ => keeps_ite
      (keeps_change fun s nand hnand => ?_) (keeps_pure _)) (keeps_pure _)
  obtain ⟨written, -, rfl⟩ := Option.map_eq_some_iff.mp hnand
  exact trans_of R (h.tmpMap s none) (h.contentMap _ _)

theorem keeps_addSharedContent (map : SharedContentMap) (sha1 : BitVec 160) :
    (addSharedContent map sha1).Keeps R := by
  unfold addSharedContent
  split
  · exact keeps_pure _
  · exact keeps_bind (keeps_writeEntries h _) fun _ => keeps_pure _

theorem keeps_contentPath (title : TitleId) (info : Content) (id : BitVec 32) :
    (contentPath title info id).Keeps R :=
  keeps_ite
    (keeps_bind keeps_loadSharedContentMap fun _ =>
      keeps_bind (keeps_addSharedContent h _ _) fun _ => keeps_pure _)
    (keeps_bind (keeps_createContentDir h.toAllowsDirs _ _) fun _ => keeps_pure _)

theorem keeps_writeTmpApp (id : BitVec 32) (data : List Byte) : (writeTmpApp id data).Keeps R :=
  keeps_bind (keeps_change_some fun s => h.tmpApp s _) fun _ => keeps_ite
    (keeps_change_some fun s => h.tmpApp s _) (keeps_pure _)

theorem keeps_renameTmpApp (id : BitVec 32) (content_path : ContentPath) :
    (renameTmpApp id content_path).Keeps R := by
  refine keeps_change fun s nand hnand => ?_
  obtain ⟨data, -, hdata⟩ := Option.bind_eq_some_iff.mp hnand
  refine trans_of R (h.tmpApp s (Function.update s.nand.tmpApp id none)) ?_
  cases content_path with
  | shared path =>
    cases hdata
    exact h.shared _ _
  | imported title content => exact h.renameApp _ _ _ _ data nand hdata

theorem keeps_storeContent (id : BitVec 32) (data : List Byte) (content_path : ContentPath) :
    (storeContent id data content_path).Keeps R :=
  keeps_bind (keeps_writeTmpApp h _ _) fun _ => keeps_ite
    (keeps_bind (keeps_renameTmpApp h _ _) fun _ => keeps_ite (keeps_pure _) (keeps_pure _))
    (keeps_pure _)

theorem keeps_deleteSharedFile (path : List Byte) : (deleteSharedFile path).Keeps R :=
  keeps_bind keeps_get fun _ => keeps_ite (keeps_pure _)
    (keeps_change_some fun s => h.shared s _)

theorem keeps_deleteSharedContent (sha1 : BitVec 160) : (deleteSharedContent sha1).Keeps R := by
  refine keeps_bind keeps_loadSharedContentMap fun map => ?_
  cases map.getFilenameFromSHA1 [] sha1 with
  | none => exact keeps_pure _
  | some path =>
    exact keeps_bind keeps_get fun _ =>
      keeps_bind (keeps_forWhile (fun _ =>
        keeps_bind (keeps_keepsSharedContent _ _) fun _ => keeps_pure _) _) fun _ => keeps_ite
        (keeps_bind (keeps_deleteSharedFile h _) fun _ => keeps_ite
          (keeps_bind (keeps_writeEntries h _) fun _ => keeps_ite (keeps_pure _) (keeps_pure _))
          (keeps_pure _))
        (keeps_pure _)

end

/-! ## calls -/

section

variable [IsPreorder ES R] (hiosc : ∀ s iosc, R s { s with m_iosc := iosc })
  (hcontexts : ∀ s contexts, R s { s with m_contexts := contexts })

include hiosc in
omit [IsPreorder ES R] in
theorem keeps_iosc {β : Type} (f : IOSC → β × IOSC) : (iosc f).Keeps R :=
  keeps_modifyGet fun s => hiosc s _

variable (i : Fin contextCount)

include hcontexts in
omit [IsPreorder ES R] in
theorem keeps_modifyContext (f : TitleImportExportContext → TitleImportExportContext) :
    (modifyContext i f).Keeps R :=
  keeps_modify fun s => hcontexts s _

theorem keeps_getContext : (getContext i).Keeps R :=
  keeps_bind keeps_get fun _ => keeps_pure _

include hiosc hcontexts in
theorem keeps_resetTitleImportContext : (resetTitleImportContext i).Keeps R :=
  keeps_bind (keeps_getContext i) fun _ =>
    keeps_bind (keeps_ite (keeps_iosc hiosc _) (keeps_pure _)) fun _ =>
      keeps_modifyContext hcontexts _ _

include hiosc in
theorem keeps_verifyContainer (h : AllowsCerts R) (cfg : Config) (type : VerifyContainerType) (mode : VerifyMode)
    (blob chain : List Byte) : (verifyContainer cfg type mode blob chain).Keeps R := by
  refine keeps_ite (keeps_pure _) (keeps_ite (keeps_pure _) ?_)
  cases findCerts type blob chain with
  | error ret => exact keeps_pure _
  | ok certs =>
    have hissuer : ∀ handle issuer, (verifyWithIssuer cfg mode blob certs handle issuer).Keeps R :=
      fun handle issuer => keeps_bind (keeps_iosc hiosc _) fun _ => keeps_ite (keeps_pure _)
        (keeps_bind keeps_get fun _ => keeps_ite (keeps_pure _) (keeps_ite
          (keeps_bind (keeps_writeNewCertToStore h _ _) fun _ => keeps_writeNewCertToStore h _ _)
          (keeps_pure _)))
    have hca : ∀ handle, (verifyWithCa cfg mode blob certs handle).Keeps R := by
      refine fun handle => keeps_bind (keeps_iosc hiosc _) fun _ => keeps_ite (keeps_pure _)
        (keeps_bind (keeps_iosc hiosc _) ?_)
      rintro ⟨ret, _ | issuer⟩
      · exact keeps_pure _
      · exact keeps_bind (hissuer _ _) fun _ => keeps_bind (keeps_iosc hiosc _) fun _ =>
          keeps_pure _
    refine keeps_bind (keeps_iosc hiosc _) ?_
    rintro ⟨ret, _ | handle⟩
    · exact keeps_pure _
    · exact keeps_bind (hca _) fun _ => keeps_bind (keeps_iosc hiosc _) fun _ => keeps_pure _

include hiosc hcontexts in
theorem keeps_createKey : (createKey i).Keeps R := by
  refine keeps_bind (keeps_iosc hiosc _) ?_
  rintro ⟨ret, _ | handle⟩
  · exact keeps_pure _
  · exact keeps_bind (keeps_modifyContext hcontexts _ _) fun _ => keeps_pure _

include hiosc hcontexts in
theorem keeps_initBackupKey (cfg : Config) (i : Fin contextCount) : (initBackupKey cfg i).Keeps R :=
  keeps_ite keeps_undefined (keeps_ite
    (keeps_bind (keeps_modifyContext hcontexts _ _) fun _ => keeps_pure _)
    (keeps_bind (keeps_createKey hiosc hcontexts i) fun _ => keeps_ite
      (keeps_bind (keeps_getContext i) fun _ => keeps_bind (keeps_iosc hiosc _) fun _ =>
        keeps_pure _)
      (keeps_pure _)))

include hiosc hcontexts in
theorem keeps_initTitleImportKey (cfg : Config) (ticket : TicketReader) (i : Fin contextCount) :
    (initTitleImportKey cfg ticket i).Keeps R :=
  keeps_bind (keeps_createKey hiosc hcontexts i) fun _ => keeps_ite (keeps_pure _)
    (keeps_ite (keeps_pure _) (keeps_bind (keeps_getContext i) fun _ =>
      keeps_bind (keeps_iosc hiosc _) fun _ => keeps_pure _))

include hiosc hcontexts in
theorem keeps_importTitleKey (h : AllowsCerts R) (cfg : Config) (i : Fin contextCount)
    (title : TitleId) :
    (importTitleKey cfg i title).Keeps R :=
  keeps_bind (keeps_findSignedTicket title) fun _ => keeps_ite (keeps_pure _)
    (keeps_bind (keeps_readCertStore cfg) fun _ => keeps_ite (keeps_pure _)
      (keeps_bind (keeps_verifyContainer hiosc h _ _ _ _ _) fun _ => keeps_ite (keeps_pure _)
        (keeps_initTitleImportKey hiosc hcontexts _ _ _)))

section

variable (h : AllowsDirs R)

include h hiosc hcontexts

theorem keeps_importTmd (cfg : Config) (i : Fin contextCount) (tmd_bytes : List Byte) :
    (importTmd cfg i tmd_bytes).Keeps R :=
  keeps_bind (keeps_resetTitleImportContext hiosc hcontexts i) fun _ =>
    keeps_bind (keeps_modifyContext hcontexts _ _) fun _ => keeps_ite (keeps_pure _)
      (keeps_bind (keeps_readCertStore cfg) fun _ => keeps_ite (keeps_pure _)
        (keeps_bind (keeps_verifyContainer hiosc h.toAllowsCerts _ _ _ _ _) fun _ => keeps_ite (keeps_pure _)
          (keeps_bind (keeps_initImport h _) fun _ => keeps_ite
            (keeps_bind (keeps_initBackupKey hiosc hcontexts _ _) fun _ => keeps_ite (keeps_pure _)
              (keeps_bind (keeps_modifyContext hcontexts _ _) fun _ => keeps_pure _))
            (keeps_pure _))))

theorem keeps_importTitleInit (cfg : Config) (i : Fin contextCount)
    (tmd_bytes chain : List Byte) : (importTitleInit cfg i tmd_bytes chain).Keeps R :=
  keeps_bind (keeps_resetTitleImportContext hiosc hcontexts i) fun _ =>
    keeps_bind (keeps_modifyContext hcontexts _ _) fun _ => keeps_ite (keeps_pure _)
      (keeps_bind (keeps_finishStaleImport h _) fun _ =>
        keeps_bind (keeps_verifyContainer hiosc h.toAllowsCerts _ _ _ _ _) fun _ => keeps_ite (keeps_pure _)
          (keeps_bind (keeps_importTitleKey hiosc hcontexts h.toAllowsCerts _ _ _) fun _ =>
            keeps_ite (keeps_pure _) (keeps_bind (keeps_initImport h _) fun _ => keeps_ite
              (keeps_bind (keeps_modifyContext hcontexts _ _) fun _ => keeps_pure _)
              (keeps_pure _))))

omit h hiosc in
theorem keeps_importContentEnd (h : Allows R) (cfg : Config) (i : Fin contextCount) :
    (importContentEnd cfg i).Keeps R := by
  have hdecrypted : ∀ data, (importDecryptedContent cfg i data).Keeps R := by
    refine fun data => keeps_bind (keeps_getContext i) fun context => ?_
    cases context.tmd.findContentById context.content.id with
    | none => exact keeps_undefined
    | some info =>
      exact keeps_ite keeps_undefined (keeps_ite (keeps_pure _)
        (keeps_bind (keeps_contentPath h _ _ _) fun _ => keeps_bind (keeps_storeContent h _ _ _)
          fun _ => keeps_ite (keeps_pure _)
            (keeps_bind (keeps_modifyContext hcontexts _ _) fun _ => keeps_pure _)))
  refine keeps_bind keeps_get fun s => keeps_ite (keeps_pure _) ?_
  dsimp only
  split
  · exact hdecrypted _
  · exact keeps_pure _

/-- Two of the calls do more than the others: they store and delete contents. -/
theorem keeps_request (cfg : Config) (i : Fin contextCount) (req : Request)
    (hend : req = .importContentEnd → (importContentEnd cfg i).Keeps R)
    (hdelete : ∀ sha1, req = .deleteSharedContent sha1 → (deleteSharedContent sha1).Keeps R) :
    (request cfg i req).Keeps R := by
  cases req with
  | importTmd tmd_bytes =>
    exact keeps_ite (keeps_pure _) (keeps_importTmd hiosc hcontexts h cfg i tmd_bytes)
  | importTitleInit tmd_bytes chain =>
    exact keeps_ite (keeps_pure _) (keeps_importTitleInit hiosc hcontexts h cfg i tmd_bytes chain)
  | importContentBegin title_id content_id =>
    refine keeps_bind (keeps_getContext i) fun context => keeps_ite (keeps_pure _)
      (keeps_bind (keeps_modifyContext hcontexts _ _) fun _ => keeps_ite (keeps_pure _)
        (keeps_ite (keeps_pure _) ?_))
    cases context.tmd.findContentById content_id with
    | none => exact keeps_pure _
    | some info => exact keeps_bind (keeps_modifyContext hcontexts _ _) fun _ => keeps_pure _
  | importContentData data =>
    exact keeps_bind (keeps_modifyContext hcontexts _ _) fun _ => keeps_pure _
  | importContentEnd => exact hend rfl
  | importTitleDone =>
    exact keeps_bind (keeps_getContext i) fun _ => keeps_ite (keeps_pure _)
      (keeps_bind keeps_loadSharedContentMap fun _ => keeps_bind keeps_get fun _ =>
        keeps_ite (keeps_pure _) (keeps_bind (h.writeImportTMD _) fun _ => keeps_ite
          (keeps_bind (keeps_finishImport h _) fun _ => keeps_ite
            (keeps_bind (keeps_resetTitleImportContext hiosc hcontexts i) fun _ => keeps_pure _)
            (keeps_pure _))
          (keeps_pure _)))
  | importTitleCancel =>
    exact keeps_bind (keeps_getContext i) fun _ => keeps_ite (keeps_pure _)
      (keeps_bind (keeps_finishCancelled h _) fun _ =>
        keeps_bind (keeps_resetTitleImportContext hiosc hcontexts i) fun _ => keeps_pure _)
  | exportTitleInit title_id tmd_size =>
    exact keeps_bind (keeps_getContext i) fun _ => keeps_ite (keeps_pure _)
      (keeps_bind (keeps_findTMD _ _) fun _ => keeps_ite (keeps_pure _)
        (keeps_bind (keeps_resetTitleImportContext hiosc hcontexts i) fun _ =>
          keeps_bind (keeps_modifyContext hcontexts _ _) fun _ =>
            keeps_bind (keeps_initBackupKey hiosc hcontexts _ _) fun _ => keeps_ite (keeps_pure _)
              (keeps_ite (keeps_pure _)
                (keeps_bind (keeps_modifyContext hcontexts _ _) fun _ => keeps_pure _))))
  | exportContentBegin title_id content_id opened =>
    refine keeps_bind (keeps_modifyContext hcontexts _ _) fun _ =>
      keeps_bind (keeps_getContext i) fun context => keeps_ite (keeps_pure _) ?_
    cases context.tmd.findContentById content_id with
    | none => exact keeps_pure _
    | some info =>
      exact keeps_bind (keeps_modifyContext hcontexts _ _) fun _ => keeps_ite
        (keeps_bind (keeps_resetTitleImportContext hiosc hcontexts i) fun _ => keeps_pure _)
        (keeps_bind (keeps_modifyContext hcontexts _ _) fun _ => keeps_pure _)
  | exportContentData data data_size read_size =>
    exact keeps_ite (keeps_pure _) (keeps_bind keeps_get fun _ => keeps_ite
      (keeps_bind (keeps_modifyContext hcontexts _ _) fun _ => keeps_pure _)
      (keeps_ite
        (keeps_bind (keeps_resetTitleImportContext hiosc hcontexts i) fun _ => keeps_pure _)
        (keeps_pure _)))
  | exportContentEnd closed =>
    exact keeps_bind (keeps_getContext i) fun _ => keeps_ite (keeps_pure _) (keeps_pure _)
  | exportTitleDone =>
    exact keeps_bind (keeps_resetTitleImportContext hiosc hcontexts i) fun _ => keeps_pure _
  | deleteSharedContent sha1 => exact hdelete sha1 rfl

omit h in
theorem keeps_call (h : Allows R) (cfg : Config) (c : Call) : (call cfg c).Keeps R := by
  cases c with
  | openDevice fd =>
    refine keeps_bind keeps_get fun s => ?_
    cases s.findInactiveContext with
    | none => exact keeps_pure _
    | some i => exact keeps_bind (keeps_modify fun s => hcontexts s _) fun _ => keeps_pure _
  | close fd =>
    refine keeps_bind keeps_get fun s => ?_
    cases s.findActiveContext fd with
    | none => exact keeps_pure _
    | some i => exact keeps_bind (keeps_modify fun s => hcontexts s _) fun _ => keeps_pure _
  | ioctlv fd req =>
    refine keeps_bind keeps_get fun s => ?_
    cases s.findActiveContext fd with
    | none => exact keeps_pure _
    | some i =>
      exact keeps_request hiosc hcontexts h.toAllowsDirs cfg i req
        (fun _ => keeps_importContentEnd hcontexts h cfg i)
        fun sha1 _ => keeps_deleteSharedContent h sha1

omit h in
theorem of_step (h : Allows R) {cfg : Config} {s t : ES} {a : Call × Faults Action}
    (hstep : step cfg s a = some t) : R s t := by
  obtain ⟨⟨ret, u⟩, hexec, rfl⟩ := Option.map_eq_some_iff.mp hstep
  have hpost := (keeps_call hiosc hcontexts h cfg a.1).post a.2 s
  exact hpost.exec hexec

end

end

end ES

end DolphinCore.IOS
