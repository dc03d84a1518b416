import DolphinCore.IOS.ImportKeys
import DolphinCore.Lib.Run

/-!
# DolphinCore.IOS.ImportRestart

An import can be started again in every state that calls on ES lead to: its key finds a free
object, and the directories of the title are in a state that `InitImport` can work with.
-/

namespace DolphinCore.IOS

/-! ## directories -/

namespace Nand

variable {nand nand' : Nand} {p q : Place} {t u : TitleId}

@[simp] theorem content_setContent (nand : Nand) (p q : Place) (t u : TitleId)
    (dir : Option Dir) : (nand.setContent p t dir).content q u =
      if q = p ∧ u = t then dir else nand.content q u := by
  unfold setContent
  by_cases hq : q = p
  · subst hq
    by_cases hu : u = t
    · subst hu
      simp
    · simp [hu]
  · simp [hq]

@[simp] theorem content_createTitleDir (nand : Nand) (p : Place) (t : TitleId) :
    (nand.createTitleDir p t).content = nand.content := by
  unfold createTitleDir
  split
  · rfl
  · rfl

/-- Metadata in the directory of a title is about that title. -/
def Filed (nand : Nand) : Prop :=
  ∀ p t bytes, nand.file p t .titleTmd = some bytes → (TMDReader.mk bytes).isValid = true →
    (TMDReader.mk bytes).getTitleId = t

theorem Filed.setContent (h : nand.Filed) {dir : Option Dir}
    (hdir : ∀ d bytes, dir = some d → d.lookup .titleTmd = some bytes →
      (TMDReader.mk bytes).isValid = true → (TMDReader.mk bytes).getTitleId = t) :
    (nand.setContent p t dir).Filed := by
  intro q u bytes hfile hvalid
  unfold file at hfile
  rw [content_setContent] at hfile
  split at hfile
  · next heq =>
    obtain ⟨rfl, rfl⟩ := heq
    obtain ⟨d, hd, hlookup⟩ := Option.bind_eq_some_iff.mp hfile
    exact hdir d bytes hd hlookup hvalid
  · exact h q u bytes hfile hvalid

theorem Filed.congr (h : nand.Filed) (hcontent : nand'.content = nand.content) : nand'.Filed := by
  intro q u bytes hfile
  unfold file at hfile
  rw [hcontent] at hfile
  exact h q u bytes hfile

theorem Filed.of_dir (h : nand.Filed) {dir : Dir} (hdir : nand.content p t = some dir)
    {bytes : List Byte} (hlookup : dir.lookup .titleTmd = some bytes)
    (hvalid : (TMDReader.mk bytes).isValid = true) : (TMDReader.mk bytes).getTitleId = t := by
  refine h p t bytes ?_ hvalid
  rw [file, hdir, Option.bind_some, hlookup]

theorem Filed.createContentDir (h : nand.Filed) (hnand : nand.createContentDir p t = some nand') :
    nand'.Filed := by
  unfold Nand.createContentDir at hnand
  split at hnand
  · split at hnand
    · cases hnand
      exact h
    · cases hnand
      refine h.setContent fun d bytes hd hlookup => ?_
      cases hd
      cases hlookup
  · cases hnand

theorem Filed.renameContent (h : nand.Filed) (hnand : nand.renameContent p q t = some nand') :
    nand'.Filed := by
  unfold Nand.renameContent at hnand
  split at hnand
  · cases hnand
  · next dir hdir =>
    rw [Option.ite_none_right_eq_some] at hnand
    obtain ⟨-, hnand⟩ := hnand
    cases hnand
    refine Filed.setContent ?_ fun d bytes hd hlookup => ?_
    · exact h.setContent fun d bytes hd => by cases hd
    · cases hd
      exact h.of_dir hdir hlookup

theorem Filed.deleteEntry (h : nand.Filed) (entry : Entry) :
    (nand.deleteEntry p t entry).Filed := by
  unfold Nand.deleteEntry
  split
  · exact h
  · next dir hdir =>
    refine h.setContent fun d bytes hd hlookup => ?_
    cases hd
    by_cases hentry : Entry.titleTmd = entry
    · subst hentry
      rw [AList.lookup_erase] at hlookup
      cases hlookup
    · rw [AList.lookup_erase_ne hentry] at hlookup
      exact h.of_dir hdir hlookup

theorem Filed.deleteContentDir (h : nand.Filed) (hnand : nand.deleteContentDir p t = some nand') :
    nand'.Filed := by
  unfold Nand.deleteContentDir at hnand
  split at hnand
  · cases hnand
  · rw [Option.ite_none_right_eq_some] at hnand
    obtain ⟨-, hnand⟩ := hnand
    cases hnand
    exact h.setContent fun d bytes hd => by cases hd

theorem Filed.renameTo (h : nand.Filed) {entry : Entry} {data : List Byte}
    (hentry : entry = .titleTmd → (TMDReader.mk data).isValid = true →
      (TMDReader.mk data).getTitleId = t)
    (hnand : nand.renameTo p t entry data = some nand') : nand'.Filed := by
  obtain ⟨dir, hdir, rfl⟩ := Option.map_eq_some_iff.mp hnand
  refine h.setContent fun d bytes hd hlookup => ?_
  cases hd
  by_cases htmd : Entry.titleTmd = entry
  · subst htmd
    cases hlookup
    exact hentry rfl
  · rw [AList.lookup_insert_ne htmd] at hlookup
    exact h.of_dir hdir hlookup

end Nand

/-- What calls do to the NAND, as far as starting an import depends on it: certificates are
only added, and metadata stays where it belongs. -/
structure Later (s t : ES) : Prop where
  ticket : t.nand.ticket = s.nand.ticket
  certSys : ∀ store, s.nand.certSys = some store → ∃ more, t.nand.certSys = some (store ++ more)
  filed : s.nand.Filed → t.nand.Filed

instance : IsPreorder ES Later where
  refl _ := ⟨rfl, fun store h => ⟨[], by rw [h, List.append_nil]⟩, id⟩
  trans s t u h h' := by
    refine ⟨h'.ticket.trans h.ticket, fun store hs => ?_, fun hfiled => h'.filed (h.filed hfiled)⟩
    obtain ⟨more, ht⟩ := h.certSys store hs
    obtain ⟨more', hu⟩ := h'.certSys _ ht
    exact ⟨more ++ more', by rw [hu, List.append_assoc]⟩

theorem Later.of_content {s t : ES} (hticket : t.nand.ticket = s.nand.ticket)
    (hcerts : t.nand.certSys = s.nand.certSys) (hfiled : s.nand.Filed → t.nand.Filed) :
    Later s t :=
  ⟨hticket, fun store h => ⟨[], by rw [hcerts, h, List.append_nil]⟩, hfiled⟩

theorem Later.of_dirsOnly {s : ES} {nand : Nand} (h : s.nand.DirsOnly nand)
    (hfiled : s.nand.Filed → nand.Filed) : Later s { s with nand := nand } :=
  .of_content h.ticket h.certSys hfiled

namespace ES

open Prog

variable {F : Faults Action} {C : ES → Prop} {U : Prop} {s : ES}

theorem keeps_writeImportTMD (tmd : TMDReader) : (writeImportTMD tmd).Keeps Later := by
  intro F s
  refine wp_bind (wp_change (fun _ nand _ hnand => ?_) (fun _ _ => ?_) fun _ _ => refl_of Later s)
  · cases hnand
    have hopen : Later s { s with nand := { s.nand with tmpTmd := some [] } } :=
      .of_content rfl rfl fun h => h.congr rfl
    refine wp_bind (wp_change (fun _ nand _ hnand => ?_) (fun _ _ => ?_) fun _ _ => hopen)
    · cases hnand
      have hwrite : Later s { s with nand := { s.nand with tmpTmd := some tmd.m_bytes } } :=
        .of_content rfl rfl fun h => h.congr rfl
      refine wp_ite (fun _ => ?_) fun hfail => absurd rfl hfail
      refine wp_change (fun _ nand _ hnand => ?_) (fun _ _ => hwrite) fun _ _ => hwrite
      refine trans_of Later hwrite ?_
      obtain ⟨dir, -, hdir⟩ := Option.map_eq_some_iff.mp hnand
      refine .of_content (by rw [← hdir]; rfl) (by rw [← hdir]; rfl) fun hfiled => ?_
      refine Nand.Filed.renameTo ?_ ?_ hnand
      · exact hfiled.congr rfl
      · exact fun _ _ => rfl
    · exact wp_pure hopen
  · exact wp_pure (refl_of Later s)

theorem allows_later : Allows Later where
  createTitleDir s p t :=
    .of_dirsOnly Nand.dirsOnly_createTitleDir fun h => h.congr (Nand.content_createTitleDir _ _ _)
  createContentDir s p t nand hnand :=
    .of_dirsOnly (Nand.dirsOnly_createContentDir hnand) fun h => h.createContentDir hnand
  renameContent s p q t nand hnand :=
    .of_dirsOnly (Nand.dirsOnly_renameContent hnand) fun h => h.renameContent hnand
  deleteEntry s p t entry :=
    .of_dirsOnly (Nand.dirsOnly_deleteEntry entry) fun h => h.deleteEntry entry
  deleteContentDir s p t nand hnand :=
    .of_dirsOnly (Nand.dirsOnly_deleteContentDir hnand) fun h => h.deleteContentDir hnand
  deleteTitleDir s p t nand hnand := by
    refine .of_dirsOnly (Nand.dirsOnly_deleteTitleDir hnand) fun h => h.congr ?_
    unfold Nand.deleteTitleDir at hnand
    split at hnand
    · cases hnand
    · cases hnand
      rfl
  tmpApp s _ := .of_content rfl rfl fun h => h.congr rfl
  tmpMap s _ := .of_content rfl rfl fun h => h.congr rfl
  contentMap s _ := .of_content rfl rfl fun h => h.congr rfl
  shared s _ := .of_content rfl rfl fun h => h.congr rfl
  openCerts s := by
    refine ⟨rfl, fun store h => ⟨[], ?_⟩, fun h => h.congr rfl⟩
    simp only
    rw [h, Option.getD_some, List.append_nil]
  addCert s cert := by
    refine ⟨rfl, fun store h => ⟨cert, ?_⟩, fun h => h.congr rfl⟩
    simp only
    rw [h, Option.map_some]
  renameApp s p t id data nand hnand := by
    have happ : Entry.app id = .titleTmd → (TMDReader.mk data).isValid = true →
        (TMDReader.mk data).getTitleId = t := nofun
    exact .of_dirsOnly (Nand.dirsOnly_renameTo hnand) fun h => h.renameTo happ hnand
  writeImportTMD := keeps_writeImportTMD

theorem later_of_step {cfg : Config} {s t : ES} {a : Call × Faults Action}
    (hstep : step cfg s a = some t) : Later s t :=
  of_step (fun _ _ => .of_content rfl rfl id) (fun _ _ => .of_content rfl rfl id) allows_later hstep

/-! ## the directories of a title -/

theorem total_change {a : Action} {f : Nand → Option Nand} {Q : Bool → ES → Prop}
    (hdone : ∀ nand, f s.nand = some nand → Q true { s with nand := nand })
    (hnone : f s.nand = none → Q false s) : Total (change a f) s Q :=
  wp_change (fun _ nand _ => hdone nand) (fun _ h => hnone (h.elim nofun fun h => h.2)) nofun

theorem total_probe {a : Action} {exists_ : Nand → Bool} {Q : Bool → ES → Prop}
    (h : Q (exists_ s.nand) s) : Total (probe a exists_) s Q := by
  refine wp_attempt (fun _ t _ ht => ?_) (fun _ hfails => ?_) nofun
  · obtain ⟨hexists, hst⟩ := Option.ite_none_right_eq_some.mp ht
    cases hst
    rwa [hexists] at h
  · obtain hfails | ⟨-, hnone⟩ := hfails
    · cases hfails
    · have hexists : exists_ s.nand = false := by
        rw [← Bool.not_eq_true]
        intro hexists
        rw [hexists] at hnone
        cases hnone
      rwa [hexists] at h

/-- The other content directories are the same. -/
def Others (p : Place) (t : TitleId) (s u : ES) : Prop :=
  ∀ q v, ¬ (q = p ∧ v = t) → u.nand.content q v = s.nand.content q v

variable {p : Place} {t : TitleId} {dir : Dir}

theorem total_deleteEntry (entry : Entry) (h : s.nand.content p t = some dir) :
    Total (deleteEntry p t entry) s fun done u => done = true ∧
      (∃ dir', u.nand.content p t = some dir' ∧ dir'.keys = dir.keys.erase entry) ∧
      Others p t s u := by
  refine wp_bind (wp_get (wp_ite (fun hnone => wp_pure ⟨rfl, ⟨dir, h, ?_⟩, fun _ _ _ => rfl⟩)
    fun _ => total_change (fun nand hnand => ?_) nofun))
  · rw [Nand.file, h, Option.bind_some, Option.isNone_iff_eq_none, AList.lookup_eq_none] at hnone
    exact (List.erase_of_not_mem hnone).symm
  · cases hnand
    rw [Nand.deleteEntry, h]
    refine ⟨rfl, ⟨dir.erase entry, ?_, AList.keys_erase ..⟩, fun q v hne => ?_⟩
    · simp
    · simp [hne]

theorem total_deleteContentDir (p : Place) (t : TitleId) (s : ES) :
    Total (deleteContentDir p t) s fun _ u => u.nand.content p t = none ∧ Others p t s u := by
  refine wp_bind (total_probe (wp_ite (fun hsome => ?_) fun hnone => ?_))
  · obtain ⟨dir, hdir⟩ := Option.isSome_iff_exists.mp hsome
    refine wp_bind (wp_bind (wp_get (wp_pure (wp_bind ?_))))
    rw [hdir, Option.map_some, Option.getD_some]
    refine wp_forWhile (fun entries u => Others p t s u ∧
      ∃ dir, u.nand.content p t = some dir ∧ ∀ entry ∈ dir.keys, entry ∈ entries) ?_ ?_ _
      ⟨fun _ _ _ => rfl, dir, hdir, fun _ => id⟩
    · rintro u ⟨hothers, dir', hdir', hkeys⟩
      refine wp_bind (total_change (fun nand hnand => wp_pure ?_) fun hnone => ?_)
      · rw [Nand.deleteContentDir, hdir', Option.ite_none_right_eq_some] at hnand
        cases hnand.2
        refine ⟨by simp, fun q v hne => ?_⟩
        simpa [hne] using hothers q v hne
      · have hempty : dir'.keys = [] := by
          rw [List.eq_nil_iff_forall_not_mem]
          exact fun entry hentry => absurd (hkeys entry hentry) List.not_mem_nil
        rw [Nand.deleteContentDir, hdir'] at hnone
        simp [hempty] at hnone
    · rintro entry entries u ⟨hothers, dir', hdir', hkeys⟩
      refine wp_mono (total_deleteEntry entry hdir') ?_
      rintro done v ⟨rfl, ⟨dir'', hdir'', hkeys''⟩, hothers'⟩
      refine ⟨fun q w hne => (hothers' q w hne).trans (hothers q w hne), dir'', hdir'', ?_⟩
      intro e he
      rw [hkeys''] at he
      have hne : e ≠ entry := by
        rintro rfl
        exact dir'.keys_nodup.not_mem_erase he
      exact (List.mem_cons.mp (hkeys e (List.mem_of_mem_erase he))).resolve_left hne
  · refine wp_pure ⟨?_, fun _ _ _ => rfl⟩
    rwa [Bool.not_eq_true, Option.isSome_eq_false_iff, Option.isNone_iff_eq_none] at hnone

/-- Not both directories of a title have contents, so that they can be moved. -/
def Movable (t : TitleId) (s : ES) : Prop :=
  s.nand.content .import t = none ∨ s.nand.content .title t = none

theorem total_renameImport (t : TitleId) (h : s.nand.content .title t = none) :
    Total (renameContent .import .title t) s fun _ u => Movable t u := by
  refine total_change (fun nand hnand => .inl ?_) fun _ => .inr h
  unfold Nand.renameContent at hnand
  split at hnand
  · cases hnand
  · rw [Option.ite_none_right_eq_some] at hnand
    cases hnand.2
    simp

theorem total_finishImport (tmd : TMDReader) (s : ES) :
    Total (finishImport tmd) s fun _ u => Movable tmd.getTitleId u := by
  refine wp_bind (wp_bind (wp_get (wp_pure (wp_bind ?_))))
  refine wp_forWhile (fun _ _ => True) (fun u _ => ?_) (fun entry _ u _ => ?_) _ trivial
  · refine wp_bind (wp_get (wp_ite (fun _ => ?_) fun hnone => ?_))
    · exact wp_bind (wp_mono (total_deleteContentDir .title tmd.getTitleId u) fun _ v hv =>
        total_renameImport _ hv.1)
    · refine total_renameImport _ ?_
      rwa [Bool.not_eq_true, Option.isSome_eq_false_iff, Option.isNone_iff_eq_none] at hnone
  · refine wp_bind (wp_bind (wp_get (wp_ite (fun _ => wp_pure (wp_pure trivial)) fun _ => ?_)))
    exact total_change (fun _ _ => wp_pure trivial) fun _ => wp_pure trivial

theorem total_readFile (path : Path) (file : Nand → Option (List Byte)) (s : ES) :
    Total (readFile path file) s fun bytes u => u = s ∧ bytes = file s.nand := by
  refine wp_bind (total_probe (wp_ite (fun _ => ?_) fun hnone => wp_pure ⟨rfl, ?_⟩))
  · exact wp_bind (wp_get (wp_bind (total_probe (wp_ite (fun _ => wp_pure ⟨rfl, rfl⟩)
      fun h => absurd rfl h))))
  · rw [Bool.not_eq_true, Option.isSome_eq_false_iff, Option.isNone_iff_eq_none] at hnone
    exact hnone.symm

theorem total_findTMD (p : Place) (t : TitleId) (s : ES) :
    Total (findTMD p t) s fun tmd u => u = s ∧ tmd = ⟨(s.nand.file p t .titleTmd).getD []⟩ := by
  refine wp_bind (wp_mono (total_readFile _ _ s) ?_)
  rintro bytes u ⟨rfl, rfl⟩
  cases hfile : u.nand.file p t .titleTmd with
  | some bytes => exact wp_pure ⟨rfl, rfl⟩
  | none => exact wp_pure ⟨rfl, rfl⟩

theorem total_findSignedTicket (t : TitleId) (s : ES) :
    Total (findSignedTicket t) s fun ticket u => u = s ∧ ticket = ⟨(s.nand.ticket t).getD []⟩ := by
  refine wp_bind (wp_mono (total_readFile _ _ s) ?_)
  rintro bytes u ⟨rfl, rfl⟩
  cases hfile : u.nand.ticket t with
  | some bytes => exact wp_pure ⟨rfl, rfl⟩
  | none => exact wp_pure ⟨rfl, rfl⟩

theorem total_readCertStore (cfg : Config) {store : List Byte}
    (hstore : cfg.m_enable_signature_checks = true → s.nand.certSys = some store) :
    Total (readCertStore cfg) s fun r u => u = s ∧
      r = (.IPC_SUCCESS, if cfg.m_enable_signature_checks then store else []) := by
  refine wp_ite (fun hoff => wp_pure ⟨rfl, ?_⟩) fun hon => ?_
  · rw [Bool.not_eq_true'] at hoff
    rw [hoff, if_neg Bool.false_ne_true]
  · rw [Bool.not_eq_true', Bool.not_eq_false] at hon
    have hsome := hstore hon
    refine wp_bind (total_probe (wp_ite (fun _ => ?_) fun hnone => ?_))
    · refine wp_bind (total_probe (wp_ite (fun _ => wp_bind (wp_get (wp_pure ⟨rfl, ?_⟩)))
        fun h => absurd rfl h))
      rw [hsome, hon, if_pos rfl, Option.getD_some]
    · rw [hsome] at hnone
      exact absurd rfl hnone

theorem total_finishStaleImport (hfiled : s.nand.Filed) (t : TitleId) :
    Total (finishStaleImport t) s fun _ u => Movable t u := by
  refine wp_bind (wp_mono (total_findTMD .import t s) ?_)
  rintro tmd u ⟨rfl, rfl⟩
  refine wp_ite (fun _ => ?_) fun hvalid => ?_
  · exact wp_bind (wp_mono (total_deleteContentDir .import t u) fun _ v hv => wp_pure (.inl hv.1))
  · rw [Bool.not_eq_true', Bool.not_eq_false] at hvalid
    refine wp_bind (wp_mono (total_finishImport _ u) fun _ v hv => wp_pure ?_)
    cases hfile : u.nand.file .import t .titleTmd with
    | none =>
      rw [hfile] at hvalid
      cases hvalid
    | some bytes =>
      rw [hfile] at hvalid hv
      rwa [Option.getD_some, hfiled _ _ _ hfile hvalid] at hv

theorem total_createContentDir (t : TitleId) (s : ES) :
    Total (createContentDir .title t) s fun _ u =>
      u.nand.content = s.nand.content ∨ u.nand.file .title t .titleTmd = none := by
  refine wp_bind (wp_bind (total_change (fun nand hnand => wp_pure ?_) nofun))
  cases hnand
  refine wp_bind (total_change (fun nand hnand => wp_pure ?_) fun _ => wp_pure ?_)
  · unfold Nand.createContentDir at hnand
    split at hnand
    · split at hnand
      · cases hnand
        exact .inl (Nand.content_createTitleDir _ _ _)
      · cases hnand
        right
        simp [Nand.file]
    · cases hnand
  · exact .inl (Nand.content_createTitleDir _ _ _)

theorem total_initImport (t : TitleId) (h : Movable t s) :
    Total (initImport t) s fun done _ => done = true := by
  refine wp_bind (wp_mono (total_createContentDir t s) fun _ u hu => ?_)
  refine wp_bind (total_probe (wp_bind (wp_get (wp_ite (fun hsome => ?_) fun _ => wp_pure rfl))))
  obtain ⟨bytes, hbytes⟩ := Option.isSome_iff_exists.mp hsome
  obtain hsame | hnone := hu
  · obtain ⟨dir, hdir, -⟩ := Option.bind_eq_some_iff.mp hbytes
    refine wp_bind (wp_bind (total_change (fun nand hnand => wp_pure ?_) nofun))
    cases hnand
    refine total_change (fun _ _ => rfl) fun hnone => ?_
    have himport : u.nand.content .import t = none := by
      rw [hsame]
      refine h.resolve_right fun htitle => ?_
      rw [hsame, htitle] at hdir
      cases hdir
    have hmem : t ∈ (u.nand.createTitleDir .import t).titleDirs .import := by
      unfold Nand.createTitleDir
      split
      · assumption
      · simp
    simp only [Nand.renameContent, Nand.content_createTitleDir] at hnone
    rw [hdir, himport] at hnone
    simp [hmem] at hnone
  · rw [hnone] at hbytes
    cases hbytes

end ES

end DolphinCore.IOS

namespace DolphinCore.IOSC

open IOS

/-! ## certificates -/

variable {s s' : IOSC} {i : Fin 32} {c : Crypto} {handle : Nat} {modulus exponent : List Byte}

/-- A public key that ES can verify with. -/
structure PublicKeyAt (s : IOSC) (handle : Nat) (modulus exponent : List Byte) : Prop where
  owned : s.hasOwnership handle pidEs = true
  entry : ∃ e, s.findEntryOrRoot handle = some e ∧ e.type = .publicKey ∧
    (e.subtype = .rsa2048 ∨ e.subtype = .rsa4096) ∧ e.data = modulus ∧ e.misc_data = exponent

/-- An object of ES. -/
structure Fresh (s : IOSC) (i : Fin 32) (type : ObjectType) (subtype : ObjectSubType) : Prop where
  late : 12 ≤ i.val
  in_use : (s.m_key_entries i).in_use = true
  type : (s.m_key_entries i).type = type
  subtype : (s.m_key_entries i).subtype = subtype
  owner : (s.m_key_entries i).owner_mask = pidMask pidEs

theorem hasOwnership_of_owner (huse : (s.m_key_entries i).in_use = true)
    (howner : pidMask pidEs &&& (s.m_key_entries i).owner_mask ≠ 0) :
    s.hasOwnership i.val pidEs = true := by
  unfold hasOwnership getOwnership findEntry
  rw [index_eq_some.mpr rfl, Option.map_some]
  simp only [huse, if_true, decide_true, Bool.true_and, Bool.or_eq_true, decide_eq_true_eq]
  exact .inr howner

theorem findEntryOrRoot_val (s : IOSC) (i : Fin 32) :
    s.findEntryOrRoot i.val = some (s.m_key_entries i) := by
  have hroot : i.val ≠ handleRootKey := by
    unfold handleRootKey
    omega
  rw [findEntryOrRoot, if_neg hroot, findEntry, index_eq_some.mpr rfl, Option.map_some]

theorem isDefaultHandle_of_late (h : 12 ≤ i.val) : isDefaultHandle i.val = false := by
  unfold isDefaultHandle handleNewCommonKey handleRootKey
  simp only [Bool.or_eq_false_iff, decide_eq_false_iff_not]
  omega

theorem Fresh.owned {type : ObjectType} {subtype : ObjectSubType} (h : Fresh s i type subtype) :
    s.hasOwnership i.val pidEs = true := by
  refine hasOwnership_of_owner h.in_use ?_
  rw [h.owner]
  decide

theorem PublicKeyAt.verify (h : PublicKeyAt s handle modulus exponent) (sha1 : List Byte)
    (signature : Pointer) (hsigned : rsaPkcs1Verify c modulus exponent sha1 signature = true) :
    s.verifyPublicKeySign c sha1 handle signature pidEs = .IPC_SUCCESS := by
  obtain ⟨e, he, htype, hsubtype, rfl, rfl⟩ := h.entry
  unfold verifyPublicKeySign
  rw [h.owned, he]
  simp [htype, hsubtype, hsigned]

/-- A certificate that is signed with a key, and the key it is for. -/
def Signs (c : Crypto) (key : List Byte × List Byte) (cert : Pointer)
    (key' : List Byte × List Byte) : Prop :=
  ∃ p, getImportCertParameters cert = some p ∧
    rsaPkcs1Verify c key.1 key.2 (c.sha1 ((cert.add p.offset).bytes p.size))
      (cert.add p.signature_offset) = true ∧
    key' = ((cert.add p.public_key_offset).bytes 256, (cert.add p.public_key_exponent_offset).bytes 4)

theorem PublicKeyAt.importCertificate {key key' : List Byte × List Byte} {cert : Pointer}
    (h : PublicKeyAt s handle key.1 key.2) (hsigns : Signs c key cert key')
    (hfresh : Fresh s i .publicKey .rsa2048) :
    ∃ s', s.importCertificate c cert handle i.val pidEs = (.IPC_SUCCESS, s') ∧
      PublicKeyAt s' i.val key'.1 key'.2 := by
  obtain ⟨p, hp, hverify, rfl⟩ := hsigns
  obtain ⟨e, he, htype, -⟩ := h.entry
  have hcheck := h.verify _ _ hverify
  have hindex : index i.val = some i := index_eq_some.mpr rfl
  have hentry : s.findEntry i.val = some (s.m_key_entries i) := by
    rw [findEntry, hindex, Option.map_some]
  unfold IOSC.importCertificate
  rw [h.owned, hfresh.owned, he, findEntryOrRoot_val, hp]
  simp only [Bool.not_true, Bool.or_self, Bool.false_eq_true, if_false, htype, hfresh.type,
    ne_eq, not_true_eq_false, or_self, hcheck]
  unfold importPublicKey
  rw [hfresh.owned, isDefaultHandle_of_late hfresh.late, hentry]
  simp only [Bool.not_true, Bool.or_self, Bool.false_eq_true, if_false, hfresh.type,
    hfresh.subtype, ne_eq, not_true_eq_false, getSizeForType, true_or, if_true,
    OfNat.ofNat_ne_zero]
  rw [setEntry_eq hindex]
  refine ⟨_, rfl, ?_, ?_⟩
  · refine hasOwnership_of_owner (i := i) ?_ ?_
    · simp [hfresh.in_use]
    · simp [hfresh.owner]
      decide
  · refine ⟨_, findEntryOrRoot_val _ i, ?_⟩
    simp

theorem PublicKeyAt.root {s0 : IOSC} {taken : Fin 32 → Prop} (h0 : IsInitial s0)
    (h : Holds s0 s taken) : PublicKeyAt s handleRootKey s0.m_root_key_entry.data
      s0.m_root_key_entry.misc_data where
  owned := by
    unfold hasOwnership
    rw [decide_eq_true rfl, Bool.true_or]
  entry := by
    refine ⟨s.m_root_key_entry, by rw [findEntryOrRoot, if_pos rfl], ?_⟩
    rw [h.root]
    exact ⟨h0.root.1, .inr h0.root.2.1, rfl, rfl⟩

theorem createObject_of_room {s0 : IOSC} {taken : Fin 32 → Prop} (h0 : IsInitial s0)
    (h : Holds s0 s taken) (hroom : ∃ k : Fin 32, 12 ≤ k.val ∧ ¬ taken k) (type : ObjectType)
    (subtype : ObjectSubType) :
    ∃ (i : Fin 32) (s' : IOSC), ¬ taken i ∧ Fresh s' i type subtype ∧
      s.createObject type subtype pidEs = (.IPC_SUCCESS, some i.val, s') ∧
      Holds s0 s' (fun j => taken j ∨ j = i) ∧
      ∀ j, j ≠ i → s'.m_key_entries j = s.m_key_entries j := by
  cases hfree : s.findFreeEntry with
  | none =>
    obtain ⟨k, hk, hnot⟩ := hroom
    have huse := List.find?_eq_none.mp hfree k (List.mem_finRange k)
    rw [Bool.not_eq_true', Bool.not_eq_false] at huse
    exact absurd ((h.used k hk).mp huse) hnot
  | some i =>
    obtain ⟨hi, hnot⟩ := h.create h0 hfree
    have hcreate := h.createObject h0 type subtype
    unfold IOSC.createObject at hcreate ⊢
    rw [hfree] at hcreate ⊢
    obtain ⟨_, _, hnone⟩ | ⟨j, s', -, -, hj, hholds⟩ := hcreate
    · cases hnone
    · simp only [Prod.mk.injEq, Option.some.injEq, true_and] at hj
      obtain ⟨hij, rfl⟩ := hj
      obtain rfl := Fin.ext hij
      refine ⟨i, _, hnot, ?_, rfl, hholds, fun k hk => ?_⟩
      · rw [setEntry_eq (index_eq_some.mpr rfl)]
        exact ⟨hi, by simp, by simp, by simp, by simp⟩
      · rw [setEntry_eq (index_eq_some.mpr rfl)]
        simp [hk]

end DolphinCore.IOSC

namespace DolphinCore.IOS.ES

open Prog IOSC

/-! ## verifying containers -/

variable {s0 : IOSC} {taken : Fin 32 → Prop} {s : ES} {cfg : Config}

variable {F : Faults Action} {content_id : BitVec 32} {tmd : TMDReader} {chain : List Byte}

theorem wp_iosc {β : Type} {C : ES → Prop} {U : Prop} {f : IOSC → β × IOSC} {b : β} {iosc' : IOSC}
    {Q : β → ES → Prop} (hf : f s.m_iosc = (b, iosc')) (h : Q b { s with m_iosc := iosc' }) :
    wp F C U (iosc f) s Q := by
  refine wp_modifyGet ?_
  simp only [hf]
  exact h

theorem wp_createObject {C : ES → Prop} {U : Prop} {type : ObjectType} {subtype : ObjectSubType}
    {ret : ReturnCode} {handle : Option Nat} {iosc' : IOSC}
    {Q : ReturnCode × Option Nat → ES → Prop}
    (hf : s.m_iosc.createObject type subtype pidEs = (ret, handle, iosc'))
    (h : Q (ret, handle) { s with m_iosc := iosc' }) :
    wp F C U (createObject type subtype) s Q :=
  wp_iosc (by simp only [hf]) h

theorem total_writeNewCertToStore (cfg : Config) (cert : List Byte) (s : ES) :
    Total (writeNewCertToStore cfg cert) s fun ret _ => ret = .IPC_SUCCESS := by
  have hread : Total (readCertStore cfg) s fun _ _ => True := by
    refine wp_ite (fun _ => wp_pure trivial) fun _ => ?_
    refine wp_bind (total_probe (wp_ite (fun _ => ?_) fun _ => wp_pure trivial))
    exact wp_bind (total_probe (wp_ite (fun _ => wp_bind (wp_get (wp_pure trivial))) fun _ =>
      wp_pure trivial))
  refine wp_bind (wp_mono hread fun r u _ => ?_)
  refine wp_ite (fun _ => wp_pure rfl) fun _ => ?_
  refine wp_bind (total_change (fun nand _ => ?_) nofun)
  refine wp_ite (fun _ => ?_) fun h => absurd rfl h
  exact wp_bind (total_change (fun nand _ => wp_pure rfl) nofun)

/-- The certificates of a container, from the root key down to its signature. -/
structure Trusted (cfg : Config) (root : KeyEntry) (type : VerifyContainerType)
    (blob chain : List Byte) : Prop where
  valid : isSignatureValid blob = true
  signed : ∃ certs ca issuer, findCerts type blob chain = .ok certs ∧
    Signs cfg.crypto (root.data, root.misc_data) (pointerTo certs.ca_cert) ca ∧
    Signs cfg.crypto ca (pointerTo certs.issuer_cert) issuer ∧
    rsaPkcs1Verify cfg.crypto issuer.1 issuer.2 (blobHash cfg blob)
      (pointerTo (getSignatureData blob)) = true

theorem Trusted.append {root : KeyEntry} {type : VerifyContainerType} {blob chain : List Byte}
    (h : Trusted cfg root type blob chain) (more : List Byte) :
    Trusted cfg root type blob (chain ++ more) := by
  obtain ⟨hvalid, certs, ca, issuer, hfind, hsigned⟩ := h
  refine ⟨hvalid, certs, ca, issuer, ?_, hsigned⟩
  unfold findCerts at hfind ⊢
  split at hfind
  · next parents =>
    split at hfind
    · next hissuer hca =>
      rw [findCert_append hissuer, findCert_append hca]
      exact hfind
    · cases hfind
  · cases hfind

theorem total_verifyWithIssuer {ca issuer : List Byte × List Byte} {certs : Certs}
    {handle : Nat} {i : Fin 32} {blob : List Byte} (mode : VerifyMode)
    (hca : PublicKeyAt s.m_iosc handle ca.1 ca.2) (hfresh : Fresh s.m_iosc i .publicKey .rsa2048)
    (hissuer : Signs cfg.crypto ca (pointerTo certs.issuer_cert) issuer)
    (hblob : rsaPkcs1Verify cfg.crypto issuer.1 issuer.2 (blobHash cfg blob)
      (pointerTo (getSignatureData blob)) = true) :
    Total (verifyWithIssuer cfg mode blob certs handle i.val) s
      fun ret _ => ret = .IPC_SUCCESS := by
  obtain ⟨s', himport, hkey⟩ := hca.importCertificate hissuer hfresh
  refine wp_bind (wp_iosc himport ?_)
  refine wp_ite (fun h => absurd rfl h) fun _ => wp_bind (wp_get ?_)
  rw [hkey.verify _ _ hblob]
  refine wp_ite (fun h => absurd rfl h) fun _ => wp_ite (fun _ => ?_) fun _ => wp_pure rfl
  exact wp_bind (wp_mono (total_writeNewCertToStore _ _ _) fun _ u _ =>
    total_writeNewCertToStore _ _ _)

theorem total_verifyWithCa {ca issuer : List Byte × List Byte} {certs : Certs} {i : Fin 32}
    {blob : List Byte} (mode : VerifyMode) (h0 : IsInitial s0) (h : Holds s0 s.m_iosc taken)
    (hi : taken i) (hroom : ∃ k : Fin 32, 12 ≤ k.val ∧ ¬ taken k)
    (hfresh : Fresh s.m_iosc i .publicKey .rsa2048)
    (hca : Signs cfg.crypto (s0.m_root_key_entry.data, s0.m_root_key_entry.misc_data)
      (pointerTo certs.ca_cert) ca)
    (hissuer : Signs cfg.crypto ca (pointerTo certs.issuer_cert) issuer)
    (hblob : rsaPkcs1Verify cfg.crypto issuer.1 issuer.2 (blobHash cfg blob)
      (pointerTo (getSignatureData blob)) = true) :
    Total (verifyWithCa cfg mode blob certs i.val) s fun ret _ => ret = .IPC_SUCCESS := by
  obtain ⟨s1, himport, hkey⟩ := (PublicKeyAt.root h0 h).importCertificate hca hfresh
  have hholds : Holds s0 s1 taken := by
    have := h.imports (imports_importCertificate cfg.crypto s.m_iosc (pointerTo certs.ca_cert)
      handleRootKey i.val pidEs)
    rwa [himport] at this
  obtain ⟨j, s2, hj, hfresh', hcreate, -, hsame⟩ :=
    createObject_of_room h0 hholds hroom .publicKey .rsa2048
  have hij : i ≠ j := by
    rintro rfl
    exact hj hi
  have hkey' : PublicKeyAt s2 i.val ca.1 ca.2 := by
    obtain ⟨howned, e, he, hrest⟩ := hkey
    refine ⟨?_, e, ?_, hrest⟩
    · have := of_hasOwnership howned (index_eq_some.mpr rfl)
      refine hasOwnership_of_owner ?_ ?_
      · rw [hsame i hij]
        exact this.1
      · rw [hsame i hij]
        exact this.2
    · rw [findEntryOrRoot_val] at he ⊢
      rw [hsame i hij]
      exact he
  refine wp_bind (wp_iosc himport ?_)
  refine wp_ite (fun h => absurd rfl h) fun _ => wp_bind (wp_createObject hcreate ?_)
  refine wp_bind (wp_mono (total_verifyWithIssuer mode hkey' hfresh' hissuer hblob) ?_)
  rintro ret u rfl
  exact wp_bind (wp_modifyGet (wp_pure rfl))

theorem total_verifyContainer {type : VerifyContainerType} {blob chain : List Byte}
    (mode : VerifyMode) (h0 : IsInitial s0) (h : Holds s0 s.m_iosc taken)
    (hroom : ∀ i, ∃ k : Fin 32, 12 ≤ k.val ∧ ¬ (taken k ∨ k = i))
    (htrusted : cfg.m_enable_signature_checks = true →
      Trusted cfg s0.m_root_key_entry type blob chain) :
    Total (verifyContainer cfg type mode blob chain) s fun ret _ => ret = .IPC_SUCCESS := by
  refine wp_ite (fun _ => wp_pure rfl) fun hon => ?_
  rw [Bool.not_eq_true', Bool.not_eq_false] at hon
  obtain ⟨hvalid, certs, ca, issuer, hfind, hca, hissuer, hblob⟩ := htrusted hon
  refine wp_ite (fun h => ?_) fun _ => ?_
  · rw [hvalid] at h
    cases h
  · rw [hfind]
    have hone : ∃ k : Fin 32, 12 ≤ k.val ∧ ¬ taken k := by
      obtain ⟨k, hk, hnot⟩ := hroom 0
      exact ⟨k, hk, fun ht => hnot (.inl ht)⟩
    obtain ⟨i, s1, hi, hfresh, hcreate, hholds, -⟩ :=
      createObject_of_room h0 h hone .publicKey .rsa2048
    refine wp_bind (wp_createObject hcreate ?_)
    refine wp_bind (wp_mono (total_verifyWithCa mode h0 hholds (.inr rfl) (hroom i) hfresh hca
      hissuer hblob) ?_)
    rintro ret u rfl
    exact wp_bind (wp_modifyGet (wp_pure rfl))

/-! ## importing a title -/

theorem commonKey_entry (h0 : IsInitial s0) (h : Holds s0 s.m_iosc taken) {key : Fin 32}
    (hkey : key.val = handleCommonKey ∨ key.val = handleNewCommonKey) :
    s.m_iosc.hasOwnership key.val pidEs = true ∧ (s.m_iosc.m_key_entries key).type = .secretKey ∧
      (s.m_iosc.m_key_entries key).subtype = .aes128 ∧
      (s.m_iosc.m_key_entries key).data.length = 16 := by
  have hlt : key.val < 12 := by
    obtain hkey | hkey := hkey
    · rw [hkey]
      decide
    · rw [hkey]
      decide
  obtain ⟨huse, hentry, hsize⟩ := h0.default key hlt
  have hget : defaultEntries.get ⟨key.val, hlt⟩ = (.secretKey, .aes128, 3) := by
    obtain hkey | hkey := hkey
    · obtain rfl : key = 4 := Fin.ext hkey
      rfl
    · obtain rfl : key = 11 := Fin.ext hkey
      rfl
  rw [hget, Prod.mk.injEq, Prod.mk.injEq] at hentry
  obtain ⟨htype, hsubtype, howner⟩ := hentry
  rw [KeyEntry.fullSize, htype, hsubtype] at hsize
  rw [h.default key hlt]
  refine ⟨hasOwnership_of_owner ?_ ?_, htype, hsubtype, hsize⟩
  · rw [h.default key hlt]
    exact huse
  · rw [h.default key hlt, howner]
    decide

theorem importSecretKey_ok {s : IOSC} {c : Crypto} {i key : Fin 32} (iv : List Byte)
    (encrypted : Pointer) (hfresh : Fresh s i .secretKey .aes128)
    (howned : s.hasOwnership key.val pidEs = true)
    (htype : (s.m_key_entries key).type = .secretKey)
    (hsubtype : (s.m_key_entries key).subtype = .aes128)
    (hsize : (s.m_key_entries key).data.length = 16) :
    ∃ s', s.importSecretKey c i.val key.val iv encrypted pidEs = (.IPC_SUCCESS, s') := by
  have hdecrypt : s.decryptEncrypt c false key.val iv (encrypted.bytes 16) pidEs =
      (.IPC_SUCCESS, some (c.aes false (s.m_key_entries key).data iv (encrypted.bytes 16))) := by
    unfold decryptEncrypt findEntry
    rw [howned, index_eq_some.mpr rfl, Option.map_some]
    simp [htype, hsubtype, hsize]
  unfold importSecretKey
  rw [hdecrypt]
  simp only
  unfold importDecryptedKey findEntry
  rw [hfresh.owned, isDefaultHandle_of_late hfresh.late, index_eq_some.mpr rfl, Option.map_some]
  simp only [Bool.not_true, Bool.or_self, Bool.false_eq_true, if_false, hfresh.type,
    hfresh.subtype, ne_eq, not_true_eq_false, or_self]
  exact ⟨_, rfl⟩

theorem Keys.room (h : Keys s0 s) (i : Fin 32) : ∃ k : Fin 32, 12 ≤ k.val ∧
    ¬ ((∃ j, (s.importExport j).key_handle = k.val) ∨ k = i) := by
  let key : Fin contextCount → Fin 32 := fun j => ⟨(s.importExport j).key_handle, h.bounded j⟩
  let busy : Finset (Fin 32) := insert i (Finset.univ.image key)
  have hcard : busy.card < (Finset.univ.filter fun k : Fin 32 => 12 ≤ k.val).card := by
    have hfree : (Finset.univ.filter fun k : Fin 32 => 12 ≤ k.val).card = 20 := by decide
    have hinsert := Finset.card_insert_le i (Finset.univ.image key)
    have himage : (Finset.univ.image key).card ≤ contextCount := by
      refine Finset.card_image_le.trans ?_
      rw [Finset.card_univ, Fintype.card_fin]
    have hthree : contextCount = 3 := rfl
    exact lt_of_le_of_lt hinsert (by omega)
  obtain ⟨k, hk, hnot⟩ := Finset.exists_mem_notMem_of_card_lt_card hcard
  refine ⟨k, (Finset.mem_filter.mp hk).2, ?_⟩
  rintro (⟨j, hj⟩ | rfl)
  · refine hnot (Finset.mem_insert_of_mem (Finset.mem_image.mpr ⟨j, Finset.mem_univ j, ?_⟩))
    exact Fin.ext hj
  · exact hnot (Finset.mem_insert_self ..)

variable {i : Fin contextCount} {x : TitleImportExportContext} {t : ES}

theorem total_initTitleImportKey (h0 : IsInitial s0) (h : Now s0 s i x t)
    (ticket : TicketReader) (hindex : ticket.commonKeyIndex ≤ 1) :
    Total (initTitleImportKey cfg ticket i) t fun ret _ => ret = .IPC_SUCCESS := by
  obtain ⟨k0, hk0, hnot0⟩ := h.keys.room 0
  obtain ⟨k, s1, -, hfresh, hcreate, hholds, -⟩ := createObject_of_room h0 h.keys.holds
    ⟨k0, hk0, fun ht => hnot0 (.inl ht)⟩ .secretKey .aes128
  refine wp_bind (wp_bind (wp_createObject hcreate (wp_bind (wp_modify (wp_pure ?_)))))
  refine wp_ite (fun h => absurd rfl h) fun _ => wp_ite (fun hlarge => ?_) fun _ => ?_
  · omega
  · refine wp_bind (wp_bind (wp_get (wp_pure ?_)))
    simp only [importExport, Function.update_self]
    set key : Fin 32 := if ticket.commonKeyIndex = 0 then 4 else 11 with hkey
    have hval : (if ticket.commonKeyIndex = 0 then handleCommonKey else handleNewCommonKey) =
        key.val := by
      rw [hkey]
      split <;> rfl
    have hcommon : key.val = handleCommonKey ∨ key.val = handleNewCommonKey := by
      rw [← hval]
      split
      · exact .inl rfl
      · exact .inr rfl
    obtain ⟨howned, htype, hsubtype, hsize⟩ :=
      commonKey_entry (s := { t with m_iosc := s1 }) h0 hholds hcommon
    obtain ⟨s2, himport⟩ := importSecretKey_ok (c := cfg.crypto)
      (ticket.titleIdBytes ++ List.replicate 8 0) (pointerTo ticket.titleKey) hfresh howned htype
      hsubtype hsize
    rw [hval]
    exact wp_bind (wp_iosc himport (wp_pure rfl))

/-- The content directories are the same. -/
def SameContent (s t : ES) : Prop := t.nand.content = s.nand.content

instance : IsPreorder ES SameContent where
  refl _ := rfl
  trans _ _ _ h h' := h'.trans h

theorem allowsCerts_sameContent : AllowsCerts SameContent := ⟨fun _ => rfl, fun _ _ => rfl⟩

theorem SameContent.movable {t : TitleId} {s u : ES} (h : SameContent s u) (hs : Movable t s) :
    Movable t u := by
  unfold Movable
  rw [h]
  exact hs

/-- A title that can be imported: what the metadata and the ticket must be. -/
structure Installable (cfg : Config) (s : ES) (tmd : TMDReader) (chain : List Byte)
    (content_id : BitVec 32) : Prop where
  valid : tmd.isValid = true
  size : isValidTMDSize tmd.m_bytes.length = true
  listed : (tmd.findContentById content_id).isSome = true
  ticket : ∃ bytes, s.nand.ticket tmd.getTitleId = some bytes ∧
    (TicketReader.mk bytes).isValid = true ∧ (TicketReader.mk bytes).commonKeyIndex ≤ 1 ∧
    (cfg.m_enable_signature_checks = true → ∃ store, s.nand.certSys = some store ∧
        Trusted cfg s.m_iosc.m_root_key_entry .Ticket bytes store)
  trusted : cfg.m_enable_signature_checks = true →
    Trusted cfg s.m_iosc.m_root_key_entry .TMD tmd.m_bytes chain

theorem Installable.later {s t : ES} (h : Installable cfg s tmd chain content_id)
    (hlater : Later s t) (hroot : t.m_iosc.m_root_key_entry = s.m_iosc.m_root_key_entry) :
    Installable cfg t tmd chain content_id where
  valid := h.valid
  size := h.size
  listed := h.listed
  ticket := by
    obtain ⟨bytes, hbytes, hvalid, hindex, hchecks⟩ := h.ticket
    refine ⟨bytes, by rw [hlater.ticket, hbytes], hvalid, hindex, fun hon => ?_⟩
    obtain ⟨store, hstore, htrusted⟩ := hchecks hon
    obtain ⟨more, hmore⟩ := hlater.certSys store hstore
    refine ⟨store ++ more, hmore, ?_⟩
    rw [hroot]
    exact htrusted.append more
  trusted hon := by
    rw [hroot]
    exact h.trusted hon

theorem Now.root (h : Now s0 s i x t) : t.m_iosc.m_root_key_entry = s0.m_root_key_entry :=
  h.keys.holds.root

theorem total_importTitleKey (h0 : IsInitial s0) (h : Now s0 s i x t) (hnone : x.key_handle = 0)
    (hinstall : Installable cfg t tmd chain content_id) :
    Total (importTitleKey cfg i tmd.getTitleId) t fun ret u => ret = .IPC_SUCCESS ∧
      ∃ k, Now s0 s i { x with key_handle := k } u := by
  refine wp.and_post ?_ (importTitleKey_post h0 h hnone tmd.getTitleId)
  obtain ⟨bytes, hbytes, hvalid, hindex, hchecks⟩ := hinstall.ticket
  refine wp_bind (wp_mono (total_findSignedTicket _ t) ?_)
  rintro ticket u ⟨rfl, rfl⟩
  rw [hbytes, Option.getD_some]
  refine wp_ite (fun hinvalid => ?_) fun _ => ?_
  · rw [hvalid] at hinvalid
    cases hinvalid
  · obtain ⟨store, hstore⟩ : ∃ store, cfg.m_enable_signature_checks = true →
        u.nand.certSys = some store ∧ Trusted cfg u.m_iosc.m_root_key_entry .Ticket bytes store := by
      by_cases hon : cfg.m_enable_signature_checks = true
      · obtain ⟨store, hstore⟩ := hchecks hon
        exact ⟨store, fun _ => hstore⟩
      · exact ⟨[], fun h => absurd h hon⟩
    refine wp_bind (wp_mono (total_readCertStore cfg fun hon => (hstore hon).1) ?_)
    rintro r v ⟨rfl, rfl⟩
    refine wp_ite (fun h => absurd rfl h) fun _ => ?_
    have hverify : Total (verifyContainer cfg .Ticket .DoNotUpdateCertStore bytes
        (if cfg.m_enable_signature_checks then store else [])) v fun ret _ =>
          ret = .IPC_SUCCESS := by
      refine total_verifyContainer _ h0 h.keys.holds h.keys.room fun hon => ?_
      rw [if_pos hon, ← h.root]
      exact (hstore hon).2
    refine wp_bind (wp_mono (hverify.and_post (h.verifyContainer h0 _ _ _ _)) ?_)
    rintro ret w ⟨rfl, hw⟩
    exact wp_ite (fun h => absurd rfl h) fun _ => total_initTitleImportKey h0 hw _ hindex

theorem total_importTitleInit (h0 : IsInitial s0) (h : Keys s0 s) (hfiled : s.nand.Filed)
    (hinstall : Installable cfg s tmd chain content_id) :
    Total (importTitleInit cfg i tmd.m_bytes chain) s fun ret u => ret = .IPC_SUCCESS ∧
      ∃ k, Now s0 s i { valid := true, tmd := tmd, key_handle := k, content := {} } u := by
  have hiosc : ∀ s iosc, Later s { s with m_iosc := iosc } := fun _ _ => .of_content rfl rfl id
  have hcontexts : ∀ s contexts, Later s { s with m_contexts := contexts } :=
    fun _ _ => .of_content rfl rfl id
  refine wp_bind (wp_mono ((keeps_resetTitleImportContext hiosc hcontexts i).and (h.now i).reset) ?_)
  rintro _ t ⟨ht, hlater⟩
  have hset : Total (modifyContext i fun context => { context with tmd := tmd }) t
      fun _ u => Now s0 s i { tmd := tmd } u :=
    ht.modify rfl (fun hcontent => absurd hcontent Bool.false_ne_true) fun _ hu => hu
  refine wp_bind (wp_mono ((keeps_modifyContext hcontexts i _).and hset) ?_)
  rintro _ u ⟨hu, hlater'⟩
  replace hlater := trans_of Later hlater hlater'
  refine wp_ite (fun hinvalid => ?_) fun _ => ?_
  · rw [hinstall.valid] at hinvalid
    cases hinvalid
  refine wp_bind (wp_mono ((keeps_finishStaleImport allows_later.toAllowsDirs _).and
    ((keeps_finishStaleImport allows_sameKeys.toAllowsDirs _).and
      (total_finishStaleImport (hlater.filed hfiled) _))) ?_)
  rintro _ v ⟨⟨hmovable, hsame⟩, hlater'⟩
  have hv := hu.same hsame
  replace hlater := trans_of Later hlater hlater'
  have hverify : Total (verifyContainer cfg .TMD .UpdateCertStore tmd.m_bytes chain) v
      fun ret _ => ret = .IPC_SUCCESS := by
    refine total_verifyContainer _ h0 hv.keys.holds hv.keys.room fun hon => ?_
    rw [← h.holds.root]
    exact hinstall.trusted hon
  refine wp_bind (wp_mono ((keeps_verifyContainer hiosc allows_later.toAllowsCerts _ _ _ _ _).and
    ((keeps_verifyContainer (fun _ _ => rfl) allowsCerts_sameContent _ _ _ _ _).and
      (hverify.and_post (hv.verifyContainer h0 _ _ _ _)))) ?_)
  rintro ret w ⟨⟨⟨rfl, hw⟩, hcontent⟩, hlater'⟩
  replace hlater := trans_of Later hlater hlater'
  replace hmovable := SameContent.movable hcontent hmovable
  refine wp_ite (fun h => absurd rfl h) fun _ => ?_
  have hroot : w.m_iosc.m_root_key_entry = s.m_iosc.m_root_key_entry :=
    hw.root.trans h.holds.root.symm
  refine wp_bind (wp_mono ((keeps_importTitleKey (R := SameContent) (fun _ _ => rfl) (fun _ _ => rfl)
    allowsCerts_sameContent _ _ _).and
    (total_importTitleKey h0 hw rfl (hinstall.later hlater hroot))) ?_)
  rintro ret y ⟨⟨rfl, k, hy⟩, hcontent⟩
  replace hmovable := SameContent.movable hcontent hmovable
  refine wp_ite (fun h => absurd rfl h) fun _ => ?_
  refine wp_bind (wp_mono ((keeps_initImport allows_sameKeys.toAllowsDirs _).and
    (total_initImport _ hmovable)) ?_)
  rintro done z ⟨rfl, hsame⟩
  refine wp_ite (fun _ => wp_bind ?_) fun h => absurd rfl h
  exact (hy.same hsame).modify rfl (fun _ => rfl) fun u hu => wp_pure ⟨rfl, k, hu⟩

/-! ## runs -/

/-- ES after its start: the built-in key objects, and contexts that are not used. -/
structure Started (s : ES) : Prop where
  iosc : IsInitial s.m_iosc
  contexts : ∀ i, s.m_contexts i = {}
  filed : s.nand.Filed

/-- A context is closed with nothing in progress, and an export is not refused data while it
has a key object of its own. -/
def CallOk (s : ES) : Call → Prop
  | .openDevice _ => True
  | .close fd => ∀ i, s.findActiveContext fd = some i → (s.importExport i).valid = false
  | .ioctlv fd req => ∀ i, s.findActiveContext fd = some i → RequestOk s i req

/-- The keys, and contexts that are not used have nothing in progress. -/
structure Settled (s0 : IOSC) (s : ES) : Prop where
  keys : Keys s0 s
  idle : ∀ i, (s.m_contexts i).active = false → (s.importExport i).valid = false

theorem Keys.congr {s u : ES} (h : Keys s0 s) (hiosc : u.m_iosc = s.m_iosc)
    (himport : u.importExport = s.importExport) : Keys s0 u where
  holds := by
    rw [hiosc, himport]
    exact h.holds
  distinct := by
    rw [himport]
    exact h.distinct
  bounded := by
    rw [himport]
    exact h.bounded
  content := by
    rw [himport]
    exact h.content

theorem importExport_update {s : ES} (i : Fin contextCount) (active : Bool) (fd : Int) : ({ s with
      m_contexts := Function.update s.m_contexts i
        { s.m_contexts i with active := active, ipc_fd := fd } } : ES).importExport =
      s.importExport := by
  funext j
  unfold importExport
  by_cases hj : j = i
  · subst hj
    simp
  · simp [hj]

theorem of_findActiveContext {fd : Int} (h : s.findActiveContext fd = some i) :
    (s.m_contexts i).ipc_fd = fd ∧ (s.m_contexts i).active = true := by
  have := List.find?_some h
  simpa using this

theorem of_findInactiveContext (h : s.findInactiveContext = some i) :
    (s.m_contexts i).active = false := by
  have := List.find?_some h
  simpa using this

theorem settled_call (h0 : IsInitial s0) (h : Settled s0 s) {c : Call} (hok : CallOk s c) :
    Post F (call cfg c) s fun _ t => Settled s0 t := by
  cases c with
  | openDevice fd =>
    refine wp_bind (wp_get ?_)
    cases hfind : s.findInactiveContext with
    | none => exact wp_pure h
    | some i =>
      refine wp_bind (wp_modify (wp_pure ⟨h.keys.congr rfl (importExport_update ..), ?_⟩))
      intro j hj
      rw [importExport_update]
      by_cases hji : j = i
      · subst hji
        simp at hj
      · exact h.idle j (by simpa [hji] using hj)
  | close fd =>
    refine wp_bind (wp_get ?_)
    cases hfind : s.findActiveContext fd with
    | none => exact wp_pure h
    | some i =>
      refine wp_bind (wp_modify (wp_pure ⟨h.keys.congr rfl (importExport_update ..), ?_⟩))
      intro j hj
      rw [importExport_update]
      by_cases hji : j = i
      · rw [hji]
        exact hok i hfind
      · exact h.idle j (by simpa [hji] using hj)
  | ioctlv fd req =>
    refine wp_bind (wp_get ?_)
    cases hfind : s.findActiveContext fd with
    | none => exact wp_pure h
    | some i =>
      refine wp_mono (request_post h0 h.keys (hok i hfind)) ?_
      rintro ret t ⟨x, hx⟩
      refine ⟨hx.keys, fun j hj => ?_⟩
      by_cases hji : j = i
      · subst hji
        rw [hx.context, Function.update_self, (of_findActiveContext hfind).2] at hj
        cases hj
      · rw [hx.importExport_of_ne hji]
        refine h.idle j ?_
        rwa [hx.context, Function.update_of_ne hji] at hj

theorem Started.settled (h : Started s) : Settled s.m_iosc s where
  keys := by
    have himport : ∀ i, s.importExport i = {} := fun i => by
      rw [importExport, h.contexts i]
    refine ⟨⟨rfl, fun _ _ => rfl, fun k hk => ?_, fun k hk ht => ?_⟩, ?_, ?_, ?_⟩
    · rw [(h.iosc.free k hk).1]
      refine ⟨(fun h => by cases h), ?_⟩
      rintro ⟨i, hi⟩
      rw [himport i] at hi
      change 0 = k.val at hi
      omega
    · obtain ⟨i, hi⟩ := ht
      rw [himport i] at hi
      change 0 = k.val at hi
      omega
    · intro i j hi
      rw [himport i] at hi
      exact absurd hi (by decide)
    · intro i
      rw [himport i]
      decide
    · intro i hi
      rw [himport i] at hi
      exact absurd hi Bool.false_ne_true
  idle i _ := by
    rw [importExport, h.contexts i]

theorem Started.run (h : Started s) {t : ES}
    (hrun : Run (step cfg) (fun s a => CallOk s a.1) s t) :
    Settled s.m_iosc t ∧ Later s t := by
  refine hrun.invariant (I := fun u => Settled s.m_iosc u ∧ Later s u)
    ⟨h.settled, refl_of Later s⟩ fun u a v hu hok hstep => ?_
  refine ⟨?_, trans_of Later hu.2 (later_of_step hstep)⟩
  obtain ⟨⟨ret, w⟩, hexec, rfl⟩ := Option.map_eq_some_iff.mp hstep
  exact (settled_call h.iosc hu.1 hok).exec hexec

/-! ## the contexts and their keys in every state -/

/-- The objects that are in use and not built in belong to ES, and are the key handles of the
contexts, each of one context. -/
structure KeysOfContexts (s : ES) : Prop where
  stored : ∀ k : Fin 32, 12 ≤ k.val →
    ((s.m_iosc.m_key_entries k).in_use = true ↔ ∃ i, (s.importExport i).key_handle = k.val)
  owner : ∀ k : Fin 32, 12 ≤ k.val → (s.m_iosc.m_key_entries k).in_use = true →
    (s.m_iosc.m_key_entries k).owner_mask = pidMask pidEs
  once : ∀ i j, 12 ≤ (s.importExport i).key_handle →
    (s.importExport i).key_handle = (s.importExport j).key_handle → i = j

/-- The number of free objects that are in use. -/
def keysInUse (s : ES) : Nat :=
  (Finset.univ.filter fun k : Fin 32 =>
    12 ≤ k.val ∧ (s.m_iosc.m_key_entries k).in_use = true).card

/-- A context that was just opened has nothing in progress. -/
def OpensIdle (cfg : Config) (s : ES) : Prop :=
  ∀ fd F t, (call cfg (.openDevice fd)).exec F s = some (.IPC_SUCCESS, t) →
    ∃ i, (s.m_contexts i).active = false ∧ (t.m_contexts i).active = true ∧
      (t.m_contexts i).ipc_fd = fd ∧ (t.importExport i).valid = false ∧
      (t.importExport i).content.valid = false

/-- A call that cancels an import or begins one. -/
def IsCancelOrInit (fd : Int) : Call → Prop
  | .ioctlv fd' .importTitleCancel => fd' = fd
  | .ioctlv fd' (.importTitleInit _ _) => fd' = fd
  | .ioctlv fd' (.importTmd _) => fd' = fd
  | _ => False

/-- Calls that cancel and begin lead to a state in which a content can be begun. -/
def CanRestart (cfg : Config) (s : ES) (fd : Int) (title : TitleId) (content_id : BitVec 32) :
    Prop :=
  ∃ calls : List Call, (∀ c ∈ calls, IsCancelOrInit fd c) ∧
    ∃ t, Run.exec (step cfg) s (calls.map fun c => (c, noFaults)) = some t ∧
      ∃ u, (call cfg (.ioctlv fd (.importContentBegin title content_id))).exec noFaults t =
        some (.IPC_SUCCESS, u)

theorem Settled.keysOfContexts (h : Settled s0 s) : KeysOfContexts s where
  stored := h.keys.holds.used
  owner k hk huse := h.keys.holds.owner k hk ((h.keys.holds.used k hk).mp huse)
  once := h.keys.distinct

theorem Settled.keysInUse_le (h : Settled s0 s) : s.keysInUse ≤ contextCount := by
  let key : Fin contextCount → Fin 32 := fun j => ⟨(s.importExport j).key_handle, h.keys.bounded j⟩
  have hsub : (Finset.univ.filter fun k : Fin 32 =>
      12 ≤ k.val ∧ (s.m_iosc.m_key_entries k).in_use = true) ⊆ Finset.univ.image key := by
    intro k hk
    obtain ⟨hlate, huse⟩ := (Finset.mem_filter.mp hk).2
    obtain ⟨j, hj⟩ := (h.keys.holds.used k hlate).mp huse
    exact Finset.mem_image.mpr ⟨j, Finset.mem_univ j, Fin.ext hj⟩
  refine (Finset.card_le_card hsub).trans (Finset.card_image_le.trans ?_)
  rw [Finset.card_univ, Fintype.card_fin]

theorem Settled.opensIdle (h : Settled s0 s) : OpensIdle cfg s := by
  intro fd F t hopen
  have hpost : Post F (call cfg (.openDevice fd)) s fun ret t => ret = .IPC_SUCCESS →
      ∃ i, (s.m_contexts i).active = false ∧ (t.m_contexts i).active = true ∧
        (t.m_contexts i).ipc_fd = fd ∧ t.importExport i = s.importExport i := by
    refine wp_bind (wp_get ?_)
    cases hfind : s.findInactiveContext with
    | none => exact wp_pure nofun
    | some i =>
      refine wp_bind (wp_modify (wp_pure fun _ => ⟨i, of_findInactiveContext hfind, ?_, ?_, ?_⟩))
      · simp
      · simp
      · exact congrFun (importExport_update ..) i
  obtain ⟨i, hinactive, hactive, hfd, hsame⟩ := hpost.exec hopen rfl
  refine ⟨i, hinactive, hactive, hfd, ?_, ?_⟩
  · rw [hsame]
    exact h.idle i hinactive
  · rw [hsame]
    by_contra hcontent
    rw [Bool.not_eq_false] at hcontent
    have hvalid := h.keys.content i hcontent
    rw [h.idle i hinactive] at hvalid
    cases hvalid

theorem total_importContentBegin (h : Now s0 s i x t) (htmd : x.tmd = tmd) (hvalid : x.valid = true)
    (hcontent : x.content.valid = false) (hlisted : (tmd.findContentById content_id).isSome = true) :
    Total (importContentBegin i tmd.getTitleId content_id) t fun ret _ => ret = .IPC_SUCCESS := by
  subst htmd
  refine wp_bind (h.getContext (wp_ite (fun hbad => ?_) fun _ => wp_bind ?_))
  · rw [hcontent] at hbad
    cases hbad
  · refine h.modify rfl (fun hbad => absurd hbad Bool.false_ne_true) fun u hu => ?_
    refine wp_ite (fun hbad => ?_) fun _ => wp_ite (fun hbad => absurd rfl hbad) fun _ => ?_
    · rw [hvalid] at hbad
      cases hbad
    · obtain ⟨info, hinfo⟩ := Option.isSome_iff_exists.mp hlisted
      rw [hinfo]
      exact wp_bind (hu.modify rfl (fun _ => hvalid) fun _ _ => wp_pure rfl)

theorem Settled.canRestart (h0 : IsInitial s0) (h : Settled s0 s) (hfiled : s.nand.Filed) {fd : Int}
    (hfind : s.findActiveContext fd = some i) (hinstall : Installable cfg s tmd chain content_id) :
    CanRestart cfg s fd tmd.getTitleId content_id := by
  have hinit : Total (call cfg (.ioctlv fd (.importTitleInit tmd.m_bytes chain))) s
      fun ret u => ret = .IPC_SUCCESS ∧
        ∃ k, Now s0 s i { valid := true, tmd := tmd, key_handle := k, content := {} } u := by
    refine wp_bind (wp_get ?_)
    rw [hfind]
    refine wp_ite (fun hbad => ?_) fun _ => total_importTitleInit h0 h.keys hfiled hinstall
    rw [hinstall.size] at hbad
    cases hbad
  obtain ⟨ret, t, hexec, -, k, ht⟩ := hinit.total
  have hfind' : t.findActiveContext fd = some i := by
    have hsame : t.findActiveContext fd = s.findActiveContext fd := by
      unfold findActiveContext
      congr 1
      funext j
      rw [ht.context]
      by_cases hj : j = i
      · subst hj
        simp
      · simp [hj]
    rw [hsame, hfind]
  have hbegin : Total (call cfg (.ioctlv fd (.importContentBegin tmd.getTitleId content_id))) t
      fun ret _ => ret = .IPC_SUCCESS := by
    refine wp_bind (wp_get ?_)
    rw [hfind']
    exact total_importContentBegin ht rfl rfl rfl hinstall.listed
  obtain ⟨ret', u, hexec', rfl⟩ := hbegin.total
  refine ⟨[.ioctlv fd (.importTitleInit tmd.m_bytes chain)], ?_, t, ?_, u, hexec'⟩
  · intro c hc
    rw [List.mem_singleton.mp hc]
    rfl
  · rw [List.map_singleton, Run.exec, step, hexec]
    rfl

/-- **In every run in which contexts are closed with nothing in progress and no export loses
its key object, the key objects are the ones of the contexts, contexts are opened idle, and
an import can be started again.** -/
theorem keys_of_contexts {s t : ES} (hs : Started s)
    (hrun : Run (step cfg) (fun s a => CallOk s a.1) s t) :
    KeysOfContexts t ∧ t.keysInUse ≤ contextCount ∧ OpensIdle cfg t ∧
      ∀ fd, (t.findActiveContext fd).isSome = true → ∀ tmd chain content_id,
        Installable cfg s tmd chain content_id → CanRestart cfg t fd tmd.getTitleId content_id := by
  obtain ⟨hsettled, hlater⟩ := hs.run hrun
  refine ⟨hsettled.keysOfContexts, hsettled.keysInUse_le, hsettled.opensIdle, ?_⟩
  intro fd hfd tmd chain content_id hinstall
  obtain ⟨i, hi⟩ := Option.isSome_iff_exists.mp hfd
  exact hsettled.canRestart hs.iosc (hlater.filed hs.filed) hi
    (hinstall.later hlater hsettled.keys.holds.root)

/-! ### a key that is lost -/

/-- No signature checks, and no title that runs. -/
def bareConfig : Config := ⟨noCrypto, false, .empty⟩

/-- A ticket of a title. -/
def bareTicket : List Byte := [0x00, 0x01, 0x00, 0x01] ++ List.replicate 672 0

/-- Metadata of the same title, with no contents. -/
def bareTmd : List Byte := [0x00, 0x01, 0x00, 0x01] ++ List.replicate 480 0

/-- ES on a NAND that holds the ticket only. -/
def bareES : ES where
  m_iosc := blankKeys
  m_contexts _ := {}
  nand := {
    certSys := none
    ticket := fun title => if title = 0 then some bareTicket else none
    titleDirs := fun _ => []
    content := fun _ _ => none
    tmpTmd := none
    tmpApp := fun _ => none
    tmpMap := none
    contentMap := none
    shared := fun _ => none }

theorem bareES_started : Started bareES where
  iosc := blankKeys_initial
  contexts _ := rfl
  filed _ _ _ h := by cases h

/-- A device is opened, an import begun, and data of an export asked for that was not begun. -/
def losingCalls : List (Call × Faults Action) :=
  [(.openDevice 5, noFaults), (.ioctlv 5 (.importTitleInit bareTmd []), noFaults),
    (.ioctlv 5 (.exportContentData true 32 32), noFaults)]

theorem losingCalls_lose : ((Run.exec (step bareConfig) bareES losingCalls).any fun t =>
    (t.m_iosc.m_key_entries 12).in_use &&
      (List.finRange contextCount).all fun i => (t.importExport i).key_handle ≠ 12) = true := by
  decide +kernel

/-- The key of the import is in use, and no context has it. -/
theorem refused_export_loses_key : ¬ ∀ (cfg : Config) (s t : ES), Started s →
    Run (step cfg) (fun _ _ => True) s t → KeysOfContexts t := by
  intro h
  have hlose := losingCalls_lose
  cases hexec : Run.exec (step bareConfig) bareES losingCalls with
  | none =>
    rw [hexec] at hlose
    cases hlose
  | some t =>
    rw [hexec, Option.any_some, Bool.and_eq_true, List.all_eq_true] at hlose
    have hkeys := h bareConfig bareES t bareES_started
      (.of_exec losingCalls (fun _ _ _ => trivial) hexec)
    obtain ⟨i, hi⟩ := (hkeys.stored 12 (by decide)).mp hlose.1
    exact of_decide_eq_true (hlose.2 i (List.mem_finRange i)) hi

/-- A run of one call. -/
theorem keys_of_contexts_opened : ∃ t, KeysOfContexts t ∧ t.keysInUse ≤ contextCount ∧
    OpensIdle bareConfig t ∧ ∀ fd, (t.findActiveContext fd).isSome = true → ∀ tmd chain content_id,
        Installable bareConfig bareES tmd chain content_id →
          CanRestart bareConfig t fd tmd.getTitleId content_id :=
  ⟨_, keys_of_contexts bareES_started (.single (.openDevice 5, noFaults) trivial rfl)⟩

end DolphinCore.IOS.ES
