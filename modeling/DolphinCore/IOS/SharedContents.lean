import DolphinCore.IOS.ImportRestart

/-!
# DolphinCore.IOS.SharedContents

Every hash in the map of shared contents has a file with that hash.  The map is written before
the file of a new content, and after the file of a deleted one, so that this holds as long as no
operation fails between the two, and the number that a new file is named by is not in use.
-/

namespace DolphinCore.IOS

open SharedContentMap (appPath load)

/-- The hash of a file. -/
def contentHash (cfg : Config) (data : List Byte) : BitVec 160 :=
  hashNumber (cfg.crypto.sha1 data)

/-- The entries of `content.map`. -/
def Nand.mapEntries (nand : Nand) : List SharedContentMap.Entry := nand.contentMap.getD []

/-- Every hash that is listed has its file. -/
def Nand.SharedOk (cfg : Config) (nand : Nand) : Prop :=
  ∀ e ∈ nand.mapEntries, ∃ data, nand.shared (appPath [] e.id) = some data ∧
    contentHash cfg data = e.sha1

/-- The map and the files of shared contents are the same. -/
structure SameShared (s t : ES) : Prop where
  contentMap : t.nand.contentMap = s.nand.contentMap
  shared : t.nand.shared = s.nand.shared

instance : IsPreorder ES SameShared where
  refl _ := ⟨rfl, rfl⟩
  trans _ _ _ h h' := ⟨h'.contentMap.trans h.contentMap, h'.shared.trans h.shared⟩

theorem allowsDirs_sameShared : AllowsDirs SameShared :=
  .of_dirsOnly ⟨fun _ => ⟨rfl, rfl⟩, fun _ _ => ⟨rfl, rfl⟩⟩ fun _ _ h => ⟨h.contentMap, h.shared⟩

theorem SameShared.sharedOk {cfg : Config} {s t : ES} (h : SameShared s t)
    (hs : s.nand.SharedOk cfg) : t.nand.SharedOk cfg := by
  unfold Nand.SharedOk Nand.mapEntries
  rw [h.contentMap, h.shared]
  exact hs

namespace ES

open Prog

variable {F : Faults Action} {U : Prop} {s t : ES} {cfg : Config}

/-! ## the map -/

/-- The map that a call reads; what cannot be read is missing at its end. -/
def Loads (F : Faults Action) (s : ES) (map : SharedContentMap) : Prop :=
  MayReturn F loadSharedContentMap s map s

theorem readMapEntries_post (entries : List SharedContentMap.Entry) (s : ES) :
    wp F (fun _ => True) U (readMapEntries entries) s fun l t => t = s ∧ l <+: entries := by
  induction entries with
  | nil => exact wp_pure ⟨rfl, List.prefix_rfl⟩
  | cons e entries ih =>
    refine wp_bind (wp_probe (fun _ => ?_) (wp_pure ⟨rfl, List.nil_prefix⟩) trivial)
    refine wp_bind (wp_mono ih ?_)
    rintro l t ⟨rfl, hl⟩
    exact wp_pure ⟨rfl, (List.prefix_cons_inj e).mpr hl⟩

theorem loadSharedContentMap_post (s : ES) :
    wp F (fun _ => True) U loadSharedContentMap s fun map t =>
      t = s ∧ Loads F s map ∧ map.entries <+: s.nand.mapEntries := by
  have hread : wp F (fun _ => True) U loadSharedContentMap s fun map t =>
      t = s ∧ map.entries <+: s.nand.mapEntries := by
    refine wp_bind (wp_probe (fun _ => ?_) (wp_pure ⟨rfl, List.nil_prefix⟩) trivial)
    refine wp_bind (wp_get (wp_bind (wp_mono (readMapEntries_post _ s) ?_)))
    rintro l t ⟨rfl, hl⟩
    exact wp_pure ⟨rfl, hl⟩
  refine wp_mono (hread.and_post (post_mayReturn F _ s)) ?_
  rintro map t ⟨⟨rfl, hpre⟩, hloads⟩
  exact ⟨rfl, hloads, hpre⟩

/-- The map may get written. -/
def MapMay (F : Faults Action) : Prop :=
  F.may (.openFile .tmpMap) ∧ F.may (.write .tmpMap) ∧ F.may (.rename .tmpMap .contentMap)

/-- The map gets written. -/
def MapMust (F : Faults Action) : Prop :=
  F.must (.openFile .tmpMap) ∧ F.must (.write .tmpMap) ∧ F.must (.rename .tmpMap .contentMap)

theorem not_must {a : Action} {n : Nat} (h : F n a = .fails) : ¬ F.must a := by
  intro hmust
  rw [hmust n] at h
  cases h

theorem writeEntries_post (entries : List SharedContentMap.Entry) (s : ES) :
    wp F (fun _ => True) U (writeEntries entries) s fun done t => t.nand.shared = s.nand.shared ∧
      t.nand.contentMap = (if done then some entries else s.nand.contentMap) ∧
      (done = true → MapMay F) ∧ (done = false → ¬ MapMust F) := by
  refine wp_bind (wp_change (fun n nand hopen hnand => ?_) (fun n hfails => ?_) fun _ _ => trivial)
  · cases hnand
    refine wp_ite (fun _ => ?_) fun h => absurd rfl h
    refine wp_bind (wp_change (fun m nand hwrite hnand => ?_) (fun m hfails => ?_)
      fun _ _ => trivial)
    · cases hnand
      refine wp_ite (fun _ => ?_) fun h => absurd rfl h
      refine wp_change (fun k nand hrename hnand => ?_) (fun k hfails => ?_) fun _ _ => trivial
      · cases hnand
        exact ⟨rfl, rfl, fun _ => ⟨⟨n, hopen⟩, ⟨m, hwrite⟩, ⟨k, hrename⟩⟩, nofun⟩
      · obtain hfails | ⟨-, hnone⟩ := hfails
        · exact ⟨rfl, rfl, nofun, fun _ hmust => not_must hfails hmust.2.2⟩
        · cases hnone
    · refine wp_ite (fun h => absurd h Bool.false_ne_true) fun _ => wp_pure ?_
      obtain hfails | ⟨-, hnone⟩ := hfails
      · exact ⟨rfl, rfl, nofun, fun _ hmust => not_must hfails hmust.2.1⟩
      · cases hnone
  · refine wp_ite (fun h => absurd h Bool.false_ne_true) fun _ => wp_pure ?_
    obtain hfails | ⟨-, hnone⟩ := hfails
    · exact ⟨rfl, rfl, nofun, fun _ hmust => not_must hfails hmust.1⟩
    · cases hnone

/-! ## the file -/

/-- The file of a content gets written and moved. -/
def FileMust (F : Faults Action) (id : BitVec 32) (path : List Byte) : Prop :=
  F.must (.openFile (.tmpApp id)) ∧ F.must (.write (.tmpApp id)) ∧
    F.must (.rename (.tmpApp id) (.shared path))

/-- The file may get written and moved. -/
def FileMay (F : Faults Action) (id : BitVec 32) (path : List Byte) : Prop :=
  F.may (.openFile (.tmpApp id)) ∧ F.may (.write (.tmpApp id)) ∧
    F.may (.rename (.tmpApp id) (.shared path))

theorem storeContent_post (id : BitVec 32) (data path : List Byte) (s : ES) :
    wp F (fun _ => True) U (storeContent id data (.shared path)) s fun ret t =>
      t.nand.contentMap = s.nand.contentMap ∧
      (ret = .IPC_SUCCESS ∧ FileMay F id path ∧
          t.nand.shared = Function.update s.nand.shared path (some data) ∨
        ret ≠ .IPC_SUCCESS ∧ ¬ FileMust F id path ∧ t.nand.shared = s.nand.shared) := by
  refine wp_bind (wp_bind (wp_change (fun n nand hopen hnand => ?_) (fun n hfails => ?_)
    fun _ _ => trivial))
  · cases hnand
    refine wp_ite (fun _ => ?_) fun h => absurd rfl h
    refine wp_change (fun m nand hwrite hnand => ?_) (fun m hfails => ?_) fun _ _ => trivial
    · cases hnand
      refine wp_ite (fun _ => ?_) fun h => absurd rfl h
      refine wp_bind (wp_change (fun k nand hrename hnand => ?_) (fun k hfails => ?_)
        fun _ _ => trivial)
      · refine wp_ite (fun _ => wp_pure ?_) fun h => absurd rfl h
        simp only [Function.update_self, Option.bind_some, Option.some.injEq] at hnand
        subst hnand
        exact ⟨rfl, .inl ⟨rfl, ⟨⟨n, hopen⟩, ⟨m, hwrite⟩, ⟨k, hrename⟩⟩, rfl⟩⟩
      · refine wp_ite (fun h => absurd h Bool.false_ne_true) fun _ => wp_pure ?_
        obtain hfails | ⟨-, hnone⟩ := hfails
        · exact ⟨rfl, .inr ⟨by decide, fun hmust => not_must hfails hmust.2.2, rfl⟩⟩
        · simp only [Function.update_self, Option.bind_some] at hnone
          cases hnone
    · refine wp_ite (fun h => absurd h Bool.false_ne_true) fun _ => wp_pure ?_
      obtain hfails | ⟨-, hnone⟩ := hfails
      · exact ⟨rfl, .inr ⟨by decide, fun hmust => not_must hfails hmust.2.1, rfl⟩⟩
      · cases hnone
  · refine wp_ite (fun h => absurd h Bool.false_ne_true) fun _ => wp_pure ?_
    refine wp_ite (fun h => absurd h Bool.false_ne_true) fun _ => wp_pure ?_
    obtain hfails | ⟨-, hnone⟩ := hfails
    · exact ⟨rfl, .inr ⟨by decide, fun hmust => not_must hfails hmust.1, rfl⟩⟩
    · cases hnone

/-! ## the end of a content -/

/-- The file of the next new content. -/
def nextPath (map : SharedContentMap) : List Byte := appPath [] (formatId map.lastId)

/-- A new content, with this map, gets its file if it gets its entry, and the file is in no use. -/
structure AddOk (cfg : Config) (F : Faults Action) (s : ES) (map : SharedContentMap)
    (info : Content) : Prop where
  stored : MapMay F → FileMust F info.id (nextPath map) ∨
    ∃ data, s.nand.shared (nextPath map) = some data ∧ contentHash cfg data = info.sha1
  unused : FileMay F info.id (nextPath map) → ∀ e ∈ s.nand.mapEntries,
    (MapMust F → e ∈ map.entries) → appPath [] e.id = nextPath map → e.sha1 = info.sha1

/-- What a shared content is written to, and what became of the map. -/
inductive Placed (F : Faults Action) (s : ES) (info : Content) (path : List Byte) (t : ES) : Prop
  | listed (e : SharedContentMap.Entry) (hmem : e ∈ s.nand.mapEntries) (hsha1 : e.sha1 = info.sha1)
      (hpath : path = appPath [] e.id) (hmap : t.nand.contentMap = s.nand.contentMap)
  | added (map : SharedContentMap) (hloads : Loads F s map)
      (hpre : map.entries <+: s.nand.mapEntries)
      (hnew : map.getFilenameFromSHA1 [] info.sha1 = none) (hpath : path = nextPath map)
      (hmay : MapMay F)
      (hmap : t.nand.contentMap = some (map.entries ++ [⟨formatId map.lastId, info.sha1⟩]))
  | refused (map : SharedContentMap) (hloads : Loads F s map)
      (hnew : map.getFilenameFromSHA1 [] info.sha1 = none) (hpath : path = nextPath map)
      (hmust : ¬ MapMust F) (hmap : t.nand.contentMap = s.nand.contentMap)

theorem addSharedContent_post {map : SharedContentMap} (hloads : Loads F s map)
    (hpre : map.entries <+: s.nand.mapEntries) (info : Content) :
    wp F (fun _ => True) U (addSharedContent map info.sha1) s fun path t =>
      t.nand.shared = s.nand.shared ∧ Placed F s info path t := by
  unfold addSharedContent
  cases hfind : map.getFilenameFromSHA1 [] info.sha1 with
  | some path =>
    obtain ⟨e, he, rfl⟩ := Option.map_eq_some_iff.mp hfind
    have hsha1 := List.find?_some he
    exact wp_pure ⟨rfl, .listed e (hpre.subset (List.mem_of_find?_eq_some he))
      (of_decide_eq_true hsha1) rfl rfl⟩
  | none =>
    refine wp_bind (wp_mono (writeEntries_post _ s) fun done t ht => wp_pure ?_)
    obtain ⟨hshared, hmap, hmay, hmust⟩ := ht
    cases done with
    | true => exact ⟨hshared, .added map hloads hpre hfind rfl (hmay rfl) hmap⟩
    | false => exact ⟨hshared, .refused map hloads hfind rfl (hmust rfl) hmap⟩

theorem defined_createContentDir (place : Place) (title : TitleId) :
    (createContentDir place title).Defined :=
  defined_bind (defined_bind (defined_attempt _ _) fun _ => defined_pure _) fun _ =>
    defined_bind (defined_attempt _ _) fun _ => defined_pure _

theorem contentPath_post (title : TitleId) (info : Content) (id : BitVec 32) :
    wp F (fun _ => True) U (contentPath title info id) s fun place t =>
      if info.isShared then ∃ path, place = .shared path ∧ t.nand.shared = s.nand.shared ∧
        Placed F s info path t
      else place = .imported title id ∧ SameShared s t := by
  refine wp_ite (fun hshared => ?_) fun hshared => ?_
  · refine wp_bind (wp_mono (loadSharedContentMap_post s) ?_)
    rintro map t ⟨rfl, hloads, hpre⟩
    refine wp_bind (wp_mono (addSharedContent_post hloads hpre info) ?_)
    rintro path u ⟨hsame, hplaced⟩
    refine wp_pure ?_
    rw [if_pos hshared]
    exact ⟨path, rfl, hsame, hplaced⟩
  · have hcreate := (keeps_createContentDir allowsDirs_sameShared .import title).defined
      (defined_createContentDir .import title) F s
    refine wp_bind (wp_weaken hcreate (fun _ _ => trivial) False.elim fun _ t ht => wp_pure ?_)
    rw [if_neg hshared]
    exact ⟨rfl, ht⟩

theorem defined_storeContent (id : BitVec 32) (data : List Byte) (place : ContentPath) :
    (storeContent id data place).Defined :=
  defined_bind (defined_bind (defined_attempt _ _) fun _ =>
      defined_ite (defined_attempt _ _) (defined_pure _)) fun _ =>
    defined_ite (defined_bind (defined_attempt _ _) fun _ =>
      defined_ite (defined_pure _) (defined_pure _)) (defined_pure _)

theorem keeps_storeContent_imported (id : BitVec 32) (data : List Byte) (title : TitleId)
    (content : BitVec 32) : (storeContent id data (.imported title content)).Keeps SameShared := by
  refine keeps_bind (keeps_bind (keeps_change_some fun _ => ⟨rfl, rfl⟩) fun _ =>
    keeps_ite (keeps_change_some fun _ => ⟨rfl, rfl⟩) (keeps_pure _)) fun _ => keeps_ite
      (keeps_bind (keeps_change fun s nand hnand => ?_) fun _ =>
        keeps_ite (keeps_pure _) (keeps_pure _)) (keeps_pure _)
  obtain ⟨_, -, hrename⟩ := Option.bind_eq_some_iff.mp hnand
  obtain ⟨_, -, rfl⟩ := Option.map_eq_some_iff.mp hrename
  exact ⟨rfl, rfl⟩

theorem storeContent_imported_post (id : BitVec 32) (data : List Byte) (title : TitleId)
    (content : BitVec 32) :
    wp F (fun _ => True) U (storeContent id data (.imported title content)) s fun _ t =>
      SameShared s t :=
  wp_weaken ((keeps_storeContent_imported id data title content).defined
    (defined_storeContent _ _ _) F s) (fun _ _ => trivial) False.elim fun _ _ h => h

/-- The state after a shared content was placed and its file stored, or not. -/
theorem Placed.sharedOk {t u : ES} {info : Content} {path data : List Byte}
    (hs : s.nand.SharedOk cfg) (h : Placed F s info path t)
    (hadd : ∀ map, Loads F s map → map.getFilenameFromSHA1 [] info.sha1 = none →
      AddOk cfg F s map info)
    (hshared : t.nand.shared = s.nand.shared) (hdata : contentHash cfg data = info.sha1)
    (hmap : u.nand.contentMap = t.nand.contentMap)
    (hstored : FileMay F info.id path ∧
        u.nand.shared = Function.update t.nand.shared path (some data) ∨
      ¬ FileMust F info.id path ∧ u.nand.shared = t.nand.shared) : u.nand.SharedOk cfg := by
  rw [hshared] at hstored
  -- an entry whose file is not replaced, or replaced by data with its hash
  have hkeep : ∀ e ∈ s.nand.mapEntries,
      (FileMay F info.id path → appPath [] e.id = path → e.sha1 = info.sha1) →
      ∃ d, u.nand.shared (appPath [] e.id) = some d ∧ contentHash cfg d = e.sha1 := by
    intro e he hsame
    obtain ⟨hmay, hfile⟩ | ⟨-, hfile⟩ := hstored
    · by_cases hpath : appPath [] e.id = path
      · refine ⟨data, ?_, ?_⟩
        · rw [hfile, hpath, Function.update_self]
        · rw [hdata, hsame hmay hpath]
      · rw [hfile, Function.update_of_ne hpath]
        exact hs e he
    · rw [hfile]
      exact hs e he
  cases h with
  | listed e₀ hmem hsha1 hpath hmap' =>
    intro e he
    have he' : e ∈ s.nand.mapEntries := by
      unfold Nand.mapEntries at he ⊢
      rwa [hmap, hmap'] at he
    refine hkeep e he' fun _ hsame => ?_
    -- entries with one file have one hash
    obtain ⟨d, hd, hhash⟩ := hs e he'
    obtain ⟨d₀, hd₀, hhash₀⟩ := hs e₀ hmem
    rw [hsame, hpath, hd₀, Option.some.injEq] at hd
    rw [← hhash, ← hd, hhash₀, hsha1]
  | added map hloads hpre hnew hpath hmay hmap' =>
    have hok := hadd map hloads hnew
    subst hpath
    intro e he
    unfold Nand.mapEntries at he
    rw [hmap, hmap', Option.getD_some, List.mem_append] at he
    obtain he | he := he
    · exact hkeep e (hpre.subset he) fun hfile hsame =>
        hok.unused hfile e (hpre.subset he) (fun _ => he) hsame
    · rw [List.mem_singleton] at he
      subst he
      obtain ⟨-, hfile⟩ | ⟨hmust, hfile⟩ := hstored
      · refine ⟨data, ?_, hdata⟩
        rw [hfile]
        exact Function.update_self ..
      · obtain ⟨d, hd, hhash⟩ := (hok.stored hmay).resolve_left hmust
        exact ⟨d, by rw [hfile]; exact hd, hhash⟩
  | refused map hloads hnew hpath hmust hmap' =>
    have hok := hadd map hloads hnew
    subst hpath
    intro e he
    have he' : e ∈ s.nand.mapEntries := by
      unfold Nand.mapEntries at he ⊢
      rwa [hmap, hmap'] at he
    exact hkeep e he' fun hfile hsame => hok.unused hfile e he' (fun h => absurd h hmust) hsame

/-- The data that a content is made of, in case it can be decrypted. -/
def bufferedData (cfg : Config) (s : ES) (i : Fin contextCount) : Option (List Byte) :=
  let context := s.importExport i
  match s.m_iosc.decryptEncrypt cfg.crypto false context.key_handle context.content.iv
      context.content.buffer pidEs with
  | (.IPC_SUCCESS, some (output, _)) =>
    some ((pointerTo output).bytes context.content.buffer.length)
  | _ => none

/-- As many bytes were supplied as the metadata says, and a new shared content gets its file. -/
def EndOk (cfg : Config) (F : Faults Action) (s : ES) (i : Fin contextCount) : Prop :=
  let context := s.importExport i
  context.valid = true → context.content.valid = true → ∀ data, bufferedData cfg s i = some data →
      ∃ info, context.tmd.findContentById context.content.id = some info ∧ info.size ≤ data.length ∧
        (info.isShared = true → checkIfContentHashMatches cfg data info = true →
          ∀ map, Loads F s map → map.getFilenameFromSHA1 [] info.sha1 = none →
            AddOk cfg F s map info)

variable {i : Fin contextCount}

theorem importDecryptedContent_sharedOk {data : List Byte} {info : Content}
    (hs : s.nand.SharedOk cfg)
    (hfind : (s.importExport i).tmd.findContentById (s.importExport i).content.id = some info)
    (hsize : info.size ≤ data.length)
    (hadd : info.isShared = true → checkIfContentHashMatches cfg data info = true →
      ∀ map, Loads F s map → map.getFilenameFromSHA1 [] info.sha1 = none → AddOk cfg F s map info) :
    wp F (fun _ => True) U (importDecryptedContent cfg i data) s fun _ t =>
      t.nand.SharedOk cfg := by
  have hid := (TMDReader.of_findContentById hfind).2
  have hend : ∀ ret (t : ES), t.nand.SharedOk cfg →
      wp F (fun _ => True) U (if ret ≠ EsCode.IPC_SUCCESS then pure ret else do
        modifyContext i fun context => { context with content := {} }
        pure EsCode.IPC_SUCCESS) t fun _ u => u.nand.SharedOk cfg := fun ret t ht =>
    wp_ite (fun _ => wp_pure ht) fun _ => wp_bind (wp_modify (wp_pure ht))
  refine wp_bind (wp_bind (wp_get (wp_pure ?_)))
  rw [hfind]
  refine wp_ite (fun h => by omega) fun _ => wp_ite (fun _ => wp_pure hs) fun hhash => ?_
  rw [Bool.not_eq_true', Bool.not_eq_false] at hhash
  refine wp_bind (wp_mono (contentPath_post _ info _) fun place t hplace => ?_)
  by_cases hshared : info.isShared = true
  · rw [if_pos hshared] at hplace
    obtain ⟨path, rfl, hsame, hplaced⟩ := hplace
    refine wp_bind (wp_mono (storeContent_post _ _ path t) fun ret u hu => hend ret u ?_)
    rw [← hid] at hu
    refine hplaced.sharedOk hs (hadd hshared hhash) hsame (of_decide_eq_true hhash) hu.1 ?_
    obtain ⟨-, ⟨-, hmay, hfile⟩ | ⟨-, hmust, hfile⟩⟩ := hu
    · exact .inl ⟨hmay, hfile⟩
    · exact .inr ⟨hmust, hfile⟩
  · rw [if_neg hshared] at hplace
    obtain ⟨rfl, hsame⟩ := hplace
    exact wp_bind (wp_mono (storeContent_imported_post _ _ _ _) fun ret u hu =>
      hend ret u ((trans_of SameShared hsame hu).sharedOk hs))

theorem importContentEnd_sharedOk (hs : s.nand.SharedOk cfg) (hend : EndOk cfg F s i) :
    wp F (fun _ => True) U (importContentEnd cfg i) s fun _ t => t.nand.SharedOk cfg := by
  refine wp_bind (wp_get (wp_ite (fun _ => wp_pure hs) fun hvalid => ?_))
  simp only [Bool.or_eq_true, Bool.not_eq_true', not_or, Bool.not_eq_false] at hvalid
  have hdata := hend hvalid.1 hvalid.2
  unfold bufferedData at hdata
  dsimp only at hdata ⊢
  split
  · next output _ hdecrypt =>
      rw [hdecrypt] at hdata
      obtain ⟨info, hfind, hsize, hadd⟩ := hdata _ rfl
      exact importDecryptedContent_sharedOk hs hfind hsize hadd
  · exact wp_pure hs

/-! ## what is written -/

/-- Data of the size and the hash that the metadata says of the content that was begun. -/
def IsBegun (cfg : Config) (x : TitleImportExportContext) (data : List Byte) : Prop :=
  ∃ info, x.tmd.findContentById x.content.id = some info ∧ data.length = info.size ∧
    contentHash cfg data = info.sha1

/-- The files of contents are what they were, or hold the content that was begun. -/
structure WritesBegun (cfg : Config) (x : TitleImportExportContext) (s t : ES) : Prop where
  shared : ∀ path, t.nand.shared path = s.nand.shared path ∨
    ∃ data, t.nand.shared path = some data ∧ IsBegun cfg x data
  file : ∀ place title entry, t.nand.file place title entry = s.nand.file place title entry ∨
    ∃ data, t.nand.file place title entry = some data ∧ IsBegun cfg x data

instance (x : TitleImportExportContext) : IsPreorder ES (WritesBegun cfg x) where
  refl _ := ⟨fun _ => .inl rfl, fun _ _ _ => .inl rfl⟩
  trans _ _ _ h h' :=
    ⟨fun path => (h'.shared path).elim (fun heq => by rw [heq]; exact h.shared path) .inr,
      fun place title entry => (h'.file place title entry).elim
        (fun heq => by rw [heq]; exact h.file place title entry) .inr⟩

variable {x : TitleImportExportContext}

theorem WritesBegun.of_eq {nand : Nand} (hshared : nand.shared = s.nand.shared)
    (hfile : ∀ place title entry, nand.file place title entry = s.nand.file place title entry) :
    WritesBegun cfg x s { s with nand := nand } :=
  ⟨fun path => .inl (congrFun hshared path),
    fun place title entry => .inl (hfile place title entry)⟩

theorem file_createTitleDir (nand : Nand) (place place' : Place) (title title' : TitleId)
    (entry : Entry) :
    (nand.createTitleDir place title).file place' title' entry = nand.file place' title' entry := by
  unfold Nand.createTitleDir
  split
  · rfl
  · rfl

theorem file_createContentDir {nand nand' : Nand} {place : Place} {title : TitleId}
    (h : nand.createContentDir place title = some nand') (place' : Place) (title' : TitleId)
    (entry : Entry) : nand'.file place' title' entry = nand.file place' title' entry := by
  unfold Nand.createContentDir at h
  rw [Option.ite_none_right_eq_some] at h
  obtain ⟨-, h⟩ := h
  cases hdir : nand.content place title with
  | some dir =>
    rw [hdir] at h
    cases h
    rfl
  | none =>
    rw [hdir] at h
    cases h
    unfold Nand.file Nand.setContent
    by_cases hplace : place' = place
    · subst hplace
      by_cases htitle : title' = title
      · subst htitle
        simp [hdir]
      · simp [htitle]
    · simp [hplace]

theorem keeps_createContentDir_writesBegun (place : Place) (title : TitleId) :
    (createContentDir place title).Keeps (WritesBegun cfg x) :=
  keeps_bind (keeps_bind (keeps_change_some fun s =>
      .of_eq Nand.dirsOnly_createTitleDir.shared fun place' title' entry =>
        file_createTitleDir s.nand place place' title title' entry) fun _ => keeps_pure _) fun _ =>
    keeps_bind (keeps_change fun _ _ hnand =>
      .of_eq (Nand.dirsOnly_createContentDir hnand).shared (file_createContentDir hnand))
      fun _ => keeps_pure _

theorem keeps_writeEntries_writesBegun (entries : List SharedContentMap.Entry) :
    (writeEntries entries).Keeps (WritesBegun cfg x) := by
  refine keeps_bind (keeps_change_some fun s => .of_eq rfl fun _ _ _ => rfl) fun _ => keeps_ite
    (keeps_bind (keeps_change_some fun s => .of_eq rfl fun _ _ _ => rfl) fun _ => keeps_ite
      (keeps_change fun s nand hnand => ?_) (keeps_pure _)) (keeps_pure _)
  obtain ⟨written, -, rfl⟩ := Option.map_eq_some_iff.mp hnand
  exact .of_eq rfl fun _ _ _ => rfl

theorem keeps_contentPath_writesBegun (title : TitleId) (info : Content) (id : BitVec 32) :
    (contentPath title info id).Keeps (WritesBegun cfg x) := by
  refine keeps_ite (keeps_bind keeps_loadSharedContentMap fun map => keeps_bind ?_ fun _ =>
    keeps_pure _) (keeps_bind (keeps_createContentDir_writesBegun _ _) fun _ => keeps_pure _)
  unfold addSharedContent
  split
  · exact keeps_pure _
  · exact keeps_bind (keeps_writeEntries_writesBegun _) fun _ => keeps_pure _

theorem storeContent_writes {data : List Byte} (hdata : IsBegun cfg x data) (id : BitVec 32)
    (place : ContentPath) :
    wp F (WritesBegun cfg x s) U (storeContent id data place) s fun _ t =>
      WritesBegun cfg x s t := by
  have hwrite : wp F (WritesBegun cfg x s) U (writeTmpApp id data) s fun done t =>
      WritesBegun cfg x s t ∧ (done = true → t.nand.tmpApp id = some data) := by
    have htmp : ∀ t : ES, WritesBegun cfg x s t → ∀ tmpApp,
        WritesBegun cfg x s { t with nand := { t.nand with tmpApp := tmpApp } } :=
      fun t ht tmpApp => ⟨ht.shared, ht.file⟩
    refine wp_bind (wp_change (fun _ nand _ hnand => ?_) (fun _ _ => ?_) fun _ _ => refl_of _ s)
    · cases hnand
      have hopened := htmp s (refl_of _ s) (Function.update s.nand.tmpApp id (some []))
      refine wp_ite (fun _ => ?_) fun h => absurd rfl h
      refine wp_change (fun _ nand _ hnand => ?_) (fun _ _ => ⟨hopened, nofun⟩) fun _ _ => hopened
      cases hnand
      exact ⟨htmp _ hopened _, fun _ => Function.update_self ..⟩
    · exact wp_ite (fun h => absurd h Bool.false_ne_true) fun _ => wp_pure ⟨refl_of _ s, nofun⟩
  refine wp_bind (wp_mono hwrite fun done t ht => wp_ite (fun hdone => ?_) fun _ => wp_pure ht.1)
  refine wp_bind (wp_change (fun _ nand _ hnand => ?_) (fun _ _ => ?_) fun _ _ => ht.1)
  · refine wp_ite (fun _ => wp_pure ?_) fun h => absurd rfl h
    rw [ht.2 hdone, Option.bind_some] at hnand
    refine trans_of _ ht.1 ?_
    cases place with
    | shared path =>
      cases hnand
      refine ⟨fun path' => ?_, fun _ _ _ => .inl rfl⟩
      by_cases hpath : path' = path
      · subst hpath
        exact .inr ⟨data, Function.update_self .., hdata⟩
      · exact .inl (Function.update_of_ne hpath ..)
    | imported title content =>
      obtain ⟨dir, hdir, rfl⟩ := Option.map_eq_some_iff.mp hnand
      refine ⟨fun _ => .inl rfl, fun place' title' entry => ?_⟩
      change t.nand.content .import title = some dir at hdir
      unfold Nand.file Nand.setContent
      by_cases hplace : place' = .import
      · subst hplace
        by_cases htitle : title' = title
        · subst htitle
          by_cases hentry : entry = .app content
          · subst hentry
            exact .inr ⟨data, by simp, hdata⟩
          · exact .inl (by simp [hdir, hentry, AList.lookup_insert_ne])
        · exact .inl (by simp [htitle])
      · exact .inl (by simp [hplace])
  · exact wp_ite (fun h => absurd h Bool.false_ne_true) fun _ => wp_pure ht.1

theorem importContentEnd_writes (i : Fin contextCount) :
    wp F (WritesBegun cfg (s.importExport i) s) True (importContentEnd cfg i) s fun _ t =>
      WritesBegun cfg (s.importExport i) s t := by
  have hrefl := refl_of (WritesBegun cfg (s.importExport i)) s
  have hdecrypted : ∀ data, wp F (WritesBegun cfg (s.importExport i) s) True
      (importDecryptedContent cfg i data) s fun _ t => WritesBegun cfg (s.importExport i) s t := by
    intro data
    refine wp_bind (wp_bind (wp_get (wp_pure ?_)))
    cases hfind : (s.importExport i).tmd.findContentById (s.importExport i).content.id with
    | none => exact wp_undefined trivial
    | some info =>
      refine wp_ite (fun _ => wp_undefined trivial) fun hsize => wp_ite (fun _ => wp_pure hrefl)
        fun hhash => ?_
      rw [Bool.not_eq_true', Bool.not_eq_false] at hhash
      have hdata : IsBegun cfg (s.importExport i) (data.take info.size) :=
        ⟨info, hfind, by rw [List.length_take]; omega, of_decide_eq_true hhash⟩
      refine wp_bind (wp_mono (keeps_contentPath_writesBegun _ info _ F s) fun place t ht => ?_)
      refine wp_bind (wp_weaken (storeContent_writes hdata _ place) (fun _ => trans_of _ ht) id
        fun ret u hu => ?_)
      have hstored := trans_of _ ht hu
      exact wp_ite (fun _ => wp_pure hstored) fun _ =>
        wp_bind (wp_modify (wp_pure ⟨hstored.shared, hstored.file⟩))
  refine wp_bind (wp_get (wp_ite (fun _ => wp_pure hrefl) fun _ => ?_))
  dsimp only
  split
  · exact hdecrypted _
  · exact wp_pure hrefl

/-! ## deleting -/

/-- A system title keeps a content whose hash its metadata lists; one whose metadata cannot be
read keeps every content. -/
def KeptBySystem (s : ES) (sha1 : BitVec 160) : Prop :=
  ∃ title ∈ s.nand.titleDirs .title, isSystemTitle title = true ∧
    ∀ bytes, s.nand.file .title title .titleTmd = some bytes → TMDReader.isValid ⟨bytes⟩ = true →
      ∃ content ∈ TMDReader.getContents ⟨bytes⟩, content.sha1 = sha1

/-- Where the file of a content gets deleted, the map gets written. -/
def DeleteOk (F : Faults Action) (s : ES) (sha1 : BitVec 160) : Prop :=
  ¬ KeptBySystem s sha1 → ∀ map path, Loads F s map → map.getFilenameFromSHA1 [] sha1 = some path →
    F.may (.delete (.shared path)) → MapMust F

theorem findTMD_post (place : Place) (title : TitleId) :
    wp F (fun _ => True) U (findTMD place title) s fun tmd t => t = s ∧
      (tmd.isValid = true → s.nand.file place title .titleTmd = some tmd.m_bytes) := by
  have hempty : TMDReader.isValid .empty = true →
      s.nand.file place title .titleTmd = some TMDReader.empty.m_bytes :=
    fun h => absurd h (by decide)
  have hread : wp F (fun _ => True) U (readFile (.entry place title .titleTmd)
      fun nand => nand.file place title .titleTmd) s fun file t => t = s ∧
        ∀ bytes, file = some bytes → s.nand.file place title .titleTmd = some bytes := by
    refine wp_bind (wp_probe (fun _ => ?_) (wp_pure ⟨rfl, nofun⟩) trivial)
    refine wp_bind (wp_get (wp_bind (wp_probe (fun _ => ?_) (wp_pure ⟨rfl, nofun⟩) trivial)))
    exact wp_pure ⟨rfl, fun _ h => h⟩
  refine wp_bind (wp_mono hread ?_)
  rintro file t ⟨rfl, hfile⟩
  cases file with
  | some bytes => exact wp_pure ⟨rfl, fun _ => hfile bytes rfl⟩
  | none => exact wp_pure ⟨rfl, hempty⟩

theorem keepsSharedContent_post (sha1 : BitVec 160) (title : TitleId) :
    wp F (fun _ => True) U (keepsSharedContent sha1 title) s fun kept t => t = s ∧
      (kept = false → isSystemTitle title = true → ¬ ∀ bytes,
        s.nand.file .title title .titleTmd = some bytes → TMDReader.isValid ⟨bytes⟩ = true →
          ∃ content ∈ TMDReader.getContents ⟨bytes⟩, content.sha1 = sha1) := by
  refine wp_ite (fun hsystem => wp_pure ⟨rfl, fun _ h => ?_⟩) fun _ => ?_
  · rw [h] at hsystem
    cases hsystem
  · refine wp_bind (wp_mono (findTMD_post .title title) ?_)
    rintro tmd t ⟨rfl, htmd⟩
    refine wp_ite (fun _ => wp_pure ⟨rfl, nofun⟩) fun hvalid =>
      wp_pure ⟨rfl, fun hkept _ hall => ?_⟩
    rw [Bool.not_eq_true', Bool.not_eq_false] at hvalid
    obtain ⟨content, hmem, hsha1⟩ := hall tmd.m_bytes (htmd hvalid) hvalid
    have hany := List.any_eq_false.mp hkept content hmem
    exact hany (decide_eq_true hsha1)

theorem letGo_post (sha1 : BitVec 160) (s : ES) :
    wp F (fun _ => True) U (Prog.forWhile (fun title => do
        let kept ← keepsSharedContent sha1 title
        pure !kept) (s.nand.titleDirs .title)) s fun free t =>
      t = s ∧ (free = true → ¬ KeptBySystem s sha1) := by
  -- what is not yet asked is all that may keep the content
  let Keeps := fun title => isSystemTitle title = true ∧
    ∀ bytes, s.nand.file .title title .titleTmd = some bytes → TMDReader.isValid ⟨bytes⟩ = true →
      ∃ content ∈ TMDReader.getContents ⟨bytes⟩, content.sha1 = sha1
  refine wp_forWhile (fun titles t => t = s ∧
    ∀ title ∈ s.nand.titleDirs .title, Keeps title → title ∈ titles) ?_ ?_ _
    ⟨rfl, fun _ h _ => h⟩
  · rintro t ⟨rfl, hall⟩
    refine ⟨rfl, fun _ => ?_⟩
    rintro ⟨title, hmem, hkeeps⟩
    exact List.not_mem_nil (hall title hmem hkeeps)
  · rintro title titles t ⟨rfl, hall⟩
    refine wp_bind (wp_mono (keepsSharedContent_post sha1 title) ?_)
    rintro kept u ⟨rfl, hkept⟩
    refine wp_pure ?_
    cases kept with
    | true => exact ⟨rfl, nofun⟩
    | false =>
      refine ⟨rfl, fun title' hmem hkeeps => ?_⟩
      obtain rfl | h := List.mem_cons.mp (hall title' hmem hkeeps)
      · exact absurd hkeeps.2 (hkept rfl hkeeps.1)
      · exact h

theorem deleteSharedFile_post (path : List Byte) (s : ES) :
    wp F (fun _ => True) U (deleteSharedFile path) s fun done t =>
      t.nand.contentMap = s.nand.contentMap ∧
      (if done then t.nand.shared = Function.update s.nand.shared path none ∧
          (F.may (.delete (.shared path)) ∨ s.nand.shared path = none)
        else t.nand.shared = s.nand.shared) := by
  refine wp_bind (wp_get (wp_ite (fun hnone => wp_pure ⟨rfl, ?_⟩) fun _ => ?_))
  · rw [Option.isNone_iff_eq_none] at hnone
    refine ⟨?_, .inr hnone⟩
    rw [← hnone, Function.update_eq_self]
  · refine wp_change (fun n nand hdone hnand => ?_) (fun _ _ => ⟨rfl, rfl⟩) fun _ _ => trivial
    cases hnand
    exact ⟨rfl, rfl, .inl ⟨n, hdone⟩⟩

theorem deleteSharedContent_sharedOk (sha1 : BitVec 160) (hs : s.nand.SharedOk cfg)
    (hdelete : DeleteOk F s sha1) :
    wp F (fun _ => True) U (deleteSharedContent sha1) s fun _ t => t.nand.SharedOk cfg := by
  refine wp_bind (wp_mono (loadSharedContentMap_post s) ?_)
  rintro map t ⟨rfl, hloads, hpre⟩
  cases hpath : map.getFilenameFromSHA1 [] sha1 with
  | none => exact wp_pure hs
  | some path =>
    refine wp_bind (wp_get (wp_bind (wp_mono (letGo_post sha1 t) ?_)))
    rintro free u ⟨rfl, hfree⟩
    refine wp_ite (fun hgo => ?_) fun _ => wp_pure hs
    obtain ⟨e₀, hfind, rfl⟩ := Option.map_eq_some_iff.mp hpath
    have hmem₀ := hpre.subset (List.mem_of_find?_eq_some hfind)
    have hsha1₀ := List.find?_some hfind
    rw [decide_eq_true_eq] at hsha1₀
    refine wp_bind (wp_mono (deleteSharedFile_post _ u) fun done v hv => ?_)
    obtain ⟨hmap, hv⟩ := hv
    refine wp_ite (fun hdone => ?_) fun hdone => wp_pure ?_
    · rw [if_pos hdone] at hv
      obtain ⟨hshared, hmay⟩ := hv
      have hmay : F.may (.delete (.shared (appPath [] e₀.id))) := by
        refine hmay.resolve_right fun hnone => ?_
        obtain ⟨d, hd, -⟩ := hs e₀ hmem₀
        rw [hnone] at hd
        cases hd
      have hmust := hdelete (hfree hgo) map _ hloads hpath hmay
      refine wp_bind (wp_mono (writeEntries_post _ v) fun written w hw => ?_)
      obtain ⟨hshared', hmap', -, hfailed⟩ := hw
      cases written with
      | false => exact absurd hmust (hfailed rfl)
      | true =>
        refine wp_pure fun e he => ?_
        unfold Nand.mapEntries at he
        rw [hmap', if_pos rfl, Option.getD_some, List.mem_filter] at he
        obtain ⟨hmem, hne⟩ := he
        obtain ⟨d, hd, hhash⟩ := hs e (hpre.subset hmem)
        refine ⟨d, ?_, hhash⟩
        -- the deleted file held one hash only
        have hother : appPath [] e.id ≠ appPath [] e₀.id := by
          intro hsame
          obtain ⟨d₀, hd₀, hhash₀⟩ := hs e₀ hmem₀
          rw [hsame, hd₀, Option.some.injEq] at hd
          refine of_decide_eq_true hne ?_
          rw [← hhash, ← hd, hhash₀, hsha1₀]
        rw [hshared', hshared, Function.update_of_ne hother, hd]
    · rw [if_neg hdone] at hv
      exact SameShared.sharedOk ⟨hmap, hv⟩ hs

/-! ## every run -/

/-- A required shared content of the metadata that is imported is there. -/
def SharedThere (cfg : Config) (x : TitleImportExportContext) (nand : Nand) : Prop :=
  ∀ content ∈ x.tmd.getContents, content.isOptional = false → content.isShared = true →
    ∃ path data, nand.shared path = some data ∧ contentHash cfg data = content.sha1

theorem importTitleDone_sharedThere (hs : s.nand.SharedOk cfg) :
    Post F (importTitleDone i) s fun ret _ =>
      ret = .IPC_SUCCESS → SharedThere cfg (s.importExport i) s.nand := by
  refine wp_bind (wp_bind (wp_get (wp_pure ?_)))
  refine wp_ite (fun _ => wp_pure nofun) fun _ => ?_
  refine wp_bind (wp_mono (loadSharedContentMap_post s) ?_)
  rintro map t ⟨rfl, -, hpre⟩
  refine wp_bind (wp_get (wp_ite (fun _ => wp_pure nofun) fun hall => ?_))
  rw [Bool.not_eq_true', Bool.not_eq_false, List.all_eq_true] at hall
  have hthere : SharedThere cfg (t.importExport i) t.nand := by
    intro content hmem hrequired hshared
    have hhas := hall content hmem
    unfold hasContent at hhas
    rw [hrequired, if_neg Bool.false_ne_true, if_pos hshared] at hhas
    obtain ⟨path, hpath⟩ := Option.isSome_iff_exists.mp hhas
    obtain ⟨e, hfind, rfl⟩ := Option.map_eq_some_iff.mp hpath
    have hsha1 := List.find?_some hfind
    rw [decide_eq_true_eq] at hsha1
    obtain ⟨data, hdata, hhash⟩ := hs e (hpre.subset (List.mem_of_find?_eq_some hfind))
    exact ⟨_, data, hdata, hhash.trans hsha1⟩
  exact post_of_forall fun _ _ _ => hthere

/-- A content is ended, or deleted, with nothing left undone. -/
def SharedStepOk (cfg : Config) (s : ES) (a : Call × Faults Action) : Prop :=
  match a.1 with
  | .ioctlv fd .importContentEnd => ∀ i, s.findActiveContext fd = some i → EndOk cfg a.2 s i
  | .ioctlv fd (.deleteSharedContent sha1) =>
    (s.findActiveContext fd).isSome = true → DeleteOk a.2 s sha1
  | _ => True

theorem keeps_request_sameShared (cfg : Config) (i : Fin contextCount) {req : Request}
    (hend : req ≠ .importContentEnd) (hdelete : ∀ sha1, req ≠ .deleteSharedContent sha1) :
    (request cfg i req).Keeps SameShared :=
  keeps_request (fun _ _ => ⟨rfl, rfl⟩) (fun _ _ => ⟨rfl, rfl⟩) allowsDirs_sameShared cfg i req
    (fun h => absurd h hend) fun sha1 h => absurd h (hdelete sha1)

theorem sharedOk_call {c : Call} (hs : s.nand.SharedOk cfg) (hok : SharedStepOk cfg s (c, F)) :
    Post F (call cfg c) s fun _ t => t.nand.SharedOk cfg := by
  cases c with
  | openDevice fd =>
    refine wp_bind (wp_get ?_)
    cases s.findInactiveContext with
    | none => exact wp_pure hs
    | some i => exact wp_bind (wp_modify (wp_pure hs))
  | close fd =>
    refine wp_bind (wp_get ?_)
    cases s.findActiveContext fd with
    | none => exact wp_pure hs
    | some i => exact wp_bind (wp_modify (wp_pure hs))
  | ioctlv fd req =>
    refine wp_bind (wp_get ?_)
    cases hfind : s.findActiveContext fd with
    | none => exact wp_pure hs
    | some i =>
      by_cases hend : req = .importContentEnd
      · subst hend
        exact importContentEnd_sharedOk hs (hok i hfind)
      · by_cases hdelete : ∃ sha1, req = .deleteSharedContent sha1
        · obtain ⟨sha1, rfl⟩ := hdelete
          exact deleteSharedContent_sharedOk sha1 hs (hok (by rw [hfind]; rfl))
        · have hkeeps := keeps_request_sameShared cfg i hend
            fun sha1 h => hdelete ⟨sha1, h⟩
          exact wp_mono (hkeeps.post F s) fun _ t ht => ht.sharedOk hs

theorem sharedOk_run (hs : s.nand.SharedOk cfg) (hrun : Run (step cfg) (SharedStepOk cfg) s t) :
    t.nand.SharedOk cfg := by
  refine hrun.invariant (I := fun u => u.nand.SharedOk cfg) hs fun u a v hu hok hstep => ?_
  obtain ⟨⟨ret, w⟩, hexec, rfl⟩ := Option.map_eq_some_iff.mp hstep
  exact (sharedOk_call hu hok).exec hexec

/-- An import that is accepted has its shared contents. -/
def AcceptsShared (cfg : Config) (s : ES) : Prop :=
  ∀ F fd i t, s.findActiveContext fd = some i →
    (call cfg (.ioctlv fd .importTitleDone)).exec F s = some (.IPC_SUCCESS, t) →
    SharedThere cfg (s.importExport i) t.nand

/-- The end of a content reads what was supplied, and writes the content that was begun,
wherever it ends. -/
def EndsAsBegun (cfg : Config) (s : ES) : Prop :=
  ∀ F i, EndOk cfg F s i →
    wp F (WritesBegun cfg (s.importExport i) s) False (importContentEnd cfg i) s fun _ t =>
      WritesBegun cfg (s.importExport i) s t

theorem acceptsShared_of_sharedOk (hs : s.nand.SharedOk cfg) : AcceptsShared cfg s := by
  intro F fd i t hfind hdone
  have hkeeps : (request cfg i .importTitleDone).Keeps SameShared :=
    keeps_request_sameShared cfg i nofun fun _ => nofun
  have hpost : Post F (call cfg (.ioctlv fd .importTitleDone)) s fun ret t =>
      (ret = .IPC_SUCCESS → SharedThere cfg (s.importExport i) s.nand) ∧ SameShared s t := by
    refine wp_bind (wp_get ?_)
    rw [hfind]
    exact (importTitleDone_sharedThere hs).and_post (hkeeps.post F s)
  obtain ⟨hthere, hsame⟩ := hpost.exec hdone
  intro content hmem hrequired hshared
  obtain ⟨path, data, hdata, hhash⟩ := hthere rfl content hmem hrequired hshared
  exact ⟨path, data, by rw [hsame.shared, hdata], hhash⟩

theorem endsAsBegun_of_sharedOk (hs : s.nand.SharedOk cfg) : EndsAsBegun cfg s := by
  intro F i hend
  exact wp_weaken ((importContentEnd_writes i).and (importContentEnd_sharedOk (U := False) hs hend))
    (fun _ => And.left) And.right fun _ _ => And.left

/-- The hash of no data. -/
def emptyHash : List Byte :=
  [0xda, 0x39, 0xa3, 0xee, 0x5e, 0x6b, 0x4b, 0x0d, 0x32, 0x55, 0xbf, 0xef, 0x95, 0x60, 0x18, 0x90,
    0xaf, 0xd8, 0x07, 0x09]

/-- No signature checks, and the hash of no data. -/
def hashConfig : Config :=
  let sha1 := fun data : List Byte => if data.isEmpty then emptyHash else []
  { bareConfig with crypto := { bareConfig.crypto with sha1 := sha1 } }

/-- Metadata with one shared content, which is empty. -/
def sharedTmd : List Byte :=
  [0x00, 0x01, 0x00, 0x01] ++ List.replicate 0x1da 0 ++ [0x00, 0x01] ++ List.replicate 10 0 ++
    [0x80, 0x01] ++ List.replicate 8 0 ++ emptyHash

/-- Only the rename of the content fails. -/
def renameFails : Faults Action := fun _ a =>
  match a with
  | .rename (.tmpApp _) _ => .fails
  | _ => .done

/-- A title is imported up to the end of its content. -/
def losingImport : List (Call × Faults Action) :=
  [(.openDevice 5, noFaults), (.ioctlv 5 (.importTitleInit sharedTmd []), noFaults),
    (.ioctlv 5 (.importContentBegin 0 0), noFaults), (.ioctlv 5 .importContentEnd, renameFails)]

theorem losingImport_loses : ((Run.exec (step hashConfig) bareES losingImport).any fun t =>
    t.nand.mapEntries.any fun e => (t.nand.shared (appPath [] e.id)).isNone) = true := by
  decide +kernel

theorem bareES_sharedOk (cfg : Config) : bareES.nand.SharedOk cfg :=
  fun _ h => absurd h List.not_mem_nil

end ES

end DolphinCore.IOS
