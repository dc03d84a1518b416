import DolphinCore.IOS.IOSCKeys
import DolphinCore.IOS.NandFrames

/-!
# DolphinCore.IOS.ImportKeys

The key objects of imports and exports are the ones whose handles the contexts hold.

A set of objects is followed through every program: verifying a container makes two more and
deletes them on each return, and a context is given a key when it has none.
-/

namespace DolphinCore

namespace IOSC

/-- The objects that are not built in are the ones that are taken, and ES owns them; what is
built in is as it was. -/
structure Holds (s0 s : IOSC) (taken : Fin 32 → Prop) : Prop where
  root : s.m_root_key_entry = s0.m_root_key_entry
  default : ∀ i : Fin 32, i.val < 12 → s.m_key_entries i = s0.m_key_entries i
  used : ∀ i : Fin 32, 12 ≤ i.val → ((s.m_key_entries i).in_use = true ↔ taken i)
  owner : ∀ i : Fin 32, 12 ≤ i.val → taken i → (s.m_key_entries i).owner_mask = pidMask IOS.pidEs

section

variable {s0 s : IOSC} {taken taken' : Fin 32 → Prop}

theorem Holds.congr (h : Holds s0 s taken) (htaken : ∀ i : Fin 32, 12 ≤ i.val →
    (taken i ↔ taken' i)) : Holds s0 s taken' where
  root := h.root
  default := h.default
  used i hi := (h.used i hi).trans (htaken i hi)
  owner i hi ht := h.owner i hi ((htaken i hi).mpr ht)

variable {i : Fin 32}

theorem Holds.update (h : Holds s0 s taken) (hi : 12 ≤ i.val) {e : KeyEntry}
    (hother : ∀ j, j ≠ i → (taken j ↔ taken' j)) (huse : e.in_use = true ↔ taken' i)
    (howner : taken' i → e.owner_mask = pidMask IOS.pidEs) :
    Holds s0 (s.update i e) taken' where
  root := h.root
  default j hj := by
    have hne : j ≠ i := by
      rintro rfl
      omega
    rw [update_of_ne e hne]
    exact h.default j hj
  used j hj := by
    by_cases hji : j = i
    · subst hji
      rw [update_self]
      exact huse
    · rw [update_of_ne e hji]
      exact (h.used j hj).trans (hother j hji)
  owner j hj ht := by
    by_cases hji : j = i
    · subst hji
      rw [update_self]
      exact howner ht
    · rw [update_of_ne e hji]
      exact h.owner j hj ((hother j hji).mpr ht)

theorem Holds.imports (h : Holds s0 s taken) {handle pid : Nat} {r : ReturnCode × IOSC}
    (himports : Imports s handle pid r) : Holds s0 r.2 taken := by
  obtain ⟨-, hsame⟩ | ⟨-, i, data, misc, -, hi, -, -, hr⟩ := himports
  · rw [hsame]
    exact h
  · rw [hr]
    exact h.update hi (fun _ _ => .rfl) (h.used i hi) (h.owner i hi)

theorem Holds.create (h : Holds s0 s taken) (h0 : IsInitial s0) (hfree : s.findFreeEntry = some i) :
    12 ≤ i.val ∧ ¬ taken i := by
  have huse := not_in_use_of_free hfree
  have hi : 12 ≤ i.val := by
    by_contra hlt
    have hlt : i.val < 12 := by omega
    rw [h.default i hlt, (h0.default i hlt).1] at huse
    cases huse
  refine ⟨hi, fun ht => ?_⟩
  rw [(h.used i hi).mpr ht] at huse
  cases huse

theorem Holds.hasOwnership (h : Holds s0 s taken) (hi : 12 ≤ i.val) (ht : taken i) :
    s.hasOwnership i.val IOS.pidEs = true := by
  have hindex : index i.val = some i := index_eq_some.mpr rfl
  unfold IOSC.hasOwnership getOwnership findEntry
  rw [hindex, Option.map_some]
  simp only [(h.used i hi).mpr ht, h.owner i hi ht, if_true, decide_true, Bool.true_and]
  rw [Bool.or_eq_true]
  exact .inr (by decide)

theorem Holds.delete (h : Holds s0 s taken) (hi : 12 ≤ i.val) (ht : taken i) :
    Holds s0 (s.deleteObject i.val IOS.pidEs).2 fun j => taken j ∧ j ≠ i := by
  have hindex : index i.val = some i := index_eq_some.mpr rfl
  have hdefault : isDefaultHandle i.val = false := by
    unfold isDefaultHandle handleNewCommonKey handleRootKey
    simp only [Bool.or_eq_false_iff, decide_eq_false_iff_not]
    omega
  unfold deleteObject findEntry
  rw [hdefault, h.hasOwnership hi ht, hindex]
  rw [if_neg (by decide), Option.map_some]
  simp only
  rw [setEntry_eq hindex]
  refine h.update hi (fun j hj => ?_) ?_ ?_
  · exact ⟨fun htj => ⟨htj, hj⟩, fun htj => htj.1⟩
  · exact ⟨nofun, fun hne => absurd rfl hne.2⟩
  · exact fun hne => absurd rfl hne.2

theorem deleteObject_default {handle : Nat} (hdefault : handle < 12) (pid : Nat) :
    (s.deleteObject handle pid).2 = s := by
  have : isDefaultHandle handle = true := by
    unfold isDefaultHandle handleNewCommonKey
    rw [Bool.or_eq_true, decide_eq_true_eq]
    omega
  unfold deleteObject
  rw [this, Bool.true_or, if_pos rfl]

theorem Holds.createObject (h : Holds s0 s taken) (h0 : IsInitial s0) (type : ObjectType)
    (subtype : ObjectSubType) :
    (∃ ret, ret ≠ .IPC_SUCCESS ∧ s.createObject type subtype IOS.pidEs = (ret, none, s)) ∨
      ∃ i : Fin 32, ∃ s', 12 ≤ i.val ∧ ¬ taken i ∧
        s.createObject type subtype IOS.pidEs = (.IPC_SUCCESS, some i.val, s') ∧
        Holds s0 s' fun j => taken j ∨ j = i := by
  unfold IOSC.createObject
  cases hfree : s.findFreeEntry with
  | none => exact .inl ⟨.IOSC_FAIL_ALLOC, by decide, rfl⟩
  | some i =>
    obtain ⟨hi, hnot⟩ := h.create h0 hfree
    refine .inr ⟨i, _, hi, hnot, rfl, ?_⟩
    rw [setEntry_eq (index_eq_some.mpr rfl)]
    refine h.update hi (fun j hj => ?_) ?_ fun _ => rfl
    · exact ⟨.inl, fun ht => ht.resolve_right hj⟩
    · exact ⟨fun _ => .inr rfl, fun _ => rfl⟩

end

end IOSC

namespace IOS.ES

open Prog IOSC

/-! ## programs on the NAND -/

/-- The key objects and the contexts are the same. -/
structure SameKeys (s t : ES) : Prop where
  m_iosc : t.m_iosc = s.m_iosc
  m_contexts : t.m_contexts = s.m_contexts

instance : IsPreorder ES SameKeys where
  refl _ := ⟨rfl, rfl⟩
  trans _ _ _ h h' := ⟨h'.m_iosc.trans h.m_iosc, h'.m_contexts.trans h.m_contexts⟩

theorem allows_sameKeys : Allows SameKeys := .of_nand fun _ _ => ⟨rfl, rfl⟩

/-! ## the objects that are taken -/

/-- The objects that are taken, while the contexts stay as they are. -/
structure Owns (s0 : IOSC) (taken : Fin 32 → Prop) (contexts : Fin contextCount → Context)
    (s : ES) : Prop where
  holds : Holds s0 s.m_iosc taken
  m_contexts : s.m_contexts = contexts

section

variable {s0 : IOSC} {taken : Fin 32 → Prop} {contexts : Fin contextCount → Context} {s t : ES}
  {F : Faults Action} {C : ES → Prop} {U : Prop} {cfg : Config}

theorem Owns.same (h : Owns s0 taken contexts s) (hsame : SameKeys s t) :
    Owns s0 taken contexts t where
  holds := by
    rw [hsame.m_iosc]
    exact h.holds
  m_contexts := hsame.m_contexts.trans h.m_contexts

theorem Owns.post {β : Type} {p : Es β} (h : Owns s0 taken contexts s) (hp : p.Keeps SameKeys) :
    Post F p s fun _ t => Owns s0 taken contexts t :=
  wp_mono (hp.post F s) fun _ _ => h.same

theorem Owns.imports (h : Owns s0 taken contexts s) {handle : Nat}
    {f : IOSC → ReturnCode × IOSC} (himports : Imports s.m_iosc handle pidEs (f s.m_iosc)) :
    wp F C U (iosc f) s fun _ t => Owns s0 taken contexts t :=
  wp_modifyGet ⟨h.holds.imports himports, h.m_contexts⟩

theorem verifyWithIssuer_post (h : Owns s0 taken contexts s) (mode : VerifyMode)
    (blob : List Byte) (certs : Certs) (handle issuer_handle : Nat) :
    Post F (verifyWithIssuer cfg mode blob certs handle issuer_handle) s
      fun _ t => Owns s0 taken contexts t := by
  refine wp_bind (wp_mono (h.imports (imports_importCertificate ..)) fun ret t ht => ?_)
  refine wp_ite (fun _ => wp_pure ht) fun _ => wp_bind (wp_get ?_)
  refine wp_ite (fun _ => wp_pure ht) fun _ => wp_ite (fun _ => ?_) fun _ => wp_pure ht
  refine wp_bind (wp_mono (ht.post (keeps_writeNewCertToStore allows_sameKeys.toAllowsCerts _ _))
    fun _ u hu => ?_)
  exact hu.post (keeps_writeNewCertToStore allows_sameKeys.toAllowsCerts _ _)

theorem createObject_post (h0 : IsInitial s0) (h : Holds s0 s.m_iosc taken) {type : ObjectType}
    {subtype : ObjectSubType} {Q : ReturnCode × Option Nat → ES → Prop}
    (hnone : ∀ ret, ret ≠ .IPC_SUCCESS → Q (ret, none) s)
    (hsome : ∀ (i : Fin 32) iosc, 12 ≤ i.val → ¬ taken i →
      Holds s0 iosc (fun j => taken j ∨ j = i) →
      Q (.IPC_SUCCESS, some i.val) { s with m_iosc := iosc }) :
    wp F C U (createObject type subtype) s Q := by
  refine wp_modifyGet ?_
  obtain ⟨ret, hret, hcreate⟩ | ⟨i, s', hi, hnot, hcreate, hnew⟩ := h.createObject h0 type subtype
  · simp only [hcreate]
    exact hnone ret hret
  · simp only [hcreate]
    exact hsome i s' hi hnot hnew

theorem withObject_post {β : Type} (h0 : IsInitial s0) (h : Owns s0 taken contexts s)
    {failed : ReturnCode → Es β} {p : Nat → Es β}
    (hfailed : ∀ ret t, Owns s0 taken contexts t →
      Post F (failed ret) t fun _ u => Owns s0 taken contexts u)
    (hp : ∀ taken' handle t, Owns s0 taken' contexts t →
      Post F (p handle) t fun _ u => Owns s0 taken' contexts u) :
    Post F (do
      let (ret, handle) ← createObject .publicKey .rsa2048
      match handle with
      | none => failed ret
      | some handle =>
        let ret ← p handle
        deleteObject handle
        pure ret) s fun _ t => Owns s0 taken contexts t := by
  refine wp_bind (createObject_post h0 h.holds (fun ret _ => hfailed ret s h) ?_)
  intro i iosc hi hnot hnew
  refine wp_bind (wp_mono (hp _ i.val _ ⟨hnew, h.m_contexts⟩) fun ret t ht => ?_)
  refine wp_bind (wp_modifyGet (wp_pure ⟨?_, ht.m_contexts⟩))
  refine (ht.holds.delete hi (.inr rfl)).congr fun j _ => ⟨fun hj => hj.1.resolve_right hj.2, ?_⟩
  intro hj
  refine ⟨.inl hj, ?_⟩
  rintro rfl
  exact hnot hj

theorem verifyWithCa_post (h0 : IsInitial s0) (h : Owns s0 taken contexts s) (mode : VerifyMode)
    (blob : List Byte) (certs : Certs) (handle : Nat) :
    Post F (verifyWithCa cfg mode blob certs handle) s fun _ t => Owns s0 taken contexts t := by
  refine wp_bind (wp_mono (h.imports (imports_importCertificate ..)) fun ret t ht => ?_)
  refine wp_ite (fun _ => wp_pure ht) fun _ => withObject_post h0 ht (fun _ _ hu => wp_pure hu) ?_
  exact fun _ issuer_handle u hu => verifyWithIssuer_post hu mode blob certs handle issuer_handle

theorem verifyContainer_post (h0 : IsInitial s0) (h : Owns s0 taken contexts s)
    (type : VerifyContainerType) (mode : VerifyMode) (blob chain : List Byte) :
    Post F (verifyContainer cfg type mode blob chain) s
      fun _ t => Owns s0 taken contexts t := by
  refine wp_ite (fun _ => wp_pure h) fun _ => wp_ite (fun _ => wp_pure h) fun _ => ?_
  cases findCerts type blob chain with
  | error ret => exact wp_pure h
  | ok certs =>
    refine withObject_post h0 h (fun _ _ hu => wp_pure hu) ?_
    exact fun _ handle u hu => verifyWithCa_post h0 hu mode blob certs handle

end

/-! ## contexts and their keys -/

/-- The objects that are taken are the keys of the contexts, each of one context.  A content is
open in a context with an import or export only. -/
structure Keys (s0 : IOSC) (s : ES) : Prop where
  holds : Holds s0 s.m_iosc fun k => ∃ i, (s.importExport i).key_handle = k.val
  distinct : ∀ i j, 12 ≤ (s.importExport i).key_handle →
    (s.importExport i).key_handle = (s.importExport j).key_handle → i = j
  bounded : ∀ i, (s.importExport i).key_handle < 32
  content : ∀ i, (s.importExport i).content.valid = true → (s.importExport i).valid = true

/-- In a program on context `i` that started in `s`: what the context holds now. -/
structure Now (s0 : IOSC) (s : ES) (i : Fin contextCount) (x : TitleImportExportContext)
    (t : ES) : Prop where
  keys : Keys s0 t
  context : t.m_contexts = Function.update s.m_contexts i
    { s.m_contexts i with title_import_export := x }

section

variable {s0 : IOSC} {s t u : ES} {i : Fin contextCount} {x y : TitleImportExportContext}
  {F : Faults Action} {C : ES → Prop} {U : Prop} {cfg : Config}

theorem Keys.now (h : Keys s0 s) (i : Fin contextCount) : Now s0 s i (s.importExport i) s where
  keys := h
  context := (Function.update_eq_self i s.m_contexts).symm

theorem Now.importExport_self (h : Now s0 s i x t) : t.importExport i = x := by
  rw [importExport, h.context, Function.update_self]

theorem Now.importExport_of_ne (h : Now s0 s i x t) {j : Fin contextCount} (hj : j ≠ i) :
    t.importExport j = s.importExport j := by
  rw [importExport, h.context, Function.update_of_ne hj, importExport]

/-- The objects are as the contexts say, once context `i` holds `y`. -/
theorem Now.set (h : Now s0 s i x t)
    (hholds : Holds s0 u.m_iosc fun k =>
      (∃ j, j ≠ i ∧ (t.importExport j).key_handle = k.val) ∨ y.key_handle = k.val)
    (hdistinct : 12 ≤ y.key_handle → ∀ j, j ≠ i → (t.importExport j).key_handle ≠ y.key_handle)
    (hbounded : y.key_handle < 32) (hcontent : y.content.valid = true → y.valid = true)
    (hu : u.m_contexts = Function.update t.m_contexts i
      { t.m_contexts i with title_import_export := y }) : Now s0 s i y u := by
  have hcontext : u.m_contexts = Function.update s.m_contexts i
      { s.m_contexts i with title_import_export := y } := by
    rw [hu, h.context, Function.update_self, Function.update_idem]
  have hself : u.importExport i = y := by
    rw [importExport, hu, Function.update_self]
  have hother : ∀ j, j ≠ i → u.importExport j = t.importExport j := fun j hj => by
    rw [importExport, hu, Function.update_of_ne hj, importExport]
  refine ⟨⟨?_, ?_, ?_, ?_⟩, hcontext⟩
  · refine hholds.congr fun k _ => ⟨?_, ?_⟩
    · rintro (⟨j, hj, hjk⟩ | hk)
      · exact ⟨j, by rw [hother j hj, hjk]⟩
      · exact ⟨i, by rw [hself, hk]⟩
    · rintro ⟨j, hjk⟩
      by_cases hj : j = i
      · subst hj
        exact .inr (by rw [← hself, hjk])
      · exact .inl ⟨j, hj, by rw [← hother j hj, hjk]⟩
  · intro j k hlate heq
    by_cases hj : j = i
    · subst hj
      rw [hself] at hlate heq
      by_contra hne
      refine hdistinct hlate k (Ne.symm hne) ?_
      rw [heq, hother k (Ne.symm hne)]
    · by_cases hk : k = i
      · subst hk
        rw [hother j hj] at hlate heq
        rw [hself] at heq
        exact absurd heq (hdistinct (heq ▸ hlate) j hj)
      · rw [hother j hj] at hlate heq
        rw [hother k hk] at heq
        exact h.keys.distinct j k hlate heq
  · intro j
    by_cases hj : j = i
    · rw [hj, hself]
      exact hbounded
    · rw [hother j hj]
      exact h.keys.bounded j
  · intro j
    by_cases hj : j = i
    · rw [hj, hself]
      exact hcontent
    · rw [hother j hj]
      exact h.keys.content j

theorem Now.same (h : Now s0 s i x t) (hsame : SameKeys t u) : Now s0 s i x u where
  keys := by
    have himport : u.importExport = t.importExport := by
      unfold importExport
      rw [hsame.m_contexts]
    obtain ⟨hholds, hdistinct, hbounded, hcontent⟩ := h.keys
    exact ⟨by rw [himport, hsame.m_iosc]; exact hholds, by rw [himport]; exact hdistinct,
      by rw [himport]; exact hbounded, by rw [himport]; exact hcontent⟩
  context := hsame.m_contexts.trans h.context

theorem Now.owns (h : Now s0 s i x t)
    (hu : Owns s0 (fun k => ∃ j, (t.importExport j).key_handle = k.val) t.m_contexts u) :
    Now s0 s i x u where
  keys := by
    have himport : u.importExport = t.importExport := by
      unfold importExport
      rw [hu.m_contexts]
    obtain ⟨-, hdistinct, hbounded, hcontent⟩ := h.keys
    exact ⟨by rw [himport]; exact hu.holds, by rw [himport]; exact hdistinct,
      by rw [himport]; exact hbounded, by rw [himport]; exact hcontent⟩
  context := hu.m_contexts.trans h.context

theorem Now.owned (h : Now s0 s i x t) :
    Owns s0 (fun k => ∃ j, (t.importExport j).key_handle = k.val) t.m_contexts t :=
  ⟨h.keys.holds, rfl⟩

theorem Now.holds_split (h : Now s0 s i x t) : Holds s0 t.m_iosc fun k =>
    (∃ j, j ≠ i ∧ (t.importExport j).key_handle = k.val) ∨ x.key_handle = k.val := by
  refine h.keys.holds.congr fun k _ => ⟨?_, ?_⟩
  · rintro ⟨j, hj⟩
    by_cases hji : j = i
    · subst hji
      exact .inr (by rw [← h.importExport_self, hj])
    · exact .inl ⟨j, hji, hj⟩
  · rintro (⟨j, -, hj⟩ | hk)
    · exact ⟨j, hj⟩
    · exact ⟨i, by rw [h.importExport_self, hk]⟩

theorem Now.distinct (h : Now s0 s i x t) (hlate : 12 ≤ x.key_handle) {j : Fin contextCount}
    (hj : j ≠ i) : (t.importExport j).key_handle ≠ x.key_handle := by
  intro heq
  refine hj (h.keys.distinct i j ?_ ?_).symm
  · rw [h.importExport_self]
    exact hlate
  · rw [h.importExport_self, heq]

/-! ### steps of a program -/

theorem Now.post {β : Type} {p : Es β} (h : Now s0 s i x t) (hp : p.Keeps SameKeys) :
    Post F p t fun _ u => Now s0 s i x u :=
  wp_mono (hp.post F t) fun _ _ => h.same

theorem Now.getContext {Q : TitleImportExportContext → ES → Prop} (h : Now s0 s i x t)
    (hQ : Q x t) : wp F C U (getContext i) t Q := by
  refine wp_bind (wp_get (wp_pure ?_))
  rwa [h.importExport_self]

theorem Now.modify {Q : Unit → ES → Prop} (h : Now s0 s i x t)
    {f : TitleImportExportContext → TitleImportExportContext}
    (hkey : (f x).key_handle = x.key_handle)
    (hcontent : (f x).content.valid = true → (f x).valid = true)
    (hQ : ∀ u, Now s0 s i (f x) u → Q () u) : wp F C U (modifyContext i f) t Q := by
  refine wp_modify (hQ _ ?_)
  have hx : (t.m_contexts i).title_import_export = x := h.importExport_self
  refine h.set ?_ ?_ ?_ hcontent (by rw [← hx])
  · rw [hkey]
    exact h.holds_split
  · rw [hkey]
    exact fun hlate j => h.distinct hlate
  · rw [hkey, ← h.importExport_self]
    exact h.keys.bounded i

theorem Now.clear {Q : Unit → ES → Prop} (h : Now s0 s i x t) (hkey : x.key_handle < 12)
    (hQ : ∀ u, Now s0 s i {} u → Q () u) : wp F C U (modifyContext i fun _ => {}) t Q := by
  refine wp_modify (hQ _ ?_)
  refine h.set ?_ (fun hlate => absurd hlate (by decide)) (by decide)
    (fun hcontent => absurd hcontent (by decide)) rfl
  refine h.holds_split.congr fun k hk => or_congr .rfl ⟨fun hx => ?_, fun h0 => ?_⟩
  · omega
  · change 0 = k.val at h0
    omega

theorem Now.reset (h : Now s0 s i x t) :
    wp F C U (resetTitleImportContext i) t fun _ u => Now s0 s i {} u := by
  refine wp_bind (h.getContext ?_)
  by_cases hlate : x.key_handle < 12
  · have hkeep : wp F C U (deleteKey x.key_handle) t fun _ u => Now s0 s i x u := by
      refine wp_ite (fun _ => wp_modifyGet ?_) fun _ => wp_pure h
      rw [deleteObject_default hlate]
      exact h
    exact wp_bind (wp_mono hkeep fun _ u hu => hu.clear hlate fun _ => id)
  · have hbounded : x.key_handle < 32 := by
      rw [← h.importExport_self]
      exact h.keys.bounded i
    have hdelete := h.holds_split.delete (i := ⟨x.key_handle, hbounded⟩) (by simpa using hlate)
      (.inr rfl)
    refine wp_bind ?_
    rw [deleteKey, if_pos (by omega)]
    refine wp_modifyGet (wp_modify ?_)
    refine h.set (y := {}) ?_ (fun hzero => absurd hzero (by decide)) (by decide)
      (fun hcontent => absurd hcontent (by decide)) rfl
    refine hdelete.congr fun k hk => ⟨?_, ?_⟩
    · rintro ⟨hother | hx, hne⟩
      · exact .inl hother
      · exact absurd (Fin.ext hx.symm) hne
    · rintro (⟨j, hj, hjk⟩ | hzero)
      · refine ⟨.inl ⟨j, hj, hjk⟩, ?_⟩
        rintro rfl
        exact h.distinct (by omega) hj hjk
      · change 0 = k.val at hzero
        omega

theorem Now.createKey (h0 : IsInitial s0) (h : Now s0 s i x t) (hnone : x.key_handle = 0)
    {Q : ReturnCode → ES → Prop} (hfail : ∀ ret, ret ≠ .IPC_SUCCESS → Q ret t)
    (hdone : ∀ k u, Now s0 s i { x with key_handle := k } u → Q .IPC_SUCCESS u) :
    wp F C U (createKey i) t Q := by
  refine wp_bind (createObject_post h0 h.keys.holds (fun ret hret => ?_) ?_)
  · exact wp_pure (hfail ret hret)
  · intro k iosc hk hnot hnew
    refine wp_bind (wp_modify (wp_pure (hdone k.val _ ?_)))
    have hx : (t.m_contexts i).title_import_export = x := h.importExport_self
    refine h.set ?_ ?_ k.isLt ?_ (by rw [← hx])
    · refine hnew.congr fun l hl => ⟨?_, ?_⟩
      · rintro (⟨j, hj⟩ | hlk)
        · refine .inl ⟨j, ?_, hj⟩
          rintro rfl
          rw [h.importExport_self, hnone] at hj
          omega
        · exact .inr (by rw [hlk])
      · rintro (⟨j, -, hj⟩ | hlk)
        · exact .inl ⟨j, hj⟩
        · exact .inr (Fin.ext hlk.symm)
    · exact fun _ j _ hj => hnot ⟨j, hj⟩
    · rw [← h.importExport_self]
      exact h.keys.content i

theorem Now.imports (h : Now s0 s i x t) {handle : Nat} {f : IOSC → ReturnCode × IOSC}
    (himports : ∀ s, Imports s handle pidEs (f s)) :
    wp F C U (iosc f) t fun _ u => Now s0 s i x u :=
  wp_mono (h.owned.imports (himports t.m_iosc)) fun _ _ => h.owns

theorem Now.verifyContainer (h0 : IsInitial s0) (h : Now s0 s i x t)
    (type : VerifyContainerType) (mode : VerifyMode) (blob chain : List Byte) :
    Post F (verifyContainer cfg type mode blob chain) t fun _ u => Now s0 s i x u :=
  wp_mono (verifyContainer_post h0 h.owned type mode blob chain) fun _ _ => h.owns

theorem Now.initBackupKey (h0 : IsInitial s0) (h : Now s0 s i x t) (hnone : x.key_handle = 0)
    (hcontent : x.content.valid = true → x.valid = true) :
    Post F (initBackupKey cfg i) t fun _ u => ∃ k, Now s0 s i { x with key_handle := k } u := by
  have hkeep : ∀ u, Now s0 s i x u → ∃ k, Now s0 s i { x with key_handle := k } u := by
    intro u hu
    refine ⟨0, ?_⟩
    have hx : ({ x with key_handle := 0 } : TitleImportExportContext) = x := by
      rw [← hnone]
    rwa [hx]
  refine wp_ite (fun _ => wp_undefined trivial) fun _ => wp_ite (fun _ => ?_) fun _ => ?_
  · refine wp_bind (wp_modify (wp_pure ⟨handlePrngKey, ?_⟩))
    have hx : (t.m_contexts i).title_import_export = x := h.importExport_self
    refine h.set ?_ (fun hlate => absurd hlate (show ¬ 12 ≤ handlePrngKey by decide))
      (show handlePrngKey < 32 by decide) hcontent (by rw [← hx])
    refine h.holds_split.congr fun k hk => or_congr .rfl ⟨fun hkey => ?_, fun hkey => ?_⟩
    · omega
    · change 5 = k.val at hkey
      omega
  · refine wp_bind (h.createKey h0 hnone (fun ret hret => ?_) fun k u hu => ?_)
    · exact wp_ite (fun hok => absurd hok hret) fun _ => wp_pure (hkeep t h)
    · refine wp_ite (fun _ => ?_) fun hok => absurd rfl hok
      refine wp_bind (hu.getContext (wp_bind (wp_mono (hu.imports fun _ =>
        imports_importDecryptedKey ..) fun _ v hv => wp_pure ⟨k, hv⟩)))

theorem Now.initTitleImportKey (h0 : IsInitial s0) (h : Now s0 s i x t)
    (hnone : x.key_handle = 0) (ticket : TicketReader) :
    wp F C U (initTitleImportKey cfg ticket i) t
      fun _ u => ∃ k, Now s0 s i { x with key_handle := k } u := by
  refine wp_bind (h.createKey h0 hnone (fun ret hret => ?_) fun k u hu => ?_)
  · refine wp_ite (fun _ => wp_pure ⟨0, ?_⟩) fun hok => absurd hret hok
    have hx : ({ x with key_handle := 0 } : TitleImportExportContext) = x := by
      rw [← hnone]
    rwa [hx]
  · refine wp_ite (fun hok => absurd rfl hok) fun _ => wp_ite (fun _ => wp_pure ⟨k, hu⟩) fun _ => ?_
    exact wp_bind (hu.getContext (wp_bind (wp_mono (hu.imports fun _ =>
      imports_importSecretKey ..) fun _ v hv => wp_pure ⟨k, hv⟩)))

/-! ### imports -/

/-- What a program on a context may end with. -/
def Ends (s0 : IOSC) (s : ES) (i : Fin contextCount) (t : ES) : Prop := ∃ x, Now s0 s i x t

theorem importTmd_post (h0 : IsInitial s0) (h : Keys s0 s) (tmd_bytes : List Byte) :
    Post F (importTmd cfg i tmd_bytes) s fun _ t => Ends s0 s i t := by
  refine wp_bind (wp_mono (h.now i).reset fun _ t ht => wp_bind ?_)
  refine ht.modify rfl (fun hcontent => absurd hcontent Bool.false_ne_true) fun t ht => ?_
  refine wp_ite (fun _ => wp_pure ⟨_, ht⟩) fun _ => ?_
  refine wp_bind (wp_mono (ht.post (keeps_readCertStore cfg)) fun store t ht => ?_)
  refine wp_ite (fun _ => wp_pure ⟨_, ht⟩) fun _ => ?_
  refine wp_bind (wp_mono (ht.verifyContainer h0 _ _ _ _) fun ret t ht => ?_)
  refine wp_ite (fun _ => wp_pure ⟨_, ht⟩) fun _ => ?_
  refine wp_bind (wp_mono (ht.post (keeps_initImport allows_sameKeys.toAllowsDirs _)) fun done t ht => ?_)
  refine wp_ite (fun _ => ?_) fun _ => wp_pure ⟨_, ht⟩
  refine wp_bind (wp_mono (ht.initBackupKey h0 rfl fun hcontent => absurd hcontent
    Bool.false_ne_true) fun ret t ht => ?_)
  obtain ⟨k, ht⟩ := ht
  refine wp_ite (fun _ => wp_pure ⟨_, ht⟩) fun _ => wp_bind ?_
  exact ht.modify rfl (fun _ => rfl) fun _ hu => wp_pure ⟨_, hu⟩

theorem importTitleKey_post (h0 : IsInitial s0) (h : Now s0 s i x t) (hnone : x.key_handle = 0)
    (title : TitleId) : Post F (importTitleKey cfg i title) t
      fun _ u => ∃ k, Now s0 s i { x with key_handle := k } u := by
  have hkeep : ∀ u, Now s0 s i x u → ∃ k, Now s0 s i { x with key_handle := k } u := by
    intro u hu
    refine ⟨0, ?_⟩
    have hx : ({ x with key_handle := 0 } : TitleImportExportContext) = x := by
      rw [← hnone]
    rwa [hx]
  refine wp_bind (wp_mono (h.post (keeps_findSignedTicket title)) fun ticket t ht => ?_)
  refine wp_ite (fun _ => wp_pure (hkeep t ht)) fun _ => ?_
  refine wp_bind (wp_mono (ht.post (keeps_readCertStore cfg)) fun store t ht => ?_)
  refine wp_ite (fun _ => wp_pure (hkeep t ht)) fun _ => ?_
  refine wp_bind (wp_mono (ht.verifyContainer h0 _ _ _ _) fun ret t ht => ?_)
  exact wp_ite (fun _ => wp_pure (hkeep t ht)) fun _ => ht.initTitleImportKey h0 hnone ticket

theorem importTitleInit_post (h0 : IsInitial s0) (h : Keys s0 s) (tmd_bytes chain : List Byte) :
    Post F (importTitleInit cfg i tmd_bytes chain) s fun _ t => Ends s0 s i t := by
  refine wp_bind (wp_mono (h.now i).reset fun _ t ht => wp_bind ?_)
  refine ht.modify rfl (fun hcontent => absurd hcontent Bool.false_ne_true) fun t ht => ?_
  refine wp_ite (fun _ => wp_pure ⟨_, ht⟩) fun _ => ?_
  refine wp_bind (wp_mono (ht.post (keeps_finishStaleImport allows_sameKeys.toAllowsDirs _)) fun _ t ht => ?_)
  refine wp_bind (wp_mono (ht.verifyContainer h0 _ _ _ _) fun ret t ht => ?_)
  refine wp_ite (fun _ => wp_pure ⟨_, ht⟩) fun _ => ?_
  refine wp_bind (wp_mono (importTitleKey_post h0 ht rfl _) fun ret t ht => ?_)
  obtain ⟨k, ht⟩ := ht
  refine wp_ite (fun _ => wp_pure ⟨_, ht⟩) fun _ => ?_
  refine wp_bind (wp_mono (ht.post (keeps_initImport allows_sameKeys.toAllowsDirs _)) fun done t ht => ?_)
  refine wp_ite (fun _ => wp_bind ?_) fun _ => wp_pure ⟨_, ht⟩
  exact ht.modify rfl (fun _ => rfl) fun _ hu => wp_pure ⟨_, hu⟩

theorem importContentBegin_post (h : Keys s0 s) (title_id : TitleId) (content_id : BitVec 32) :
    Post F (importContentBegin i title_id content_id) s fun _ t => Ends s0 s i t := by
  refine wp_bind ((h.now i).getContext ?_)
  refine wp_ite (fun _ => wp_pure ⟨_, h.now i⟩) fun _ => wp_bind ?_
  refine (h.now i).modify rfl (fun hcontent => absurd hcontent Bool.false_ne_true) fun t ht => ?_
  refine wp_ite (fun _ => wp_pure ⟨_, ht⟩) fun hvalid => ?_
  rw [Bool.not_eq_true', Bool.not_eq_false] at hvalid
  refine wp_ite (fun _ => wp_pure ⟨_, ht⟩) fun _ => ?_
  cases (s.importExport i).tmd.findContentById content_id with
  | none => exact wp_pure ⟨_, ht⟩
  | some info => exact wp_bind (ht.modify rfl (fun _ => hvalid) fun _ hu => wp_pure ⟨_, hu⟩)

theorem importContentData_post (h : Keys s0 s) (data : List Byte) :
    Post F (importContentData i data) s fun _ t => Ends s0 s i t :=
  wp_bind ((h.now i).modify rfl (h.content i) fun _ hu => wp_pure ⟨_, hu⟩)

theorem importDecryptedContent_post (h : Keys s0 s) (data : List Byte) :
    Post F (importDecryptedContent cfg i data) s fun _ t => Ends s0 s i t := by
  refine wp_bind ((h.now i).getContext ?_)
  cases (s.importExport i).tmd.findContentById (s.importExport i).content.id with
  | none => exact wp_undefined trivial
  | some info =>
    refine wp_ite (fun _ => wp_undefined trivial) fun _ =>
      wp_ite (fun _ => wp_pure ⟨_, h.now i⟩) fun _ => ?_
    refine wp_bind (wp_mono ((h.now i).post (keeps_contentPath allows_sameKeys _ _ _))
      fun path t ht => ?_)
    refine wp_bind (wp_mono (ht.post (keeps_storeContent allows_sameKeys _ _ _))
      fun ret t ht => ?_)
    refine wp_ite (fun _ => wp_pure ⟨_, ht⟩) fun _ => wp_bind ?_
    exact ht.modify rfl (fun hcontent => absurd hcontent Bool.false_ne_true)
      fun _ hu => wp_pure ⟨_, hu⟩

theorem importContentEnd_post (h : Keys s0 s) :
    Post F (importContentEnd cfg i) s fun _ t => Ends s0 s i t := by
  refine wp_bind (wp_get (wp_ite (fun _ => wp_pure ⟨_, h.now i⟩) fun _ => ?_))
  dsimp only
  split
  · exact importDecryptedContent_post h _
  · exact wp_pure ⟨_, h.now i⟩

theorem importTitleDone_post (h : Keys s0 s) :
    Post F (importTitleDone i) s fun _ t => Ends s0 s i t := by
  refine wp_bind ((h.now i).getContext (wp_ite (fun _ => wp_pure ⟨_, h.now i⟩) fun _ => ?_))
  refine wp_bind (wp_mono ((h.now i).post keeps_loadSharedContentMap) fun map t ht => ?_)
  refine wp_bind (wp_get (wp_ite (fun _ => wp_pure ⟨_, ht⟩) fun _ => ?_))
  refine wp_bind (wp_mono (ht.post (allows_sameKeys.writeImportTMD _)) fun done t ht => ?_)
  refine wp_ite (fun _ => ?_) fun _ => wp_pure ⟨_, ht⟩
  refine wp_bind (wp_mono (ht.post (keeps_finishImport allows_sameKeys.toAllowsDirs _)) fun done t ht => ?_)
  refine wp_ite (fun _ => ?_) fun _ => wp_pure ⟨_, ht⟩
  exact wp_bind (wp_mono ht.reset fun _ _ hu => wp_pure ⟨_, hu⟩)

theorem importTitleCancel_post (h : Keys s0 s) :
    Post F (importTitleCancel i) s fun _ t => Ends s0 s i t := by
  refine wp_bind ((h.now i).getContext (wp_ite (fun _ => wp_pure ⟨_, h.now i⟩) fun _ => ?_))
  refine wp_bind (wp_mono ((h.now i).post (keeps_finishCancelled allows_sameKeys.toAllowsDirs _))
    fun _ t ht => ?_)
  exact wp_bind (wp_mono ht.reset fun _ _ hu => wp_pure ⟨_, hu⟩)

/-! ### exports -/

theorem exportTitleInit_post (h0 : IsInitial s0) (h : Keys s0 s) (title_id : TitleId)
    (tmd_size : Nat) :
    Post F (exportTitleInit cfg i title_id tmd_size) s fun _ t => Ends s0 s i t := by
  refine wp_bind ((h.now i).getContext (wp_ite (fun _ => wp_pure ⟨_, h.now i⟩) fun _ => ?_))
  refine wp_bind (wp_mono ((h.now i).post (keeps_findTMD _ _)) fun tmd t ht => ?_)
  refine wp_ite (fun _ => wp_pure ⟨_, ht⟩) fun _ => ?_
  refine wp_bind (wp_mono ht.reset fun _ t ht => wp_bind ?_)
  refine ht.modify rfl (fun hcontent => absurd hcontent Bool.false_ne_true) fun t ht => ?_
  refine wp_bind (wp_mono (ht.initBackupKey h0 rfl fun hcontent => absurd hcontent
    Bool.false_ne_true) fun ret t ht => ?_)
  obtain ⟨k, ht⟩ := ht
  refine wp_ite (fun _ => wp_pure ⟨_, ht⟩) fun _ => wp_ite (fun _ => wp_pure ⟨_, ht⟩) fun _ => ?_
  exact wp_bind (ht.modify rfl (fun _ => rfl) fun _ hu => wp_pure ⟨_, hu⟩)

theorem exportContentBegin_post (h : Keys s0 s) (title_id : TitleId) (content_id : BitVec 32)
    (opened : Int) :
    Post F (exportContentBegin i title_id content_id opened) s fun _ t => Ends s0 s i t := by
  refine wp_bind ((h.now i).modify rfl (fun hcontent => absurd hcontent Bool.false_ne_true)
    fun t ht => wp_bind (ht.getContext ?_))
  refine wp_ite (fun _ => wp_pure ⟨_, ht⟩) fun hvalid => ?_
  have hvalid : (s.importExport i).valid = true := by
    simp only [Bool.or_eq_true, not_or, Bool.not_eq_true', Bool.not_eq_false] at hvalid
    exact hvalid.1
  simp only
  cases (s.importExport i).tmd.findContentById content_id with
  | none => exact wp_pure ⟨_, ht⟩
  | some info =>
    refine wp_bind (ht.modify rfl (fun _ => hvalid) fun t ht => ?_)
    refine wp_ite (fun _ => wp_bind (wp_mono ht.reset fun _ _ hu => wp_pure ⟨_, hu⟩)) fun _ => ?_
    exact wp_bind (ht.modify rfl (fun _ => hvalid) fun _ hu => wp_pure ⟨_, hu⟩)

/-- The refusal of `ExportContentData` loses no key object. -/
def ExportDataOk (s : ES) (i : Fin contextCount) (data : Bool) : Prop :=
  (s.importExport i).valid = true ∧ (s.importExport i).content.valid = true ∧ data = true ∨
    (s.importExport i).key_handle < 12

theorem exportContentData_post (h : Keys s0 s) {data : Bool} {data_size : Nat} (read_size : Int)
    (hok : ExportDataOk s i data) (hsize : data_size ≠ 0) :
    Post F (exportContentData cfg i data data_size read_size) s fun _ t => Ends s0 s i t := by
  refine wp_bind (wp_get (wp_ite (fun hrefuse => ?_) fun _ => ?_))
  · refine wp_bind ((h.now i).clear ?_ fun _ hu => wp_pure ⟨_, hu⟩)
    obtain ⟨hvalid, hcontent, rfl⟩ | hkey := hok
    · simp [hvalid, hcontent, hsize] at hrefuse
    · exact hkey
  · refine wp_ite (fun _ => ?_) fun _ => wp_pure ⟨_, h.now i⟩
    exact wp_bind (wp_mono (h.now i).reset fun _ _ hu => wp_pure ⟨_, hu⟩)

theorem exportContentEnd_post (h : Keys s0 s) (closed : EsCode) :
    Post F (exportContentEnd i closed) s fun _ t => Ends s0 s i t :=
  wp_bind ((h.now i).getContext
    (wp_ite (fun _ => wp_pure ⟨_, h.now i⟩) fun _ => wp_pure ⟨_, h.now i⟩))

theorem exportTitleDone_post (h : Keys s0 s) :
    Post F (exportTitleDone i) s fun _ t => Ends s0 s i t :=
  wp_bind (wp_mono (h.now i).reset fun _ _ hu => wp_pure ⟨_, hu⟩)

/-! ## calls -/

/-- A call on a context keeps the key objects together, if no refused export loses one. -/
def RequestOk (s : ES) (i : Fin contextCount) : Request → Prop
  | .exportContentData data data_size _ => data_size ≠ 0 → ExportDataOk s i data
  | _ => True

theorem request_post (h0 : IsInitial s0) (h : Keys s0 s) {req : Request}
    (hok : RequestOk s i req) :
    Post F (request cfg i req) s fun _ t => Ends s0 s i t := by
  cases req with
  | importTmd tmd_bytes =>
    exact wp_ite (fun _ => wp_pure ⟨_, h.now i⟩) fun _ => importTmd_post h0 h tmd_bytes
  | importTitleInit tmd_bytes chain =>
    exact wp_ite (fun _ => wp_pure ⟨_, h.now i⟩) fun _ => importTitleInit_post h0 h tmd_bytes chain
  | importContentBegin title_id content_id => exact importContentBegin_post h title_id content_id
  | importContentData data => exact importContentData_post h data
  | importContentEnd => exact importContentEnd_post h
  | importTitleDone => exact importTitleDone_post h
  | importTitleCancel => exact importTitleCancel_post h
  | exportTitleInit title_id tmd_size => exact exportTitleInit_post h0 h title_id tmd_size
  | exportContentBegin title_id content_id opened =>
    exact exportContentBegin_post h title_id content_id opened
  | exportContentData data data_size read_size =>
    exact wp_ite (fun _ => wp_pure ⟨_, h.now i⟩) fun hsize =>
      exportContentData_post h read_size (hok hsize) hsize
  | exportContentEnd closed => exact exportContentEnd_post h closed
  | exportTitleDone => exact exportTitleDone_post h
  | deleteSharedContent sha1 =>
    exact wp_mono ((h.now i).post (keeps_deleteSharedContent allows_sameKeys sha1))
      fun _ _ hu => ⟨_, hu⟩

end

end IOS.ES

end DolphinCore
