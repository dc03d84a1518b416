import DolphinCore.IOS.IOSC
import DolphinCore.Lib.Run

/-!
# DolphinCore.IOS.IOSCKeys

Runs of calls by any processes.  A key has its full size from when it was imported until
its object is deleted, and is empty otherwise.  All calls but one find out before they
use a key; computing a shared key does not.
-/

namespace DolphinCore.IOSC

/-! ## calls -/

inductive Call
  | createObject (type : ObjectType) (subtype : ObjectSubType)
  | deleteObject (handle : Nat)
  | importDecryptedKey (destHandle : Nat) (decryptedKey : Pointer)
  | importSecretKey (destHandle decryptHandle : Nat) (iv : List Byte) (encryptedKey : Pointer)
  | importPublicKey (destHandle : Nat) (publicKey publicKeyExponent : Pointer)
  | importCertificate (cert : Pointer) (signerHandle destHandle : Nat)
  | computeSharedKey (destHandle privateHandle publicHandle : Nat)
  | decryptEncrypt (encrypt : Bool) (keyHandle : Nat) (iv input : List Byte)
  | verifyPublicKeySign (sha1 : List Byte) (signerHandle : Nat) (signature : Pointer)
  | setOwnership (handle : Nat) (newOwner : BitVec 32)

/-- What a call returns and the state after it. -/
def exec (c : Crypto) (s : IOSC) (pid : Nat) : Call → Option (ReturnCode × IOSC)
  | .createObject type subtype =>
    let r := s.createObject type subtype pid
    some (r.1, r.2.2)
  | .deleteObject handle => some (s.deleteObject handle pid)
  | .importDecryptedKey dest key => some (s.importDecryptedKey dest key pid)
  | .importSecretKey dest decrypt iv key => some (s.importSecretKey c dest decrypt iv key pid)
  | .importPublicKey dest key exponent => some (s.importPublicKey dest key exponent pid)
  | .importCertificate cert signer dest => some (s.importCertificate c cert signer dest pid)
  | .computeSharedKey dest priv pub => s.computeSharedKey c dest priv pub pid
  | .decryptEncrypt encrypt key iv input =>
    some ((s.decryptEncrypt c encrypt key iv input pid).1, s)
  | .verifyPublicKeySign sha1 signer signature =>
    some (s.verifyPublicKeySign c sha1 signer signature pid, s)
  | .setOwnership handle newOwner => some (s.setOwnership handle newOwner pid)

/-- The objects whose keys a call uses. -/
def Call.keysUsed : Call → List Nat
  | .importSecretKey _ decrypt _ _ => [decrypt]
  | .importCertificate _ signer _ => [signer]
  | .computeSharedKey _ priv pub => [priv, pub]
  | .decryptEncrypt _ key _ _ => [key]
  | .verifyPublicKeySign _ signer _ => [signer]
  | _ => []

/-- The object that a call imports a key into. -/
def Call.dest : Call → Option Nat
  | .importDecryptedKey dest _ => some dest
  | .importSecretKey dest _ _ _ => some dest
  | .importPublicKey dest _ _ => some dest
  | .importCertificate _ _ dest => some dest
  | .computeSharedKey dest _ _ => some dest
  | _ => none

/-! ## sessions -/

/-- The objects, and into which of them a key was imported since they were created. -/
structure Session where
  state : IOSC
  imported : Fin 32 → Bool

/-- Default objects have their keys from the beginning. -/
def Session.init (s : IOSC) : Session := ⟨s, fun i => decide (i.val < 12)⟩

/-- The record of imports after a call that succeeded. -/
def Session.record (ss : Session) : Call → Fin 32 → Bool
  | .createObject _ _ =>
    match ss.state.findFreeEntry with
    | some i => Function.update ss.imported i false
    | none => ss.imported
  | .deleteObject handle =>
    match index handle with
    | some i => Function.update ss.imported i false
    | none => ss.imported
  | call =>
    match call.dest.bind index with
    | some i => Function.update ss.imported i true
    | none => ss.imported

/-- A call by a process. -/
def Session.step (c : Crypto) (ss : Session) (call : Call × Nat) : Option Session :=
  (exec c ss.state call.2 call.1).map fun r =>
    ⟨r.2, if r.1 = .IPC_SUCCESS then ss.record call.1 else ss.imported⟩

/-! ## what calls do -/

variable {c : Crypto} {call : Call} {e : KeyEntry}

section

variable {s s' : IOSC} {handle : Nat} {pid : Nat}

variable {i : Fin 32} {r : ReturnCode × IOSC} {s0 : IOSC} {ss : Session}

theorem index_eq_some : index handle = some i ↔ i.val = handle := by
  unfold index
  split
  · next h => rw [Option.some.injEq, Fin.ext_iff, eq_comm]
  · next h =>
    constructor
    · exact nofun
    · intro hi
      omega

theorem findEntry_eq_some (h : s.findEntry handle = some e) :
    ∃ i : Fin 32, index handle = some i ∧ i.val = handle ∧ s.m_key_entries i = e := by
  obtain ⟨i, hi, rfl⟩ := Option.map_eq_some_iff.mp h
  exact ⟨i, hi, index_eq_some.mp hi, rfl⟩

theorem of_hasOwnership (h : s.hasOwnership handle pid = true) (hi : index handle = some i) :
    (s.m_key_entries i).in_use = true ∧ pidMask pid &&& (s.m_key_entries i).owner_mask ≠ 0 := by
  have hroot : handle ≠ handleRootKey := by
    rintro rfl
    cases hi
  unfold hasOwnership getOwnership findEntry at h
  rw [hi, Option.map_some] at h
  cases huse : (s.m_key_entries i).in_use
  · simp [huse, hroot] at h
  · simp [huse, hroot] at h
    exact ⟨rfl, h⟩

theorem not_default (h : isDefaultHandle handle = false) (hi : index handle = some i) :
    12 ≤ i.val := by
  unfold isDefaultHandle handleNewCommonKey at h
  rw [Bool.or_eq_false_iff, decide_eq_false_iff_not] at h
  have := index_eq_some.mp hi
  omega

/-- A full key is stored in an object of the table. -/
def Stores (s : IOSC) (handle : Nat) (pid : Nat) (s' : IOSC) : Prop :=
  ∃ (i : Fin 32) (data misc : List Byte), index handle = some i ∧ 12 ≤ i.val ∧
    s.hasOwnership handle pid = true ∧ data.length = (s.m_key_entries i).fullSize ∧
    s' = { s with
      m_key_entries := Function.update s.m_key_entries i
        ({ s.m_key_entries i with data := data, misc_data := misc } : KeyEntry) }

/-- A call that imports a key fails and changes nothing, or it stores a full key. -/
def Imports (s : IOSC) (handle : Nat) (pid : Nat) (r : ReturnCode × IOSC) : Prop :=
  (r.1 ≠ .IPC_SUCCESS ∧ r.2 = s) ∨ (r.1 = .IPC_SUCCESS ∧ Stores s handle pid r.2)

theorem setEntry_eq (hi : index handle = some i) (e : KeyEntry) :
    s.setEntry handle e = { s with m_key_entries := Function.update s.m_key_entries i e } := by
  unfold setEntry
  rw [hi]

theorem imports_importDecryptedKey (s : IOSC) (handle : Nat) (key : Pointer) (pid : Nat) :
    Imports s handle pid (s.importDecryptedKey handle key pid) := by
  unfold importDecryptedKey
  split
  · exact .inl ⟨nofun, rfl⟩
  · next hacces =>
    simp only [Bool.or_eq_true, Bool.not_eq_true', not_or, Bool.not_eq_false, Bool.not_eq_true]
      at hacces
    split
    · exact .inl ⟨nofun, rfl⟩
    · next e he =>
      obtain ⟨i, hi, -, rfl⟩ := findEntry_eq_some he
      split
      · exact .inl ⟨nofun, rfl⟩
      · next htype =>
        simp only [not_or, not_not] at htype
        refine .inr ⟨rfl, i, _, (s.m_key_entries i).misc_data, hi, not_default hacces.2 hi,
          hacces.1, ?_, setEntry_eq hi _⟩
        rw [Pointer.length_bytes, KeyEntry.fullSize, htype.1, htype.2]
        rfl

theorem imports_importSecretKey (c : Crypto) (s : IOSC) (handle decrypt : Nat) (iv : List Byte)
    (key : Pointer) (pid : Nat) :
    Imports s handle pid (s.importSecretKey c handle decrypt iv key pid) := by
  unfold importSecretKey
  split
  · exact imports_importDecryptedKey ..
  · next ret output hne hret =>
    refine .inl ⟨?_, rfl⟩
    rintro rfl
    unfold decryptEncrypt at hret
    split at hret
    · cases hret
    · split at hret
      · cases hret
      · split at hret
        · cases hret
        · split at hret
          · cases hret
          · cases hret
            exact hne _ _ rfl rfl

theorem imports_importPublicKey (s : IOSC) (handle : Nat) (key exponent : Pointer) (pid : Nat) :
    Imports s handle pid (s.importPublicKey handle key exponent pid) := by
  unfold importPublicKey
  split
  · exact .inl ⟨nofun, rfl⟩
  · next hacces =>
    simp only [Bool.or_eq_true, Bool.not_eq_true', not_or, Bool.not_eq_false, Bool.not_eq_true]
      at hacces
    split
    · exact .inl ⟨nofun, rfl⟩
    · next e he =>
      obtain ⟨i, hi, -, rfl⟩ := findEntry_eq_some he
      split
      · exact .inl ⟨nofun, rfl⟩
      · split
        · exact .inl ⟨nofun, rfl⟩
        · simp only
          split
          · exact .inr ⟨rfl, i, _, _, hi, not_default hacces.2 hi, hacces.1,
              Pointer.length_bytes _ _, setEntry_eq hi _⟩
          · exact .inr ⟨rfl, i, _, (s.m_key_entries i).misc_data, hi, not_default hacces.2 hi,
              hacces.1, Pointer.length_bytes _ _, setEntry_eq hi _⟩

theorem imports_importCertificate (c : Crypto) (s : IOSC) (cert : Pointer) (signer handle : Nat)
    (pid : Nat) : Imports s handle pid (s.importCertificate c cert signer handle pid) := by
  unfold importCertificate
  split
  · exact .inl ⟨nofun, rfl⟩
  · split
    · split
      · exact .inl ⟨nofun, rfl⟩
      · split
        · exact .inl ⟨nofun, rfl⟩
        · simp only
          split
          · exact .inl ⟨nofun, rfl⟩
          · exact imports_importPublicKey ..
    · exact .inl ⟨nofun, rfl⟩

theorem imports_computeSharedKey {priv pub : Nat}
    (h : s.computeSharedKey c handle priv pub pid = some r) : Imports s handle pid r := by
  unfold computeSharedKey at h
  split at h
  · cases h
    exact .inl ⟨nofun, rfl⟩
  · next hacces =>
    simp only [Bool.or_eq_true, Bool.not_eq_true', not_or, Bool.not_eq_false, Bool.not_eq_true]
      at hacces
    split at h
    · next dest privE pubE hdest _ _ =>
      obtain ⟨i, hi, -, rfl⟩ := findEntry_eq_some hdest
      split at h
      · cases h
        exact .inl ⟨nofun, rfl⟩
      · next htype =>
        simp only [not_or, not_not] at htype
        split at h
        · cases h
        · cases h
          refine .inr ⟨rfl, i, _, (s.m_key_entries i).misc_data, hi, not_default hacces.2 hi,
            hacces.1.1.1, ?_, setEntry_eq hi _⟩
          rw [KeyEntry.fullSize, htype.1, htype.2.1, List.length_append, List.length_replicate,
            getSizeForType]
          have := List.length_take_le 16 (c.sha1 (List.take 30 (c.pointMul privE.data pubE.data)))
          omega
    · cases h
      exact .inl ⟨nofun, rfl⟩

/-- The state with one object changed. -/
def update (s : IOSC) (i : Fin 32) (e : KeyEntry) : IOSC :=
  { s with m_key_entries := Function.update s.m_key_entries i e }

/-- What a call does that succeeds. -/
inductive Effect (s : IOSC) (pid : Nat) : Call → IOSC → Prop
  | create {type : ObjectType} {subtype : ObjectSubType} {i : Fin 32}
      (free : s.findFreeEntry = some i) :
      Effect s pid (.createObject type subtype) (s.update i
        { s.m_key_entries i with
          in_use := true, type := type, subtype := subtype, owner_mask := pidMask pid })
  | delete {handle : Nat} {i : Fin 32} (hi : index handle = some i) (late : 12 ≤ i.val)
      (owner : s.hasOwnership handle pid = true) :
      Effect s pid (.deleteObject handle)
        (s.update i { s.m_key_entries i with in_use := false, data := [] })
  | store {call : Call} {handle : Nat} {i : Fin 32} {data misc : List Byte}
      (dest : call.dest = some handle) (hi : index handle = some i) (late : 12 ≤ i.val)
      (owner : s.hasOwnership handle pid = true)
      (full : data.length = (s.m_key_entries i).fullSize) :
      Effect s pid call (s.update i { s.m_key_entries i with data := data, misc_data := misc })
  | own {handle : Nat} {newOwner : BitVec 32} {i : Fin 32} (mask : BitVec 32) :
      Effect s pid (.setOwnership handle newOwner)
        (s.update i { s.m_key_entries i with owner_mask := mask })
  | use {call : Call} (keep : ∀ ss : Session, ss.record call = ss.imported) : Effect s pid call s

theorem Imports.effect (h : Imports s handle pid r) (hdest : call.dest = some handle) :
    (r.1 ≠ .IPC_SUCCESS ∧ r.2 = s) ∨ (r.1 = .IPC_SUCCESS ∧ Effect s pid call r.2) := by
  obtain hfail | ⟨hok, i, data, misc, hi, hlate, howner, hfull, hs⟩ := h
  · exact .inl hfail
  · rw [hs]
    exact .inr ⟨hok, .store hdest hi hlate howner hfull⟩

/-- A call fails and changes nothing, or it has its effect. -/
theorem effect_of_exec (h : exec c s pid call = some r) : (r.1 ≠ .IPC_SUCCESS ∧ r.2 = s)
    ∨ (r.1 = .IPC_SUCCESS ∧ Effect s pid call r.2) := by
  cases call with
  | createObject type subtype =>
    cases h
    simp only [createObject]
    split
    · exact .inl ⟨nofun, rfl⟩
    · next i hi =>
      rw [setEntry_eq (index_eq_some.mpr rfl)]
      exact .inr ⟨rfl, .create hi⟩
  | deleteObject handle =>
    cases h
    unfold deleteObject
    split
    · exact .inl ⟨nofun, rfl⟩
    · next hacces =>
      simp only [Bool.or_eq_true, Bool.not_eq_true', not_or, Bool.not_eq_false, Bool.not_eq_true]
        at hacces
      split
      · exact .inl ⟨nofun, rfl⟩
      · next e he =>
        obtain ⟨i, hi, -, rfl⟩ := findEntry_eq_some he
        rw [setEntry_eq hi]
        exact .inr ⟨rfl, .delete hi (not_default hacces.1 hi) hacces.2⟩
  | importDecryptedKey dest key =>
    cases h
    exact (imports_importDecryptedKey ..).effect rfl
  | importSecretKey dest decrypt iv key =>
    cases h
    exact (imports_importSecretKey ..).effect rfl
  | importPublicKey dest key exponent =>
    cases h
    exact (imports_importPublicKey ..).effect rfl
  | importCertificate cert signer dest =>
    cases h
    exact (imports_importCertificate ..).effect rfl
  | computeSharedKey dest priv pub => exact (imports_computeSharedKey h).effect rfl
  | decryptEncrypt encrypt key iv input =>
    cases h
    by_cases hok : (s.decryptEncrypt c encrypt key iv input pid).1 = .IPC_SUCCESS
    · exact .inr ⟨hok, .use fun _ => rfl⟩
    · exact .inl ⟨hok, rfl⟩
  | verifyPublicKeySign sha1 signer signature =>
    cases h
    by_cases hok : s.verifyPublicKeySign c sha1 signer signature pid = .IPC_SUCCESS
    · exact .inr ⟨hok, .use fun _ => rfl⟩
    · exact .inl ⟨hok, rfl⟩
  | setOwnership handle newOwner =>
    cases h
    unfold setOwnership
    split
    · exact .inl ⟨nofun, rfl⟩
    · split
      · exact .inl ⟨nofun, rfl⟩
      · next e he =>
        obtain ⟨i, hi, -, rfl⟩ := findEntry_eq_some he
        simp only
        split
        · exact .inl ⟨nofun, rfl⟩
        · rw [setEntry_eq hi]
          exact .inr ⟨rfl, .own _⟩

/-! ## the invariant -/

theorem update_of_ne {i j : Fin 32} (e : KeyEntry) (h : j ≠ i) :
    (s.update i e).m_key_entries j = s.m_key_entries j := Function.update_of_ne h ..

@[simp] theorem update_self (i : Fin 32) (e : KeyEntry) : (s.update i e).m_key_entries i = e :=
  Function.update_self ..

/-- Keys are full from their import on and empty before; built-in objects are as they
were, but for their owners. -/
structure Session.Good (s0 : IOSC) (ss : Session) : Prop where
  size : ∀ i, (ss.state.m_key_entries i).data.length =
    if (ss.state.m_key_entries i).in_use && ss.imported i then
      (ss.state.m_key_entries i).fullSize
    else 0
  default : ∀ i : Fin 32, i.val < 12 → ss.imported i = true ∧
    (ss.state.m_key_entries i).in_use = true ∧
    ss.state.m_key_entries i =
      { s0.m_key_entries i with owner_mask := (ss.state.m_key_entries i).owner_mask }
  root : ss.state.m_root_key_entry = s0.m_root_key_entry

theorem IsInitial.good (h : IsInitial s0) : (Session.init s0).Good s0 where
  size i := by
    by_cases hi : i.val < 12
    · obtain ⟨huse, -, hsize⟩ := h.default i hi
      simp [Session.init, hi, huse, hsize]
    · simp [Session.init, hi, (h.free i (by omega)).2]
  default i hi := ⟨decide_eq_true hi, (h.default i hi).1, rfl⟩
  root := rfl

theorem not_in_use_of_free (h : s.findFreeEntry = some i) : (s.m_key_entries i).in_use = false := by
  have := List.find?_some h
  rwa [Bool.not_eq_true'] at this

theorem Session.Good.update (h : ss.Good s0) (hi : 12 ≤ i.val) {b : Bool}
    (hsize : e.data.length = if e.in_use && b then e.fullSize else 0) :
    (Session.mk (ss.state.update i e) (Function.update ss.imported i b)).Good s0 where
  size j := by
    by_cases hj : j = i
    · subst hj
      simpa using hsize
    · simp only [Function.update_of_ne hj, update_of_ne e hj]
      exact h.size j
  default j hj := by
    have hne : j ≠ i := by
      rintro rfl
      omega
    simp only [Function.update_of_ne hne, update_of_ne e hne]
    exact h.default j hj
  root := h.root

theorem Session.record_of_dest (ss : Session) (hdest : call.dest = some handle)
    (hi : index handle = some i) :
    ss.record call = Function.update ss.imported i true := by
  have hbind : call.dest.bind index = some i := by
    rw [hdest, Option.bind_some, hi]
  cases call with
  | createObject | deleteObject => cases hdest
  | _ => simp only [record, hbind]

theorem Session.Good.effect (h : ss.Good s0) (he : Effect ss.state pid call s') :
    (Session.mk s' (ss.record call)).Good s0 := by
  cases he with
  | @create type subtype i hfree =>
    have huse := not_in_use_of_free hfree
    have hlate : 12 ≤ i.val := by
      by_contra hi
      rw [(h.default i (by omega)).2.1] at huse
      cases huse
    have hdata := h.size i
    rw [huse, Bool.false_and, if_neg Bool.false_ne_true] at hdata
    simp only [record, hfree]
    exact h.update hlate (by simpa using hdata)
  | @delete handle i hi hlate howner =>
    simp only [record, hi]
    exact h.update hlate (by simp)
  | @store _ handle i data misc hdest hi hlate howner hfull =>
    rw [record_of_dest ss hdest hi]
    refine h.update hlate ?_
    rw [(of_hasOwnership howner hi).1]
    simpa [KeyEntry.fullSize] using hfull
  | @own handle newOwner i mask =>
    refine ⟨fun j => ?_, fun j hj => ?_, h.root⟩
    · have := h.size j
      by_cases hj : j = i
      · subst hj
        simpa [KeyEntry.fullSize, record, Call.dest] using this
      · rw [update_of_ne _ hj]
        exact this
    · have := h.default j hj
      by_cases hne : j = i
      · subst hne
        rw [update_self]
        refine ⟨this.1, this.2.1, ?_⟩
        rw [this.2.2]
      · rw [update_of_ne _ hne]
        exact this
  | use keep =>
    rw [keep]
    exact h

theorem Session.Good.step {ss ss' : Session} {call : Call × Nat} (h : ss.Good s0)
    (hstep : ss.step c call = some ss') : ss'.Good s0 := by
  obtain ⟨r, hr, rfl⟩ := Option.map_eq_some_iff.mp hstep
  obtain ⟨hfail, hsame⟩ | ⟨hok, heffect⟩ := effect_of_exec hr
  · rw [if_neg hfail, hsame]
    exact h
  · rw [if_pos hok]
    exact h.effect heffect

theorem IsInitial.run {ok : Session → Call × Nat → Prop} (h : IsInitial s0)
    (hrun : Run (Session.step c) ok (Session.init s0) ss) : ss.Good s0 :=
  hrun.invariant h.good fun _ _ _ hgood _ hstep => hgood.step hstep

end

/-! ## keys in use -/

/-- A key was imported into an object since it was created. -/
def Session.Imported (ss : Session) (handle : Nat) : Prop :=
  ∃ i, index handle = some i ∧ ss.imported i = true

/-- A full key is stored, in the root object or since an import. -/
def Session.HasKey (ss : Session) (handle : Nat) : Prop :=
  ∃ e, ss.state.findEntryOrRoot handle = some e ∧ 0 < e.data.length ∧
    e.data.length = e.fullSize ∧ (handle = handleRootKey ∨ ss.Imported handle)

/-- What `ComputeSharedKey` checks. -/
def SharedKeyChecks (s : IOSC) (destHandle privateHandle publicHandle : Nat) (pid : Nat) : Prop :=
  s.hasOwnership destHandle pid = true ∧ s.hasOwnership privateHandle pid = true ∧
  s.hasOwnership publicHandle pid = true ∧ isDefaultHandle destHandle = false ∧
  ∃ dest priv pub : KeyEntry, s.findEntry destHandle = some dest ∧
    s.findEntry privateHandle = some priv ∧ s.findEntry publicHandle = some pub ∧
    dest.type = .secretKey ∧ dest.subtype = .aes128 ∧
    priv.type = .secretKey ∧ priv.subtype = .ecc233 ∧
    pub.type = .publicKey ∧ pub.subtype = .ecc233

/-- A shared key that gets as far as being computed has both of its keys. -/
def Session.KeysPresent (ss : Session) (pid : Nat) : Call → Prop
  | .computeSharedKey dest priv pub =>
    ss.state.SharedKeyChecks dest priv pub pid → ss.Imported priv ∧ ss.Imported pub
  | _ => True

section

variable {s : IOSC} {ss : Session} {s0 : IOSC} {pid handle : Nat}

theorem findEntryOrRoot_of_findEntry (h : s.findEntry handle = some e) :
    s.findEntryOrRoot handle = some e := by
  obtain ⟨i, -, hi, -⟩ := findEntry_eq_some h
  rw [findEntryOrRoot, if_neg (by rw [handleRootKey]; omega), h]

theorem Session.Good.hasKey (h : ss.Good s0) (he : ss.state.findEntry handle = some e)
    (hpos : 0 < e.data.length) : ss.HasKey handle := by
  obtain ⟨i, hi, -, rfl⟩ := findEntry_eq_some he
  have hsize := h.size i
  split at hsize
  · next huse =>
    rw [Bool.and_eq_true] at huse
    exact ⟨_, findEntryOrRoot_of_findEntry he, hpos, hsize, .inr ⟨i, hi, huse.2⟩⟩
  · omega

theorem Session.Good.length_of_hasOwnership (h : ss.Good s0)
    (he : ss.state.findEntry handle = some e) (howner : ss.state.hasOwnership handle pid = true) :
    (ss.Imported handle ∧ e.data.length = e.fullSize) ∨
      (¬ ss.Imported handle ∧ e.data.length = 0) := by
  obtain ⟨i, hi, -, rfl⟩ := findEntry_eq_some he
  have hsize := h.size i
  rw [(of_hasOwnership howner hi).1, Bool.true_and] at hsize
  split at hsize
  · next himp => exact .inl ⟨⟨i, hi, himp⟩, hsize⟩
  · next himp =>
    refine .inr ⟨?_, hsize⟩
    rintro ⟨j, hj, hjimp⟩
    rw [hi] at hj
    cases hj
    exact himp hjimp

theorem Session.Good.hasKey_of_decryptEncrypt (h : ss.Good s0) {encrypt : Bool}
    {iv input : List Byte}
    (hok : (ss.state.decryptEncrypt c encrypt handle iv input pid).1 = .IPC_SUCCESS) :
    ss.HasKey handle := by
  unfold decryptEncrypt at hok
  split at hok
  · cases hok
  · split at hok
    · cases hok
    · next e he =>
      split at hok
      · cases hok
      · split at hok
        · cases hok
        · next hlength => exact h.hasKey he (by omega)

theorem Session.Good.hasKey_of_verify (h : ss.Good s0) (h0 : IsInitial s0) {sha1 : List Byte}
    {signature : Pointer}
    (hok : ss.state.verifyPublicKeySign c sha1 handle signature pid = .IPC_SUCCESS) :
    ss.HasKey handle := by
  unfold verifyPublicKeySign at hok
  split at hok
  · cases hok
  · split at hok
    · cases hok
    · next e he =>
      split at hok
      · cases hok
      · split at hok
        · split at hok
          · next hrsa =>
            by_cases hroot : handle = handleRootKey
            · obtain ⟨htype, hsubtype, hlength⟩ := h0.root
              refine ⟨e, he, ?_⟩
              rw [findEntryOrRoot, if_pos hroot, Option.some.injEq, h.root] at he
              subst he
              rw [KeyEntry.fullSize, htype, hsubtype, hlength]
              exact ⟨by decide, rfl, .inl hroot⟩
            · rw [findEntryOrRoot, if_neg hroot] at he
              refine h.hasKey he ?_
              unfold rsaPkcs1Verify at hrsa
              split at hrsa
              · cases hrsa
              · omega
          · cases hok
        · cases hok

theorem computeSharedKey_cases (c : Crypto) (s : IOSC) (dest priv pub pid : Nat) :
    (¬ s.SharedKeyChecks dest priv pub pid ∧
      ∃ code, code ≠ .IPC_SUCCESS ∧ s.computeSharedKey c dest priv pub pid = some (code, s)) ∨
    (s.SharedKeyChecks dest priv pub pid ∧
      ∃ privE pubE, s.findEntry priv = some privE ∧ s.findEntry pub = some pubE ∧
        privE.fullSize = 30 ∧ pubE.fullSize = 60 ∧
        if privE.data.length < 30 ∨ pubE.data.length < 60 then
          s.computeSharedKey c dest priv pub pid = none
        else ∃ s', s.computeSharedKey c dest priv pub pid = some (.IPC_SUCCESS, s')) := by
  unfold computeSharedKey
  split
  · next hacces =>
    refine .inl ⟨?_, _, ?_, rfl⟩
    · rintro ⟨hd, hk, hp, hnot, -⟩
      rw [hd, hk, hp, hnot] at hacces
      cases hacces
    · exact nofun
  · next hacces =>
    simp only [Bool.or_eq_true, Bool.not_eq_true', not_or, Bool.not_eq_false, Bool.not_eq_true]
      at hacces
    obtain ⟨⟨⟨hd, hk⟩, hp⟩, hnot⟩ := hacces
    split
    · next d k p hde hke hpe =>
      split
      · next htypes =>
        refine .inl ⟨?_, _, ?_, rfl⟩
        · rintro ⟨-, -, -, -, d', k', p', hd', hk', hp', heqs⟩
          rw [hde, Option.some.injEq] at hd'
          rw [hke, Option.some.injEq] at hk'
          rw [hpe, Option.some.injEq] at hp'
          subst hd' hk' hp'
          simp [heqs] at htypes
        · exact nofun
      · next htypes =>
        simp only [not_or, not_not] at htypes
        refine .inr ⟨⟨hd, hk, hp, hnot, d, k, p, hde, hke, hpe, htypes⟩, k, p, hke, hpe, ?_, ?_, ?_⟩
        · rw [KeyEntry.fullSize, htypes.2.2.1, htypes.2.2.2.1]
          rfl
        · rw [KeyEntry.fullSize, htypes.2.2.2.2.1, htypes.2.2.2.2.2]
          rfl
        · split
          · rfl
          · exact ⟨_, rfl⟩
    · next hmissing =>
      refine .inl ⟨?_, _, ?_, rfl⟩
      · rintro ⟨-, -, -, -, d, k, p, hde, hke, hpe, -⟩
        exact hmissing d k p hde hke hpe
      · exact nofun

theorem Session.Good.computeSharedKey_iff (h : ss.Good s0) {dest priv pub : Nat} :
    (∃ r, ss.state.computeSharedKey c dest priv pub pid = some r ∧
      (r.1 = .IPC_SUCCESS → ∀ handle ∈ [priv, pub], ss.HasKey handle)) ↔
    (ss.state.SharedKeyChecks dest priv pub pid → ss.Imported priv ∧ ss.Imported pub) := by
  obtain ⟨hfail, code, hcode, hr⟩ | ⟨hchecks, privE, pubE, hpriv, hpub, hfullk, hfullp, hr⟩ :=
    computeSharedKey_cases c ss.state dest priv pub pid
  · rw [hr]
    exact ⟨fun _ hchecks => absurd hchecks hfail, fun _ => ⟨_, rfl, fun hok => absurd hok hcode⟩⟩
  · have hk := h.length_of_hasOwnership hpriv hchecks.2.1
    have hp := h.length_of_hasOwnership hpub hchecks.2.2.1
    split at hr
    · next hshort =>
      rw [hr]
      constructor
      · rintro ⟨r, hr, -⟩
        cases hr
      · intro himp
        obtain ⟨himpk, himpp⟩ := himp hchecks
        simp only [himpk, himpp, true_and, not_true_eq_false, false_and, or_false] at hk hp
        omega
    · next hlong =>
      obtain ⟨s', hs'⟩ := hr
      rw [hs']
      constructor
      · rintro - -
        exact ⟨hk.elim And.left (fun hempty => absurd hempty.2 (by omega)),
          hp.elim And.left (fun hempty => absurd hempty.2 (by omega))⟩
      · rintro -
        refine ⟨_, rfl, fun _ handle hmem => ?_⟩
        rw [List.mem_pair] at hmem
        obtain rfl | rfl := hmem
        · exact h.hasKey hpriv (by omega)
        · exact h.hasKey hpub (by omega)

theorem Session.Good.uses_iff (h : ss.Good s0) (h0 : IsInitial s0) :
    (∃ r, exec c ss.state pid call = some r ∧
      (r.1 = .IPC_SUCCESS → ∀ handle ∈ call.keysUsed, ss.HasKey handle)) ↔
    ss.KeysPresent pid call := by
  cases call with
  | computeSharedKey dest priv pub => exact h.computeSharedKey_iff
  | importSecretKey dest decrypt iv key =>
    refine iff_of_true ⟨_, rfl, fun hok handle hmem => ?_⟩ trivial
    rw [List.mem_singleton.mp hmem]
    unfold importSecretKey at hok
    split at hok
    · next hdecrypt => exact h.hasKey_of_decryptEncrypt (by rw [hdecrypt])
    · next ret output hne hret =>
      have hdecrypt : (ss.state.decryptEncrypt c false decrypt iv (key.bytes 16) pid).1 =
          .IPC_SUCCESS := by
        rw [hret]
        exact hok
      exact h.hasKey_of_decryptEncrypt hdecrypt
  | importCertificate cert signer dest =>
    refine iff_of_true ⟨_, rfl, fun hok handle hmem => ?_⟩ trivial
    rw [List.mem_singleton.mp hmem]
    unfold importCertificate at hok
    split at hok
    · cases hok
    · split at hok
      · split at hok
        · cases hok
        · split at hok
          · cases hok
          · simp only at hok
            split at hok
            · cases hok
            · next hverify => exact h.hasKey_of_verify h0 (not_not.mp hverify)
      · cases hok
  | decryptEncrypt encrypt key iv input =>
    refine iff_of_true ⟨_, rfl, fun hok handle hmem => ?_⟩ trivial
    rw [List.mem_singleton.mp hmem]
    exact h.hasKey_of_decryptEncrypt hok
  | verifyPublicKeySign sha1 signer signature =>
    refine iff_of_true ⟨_, rfl, fun hok handle hmem => ?_⟩ trivial
    rw [List.mem_singleton.mp hmem]
    exact h.hasKey_of_verify h0 hok
  | _ => exact iff_of_true ⟨_, rfl, fun _ _ hmem => absurd hmem List.not_mem_nil⟩ trivial

/-- A call changes the keys of the objects that its process owns, and of built-in objects
the owners. -/
theorem Session.Good.frame (h : ss.Good s0) {s' : IOSC} (he : Effect ss.state pid call s') :
    (∀ i : Fin 32, 12 ≤ i.val → ((s'.m_key_entries i).data ≠ (ss.state.m_key_entries i).data ∨
        (s'.m_key_entries i).misc_data ≠ (ss.state.m_key_entries i).misc_data) →
      (ss.state.m_key_entries i).in_use = true ∧
        pidMask pid &&& (ss.state.m_key_entries i).owner_mask ≠ 0) ∧
    (∀ i : Fin 32, i.val < 12 → ∃ mask,
      s'.m_key_entries i = { ss.state.m_key_entries i with owner_mask := mask }) ∧
    s'.m_root_key_entry = ss.state.m_root_key_entry := by
  cases he with
  | @create type subtype i hfree =>
    have huse := not_in_use_of_free hfree
    refine ⟨fun j hj hchange => ?_, fun j hj => ?_, rfl⟩
    · by_cases hne : j = i
      · subst hne
        simp at hchange
      · simp [update_of_ne _ hne] at hchange
    · have hne : j ≠ i := by
        rintro rfl
        rw [(h.default j hj).2.1] at huse
        cases huse
      rw [update_of_ne _ hne]
      exact ⟨_, rfl⟩
  | @delete handle i hi hlate howner =>
    refine ⟨fun j hj hchange => ?_, fun j hj => ?_, rfl⟩
    · by_cases hne : j = i
      · subst hne
        exact of_hasOwnership howner hi
      · simp [update_of_ne _ hne] at hchange
    · rw [update_of_ne _ (by rintro rfl; omega)]
      exact ⟨_, rfl⟩
  | @store _ handle i data misc hdest hi hlate howner hfull =>
    refine ⟨fun j hj hchange => ?_, fun j hj => ?_, rfl⟩
    · by_cases hne : j = i
      · subst hne
        exact of_hasOwnership howner hi
      · simp [update_of_ne _ hne] at hchange
    · rw [update_of_ne _ (by rintro rfl; omega)]
      exact ⟨_, rfl⟩
  | @own handle newOwner i mask =>
    refine ⟨fun j hj hchange => ?_, fun j hj => ?_, rfl⟩
    · by_cases hne : j = i
      · subst hne
        simp at hchange
      · simp [update_of_ne _ hne] at hchange
    · by_cases hne : j = i
      · subst hne
        exact ⟨mask, update_self ..⟩
      · rw [update_of_ne _ hne]
        exact ⟨_, rfl⟩
  | use keep => exact ⟨fun j hj hchange => by simp at hchange, fun j hj => ⟨_, rfl⟩, rfl⟩

end

/-- In every state that processes reach, a call reads keys within their data, and has all
of them if it succeeds, unless it computes a shared key that was not imported.  The keys of
other objects change for their owners only, built-in objects keep their keys. -/
theorem call_uses_full_keys {c : Crypto} {s0 : IOSC} (h0 : IsInitial s0) {ss : Session}
    (hrun : Run (Session.step c) (fun _ call => call.2 < 28) (Session.init s0) ss)
    (call : Call) (pid : Nat) :
    ((∃ r, exec c ss.state pid call = some r ∧
        (r.1 = .IPC_SUCCESS → ∀ handle ∈ call.keysUsed, ss.HasKey handle)) ↔
      ss.KeysPresent pid call) ∧
    ∀ r, exec c ss.state pid call = some r → (∀ i : Fin 32, 12 ≤ i.val →
        ((r.2.m_key_entries i).data ≠ (ss.state.m_key_entries i).data ∨
          (r.2.m_key_entries i).misc_data ≠ (ss.state.m_key_entries i).misc_data) →
        (ss.state.m_key_entries i).in_use = true ∧
          pidMask pid &&& (ss.state.m_key_entries i).owner_mask ≠ 0) ∧
      (∀ i : Fin 32, i.val < 12 → ∃ mask,
        r.2.m_key_entries i = { s0.m_key_entries i with owner_mask := mask }) ∧
      r.2.m_root_key_entry = s0.m_root_key_entry := by
  have hgood := h0.run hrun
  refine ⟨hgood.uses_iff h0, fun r hr => ?_⟩
  obtain ⟨-, hsame⟩ | ⟨-, heffect⟩ := effect_of_exec hr
  · rw [hsame]
    refine ⟨fun i _ hchange => by simp at hchange, fun i hi => ?_, hgood.root⟩
    exact ⟨_, (hgood.default i hi).2.2⟩
  · obtain ⟨howned, hbuiltin, hroot⟩ := hgood.frame heffect
    refine ⟨howned, fun i hi => ?_, hroot.trans hgood.root⟩
    obtain ⟨mask, hmask⟩ := hbuiltin i hi
    refine ⟨mask, ?_⟩
    rw [hmask, (hgood.default i hi).2.2]

/-! ## a key that was not imported -/

/-- Built-in objects with blank keys. -/
def blankKeys : IOSC where
  m_key_entries i :=
    match defaultEntries[i.val]? with
    | some (type, subtype, owners) =>
      ⟨true, type, subtype, List.replicate (getSizeForType type subtype) 0, [0, 0, 0, 0], owners⟩
    | none => ⟨false, .secretKey, .aes128, [], [0, 0, 0, 0], 0⟩
  m_root_key_entry := ⟨false, .publicKey, .rsa4096, List.replicate 512 0, [0, 0, 0, 3], 0⟩

theorem blankKeys_initial : IsInitial blankKeys where
  default := by decide
  free := by decide
  root := ⟨rfl, rfl, List.length_replicate ..⟩

/-- Ciphers that no call below gets to. -/
def noCrypto : Crypto where
  aes _ _ _ input := (input, [])
  pointMul _ _ := []
  sha1 _ := []
  rsaVerify _ _ _ _ := false

/-- A process creates a public key and a key to be computed. -/
def keysToCompute : List (Call × Nat) :=
  [(.createObject .publicKey .ecc233, 1), (.createObject .secretKey .aes128, 1)]

/-- After which the public key that is read has no data. -/
theorem missing_public_key_read : ∃ ss,
    Run (Session.step noCrypto) (fun _ call => call.2 < 28) (Session.init blankKeys) ss ∧
    exec noCrypto ss.state 1 (.computeSharedKey 13 0 12) = none :=
  ⟨_, .of_exec_guarded keysToCompute rfl, rfl⟩

theorem call_uses_full_keys_missing : ∃ ss,
    Run (Session.step noCrypto) (fun _ call => call.2 < 28) (Session.init blankKeys) ss ∧
    ((∃ r, exec noCrypto ss.state 1 (.computeSharedKey 13 0 12) = some r ∧ (r.1 = .IPC_SUCCESS →
          ∀ handle ∈ Call.keysUsed (.computeSharedKey 13 0 12), ss.HasKey handle)) ↔
      ss.KeysPresent 1 (.computeSharedKey 13 0 12)) :=
  ⟨_, .of_exec_guarded keysToCompute rfl,
    (call_uses_full_keys blankKeys_initial (.of_exec_guarded keysToCompute rfl)
      (.computeSharedKey 13 0 12) 1).1⟩

end DolphinCore.IOSC
