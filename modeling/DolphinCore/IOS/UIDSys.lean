import DolphinCore.Lib.Endian
import DolphinCore.Lib.Ordered
import DolphinCore.Lib.Run

/-!
# DolphinCore.IOS.UIDSys

`UIDSys` of `IOS/ES/Formats.cpp`: the user ids of titles, as a map in memory and as the file
`uid.sys`, which is appended to.  An id stays in the map when its append fails.
-/

namespace DolphinCore.IOS

open Endian

namespace UIDSys

/-! ## the file -/

/-- An entry of the file: the id and the title. -/
abbrev Entry := BitVec 32 × BitVec 64

/-- The bytes of an entry, the title in front. -/
def encode (e : Entry) : List Byte := toBE 8 e.2.toNat ++ toBE 4 e.1.toNat

/-- `ReadUidSysEntry`, and what is left of the file. -/
def readUidSysEntry (file : List Byte) : Entry × List Byte :=
  if file.length < 8 then ((0, 0), [])
  else if (file.drop 8).length < 4 then ((0, 0), [])
  else
    ((BitVec.ofNat 32 (fromBE ((file.drop 8).take 4)), BitVec.ofNat 64 (fromBE (file.take 8))),
      file.drop 12)

/-- The loop of the constructor. -/
def readLoop : Nat → List Byte → List Entry
  | 0, _ => []
  | fuel + 1, file =>
    let (entry, rest) := readUidSysEntry file
    if entry.1 = 0 ∧ entry.2 = 0 then [] else entry :: readLoop fuel rest

/-- The entries that are read from a file. -/
def readEntries (file : List Byte) : List Entry := readLoop (file.length + 1) file

/-! ## the map -/

abbrev SYSTEM_MENU : BitVec 64 := 0x0000000100000002

/-- `insert` of an entry, which leaves a key that is there as it is. -/
def insert (m : OrdMap (BitVec 32) (BitVec 64)) (e : Entry) : OrdMap (BitVec 32) (BitVec 64) :=
  if e.1 ∈ m.keys then m else m.modify e.1 fun _ => e.2

def getUIDFromTitle (m : OrdMap (BitVec 32) (BitVec 64)) (title : BitVec 64) : BitVec 32 :=
  (m.keys.toList.find? fun uid => m.find uid = some title).getD 0

def getNextUID (m : OrdMap (BitVec 32) (BitVec 64)) : BitVec 32 :=
  match m.keys.toList.getLast? with
  | none => 0x00001000
  | some uid => uid + 1

/-- What the two writes of an append do. -/
inductive Append where
  | succeed
  | failTitle
  | failUid
  deriving DecidableEq

/-- The map and the file, with what has been returned and what has been appended so far. -/
structure State where
  entries : OrdMap (BitVec 32) (BitVec 64)
  file : List Byte
  returned : List (BitVec 64 × BitVec 32)
  inserted : List Entry

def getOrInsertUIDForTitle (s : State) (title : BitVec 64) (append : Append) : BitVec 32 × State :=
  let currentUid := getUIDFromTitle s.entries title
  if currentUid ≠ 0 then (currentUid, s)
  else
    let uid := getNextUID s.entries
    let s := { s with entries := insert s.entries (uid, title) }
    match append with
    | .failTitle => (0, s)
    | .failUid => (0, { s with file := s.file ++ toBE 8 title.toNat })
    | .succeed =>
      (uid, { s with
        file := s.file ++ encode (uid, title)
        inserted := s.inserted ++ [(uid, title)] })

/-- The constructor. -/
def construct (s : State) (append : Append) : State :=
  let s := { s with entries := (readEntries s.file).foldl insert .empty }
  if s.entries.keys.isEmpty then (getOrInsertUIDForTitle s SYSTEM_MENU append).2 else s

inductive Call where
  | getOrInsertUIDForTitle (title : BitVec 64) (append : Append)
  | construct (append : Append)

def step (s : State) : Call → State
  | .getOrInsertUIDForTitle title append =>
    let (uid, s) := getOrInsertUIDForTitle s title append
    if uid = 0 then s else { s with returned := s.returned ++ [(title, uid)] }
  | .construct append => construct s append

/-- The first construction, where there is no file. -/
def init (append : Append) : State := construct ⟨.empty, [], [], []⟩ append

/-! ## reading what was appended -/

theorem length_encode (e : Entry) : (encode e).length = 12 := by
  rw [encode, List.length_append, length_toBE, length_toBE]

theorem readUidSysEntry_encode (e : Entry) (rest : List Byte) :
    readUidSysEntry (encode e ++ rest) = (e, rest) := by
  have hlen : (encode e ++ rest).length = 12 + rest.length := by
    rw [List.length_append, length_encode]
  have hfront : (encode e ++ rest).take 8 = toBE 8 e.2.toNat := by
    exact List.take_left' (length_toBE 8 _)
  have hback : (encode e ++ rest).drop 8 = toBE 4 e.1.toNat ++ rest := by
    exact List.drop_left' (length_toBE 8 _)
  rw [readUidSysEntry, if_neg (by omega), if_neg (by rw [List.length_drop]; omega), hback, hfront,
    List.take_left' (length_toBE 4 _), List.drop_left' (length_encode e),
    fromBE_toBE_of_lt e.1.isLt, fromBE_toBE_of_lt e.2.isLt, BitVec.ofNat_toNat, BitVec.ofNat_toNat]
  rfl

theorem readLoop_flatMap_encode : (l : List Entry) → (fuel : Nat) → l.length < fuel →
    (∀ e ∈ l, e.1 ≠ 0) → readLoop fuel (l.flatMap encode) = l
  | [], fuel + 1, _, _ => rfl
  | e :: l, fuel + 1, hfuel, h => by
    have he := h e (List.mem_cons_self ..)
    rw [List.flatMap_cons, readLoop, readUidSysEntry_encode]
    dsimp only
    rw [if_neg fun hzero => he hzero.1, readLoop_flatMap_encode l fuel (by
        rw [List.length_cons] at hfuel
        omega) fun e' he' => h e' (List.mem_cons_of_mem _ he')]

theorem readEntries_flatMap_encode {l : List Entry} (h : ∀ e ∈ l, e.1 ≠ 0) :
    readEntries (l.flatMap encode) = l := by
  have hlen := length_flatMap_of_length length_encode l
  exact readLoop_flatMap_encode l _ (by omega) h

/-! ## lookups -/

variable {m : OrdMap (BitVec 32) (BitVec 64)} {title : BitVec 64} {uid : BitVec 32}
  {append : Append}

theorem find_insert {e : Entry} (h : e.1 ∉ m.keys) (uid : BitVec 32) :
    (insert m e).find uid = if uid = e.1 then some e.2 else m.find uid := by
  rw [insert, if_neg h, OrdMap.find_modify]
  by_cases heq : uid = e.1
  · rw [if_pos heq, if_pos heq]
  · rw [if_neg heq, if_neg heq]

theorem find_foldl_insert : (l : List Entry) → (m : OrdMap (BitVec 32) (BitVec 64)) →
    (l.map Prod.fst).Nodup → (∀ e ∈ l, e.1 ∉ m.keys) → (uid : BitVec 32) → (title : BitVec 64) →
    ((l.foldl insert m).find uid = some title ↔ (uid, title) ∈ l ∨ m.find uid = some title)
  | [], _, _, _, _, _ => by simp
  | e :: l, m, hnodup, hnew, uid, title => by
    obtain ⟨he, hnodup'⟩ := List.nodup_cons.mp hnodup
    have hm := hnew e (List.mem_cons_self ..)
    have hkeys : ∀ e' ∈ l, e'.1 ∉ (insert m e).keys := by
      intro e' he' hmem
      rw [insert, if_neg hm, OrdMap.mem_keys_modify] at hmem
      rcases hmem with heq | hmem
      · exact he (heq ▸ List.mem_map_of_mem he')
      · exact hnew e' (List.mem_cons_of_mem _ he') hmem
    rw [List.foldl_cons, find_foldl_insert l (insert m e) hnodup' hkeys, find_insert hm,
      List.mem_cons]
    by_cases heq : uid = e.1
    · have hnone : m.find uid ≠ some title := by
        rw [heq]
        exact fun h => hm (OrdMap.mem_keys_of_find h)
      rw [if_pos heq, or_iff_left hnone, or_comm, Prod.ext_iff, Option.some_inj]
      exact or_congr_left ⟨fun h => ⟨heq, h.symm⟩, fun h => h.2.symm⟩
    · have hne : (uid, title) ≠ e := fun h => heq (congrArg Prod.fst h)
      rw [if_neg heq, or_iff_right hne]

/-- A title has one id at most. -/
def OneUid (m : OrdMap (BitVec 32) (BitVec 64)) : Prop :=
  ∀ uid uid' title, m.find uid = some title → m.find uid' = some title → uid = uid'

theorem find_of_find? (h : m.keys.toList.find? (fun uid => m.find uid = some title) = some uid) :
    m.find uid = some title :=
  of_decide_eq_true (List.find?_some (p := fun uid => decide (m.find uid = some title)) h)

theorem getUIDFromTitle_eq (h : OneUid m) (hfind : m.find uid = some title) :
    getUIDFromTitle m title = uid := by
  rw [getUIDFromTitle]
  cases hf : m.keys.toList.find? fun uid => m.find uid = some title with
  | none =>
    have hmem := OrdMap.mem_keys_of_find hfind
    exact absurd (decide_eq_true hfind) (List.find?_eq_none.mp hf uid hmem)
  | some uid' => exact h uid' uid title (find_of_find? hf) hfind

theorem find_ne_of_getUIDFromTitle (hpos : ∀ uid title, m.find uid = some title → uid ≠ 0)
    (h : getUIDFromTitle m title = 0) (uid : BitVec 32) : m.find uid ≠ some title := by
  intro hfind
  rw [getUIDFromTitle] at h
  cases hf : m.keys.toList.find? fun uid => m.find uid = some title with
  | none =>
    exact absurd (decide_eq_true hfind)
      (List.find?_eq_none.mp hf uid (OrdMap.mem_keys_of_find hfind))
  | some uid' =>
    rw [hf] at h
    exact hpos uid' title (find_of_find? hf) h

theorem lt_getNextUID (h : getNextUID m ≠ 0) (huid : uid ∈ m.keys) : uid < getNextUID m := by
  rw [getNextUID] at h ⊢
  cases hlast : m.keys.toList.getLast? with
  | none =>
    rw [List.getLast?_eq_none_iff] at hlast
    rw [← OrdSet.mem_toList, hlast] at huid
    exact absurd huid List.not_mem_nil
  | some last =>
    rw [hlast] at h
    have hle := (getLast?_sorted m.keys.sorted hlast).2 uid huid
    rw [BitVec.le_def] at hle
    rw [BitVec.lt_def, BitVec.toNat_add]
    have hne : last.toNat + 1 ≠ 2 ^ 32 := by
      intro heq
      apply h
      apply BitVec.eq_of_toNat_eq
      exact (congrArg (· % 2 ^ 32) heq).trans (Nat.mod_self _)
    have hone : (1 : BitVec 32).toNat = 1 := rfl
    omega

/-! ## runs -/

/-- What the map, the file and the history have to do with each other. -/
structure Inv (s : State) : Prop where
  file_eq : s.file = s.inserted.flatMap encode
  sorted : (s.inserted.map Prod.fst).Pairwise (· < ·)
  title_nodup : (s.inserted.map Prod.snd).Nodup
  find_inserted : ∀ e ∈ s.inserted, s.entries.find e.1 = some e.2
  oneUid : OneUid s.entries
  uid_ne_zero : ∀ uid title, s.entries.find uid = some title → uid ≠ 0
  returned_mem : ∀ r ∈ s.returned, (r.2, r.1) ∈ s.inserted

/-- A call that is in order: a title that is in the map is in the file, an append does not break
off between its two writes, and the next id does not wrap around. -/
def CallOk (s : State) : Call → Prop
  | .getOrInsertUIDForTitle title append =>
    if getUIDFromTitle s.entries title = 0 then getNextUID s.entries ≠ 0 ∧ append ≠ .failUid
    else title ∈ (readEntries s.file).map Prod.snd
  | .construct append => readEntries s.file = [] → append ≠ .failUid

instance (s : State) : (c : Call) → Decidable (CallOk s c)
  | .getOrInsertUIDForTitle title append => inferInstanceAs (Decidable
      (if getUIDFromTitle s.entries title = 0 then getNextUID s.entries ≠ 0 ∧ append ≠ .failUid
        else title ∈ (readEntries s.file).map Prod.snd))
  | .construct append => inferInstanceAs (Decidable (readEntries s.file = [] → append ≠ .failUid))

namespace Inv

variable {s : State}

theorem inserted_ne_zero (h : Inv s) : ∀ e ∈ s.inserted, e.1 ≠ 0 :=
  fun e he => h.uid_ne_zero e.1 e.2 (h.find_inserted e he)

theorem readEntries_eq (h : Inv s) : readEntries s.file = s.inserted := by
  rw [h.file_eq]
  exact readEntries_flatMap_encode h.inserted_ne_zero

/-- A new title, whose append succeeds or fails as a whole. -/
theorem getOrInsert_new (h : Inv s) (hnew : getUIDFromTitle s.entries title = 0)
    (hnext : getNextUID s.entries ≠ 0) (happend : append ≠ .failUid) :
    Inv (getOrInsertUIDForTitle s title append).2 ∧
      (getOrInsertUIDForTitle s title append).2.returned = s.returned ∧
      ((getOrInsertUIDForTitle s title append).1 ≠ 0 →
        ((getOrInsertUIDForTitle s title append).1, title) ∈
          (getOrInsertUIDForTitle s title append).2.inserted) := by
  have hkey : (getNextUID s.entries, title).1 ∉ s.entries.keys :=
    fun hmem => lt_irrefl _ (lt_getNextUID hnext hmem)
  have hfind := find_insert hkey
  have hold : ∀ uid t, s.entries.find uid = some t → uid ≠ getNextUID s.entries := by
    rintro uid t hf rfl
    exact hkey (OrdMap.mem_keys_of_find hf)
  have hinserted : ∀ e ∈ s.inserted,
      (insert s.entries (getNextUID s.entries, title)).find e.1 = some e.2 := by
    intro e he
    have hf := h.find_inserted e he
    rw [hfind, if_neg (hold e.1 e.2 hf), hf]
  have hone : OneUid (insert s.entries (getNextUID s.entries, title)) := by
    intro uid uid' t hu hu'
    rw [hfind] at hu hu'
    have hno := find_ne_of_getUIDFromTitle h.uid_ne_zero hnew
    split at hu
    next heq =>
      split at hu'
      next heq' => rw [heq, heq']
      next => exact absurd (hu'.trans hu.symm) (hno uid')
    next =>
      split at hu'
      next => exact absurd (hu.trans hu'.symm) (hno uid)
      next => exact h.oneUid uid uid' t hu hu'
  have hpos : ∀ uid t, (insert s.entries (getNextUID s.entries, title)).find uid = some t → uid ≠ 0 := by
    intro uid t hu
    rw [hfind] at hu
    split at hu
    next heq => exact heq ▸ hnext
    next => exact h.uid_ne_zero uid t hu
  rw [getOrInsertUIDForTitle, if_neg (not_not.mpr hnew)]
  cases append with
  | failUid => exact absurd rfl happend
  | failTitle =>
    exact ⟨⟨h.file_eq, h.sorted, h.title_nodup, hinserted, hone, hpos, h.returned_mem⟩, rfl,
      fun hne => absurd rfl hne⟩
  | succeed =>
    refine ⟨⟨?_, ?_, ?_, ?_, hone, hpos, ?_⟩, rfl,
      fun _ => List.mem_append_right _ (List.mem_singleton_self _)⟩
    · rw [List.flatMap_append, List.flatMap_singleton, h.file_eq]
    · rw [List.map_append, List.pairwise_append]
      refine ⟨h.sorted, List.pairwise_singleton _ _, ?_⟩
      intro a ha b hb
      rw [List.map_singleton, List.mem_singleton] at hb
      obtain ⟨e, he, rfl⟩ := List.mem_map.mp ha
      rw [hb]
      exact lt_getNextUID hnext (OrdMap.mem_keys_of_find (h.find_inserted e he))
    · rw [List.map_append, List.nodup_append]
      refine ⟨h.title_nodup, List.nodup_singleton _, ?_⟩
      rintro a ha b hb rfl
      rw [List.map_singleton, List.mem_singleton] at hb
      obtain ⟨e, he, heq⟩ := List.mem_map.mp ha
      have hf := h.find_inserted e he
      rw [heq, hb] at hf
      exact find_ne_of_getUIDFromTitle h.uid_ne_zero hnew e.1 hf
    · intro e he
      rcases List.mem_append.mp he with he | he
      · exact hinserted e he
      · rw [List.mem_singleton.mp he, hfind, if_pos rfl]
    · exact fun r hr => List.mem_append_left _ (h.returned_mem r hr)

theorem getUID_of_mem (h : Inv s) {e : Entry} (he : e ∈ s.inserted) :
    getUIDFromTitle s.entries e.2 = e.1 :=
  getUIDFromTitle_eq h.oneUid (h.find_inserted e he)

theorem reload (h : Inv s) :
    Inv { s with entries := (readEntries s.file).foldl insert .empty } := by
  have hnodup : (s.inserted.map Prod.fst).Nodup := h.sorted.imp fun hlt => ne_of_lt hlt
  have hfind : ∀ uid title, ((readEntries s.file).foldl insert .empty).find uid = some title ↔
      (uid, title) ∈ s.inserted := by
    intro uid title
    rw [h.readEntries_eq, find_foldl_insert s.inserted .empty hnodup
      (fun _ _ => OrdSet.not_mem_empty _), OrdMap.find_empty, or_iff_left nofun]
  refine ⟨h.file_eq, h.sorted, h.title_nodup, fun e he => (hfind e.1 e.2).mpr he, ?_, ?_,
    h.returned_mem⟩
  · intro uid uid' title hu hu'
    have heq := List.inj_on_of_nodup_map h.title_nodup ((hfind uid title).mp hu)
      ((hfind uid' title).mp hu') rfl
    exact congrArg Prod.fst heq
  · intro uid title hu
    exact h.inserted_ne_zero _ ((hfind uid title).mp hu)

theorem construct (h : Inv s) (hok : readEntries s.file = [] → append ≠ .failUid) :
    Inv (construct s append) := by
  have hload := h.reload
  rw [UIDSys.construct]
  split
  next hempty =>
    have hkeys := List.isEmpty_iff.mp hempty
    have hnil : readEntries s.file = [] := by
      rw [h.readEntries_eq]
      by_contra hne
      obtain ⟨e, he⟩ := List.exists_mem_of_ne_nil _ hne
      exact OrdSet.not_mem_of_isEmpty hempty e.1 (OrdMap.mem_keys_of_find (hload.find_inserted e he))
    refine (hload.getOrInsert_new ?_ ?_ (hok hnil)).1
    · rw [getUIDFromTitle, hkeys]
      rfl
    · rw [getNextUID, hkeys]
      decide
  next => exact hload

theorem step (h : Inv s) {c : Call} (hok : CallOk s c) : Inv (step s c) := by
  cases c with
  | construct append => exact h.construct hok
  | getOrInsertUIDForTitle title append =>
    rw [UIDSys.step]
    rw [CallOk] at hok
    by_cases hnew : getUIDFromTitle s.entries title = 0
    · rw [if_pos hnew] at hok
      obtain ⟨hinv, hreturned, hmem⟩ := h.getOrInsert_new hnew hok.1 hok.2
      generalize getOrInsertUIDForTitle s title append = out at hinv hreturned hmem ⊢
      obtain ⟨uid, s'⟩ := out
      dsimp only at hinv hreturned hmem ⊢
      split
      next => exact hinv
      next hne =>
        refine ⟨hinv.file_eq, hinv.sorted, hinv.title_nodup, hinv.find_inserted, hinv.oneUid,
          hinv.uid_ne_zero, fun r hr => ?_⟩
        rcases List.mem_append.mp hr with hr | hr
        · exact hinv.returned_mem r hr
        · rw [List.mem_singleton.mp hr]
          exact hmem hne
    · rw [if_neg hnew, h.readEntries_eq] at hok
      obtain ⟨e, he, rfl⟩ := List.mem_map.mp hok
      rw [getOrInsertUIDForTitle, if_pos hnew]
      dsimp only
      rw [if_neg hnew, h.getUID_of_mem he]
      refine ⟨h.file_eq, h.sorted, h.title_nodup, h.find_inserted, h.oneUid, h.uid_ne_zero,
        fun r hr => ?_⟩
      rcases List.mem_append.mp hr with hr | hr
      · exact h.returned_mem r hr
      · rw [List.mem_singleton.mp hr]
        exact he

end Inv

/-! ## ids that are kept -/

/-- An id that was returned for a title is the one the next call returns for it, no two titles
have the same one, and the file holds what was appended. -/
structure Kept (s : State) : Prop where
  returned_again : ∀ r ∈ s.returned, ∀ append, (getOrInsertUIDForTitle s r.1 append).1 = r.2
  title_eq : ∀ r ∈ s.returned, ∀ r' ∈ s.returned, r.2 = r'.2 → r.1 = r'.1
  readEntries_eq : readEntries s.file = s.inserted

theorem Inv.kept {s : State} (h : Inv s) : Kept s := by
  refine ⟨fun r hr append => ?_, fun r hr r' hr' heq => ?_, h.readEntries_eq⟩
  · have hmem := h.returned_mem r hr
    have huid : getUIDFromTitle s.entries r.1 = r.2 := h.getUID_of_mem hmem
    have hne : r.2 ≠ 0 := h.inserted_ne_zero _ hmem
    rw [getOrInsertUIDForTitle, huid, if_pos hne]
  · have hnodup : (s.inserted.map Prod.fst).Nodup := h.sorted.imp fun hlt => ne_of_lt hlt
    have hsame := List.inj_on_of_nodup_map hnodup (h.returned_mem r hr) (h.returned_mem r' hr') heq
    exact congrArg Prod.snd hsame

theorem inv_init (h : append ≠ .failUid) : Inv (init append) := by
  have hempty : Inv ⟨.empty, [], [], []⟩ :=
    ⟨rfl, List.Pairwise.nil, List.nodup_nil, fun _ he => absurd he List.not_mem_nil,
      fun _ _ _ hu => (nomatch hu), fun _ _ hu => (nomatch hu), fun _ hr => absurd hr List.not_mem_nil⟩
  exact hempty.construct fun _ => h

end UIDSys

end DolphinCore.IOS
