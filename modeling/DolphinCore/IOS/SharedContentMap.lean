import DolphinCore.Lib.FinLiteral
import DolphinCore.Common.NandPaths

/-!
# DolphinCore.IOS.SharedContentMap

`SharedContentMap` of `IOS/ES/Formats.cpp`: the table of shared contents, and the file
`content.map` it is kept in.  The number of the next id is the number of the entries when the
file is read, and counts up while the table is in memory; after a deletion the two differ.
-/

namespace DolphinCore.IOS

/-! ## the table and its calls -/

/-- `StringFromFormat("%08x", n)` -/
def formatId (n : BitVec 32) : List Byte :=
  (List.range 8).map fun i => Common.hexDigit (n.toNat / 16 ^ (7 - i) % 16)

structure SharedContentMap.Entry where
  id : List Byte
  sha1 : BitVec 160
  deriving DecidableEq

structure SharedContentMap where
  lastId : BitVec 32
  entries : List SharedContentMap.Entry

namespace SharedContentMap

/-- The constructor, from the entries in the file. -/
def load (file : List Entry) : SharedContentMap where
  lastId := BitVec.ofNat 32 file.length
  entries := file

/-- The path of a shared content; its id ends at the first null byte. -/
def appPath (root id : List Byte) : List Byte :=
  root ++ ([0x2f#8, 0x73#8, 0x68#8, 0x61#8, 0x72#8, 0x65#8, 0x64#8, 0x31#8, 0x2f#8] ++
    (id.takeWhile (· != 0) ++ [0x2e#8, 0x61#8, 0x70#8, 0x70#8]))

def getFilenameFromSHA1 (root : List Byte) (m : SharedContentMap) (sha1 : BitVec 160) :
    Option (List Byte) :=
  (m.entries.find? fun entry => entry.sha1 = sha1).map fun entry => appPath root entry.id

/-- The table and the file; every file operation succeeds. -/
structure State where
  map : SharedContentMap
  file : List Entry

/-- A table that is constructed where there is no file. -/
def State.init : State := ⟨load [], []⟩

inductive Call where
  | addSharedContent (sha1 : BitVec 160)
  | deleteSharedContent (sha1 : BitVec 160)
  | construct
  deriving DecidableEq

def writeEntries (m : SharedContentMap) : State := ⟨m, m.entries⟩

def addSharedContent (s : State) (sha1 : BitVec 160) : State :=
  match s.map.entries.find? fun entry => entry.sha1 = sha1 with
  | some _ => s
  | none =>
    let s := writeEntries { s.map with entries := s.map.entries ++ [⟨formatId s.map.lastId, sha1⟩] }
    { s with map := { s.map with lastId := s.map.lastId + 1 } }

def deleteSharedContent (s : State) (sha1 : BitVec 160) : State :=
  writeEntries { s.map with entries := s.map.entries.filter fun entry => ¬ entry.sha1 = sha1 }

def step (s : State) : Call → State
  | .addSharedContent sha1 => addSharedContent s sha1
  | .deleteSharedContent sha1 => deleteSharedContent s sha1
  | .construct => { s with map := load s.file }

/-- The state after a sequence of calls. -/
def run (calls : List Call) : State := calls.foldl step State.init

theorem run_concat (calls : List Call) (c : Call) : run (calls ++ [c]) = step (run calls) c := by
  rw [run, List.foldl_append]
  rfl

/-! ## what holds of every sequence of calls -/

/-- The table is what the file holds, with one entry for a hash, and ids without null bytes. -/
structure Inv (s : State) : Prop where
  file_eq : s.file = s.map.entries
  sha1_nodup : (s.map.entries.map Entry.sha1).Nodup
  id_ne_zero : ∀ e ∈ s.map.entries, ∀ b ∈ e.id, b ≠ 0

theorem hexDigit_ne_zero {n : Nat} (h : n < 16) : Common.hexDigit n ≠ 0 := by
  have hall : ∀ k : Fin 16, Common.hexDigit k.val ≠ 0 := by decide
  exact hall ⟨n, h⟩

theorem formatId_ne_zero (n : BitVec 32) : ∀ b ∈ formatId n, b ≠ 0 := by
  intro b hb
  obtain ⟨i, _, rfl⟩ := List.mem_map.mp hb
  exact hexDigit_ne_zero (Nat.mod_lt _ (by decide))

variable {sha1 : BitVec 160} {s : State} {c : Call}

theorem find?_eq_none_iff {entries : List Entry} : (entries.find? fun entry => entry.sha1 = sha1)
    = none ↔ sha1 ∉ entries.map Entry.sha1 := by
  rw [List.find?_eq_none, List.mem_map]
  constructor
  · rintro h ⟨e, he, rfl⟩
    exact h e he (decide_eq_true rfl)
  · intro h e he heq
    exact h ⟨e, he, of_decide_eq_true heq⟩

theorem addSharedContent_of_mem (h : sha1 ∈ s.map.entries.map Entry.sha1) :
    addSharedContent s sha1 = s := by
  rw [addSharedContent]
  cases hfind : s.map.entries.find? fun entry => entry.sha1 = sha1 with
  | none => exact absurd h (find?_eq_none_iff.mp hfind)
  | some e => rfl

theorem addSharedContent_of_not_mem (h : sha1 ∉ s.map.entries.map Entry.sha1) :
    (addSharedContent s sha1).map.entries = s.map.entries ++ [⟨formatId s.map.lastId, sha1⟩] ∧
      (addSharedContent s sha1).file = (addSharedContent s sha1).map.entries := by
  rw [addSharedContent, find?_eq_none_iff.mpr h]
  exact ⟨rfl, rfl⟩

theorem inv_step (h : Inv s) (c : Call) : Inv (step s c) := by
  cases c with
  | addSharedContent sha1 =>
    rw [step]
    by_cases hmem : sha1 ∈ s.map.entries.map Entry.sha1
    · rw [addSharedContent_of_mem hmem]
      exact h
    · obtain ⟨hentries, hfile⟩ := addSharedContent_of_not_mem hmem
      refine ⟨hfile, ?_, ?_⟩
      · rw [hentries, List.map_append, List.nodup_append]
        refine ⟨h.sha1_nodup, List.nodup_singleton _, ?_⟩
        intro a ha b hb
        rw [List.map_singleton, List.mem_singleton] at hb
        rintro rfl
        rw [hb] at ha
        exact hmem ha
      · rw [hentries]
        intro e he
        rcases List.mem_append.mp he with he | he
        · exact h.id_ne_zero e he
        · rw [List.mem_singleton.mp he]
          exact formatId_ne_zero _
  | deleteSharedContent sha1 =>
    have hsub : (s.map.entries.filter fun entry => ¬ entry.sha1 = sha1).Sublist s.map.entries :=
      List.filter_sublist
    refine ⟨rfl, h.sha1_nodup.sublist (hsub.map _), fun e he => h.id_ne_zero e (hsub.subset he)⟩
  | construct =>
    refine ⟨rfl, ?_, ?_⟩
    · rw [step, load, h.file_eq]
      exact h.sha1_nodup
    · rw [step, load, h.file_eq]
      exact h.id_ne_zero

theorem inv_run (calls : List Call) : Inv (run calls) := by
  induction calls using List.reverseRecOn with
  | nil => exact ⟨rfl, List.nodup_nil, fun _ he => absurd he List.not_mem_nil⟩
  | append_singleton calls c ih =>
    rw [run_concat]
    exact inv_step ih c

theorem getFilename_step (h : Inv s) (hc : c ≠ .deleteSharedContent sha1) {root path : List Byte}
    (hpath : getFilenameFromSHA1 root s.map sha1 = some path) :
    getFilenameFromSHA1 root (step s c).map sha1 = some path := by
  obtain ⟨e, he, rfl⟩ := Option.map_eq_some_iff.mp hpath
  have hkeep : ((step s c).map.entries.find? fun entry => entry.sha1 = sha1) = some e := by
    cases c with
    | addSharedContent sha1' =>
      rw [step]
      by_cases hmem : sha1' ∈ s.map.entries.map Entry.sha1
      · rw [addSharedContent_of_mem hmem]
        exact he
      · rw [(addSharedContent_of_not_mem hmem).1, List.find?_append, he]
        rfl
    | deleteSharedContent sha1' =>
      have hne : sha1 ≠ sha1' := fun heq => hc (heq ▸ rfl)
      rw [step, deleteSharedContent, writeEntries]
      rw [List.find?_filter, ← he]
      congr 1
      funext entry
      by_cases heq : entry.sha1 = sha1
      · simp [heq, hne]
      · simp [heq]
    | construct =>
      rw [step, load, h.file_eq]
      exact he
  rw [getFilenameFromSHA1, hkeep]
  rfl

/-! ## contents that are kept apart -/

/-- The hashes are distinct, the ids are, and so are the paths. -/
structure Apart (s : State) : Prop where
  sha1_nodup : (s.map.entries.map Entry.sha1).Nodup
  id_nodup : (s.map.entries.map Entry.id).Nodup
  path_ne : ∀ root path sha1 sha1', getFilenameFromSHA1 root s.map sha1 = some path →
    getFilenameFromSHA1 root s.map sha1' = some path → sha1 = sha1'

/-- A new content gets a number that is not in use. -/
def CallOk (s : State) : Call → Prop
  | .addSharedContent sha1 =>
    sha1 ∈ s.map.entries.map Entry.sha1 ∨ formatId s.map.lastId ∉ s.map.entries.map Entry.id
  | _ => True

theorem takeWhile_of_ne_zero : {id : List Byte} → (∀ b ∈ id, b ≠ 0) → id.takeWhile (· != 0) = id
  | [], _ => rfl
  | b :: id, h => by
    have hb : (b != 0) = true := bne_iff_ne.mpr (h b (List.mem_cons_self ..))
    rw [List.takeWhile_cons, if_pos hb,
      takeWhile_of_ne_zero fun c hc => h c (List.mem_cons_of_mem _ hc)]

theorem apart_of_id_nodup (h : Inv s) (hid : (s.map.entries.map Entry.id).Nodup) : Apart s := by
  refine ⟨h.sha1_nodup, hid, fun root path sha1 sha1' hpath hpath' => ?_⟩
  obtain ⟨e, he, rfl⟩ := Option.map_eq_some_iff.mp hpath
  obtain ⟨e', he', heq⟩ := Option.map_eq_some_iff.mp hpath'
  have hmem := List.mem_of_find?_eq_some he
  have hmem' := List.mem_of_find?_eq_some he'
  rw [appPath, appPath, takeWhile_of_ne_zero (h.id_ne_zero e hmem),
    takeWhile_of_ne_zero (h.id_ne_zero e' hmem'), List.append_cancel_left_eq,
    List.append_cancel_left_eq, List.append_cancel_right_eq] at heq
  have hsame : e' = e := List.inj_on_of_nodup_map hid hmem' hmem heq
  have hsha1 := List.find?_some he
  have hsha1' := List.find?_some he'
  rw [decide_eq_true_eq] at hsha1 hsha1'
  rw [← hsha1, ← hsha1', hsame]

theorem id_nodup_step (h : Inv s) (hid : (s.map.entries.map Entry.id).Nodup) (hc : CallOk s c) :
    ((step s c).map.entries.map Entry.id).Nodup := by
  cases c with
  | addSharedContent sha1 =>
    rw [step]
    by_cases hmem : sha1 ∈ s.map.entries.map Entry.sha1
    · rw [addSharedContent_of_mem hmem]
      exact hid
    · have hnew := hc.resolve_left hmem
      rw [(addSharedContent_of_not_mem hmem).1, List.map_append, List.nodup_append]
      refine ⟨hid, List.nodup_singleton _, ?_⟩
      intro a ha b hb
      rw [List.map_singleton, List.mem_singleton] at hb
      rintro rfl
      rw [hb] at ha
      exact hnew ha
  | deleteSharedContent sha1 => exact hid.sublist (List.filter_sublist.map _)
  | construct =>
    rw [step, load, h.file_eq]
    exact hid

theorem not_id_nodup_step (hc : ¬ CallOk s c) : ¬ ((step s c).map.entries.map Entry.id).Nodup := by
  cases c with
  | addSharedContent sha1 =>
    obtain ⟨hmem, huse⟩ := not_or.mp hc
    rw [step, (addSharedContent_of_not_mem hmem).1, List.map_append, List.nodup_append]
    rintro ⟨_, _, hdisj⟩
    exact hdisj _ (not_not.mp huse) _ (List.mem_singleton_self _) rfl
  | deleteSharedContent sha1 => exact absurd trivial hc
  | construct => exact absurd trivial hc

/-- Through a sequence of calls, all contents are kept apart, and a content that is not deleted
keeps its path. -/
def KeepsApart (calls : List Call) : Prop :=
  ∀ cs, cs <+: calls → Apart (run cs) ∧ ∀ c, cs ++ [c] <+: calls → ∀ root sha1 path,
    c ≠ .deleteSharedContent sha1 → getFilenameFromSHA1 root (run cs).map sha1 = some path →
      getFilenameFromSHA1 root (run (cs ++ [c])).map sha1 = some path

theorem isPrefix_of_concat {cs calls : List Call} (h : cs ++ [c] <+: calls) :
    cs <+: calls := (List.prefix_append cs [c]).trans h

/-- The contents are kept apart exactly if no new content gets a number that is in use. -/
theorem keepsApart_iff (calls : List Call) :
    KeepsApart calls ↔ ∀ cs c, cs ++ [c] <+: calls → CallOk (run cs) c := by
  constructor
  · intro h cs c hcs
    by_contra hc
    have hid := (h _ hcs).1.id_nodup
    rw [run_concat] at hid
    exact not_id_nodup_step hc hid
  · intro h
    have hid : ∀ cs, cs <+: calls → ((run cs).map.entries.map Entry.id).Nodup := by
      intro cs
      induction cs using List.reverseRecOn with
      | nil => exact fun _ => List.nodup_nil
      | append_singleton cs c ih =>
        intro hcs
        rw [run_concat]
        exact id_nodup_step (inv_run cs) (ih (isPrefix_of_concat hcs)) (h cs c hcs)
    intro cs hcs
    refine ⟨apart_of_id_nodup (inv_run cs) (hid cs hcs), fun c _ root sha1 path hc hpath => ?_⟩
    rw [run_concat]
    exact getFilename_step (inv_run cs) hc hpath

/-! ## a table that stays in memory -/

/-- Two contents, the first of them deleted; a new one then gets the number of the second. -/
theorem not_keepsApart : ¬ KeepsApart [.addSharedContent 1, .addSharedContent 2,
    .deleteSharedContent 1, .construct, .addSharedContent 3] := by
  intro h
  have hids : (run [.addSharedContent 1, .addSharedContent 2, .deleteSharedContent 1, .construct,
      .addSharedContent 3]).map.entries.map Entry.id = [formatId 1, formatId 1] := rfl
  have hnodup := (h _ (List.prefix_refl _)).1.id_nodup
  rw [hids] at hnodup
  exact (List.nodup_cons.mp hnodup).1 (List.mem_singleton_self _)

end SharedContentMap

end DolphinCore.IOS
