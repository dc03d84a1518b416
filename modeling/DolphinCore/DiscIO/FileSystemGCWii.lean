import DolphinCore.Lib.Endian
import DolphinCore.Lib.IndexForest

/-!
# DolphinCore.DiscIO.FileSystemGCWii

`FileSystemGCWii.cpp`: the entries of a file system table of arbitrary bytes, the check that makes it
valid, and the walk over its directories.  `none` stands for a read outside of the table, or for a
recursion that has not ended within the given number of calls.

A valid file system table is a forest of nested intervals of indices.  From this follow the order in
which the entries are visited, the end of each backward search, and the paths.
-/

namespace DolphinCore.DiscIO

def FST_ENTRY_SIZE : Nat := 12

inductive EntryProperty
  | NAME_OFFSET
  | FILE_OFFSET
  | FILE_SIZE
  deriving DecidableEq, Repr

/-- The place of a property in an entry. -/
def EntryProperty.index : EntryProperty → Nat
  | .NAME_OFFSET => 0
  | .FILE_OFFSET => 1
  | .FILE_SIZE => 2

/-- `swap32` of the word at an address. -/
def readWord (fst : List Byte) (a : Nat) : Option Nat :=
  if a + 4 ≤ fst.length then some (Endian.fromBE ((fst.drop a).take 4)) else none

/-- The bytes of a string up to its null byte. -/
def cString : List Byte → Option (List Byte)
  | [] => none
  | b :: bs => if b = 0 then some [] else (cString bs).map (b :: ·)

structure FileInfoGCWii where
  m_fst : List Byte
  m_offset_shift : Nat
  m_index : Nat
  m_total_file_infos : Nat

namespace FileInfoGCWii

/-- The entry with another index in the same table. -/
def entry (f : FileInfoGCWii) (index : Nat) : FileInfoGCWii := { f with m_index := index }

def get (f : FileInfoGCWii) (entry_property : EntryProperty) : Option Nat :=
  readWord f.m_fst (FST_ENTRY_SIZE * f.m_index % 2 ^ 32 + 4 * entry_property.index)

def getSize (f : FileInfoGCWii) : Option Nat := f.get .FILE_SIZE

def getOffset (f : FileInfoGCWii) : Option Nat :=
  (f.get .FILE_OFFSET).map fun offset => offset * 2 ^ f.m_offset_shift

def isDirectory (f : FileInfoGCWii) : Option Bool :=
  (f.get .NAME_OFFSET).map fun name_offset => decide (name_offset / 2 ^ 24 ≠ 0)

def getNextIndex (f : FileInfoGCWii) : Option Nat :=
  f.isDirectory.bind fun directory => if directory then f.getSize else some (f.m_index + 1)

def getNameOffset (f : FileInfoGCWii) : Option Nat :=
  (f.get .NAME_OFFSET).map fun name_offset =>
    FST_ENTRY_SIZE * f.m_total_file_infos + name_offset % 2 ^ 24

/-- `GetName`, where `toUTF8` is `SHIFTJISToUTF8`. -/
def getName (toUTF8 : List Byte → String) (f : FileInfoGCWii) : Option String :=
  f.getNameOffset.bind fun name_offset => (cString (f.m_fst.drop name_offset)).map toUTF8

/-- The directory, and contains the entry `index`. -/
def containsEntry (f : FileInfoGCWii) (index : Nat) : Option Bool :=
  f.isDirectory.bind fun directory => f.getSize.map fun size => directory && decide (index < size)

/-- The search for the directory that contains the file `index`, from an entry on backwards. -/
def findParent (f : FileInfoGCWii) (index : Nat) : Nat → Option Nat
  | 0 => ((f.entry 0).containsEntry index).bind fun found => if found then some 0 else none
  | i + 1 =>
    ((f.entry (i + 1)).containsEntry index).bind fun found =>
      if found then some (i + 1) else findParent f index i

def getPath (toUTF8 : List Byte → String) (f : FileInfoGCWii) : Nat → Nat → Option String
  | 0, _ => none
  | fuel + 1, index =>
    if index = 0 then some ""
    else
      (f.entry index).isDirectory.bind fun directory =>
        if directory then
          ((f.entry index).get .FILE_OFFSET).bind fun parent_directory_index =>
            (getPath toUTF8 f fuel parent_directory_index).bind fun path =>
              ((f.entry index).getName toUTF8).map fun name => path ++ name ++ "/"
        else
          (f.findParent index (index - 1)).bind fun potential_parent =>
            (getPath toUTF8 f fuel potential_parent).bind fun path =>
              ((f.entry index).getName toUTF8).map fun name => path ++ name

/-! ## the check -/

mutual

def isValid (fst_size : Nat) : Nat → FileInfoGCWii → FileInfoGCWii → Option Bool
  | 0, _, _ => none
  | fuel + 1, f, parent_directory =>
    f.getNameOffset.bind fun name_offset =>
      if fst_size ≤ name_offset then some false
      else f.isDirectory.bind fun directory =>
        if directory then
          (f.get .FILE_OFFSET).bind fun offset =>
            if offset ≠ parent_directory.m_index then some false
            else (f.get .FILE_SIZE).bind fun size =>
              if size ≤ f.m_index then some false
              else (parent_directory.get .FILE_SIZE).bind fun parent_size =>
                if parent_size < size then some false
                else f.getNextIndex.bind fun last =>
                  childrenValid fst_size fuel f (f.m_index + 1) last
        else some true

/-- The loop over the children from `child` on.  The iterators are compared by address; no two indices
below a root that has passed the check of its name share one. -/
def childrenValid (fst_size : Nat) : Nat → FileInfoGCWii → Nat → Nat → Option Bool
  | 0, _, _, _ => none
  | fuel + 1, f, child, last =>
    if child = last then some true
    else (isValid fst_size fuel (f.entry child) f).bind fun valid =>
      if valid then
        (f.entry child).getNextIndex.bind fun next => childrenValid fst_size fuel f next last
      else some false

end

/-! ## the walk -/

/-- An entry that a walk has reached: its index, the directory that it was found in, and the path. -/
structure Visit where
  index : Nat
  directory : Nat
  path : String
  deriving DecidableEq, Repr

/-- The iteration over a directory from `child` on, and over each directory that it finds. -/
def walk (toUTF8 : List Byte → String) (f : FileInfoGCWii) :
    Nat → Nat → String → Nat → Nat → Option (List Visit)
  | 0, _, _, _, _ => none
  | fuel + 1, dir, path, child, last =>
    if child = last then some []
    else
      ((f.entry child).getName toUTF8).bind fun name =>
        (f.entry child).isDirectory.bind fun directory =>
          (f.entry child).getNextIndex.bind fun next =>
            (if directory then
              walk toUTF8 f fuel child (path ++ name ++ "/") (child + 1) next
            else some []).bind fun below =>
              (walk toUTF8 f fuel dir path next last).map fun rest =>
                ⟨child, dir, if directory then path ++ name ++ "/" else path ++ name⟩ ::
                  (below ++ rest)

end FileInfoGCWii

/-! ## the file system -/

/-- The root object. -/
def rootInfo (fst : List Byte) (offset_shift : Nat) : Option FileInfoGCWii :=
  (FileInfoGCWii.getSize ⟨fst, offset_shift, 0, 0⟩).map fun size => ⟨fst, offset_shift, 0, size⟩

def ARBITRARY_FILE_SYSTEM_SIZE_LIMIT : Nat := 128 * 1024 * 1024

/-- `m_valid` after the constructor of `FileSystemGCWii`, for the table that it has read. -/
def fileSystemValid (fuel : Nat) (fst : List Byte) (offset_shift : Nat) : Option Bool :=
  let fst_size := fst.length
  if fst_size < FST_ENTRY_SIZE then some false
  else if ARBITRARY_FILE_SYSTEM_SIZE_LIMIT < fst_size then some false
  else (rootInfo fst offset_shift).bind fun root =>
    root.isDirectory.bind fun directory =>
      if directory = false then some false
      else root.getSize.bind fun size =>
        if fst_size < FST_ENTRY_SIZE * size % 2 ^ 32 then some false
        else fst[fst_size - 1]?.bind fun final =>
          if final ≠ 0 then some false else FileInfoGCWii.isValid fst_size fuel root root

end DolphinCore.DiscIO

namespace DolphinCore.DiscIO

/-! ## reading -/

theorem exists_readWord {fst : List Byte} {a : Nat} (h : a + 4 ≤ fst.length) :
    ∃ w, readWord fst a = some w := ⟨_, if_pos h⟩

theorem exists_cString : (bs : List Byte) → 0 ∈ bs → ∃ s, cString bs = some s
  | [], h => absurd h List.not_mem_nil
  | b :: bs, h => by
    rw [cString]
    by_cases hb : b = 0
    · exact ⟨[], if_pos hb⟩
    · rcases List.mem_cons.mp h with hzero | h
      · exact absurd hzero.symm hb
      · obtain ⟨s, hs⟩ := exists_cString bs h
        exact ⟨b :: s, by rw [if_neg hb, hs, Option.map_some]⟩

namespace FileInfoGCWii

variable {g : FileInfoGCWii} {toUTF8 : List Byte → String}

theorem exists_get {i : Nat} (hfit : FST_ENTRY_SIZE * (i + 1) ≤ g.m_fst.length)
    (hlen : g.m_fst.length < 2 ^ 32) (entry_property : EntryProperty) :
    ∃ w, (g.entry i).get entry_property = some w := by
  have hindex : entry_property.index ≤ 2 := by cases entry_property <;> decide
  rw [FST_ENTRY_SIZE] at hfit
  have hmod : FST_ENTRY_SIZE * i % 2 ^ 32 = 12 * i := by
    rw [FST_ENTRY_SIZE]
    omega
  refine exists_readWord ?_
  change FST_ENTRY_SIZE * i % 2 ^ 32 + 4 * entry_property.index + 4 ≤ g.m_fst.length
  omega

/-! ## the forest -/

/-- The index behind a directory. -/
def dirEnd (g : FileInfoGCWii) (i : Nat) : Option Nat :=
  if (g.entry i).isDirectory = some true then (g.entry i).getSize else none

/-- What the check has found of a child of a directory. -/
structure EntryOk (g : FileInfoGCWii) (dir i : Nat) : Prop where
  readable : FST_ENTRY_SIZE * (i + 1) ≤ g.m_fst.length
  name : ∃ name_offset, (g.entry i).getNameOffset = some name_offset ∧ name_offset < g.m_fst.length
  parent : (g.entry i).isDirectory = some true → (g.entry i).get .FILE_OFFSET = some dir

/-- The entry of a child, and where the iteration goes on. -/
inductive Child (g : FileInfoGCWii) (i : Nat) : Nat → Prop
  | file : (g.entry i).isDirectory = some false → Child g i (i + 1)
  | directory {next : Nat} : (g.entry i).isDirectory = some true → (g.entry i).getSize = some next →
    Child g i next

theorem Child.getNextIndex {i next : Nat} (h : Child g i next) :
    (g.entry i).getNextIndex = some next := by
  cases h with
  | file hfile =>
    rw [FileInfoGCWii.getNextIndex, hfile]
    rfl
  | directory hdir hsize =>
    rw [FileInfoGCWii.getNextIndex, hdir]
    exact hsize

abbrev Forest (g : FileInfoGCWii) : Nat → Nat → Nat → Prop := IndexForest g.dirEnd g.EntryOk

variable (hlen : g.m_fst.length < 2 ^ 32)

theorem isValid_succ {L dir child last name offset size : Nat}
    (hname : (g.entry child).get .NAME_OFFSET = some name)
    (hoffset : (g.entry child).get .FILE_OFFSET = some offset)
    (hsize : (g.entry child).get .FILE_SIZE = some size)
    (hparent : (g.entry dir).get .FILE_SIZE = some last) (fuel : Nat) :
    isValid L (fuel + 1) (g.entry child) (g.entry dir) =
      if L ≤ FST_ENTRY_SIZE * g.m_total_file_infos + name % 2 ^ 24 then some false
      else if name / 2 ^ 24 ≠ 0 then
        if offset ≠ dir then some false
        else if size ≤ child then some false
        else if last < size then some false
        else childrenValid L fuel (g.entry child) (child + 1) size
      else some true := by
  have hdir : (g.entry child).isDirectory = some (decide (name / 2 ^ 24 ≠ 0)) := by
    rw [isDirectory, hname, Option.map_some]
  by_cases hdirectory : name / 2 ^ 24 ≠ 0
  · rw [decide_eq_true hdirectory] at hdir
    have hnext : (g.entry child).getNextIndex = some size := by
      rw [getNextIndex, hdir]
      exact hsize
    rw [isValid, getNameOffset, hname, Option.map_some, Option.bind_some, hdir, Option.bind_some,
      if_pos rfl, hoffset, Option.bind_some, hsize, Option.bind_some, hparent, Option.bind_some, hnext,
      Option.bind_some, if_pos hdirectory]
    rfl
  · rw [decide_eq_false hdirectory] at hdir
    rw [isValid, getNameOffset, hname, Option.map_some, Option.bind_some, hdir, Option.bind_some,
      if_neg Bool.false_ne_true, if_neg hdirectory]
    rfl

include hlen in
/-- **The check of one entry** ends, if that of its children does, and says what holds of it. -/
theorem isValid_spec {dir child last : Nat} (hlt : child < last)
    (hfit : FST_ENTRY_SIZE * last ≤ g.m_fst.length)
    (hparent : (g.entry dir).get .FILE_SIZE = some last)
    (hbelow : ∀ size, child < size → size ≤ last → (g.entry child).get .FILE_SIZE = some size →
      ∃ b, (∀ fuel, 2 * (size - (child + 1)) < fuel →
          childrenValid g.m_fst.length fuel (g.entry child) (child + 1) size = some b) ∧
        (b = true → g.Forest child (child + 1) size)) :
    ∃ b, (∀ fuel, 2 * (last - child) ≤ fuel →
        isValid g.m_fst.length fuel (g.entry child) (g.entry dir) = some b) ∧
      (b = true → g.EntryOk dir child ∧ ∃ next, g.Child child next ∧ child < next ∧ next ≤ last ∧
        ((g.entry child).isDirectory = some true → g.Forest child (child + 1) next)) := by
  have hreadable : FST_ENTRY_SIZE * (child + 1) ≤ g.m_fst.length :=
    Nat.le_trans (Nat.mul_le_mul_left _ hlt) hfit
  obtain ⟨name, hname⟩ := exists_get hreadable hlen .NAME_OFFSET
  obtain ⟨offset, hoffset⟩ := exists_get hreadable hlen .FILE_OFFSET
  obtain ⟨size, hsize⟩ := exists_get hreadable hlen .FILE_SIZE
  have hsucc := isValid_succ (L := g.m_fst.length) hname hoffset hsize hparent
  have hdir : (g.entry child).isDirectory = some (decide (name / 2 ^ 24 ≠ 0)) := by
    rw [isDirectory, hname, Option.map_some]
  have hname_offset : (g.entry child).getNameOffset =
      some (FST_ENTRY_SIZE * g.m_total_file_infos + name % 2 ^ 24) := by
    rw [getNameOffset, hname, Option.map_some]
    rfl
  -- any fuel that is enough leaves some for the children
  suffices hcases : ∃ b, (∀ fuel, 2 * (last - child) ≤ fuel + 1 →
      isValid g.m_fst.length (fuel + 1) (g.entry child) (g.entry dir) = some b) ∧
      (b = true → g.EntryOk dir child ∧ ∃ next, g.Child child next ∧ child < next ∧ next ≤ last ∧
        ((g.entry child).isDirectory = some true → g.Forest child (child + 1) next)) by
    obtain ⟨b, hb, hspec⟩ := hcases
    refine ⟨b, fun fuel hfuel => ?_, hspec⟩
    obtain ⟨k, rfl⟩ := Nat.exists_eq_succ_of_ne_zero (show fuel ≠ 0 by omega)
    exact hb k hfuel
  by_cases hlarge : g.m_fst.length ≤ FST_ENTRY_SIZE * g.m_total_file_infos + name % 2 ^ 24
  · exact ⟨false, fun fuel _ => by rw [hsucc, if_pos hlarge], nofun⟩
  have hnamed : ∃ name_offset, (g.entry child).getNameOffset = some name_offset ∧
      name_offset < g.m_fst.length := ⟨_, hname_offset, Nat.not_le.mp hlarge⟩
  by_cases hdirectory : name / 2 ^ 24 ≠ 0
  · rw [decide_eq_true hdirectory] at hdir
    by_cases hoff : offset ≠ dir
    · exact ⟨false, fun fuel _ => by
        rw [hsucc, if_neg hlarge, if_pos hdirectory, if_pos hoff], nofun⟩
    by_cases hsmall : size ≤ child
    · exact ⟨false, fun fuel _ => by
        rw [hsucc, if_neg hlarge, if_pos hdirectory, if_neg hoff, if_pos hsmall], nofun⟩
    by_cases hbig : last < size
    · exact ⟨false, fun fuel _ => by
        rw [hsucc, if_neg hlarge, if_pos hdirectory, if_neg hoff, if_neg hsmall, if_pos hbig], nofun⟩
    obtain ⟨b, hb, hforest⟩ := hbelow size (Nat.not_le.mp hsmall) (Nat.not_lt.mp hbig) hsize
    refine ⟨b, fun fuel hfuel => ?_, fun htrue => ⟨⟨hreadable, hnamed, fun _ => ?_⟩, size,
      .directory hdir hsize, Nat.not_le.mp hsmall, Nat.not_lt.mp hbig, fun _ => hforest htrue⟩⟩
    · rw [hsucc, if_neg hlarge, if_pos hdirectory, if_neg hoff, if_neg hsmall, if_neg hbig]
      exact hb fuel (by omega)
    · rw [hoffset, not_not.mp hoff]
  · rw [decide_eq_false hdirectory] at hdir
    have hfile : ¬ (g.entry child).isDirectory = some true := by
      rw [hdir]
      decide
    refine ⟨true, fun fuel _ => by rw [hsucc, if_neg hlarge, if_neg hdirectory], fun _ =>
      ⟨⟨hreadable, hnamed, fun h => absurd h hfile⟩, child + 1, .file hdir, Nat.lt_succ_self _, hlt,
        fun h => absurd h hfile⟩⟩

include hlen in
/-- **The check of the children** ends without a read outside of the table, and finds a forest. -/
theorem childrenValid_spec : (n : Nat) → {dir child last : Nat} → last - child ≤ n → child ≤ last →
    FST_ENTRY_SIZE * last ≤ g.m_fst.length → (g.entry dir).get .FILE_SIZE = some last →
    ∃ b, (∀ fuel, 2 * (last - child) < fuel →
        childrenValid g.m_fst.length fuel (g.entry dir) child last = some b) ∧
      (b = true → g.Forest dir child last) := by
  intro n
  induction n with
  | zero =>
    intro dir child last hn hle hfit hparent
    have heq : child = last := by omega
    subst heq
    refine ⟨true, fun fuel hfuel => ?_, fun _ => .nil dir child⟩
    obtain ⟨k, rfl⟩ := Nat.exists_eq_succ_of_ne_zero (show fuel ≠ 0 by omega)
    rw [childrenValid, if_pos rfl]
  | succ n ih =>
    intro dir child last hn hle hfit hparent
    by_cases heq : child = last
    · subst heq
      refine ⟨true, fun fuel hfuel => ?_, fun _ => .nil dir child⟩
      obtain ⟨k, rfl⟩ := Nat.exists_eq_succ_of_ne_zero (show fuel ≠ 0 by omega)
      rw [childrenValid, if_pos rfl]
    · have hlt : child < last := Nat.lt_of_le_of_ne hle heq
      obtain ⟨b, hb, hspec⟩ := isValid_spec hlen hlt hfit hparent fun size hsize hsize' hget =>
        ih (by omega) hsize (Nat.le_trans (Nat.mul_le_mul_left _ hsize') hfit) hget
      have hstep (fuel : Nat) (hfuel : 2 * (last - child) < fuel + 1) :
          childrenValid g.m_fst.length (fuel + 1) (g.entry dir) child last =
            if b then (g.entry child).getNextIndex.bind fun next =>
              childrenValid g.m_fst.length fuel (g.entry dir) next last
            else some false := by
        rw [childrenValid, if_neg heq]
        change (isValid g.m_fst.length fuel (g.entry child) (g.entry dir)).bind _ = _
        rw [hb fuel (by omega), Option.bind_some]
        rfl
      cases b with
      | false =>
        refine ⟨false, fun fuel hfuel => ?_, nofun⟩
        obtain ⟨k, rfl⟩ := Nat.exists_eq_succ_of_ne_zero (show fuel ≠ 0 by omega)
        rw [hstep k hfuel]
        rfl
      | true =>
        obtain ⟨hok, next, hchild, hnext, hnext', hforest⟩ := hspec rfl
        obtain ⟨b, hrest, hrestForest⟩ := @ih dir next last
          (by omega) hnext' hfit hparent
        refine ⟨b, fun fuel hfuel => ?_, fun htrue => ?_⟩
        · obtain ⟨k, rfl⟩ := Nat.exists_eq_succ_of_ne_zero (show fuel ≠ 0 by omega)
          rw [hstep k hfuel, if_pos rfl, hchild.getNextIndex, Option.bind_some]
          exact hrest k (by omega)
        · cases hchild with
          | file hfile =>
            refine .leaf hok ?_ (hrestForest htrue)
            rw [dirEnd, hfile, if_neg (by decide)]
          | directory hdir hsize =>
            refine .node hok ?_ hnext (hforest hdir) (hrestForest htrue)
            rw [dirEnd, hdir, if_pos rfl, hsize]

/-! ## the backward search -/

include hlen in
theorem containsEntry_eq {k : Nat} (hfit : FST_ENTRY_SIZE * (k + 1) ≤ g.m_fst.length) (index : Nat) :
    (g.entry k).containsEntry index = some ((g.dirEnd k).any fun size => decide (index < size)) := by
  obtain ⟨name, hname⟩ := exists_get hfit hlen .NAME_OFFSET
  obtain ⟨size, hsize⟩ := exists_get hfit hlen .FILE_SIZE
  have hdir : (g.entry k).isDirectory = some (decide (name / 2 ^ 24 ≠ 0)) := by
    rw [isDirectory, hname, Option.map_some]
  rw [containsEntry, dirEnd, hdir, getSize, hsize]
  cases decide (name / 2 ^ 24 ≠ 0) <;> rfl

theorem findParent_eq {dir index : Nat} (hdir : (g.entry dir).containsEntry index = some true)
    (hbetween : ∀ k, dir < k → k < index → (g.entry k).containsEntry index = some false) :
    (i : Nat) → dir ≤ i → i < index → g.findParent index i = some dir
  | 0, hle, _ => by
    cases Nat.le_zero.mp hle
    rw [findParent, hdir]
    rfl
  | i + 1, hle, hlt => by
    rw [findParent]
    by_cases heq : dir = i + 1
    · rw [← heq, hdir]
      rfl
    · rw [hbetween (i + 1) (Nat.lt_of_le_of_ne hle heq) hlt, Option.bind_some, if_neg (by decide)]
      exact findParent_eq hdir hbetween i (by omega) (by omega)

/-! ## the walk -/

/-- What holds of an entry where the walk has reached it. -/
structure VisitOk (toUTF8 : List Byte → String) (g : FileInfoGCWii) (v : Visit) : Prop where
  name : ∃ name, (g.entry v.index).getName toUTF8 = some name
  parent : (g.entry v.index).isDirectory = some true →
    (g.entry v.index).get .FILE_OFFSET = some v.directory
  path : ∀ fuel, v.index < fuel → g.getPath toUTF8 fuel v.index = some v.path

variable {dir i : Nat} {path name : String}

theorem EntryOk.getName (h : g.EntryOk dir i) (hnull : ∀ off < g.m_fst.length, 0 ∈ g.m_fst.drop off)
    (toUTF8 : List Byte → String) :
    ∃ name, (g.entry i).getName toUTF8 = some name := by
  obtain ⟨off, hoff, hlt⟩ := h.name
  obtain ⟨bytes, hbytes⟩ := exists_cString _ (hnull off hlt)
  refine ⟨toUTF8 bytes, ?_⟩
  rw [FileInfoGCWii.getName, hoff, Option.bind_some]
  change (cString (g.m_fst.drop off)).map toUTF8 = _
  rw [hbytes, Option.map_some]

theorem getPath_directory (h : g.EntryOk dir i) (hlt : dir < i)
    (hdir : (g.entry i).isDirectory = some true) (hname : (g.entry i).getName toUTF8 = some name)
    (hpath : ∀ fuel, dir < fuel → g.getPath toUTF8 fuel dir = some path) (fuel : Nat)
    (hfuel : i < fuel) : g.getPath toUTF8 fuel i = some (path ++ name ++ "/") := by
  obtain ⟨k, rfl⟩ := Nat.exists_eq_succ_of_ne_zero (show fuel ≠ 0 by omega)
  rw [getPath, if_neg (by omega), hdir, Option.bind_some, if_pos rfl, h.parent hdir, Option.bind_some,
    hpath k (by omega), Option.bind_some, hname, Option.map_some]

theorem getPath_file (hlt : dir < i) (hfile : (g.entry i).isDirectory = some false)
    (hname : (g.entry i).getName toUTF8 = some name) (hparent : g.findParent i (i - 1) = some dir)
    (hpath : ∀ fuel, dir < fuel → g.getPath toUTF8 fuel dir = some path) (fuel : Nat)
    (hfuel : i < fuel) : g.getPath toUTF8 fuel i = some (path ++ name) := by
  obtain ⟨k, rfl⟩ := Nat.exists_eq_succ_of_ne_zero (show fuel ≠ 0 by omega)
  rw [getPath, if_neg (by omega), hfile, Option.bind_some, if_neg Bool.false_ne_true, hparent,
    Option.bind_some, hpath k (by omega), Option.bind_some, hname, Option.map_some]

include hlen in
theorem child_of_dirEnd_none {i : Nat} (hfit : FST_ENTRY_SIZE * (i + 1) ≤ g.m_fst.length)
    (hend : g.dirEnd i = none) : (g.entry i).isDirectory = some false := by
  obtain ⟨name, hname⟩ := exists_get hfit hlen .NAME_OFFSET
  obtain ⟨size, hsize⟩ := exists_get hfit hlen .FILE_SIZE
  rw [isDirectory, hname, Option.map_some]
  cases hdir : decide (name / 2 ^ 24 ≠ 0) with
  | false => rfl
  | true =>
    rw [dirEnd, isDirectory, hname, Option.map_some, hdir, if_pos rfl, getSize, hsize] at hend
    cases hend

theorem child_of_dirEnd_some {i next : Nat} (hend : g.dirEnd i = some next) :
    (g.entry i).isDirectory = some true ∧ (g.entry i).getNextIndex = some next := by
  rw [dirEnd] at hend
  split at hend
  · next hdir => exact ⟨hdir, (Child.directory hdir hend).getNextIndex⟩
  · cases hend

theorem walk_succ {dir child last next : Nat} {directory : Bool} (hne : child ≠ last)
    (hname : (g.entry child).getName toUTF8 = some name)
    (hdir : (g.entry child).isDirectory = some directory)
    (hnext : (g.entry child).getNextIndex = some next) (fuel : Nat) :
    walk toUTF8 g (fuel + 1) dir path child last =
      (if directory then walk toUTF8 g fuel child (path ++ name ++ "/") (child + 1) next
        else some []).bind fun below =>
          (walk toUTF8 g fuel dir path next last).map fun rest =>
            ⟨child, dir, if directory then path ++ name ++ "/" else path ++ name⟩ ::
              (below ++ rest) := by
  rw [walk, if_neg hne, hname, Option.bind_some, hdir, Option.bind_some, hnext, Option.bind_some]

include hlen in
/-- **The walk over a forest** visits its entries in order, by induction on the forest. -/
theorem walk_spec (toUTF8 : List Byte → String) (hnull : ∀ off < g.m_fst.length, 0 ∈ g.m_fst.drop off)
    {dir first last : Nat} (h : g.Forest dir first last) (path : String) (hlt : dir < first)
    (hfit : FST_ENTRY_SIZE * last ≤ g.m_fst.length) (hdir : g.dirEnd dir = some last)
    (hbefore : ∀ k, dir < k → k < first → ∀ size, g.dirEnd k = some size → size ≤ first)
    (hpath : ∀ fuel, dir < fuel → g.getPath toUTF8 fuel dir = some path) :
    ∃ visits, (∀ fuel, last - first < fuel → walk toUTF8 g fuel dir path first last = some visits) ∧
      visits.map Visit.index = List.range' first (last - first) ∧
      ∀ v ∈ visits, g.VisitOk toUTF8 v := by
  induction h generalizing path with
  | nil dir last =>
    refine ⟨[], fun fuel hfuel => ?_, ?_, fun _ hv => absurd hv List.not_mem_nil⟩
    · obtain ⟨k, rfl⟩ := Nat.exists_eq_succ_of_ne_zero (show fuel ≠ 0 by omega)
      rw [walk, if_pos rfl]
    · rw [Nat.sub_self]
      rfl
  | @leaf dir first last hok hend hrest ih =>
    have hle := hrest.le
    have hreadable : ∀ k < last, FST_ENTRY_SIZE * (k + 1) ≤ g.m_fst.length := fun k hk =>
      Nat.le_trans (Nat.mul_le_mul_left _ hk) hfit
    have hfile := child_of_dirEnd_none hlen (hreadable first hle) hend
    obtain ⟨name, hname⟩ := hok.getName hnull toUTF8
    obtain ⟨rest, hwalk, hindex, hvisits⟩ := ih path (Nat.lt_succ_of_lt hlt) hfit hdir
      (fun k hk hk' size hsize => by
        rcases Nat.lt_succ_iff_lt_or_eq.mp hk' with hk' | rfl
        · exact Nat.le_succ_of_le (hbefore k hk hk' size hsize)
        · rw [hend] at hsize
          cases hsize) hpath
    have hparent : g.findParent first (first - 1) = some dir := by
      refine findParent_eq ?_ (fun k hk hk' => ?_) (first - 1) (by omega) (by omega)
      · rw [containsEntry_eq hlen (hreadable dir (by omega)), hdir]
        exact congrArg some (decide_eq_true hle)
      · rw [containsEntry_eq hlen (hreadable k (by omega))]
        cases hsize : g.dirEnd k with
        | none => rfl
        | some size => exact congrArg some (decide_eq_false (Nat.not_lt.mpr (hbefore k hk hk' size hsize)))
    refine ⟨⟨first, dir, path ++ name⟩ :: rest, fun fuel hfuel => ?_, ?_, fun v hv => ?_⟩
    · obtain ⟨k, rfl⟩ := Nat.exists_eq_succ_of_ne_zero (show fuel ≠ 0 by omega)
      rw [Nat.succ_eq_add_one, walk_succ (by omega) hname hfile (Child.file hfile).getNextIndex,
        if_neg Bool.false_ne_true, Option.bind_some, hwalk k (by omega), Option.map_some,
        if_neg Bool.false_ne_true]
      rfl
    · rw [List.map_cons, hindex, show last - first = last - (first + 1) + 1 by omega, List.range'_succ]
    · rcases List.mem_cons.mp hv with rfl | hv
      · exact ⟨⟨name, hname⟩, fun htrue => absurd (hfile.symm.trans htrue) (by decide),
          getPath_file hlt hfile hname hparent hpath⟩
      · exact hvisits v hv
  | @node dir first mid last hok hend hmid hbelow hrest ihbelow ihrest =>
    have hle := hrest.le
    obtain ⟨hdirectory, hnext⟩ := child_of_dirEnd_some hend
    obtain ⟨name, hname⟩ := hok.getName hnull toUTF8
    have hchild := getPath_directory hok hlt hdirectory hname hpath
    obtain ⟨below, hwalkBelow, hindexBelow, hvisitsBelow⟩ := ihbelow (path ++ name ++ "/")
      (Nat.lt_succ_self first) (Nat.le_trans (Nat.mul_le_mul_left _ hle) hfit) hend
      (fun k hk hk' => absurd (Nat.le_of_lt_succ hk') (Nat.not_le.mpr hk)) hchild
    obtain ⟨rest, hwalk, hindex, hvisits⟩ := ihrest path (Nat.lt_trans hlt hmid) hfit hdir
      (fun k hk hk' size hsize => by
        rcases Nat.lt_trichotomy k first with hk'' | rfl | hk''
        · exact Nat.le_trans (hbefore k hk hk'' size hsize) (Nat.le_of_lt hmid)
        · rw [hend] at hsize
          cases hsize
          exact Nat.le_refl _
        · exact (hbelow.dirEnd_le hk'' hk' hsize).2) hpath
    refine ⟨⟨first, dir, path ++ name ++ "/"⟩ :: (below ++ rest), fun fuel hfuel => ?_, ?_,
      fun v hv => ?_⟩
    · obtain ⟨k, rfl⟩ := Nat.exists_eq_succ_of_ne_zero (show fuel ≠ 0 by omega)
      rw [Nat.succ_eq_add_one, walk_succ (by omega) hname hdirectory hnext, if_pos rfl,
        hwalkBelow k (by omega), Option.bind_some, hwalk k (by omega), Option.map_some, if_pos rfl]
    · have hsplit : List.range' (first + 1) (mid - (first + 1)) ++ List.range' mid (last - mid) =
          List.range' (first + 1) (last - (first + 1)) := by
        have happend := List.range'_append_1 (s := first + 1) (m := mid - (first + 1))
          (n := last - mid)
        rw [Nat.add_sub_cancel' hmid] at happend
        rw [happend]
        congr 1
        omega
      rw [List.map_cons, List.map_append, hindexBelow, hindex, hsplit,
        show last - first = last - (first + 1) + 1 by omega, List.range'_succ]
    · rcases List.mem_cons.mp hv with rfl | hv
      · exact ⟨⟨name, hname⟩, fun _ => hok.parent hdirectory, hchild⟩
      · rcases List.mem_append.mp hv with hv | hv
        · exact hvisitsBelow v hv
        · exact hvisits v hv

/-! ## the file system -/

include hlen in
/-- **The check of the root** ends, and finds a forest of all entries. -/
theorem isValid_root (hfirst : FST_ENTRY_SIZE ≤ g.m_fst.length) {N : Nat}
    (htotal : g.m_total_file_infos = N) (hsize : (g.entry 0).get .FILE_SIZE = some N)
    (hdir : (g.entry 0).isDirectory = some true) :
    ∃ b, (∀ fuel, 2 * g.m_fst.length < fuel →
        isValid g.m_fst.length fuel (g.entry 0) (g.entry 0) = some b) ∧
      (b = true → 0 < N ∧ FST_ENTRY_SIZE * N ≤ g.m_fst.length ∧ g.Forest 0 1 N) := by
  by_cases hfit : 0 < N ∧ FST_ENTRY_SIZE * N ≤ g.m_fst.length
  · have hle : N ≤ g.m_fst.length :=
      Nat.le_trans (Nat.le_mul_of_pos_left N (by decide)) hfit.2
    obtain ⟨b, hb, hspec⟩ := isValid_spec hlen hfit.1 hfit.2 hsize fun size hpos hsize' hget =>
      childrenValid_spec hlen _ (Nat.le_refl _) hpos
        (Nat.le_trans (Nat.mul_le_mul_left _ hsize') hfit.2) hget
    refine ⟨b, fun fuel hfuel => hb fuel (by omega), fun htrue => ⟨hfit.1, hfit.2, ?_⟩⟩
    obtain ⟨_, next, hchild, _, _, hforest⟩ := hspec htrue
    cases hchild with
    | file hfile =>
      rw [hfile] at hdir
      cases hdir
    | directory _ hnext =>
      rw [getSize, hsize, Option.some.injEq] at hnext
      exact hnext ▸ hforest hdir
  · obtain ⟨name, hname⟩ := exists_get (i := 0) hfirst hlen .NAME_OFFSET
    obtain ⟨offset, hoffset⟩ := exists_get (i := 0) hfirst hlen .FILE_OFFSET
    refine ⟨false, fun fuel hfuel => ?_, nofun⟩
    obtain ⟨k, rfl⟩ := Nat.exists_eq_succ_of_ne_zero (show fuel ≠ 0 by omega)
    rw [Nat.succ_eq_add_one, isValid_succ hname hoffset hsize hsize, htotal]
    by_cases hlarge : g.m_fst.length ≤ FST_ENTRY_SIZE * N + name % 2 ^ 24
    · rw [if_pos hlarge]
    · -- an empty root is refused for its size
      have hzero : N ≤ 0 := by omega
      have hdirectory : name / 2 ^ 24 ≠ 0 := by
        rw [isDirectory, hname, Option.map_some, Option.some.injEq] at hdir
        exact of_decide_eq_true hdir
      rw [if_neg hlarge, if_pos hdirectory, if_pos hzero]
      split <;> rfl

end FileInfoGCWii

theorem zero_mem_drop {fst : List Byte} (hlast : fst[fst.length - 1]? = some 0) (off : Nat)
    (hoff : off < fst.length) : 0 ∈ fst.drop off := by
  refine List.mem_of_getElem? (i := fst.length - 1 - off) ?_
  rw [List.getElem?_drop, Nat.add_sub_cancel' (by omega), hlast]

/-- The constructor ends for every table, and finds a forest in a valid one. -/
theorem exists_fileSystemValid (fst : List Byte) (offset_shift : Nat) :
    ∃ b, (∀ fuel, 2 * fst.length < fuel → fileSystemValid fuel fst offset_shift = some b) ∧
      (b = true → fst.length < 2 ^ 32 ∧ fst[fst.length - 1]? = some 0 ∧ ∃ root N,
        rootInfo fst offset_shift = some root ∧ root.m_fst = fst ∧ (root.entry 0) = root ∧
        root.isDirectory = some true ∧ root.getSize = some N ∧ 0 < N ∧
        FST_ENTRY_SIZE * N ≤ fst.length ∧ root.Forest 0 1 N) := by
  by_cases hsmall : fst.length < FST_ENTRY_SIZE
  · exact ⟨false, fun _ _ => if_pos hsmall, nofun⟩
  by_cases hbig : ARBITRARY_FILE_SYSTEM_SIZE_LIMIT < fst.length
  · exact ⟨false, fun _ _ => (if_neg hsmall).trans (if_pos hbig), nofun⟩
  have hfirst : FST_ENTRY_SIZE * (0 + 1) ≤ fst.length := Nat.not_lt.mp hsmall
  have hlen : fst.length < 2 ^ 32 :=
    Nat.lt_of_le_of_lt (Nat.not_lt.mp hbig) (by decide)
  obtain ⟨N, hN⟩ := FileInfoGCWii.exists_get (g := ⟨fst, offset_shift, 0, 0⟩) hfirst hlen .FILE_SIZE
  have hroot : rootInfo fst offset_shift = some ⟨fst, offset_shift, 0, N⟩ := by
    exact congrArg (Option.map _) hN
  have hsize : (FileInfoGCWii.entry ⟨fst, offset_shift, 0, N⟩ 0).get .FILE_SIZE = some N := hN
  obtain ⟨name, hname⟩ := FileInfoGCWii.exists_get (g := ⟨fst, offset_shift, 0, N⟩) hfirst hlen
    .NAME_OFFSET
  have hdir : FileInfoGCWii.isDirectory ⟨fst, offset_shift, 0, N⟩ =
      some (decide (name / 2 ^ 24 ≠ 0)) := by
    exact congrArg (Option.map _) hname
  have hlast : fst.length - 1 < fst.length := by
    rw [FST_ENTRY_SIZE] at hfirst
    omega
  have heval (fuel : Nat) : fileSystemValid fuel fst offset_shift =
      if decide (name / 2 ^ 24 ≠ 0) = false then some false
      else if fst.length < FST_ENTRY_SIZE * N % 2 ^ 32 then some false
      else if fst[fst.length - 1] ≠ 0 then some false
      else FileInfoGCWii.isValid fst.length fuel ⟨fst, offset_shift, 0, N⟩ ⟨fst, offset_shift, 0, N⟩ := by
    have hsize' : FileInfoGCWii.getSize ⟨fst, offset_shift, 0, N⟩ = some N := hN
    rw [fileSystemValid, if_neg hsmall, if_neg hbig, hroot, Option.bind_some, hdir, Option.bind_some,
      hsize', Option.bind_some, List.getElem?_eq_getElem hlast, Option.bind_some]
  by_cases hdirectory : decide (name / 2 ^ 24 ≠ 0) = false
  · exact ⟨false, fun fuel _ => (heval fuel).trans (if_pos hdirectory), nofun⟩
  by_cases hmany : fst.length < FST_ENTRY_SIZE * N % 2 ^ 32
  · exact ⟨false, fun fuel _ => (heval fuel).trans ((if_neg hdirectory).trans (if_pos hmany)), nofun⟩
  by_cases hnull : fst[fst.length - 1] ≠ 0
  · exact ⟨false, fun fuel _ => (heval fuel).trans
      ((if_neg hdirectory).trans ((if_neg hmany).trans (if_pos hnull))), nofun⟩
  rw [Bool.eq_true_of_not_eq_false hdirectory] at hdir
  obtain ⟨b, hb, hspec⟩ := FileInfoGCWii.isValid_root (g := ⟨fst, offset_shift, 0, N⟩) hlen
    hfirst rfl hsize hdir
  refine ⟨b, fun fuel hfuel => ?_, fun htrue => ⟨hlen, ?_, ⟨fst, offset_shift, 0, N⟩, N, hroot, rfl, rfl,
    hdir, hsize, (hspec htrue).1, (hspec htrue).2.1, (hspec htrue).2.2⟩⟩
  · rw [heval, if_neg hdirectory, if_neg hmany, if_neg hnull]
    exact hb fuel hfuel
  · rw [List.getElem?_eq_getElem hlast, not_not.mp hnull]

/-- **The constructor ends for every table without a read outside of it, and a valid table is walked
in order**, each entry where its parent says and at its path. -/
theorem fileSystemValid_spec (fst : List Byte) (offset_shift : Nat) :
    (∃ b, ∀ fuel, 2 * fst.length < fuel → fileSystemValid fuel fst offset_shift = some b) ∧
      ∀ fuel, 2 * fst.length < fuel → fileSystemValid fuel fst offset_shift = some true →
        ∃ root N, rootInfo fst offset_shift = some root ∧ root.getNextIndex = some N ∧
          ∀ toUTF8, ∃ visits, (∀ fuel, N < fuel → root.walk toUTF8 fuel 0 "" 1 N = some visits) ∧
            visits.map FileInfoGCWii.Visit.index = List.range' 1 (N - 1) ∧
            ∀ v ∈ visits, root.VisitOk toUTF8 v := by
  obtain ⟨b, hb, hspec⟩ := exists_fileSystemValid fst offset_shift
  refine ⟨⟨b, hb⟩, fun fuel hfuel hvalid => ?_⟩
  have htrue : b = true := Option.some.inj ((hb fuel hfuel).symm.trans hvalid)
  obtain ⟨hlen, hnull, root, N, hroot, hfst, hentry, hdir, hsize, hpos, hfit, hforest⟩ := hspec htrue
  subst hfst
  have hdirEnd : root.dirEnd 0 = some N := by
    rw [FileInfoGCWii.dirEnd, hentry, hdir, if_pos rfl, hsize]
  have hnext : root.getNextIndex = some N := by
    rw [FileInfoGCWii.getNextIndex, hdir]
    exact hsize
  refine ⟨root, N, hroot, hnext, fun toUTF8 => ?_⟩
  obtain ⟨visits, hwalk, hindex, hvisits⟩ := FileInfoGCWii.walk_spec hlen toUTF8
    (zero_mem_drop hnull) hforest "" Nat.one_pos hfit hdirEnd
    (fun k hk hk' => absurd hk (by omega)) fun fuel hfuel => by
      obtain ⟨k, rfl⟩ := Nat.exists_eq_succ_of_ne_zero (show fuel ≠ 0 by omega)
      rw [FileInfoGCWii.getPath, if_pos rfl]
  exact ⟨visits, fun fuel hfuel => hwalk fuel (by omega), hindex, hvisits⟩

/-- A directory that holds one file. -/
def nestedTable : List Byte :=
  [1, 0, 0, 0, 0, 0, 0, 0, 0, 0, 0, 3, 1, 0, 0, 0, 0, 0, 0, 0, 0, 0, 0, 3,
   0, 0, 0, 2, 0, 0, 0, 64, 0, 0, 0, 5,
   100, 0, 102, 0]

theorem fileSystemValid_spec_nested :
    ∃ root N, rootInfo nestedTable 2 = some root ∧ root.getNextIndex = some N ∧ ∀ toUTF8, ∃ visits,
        (∀ fuel, N < fuel → root.walk toUTF8 fuel 0 "" 1 N = some visits) ∧
        visits.map FileInfoGCWii.Visit.index = List.range' 1 (N - 1) ∧
        ∀ v ∈ visits, root.VisitOk toUTF8 v :=
  (fileSystemValid_spec nestedTable 2).2 81 (by decide) (by decide)

end DolphinCore.DiscIO
