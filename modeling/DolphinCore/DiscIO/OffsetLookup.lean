import DolphinCore.DiscIO.FileSystemGCWii
import DolphinCore.Lib.Ordered

/-!
# DolphinCore.DiscIO.OffsetLookup

`FindFileInfo` for an offset on the disc.  It looks only at the first file that ends behind the
offset, in a map that keeps one file for each end; that is enough where no two files overlap.
-/

namespace DolphinCore.DiscIO

/-! ## the code -/

/-- The loop that fills the cache, from an entry on. -/
def fillCache (root : FileInfoGCWii) : Nat → Nat → OrdMap Nat Nat → Option (OrdMap Nat Nat)
  | 0, _, cache => some cache
  | n + 1, i, cache =>
    (root.entry i).isDirectory.bind fun directory =>
      if directory then fillCache root n (i + 1) cache
      else (root.entry i).getSize.bind fun size =>
        if size = 0 then fillCache root n (i + 1) cache
        else (root.entry i).getOffset.bind fun offset =>
          fillCache root n (i + 1) (cache.emplace ((offset + size) % 2 ^ 64) i)

structure FileSystemGCWii where
  m_valid : Bool
  m_root : FileInfoGCWii
  m_offset_file_info_cache : OrdMap Nat Nat

namespace FileSystemGCWii

/-- The constructor, for the table that it has read. -/
def create (fuel : Nat) (fst : List Byte) (offset_shift : Nat) : Option FileSystemGCWii :=
  (fileSystemValid fuel fst offset_shift).bind fun valid =>
    (rootInfo fst offset_shift).map fun root => ⟨valid, root, .empty⟩

/-- The cache that a lookup works with. -/
def builtCache (fs : FileSystemGCWii) : Option (OrdMap Nat Nat) :=
  if fs.m_offset_file_info_cache.keys.isEmpty then
    fs.m_root.getSize.bind fun fst_entries =>
      fillCache fs.m_root fst_entries 0 fs.m_offset_file_info_cache
  else some fs.m_offset_file_info_cache

/-- The first file that ends after an offset, if it does not begin after it. -/
def lookup (root : FileInfoGCWii) (cache : OrdMap Nat Nat) (disc_offset : Nat) :
    Option (Option FileInfoGCWii) :=
  match cache.keys.next disc_offset with
  | none => some none
  | some last =>
    (cache.find last).bind fun index =>
      (root.entry index).getOffset.map fun offset =>
        if offset ≤ disc_offset then some (root.entry index) else none

def findFileInfo (fs : FileSystemGCWii) (disc_offset : Nat) :
    Option (Option FileInfoGCWii × FileSystemGCWii) :=
  if fs.m_valid = false then some (none, fs)
  else fs.builtCache.bind fun cache =>
    (lookup fs.m_root cache disc_offset).map fun result =>
      (result, { fs with m_offset_file_info_cache := cache })

/-- The file system after some lookups. -/
def after (fs : FileSystemGCWii) : List Nat → Option FileSystemGCWii
  | [] => some fs
  | disc_offset :: offsets =>
    (fs.findFileInfo disc_offset).bind fun (_, fs') => fs'.after offsets

end FileSystemGCWii

/-! ## extents -/

/-- A file, where it begins and its size. -/
structure FileInfoGCWii.HasExtent (f : FileInfoGCWii) (offset size : Nat) : Prop where
  file : f.isDirectory = some false
  offset : f.getOffset = some offset
  size : f.getSize = some size

/-- A file that an offset lies in. -/
def FileInfoGCWii.Covers (f : FileInfoGCWii) (o : Nat) : Prop :=
  ∃ offset size, f.HasExtent offset size ∧ offset ≤ o ∧ o < offset + size

/-- Two files that are not empty take the same place, or have no byte in common. -/
def FileInfoGCWii.Apart (root : FileInfoGCWii) : Prop :=
  ∀ i j o s o' s', i < root.m_total_file_infos → j < root.m_total_file_infos →
    (root.entry i).HasExtent o s → (root.entry j).HasExtent o' s' → s ≠ 0 → s' ≠ 0 →
    (o = o' ∧ s = s') ∨ o + s ≤ o' ∨ o' + s' ≤ o

/-- What is found for an offset: a file that it lies in, or there is none. -/
def FileInfoGCWii.Finds (root : FileInfoGCWii) (disc_offset : Nat) : Option FileInfoGCWii → Prop
  | some f => f.Covers disc_offset ∧ ∃ i, i < root.m_total_file_infos ∧ f = root.entry i
  | none => ∀ i, i < root.m_total_file_infos → ¬ (root.entry i).Covers disc_offset

variable {cache : OrdMap Nat Nat}

section

variable {root : FileInfoGCWii}

theorem get_lt {f : FileInfoGCWii} {entry_property : EntryProperty} {w : Nat}
    (h : f.get entry_property = some w) : w < 2 ^ 32 := by
  unfold FileInfoGCWii.get readWord at h
  split at h
  · obtain rfl := Option.some.inj h
    refine (Endian.fromBE_lt _).trans_le ?_
    exact Nat.pow_le_pow_right (n := 256) (by decide) (List.length_take_le 4 _)
  · cases h

theorem FileInfoGCWii.HasExtent.unique {f : FileInfoGCWii} {o s o' s' : Nat} (h : f.HasExtent o s)
    (h' : f.HasExtent o' s') : o = o' ∧ s = s' :=
  ⟨Option.some.inj (h.offset.symm.trans h'.offset), Option.some.inj (h.size.symm.trans h'.size)⟩

/-! ## the cache -/

/-- A cache that has, for each end of one of the first files, one that ends there. -/
structure Filled (root : FileInfoGCWii) (n : Nat) (cache : OrdMap Nat Nat) : Prop where
  sound : ∀ last i, cache.find last = some i → i < n ∧
    ∃ o s, (root.entry i).HasExtent o s ∧ s ≠ 0 ∧ o + s = last
  complete : ∀ i o s, i < n → (root.entry i).HasExtent o s → s ≠ 0 → o + s ∈ cache.keys

theorem filled_empty : Filled root 0 .empty where
  sound _ _ h := by simp at h
  complete _ _ _ h := absurd h (Nat.not_lt_zero _)

theorem Filled.skip {n : Nat} (h : Filled root n cache)
    (hnone : ∀ o s, (root.entry n).HasExtent o s → s = 0) : Filled root (n + 1) cache where
  sound last i hfind := ⟨Nat.lt_succ_of_lt (h.sound last i hfind).1, (h.sound last i hfind).2⟩
  complete i o s hi hext hs := by
    obtain hi | rfl := Nat.lt_succ_iff_lt_or_eq.mp hi
    · exact h.complete i o s hi hext hs
    · exact absurd (hnone o s hext) hs

theorem Filled.emplace {n o s : Nat} (h : Filled root n cache) (hext : (root.entry n).HasExtent o s)
    (hs : s ≠ 0) :
    Filled root (n + 1) (cache.emplace (o + s) n) where
  sound last i hfind := by
    rw [OrdMap.find_emplace] at hfind
    split at hfind
    · next hlast =>
        cases hold : cache.find (o + s) with
        | none =>
          rw [hold, Option.getD_none, Option.some.injEq] at hfind
          exact hfind ▸ ⟨Nat.lt_succ_self n, o, s, hext, hs, hlast.symm⟩
        | some j =>
          rw [hold, Option.getD_some, Option.some.injEq] at hfind
          obtain ⟨hlt, hj⟩ := h.sound _ j hold
          exact hfind ▸ hlast ▸ ⟨Nat.lt_succ_of_lt hlt, hj⟩
    · exact ⟨Nat.lt_succ_of_lt (h.sound last i hfind).1, (h.sound last i hfind).2⟩
  complete i o' s' hi hext' hs' := by
    rw [OrdMap.mem_keys_emplace]
    obtain hi | rfl := Nat.lt_succ_iff_lt_or_eq.mp hi
    · exact .inr (h.complete i o' s' hi hext' hs')
    · obtain ⟨rfl, rfl⟩ := hext.unique hext'
      exact .inl rfl

/-- **The loop fills the cache** without a read outside of the table. -/
theorem fillCache_spec (hlen : root.m_fst.length < 2 ^ 32) (hshift : root.m_offset_shift ≤ 2)
    (n : Nat) : ∀ (i : Nat) (cache : OrdMap Nat Nat), Filled root i cache →
      FST_ENTRY_SIZE * (i + n) ≤ root.m_fst.length →
      ∃ cache', fillCache root n i cache = some cache' ∧ Filled root (i + n) cache' := by
  induction n with
  | zero => exact fun i cache h _ => ⟨cache, rfl, h⟩
  | succ n ih =>
    intro i cache h hfit
    have hfit' : FST_ENTRY_SIZE * (i + 1) ≤ root.m_fst.length :=
      (Nat.mul_le_mul_left _ (by omega)).trans hfit
    obtain ⟨name, hname⟩ := FileInfoGCWii.exists_get hfit' hlen .NAME_OFFSET
    obtain ⟨offset, hoffset⟩ := FileInfoGCWii.exists_get hfit' hlen .FILE_OFFSET
    obtain ⟨size, hsize⟩ := FileInfoGCWii.exists_get hfit' hlen .FILE_SIZE
    have hrest : i + (n + 1) = i + 1 + n := by omega
    rw [hrest] at hfit ⊢
    have hdir : (root.entry i).isDirectory = some (decide (name / 2 ^ 24 ≠ 0)) := by
      rw [FileInfoGCWii.isDirectory, hname, Option.map_some]
    have hoff : (root.entry i).getOffset = some (offset * 2 ^ root.m_offset_shift) := by
      rw [FileInfoGCWii.getOffset, hoffset]
      rfl
    rw [fillCache, hdir, Option.bind_some]
    by_cases hdirectory : decide (name / 2 ^ 24 ≠ 0) = true
    · rw [if_pos hdirectory]
      refine ih (i + 1) cache (h.skip fun o s hext => ?_) hfit
      have := hext.file
      rw [hdir, hdirectory] at this
      cases this
    · rw [if_neg hdirectory, show (root.entry i).getSize = some size from hsize, Option.bind_some]
      by_cases hzero : size = 0
      · rw [if_pos hzero]
        refine ih (i + 1) cache (h.skip fun o s hext => ?_) hfit
        exact (Option.some.inj (hext.size.symm.trans hsize)).trans hzero
      · rw [if_neg hzero, hoff, Option.bind_some]
        have hext : (root.entry i).HasExtent (offset * 2 ^ root.m_offset_shift) size :=
          ⟨by rw [hdir, Bool.eq_false_of_not_eq_true hdirectory], hoff, hsize⟩
        have hlt := get_lt hoffset
        have hlt' := get_lt hsize
        have hpow : 2 ^ root.m_offset_shift ≤ 2 ^ 2 := Nat.pow_le_pow_right (by decide) hshift
        have hprod := Nat.mul_le_mul (Nat.le_of_lt hlt) hpow
        rw [Nat.mod_eq_of_lt (by omega)]
        exact ih (i + 1) _ (h.emplace hext hzero) hfit

/-! ## the lookup -/

/-- **The first file that ends behind an offset** is one that it lies in, if there is any: a file
that ends before has its last byte in that one. -/
theorem lookup_finds (h : Filled root root.m_total_file_infos cache) (hapart : root.Apart)
    (disc_offset : Nat) :
    ∃ result, FileSystemGCWii.lookup root cache disc_offset = some result ∧
      root.Finds disc_offset result := by
  unfold FileSystemGCWii.lookup
  cases hnext : cache.keys.next disc_offset with
  | none =>
    refine ⟨none, rfl, fun i hi ⟨o, s, hext, hle, hlt⟩ => ?_⟩
    have := OrdSet.next_eq_none hnext _ (h.complete i o s hi hext (by omega))
    omega
  | some last =>
    obtain ⟨hkey, hafter, hleast⟩ := OrdSet.next_eq_some hnext
    obtain ⟨index, hfind⟩ := OrdMap.exists_find hkey
    obtain ⟨hindex, o, s, hext, hs, hlast⟩ := h.sound last index hfind
    dsimp only
    rw [hfind, Option.bind_some, hext.offset, Option.map_some]
    refine ⟨_, rfl, ?_⟩
    by_cases hle : o ≤ disc_offset
    · rw [if_pos hle]
      exact ⟨⟨o, s, hext, hle, by omega⟩, index, hindex, rfl⟩
    · rw [if_neg hle]
      rintro i hi ⟨o', s', hext', hle', hlt'⟩
      have hfirst := hleast _ (h.complete i o' s' hi hext' (by omega)) hlt'
      have := hapart index i o s o' s' hindex hi hext hext' hs (by omega)
      omega

end

namespace FileSystemGCWii

/-- What holds of a file system between lookups. -/
structure Ready (fs : FileSystemGCWii) : Prop where
  valid : fs.m_valid = true
  shift : fs.m_root.m_offset_shift ≤ 2
  length : fs.m_root.m_fst.length < 2 ^ 32
  fit : FST_ENTRY_SIZE * fs.m_root.m_total_file_infos ≤ fs.m_root.m_fst.length
  size : fs.m_root.getSize = some fs.m_root.m_total_file_infos
  cache : fs.m_offset_file_info_cache = .empty ∨
    fillCache fs.m_root fs.m_root.m_total_file_infos 0 .empty = some fs.m_offset_file_info_cache

theorem ready_create {fuel : Nat} {fst : List Byte} {offset_shift : Nat} {fs : FileSystemGCWii}
    (hcreate : create fuel fst offset_shift = some fs) (hfuel : 2 * fst.length < fuel)
    (hvalid : fs.m_valid = true) (hshift : offset_shift ≤ 2) : fs.Ready := by
  obtain ⟨b, hb, hspec⟩ := exists_fileSystemValid fst offset_shift
  rw [create, hb fuel hfuel, Option.bind_some] at hcreate
  obtain ⟨root, hroot, rfl⟩ := Option.map_eq_some_iff.mp hcreate
  obtain ⟨hlen, -, root', N, hroot', hfst, -, -, hsize, -, hfit, -⟩ := hspec hvalid
  obtain rfl := Option.some.inj (hroot'.symm.trans hroot)
  obtain ⟨total, htotal, rfl⟩ := Option.map_eq_some_iff.mp hroot
  obtain rfl := Option.some.inj (hsize.symm.trans htotal)
  exact ⟨hvalid, hshift, hlen, hfit, hsize, .inl rfl⟩

variable {fs : FileSystemGCWii}

theorem Ready.builtCache (h : fs.Ready) : ∃ cache, fs.builtCache = some cache ∧
    fillCache fs.m_root fs.m_root.m_total_file_infos 0 .empty = some cache ∧
    Filled fs.m_root fs.m_root.m_total_file_infos cache := by
  obtain ⟨cache, hfill, hfilled⟩ := fillCache_spec h.length h.shift fs.m_root.m_total_file_infos 0
    .empty filled_empty (by rw [Nat.zero_add]; exact h.fit)
  rw [Nat.zero_add] at hfilled
  refine ⟨cache, ?_, hfill, hfilled⟩
  unfold FileSystemGCWii.builtCache
  obtain hempty | hbuilt := h.cache
  · rw [hempty, if_pos (show OrdMap.empty.keys.isEmpty = true from rfl), h.size]
    exact hfill
  · obtain rfl := Option.some.inj (hfill.symm.trans hbuilt)
    split
    · next hempty =>
        -- no file was entered, so the loop runs again
        rw [OrdMap.eq_empty hempty, h.size, Option.bind_some, hfill, OrdMap.eq_empty hempty]
    · rfl

theorem Ready.findFileInfo (h : fs.Ready)
    (hcache : fillCache fs.m_root fs.m_root.m_total_file_infos 0 .empty = some cache)
    {disc_offset : Nat} {result : Option FileInfoGCWii}
    (hlookup : lookup fs.m_root cache disc_offset = some result) :
    ∃ fs', fs.findFileInfo disc_offset = some (result, fs') ∧ fs'.Ready ∧
      fs'.m_root = fs.m_root := by
  obtain ⟨cache', hbuilt, hfill, -⟩ := h.builtCache
  obtain rfl := Option.some.inj (hfill.symm.trans hcache)
  refine ⟨{ fs with m_offset_file_info_cache := cache' }, ?_,
    ⟨h.valid, h.shift, h.length, h.fit, h.size, .inr hfill⟩, rfl⟩
  unfold FileSystemGCWii.findFileInfo
  rw [if_neg (by simp [h.valid]), hbuilt, Option.bind_some, hlookup]
  rfl

theorem Ready.after (hapart : fs.m_root.Apart) (offsets : List Nat) : fs.Ready →
    ∃ fs', fs.after offsets = some fs' ∧ fs'.Ready ∧ fs'.m_root = fs.m_root := by
  induction offsets generalizing fs with
  | nil => exact fun h => ⟨fs, rfl, h, rfl⟩
  | cons disc_offset offsets ih =>
    intro h
    obtain ⟨cache, -, hfill, hfilled⟩ := h.builtCache
    obtain ⟨result, hlookup, -⟩ := lookup_finds hfilled hapart disc_offset
    obtain ⟨fs₁, hfind, hready, hroot⟩ := h.findFileInfo hfill hlookup
    obtain ⟨fs', hafter, hready', hroot'⟩ := ih (hroot ▸ hapart) hready
    refine ⟨fs', ?_, hready', hroot'.trans hroot⟩
    rw [FileSystemGCWii.after, hfind, Option.bind_some]
    exact hafter

/-- **A lookup finds a file that the offset lies in**, if there is one, and the same one whatever was
looked up before. -/
theorem findFileInfo_finds {fuel : Nat} {fst : List Byte} {offset_shift : Nat}
    (hcreate : create fuel fst offset_shift = some fs) (hfuel : 2 * fst.length < fuel)
    (hvalid : fs.m_valid = true) (hshift : offset_shift ≤ 2) (hapart : fs.m_root.Apart)
    (disc_offset : Nat) :
    ∃ result, fs.m_root.Finds disc_offset result ∧
      ∀ earlier, ∃ fs' fs'', fs.after earlier = some fs' ∧
        fs'.findFileInfo disc_offset = some (result, fs'') := by
  have h := ready_create hcreate hfuel hvalid hshift
  obtain ⟨cache, -, hfill, hfilled⟩ := h.builtCache
  obtain ⟨result, hlookup, hfinds⟩ := lookup_finds hfilled hapart disc_offset
  refine ⟨result, hfinds, fun earlier => ?_⟩
  obtain ⟨fs', hafter, hready, hroot⟩ := h.after hapart earlier
  obtain ⟨fs'', hfind, -⟩ := hready.findFileInfo (hroot ▸ hfill) (hroot ▸ hlookup)
  exact ⟨fs', fs'', hafter, hfind⟩

/-- The root of that table. -/
def nestedRoot : FileInfoGCWii := ⟨nestedTable, 2, 0, 3⟩

theorem apart_nestedRoot : nestedRoot.Apart := by
  have honly {i o s : Nat} (hi : i < 3) (h : (nestedRoot.entry i).HasExtent o s) : i = 2 := by
    match i, hi with
    | 0, _ => exact absurd h.file (by decide)
    | 1, _ => exact absurd h.file (by decide)
    | 2, _ => rfl
  intro i j o s o' s' hi hj hext hext' _ _
  obtain rfl := honly hi hext
  obtain rfl := honly hj hext'
  exact .inl (hext.unique hext')

/-- The second byte of its file. -/
theorem findFileInfo_finds_nested : ∃ result, nestedRoot.Finds 257 result ∧
    ∀ earlier, ∃ fs' fs'', after ⟨true, nestedRoot, .empty⟩ earlier = some fs' ∧
      fs'.findFileInfo 257 = some (result, fs'') :=
  have hcreate : create 81 nestedTable 2 = some ⟨true, nestedRoot, .empty⟩ := rfl
  findFileInfo_finds hcreate (by decide) rfl (Nat.le_refl 2) apart_nestedRoot 257

end FileSystemGCWii

end DolphinCore.DiscIO
