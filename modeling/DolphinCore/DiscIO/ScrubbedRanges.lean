import DolphinCore.DiscIO.DiscScrubber
import DolphinCore.DiscIO.FileSystemGCWii

/-!
# DolphinCore.DiscIO.ScrubbedRanges

What the scrubber keeps of a disc: the clusters that the steps of `MarkAsUsed` reach, the ranges that the
parsers name, and the condition under which every byte of these is copied and no access is outside of
the table.
-/

namespace DolphinCore.DiscIO

/-! ## the steps of `MarkAsUsed` -/

/-- The cluster is among the first `size / CLUSTER_SIZE` ones, rounded up, from that of the offset on. -/
def Reaches (range : Nat × Nat) (cluster : Nat) : Prop :=
  range.1 / CLUSTER_SIZE ≤ cluster ∧ (cluster - range.1 / CLUSTER_SIZE) * CLUSTER_SIZE < range.2

instance (range : Nat × Nat) (cluster : Nat) : Decidable (Reaches range cluster) :=
  inferInstanceAs (Decidable (_ ∧ _))

/-- A step is inside the image and in the cluster that the image holds only a part of. -/
def Overruns (m_file_size : Nat) (range : Nat × Nat) : Prop :=
  Reaches range (m_file_size / CLUSTER_SIZE) ∧ range.1 % CLUSTER_SIZE < m_file_size % CLUSTER_SIZE

theorem reaches_step {current last : Nat} (hlt : current < last) (c : Nat) :
    Reaches (current, last - current) c ↔ c = current / CLUSTER_SIZE ∨
        Reaches (current + CLUSTER_SIZE, last - (current + CLUSTER_SIZE)) c := by
  simp only [Reaches, CLUSTER_SIZE]
  omega

theorem overruns_step {m_file_size current last : Nat} (hlt : current < last)
    (hinside : current / CLUSTER_SIZE < m_file_size / CLUSTER_SIZE) :
    Overruns m_file_size (current, last - current) ↔
      Overruns m_file_size (current + CLUSTER_SIZE, last - (current + CLUSTER_SIZE)) := by
  rw [Overruns, Overruns, reaches_step hlt, Nat.add_mod_right, or_iff_right (Nat.ne_of_gt hinside)]

/-- What marking the steps of a set of ranges does to the table. -/
inductive Marked (m_file_size : Nat) (reaches : Nat → Prop) (overruns : Prop) (before : List Bool) :
    Option (List Bool) → Prop
  | outside : overruns → Marked m_file_size reaches overruns before none
  | inside {after : List Bool} : ¬ overruns → after.length = m_file_size / CLUSTER_SIZE →
    (∀ c < m_file_size / CLUSTER_SIZE, after[c]? = some false ↔ before[c]? = some false ∨ reaches c) →
    Marked m_file_size reaches overruns before (some after)

/-- **The loop of `MarkAsUsed`**, by induction on the turns that are left. -/
theorem markLoop_spec (m_file_size last : Nat) : (turns current : Nat) → (table : List Bool) →
    table.length = m_file_size / CLUSTER_SIZE → last ≤ current + turns * CLUSTER_SIZE →
    Marked m_file_size (Reaches (current, last - current))
      (Overruns m_file_size (current, last - current)) table
      (markLoop m_file_size last (turns + 1) current table) := by
  intro turns
  induction turns with
  | zero =>
    intro current table hlength hturns
    rw [markLoop, if_neg (by omega)]
    have hnone (c : Nat) : ¬ Reaches (current, last - current) c := by
      rw [Reaches]
      omega
    exact .inside (fun h => hnone _ h.1) hlength fun c _ => (or_iff_left (hnone c)).symm
  | succ turns ih =>
    intro current table hlength hturns
    rw [markLoop]
    by_cases hstep : current < last ∧ current < m_file_size
    · rw [if_pos hstep]
      by_cases hinside : current / CLUSTER_SIZE < table.length
      · rw [if_pos hinside]
        have hset : (table.set (current / CLUSTER_SIZE) false).length =
            m_file_size / CLUSTER_SIZE := by
          rw [List.length_set, hlength]
        have hrest := ih (current + CLUSTER_SIZE) _ hset (by
          rw [Nat.succ_mul] at hturns
          omega)
        rw [← overruns_step hstep.1 (hlength ▸ hinside)] at hrest
        generalize markLoop m_file_size last (turns + 1) (current + CLUSTER_SIZE) _ = result at hrest ⊢
        cases hrest with
        | outside h => exact .outside h
        | inside hnot hafter hmarked =>
          refine .inside hnot hafter fun c hc => ?_
          rw [hmarked c hc, reaches_step hstep.1, ← or_assoc]
          refine or_congr_left ?_
          by_cases heq : c = current / CLUSTER_SIZE
          · rw [heq, List.getElem?_set_self hinside]
            exact ⟨fun _ => Or.inr rfl, fun _ => rfl⟩
          · rw [List.getElem?_set_ne (Ne.symm heq), or_iff_left heq]
      · rw [if_neg hinside]
        refine .outside ?_
        rw [hlength] at hinside
        simp only [Overruns, Reaches, CLUSTER_SIZE] at hinside ⊢
        omega
    · rw [if_neg hstep]
      have hnone (c : Nat) (hc : c < m_file_size / CLUSTER_SIZE) :
          ¬ Reaches (current, last - current) c := by
        simp only [Reaches, CLUSTER_SIZE] at hc ⊢
        omega
      refine .inside (fun h => ?_) hlength fun c hc => (or_iff_left (hnone c hc)).symm
      simp only [Overruns, Reaches, CLUSTER_SIZE] at h
      omega

theorem markAsUsed_spec (m_file_size : Nat) (range : Nat × Nat) {table : List Bool}
    (hlength : table.length = m_file_size / CLUSTER_SIZE) :
    Marked m_file_size (Reaches range) (Overruns m_file_size range) table
      (markAsUsed m_file_size range.1 range.2 table) := by
  have h := markLoop_spec m_file_size (range.1 + range.2) (range.2 / CLUSTER_SIZE + 1) range.1 table
    hlength (by
      rw [CLUSTER_SIZE]
      omega)
  rw [Nat.add_sub_cancel_left] at h
  exact h

/-- **The calls in order** mark what any of them reaches. -/
theorem markCalls_spec (m_file_size : Nat) : (calls : List Call) → {table : List Bool} →
    table.length = m_file_size / CLUSTER_SIZE →
    Marked m_file_size (fun c => ∃ call ∈ calls, Reaches call.range c)
      (∃ call ∈ calls, Overruns m_file_size call.range) table (markCalls m_file_size calls table)
  | [], table, hlength => by
    have hnone {P : Call → Prop} : ¬ ∃ call ∈ ([] : List Call), P call :=
      fun ⟨_, hmem, _⟩ => absurd hmem List.not_mem_nil
    exact .inside hnone hlength fun c _ => (or_iff_left hnone).symm
  | call :: calls, table, hlength => by
    rw [markCalls]
    have hcall := markAsUsed_spec m_file_size call.range hlength
    cases hmark : markAsUsed m_file_size call.range.1 call.range.2 table with
    | none =>
      rw [hmark] at hcall
      cases hcall with
      | outside h => exact .outside ⟨call, List.mem_cons_self, h⟩
    | some after =>
      rw [hmark] at hcall
      cases hcall with
      | inside hnot hafter hmarked =>
        have hrest := markCalls_spec m_file_size calls hafter
        rw [Option.bind_some]
        have hiff {P : Call → Prop} : (∃ c ∈ call :: calls, P c) ↔ P call ∨ ∃ c ∈ calls, P c :=
          List.exists_mem_cons_iff P call calls
        cases hcalls : markCalls m_file_size calls after with
        | none =>
          rw [hcalls] at hrest
          cases hrest with
          | outside h => exact .outside (hiff.mpr (Or.inr h))
        | some final =>
          rw [hcalls] at hrest
          cases hrest with
          | inside hnot' hfinal hmarked' =>
            refine .inside (fun h => (hiff.mp h).elim hnot hnot') hfinal fun c hc => ?_
            rw [hmarked' c hc, hmarked c hc, hiff, or_assoc]

/-! ## the bytes of a range -/

/-- The byte `x` of the image is one of the range, or of an encrypted cluster that holds one. -/
def Call.Uses : Call → Nat → Prop
  | .markAsUsed offset size, x => offset ≤ x ∧ x < offset + size
  | .markAsUsedE partition_data_offset offset size, x =>
    ∃ d, offset ≤ d ∧ d < offset + size ∧
      partition_data_offset + d / CLUSTER_DATA_SIZE * CLUSTER_SIZE ≤ x ∧
      x < partition_data_offset + d / CLUSTER_DATA_SIZE * CLUSTER_SIZE + CLUSTER_SIZE

/-! ## the ranges that are named -/

/-- The file `i` of a partition, as a range of its data. -/
structure FileCall (partition_data_offset : Nat) (f : FileInfoGCWii) (i : Nat) (call : Call) : Prop where
  file : (f.entry i).isDirectory = some false
  extent : ∃ offset size, (f.entry i).getOffset = some offset ∧ (f.entry i).getSize = some size ∧
    call = .markAsUsedE partition_data_offset offset size

/-- The ranges of a partition that are named by words of its data, or by its file system. -/
inductive NamedData (v : Volume) (apploader : ApploaderSize) (p : Partition) (partition_data_offset : Nat) :
    Call → Prop
  | apploader {first second : BitVec 32} : v.readSwapped (0x2440 + 0x14) p = some first →
    v.readSwapped (0x2440 + 0x18) p = some second →
    NamedData v apploader p partition_data_offset
      (.markAsUsedE partition_data_offset 0 (apploader p first second))
  | dol {dol_offset : Nat} {dol_size : BitVec 32} :
    v.readSwappedAndShifted 0x420 p = some dol_offset → v.getBootDOLSize p dol_offset = some dol_size →
    NamedData v apploader p partition_data_offset
      (.markAsUsedE partition_data_offset dol_offset dol_size.toNat)
  | fst {fst_offset fst_size : Nat} : v.readSwappedAndShifted 0x424 p = some fst_offset →
    v.readSwappedAndShifted 0x428 p = some fst_size →
    NamedData v apploader p partition_data_offset (.markAsUsedE partition_data_offset fst_offset fst_size)
  | file {filesystem : FileInfoGCWii} {last i : Nat} {call : Call} :
    v.getFileSystem p = some filesystem → filesystem.getNextIndex = some last → 1 ≤ i → i < last →
    FileCall partition_data_offset filesystem i call → NamedData v apploader p partition_data_offset call

/-- The ranges that the disc names as used, where `apploader` is the size of what is before the
executable of a partition. -/
inductive Named (v : Volume) (apploader : ApploaderSize) : Call → Prop
  | discHeader : Named v apploader (.markAsUsed 0 0x50000)
  | header {p : Partition} {header : PartitionHeader} {call : Call} : p ∈ v.partitions →
    readPartitionHeader v p = some header → call ∈ header.calls p → Named v apploader call
  | data {p : Partition} {header : PartitionHeader} {call : Call} : p ∈ v.partitions →
    readPartitionHeader v p = some header →
    NamedData v apploader p (p.offset + header.data_offset) call → Named v apploader call

/-- **The files below a directory**, by induction on the forest. -/
theorem parseFileSystemData_spec (partition_data_offset : Nat) {g : FileInfoGCWii}
    (hlen : g.m_fst.length < 2 ^ 32) {dir first last : Nat} (h : g.Forest dir first last)
    (hfit : FST_ENTRY_SIZE * last ≤ g.m_fst.length) :
    ∃ calls, (∀ fuel, last - first < fuel →
        parseFileSystemData partition_data_offset g fuel first last = some calls) ∧
      ∀ call, call ∈ calls ↔ ∃ i, first ≤ i ∧ i < last ∧ FileCall partition_data_offset g i call := by
  induction h with
  | nil dir last =>
    refine ⟨[], fun fuel hfuel => ?_, fun call => ⟨fun hmem => absurd hmem List.not_mem_nil,
      fun ⟨i, hi, hi', _⟩ => absurd hi' (Nat.not_lt.mpr hi)⟩⟩
    obtain ⟨k, rfl⟩ := Nat.exists_eq_succ_of_ne_zero (show fuel ≠ 0 by omega)
    rw [parseFileSystemData, if_pos rfl]
  | @leaf dir first last hok hend hrest ih =>
    have hle := hrest.le
    obtain ⟨rest, hparse, hmem⟩ := ih hfit
    have hfile := FileInfoGCWii.child_of_dirEnd_none hlen hok.readable hend
    obtain ⟨word, hword⟩ := FileInfoGCWii.exists_get hok.readable hlen .FILE_OFFSET
    obtain ⟨size, hsize⟩ := FileInfoGCWii.exists_get hok.readable hlen .FILE_SIZE
    have hsize' : (g.entry first).getSize = some size := hsize
    have hoffset : (g.entry first).getOffset = some (word * 2 ^ (g.entry first).m_offset_shift) := by
      rw [FileInfoGCWii.getOffset, hword, Option.map_some]
    refine ⟨.markAsUsedE partition_data_offset (word * 2 ^ (g.entry first).m_offset_shift) size :: rest,
      fun fuel hfuel => ?_, fun call => ?_⟩
    · obtain ⟨k, rfl⟩ := Nat.exists_eq_succ_of_ne_zero (show fuel ≠ 0 by omega)
      rw [Nat.succ_eq_add_one, parseFileSystemData, if_neg (by omega), hfile, Option.bind_some,
        (FileInfoGCWii.Child.file hfile).getNextIndex, Option.bind_some,
        if_neg Bool.false_ne_true, hoffset, Option.bind_some, hsize', Option.map_some, Option.bind_some,
        hparse k (by omega), Option.map_some, List.singleton_append]
    · rw [List.mem_cons, hmem call]
      constructor
      · rintro (rfl | ⟨i, hi, hi', hcall⟩)
        · exact ⟨first, Nat.le_refl _, hle, ⟨hfile, _, _, hoffset, hsize', rfl⟩⟩
        · exact ⟨i, Nat.le_of_succ_le hi, hi', hcall⟩
      · rintro ⟨i, hi, hi', hcall⟩
        rcases Nat.eq_or_lt_of_le hi with rfl | hlt
        · obtain ⟨offset, size', hoff, hsz, rfl⟩ := hcall.extent
          rw [hoffset] at hoff
          rw [hsize'] at hsz
          cases hoff
          cases hsz
          exact Or.inl rfl
        · exact Or.inr ⟨i, hlt, hi', hcall⟩
  | @node dir first mid last hok hend hmid hbelow hrest ihbelow ihrest =>
    have hle := hrest.le
    obtain ⟨hdirectory, hnext⟩ := FileInfoGCWii.child_of_dirEnd_some hend
    obtain ⟨below, hparseBelow, hmemBelow⟩ :=
      ihbelow (Nat.le_trans (Nat.mul_le_mul_left _ hle) hfit)
    obtain ⟨rest, hparse, hmem⟩ := ihrest hfit
    refine ⟨below ++ rest, fun fuel hfuel => ?_, fun call => ?_⟩
    · obtain ⟨k, rfl⟩ := Nat.exists_eq_succ_of_ne_zero (show fuel ≠ 0 by omega)
      rw [Nat.succ_eq_add_one, parseFileSystemData, if_neg (by omega), hdirectory, Option.bind_some,
        hnext, Option.bind_some, if_pos rfl, hparseBelow k (by omega), Option.bind_some,
        hparse k (by omega), Option.map_some]
    · rw [List.mem_append, hmemBelow call, hmem call]
      constructor
      · rintro (⟨i, hi, hi', hcall⟩ | ⟨i, hi, hi', hcall⟩)
        · exact ⟨i, Nat.le_of_succ_le hi, Nat.lt_of_lt_of_le hi' hle, hcall⟩
        · exact ⟨i, Nat.le_trans (Nat.le_of_lt hmid) hi, hi', hcall⟩
      · rintro ⟨i, hi, hi', hcall⟩
        rcases Nat.lt_or_ge i mid with hlt | hge
        · refine Or.inl ⟨i, Nat.lt_of_le_of_ne hi fun heq => ?_, hlt, hcall⟩
          have hfile := hcall.file
          rw [← heq, hdirectory] at hfile
          cases hfile
        · exact Or.inr ⟨i, hge, hi', hcall⟩

theorem getFileSystem_spec {v : Volume} {p : Partition} {filesystem : FileInfoGCWii}
    (h : v.getFileSystem p = some filesystem) :
    ∃ N, filesystem.getNextIndex = some N ∧ filesystem.m_fst.length < 2 ^ 32 ∧
      FST_ENTRY_SIZE * N ≤ filesystem.m_fst.length ∧ filesystem.Forest 0 1 N := by
  obtain ⟨fst, -, h⟩ := Option.bind_eq_some_iff.mp h
  split at h
  · next hvalid =>
      obtain ⟨b, hb, hspec⟩ := exists_fileSystemValid fst 2
      have htrue : b = true := Option.some.inj ((hb _ (Nat.lt_succ_self _)).symm.trans hvalid)
      obtain ⟨hlen, -, root, N, hroot, hfst, -, hdir, hsize, -, hfit, hforest⟩ := hspec htrue
      rw [hroot] at h
      cases h
      refine ⟨N, ?_, hfst ▸ hlen, hfst ▸ hfit, hforest⟩
      rw [FileInfoGCWii.getNextIndex, hdir]
      exact hsize
  · cases h

/-- **`ParsePartitionData`** ends, and if it succeeds, then its calls are for the ranges that are
named. -/
theorem parsePartitionData_spec (v : Volume) (apploader : ApploaderSize) (p : Partition)
    (header : PartitionHeader) :
    ∃ parsed, parsePartitionData v apploader p header = some parsed ∧
      (parsed.2 = true → ∀ call, call ∈ parsed.1 ↔
        NamedData v apploader p (p.offset + header.data_offset) call) := by
  have hfailed {calls : List Call} (h : parsePartitionData v apploader p header = some (calls, false)) :
      ∃ parsed, parsePartitionData v apploader p header = some parsed ∧
        (parsed.2 = true → ∀ call, call ∈ parsed.1 ↔
          NamedData v apploader p (p.offset + header.data_offset) call) :=
    ⟨(calls, false), h, fun hok => absurd hok Bool.false_ne_true⟩
  cases hfs : v.getFileSystem p with
  | none => exact hfailed (by rw [parsePartitionData, hfs])
  | some filesystem =>
  cases hfirst : v.readSwapped (0x2440 + 0x14) p with
  | none => exact hfailed (by simp only [parsePartitionData, hfs, hfirst]; rfl)
  | some first =>
  cases hsecond : v.readSwapped (0x2440 + 0x18) p with
  | none => exact hfailed (by simp only [parsePartitionData, hfs, hfirst, hsecond]; rfl)
  | some second =>
  cases hdol : v.readSwappedAndShifted 0x420 p with
  | none => exact hfailed (by simp only [parsePartitionData, hfs, hfirst, hsecond, hdol]; rfl)
  | some dol_offset =>
  cases hdolSize : v.getBootDOLSize p dol_offset with
  | none => exact hfailed (by simp only [parsePartitionData, hfs, hfirst, hsecond, hdol, hdolSize]; rfl)
  | some dol_size =>
  cases hfst : v.readSwappedAndShifted 0x424 p with
  | none =>
    exact hfailed (by
      simp only [parsePartitionData, hfs, hfirst, hsecond, hdol, hdolSize, hfst]
      rfl)
  | some fst_offset =>
  cases hfstSize : v.readSwappedAndShifted 0x428 p with
  | none =>
    exact hfailed (by
      simp only [parsePartitionData, hfs, hfirst, hsecond, hdol, hdolSize, hfst, hfstSize]
      rfl)
  | some fst_size =>
  obtain ⟨N, hnext, hlen, hfit, hforest⟩ := getFileSystem_spec hfs
  obtain ⟨files, hparse, hmem⟩ :=
    parseFileSystemData_spec (p.offset + header.data_offset) hlen hforest hfit
  refine ⟨([.markAsUsedE (p.offset + header.data_offset) 0 (apploader p first second),
    .markAsUsedE (p.offset + header.data_offset) dol_offset dol_size.toNat,
    .markAsUsedE (p.offset + header.data_offset) fst_offset fst_size] ++ files, true), ?_, fun _ call => ?_⟩
  · simp only [parsePartitionData, hfs, hfirst, hsecond, hdol, hdolSize, hfst, hfstSize, hnext,
      Option.bind_some, hparse (N + 1) (by omega), Option.map_some, List.cons_append, List.nil_append]
  · rw [List.mem_append, hmem call]
    constructor
    · rintro (hcall | ⟨i, hi, hi', hcall⟩)
      · rcases List.mem_cons.mp hcall with rfl | hcall
        · exact .apploader hfirst hsecond
        rcases List.mem_cons.mp hcall with rfl | hcall
        · exact .dol hdol hdolSize
        cases List.mem_singleton.mp hcall
        exact .fst hfst hfstSize
      · exact .file hfs hnext hi hi' hcall
    · intro hnamed
      cases hnamed with
      | apploader h h' =>
        rw [hfirst] at h
        rw [hsecond] at h'
        cases h
        cases h'
        exact Or.inl List.mem_cons_self
      | dol h h' =>
        rw [hdol] at h
        cases h
        rw [hdolSize] at h'
        cases h'
        exact Or.inl (List.mem_cons_of_mem _ List.mem_cons_self)
      | fst h h' =>
        rw [hfst] at h
        rw [hfstSize] at h'
        cases h
        cases h'
        exact Or.inl (List.mem_cons_of_mem _ (List.mem_cons_of_mem _ List.mem_cons_self))
      | file h h' hi hi' hcall =>
        rw [hfs] at h
        cases h
        rw [hnext] at h'
        cases h'
        exact Or.inr ⟨_, hi, hi', hcall⟩

theorem parsePartitions_spec (v : Volume) (apploader : ApploaderSize) : (partitions : List Partition) →
    ∃ parsed, parsePartitions v apploader partitions = some parsed ∧
      (parsed.2 = true → ∀ call, call ∈ parsed.1 ↔ ∃ p ∈ partitions, ∃ header,
        readPartitionHeader v p = some header ∧ (call ∈ header.calls p ∨
          NamedData v apploader p (p.offset + header.data_offset) call))
  | [] => ⟨([], true), rfl, fun _ call => ⟨fun hmem => absurd hmem List.not_mem_nil,
      fun ⟨_, hmem, _⟩ => absurd hmem List.not_mem_nil⟩⟩
  | p :: partitions => by
    cases hheader : readPartitionHeader v p with
    | none =>
      refine ⟨([], false), ?_, fun hok => absurd hok Bool.false_ne_true⟩
      rw [parsePartitions, hheader]
    | some header =>
      obtain ⟨parsed, hparsed, hdata⟩ := parsePartitionData_spec v apploader p header
      obtain ⟨rest, hrest, hnamed⟩ := parsePartitions_spec v apploader partitions
      have hstep : parsePartitions v apploader (p :: partitions) =
          if parsed.2 then some (header.calls p ++ (parsed.1 ++ rest.1), rest.2)
          else some (header.calls p ++ parsed.1, false) := by
        simp only [parsePartitions, hheader, hparsed, hrest, Option.bind_some, Option.map_some]
      rw [hstep]
      cases hok : parsed.2 with
      | false => exact ⟨_, rfl, fun hok => absurd hok Bool.false_ne_true⟩
      | true =>
        refine ⟨_, rfl, fun hok' call => ?_⟩
        rw [List.mem_append, List.mem_append, hdata hok call, hnamed hok' call,
          List.exists_mem_cons_iff, ← or_assoc]
        refine or_congr_left ⟨fun h => ⟨header, hheader, h⟩, fun ⟨header', hheader', h⟩ => ?_⟩
        rw [hheader] at hheader'
        cases hheader'
        exact h

/-- **`ParseDisc`** ends, and if it succeeds, then its calls are for the ranges that the disc names. -/
theorem parseDisc_spec (v : Volume) (apploader : ApploaderSize) :
    ∃ parsed, parseDisc v apploader = some parsed ∧
      (parsed.2 = true → ∀ call, call ∈ parsed.1 ↔ Named v apploader call) := by
  obtain ⟨parsed, hparsed, hcalls⟩ := parsePartitions_spec v apploader v.partitions
  rw [parseDisc, hparsed]
  refine ⟨_, rfl, fun hok call => ?_⟩
  rw [List.mem_cons, hcalls hok call]
  constructor
  · rintro (rfl | ⟨p, hp, header, hheader, hcall | hcall⟩)
    · exact .discHeader
    · exact .header hp hheader hcall
    · exact .data hp hheader hcall
  · intro hnamed
    cases hnamed with
    | discHeader => exact Or.inl rfl
    | header hp hheader hcall => exact Or.inr ⟨_, hp, _, hheader, Or.inl hcall⟩
    | data hp hheader hcall => exact Or.inr ⟨_, hp, _, hheader, Or.inr hcall⟩

end DolphinCore.DiscIO
