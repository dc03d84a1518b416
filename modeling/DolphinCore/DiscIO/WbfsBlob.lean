import DolphinCore.DiscIO.CISOBlob

/-!
# DolphinCore.DiscIO.WbfsBlob

Reads of a disc from a WBFS file that is split into parts. The header has a table that says where
in the parts, as if they were one file, each cluster of the disc is.
-/

namespace DolphinCore.DiscIO

def WBFS_MAGIC : Nat := 0x53464257
def WII_SECTOR_SIZE : Nat := 0x8000
def WII_SECTOR_COUNT : Nat := 143432 * 2
def WII_DISC_HEADER_SIZE : Nat := 256

/-! ## parts -/

/-- A part, with the flag of its stream and where it begins among the others. -/
structure FileEntry where
  file : IOFile
  m_good : Bool
  base_address : Nat
  size : Nat

namespace FileEntry

variable (e : FileEntry)

def Seek (off : Nat) : FileEntry :=
  match e.file.Seek off with
  | some f => { e with file := f }
  | none => { e with m_good := false }

/-- `ReadBytes`: a stream that failed once fails until it is cleared. -/
def ReadBytes (n : Nat) : List Byte × FileEntry :=
  let (out, f) := e.file.ReadBytes n
  (out, { e with file := f, m_good := e.m_good && decide (out.length = n) })

def Clear : FileEntry := { e with m_good := true }

/-- The end of a part, a number of 64 bits. -/
def stop : Nat := (e.base_address + e.size) % 2 ^ 64

end FileEntry

/-- `AddFileToList` for the parts one after the other, and `m_size`. -/
def addFiles (m_size : Nat) : List (List Byte) → List FileEntry × Nat
  | [] => ([], m_size)
  | data :: parts =>
    let (entries, total) := addFiles ((m_size + data.length) % 2 ^ 64) parts
    (⟨.openRead data, true, m_size, data.length⟩ :: entries, total)

/-! ## the reader -/

structure WbfsHeader where
  magic : Nat
  hd_sector_count : Nat
  hd_sector_shift : Nat
  wbfs_sector_shift : Nat
  disc_table : List Byte

/-- The fields of the header; the count of sectors has the other byte order. -/
def WbfsHeader.ofBytes (bs : List Byte) : WbfsHeader where
  magic := Endian.fromLE (bs.take 4)
  hd_sector_count := Endian.fromBE ((bs.drop 4).take 4)
  hd_sector_shift := (bs.getD 8 0).toNat
  wbfs_sector_shift := (bs.getD 9 0).toNat
  disc_table := bs.drop 12

structure WbfsFileReader where
  m_files : List FileEntry
  wbfs_sector_shift : Nat
  m_wlba_table : List Nat
  m_blocks_per_disc : Nat

namespace WbfsFileReader

def sizeofWbfsHeader : Nat := 512

/-- What the header has to pass: `ReadHeader`. A shift by 64 or more has no value. -/
def headerPasses (header : WbfsHeader) (m_size : Nat) : Bool :=
  header.magic = WBFS_MAGIC ∧ header.hd_sector_shift < 64 ∧
    m_size = header.hd_sector_count * 2 ^ header.hd_sector_shift % 2 ^ 64 ∧
    header.wbfs_sector_shift < 64 ∧
    WII_SECTOR_SIZE ≤ 2 ^ header.wbfs_sector_shift ∧
    header.disc_table.getD 0 0 ≠ 0

/-- `m_blocks_per_disc` -/
def blocksPerDisc (m_wbfs_sector_size : Nat) : Nat :=
  (WII_SECTOR_COUNT * WII_SECTOR_SIZE + m_wbfs_sector_size - 1) / m_wbfs_sector_size

/-- The table, in the other byte order; what was not read is zero. -/
def wlbaTable (m_blocks_per_disc : Nat) (got : List Byte) : List Nat :=
  (List.range m_blocks_per_disc).map fun i =>
    Endian.fromBE [got.getD (2 * i) 0, got.getD (2 * i + 1) 0]

/-- `Create` for the parts that were found. The header is read into memory that is not initialised,
where a first part that is too short leaves it. -/
def create (memory : List Byte) (parts : List (List Byte)) : Option WbfsFileReader :=
  match addFiles 0 parts with
  | ([], _) => none
  | (first :: rest, m_size) =>
    let (got, first) := (first.Seek 0).ReadBytes sizeofWbfsHeader
    let header := WbfsHeader.ofBytes (got ++ memory.drop got.length)
    if headerPasses header m_size then
      let blocks := blocksPerDisc (2 ^ header.wbfs_sector_shift)
      let first := first.Seek (2 ^ header.hd_sector_shift + WII_DISC_HEADER_SIZE)
      let (got, first) := first.ReadBytes (blocks * 2)
      some ⟨first :: rest, header.wbfs_sector_shift, wlbaTable blocks got, blocks⟩
    else none

variable (r : WbfsFileReader)

def m_wbfs_sector_size : Nat := 2 ^ r.wbfs_sector_shift

def finalAddress (offset : Nat) : Nat :=
  let base_cluster := offset / 2 ^ r.wbfs_sector_shift
  let cluster_address := r.m_wbfs_sector_size * r.m_wlba_table.getD base_cluster 0 % 2 ^ 64
  let cluster_offset := offset % r.m_wbfs_sector_size
  (cluster_address + cluster_offset) % 2 ^ 64

/-- The first part that ends behind an address. -/
def findEntry (address : Nat) : Option (Nat × FileEntry) :=
  (r.m_files.findIdx? fun e => address < e.stop).bind fun k => (r.m_files[k]?).map fun e => (k, e)

/-- `SeekToCluster`: the part, and how much is available there. -/
def SeekToCluster (offset : Nat) : Option (Nat × FileEntry × Nat) :=
  if offset / 2 ^ r.wbfs_sector_shift < r.m_blocks_per_disc then
    let final_address := r.finalAddress offset
    (r.findEntry final_address).map fun (k, e) =>
      let file_offset := (final_address + 2 ^ 64 - e.base_address) % 2 ^ 64
      let till_end_of_file := (e.size + 2 ^ 64 - file_offset) % 2 ^ 64
      let till_end_of_sector := r.m_wbfs_sector_size - offset % r.m_wbfs_sector_size
      (k, e.Seek file_offset, min till_end_of_file till_end_of_sector)
  else none

def setFile (k : Nat) (e : FileEntry) : WbfsFileReader := { r with m_files := r.m_files.set k e }

/-- Beyond the end of the disc the first part is rewound. -/
def rewind : WbfsFileReader := { r with m_files := r.m_files.modify 0 (·.Seek 0) }

def Read (r : WbfsFileReader) (offset nbytes : Nat) : Option (List Byte) × WbfsFileReader :=
  if nbytes = 0 then (some [], r)
  else
    match r.SeekToCluster offset with
    | none => (none, r.rewind)
    | some (k, e, available) =>
      if _h : available = 0 then (none, r.setFile k e)
      else
        let read_size := min available nbytes
        let (out, e) := e.ReadBytes read_size
        if e.m_good then
          let (rest, r') := Read (r.setFile k e) ((offset + read_size) % 2 ^ 64)
            (nbytes - read_size)
          (rest.map (out ++ ·), r')
        else (none, r.setFile k e.Clear)
termination_by nbytes

/-- The reader after some requests. -/
def after (r : WbfsFileReader) : List (BitVec 64 × BitVec 64) → WbfsFileReader
  | [] => r
  | q :: qs => ((r.Read q.1.toNat q.2.toNat).2).after qs

end WbfsFileReader

/-! ## the disc -/

namespace WbfsFileReader

variable (r : WbfsFileReader) (parts : List (List Byte))

/-- Where the table has a byte of the disc. -/
def address (offset : Nat) : Nat :=
  r.m_wlba_table.getD (offset / r.m_wbfs_sector_size) 0 * r.m_wbfs_sector_size +
    offset % r.m_wbfs_sector_size

/-- A byte of the disc, that the table or the parts may be too short for. -/
def discByte (offset : Nat) : Option Byte :=
  if offset / r.m_wbfs_sector_size < r.m_blocks_per_disc then parts.flatten[r.address offset]?
  else none

/-- The byte at an address of 64 bits in the parts, unless the stream of its part has failed. -/
def byteAt (address : Nat) : Option Byte :=
  (r.findEntry address).bind fun (_, e) =>
    if e.m_good then e.file.data[address - e.base_address]? else none

/-- The byte that is read for one of the disc, whose address is cut to 64 bits. -/
def seen (offset : Nat) : Option Byte :=
  if offset / r.m_wbfs_sector_size < r.m_blocks_per_disc then
    r.byteAt (r.address offset % 2 ^ 64)
  else none

end WbfsFileReader

/-! ## the parts in a row -/

/-- Parts that follow one another from an address on, as far as 64 bits tell. -/
def Laid : Nat → List FileEntry → Prop
  | _, [] => True
  | base, e :: es => e.base_address = base ∧ e.size = e.file.data.length ∧ e.size ≤ OFF_MAX ∧
      Laid e.stop es

theorem addFiles_laid {b : Nat} {parts : List (List Byte)}
    (hsize : ∀ data ∈ parts, data.length ≤ OFF_MAX) : Laid b (addFiles b parts).1 := by
  induction parts generalizing b with
  | nil => trivial
  | cons data parts ih =>
    have hrest := ih (b := (b + data.length) % 2 ^ 64) fun d hd => hsize d (.tail _ hd)
    exact ⟨rfl, rfl, hsize data (.head _), hrest⟩

variable {es : List FileEntry}

theorem Laid.base_of_first {base : Nat} {e : FileEntry} (h : Laid base es) (he : es[0]? = some e) :
    e.base_address = base := by
  cases es with
  | nil => cases he
  | cons e' es =>
    obtain rfl := Option.some.inj he
    exact h.1

theorem Laid.of_find {base address k : Nat} {e : FileEntry} (h : Laid base es)
    (hbase : base ≤ address) (hk : es.findIdx? (fun e => address < e.stop) = some k)
    (he : es[k]? = some e) :
    e.base_address ≤ address ∧ address < e.base_address + e.size ∧
      e.stop = e.base_address + e.size ∧ e.size = e.file.data.length ∧ e.size ≤ OFF_MAX := by
  induction es generalizing base k with
  | nil => cases he
  | cons e' es ih =>
    obtain ⟨hb, hlen, hmax, hrest⟩ := h
    rw [List.findIdx?_cons] at hk
    by_cases hin : address < e'.stop
    · rw [if_pos (decide_eq_true hin)] at hk
      obtain rfl := Option.some.inj hk
      obtain rfl := Option.some.inj he
      have hlt := hin
      unfold FileEntry.stop at hlt ⊢
      unfold OFF_MAX at hmax ⊢
      refine ⟨by omega, by omega, by omega, hlen, by omega⟩
    · rw [if_neg (by simpa using hin)] at hk
      obtain ⟨k', hk', rfl⟩ := Option.map_eq_some_iff.mp hk
      exact ih hrest (by omega) hk' he

theorem findIdx_of_between {address address' k : Nat} {e : FileEntry}
    (hk : es.findIdx? (fun e => address < e.stop) = some k) (he : es[k]? = some e)
    (hle : address ≤ address') (hlt : address' < e.stop) :
    es.findIdx? (fun e => address' < e.stop) = some k := by
  obtain ⟨hlen, hfound, hbefore⟩ := List.findIdx?_eq_some_iff_getElem.mp hk
  refine List.findIdx?_eq_some_iff_getElem.mpr ⟨hlen, ?_, fun j hj => ?_⟩
  · rw [List.getElem?_eq_getElem hlen, Option.some_inj] at he
    simpa [he] using hlt
  · have := hbefore j hj
    simp only [decide_eq_true_eq, not_lt] at this ⊢
    exact Nat.le_trans this hle

/-! ## positions do not matter -/

/-- The part with its stream at the begin. -/
def FileEntry.atStart (e : FileEntry) : FileEntry := { e with file := .openRead e.file.data }

/-- The part as it was added. -/
def FileEntry.added (e : FileEntry) : FileEntry := { e.atStart with m_good := true }

namespace WbfsFileReader

variable {r r' : WbfsFileReader} {parts : List (List Byte)}

/-- The reader with all streams at their begin. -/
def atStart (r : WbfsFileReader) : WbfsFileReader :=
  { r with m_files := r.m_files.map FileEntry.atStart }

theorem byteAt_atStart (address : Nat) : r.atStart.byteAt address = r.byteAt address := by
  have hfind : (r.m_files.map FileEntry.atStart).findIdx? (fun e => address < e.stop) =
      r.m_files.findIdx? fun e => address < e.stop := List.findIdx?_map
  unfold byteAt findEntry
  change (((r.m_files.map FileEntry.atStart).findIdx? _).bind _).bind _ = _
  rw [hfind]
  cases r.m_files.findIdx? fun e => address < e.stop with
  | none => rfl
  | some k =>
    change (((r.m_files.map FileEntry.atStart)[k]?).map _).bind _ = ((r.m_files[k]?).map _).bind _
    rw [List.getElem?_map]
    cases r.m_files[k]? <;> rfl

theorem seen_congr (h : r.atStart = r'.atStart) (offset : Nat) :
    r.seen offset = r'.seen offset := by
  have heq (r : WbfsFileReader) : r.atStart.seen offset = r.seen offset := by
    unfold seen
    rw [byteAt_atStart]
    rfl
  rw [← heq r, h, heq r']

theorem setFile_atStart {k : Nat} {e e' : FileEntry} (he : r.m_files[k]? = some e)
    (h : e'.atStart = e.atStart) : (r.setFile k e').atStart = r.atStart := by
  have hset : (r.m_files.set k e').map FileEntry.atStart = r.m_files.map FileEntry.atStart := by
    obtain ⟨hk, rfl⟩ := List.getElem?_eq_some_iff.mp he
    rw [List.map_set, h, ← List.map_set, List.set_getElem_self]
  exact congrArg (fun files => { r with m_files := files }) hset

/-! ## one step of a request -/

/-- The parts are laid out one after the other, and the clusters end before the last offset. -/
structure Sound (r : WbfsFileReader) : Prop where
  laid : Laid 0 r.m_files
  fits : r.m_blocks_per_disc * r.m_wbfs_sector_size < 2 ^ 64

theorem sectorSize_pos (r : WbfsFileReader) : 0 < r.m_wbfs_sector_size := Nat.two_pow_pos _

theorem finalAddress_eq (offset : Nat) : r.finalAddress offset = r.address offset % 2 ^ 64 := by
  unfold finalAddress address
  rw [Nat.mod_add_mod, Nat.mul_comm]
  rfl

theorem address_add (r : WbfsFileReader) (offset : Nat) {i : Nat}
    (hi : i < r.m_wbfs_sector_size - offset % r.m_wbfs_sector_size) :
    (offset + i) / r.m_wbfs_sector_size = offset / r.m_wbfs_sector_size ∧
      r.address (offset + i) = r.address offset + i := by
  have hpos := r.sectorSize_pos
  have hsplit := Nat.mod_add_div offset r.m_wbfs_sector_size
  have hoff : offset + i = offset % r.m_wbfs_sector_size + i +
      r.m_wbfs_sector_size * (offset / r.m_wbfs_sector_size) := by omega
  have hin : offset % r.m_wbfs_sector_size + i < r.m_wbfs_sector_size := by omega
  have hdiv : (offset + i) / r.m_wbfs_sector_size = offset / r.m_wbfs_sector_size := by
    conv_lhs => rw [hoff]
    rw [Nat.add_mul_div_left _ _ hpos, Nat.div_eq_of_lt hin, Nat.zero_add]
  have hmod : (offset + i) % r.m_wbfs_sector_size = offset % r.m_wbfs_sector_size + i := by
    conv_lhs => rw [hoff]
    rw [Nat.add_mul_mod_self_left, Nat.mod_eq_of_lt hin]
  refine ⟨hdiv, ?_⟩
  unfold address
  rw [hdiv, hmod, Nat.add_assoc]

variable {e : FileEntry}

theorem findEntry_eq_some {address k : Nat} : r.findEntry address = some (k, e) ↔
      r.m_files.findIdx? (fun e => address < e.stop) = some k ∧ r.m_files[k]? = some e := by
  unfold findEntry
  rw [Option.bind_eq_some_iff]
  constructor
  · rintro ⟨k', hk, hfound⟩
    obtain ⟨e', he, hpair⟩ := Option.map_eq_some_iff.mp hfound
    obtain ⟨rfl, rfl⟩ := Prod.mk.inj hpair
    exact ⟨hk, he⟩
  · rintro ⟨hk, he⟩
    exact ⟨k, hk, by rw [he]; rfl⟩

theorem byteAt_add (hr : r.Sound) {address k i : Nat} (hfind : r.findEntry address = some (k, e))
    (hi : address + i < e.stop) :
    r.byteAt (address + i) =
      if e.m_good then e.file.data[address - e.base_address + i]? else none := by
  obtain ⟨hk, he⟩ := findEntry_eq_some.mp hfind
  obtain ⟨hbase, -, -, -, -⟩ := hr.laid.of_find (Nat.zero_le _) hk he
  have hnext : r.findEntry (address + i) = some (k, e) :=
    findEntry_eq_some.mpr ⟨findIdx_of_between hk he (Nat.le_add_right _ i) hi, he⟩
  have hpos : address + i - e.base_address = address - e.base_address + i := by omega
  unfold byteAt
  rw [hnext, Option.bind_some]
  dsimp only
  rw [hpos]

theorem clusterEnd_lt (hr : r.Sound) {offset : Nat}
    (h : offset / r.m_wbfs_sector_size < r.m_blocks_per_disc) :
    offset + (r.m_wbfs_sector_size - offset % r.m_wbfs_sector_size) < 2 ^ 64 := by
  have hsplit := Nat.mod_add_div offset r.m_wbfs_sector_size
  have hmod := Nat.mod_lt offset r.sectorSize_pos
  have hend := Nat.mul_le_mul_left r.m_wbfs_sector_size (Nat.succ_le_of_lt h)
  have hfits := hr.fits
  rw [Nat.mul_comm] at hfits
  rw [Nat.mul_succ] at hend
  omega

theorem seekToCluster_spec (hr : r.Sound) {offset k available : Nat}
    (h : r.SeekToCluster offset = some (k, e, available)) :
    ∃ pos e₀, r.m_files[k]? = some e₀ ∧ e = { e₀ with file := { e₀.file with pos := pos } } ∧
      0 < available ∧ pos + available ≤ e₀.file.data.length ∧ offset + available < 2 ^ 64 ∧
      ∀ i, i < available → r.seen (offset + i) =
        if e₀.m_good then e₀.file.data[pos + i]? else none := by
  change (if offset / r.m_wbfs_sector_size < r.m_blocks_per_disc then _ else _) = _ at h
  by_cases hblock : offset / r.m_wbfs_sector_size < r.m_blocks_per_disc
  · rw [if_pos hblock] at h
    obtain ⟨⟨k', e₀⟩, hfind, heq⟩ := Option.map_eq_some_iff.mp h
    obtain ⟨hk, he⟩ := findEntry_eq_some.mp hfind
    obtain ⟨hbase, hlt, hstop, hlen, hmax⟩ := hr.laid.of_find (Nat.zero_le _) hk he
    have haddr := r.finalAddress_eq offset
    have hstop64 : e₀.stop < 2 ^ 64 := Nat.mod_lt _ (by decide)
    have hcluster := clusterEnd_lt hr hblock
    have hmod := Nat.mod_lt offset r.sectorSize_pos
    have hbytes {i : Nat} := byteAt_add hr hfind (i := i)
    unfold OFF_MAX at hmax
    dsimp only at heq
    generalize r.finalAddress offset = final at *
    obtain ⟨pos, hpos⟩ : ∃ pos, final - e₀.base_address = pos := ⟨_, rfl⟩
    have hoff : (final + 2 ^ 64 - e₀.base_address) % 2 ^ 64 = pos := by omega
    have htill : (e₀.size + 2 ^ 64 - pos) % 2 ^ 64 = e₀.size - pos := by omega
    have hseek : e₀.Seek pos = { e₀ with file := { e₀.file with pos := pos } } := by
      unfold FileEntry.Seek
      rw [IOFile.seek_of_le (by unfold OFF_MAX; omega)]
    rw [hoff, htill, hseek] at heq
    obtain ⟨rfl, rfl, rfl⟩ := heq
    refine ⟨pos, e₀, he, rfl, by omega, by omega, by omega, fun i hi => ?_⟩
    obtain ⟨hdiv, hnext⟩ := r.address_add offset (i := i) (by omega)
    have hin : r.address (offset + i) % 2 ^ 64 = final + i := by omega
    unfold seen
    rw [hdiv, if_pos hblock, hin, hbytes (by omega), hpos]
  · rw [if_neg hblock] at h
    cases h

theorem seen_of_seekToCluster_none {offset : Nat} (h : r.SeekToCluster offset = none) :
    r.seen offset = none := by
  change (if offset / r.m_wbfs_sector_size < r.m_blocks_per_disc then _ else _) = _ at h
  unfold seen
  by_cases hblock : offset / r.m_wbfs_sector_size < r.m_blocks_per_disc
  · rw [if_pos hblock, Option.map_eq_none_iff, finalAddress_eq] at h
    rw [if_pos hblock]
    unfold byteAt
    rw [h]
    rfl
  · rw [if_neg hblock]

theorem laid_map {f : FileEntry → FileEntry} {base : Nat} {es : List FileEntry}
    (hf : ∀ e, (f e).base_address = e.base_address ∧ (f e).size = e.size ∧
      (f e).file.data = e.file.data) : Laid base (es.map f) ↔ Laid base es := by
  induction es generalizing base with
  | nil => rfl
  | cons e es ih =>
    obtain ⟨hbase, hsize, hdata⟩ := hf e
    have hstop : (f e).stop = e.stop := by
      unfold FileEntry.stop
      rw [hbase, hsize]
    rw [List.map_cons, Laid, Laid, hbase, hsize, hdata, hstop, ih]

theorem laid_of_added {base : Nat} {es es' : List FileEntry}
    (h : es.map FileEntry.added = es'.map FileEntry.added) (hlaid : Laid base es) :
    Laid base es' := by
  have hf (e : FileEntry) : e.added.base_address = e.base_address ∧ e.added.size = e.size ∧
      e.added.file.data = e.file.data := ⟨rfl, rfl, rfl⟩
  rwa [← laid_map hf, ← h, laid_map hf]

theorem Sound.congr (hr : r.Sound) (h : r'.atStart = r.atStart) : r'.Sound where
  laid := by
    have hfiles : r'.m_files.map FileEntry.atStart = r.m_files.map FileEntry.atStart :=
      congrArg m_files h
    have hf (e : FileEntry) : e.atStart.base_address = e.base_address ∧ e.atStart.size = e.size ∧
        e.atStart.file.data = e.file.data := ⟨rfl, rfl, rfl⟩
    rw [← laid_map hf, hfiles, laid_map hf]
    exact hr.laid
  fits := by
    have hblocks : r'.m_blocks_per_disc = r.m_blocks_per_disc :=
      (congrArg m_blocks_per_disc h :)
    have hsize : r'.m_wbfs_sector_size = r.m_wbfs_sector_size :=
      (congrArg m_wbfs_sector_size h :)
    rw [hblocks, hsize]
    exact hr.fits

/-! ## a whole request -/

open CISOImage (Gives Gives.append Gives.congr Gives.iff)

theorem read_found (hr : r.Sound) {offset nbytes k available : Nat} (hzero : nbytes ≠ 0)
    (hseek : r.SeekToCluster offset = some (k, e, available)) :
    ∃ n out e₀ e₁, 0 < n ∧ n ≤ nbytes ∧ offset + n < 2 ^ 64 ∧ r.m_files[k]? = some e₀ ∧
      e₁.atStart = e₀.atStart ∧
      Gives (fun i => r.seen (offset + i)) n (if e₀.m_good then some out else none) ∧
      r.Read offset nbytes =
        if e₀.m_good then
          ((((r.setFile k e₁).Read (offset + n) (nbytes - n)).1).map (out ++ ·),
            ((r.setFile k e₁).Read (offset + n) (nbytes - n)).2)
        else (none, r.setFile k e₁.Clear) := by
  obtain ⟨pos, e₀, he, rfl, hpos, hlen, hend, hseen⟩ := seekToCluster_spec hr hseek
  obtain ⟨n, hn⟩ : ∃ n, min available nbytes = n := ⟨_, rfl⟩
  obtain ⟨out, hout⟩ : ∃ out, (e₀.file.data.drop pos).take n = out := ⟨_, rfl⟩
  have hgot : out.length = n := by
    rw [← hout, List.length_take, List.length_drop]
    omega
  have hread : ({ e₀ with file := { e₀.file with pos := pos } } : FileEntry).ReadBytes n =
      (out, { e₀ with file := { e₀.file with pos := pos + n } }) := by
    unfold FileEntry.ReadBytes IOFile.ReadBytes
    dsimp only
    rw [hout, hgot, decide_eq_true rfl, Bool.and_true]
  refine ⟨n, out, e₀, { e₀ with file := { e₀.file with pos := pos + n } }, by omega, by omega,
    by omega, he, rfl, ?_, ?_⟩
  · by_cases hgood : e₀.m_good = true
    · rw [if_pos hgood]
      refine ⟨hgot, fun i hi => ?_⟩
      dsimp only
      rw [hseen i (by omega), if_pos hgood, ← hout, List.getElem?_take_of_lt hi, List.getElem?_drop]
    · rw [if_neg hgood]
      refine ⟨0, by omega, ?_⟩
      dsimp only
      rw [hseen 0 hpos, if_neg hgood]
  · rw [Read, if_neg hzero, hseek]
    dsimp only
    rw [dif_neg hpos.ne', hn, hread, Nat.mod_eq_of_lt (by omega)]

theorem read_gives (hr : r.Sound) {offset : Nat} (nbytes : Nat) :
    Gives (fun i => r.seen (offset + i)) nbytes (r.Read offset nbytes).1 := by
  induction nbytes using Nat.strongRecOn generalizing r offset with
  | ind nbytes ih =>
    by_cases hzero : nbytes = 0
    · rw [Read, if_pos hzero]
      exact ⟨hzero.symm, fun i hi => absurd hi (by omega)⟩
    cases hseek : r.SeekToCluster offset with
    | none =>
      rw [Read, if_neg hzero, hseek]
      exact ⟨0, Nat.pos_of_ne_zero hzero, seen_of_seekToCluster_none hseek⟩
    | some found =>
      obtain ⟨k, e, available⟩ := found
      obtain ⟨n, out, e₀, e₁, hn, hle, hend, he, hsame, hchunk, hread⟩ :=
        read_found hr hzero hseek
      rw [hread]
      by_cases hgood : e₀.m_good = true
      · rw [if_pos hgood] at hchunk ⊢
        have hstart := setFile_atStart he hsame
        have hrest := @ih (nbytes - n) (by omega) _ (hr.congr hstart) (offset + n)
        refine hchunk.append (hrest.congr fun i hi => ?_) (by omega)
        rw [seen_congr hstart, Nat.add_assoc]
      · rw [if_neg hgood] at hchunk ⊢
        obtain ⟨i, hi, hnone⟩ := hchunk
        exact ⟨i, by omega, hnone⟩

/-! ## the readers there are -/

/-- A reader that is left by requests to another: the parts are the same, and no stream but the
first has failed. -/
structure From (r₀ r : WbfsFileReader) : Prop where
  parts : r.m_files.map FileEntry.added = r₀.m_files.map FileEntry.added
  shift : r.wbfs_sector_shift = r₀.wbfs_sector_shift
  table : r.m_wlba_table = r₀.m_wlba_table
  blocks : r.m_blocks_per_disc = r₀.m_blocks_per_disc
  good : ∀ k e, r.m_files[k]? = some e → k ≠ 0 → e.m_good = true

variable {r₀ : WbfsFileReader}

theorem From.setFile (h : From r₀ r) {k : Nat} {e e' : FileEntry} (he : r.m_files[k]? = some e)
    (hsame : e'.added = e.added) (hgood : e'.m_good = true ∨ e'.m_good = e.m_good) :
    From r₀ (r.setFile k e') where
  parts := by
    obtain ⟨hk, rfl⟩ := List.getElem?_eq_some_iff.mp he
    change (r.m_files.set k e').map FileEntry.added = _
    rw [List.map_set, hsame, ← List.map_set, List.set_getElem_self]
    exact h.parts
  shift := h.shift
  table := h.table
  blocks := h.blocks
  good := by
    intro j e'' hj hne
    change (r.m_files.set k e')[j]? = _ at hj
    rw [List.getElem?_set] at hj
    by_cases hkj : k = j
    · subst hkj
      obtain ⟨hk, -⟩ := List.getElem?_eq_some_iff.mp he
      rw [if_pos rfl, if_pos hk] at hj
      obtain rfl := Option.some.inj hj
      exact hgood.elim id fun heq => heq.trans (h.good k e he hne)
    · rw [if_neg hkj] at hj
      exact h.good j e'' hj hne

theorem From.rewind (h : From r₀ r) : From r₀ r.rewind := by
  have hseek (e : FileEntry) : e.Seek 0 = { e with file := { e.file with pos := 0 } } := by
    unfold FileEntry.Seek
    rw [IOFile.seek_of_le (Nat.zero_le _)]
  cases hfiles : r.m_files with
  | nil =>
    have heq : r.rewind = r := by
      unfold WbfsFileReader.rewind
      rw [hfiles]
      cases r
      exact congrArg (WbfsFileReader.mk · _ _ _) hfiles.symm
    rw [heq]
    exact h
  | cons e es =>
    have heq : r.rewind = r.setFile 0 (e.Seek 0) := by
      unfold WbfsFileReader.rewind WbfsFileReader.setFile
      rw [hfiles]
      rfl
    rw [heq, hseek]
    exact h.setFile (e := e) (by rw [hfiles]; rfl) rfl (.inr rfl)

theorem From.sound (h : From r₀ r) (hr : r₀.Sound) : r.Sound where
  laid := laid_of_added h.parts.symm hr.laid
  fits := by
    have hsize : r.m_wbfs_sector_size = r₀.m_wbfs_sector_size := congrArg (2 ^ ·) h.shift
    rw [h.blocks, hsize]
    exact hr.fits

theorem From.read (hr : r₀.Sound) (h : From r₀ r) {offset : Nat} (nbytes : Nat) :
    From r₀ (r.Read offset nbytes).2 := by
  induction nbytes using Nat.strongRecOn generalizing r offset with
  | ind nbytes ih =>
    by_cases hzero : nbytes = 0
    · rw [Read, if_pos hzero]
      exact h
    cases hseek : r.SeekToCluster offset with
    | none =>
      rw [Read, if_neg hzero, hseek]
      exact h.rewind
    | some found =>
      obtain ⟨k, e, available⟩ := found
      obtain ⟨n, out, e₀, e₁, hn, hle, -, he, hsame, -, hread⟩ :=
        read_found (h.sound hr) hzero hseek
      have hadded : e₁.added = e₀.added := by
        unfold FileEntry.added
        rw [hsame]
      have hgood : e₁.m_good = e₀.m_good := (congrArg FileEntry.m_good hsame :)
      rw [hread]
      by_cases hok : e₀.m_good = true
      · rw [if_pos hok]
        exact ih (nbytes - n) (by omega) (h.setFile he hadded (.inr hgood))
      · rw [if_neg hok]
        exact h.setFile he hadded (.inl rfl)

theorem From.after (hr : r₀.Sound) (h : From r₀ r) (requests : List (BitVec 64 × BitVec 64)) :
    From r₀ (r.after requests) := by
  induction requests generalizing r with
  | nil => exact h
  | cons q qs ih => exact ih (h.read hr _)

theorem added_seek (e : FileEntry) (off : Nat) : (e.Seek off).added = e.added := by
  unfold FileEntry.Seek IOFile.Seek
  split_ifs <;> rfl

theorem added_readBytes (e : FileEntry) (n : Nat) : (e.ReadBytes n).2.added = e.added := rfl

theorem addFiles_data (base : Nat) (parts : List (List Byte)) :
    (addFiles base parts).1.map (·.file.data) = parts ∧
      ∀ e ∈ (addFiles base parts).1, e.m_good = true := by
  induction parts generalizing base with
  | nil => exact ⟨rfl, fun e he => absurd he List.not_mem_nil⟩
  | cons data parts ih =>
    obtain ⟨hdata, hgood⟩ := ih ((base + data.length) % 2 ^ 64)
    refine ⟨congrArg (data :: ·) hdata, fun e he => ?_⟩
    obtain rfl | he := List.mem_cons.mp he
    · rfl
    · exact hgood e he

theorem blocksPerDisc_fits {shift : Nat} (h : shift < 64) :
    blocksPerDisc (2 ^ shift) * 2 ^ shift < 2 ^ 64 := by
  have hpow : 2 ^ shift ≤ 2 ^ 63 := Nat.pow_le_pow_right (by decide) (by omega)
  have hdiv := Nat.div_mul_le_self (WII_SECTOR_COUNT * WII_SECTOR_SIZE + 2 ^ shift - 1) (2 ^ shift)
  unfold blocksPerDisc
  unfold WII_SECTOR_COUNT WII_SECTOR_SIZE at *
  omega

theorem create_spec {memory : List Byte} (hsize : ∀ data ∈ parts, data.length ≤ OFF_MAX)
    (h : create memory parts = some r) :
    r.Sound ∧ From r r ∧ r.m_files.map (·.file.data) = parts := by
  obtain ⟨hdata, hgood⟩ := addFiles_data 0 parts
  have hlaid := addFiles_laid (b := 0) hsize
  unfold create at h
  cases hadd : addFiles 0 parts with
  | mk entries m_size =>
    rw [hadd] at h hdata hgood hlaid
    cases entries with
    | nil => cases h
    | cons first rest =>
      dsimp only at h
      split_ifs at h with hpasses
      generalize hheader : WbfsHeader.ofBytes _ = header at h hpasses
      obtain rfl := Option.some.inj h
      have hshift : header.wbfs_sector_shift < 64 := by
        simp only [headerPasses, decide_eq_true_eq] at hpasses
        exact hpasses.2.2.2.1
      generalize hfirst : (FileEntry.ReadBytes _ _).2 = first'
      have hadded : first'.added = first.added := by
        rw [← hfirst, added_readBytes, added_seek, added_readBytes, added_seek]
      have hparts : (first' :: rest).map FileEntry.added = (first :: rest).map FileEntry.added :=
        congrArg (· :: _) hadded
      refine ⟨⟨laid_of_added hparts.symm hlaid, blocksPerDisc_fits hshift⟩,
        ⟨rfl, rfl, rfl, rfl, fun k e he hne => ?_⟩, ?_⟩
      · cases k with
        | zero => exact absurd rfl hne
        | succ k => exact hgood e (.tail _ (List.mem_of_getElem? he))
      · have hfile : first'.file.data = first.file.data := congrArg (·.file.data) hadded
        rw [← hdata]
        exact congrArg (· :: _) hfile

/-! ## where the reads tell -/

/-- An address in the first part, whose stream has failed. -/
def Failed (r : WbfsFileReader) (address : Nat) : Prop :=
  ∃ e, r.m_files[0]? = some e ∧ e.m_good = false ∧ address < e.size

/-- A byte is read as the table and the parts have it: its stream has not failed and its address is
of 64 bits, or it is missing and not read either. -/
def Tells (r : WbfsFileReader) (parts : List (List Byte)) (offset : Nat) : Prop :=
  offset / r.m_wbfs_sector_size < r.m_blocks_per_disc →
    (¬ r.Failed (r.address offset % 2 ^ 64) ∧ r.address offset < 2 ^ 64) ∨
    (parts.flatten.length ≤ r.address offset ∧ (r.Failed (r.address offset % 2 ^ 64) ∨
        parts.flatten.length ≤ r.address offset % 2 ^ 64))

theorem flatten_getElem {base address : Nat} {es : List FileEntry} (h : Laid base es)
    (hbase : base ≤ address)
    (hfit : base + (es.map (·.file.data)).flatten.length < 2 ^ 64) :
    (es.map (·.file.data)).flatten[address - base]? =
      (es.findIdx? fun e => address < e.stop).bind fun k => (es[k]?).bind fun e =>
        e.file.data[address - e.base_address]? := by
  induction es generalizing base with
  | nil => rfl
  | cons e es ih =>
    obtain ⟨hb, hlen, hmax, hrest⟩ := h
    rw [List.map_cons, List.flatten_cons] at hfit ⊢
    rw [List.length_append] at hfit
    have hstop : e.stop = base + e.file.data.length := by
      unfold FileEntry.stop
      omega
    rw [List.findIdx?_cons]
    by_cases hin : address < e.stop
    · rw [if_pos (decide_eq_true hin), List.getElem?_append_left (by omega), hb.symm]
      rfl
    · have hnext := ih hrest (by omega) (by omega)
      rw [if_neg (by simpa using hin), List.getElem?_append_right (by omega),
        show address - base - e.file.data.length = address - e.stop by omega, hnext]
      cases es.findIdx? fun e => address < e.stop <;> rfl

theorem byteAt_of_failed (hr : r.Sound) {address : Nat} (h : r.Failed address) :
    r.byteAt address = none := by
  obtain ⟨e, he, hbad, hlt⟩ := h
  obtain ⟨e', es, hfiles⟩ : ∃ e' es, r.m_files = e' :: es := by
    cases hfiles : r.m_files with
    | nil => rw [hfiles] at he; cases he
    | cons e' es => exact ⟨e', es, rfl⟩
  have hlaid := hr.laid
  rw [hfiles] at he hlaid
  obtain rfl := Option.some.inj he
  obtain ⟨hbase, -, hmax, -⟩ := hlaid
  have hstop : address < e'.stop := by
    unfold FileEntry.stop
    unfold OFF_MAX at hmax
    omega
  have hfind : r.findEntry address = some (0, e') := by
    rw [findEntry_eq_some, hfiles, List.findIdx?_cons, if_pos (decide_eq_true hstop)]
    exact ⟨rfl, rfl⟩
  unfold byteAt
  rw [hfind, Option.bind_some]
  dsimp only
  rw [if_neg (by simp [hbad])]

theorem byteAt_of_not_failed (hr : r.Sound) (hfrom : From r₀ r)
    (hparts : r.m_files.map (·.file.data) = parts) (hfit : parts.flatten.length < 2 ^ 64)
    {address : Nat} (h : ¬ r.Failed address) : r.byteAt address = parts.flatten[address]? := by
  have hflat := flatten_getElem hr.laid (Nat.zero_le address) (by rwa [hparts, Nat.zero_add])
  rw [hparts, Nat.sub_zero] at hflat
  rw [hflat]
  unfold byteAt findEntry
  cases hk : r.m_files.findIdx? fun e => address < e.stop with
  | none => rfl
  | some k =>
    rw [Option.bind_some, Option.bind_some]
    cases he : r.m_files[k]? with
    | none => rfl
    | some e =>
      have hgood : e.m_good = true := by
        by_cases hzero : k = 0
        · subst hzero
          obtain ⟨-, hlt, -⟩ := hr.laid.of_find (Nat.zero_le _) hk he
          by_contra hbad
          have hbase := hr.laid.base_of_first he
          exact h ⟨e, he, by simpa using hbad, by omega⟩
        · exact hfrom.good k e he hzero
      rw [Option.map_some, Option.bind_some, Option.bind_some]
      dsimp only
      rw [if_pos hgood]

theorem seen_eq_iff (hr : r.Sound) (hfrom : From r₀ r)
    (hparts : r.m_files.map (·.file.data) = parts) (hfit : parts.flatten.length < 2 ^ 64)
    (offset : Nat) : r.seen offset = r.discByte parts offset ↔ r.Tells parts offset := by
  unfold seen discByte Tells
  by_cases hblock : offset / r.m_wbfs_sector_size < r.m_blocks_per_disc
  · rw [if_pos hblock, if_pos hblock]
    generalize r.address offset = a
    simp only [hblock, true_implies]
    by_cases hfailed : r.Failed (a % 2 ^ 64)
    · rw [byteAt_of_failed hr hfailed, eq_comm, List.getElem?_eq_none_iff]
      simp only [hfailed, not_true, false_and, true_or, and_true, false_or]
    · rw [byteAt_of_not_failed hr hfrom hparts hfit hfailed]
      simp only [hfailed, not_false_iff, true_and, false_or]
      by_cases hsmall : a < 2 ^ 64
      · rw [Nat.mod_eq_of_lt hsmall]
        exact iff_of_true rfl (.inl hsmall)
      · have hmissing : parts.flatten[a]? = none := by
          rw [List.getElem?_eq_none_iff]
          omega
        rw [hmissing, List.getElem?_eq_none_iff]
        omega
  · rw [if_neg hblock, if_neg hblock]
    exact iff_of_true rfl fun h => absurd h hblock

theorem From.discByte (h : From r₀ r) (offset : Nat) :
    r.discByte parts offset = r₀.discByte parts offset := by
  have hsize : r.m_wbfs_sector_size = r₀.m_wbfs_sector_size := congrArg (2 ^ ·) h.shift
  unfold WbfsFileReader.discByte address
  rw [hsize, h.table, h.blocks]

/-- After any requests, a request gets the bytes of the disc exactly if each byte is read as it is,
or one is not read and one is missing. In parts of fewer than `2 ^ 64` bytes it is plain which
are. -/
theorem read_gives_iff {memory : List Byte} (hcreate : create memory parts = some r₀)
    (hsize : ∀ data ∈ parts, data.length ≤ OFF_MAX) (earlier : List (BitVec 64 × BitVec 64))
    (offset nbytes : BitVec 64) :
    (Gives (fun i => r₀.discByte parts (offset.toNat + i)) nbytes.toNat
        ((r₀.after earlier).Read offset.toNat nbytes.toNat).1 ↔
      ((∃ i, i < nbytes.toNat ∧ (r₀.after earlier).seen (offset.toNat + i) = none) ∧
        ∃ i, i < nbytes.toNat ∧ r₀.discByte parts (offset.toNat + i) = none) ∨
      ∀ i, i < nbytes.toNat →
        (r₀.after earlier).seen (offset.toNat + i) = r₀.discByte parts (offset.toNat + i)) ∧
    (parts.flatten.length < 2 ^ 64 → ∀ o,
      (r₀.after earlier).seen o = r₀.discByte parts o ↔ (r₀.after earlier).Tells parts o) := by
  obtain ⟨hr, hself, hdata⟩ := create_spec hsize hcreate
  have hfrom := hself.after hr earlier
  have hsound := hfrom.sound hr
  have hparts : (r₀.after earlier).m_files.map (·.file.data) = parts := by
    have h := congrArg (List.map (·.file.data)) hfrom.parts
    rw [List.map_map, List.map_map] at h
    exact h.trans hdata
  refine ⟨(read_gives hsound _).iff, fun hfit o => ?_⟩
  rw [← hfrom.discByte]
  exact seen_eq_iff hsound hfrom hparts hfit o

end WbfsFileReader

/-- A header with clusters of `2 ^ 63` bytes, and a table that has the disc in the third. -/
def wideClusters : List Byte :=
  [0x57, 0x42, 0x46, 0x53, 0, 0, 2, 0, 0, 63, 0, 0, 1] ++ List.replicate 244 0 ++ [0, 2] ++
    List.replicate 253 0

def wideReader : WbfsFileReader where
  m_files := [⟨⟨wideClusters, 259, []⟩, true, 0, 512⟩]
  wbfs_sector_shift := 63
  m_wlba_table := [2]
  m_blocks_per_disc := 1

set_option maxRecDepth 4000 in
theorem create_wideClusters : WbfsFileReader.create [] [wideClusters] = some wideReader := rfl

theorem wideClusters_length : wideClusters.length = 512 := by
  simp only [wideClusters, List.length_append, List.length_replicate]
  rfl

theorem wideClusters_le : ∀ data ∈ [wideClusters], data.length ≤ OFF_MAX := by
  intro data hdata
  obtain rfl := List.mem_singleton.mp hdata
  rw [wideClusters_length]
  decide

/-- The first byte of the disc, which the parts do not have, is read from their begin. -/
theorem wideClusters_not_gives : WbfsFileReader.create [] [wideClusters] = some wideReader ∧
      ¬ CISOImage.Gives (fun i => wideReader.discByte [wideClusters] (0 + i)) 1
        (wideReader.Read 0 1).1 := by
  refine ⟨create_wideClusters, fun h => ?_⟩
  obtain ⟨hr, -, -⟩ := WbfsFileReader.create_spec wideClusters_le create_wideClusters
  have hseen : wideReader.seen (0 + 0) = some 0x57 := rfl
  have hdisc : wideReader.discByte [wideClusters] (0 + 0) = none := by
    unfold WbfsFileReader.discByte
    rw [if_pos (by decide), List.getElem?_eq_none_iff, List.flatten_singleton, wideClusters_length]
    decide
  obtain ⟨⟨i, hi, hnone⟩, -⟩ | hsame := (WbfsFileReader.read_gives hr 1).iff.mp h
  · obtain rfl : i = 0 := by omega
    rw [hseen] at hnone
    cases hnone
  · have := hsame 0 (by decide)
    rw [hseen, hdisc] at this
    cases this

/-- The same reader is right about a request beyond the disc. -/
theorem read_gives_iff_wideClusters : CISOImage.Gives
      (fun i => wideReader.discByte [wideClusters] ((0xffffffffffffffff#64).toNat + i))
      (1#64).toNat ((wideReader.after []).Read (0xffffffffffffffff#64).toNat (1#64).toNat).1 :=
  ((WbfsFileReader.read_gives_iff create_wideClusters wideClusters_le [] 0xffffffffffffffff#64
    1#64).1).mpr (.inr fun i hi => by
      obtain rfl : i = 0 := by simpa using hi
      exact (if_neg (by decide)).trans (if_neg (by decide)).symm)

end DolphinCore.DiscIO
