import DolphinCore.Lib.Endian
import Mathlib.Tactic.ByContra

/-!
# DolphinCore.DiscIO.VolumeWii

Reads of the partitions of a Wii disc, whose blocks are encrypted with the title key of their
partition. The block that was decrypted last is kept, under its offset on the disc.
-/

namespace DolphinCore.DiscIO

/-! ## decryption -/

/-- `mbedtls_aes_crypt_ecb` in the direction of decryption, with the keys it is given. -/
structure AES (Key : Type) where
  crypt_ecb : Key → List Byte → List Byte
  length_crypt_ecb : ∀ key input, (crypt_ecb key input).length = 16

variable {Key : Type}

/-- `mbedtls_aes_crypt_cbc` in the direction of decryption, for some blocks of 16 bytes. -/
def AES.crypt_cbc (aes : AES Key) (key : Key) (iv : List Byte) : Nat → List Byte → List Byte
  | 0, _ => []
  | n + 1, input =>
    let temp := input.take 16
    List.zipWith (· ^^^ ·) (aes.crypt_ecb key temp) iv ++ aes.crypt_cbc key temp n (input.drop 16)

theorem AES.length_crypt_cbc (aes : AES Key) (key : Key) {n : Nat} {iv input : List Byte}
    (hiv : iv.length = 16) (hinput : input.length = 16 * n) :
    (aes.crypt_cbc key iv n input).length = 16 * n := by
  induction n generalizing iv input with
  | zero => rfl
  | succ n ih =>
    have htemp : (input.take 16).length = 16 := by
      rw [List.length_take]
      omega
    have hrest : (input.drop 16).length = 16 * n := by
      rw [List.length_drop]
      omega
    rw [crypt_cbc, List.length_append, List.length_zipWith, aes.length_crypt_ecb, hiv,
      ih htemp hrest]
    omega

/-! ## the volume -/

def PARTITION_DATA_OFFSET : Nat := 0x20000
def BLOCK_HEADER_SIZE : Nat := 0x0400
def BLOCK_DATA_SIZE : Nat := 0x7C00
def BLOCK_TOTAL_SIZE : Nat := BLOCK_HEADER_SIZE + BLOCK_DATA_SIZE

/-- What `Read` of the blob gives. -/
structure BlobReader where
  Read : Nat → Nat → Option (List Byte)
  length_read : ∀ offset n out, Read offset n = some out → out.length = n

/-- A disc, with the keys of the partitions in its table, by their offsets in words. A partition
without a valid ticket has no key. -/
structure VolumeWii (Key : Type) where
  aes : AES Key
  m_pReader : BlobReader
  m_partitions : BitVec 32 → Option Key

/-- The block that was decrypted last. -/
structure LastBlock where
  m_last_decrypted_block : Nat
  m_last_decrypted_block_data : List Byte

/-- A call of `Read`, on a partition or on the disc, and at which offsets the blob can be read
while it lasts. -/
structure ReadCall where
  partition : Option (BitVec 32)
  offset : BitVec 64
  length : BitVec 64
  works : Nat → Bool

namespace VolumeWii

variable (v : VolumeWii Key)

/-- The data of a block. -/
def decryptBlock (key : Key) (block : List Byte) : List Byte :=
  v.aes.crypt_cbc key ((block.drop 0x3D0).take 16) (BLOCK_DATA_SIZE / 16)
    (block.drop BLOCK_HEADER_SIZE)

/-- Where the block with a byte of a partition is. -/
def blockOffset (partition : BitVec 32) (offset : Nat) : Nat :=
  partition.toNat * 4 + PARTITION_DATA_OFFSET + offset / BLOCK_DATA_SIZE * BLOCK_TOTAL_SIZE

/-- The block that is wanted, from the one kept or from the disc. -/
def fetch (works : Nat → Bool) (key : Key) (block_offset_on_disc : Nat) (last : LastBlock) :
    Option LastBlock :=
  if last.m_last_decrypted_block ≠ block_offset_on_disc then
    if works block_offset_on_disc then
      (v.m_pReader.Read block_offset_on_disc BLOCK_TOTAL_SIZE).map fun block =>
        ⟨block_offset_on_disc, v.decryptBlock key block⟩
    else none
  else some last

/-- The loop of `Read`. -/
def readBlocks (works : Nat → Bool) (partition : BitVec 32) (key : Key) (offset length : Nat)
    (last : LastBlock) : Option (List Byte) × LastBlock :=
  if length = 0 then (some [], last)
  else
    let block_offset_on_disc := blockOffset partition offset % 2 ^ 64
    let data_offset_in_block := offset % BLOCK_DATA_SIZE
    match v.fetch works key block_offset_on_disc last with
    | none => (none, last)
    | some last =>
      let copy_size := min length (BLOCK_DATA_SIZE - data_offset_in_block)
      let copied := (last.m_last_decrypted_block_data.drop data_offset_in_block).take copy_size
      let (rest, last) := readBlocks works partition key ((offset + copy_size) % 2 ^ 64)
        (length - copy_size) last
      (rest.map (copied ++ ·), last)
termination_by length
decreasing_by
  have := Nat.mod_lt offset (by decide : 0 < BLOCK_DATA_SIZE)
  omega

def Read (call : ReadCall) (last : LastBlock) : Option (List Byte) × LastBlock :=
  match call.partition with
  | none =>
    (if call.works call.offset.toNat then
      v.m_pReader.Read call.offset.toNat call.length.toNat else none, last)
  | some partition =>
    match v.m_partitions partition with
    | none => (none, last)
    | some key =>
      v.readBlocks call.works partition key call.offset.toNat call.length.toNat last

/-- Before the first read nothing is kept, and the room for it is not initialised. -/
def initial (memory : List Byte) : LastBlock := ⟨2 ^ 64 - 1, memory⟩

/-- What is kept after some calls, the latest of which is the first. -/
def after (memory : List Byte) : List ReadCall → LastBlock
  | [] => initial memory
  | call :: earlier => (v.Read call (after memory earlier)).2

/-! ## what a read is for -/

/-- A byte of a partition: of the block it is in, decrypted with the key of the partition. A disc
has no block at an offset that 64 bits do not hold. -/
def plain (partition : BitVec 32) (key : Key) (offset : Nat) : Option Byte :=
  if blockOffset partition offset < 2 ^ 64 then
    (v.m_pReader.Read (blockOffset partition offset) BLOCK_TOTAL_SIZE).bind fun block =>
      (v.decryptBlock key block)[offset % BLOCK_DATA_SIZE]?
  else none

/-- The bytes of a partition from an offset on. -/
def Right (partition : BitVec 32) (key : Key) (offset length : Nat) (out : List Byte) : Prop :=
  out.length = length ∧ ∀ i, i < length → out[i]? = v.plain partition key (offset + i)

/-- No block begins beyond the last offset; and if the first is the one that is kept, then what of
it is asked for is kept as the key of the partition has it. -/
def Current (partition : BitVec 32) (key : Key) (offset length : Nat) (last : LastBlock) : Prop :=
  (∀ i, i < length → blockOffset partition (offset + i) < 2 ^ 64) ∧
    (last.m_last_decrypted_block = blockOffset partition offset →
      ∀ i, i < min length (BLOCK_DATA_SIZE - offset % BLOCK_DATA_SIZE) →
        last.m_last_decrypted_block_data[offset % BLOCK_DATA_SIZE + i]? =
          v.plain partition key (offset + i))

/-- Partitions of which two blocks are at the same place have the same key. -/
def KeysAgree : Prop :=
  ∀ partition partition' key key' offset offset',
    v.m_partitions partition = some key → v.m_partitions partition' = some key' →
    blockOffset partition offset % 2 ^ 64 = blockOffset partition' offset' % 2 ^ 64 → key = key'

/-! ## what is kept -/

/-- Nothing is kept, or a block of some partition. -/
def Kept (last : LastBlock) : Prop :=
  last.m_last_decrypted_block = 2 ^ 64 - 1 ∨
    ∃ partition key offset block, v.m_partitions partition = some key ∧
      last.m_last_decrypted_block = blockOffset partition offset % 2 ^ 64 ∧
      v.m_pReader.Read last.m_last_decrypted_block BLOCK_TOTAL_SIZE = some block ∧
      last.m_last_decrypted_block_data = v.decryptBlock key block

variable {v} {works : Nat → Bool} {partition : BitVec 32} {key : Key} {offset length : Nat}
  {last last' : LastBlock} {out : List Byte}

theorem blockOffset_ne (partition : BitVec 32) (offset : Nat) :
    blockOffset partition offset % 2 ^ 64 ≠ 2 ^ 64 - 1 := by
  unfold blockOffset PARTITION_DATA_OFFSET BLOCK_TOTAL_SIZE BLOCK_HEADER_SIZE BLOCK_DATA_SIZE
  omega

theorem length_decryptBlock {block : List Byte} (h : block.length = BLOCK_TOTAL_SIZE) :
    (v.decryptBlock key block).length = BLOCK_DATA_SIZE := by
  unfold BLOCK_TOTAL_SIZE BLOCK_HEADER_SIZE BLOCK_DATA_SIZE at h
  unfold decryptBlock
  rw [AES.length_crypt_cbc]
  · rfl
  · rw [List.length_take, List.length_drop]
    omega
  · rw [List.length_drop]
    unfold BLOCK_HEADER_SIZE BLOCK_DATA_SIZE
    omega

theorem fetch_spec {block_offset : Nat} (h : v.fetch works key block_offset last = some last') :
    last.m_last_decrypted_block = block_offset ∧ last' = last ∨
      last.m_last_decrypted_block ≠ block_offset ∧
        ∃ block, v.m_pReader.Read block_offset BLOCK_TOTAL_SIZE = some block ∧
          last' = ⟨block_offset, v.decryptBlock key block⟩ := by
  unfold fetch at h
  by_cases hkept : last.m_last_decrypted_block = block_offset
  · rw [if_neg (not_not.mpr hkept)] at h
    exact .inl ⟨hkept, (Option.some.inj h).symm⟩
  · rw [if_pos hkept] at h
    split at h
    · obtain ⟨block, hblock, rfl⟩ := Option.map_eq_some_iff.mp h
      exact .inr ⟨hkept, block, hblock, rfl⟩
    · cases h

theorem Kept.fetch (h : v.Kept last) (hkey : v.m_partitions partition = some key)
    (hfetch : v.fetch works key (blockOffset partition offset % 2 ^ 64) last = some last') :
    v.Kept last' := by
  obtain ⟨-, rfl⟩ | ⟨-, block, hblock, rfl⟩ := fetch_spec hfetch
  · exact h
  · exact .inr ⟨partition, key, offset, block, hkey, rfl, hblock, rfl⟩

/-- How much of a request is in its first block. -/
def copySize (offset length : Nat) : Nat := min length (BLOCK_DATA_SIZE - offset % BLOCK_DATA_SIZE)

theorem copySize_pos (offset : Nat) (hzero : length ≠ 0) : 0 < copySize offset length := by
  have := Nat.mod_lt offset (by decide : 0 < BLOCK_DATA_SIZE)
  unfold copySize
  omega

theorem readBlocks_fail (hzero : length ≠ 0)
    (hfetch : v.fetch works key (blockOffset partition offset % 2 ^ 64) last = none) :
    v.readBlocks works partition key offset length last = (none, last) := by
  rw [readBlocks, if_neg hzero]
  dsimp only
  rw [hfetch]

theorem readBlocks_step (hzero : length ≠ 0)
    (hfetch : v.fetch works key (blockOffset partition offset % 2 ^ 64) last = some last') :
    v.readBlocks works partition key offset length last =
      ((v.readBlocks works partition key ((offset + copySize offset length) % 2 ^ 64)
          (length - copySize offset length) last').1.map
        ((last'.m_last_decrypted_block_data.drop (offset % BLOCK_DATA_SIZE)).take
          (copySize offset length) ++ ·),
        (v.readBlocks works partition key ((offset + copySize offset length) % 2 ^ 64)
          (length - copySize offset length) last').2) := by
  rw [readBlocks, if_neg hzero]
  dsimp only
  rw [hfetch]
  rfl

theorem Kept.readBlocks (h : v.Kept last) (hkey : v.m_partitions partition = some key)
    (offset length : Nat) : v.Kept (v.readBlocks works partition key offset length last).2 := by
  induction length using Nat.strongRecOn generalizing offset last with
  | ind length ih =>
    by_cases hzero : length = 0
    · rw [VolumeWii.readBlocks, if_pos hzero]
      exact h
    cases hfetch : v.fetch works key (blockOffset partition offset % 2 ^ 64) last with
    | none =>
      rw [readBlocks_fail hzero hfetch]
      exact h
    | some last' =>
      have hpos := copySize_pos offset hzero
      rw [readBlocks_step hzero hfetch]
      exact ih _ (by omega) (h.fetch hkey hfetch) _

theorem Kept.after (memory : List Byte) (earlier : List ReadCall) :
    v.Kept (v.after memory earlier) := by
  induction earlier with
  | nil => exact .inl rfl
  | cons call earlier ih =>
    unfold VolumeWii.after Read
    split
    · exact ih
    · next partition _ =>
      cases hkey : v.m_partitions partition with
      | none => exact ih
      | some key => exact ih.readBlocks hkey _ _

/-! ## one read -/

theorem blockOffset_add (partition : BitVec 32) (offset : Nat) :
    blockOffset partition (offset + (BLOCK_DATA_SIZE - offset % BLOCK_DATA_SIZE)) =
      blockOffset partition offset + BLOCK_TOTAL_SIZE := by
  have hpos : 0 < BLOCK_DATA_SIZE := by decide
  have hmod := Nat.mod_lt offset hpos
  have hsplit := Nat.mod_add_div offset BLOCK_DATA_SIZE
  have hnext : offset + (BLOCK_DATA_SIZE - offset % BLOCK_DATA_SIZE) =
      (offset / BLOCK_DATA_SIZE + 1) * BLOCK_DATA_SIZE := by
    rw [Nat.add_mul, Nat.one_mul, Nat.mul_comm]
    omega
  unfold blockOffset
  rw [hnext, Nat.mul_div_cancel _ hpos, Nat.add_mul, Nat.one_mul]
  exact (Nat.add_assoc _ _ _).symm

theorem blockOffset_of_lt (partition : BitVec 32) (offset : Nat) {i : Nat}
    (h : i < BLOCK_DATA_SIZE - offset % BLOCK_DATA_SIZE) :
    blockOffset partition (offset + i) = blockOffset partition offset ∧
      (offset + i) % BLOCK_DATA_SIZE = offset % BLOCK_DATA_SIZE + i := by
  have hpos : 0 < BLOCK_DATA_SIZE := by decide
  have hsplit := Nat.mod_add_div offset BLOCK_DATA_SIZE
  have hoff : offset + i = offset % BLOCK_DATA_SIZE + i +
      BLOCK_DATA_SIZE * (offset / BLOCK_DATA_SIZE) := by omega
  have hin : offset % BLOCK_DATA_SIZE + i < BLOCK_DATA_SIZE := by omega
  have hdiv : (offset + i) / BLOCK_DATA_SIZE = offset / BLOCK_DATA_SIZE := by
    conv_lhs => rw [hoff]
    rw [Nat.add_mul_div_left _ _ hpos, Nat.div_eq_of_lt hin, Nat.zero_add]
  have hmod : (offset + i) % BLOCK_DATA_SIZE = offset % BLOCK_DATA_SIZE + i := by
    conv_lhs => rw [hoff]
    rw [Nat.add_mul_mod_self_left, Nat.mod_eq_of_lt hin]
  refine ⟨?_, hmod⟩
  unfold blockOffset
  rw [hdiv]

theorem le_blockOffset (partition : BitVec 32) (offset : Nat) :
    offset ≤ blockOffset partition offset := by
  unfold blockOffset PARTITION_DATA_OFFSET BLOCK_TOTAL_SIZE BLOCK_HEADER_SIZE BLOCK_DATA_SIZE
  omega

theorem Kept.length_data (h : v.Kept last)
    (hlast : last.m_last_decrypted_block = blockOffset partition offset % 2 ^ 64) :
    last.m_last_decrypted_block_data.length = BLOCK_DATA_SIZE := by
  obtain hnone | ⟨-, key, -, block, -, -, hblock, hdata⟩ := h
  · exact absurd (hlast.symm.trans hnone) (blockOffset_ne partition offset)
  · rw [hdata]
    exact length_decryptBlock (v.m_pReader.length_read _ _ _ hblock)

theorem fetch_last {block_offset : Nat} (h : v.fetch works key block_offset last = some last') :
    last'.m_last_decrypted_block = block_offset := by
  obtain ⟨hlast, rfl⟩ | ⟨-, block, -, rfl⟩ := fetch_spec h
  · exact hlast
  · rfl

theorem fetch_plain (hcurrent : v.Current partition key offset length last) (hzero : length ≠ 0)
    (hfetch : v.fetch works key (blockOffset partition offset % 2 ^ 64) last = some last') {i : Nat}
    (hi : i < copySize offset length) :
    last'.m_last_decrypted_block_data[offset % BLOCK_DATA_SIZE + i]? =
      v.plain partition key (offset + i) := by
  have hfit : blockOffset partition offset < 2 ^ 64 := hcurrent.1 0 (Nat.pos_of_ne_zero hzero)
  rw [Nat.mod_eq_of_lt hfit] at hfetch
  obtain ⟨hlast, rfl⟩ | ⟨-, block, hblock, rfl⟩ := fetch_spec hfetch
  · exact hcurrent.2 hlast i hi
  · obtain ⟨hsame, hmod⟩ := blockOffset_of_lt partition offset (i := i)
      (by unfold copySize at hi; omega)
    unfold plain
    rw [hsame, if_pos hfit, hblock, Option.bind_some, hmod]

theorem readBlocks_right (hkept : v.Kept last) (hkey : v.m_partitions partition = some key)
    (hcurrent : v.Current partition key offset length last)
    (hread : (v.readBlocks works partition key offset length last).1 = some out) :
    v.Right partition key offset length out := by
  induction length using Nat.strongRecOn generalizing offset last out with
  | ind length ih =>
    by_cases hzero : length = 0
    · rw [readBlocks, if_pos hzero] at hread
      obtain rfl := Option.some.inj hread
      exact ⟨hzero.symm, fun i hi => absurd hi (by omega)⟩
    cases hfetch : v.fetch works key (blockOffset partition offset % 2 ^ 64) last with
    | none =>
      rw [readBlocks_fail hzero hfetch] at hread
      cases hread
    | some last' =>
      have hpos := copySize_pos offset hzero
      have hlen := (hkept.fetch hkey hfetch).length_data (fetch_last hfetch)
      have hplain {i : Nat} := fetch_plain hcurrent hzero hfetch (i := i)
      rw [readBlocks_step hzero hfetch] at hread
      obtain ⟨rest, hrest, rfl⟩ := Option.map_eq_some_iff.mp hread
      obtain ⟨n, hn⟩ : ∃ n, copySize offset length = n := ⟨_, rfl⟩
      rw [hn] at hpos hplain hrest ⊢
      have hmin : n = min length (BLOCK_DATA_SIZE - offset % BLOCK_DATA_SIZE) := hn.symm
      have hcopied : ((last'.m_last_decrypted_block_data.drop (offset % BLOCK_DATA_SIZE)).take
          n).length = n := by
        rw [List.length_take, List.length_drop]
        omega
      have hright : v.Right partition key (offset + n) (length - n) rest := by
        by_cases hmore : n < length
        · have hnext : offset + n = offset + (BLOCK_DATA_SIZE - offset % BLOCK_DATA_SIZE) := by
            omega
          have hblock := blockOffset_add partition offset
          have hfit := hcurrent.1 n hmore
          have hle := le_blockOffset partition (offset + n)
          rw [Nat.mod_eq_of_lt (by omega)] at hrest
          refine ih (length - n) (by omega) (hkept.fetch hkey hfetch) ⟨fun i hi => ?_, ?_⟩ hrest
          · rw [Nat.add_assoc]
            exact hcurrent.1 (n + i) (by omega)
          · -- the block after the one that was fetched is not that one
            intro hsame
            rw [fetch_last hfetch, hnext, hblock] at hsame
            rw [hnext, hblock] at hfit
            unfold BLOCK_TOTAL_SIZE BLOCK_HEADER_SIZE at hsame hfit
            omega
        · have hend : length - n = 0 := by omega
          rw [hend] at hrest ⊢
          rw [readBlocks, if_pos rfl] at hrest
          obtain rfl := Option.some.inj hrest
          exact ⟨rfl, fun i hi => absurd hi (by omega)⟩
      refine ⟨by rw [List.length_append, hcopied, hright.1]; omega, fun i hi => ?_⟩
      by_cases hin : i < n
      · rw [List.getElem?_append_left (by omega), List.getElem?_take_of_lt hin,
          List.getElem?_drop, hplain hin]
      · have := hright.2 (i - n) (by omega)
        rw [List.getElem?_append_right (by omega), hcopied, this]
        exact congrArg (v.plain partition key) (by omega)

theorem current_of_right (hkept : v.Kept last)
    (hright : v.Right partition key offset length out)
    (hread : (v.readBlocks works partition key offset length last).1 = some out) :
    v.Current partition key offset length last := by
  obtain ⟨hlength, hout⟩ := hright
  have hfit (i : Nat) (hi : i < length) : blockOffset partition (offset + i) < 2 ^ 64 := by
    by_contra hbig
    have := hout i hi
    rw [plain, if_neg hbig, List.getElem?_eq_none_iff] at this
    omega
  refine ⟨hfit, fun hlast i hi => ?_⟩
  have hzero : length ≠ 0 := by omega
  have hfirst : blockOffset partition offset < 2 ^ 64 := hfit 0 (by omega)
  have hfetch : v.fetch works key (blockOffset partition offset % 2 ^ 64) last = some last := by
    unfold fetch
    rw [Nat.mod_eq_of_lt hfirst, if_neg (not_not.mpr hlast)]
  have hlen := hkept.length_data (fetch_last hfetch)
  rw [readBlocks_step hzero hfetch] at hread
  obtain ⟨rest, -, rfl⟩ := Option.map_eq_some_iff.mp hread
  have hcopy : i < copySize offset length := hi
  rw [← hout i (by omega), List.getElem?_append_left, List.getElem?_take_of_lt hcopy,
    List.getElem?_drop]
  rw [List.length_take, List.length_drop]
  omega

theorem KeysAgree.current (hagree : v.KeysAgree) (hkept : v.Kept last)
    (hkey : v.m_partitions partition = some key)
    (hfit : ∀ i, i < length → blockOffset partition (offset + i) < 2 ^ 64) :
    v.Current partition key offset length last := by
  refine ⟨hfit, fun hlast i hi => ?_⟩
  have hfirst : blockOffset partition offset < 2 ^ 64 := hfit 0 (by omega)
  obtain hnone | ⟨partition', key', offset', block, hkey', hplace, hblock, hdata⟩ := hkept
  · have hne := blockOffset_ne partition offset
    rw [Nat.mod_eq_of_lt hfirst] at hne
    exact absurd (hlast.symm.trans hnone) hne
  · obtain rfl := hagree partition' partition key' key offset' offset hkey' hkey
      (by rw [← hplace, hlast, Nat.mod_eq_of_lt hfirst])
    obtain ⟨hsame, hmod⟩ := blockOffset_of_lt partition offset (i := i)
      (by omega)
    unfold plain
    rw [hdata, hsame, if_pos hfirst, ← hlast, hblock, Option.bind_some, hmod]

/-- After any calls, what a call on a partition reads is right exactly if what it finds kept is what
it wants and no block begins beyond the last offset. Where partitions with blocks in the same places
have the same keys, what is kept always is. -/
theorem read_right_iff (memory : List Byte) (earlier : List ReadCall) (call : ReadCall)
    (hpartition : call.partition = some partition) (hkey : v.m_partitions partition = some key)
    (hread : (v.Read call (v.after memory earlier)).1 = some out) :
    (v.Right partition key call.offset.toNat call.length.toNat out ↔
      v.Current partition key call.offset.toNat call.length.toNat (v.after memory earlier)) ∧
    (v.KeysAgree →
      (∀ i, i < call.length.toNat → blockOffset partition (call.offset.toNat + i) < 2 ^ 64) →
      v.Current partition key call.offset.toNat call.length.toNat (v.after memory earlier)) := by
  have hkept := Kept.after (v := v) memory earlier
  simp only [Read, hpartition, hkey] at hread
  exact ⟨⟨fun hright => current_of_right hkept hright hread,
    fun hcurrent => readBlocks_right hkept hkey hcurrent hread⟩,
    fun hagree hfit => hagree.current hkept hkey hfit⟩

end VolumeWii

/-! ## two partitions over each other -/

/-- How a block of zeros is decrypted with the keys 0 and 1 of 128 bits. -/
def zeroBlockAES : AES Bool where
  crypt_ecb key _ :=
    if key then
      [0xf0, 0x34, 0xc6, 0x59, 0x87, 0x1a, 0x74, 0x42, 0xb0, 0xa0, 0x32, 0x36, 0xef, 0x17, 0xe8,
        0xec]
    else
      [0x14, 0x0f, 0x0f, 0x10, 0x11, 0xb5, 0x22, 0x3d, 0x79, 0x58, 0x77, 0x17, 0xff, 0xd9, 0xec,
        0x3a]
  length_crypt_ecb key _ := by cases key <;> rfl

/-- A disc of zeros with a partition at its begin, whose key is 0, and one a block further on, whose
key is 1. -/
def overlapping : VolumeWii Bool where
  aes := zeroBlockAES
  m_pReader := ⟨fun _ n => some (List.replicate n 0), fun _ n out h => by
    rw [← Option.some.inj h, List.length_replicate]⟩
  m_partitions p := if p = 0 then some false else if p = 0x2000 then some true else none

def readByte (partition : BitVec 32) (offset : BitVec 64) : ReadCall :=
  ⟨some partition, offset, 1, fun _ => true⟩

theorem overlapping_decryptBlock (key : Bool) : ∃ rest,
    overlapping.decryptBlock key (List.replicate BLOCK_TOTAL_SIZE 0) =
      (if key then 0xf0 else 0x14) :: rest := by
  unfold VolumeWii.decryptBlock
  rw [List.drop_replicate, List.take_replicate]
  change ∃ rest, overlapping.aes.crypt_cbc key (List.replicate 16 0) (1983 + 1) _ = _
  rw [AES.crypt_cbc]
  generalize overlapping.aes.crypt_cbc key _ 1983 _ = tail
  generalize List.take 16 _ = temp
  cases key <;> exact ⟨_, rfl⟩

theorem overlapping_read (memory : List Byte) :
    overlapping.Read (readByte 0x2000 0) (overlapping.after memory []) =
      (some [0xf0], ⟨0x28000, overlapping.decryptBlock true (List.replicate BLOCK_TOTAL_SIZE 0)⟩) :=
    by
  obtain ⟨rest, hrest⟩ := overlapping_decryptBlock true
  have hfetch : overlapping.fetch (fun _ => true) true
      (VolumeWii.blockOffset 0x2000 0 % 2 ^ 64) (VolumeWii.initial memory) =
        some ⟨0x28000, overlapping.decryptBlock true (List.replicate BLOCK_TOTAL_SIZE 0)⟩ := rfl
  change overlapping.readBlocks (fun _ => true) 0x2000 true 0 1 (VolumeWii.initial memory) = _
  rw [VolumeWii.readBlocks_step (by decide) hfetch, hrest]
  rw [VolumeWii.readBlocks, if_pos rfl]
  rfl

theorem overlapping_after (memory : List Byte) : overlapping.after memory [readByte 0x2000 0] =
      ⟨0x28000, overlapping.decryptBlock true (List.replicate BLOCK_TOTAL_SIZE 0)⟩ :=
  congrArg Prod.snd (overlapping_read memory)

/-- After that, a byte of the second block of the first partition is read as the other key has
it. -/
theorem overlapping_not_right : ∃ out, (overlapping.Read (readByte 0 0x7C00)
        (overlapping.after [] [readByte 0x2000 0])).1 = some out ∧
      ¬ overlapping.Right 0 false 0x7C00 1 out := by
  obtain ⟨rest, hrest⟩ := overlapping_decryptBlock true
  obtain ⟨rest', hrest'⟩ := overlapping_decryptBlock false
  rw [overlapping_after, hrest]
  have hfetch : overlapping.fetch (fun _ => true) false
      (VolumeWii.blockOffset 0 0x7C00 % 2 ^ 64) ⟨0x28000, 0xf0 :: rest⟩ =
        some ⟨0x28000, 0xf0 :: rest⟩ := by
    have hblock : VolumeWii.blockOffset 0 0x7C00 % 2 ^ 64 = 0x28000 := by decide
    exact if_neg (not_not.mpr hblock.symm)
  refine ⟨[0xf0], ?_, fun h => ?_⟩
  · change (overlapping.readBlocks (fun _ => true) 0 false 0x7C00 1 ⟨0x28000, 0xf0 :: rest⟩).1 = _
    rw [VolumeWii.readBlocks_step (by decide) hfetch]
    change ((overlapping.readBlocks _ _ _ _ 0 _).1).map _ = _
    rw [VolumeWii.readBlocks, if_pos rfl]
    rfl
  · have hplain : overlapping.plain 0 false 0x7C00 = some 0x14 := by
      have hread : overlapping.m_pReader.Read (VolumeWii.blockOffset 0 0x7C00) BLOCK_TOTAL_SIZE =
          some (List.replicate BLOCK_TOTAL_SIZE 0) := rfl
      have hmod : 0x7C00 % BLOCK_DATA_SIZE = 0 := by decide
      unfold VolumeWii.plain
      rw [if_pos (by decide), hread, Option.bind_some, hrest', hmod]
      rfl
    have := h.2 0 (by decide)
    rw [hplain] at this
    exact absurd this (by decide)

theorem read_right_iff_overlapping :
    overlapping.Right 0x2000 true (0#64).toNat (1#64).toNat [0xf0] ↔
      overlapping.Current 0x2000 true (0#64).toNat (1#64).toNat (overlapping.after [] []) :=
  (VolumeWii.read_right_iff [] [] (readByte 0x2000 0) rfl rfl
    (congrArg Prod.fst (overlapping_read []))).1

end DolphinCore.DiscIO
