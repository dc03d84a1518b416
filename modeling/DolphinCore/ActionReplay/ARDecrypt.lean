import DolphinCore.ActionReplay.KeyTables
import DolphinCore.ActionReplay.RunCode
import DolphinCore.Common.StringUtil
import Mathlib.Logic.Function.Basic

/-!
# DolphinCore.ActionReplay.ARDecrypt

`DecryptARCode`, on the lines of one section: 13 characters each, which become two words of an array
of 1200 on the stack, are decrypted there and checked by a CRC.  Nothing bounds the number of lines,
and the loop of the CRC counts in eight bits.
-/

namespace DolphinCore.ActionReplay

/-- The line of an encrypted code, without its dashes. -/
structure EncryptedLine where
  text : Str
  length_text : text.length = 13

namespace EncryptedLine

/-- `line[i]` -/
def char (line : EncryptedLine) (i : Fin 13) : Byte :=
  line.text.get (i.cast line.length_text.symm)

/-- `toupper`, in the C locale. -/
def toupper (c : Byte) : Byte := if 0x61 ≤ c ∧ c ≤ 0x7A then c - 0x20 else c

def upper (line : EncryptedLine) : EncryptedLine :=
  ⟨line.text.map toupper, by simp [line.length_text]⟩

end EncryptedLine

/-! ## the array on the stack -/

/-- The length of `uCodes`. -/
def UCODES_SIZE : Nat := 1200

abbrev Words := Nat → BitVec 32

def readWord (codes : Words) (i : Nat) : Except Fault (BitVec 32) :=
  if i < UCODES_SIZE then .ok (codes i) else .error .outside

def writeWord (codes : Words) (i : Nat) (v : BitVec 32) : Except Fault Words :=
  if i < UCODES_SIZE then .ok (Function.update codes i v) else .error .outside

/-! ## the cipher -/

def swap32 (v : BitVec 32) : BitVec 32 :=
  v.extractLsb' 0 8 ++ v.extractLsb' 8 8 ++ v.extractLsb' 16 8 ++ v.extractLsb' 24 8

/-- `*addr` and `*val` after `unscramble1`. -/
def unscramble1 (addr val : BitVec 32) : BitVec 32 × BitVec 32 :=
  let val := val.rotateLeft 4
  let tmp := (addr ^^^ val) &&& 0xF0F0F0F0
  let addr := addr ^^^ tmp
  let val := (val ^^^ tmp).rotateRight 0x14
  let tmp := (addr ^^^ val) &&& 0xFFFF0000
  let addr := addr ^^^ tmp
  let val := (val ^^^ tmp).rotateRight 0x12
  let tmp := (addr ^^^ val) &&& 0x33333333
  let addr := addr ^^^ tmp
  let val := (val ^^^ tmp).rotateRight 6
  let tmp := (addr ^^^ val) &&& 0x00FF00FF
  let addr := addr ^^^ tmp
  let val := (val ^^^ tmp).rotateLeft 9
  let tmp := (addr ^^^ val) &&& 0xAAAAAAAA
  ((addr ^^^ tmp).rotateLeft 1, val ^^^ tmp)

/-- `*addr` and `*val` after `unscramble2`. -/
def unscramble2 (addr val : BitVec 32) : BitVec 32 × BitVec 32 :=
  let val := val.rotateRight 1
  let tmp := (addr ^^^ val) &&& 0xAAAAAAAA
  let val := val ^^^ tmp
  let addr := (addr ^^^ tmp).rotateRight 9
  let tmp := (addr ^^^ val) &&& 0x00FF00FF
  let val := val ^^^ tmp
  let addr := (addr ^^^ tmp).rotateLeft 6
  let tmp := (addr ^^^ val) &&& 0x33333333
  let val := val ^^^ tmp
  let addr := (addr ^^^ tmp).rotateLeft 0x12
  let tmp := (addr ^^^ val) &&& 0xFFFF0000
  let val := val ^^^ tmp
  let addr := (addr ^^^ tmp).rotateLeft 0x14
  let tmp := (addr ^^^ val) &&& 0xF0F0F0F0
  let val := val ^^^ tmp
  ((addr ^^^ tmp).rotateRight 4, val)

/-- `t[tmp & 0x3F]` -/
def substitute (t : List (BitVec 32)) (tmp : BitVec 32) : Except Fault (BitVec 32) :=
  readTable t (tmp &&& 0x3F).toNat

/-- What half a round of `decryptcode` adds to the other word, with the seeds from `i` on. -/
def halfRound (seeds : List (BitVec 32)) (i : Nat) (v : BitVec 32) : Except Fault (BitVec 32) := do
  let tmp := v.rotateRight 4 ^^^ (← readTable seeds i)
  let tmp2 := v ^^^ (← readTable seeds (i + 1))
  let t6 ← substitute table6 tmp
  let t4 ← substitute table4 (tmp >>> 8)
  let t2 ← substitute table2 (tmp >>> 16)
  let t0 ← substitute table0 (tmp >>> 24)
  let t7 ← substitute table7 tmp2
  let t5 ← substitute table5 (tmp2 >>> 8)
  let t3 ← substitute table3 (tmp2 >>> 16)
  let t1 ← substitute table1 (tmp2 >>> 24)
  pure (t6 ^^^ t4 ^^^ t2 ^^^ t0 ^^^ t7 ^^^ t5 ^^^ t3 ^^^ t1)

/-- A round of `decryptcode`, whose seeds are those from `i` on. -/
def cipherRound (seeds : List (BitVec 32)) (w : BitVec 32 × BitVec 32) (i : Nat) :
    Except Fault (BitVec 32 × BitVec 32) := do
  let addr := w.1 ^^^ (← halfRound seeds i w.2)
  let val := w.2 ^^^ (← halfRound seeds (i + 2) addr)
  pure (addr, val)

/-- `decryptcode`, on the words `p` and `p + 1`. -/
def decryptcode (seeds : List (BitVec 32)) (codes : Words) (p : Nat) : Except Fault Words := do
  let addr := swap32 (← readWord codes p)
  let val := swap32 (← readWord codes (p + 1))
  let w ← [0, 4, 8, 12, 16, 20, 24, 28].foldlM (cipherRound seeds) (unscramble1 addr val)
  let w := unscramble2 w.1 w.2
  let codes ← writeWord codes p (swap32 w.2)
  writeWord codes (p + 1) (swap32 w.1)

/-! ## the checksum -/

/-- Byte `i` of a word goes into the CRC. -/
def crcByte (word : BitVec 32) (ret : BitVec 16) (i : Nat) : Except Fault (BitVec 16) := do
  let tmp2 : BitVec 8 := (word >>> (i <<< 3) ^^^ ret.setWidth 32).setWidth 8
  let c0 ← readTable crctable0 ((tmp2 >>> 4) &&& 0x0F).toNat
  let c1 ← readTable crctable1 (tmp2 &&& 0x0F).toNat
  pure (c0 ^^^ c1 ^^^ ret >>> 8)

/-- The loop of `gencrc16` from `tmp` on, with the places of the words that it covers. -/
def gencrc16From (codes : Words) (size : BitVec 16) :
    Nat → BitVec 8 → BitVec 16 → Except Fault (BitVec 16 × List Nat)
  | 0, _, _ => .error .endless
  | fuel + 1, tmp, ret =>
    if tmp.toNat < size.toNat then do
      let word ← readWord codes tmp.toNat
      let ret ← [0, 1, 2, 3].foldlM (crcByte word) ret
      let (crc, covered) ← gencrc16From codes size fuel (tmp + 1) ret
      pure (crc, tmp.toNat :: covered)
    else pure (ret, [])

def gencrc16 (fuel : Nat) (codes : Words) (size : BitVec 16) :
    Except Fault (BitVec 16 × List Nat) :=
  if 0 < size then gencrc16From codes size fuel 0 0 else pure (0, [])

def verifycode (fuel : Nat) (codes : Words) (size : BitVec 16) :
    Except Fault (BitVec 8 × List Nat) := do
  let (tmp, covered) ← gencrc16 fuel codes size
  pure ((((tmp >>> 12) ^^^ (tmp >>> 8) ^^^ (tmp >>> 4) ^^^ tmp) &&& 0x0F).setWidth 8, covered)

/-- What `batchdecrypt` leaves. -/
structure Batch where
  /-- does the checksum agree? -/
  verified : Bool
  codes : Words
  /-- the words that the checksum covers -/
  covered : List Nat

/-- `batchdecrypt`: each pair is decrypted, and the first word, without its checksum, is checked
with the others.  The bit strings that it takes from the first word are read by nothing. -/
def batchdecrypt (fuel : Nat) (seeds : List (BitVec 32)) (codes : Words) (size : BitVec 16) :
    Except Fault Batch := do
  let codes ← (List.range (size.toNat / 2)).foldlM (fun codes k => decryptcode seeds codes (2 * k))
    codes
  let tmp ← readWord codes 0
  let codes ← writeWord codes 0 (tmp &&& 0x0FFFFFFF)
  let (check, covered) ← verifycode fuel codes size
  pure ⟨tmp >>> 28 = check.setWidth 32, codes, covered⟩

/-! ## characters -/

/-- `filter` -/
def filterChars : Str :=
  [0x30, 0x31, 0x32, 0x33, 0x34, 0x35, 0x36, 0x37, 0x38, 0x39, 0x41, 0x42, 0x43, 0x44, 0x45, 0x46,
    0x47, 0x48, 0x4A, 0x4B, 0x4D, 0x4E, 0x50, 0x51, 0x52, 0x54, 0x55, 0x56, 0x57, 0x58, 0x59, 0x5A,
    0x49, 0x4C, 0x4F, 0x53]

/-- `GetVal`: the terminator is found as well, and a character that is not found gives the
difference `lost` of a null pointer and the table. -/
def getVal (lost : BitVec 32) (chr : Byte) : BitVec 32 :=
  let ret : BitVec 32 :=
    match (filterChars ++ [0]).idxOf? chr with
    | some i => BitVec.ofNat 32 i
    | none => lost
  if ret = 32 ∨ ret = 33 then 1 else if ret = 34 then 0 else if ret = 35 then 5 else ret

/-- `bin[0]` -/
def bin0 (lost : BitVec 32) (line : EncryptedLine) : BitVec 32 :=
  ([0, 1, 2, 3, 4, 5] : List (Fin 13)).foldl
      (fun bin i => bin ||| getVal lost (line.char i) <<< ((5 - i.val) * 5 + 2)) 0 |||
    (getVal lost (line.char 6)).sshiftRight 3

/-- `bin[1]` -/
def bin1 (lost : BitVec 32) (line : EncryptedLine) : BitVec 32 :=
  ([0, 1, 2, 3, 4, 5] : List (Fin 13)).foldl
      (fun bin i => bin ||| getVal lost (line.char (i + 6)) <<< ((5 - i.val) * 5 + 4)) 0 |||
    (getVal lost (line.char 12)).sshiftRight 1

/-- The parity of the 64 bits, against the last bit of the line. -/
def parityOk (lost : BitVec 32) (line : EncryptedLine) : Bool :=
  let parity : BitVec 8 := (List.range 64).foldl
    (fun parity i =>
      parity ^^^ (if i < 32 then bin0 lost line >>> i else bin1 lost line >>> (i - 32)).setWidth 8) 0
  (parity &&& 1).setWidth 32 = getVal lost (line.char 12) &&& 1

/-- The loop of `alphatobin` from word `j` on: `dst` and `ret` at its end.  As `size` is an `int`,
the loop counts down from the low 32 bits of the number of lines. -/
def alphatobinFrom (lost : BitVec 32) (alpha : List EncryptedLine) (org : BitVec 32)
    (size : BitVec 32) (j : Nat) (dst : Words) (ret : BitVec 32) :
    Except Fault (Words × BitVec 32) :=
  if size = 0 then .ok (dst, ret)
  else
    match alpha[j / 2]? with
    | none => .error .outside
    | some line =>
      if _h : j + 1 < UCODES_SIZE then
        alphatobinFrom lost alpha org (size - 1) (j + 2)
          (Function.update (Function.update dst j (bin0 lost line)) (j + 1) (bin1 lost line))
          (if parityOk lost line then ret else org - size)
      else .error .outside
  termination_by UCODES_SIZE - j

def alphatobin (lost : BitVec 32) (dst : Words) (alpha : List EncryptedLine) (size : BitVec 32) :
    Except Fault (Words × BitVec 32) :=
  alphatobinFrom lost alpha (size + 1) size 0 dst 0

/-! ## the function -/

/-- The entries that are appended, and the words that the checksum covered where it was made. -/
structure Decrypted where
  ops : List AREntry
  covered : Option (List Nat)

/-- `ops->emplace_back(uCodes[2 * i], uCodes[2 * i + 1])` -/
def readEntry (codes : Words) (i : Nat) : Except Fault AREntry := do
  let addr ← readWord codes (2 * i)
  let val ← readWord codes (2 * i + 1)
  pure ⟨addr, val⟩

/-- `DecryptARCode`, in as many rounds of the checksum as are allowed; `uninit` is what the array
holds before. -/
def decryptARCode (fuel : Nat) (lost : BitVec 32) (uninit : Words) (lines : List EncryptedLine) :
    Except Fault Decrypted := do
  let genseeds ← buildseeds
  let vCodes := lines.map EncryptedLine.upper
  let (uCodes, ret) ← alphatobin lost uninit vCodes (BitVec.ofNat 32 vCodes.length)
  if ret ≠ 0 then do
    let _culprit ← readTable vCodes (ret - 1).toNat
    pure ⟨[], none⟩
  else do
    let batch ← batchdecrypt fuel genseeds uCodes (BitVec.ofNat 16 vCodes.length <<< 1)
    -- the verification code is not passed back
    let first := if batch.verified then 1 else 0
    let ops ← ((List.range vCodes.length).drop first).mapM (readEntry batch.codes)
    pure ⟨ops, some batch.covered⟩

end DolphinCore.ActionReplay
