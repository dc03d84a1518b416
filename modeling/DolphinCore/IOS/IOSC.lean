import DolphinCore.Lib.FinLiteral
import Mathlib.Data.Fintype.Pi
import DolphinCore.Lib.StdString

/-!
# DolphinCore.IOS.IOSC

Key objects of IOS.  A handle is the place of an object in a table of 32; the first
twelve are built in, and the root key has a handle of its own outside of the table.

The ciphers are parameters.  A computation that reads a key outside of its stored data
has no result.
-/

namespace DolphinCore

/-! ## objects -/

inductive ObjectType
  | secretKey
  | publicKey
  | data
deriving DecidableEq

inductive ObjectSubType
  | aes128
  | mac
  | rsa2048
  | rsa4096
  | ecc233
  | data
  | version
deriving DecidableEq

/-- `GetSizeForType`, with `s_type_to_size_map`. -/
def getSizeForType : ObjectType → ObjectSubType → Nat
  | .secretKey, .aes128 => 16
  | .secretKey, .mac => 20
  | .secretKey, .ecc233 => 30
  | .publicKey, .rsa2048 => 256
  | .publicKey, .rsa4096 => 512
  | .publicKey, .ecc233 => 60
  | _, _ => 0

/-- `IOSC::KeyEntry`; `misc_data` is its four bytes in memory. -/
structure KeyEntry where
  in_use : Bool
  type : ObjectType
  subtype : ObjectSubType
  data : List Byte
  misc_data : List Byte
  owner_mask : BitVec 32
deriving DecidableEq

/-- The size of a full key. -/
def KeyEntry.fullSize (e : KeyEntry) : Nat := getSizeForType e.type e.subtype

def handleRootKey : Nat := 0xfffffff

/-- `HANDLE_NEW_COMMON_KEY`, the last default handle in the table -/
def handleNewCommonKey : Nat := 11

/-- `ReturnCode`, as far as it is used -/
inductive ReturnCode
  | IPC_SUCCESS
  | IOSC_EACCES
  | IOSC_EINVAL
  | IOSC_INVALID_OBJTYPE
  | IOSC_INVALID_FORMAT
  | IOSC_FAIL_CHECKVALUE
  | IOSC_FAIL_INTERNAL
  | IOSC_FAIL_ALLOC
deriving DecidableEq

structure IOSC where
  m_key_entries : Fin 32 → KeyEntry
  m_root_key_entry : KeyEntry

/-- What stands behind a pointer. -/
abbrev Pointer := Nat → Byte

/-- The first bytes behind a pointer. -/
def Pointer.bytes (p : Pointer) (n : Nat) : List Byte := (List.range n).map p

def Pointer.add (p : Pointer) (offset : Nat) : Pointer := fun i => p (offset + i)

@[simp] theorem Pointer.length_bytes (p : Pointer) (n : Nat) : (p.bytes n).length = n := by
  rw [Pointer.bytes, List.length_map, List.length_range]

/-- The ciphers. -/
structure Crypto where
  /-- `Common::AES::DecryptEncrypt`: the output and the next initialization vector -/
  aes : (encrypt : Bool) → (key iv input : List Byte) → List Byte × List Byte
  pointMul : List Byte → List Byte → List Byte
  /-- `mbedtls_sha1` -/
  sha1 : List Byte → List Byte
  /-- `mbedtls_rsa_pkcs1_verify` of a modulus of admissible size -/
  rsaVerify : (modulus exponent sha1 : List Byte) → (signature : Pointer) → Bool

namespace IOSC

/-! ## finding objects -/

def findFreeEntry (s : IOSC) : Option (Fin 32) :=
  (List.finRange 32).find? fun i => !(s.m_key_entries i).in_use

/-- The place of a handle in the table. -/
def index (handle : Nat) : Option (Fin 32) :=
  if h : handle < 32 then some ⟨handle, h⟩ else none

def findEntry (s : IOSC) (handle : Nat) : Option KeyEntry :=
  (index handle).map s.m_key_entries

/-- `FindEntry` with `SearchMode::IncludeRootKey` -/
def findEntryOrRoot (s : IOSC) (handle : Nat) : Option KeyEntry :=
  if handle = handleRootKey then some s.m_root_key_entry else s.findEntry handle

def getOwnership (s : IOSC) (handle : Nat) : ReturnCode × BitVec 32 :=
  match s.findEntry handle with
  | some entry => if entry.in_use then (.IPC_SUCCESS, entry.owner_mask) else (.IOSC_EINVAL, 0)
  | none => (.IOSC_EINVAL, 0)

/-- `1 << pid` -/
def pidMask (pid : Nat) : BitVec 32 := 1 <<< pid

def hasOwnership (s : IOSC) (handle : Nat) (pid : Nat) : Bool :=
  handle = handleRootKey ||
    ((s.getOwnership handle).1 = .IPC_SUCCESS && pidMask pid &&& (s.getOwnership handle).2 ≠ 0)

def isDefaultHandle (handle : Nat) : Bool :=
  handle ≤ handleNewCommonKey || handle = handleRootKey

/-- The state after an entry was changed. -/
def setEntry (s : IOSC) (handle : Nat) (entry : KeyEntry) : IOSC :=
  match index handle with
  | some i => { s with m_key_entries := Function.update s.m_key_entries i entry }
  | none => s

/-! ## creating and deleting -/

/-- `CreateObject`: the handle is written on success only. -/
def createObject (s : IOSC) (type : ObjectType) (subtype : ObjectSubType) (pid : Nat) :
    ReturnCode × Option Nat × IOSC :=
  match s.findFreeEntry with
  | none => (.IOSC_FAIL_ALLOC, none, s)
  | some i =>
    let entry := { s.m_key_entries i with
      in_use := true, type := type, subtype := subtype, owner_mask := pidMask pid }
    (.IPC_SUCCESS, some i.val, s.setEntry i.val entry)

def deleteObject (s : IOSC) (handle : Nat) (pid : Nat) : ReturnCode × IOSC :=
  if isDefaultHandle handle || !s.hasOwnership handle pid then (.IOSC_EACCES, s)
  else
    match s.findEntry handle with
    | none => (.IOSC_EINVAL, s)
    | some entry => (.IPC_SUCCESS, s.setEntry handle { entry with in_use := false, data := [] })

/-! ## using secret keys -/

/-- `DecryptEncrypt`, `Decrypt` and `Encrypt`: the output is written on success only. -/
def decryptEncrypt (c : Crypto) (s : IOSC) (encrypt : Bool) (keyHandle : Nat)
    (iv input : List Byte) (pid : Nat) : ReturnCode × Option (List Byte × List Byte) :=
  if !s.hasOwnership keyHandle pid then (.IOSC_EACCES, none)
  else
    match s.findEntry keyHandle with
    | none => (.IOSC_EINVAL, none)
    | some entry =>
      if entry.type ≠ .secretKey ∨ entry.subtype ≠ .aes128 then (.IOSC_INVALID_OBJTYPE, none)
      else if entry.data.length ≠ 16 then (.IOSC_FAIL_INTERNAL, none)
      else (.IPC_SUCCESS, some (c.aes encrypt entry.data iv input))

/-- `ImportSecretKey` of a key that is already decrypted -/
def importDecryptedKey (s : IOSC) (destHandle : Nat) (decryptedKey : Pointer) (pid : Nat) :
    ReturnCode × IOSC :=
  if !s.hasOwnership destHandle pid || isDefaultHandle destHandle then (.IOSC_EACCES, s)
  else
    match s.findEntry destHandle with
    | none => (.IOSC_EINVAL, s)
    | some entry =>
      if entry.type ≠ .secretKey ∨ entry.subtype ≠ .aes128 then (.IOSC_INVALID_OBJTYPE, s)
      else (.IPC_SUCCESS, s.setEntry destHandle { entry with data := decryptedKey.bytes 16 })

def importSecretKey (c : Crypto) (s : IOSC) (destHandle decryptHandle : Nat) (iv : List Byte)
    (encryptedKey : Pointer) (pid : Nat) : ReturnCode × IOSC :=
  match s.decryptEncrypt c false decryptHandle iv (encryptedKey.bytes 16) pid with
  | (.IPC_SUCCESS, some (output, _)) =>
    s.importDecryptedKey destHandle (fun i => output.getD i 0) pid
  | (ret, _) => (ret, s)

/-- `ComputeSharedKey`: `point_mul` reads 30 and 60 bytes. -/
def computeSharedKey (c : Crypto) (s : IOSC) (destHandle privateHandle publicHandle : Nat)
    (pid : Nat) : Option (ReturnCode × IOSC) :=
  if !s.hasOwnership destHandle pid || !s.hasOwnership privateHandle pid ||
      !s.hasOwnership publicHandle pid || isDefaultHandle destHandle then
    some (.IOSC_EACCES, s)
  else
    match s.findEntry destHandle, s.findEntry privateHandle, s.findEntry publicHandle with
    | some dest, some priv, some pub =>
      if dest.type ≠ .secretKey ∨ dest.subtype ≠ .aes128 ∨
          priv.type ≠ .secretKey ∨ priv.subtype ≠ .ecc233 ∨
          pub.type ≠ .publicKey ∨ pub.subtype ≠ .ecc233 then
        some (.IOSC_INVALID_OBJTYPE, s)
      else if priv.data.length < 30 ∨ pub.data.length < 60 then none
      else
        let sharedSecret := c.pointMul priv.data pub.data
        let data := ((c.sha1 (sharedSecret.take 30)).take 16)
        some (.IPC_SUCCESS, s.setEntry destHandle
          { dest with data := data ++ List.replicate (16 - data.length) 0 })
    | _, _, _ => some (.IOSC_EINVAL, s)

/-! ## public keys -/

def importPublicKey (s : IOSC) (destHandle : Nat) (publicKey publicKeyExponent : Pointer)
    (pid : Nat) : ReturnCode × IOSC :=
  if !s.hasOwnership destHandle pid || isDefaultHandle destHandle then (.IOSC_EACCES, s)
  else
    match s.findEntry destHandle with
    | none => (.IOSC_EINVAL, s)
    | some entry =>
      if entry.type ≠ .publicKey then (.IOSC_INVALID_OBJTYPE, s)
      else if getSizeForType entry.type entry.subtype = 0 then (.IOSC_INVALID_OBJTYPE, s)
      else
        let size := getSizeForType entry.type entry.subtype
        let entry := { entry with data := publicKey.bytes size }
        let entry := if entry.subtype = .rsa2048 ∨ entry.subtype = .rsa4096 then
            { entry with misc_data := publicKeyExponent.bytes 4 }
          else entry
        (.IPC_SUCCESS, s.setEntry destHandle entry)

/-- `mbedtls_rsa_pkcs1_verify`, which checks the size of the modulus first -/
def rsaPkcs1Verify (c : Crypto) (modulus exponent sha1 : List Byte) (signature : Pointer) : Bool :=
  if modulus.length < 16 ∨ 1024 < modulus.length then false
  else c.rsaVerify modulus exponent sha1 signature

/-- `VerifyPublicKeySign`; an assertion about the size of the key is passed over. -/
def verifyPublicKeySign (c : Crypto) (s : IOSC) (sha1 : List Byte) (signerHandle : Nat)
    (signature : Pointer) (pid : Nat) : ReturnCode :=
  if !s.hasOwnership signerHandle pid then .IOSC_EACCES
  else
    match s.findEntryOrRoot signerHandle with
    | none => .IOSC_EINVAL
    | some entry =>
      if entry.type ≠ .publicKey then .IOSC_INVALID_OBJTYPE
      else if entry.subtype = .rsa2048 ∨ entry.subtype = .rsa4096 then
        if rsaPkcs1Verify c entry.data entry.misc_data sha1 signature then .IPC_SUCCESS
        else .IOSC_FAIL_CHECKVALUE
      else .IOSC_INVALID_OBJTYPE

structure ImportCertParameters where
  offset : Nat
  size : Nat
  signature_offset : Nat
  public_key_offset : Nat
  public_key_exponent_offset : Nat

/-- A big-endian word of a certificate. -/
def certWord (cert : Pointer) (offset : Nat) : Nat :=
  ((cert.add offset).bytes 4).foldl (fun n b => n * 256 + b.toNat) 0

def getImportCertParameters (cert : Pointer) : Option ImportCertParameters :=
  if certWord cert 0 = 0x00010001 then
    if certWord cert 0x180 ≠ 1 then none else some ⟨0x140, 0x300 - 0x140, 4, 0x1c8, 0x2c8⟩
  else if certWord cert 0 = 0x00010000 then some ⟨0x240, 0x400 - 0x240, 4, 0x2c8, 0x3c8⟩
  else none

def importCertificate (c : Crypto) (s : IOSC) (cert : Pointer) (signerHandle destHandle : Nat)
    (pid : Nat) : ReturnCode × IOSC :=
  if !s.hasOwnership signerHandle pid || !s.hasOwnership destHandle pid then (.IOSC_EACCES, s)
  else
    match s.findEntryOrRoot signerHandle, s.findEntryOrRoot destHandle with
    | some signer, some dest =>
      if signer.type ≠ .publicKey ∨ dest.type ≠ .publicKey then (.IOSC_INVALID_OBJTYPE, s)
      else
        match getImportCertParameters cert with
        | none => (.IOSC_INVALID_FORMAT, s)
        | some parameters =>
          let sha1 := c.sha1 ((cert.add parameters.offset).bytes parameters.size)
          if s.verifyPublicKeySign c sha1 signerHandle (cert.add parameters.signature_offset) pid ≠
              .IPC_SUCCESS then
            (.IOSC_FAIL_CHECKVALUE, s)
          else
            s.importPublicKey destHandle (cert.add parameters.public_key_offset)
              (cert.add parameters.public_key_exponent_offset) pid
    | _, _ => (.IOSC_EINVAL, s)

/-! ## ownership -/

def setOwnership (s : IOSC) (handle : Nat) (newOwner : BitVec 32) (pid : Nat) : ReturnCode × IOSC :=
  if !s.hasOwnership handle pid then (.IOSC_EACCES, s)
  else
    match s.findEntry handle with
    | none => (.IOSC_EINVAL, s)
    | some entry =>
      let mask := entry.owner_mask ||| pidMask pid
      if mask ≠ pidMask pid then (.IOSC_EACCES, s)
      else (.IPC_SUCCESS, s.setEntry handle { entry with owner_mask := newOwner &&& ~~~7 ||| mask })

/-! ## default objects -/

/-- `LoadDefaultEntries`: type, subtype and owners of the built-in objects, in the order of
their handles. -/
def defaultEntries : List (ObjectType × ObjectSubType × BitVec 32) :=
  [(.secretKey, .ecc233, 3), (.data, .data, 0xFFFFFFF), (.secretKey, .aes128, 5),
    (.secretKey, .mac, 5), (.secretKey, .aes128, 3), (.secretKey, .aes128, 3),
    (.secretKey, .aes128, 3), (.data, .version, 3), (.data, .version, 3), (.data, .version, 3),
    (.data, .version, 3), (.secretKey, .aes128, 3)]

/-- The state that the constructor leaves: the default objects with keys of their own or from
`keys.bin`, and no others. -/
structure IsInitial (s : IOSC) : Prop where
  default : ∀ (i : Fin 32) (h : i.val < 12), (s.m_key_entries i).in_use = true ∧
    ((s.m_key_entries i).type, (s.m_key_entries i).subtype, (s.m_key_entries i).owner_mask) =
      defaultEntries.get ⟨i.val, h⟩ ∧
    (s.m_key_entries i).data.length = (s.m_key_entries i).fullSize
  free : ∀ i : Fin 32, 12 ≤ i.val →
    (s.m_key_entries i).in_use = false ∧ (s.m_key_entries i).data = []
  root : s.m_root_key_entry.type = .publicKey ∧ s.m_root_key_entry.subtype = .rsa4096 ∧
    s.m_root_key_entry.data.length = 512

end IOSC

end DolphinCore
