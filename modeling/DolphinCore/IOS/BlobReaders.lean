import DolphinCore.Common.NandPaths
import DolphinCore.IOS.Formats
import DolphinCore.Lib.FileImage

/-!
# DolphinCore.IOS.BlobReaders

The readers of `IOS/ES/Formats.cpp` again, with every access to the vector checked: what would be
read outside of it has no value.
-/

namespace DolphinCore.IOS

namespace Checked

/-! ## accesses -/

/-- Some bytes of a vector. -/
def readSlice (m_bytes : List Byte) (offset size : Nat) : Option (List Byte) :=
  if offset + size ≤ m_bytes.length then some ((m_bytes.drop offset).take size) else none

/-- `swap16`, `swap32` and `swap64` -/
def readSwapped (m_bytes : List Byte) (offset size : Nat) : Option Nat :=
  (readSlice m_bytes offset size).map Endian.fromBE

/-- A field of a structure that begins at an offset. -/
def readField (m_bytes : List Byte) (offset : Nat) (field : Extent) : Option (List Byte) :=
  readSlice m_bytes (offset + field.start) field.length

def readNumber (m_bytes : List Byte) (offset : Nat) (field : Extent) : Option Nat :=
  readSwapped m_bytes (offset + field.start) field.length

/-- A field of characters; `strnlen` may look at all of them. -/
def readString (m_bytes : List Byte) (offset : Nat) (field : Extent) : Option (List Byte) :=
  (readField m_bytes offset field).map fun bytes => bytes.takeWhile fun b => b ≠ 0

/-! ## signed blobs -/

inductive SignatureType
  | RSA4096
  | RSA2048
  | other
  deriving DecidableEq

def SignatureType.ofWord (n : Nat) : SignatureType :=
  if n = 0x00010000 then .RSA4096 else if n = 0x00010001 then .RSA2048 else .other

namespace SignatureRSA4096

def sig : Extent := ⟨4, 0x200⟩
def issuer : Extent := ⟨0x240, 0x40⟩
def size : Nat := 0x280

end SignatureRSA4096

namespace SignatureRSA2048

def sig : Extent := ⟨4, 0x100⟩
def issuer : Extent := ⟨0x140, 0x40⟩
def size : Nat := 0x180

end SignatureRSA2048

namespace SignedBlobReader

def getSignatureType (m_bytes : List Byte) : Option SignatureType :=
  (readSwapped m_bytes 0 4).map SignatureType.ofWord

def getSignatureSize (m_bytes : List Byte) : Option Nat :=
  (getSignatureType m_bytes).map fun
    | .RSA4096 => SignatureRSA4096.size
    | .RSA2048 => SignatureRSA2048.size
    | .other => 0

def isSignatureValid (m_bytes : List Byte) : Option Bool :=
  if m_bytes.length < 4 then some false
  else (getSignatureSize m_bytes).map fun signature_size =>
    !(signature_size = 0 || m_bytes.length < signature_size)

def getSignatureData (m_bytes : List Byte) : Option (List Byte) :=
  (getSignatureType m_bytes).bind fun
    | .RSA4096 => readField m_bytes 0 SignatureRSA4096.sig
    | .RSA2048 => readField m_bytes 0 SignatureRSA2048.sig
    | .other => some []

def getIssuer (m_bytes : List Byte) : Option (List Byte) :=
  (getSignatureType m_bytes).bind fun
    | .RSA4096 => readString m_bytes 0 SignatureRSA4096.issuer
    | .RSA2048 => readString m_bytes 0 SignatureRSA2048.issuer
    | .other => some []

end SignedBlobReader

/-! ## title metadata -/

namespace TMDHeader

def tmd_version : Extent := ⟨0x180, 1⟩
def ios_id : Extent := ⟨0x184, 8⟩
def title_id : Extent := ⟨0x18c, 8⟩
def title_flags : Extent := ⟨0x194, 4⟩
def group_id : Extent := ⟨0x198, 2⟩
def access_rights : Extent := ⟨0x1d8, 4⟩
def title_version : Extent := ⟨0x1dc, 2⟩
def num_contents : Extent := ⟨0x1de, 2⟩
def boot_index : Extent := ⟨0x1e0, 2⟩

end TMDHeader

namespace ContentEntry

def id : Extent := ⟨0, 4⟩
def index : Extent := ⟨4, 2⟩
def type : Extent := ⟨6, 2⟩
def size : Extent := ⟨8, 8⟩
def sha1 : Extent := ⟨16, 20⟩

end ContentEntry

def CONTENT_VIEW_SIZE : Nat := 0x10

namespace TMDReader

variable (m_bytes : List Byte)

def getBootIndex : Option Nat := readNumber m_bytes 0 TMDHeader.boot_index
def getIOSId : Option Nat := readNumber m_bytes 0 TMDHeader.ios_id
def getTitleId : Option Nat := readNumber m_bytes 0 TMDHeader.title_id
def getTitleFlags : Option Nat := readNumber m_bytes 0 TMDHeader.title_flags
def getTitleVersion : Option Nat := readNumber m_bytes 0 TMDHeader.title_version
def getGroupId : Option Nat := readNumber m_bytes 0 TMDHeader.group_id
def getNumContents : Option Nat := readNumber m_bytes 0 TMDHeader.num_contents

def isValid : Option Bool :=
  (SignedBlobReader.isSignatureValid m_bytes).bind fun valid =>
    if !valid then some false
    else if m_bytes.length < tmdHeaderSize then some false
    else (getNumContents m_bytes).map fun num_contents =>
      !(m_bytes.length < tmdHeaderSize + num_contents * contentSize)

def getRawView : Option (List Byte) := do
  let base ← readSlice m_bytes TMDHeader.tmd_version.start
    (TMDHeader.access_rights.start - TMDHeader.tmd_version.start)
  let version ← readField m_bytes 0 TMDHeader.title_version
  let num_contents ← readField m_bytes 0 TMDHeader.num_contents
  let n ← getNumContents m_bytes
  let views ← (List.range n).mapM fun i =>
    readSlice m_bytes (tmdHeaderSize + i * contentSize) CONTENT_VIEW_SIZE
  return base ++ version ++ num_contents ++ views.flatten

/-- `GetGameID`; the numbers of the title are there in case it has characters that are not
printable. -/
def getGameID : Option (List Byte) := do
  let title ← readSlice m_bytes (TMDHeader.title_id.start + 4) 4
  let group ← readField m_bytes 0 TMDHeader.group_id
  let game_id := title ++ group
  if game_id.all fun c => 0x20 ≤ c.toNat && c.toNat ≤ 0x7e then return game_id
  else
    let title_id ← getTitleId m_bytes
    return (List.range 16).map fun i => Common.hexDigit (title_id / 16 ^ (15 - i) % 16)

/-- `GetContent`, with a value where it returns true. -/
def getContent (index : Nat) : Option (Option Content) := do
  let n ← getNumContents m_bytes
  if n ≤ index then return none
  else
    let content_base := tmdHeaderSize + index * contentSize
    let id ← readNumber m_bytes content_base ContentEntry.id
    let index ← readNumber m_bytes content_base ContentEntry.index
    let type ← readNumber m_bytes content_base ContentEntry.type
    let size ← readNumber m_bytes content_base ContentEntry.size
    let sha1 ← readNumber m_bytes content_base ContentEntry.sha1
    return some ⟨BitVec.ofNat 32 id, BitVec.ofNat 16 index, BitVec.ofNat 16 type, size,
      BitVec.ofNat 160 sha1⟩

/-- `GetContents`; an entry of which `GetContent` returned false would be as it was built. -/
def getContents : Option (List (Option Content)) := do
  let n ← getNumContents m_bytes
  (List.range n).mapM fun i => getContent m_bytes i

/-- The loop of `FindContentById`, with so many indices to go. -/
def findContentFrom (id : BitVec 32) : Nat → Nat → Option (Option Content)
  | 0, _ => some none
  | n + 1, index => do
    match ← getContent m_bytes index with
    | none => return none
    | some content =>
      if content.id = id then return some content else findContentFrom id n (index + 1)

def findContentById (id : BitVec 32) : Option (Option Content) := do
  let n ← getNumContents m_bytes
  findContentFrom m_bytes id n 0

end TMDReader

/-! ## tickets -/

namespace Ticket

def version : Extent := ⟨0x1bc, 1⟩
def title_key : Extent := ⟨0x1bf, 0x10⟩
def ticket_id : Extent := ⟨0x1d0, 8⟩
def device_id : Extent := ⟨0x1d8, 4⟩
def title_id : Extent := ⟨0x1dc, 8⟩
def common_key_index : Extent := ⟨0x1f1, 1⟩

end Ticket

/-- `sizeof(TicketView)` -/
def ticketViewSize : Nat := 0xd8

namespace TicketReader

variable (m_bytes : List Byte)

def isValid : Option Bool :=
  (SignedBlobReader.isSignatureValid m_bytes).map fun valid =>
    valid && !m_bytes.isEmpty && m_bytes.length % ticketSize = 0

def getNumberOfTickets : Nat := m_bytes.length / ticketSize

/-- The loop of `GetRawTicket`, with so many tickets to go. -/
def getRawTicketFrom (ticket_id_to_find : Nat) : Nat → Nat → Option (List Byte)
  | 0, _ => some []
  | n + 1, i => do
    let ticket_id ← readNumber m_bytes (ticketSize * i) Ticket.ticket_id
    if ticket_id = ticket_id_to_find then readSlice m_bytes (ticketSize * i) ticketSize
    else getRawTicketFrom ticket_id_to_find n (i + 1)

def getRawTicket (ticket_id_to_find : Nat) : Option (List Byte) :=
  getRawTicketFrom m_bytes ticket_id_to_find (getNumberOfTickets m_bytes) 0

def getRawTicketView (ticket_num : Nat) : Option (List Byte) := do
  let version ← readField m_bytes 0 Ticket.version
  let view ← readSlice m_bytes (ticketSize * ticket_num + Ticket.ticket_id.start)
    (ticketViewSize - 4)
  return [0, 0, 0] ++ version ++ view

def getDeviceId : Option Nat := readNumber m_bytes 0 Ticket.device_id
def getTitleId : Option Nat := readNumber m_bytes 0 Ticket.title_id

/-- `GetTitleKey`; `decrypt` is given the initial vector, whether the key is the new common key,
and the encrypted key. -/
def getTitleKey {α : Type} (decrypt : List Byte → Bool → List Byte → α) : Option α := do
  let title_id ← readField m_bytes 0 Ticket.title_id
  let index ← readNumber m_bytes 0 Ticket.common_key_index
  let title_key ← readField m_bytes 0 Ticket.title_key
  return decrypt (title_id ++ List.replicate 8 0) (index = 1) title_key

/-- The loop of `DeleteTicket` -/
def keepTicket (ticket_id_to_delete : Nat) (new_ticket : List Byte) (i : Nat) :
    Option (List Byte) := do
  let ticket_id ← readNumber m_bytes (ticketSize * i) Ticket.ticket_id
  if ticket_id ≠ ticket_id_to_delete then
    let ticket ← readSlice m_bytes (ticketSize * i) ticketSize
    return new_ticket ++ ticket
  else return new_ticket

/-- `DeleteTicket`, which gives the bytes that are left. -/
def deleteTicket (ticket_id_to_delete : Nat) : Option (List Byte) :=
  (List.range (getNumberOfTickets m_bytes)).foldlM (keepTicket m_bytes ticket_id_to_delete) []

end TicketReader

/-! ## certificates -/

namespace CertHeader

def public_key_type : Extent := ⟨0, 4⟩
def name : Extent := ⟨4, 0x40⟩
def id : Extent := ⟨0x44, 4⟩
def size : Nat := 0x48

end CertHeader

/-- The key and the exponent behind it. -/
def publicKeySize : Nat := 0x100 + 4

def certRSA4096Size : Nat := 0x400
def certRSA2048Size : Nat := 0x300

structure CertReader where
  m_bytes : List Byte
  m_is_valid : Bool

namespace CertReader

/-- The part of the constructor that depends on the type. -/
def resize (bytes : List Byte) (size : Nat) : CertReader :=
  if bytes.length < size then ⟨bytes, false⟩ else ⟨bytes.take size, true⟩

/-- The constructor -/
def create (bytes : List Byte) : Option CertReader :=
  (SignedBlobReader.isSignatureValid bytes).bind fun valid =>
    if !valid then some ⟨bytes, false⟩
    else (SignedBlobReader.getSignatureType bytes).map fun
      | .RSA4096 => resize bytes certRSA4096Size
      | .RSA2048 => resize bytes certRSA2048Size
      | .other => ⟨bytes, false⟩

variable (m_bytes : List Byte)

def getId : Option Nat :=
  (SignedBlobReader.getSignatureSize m_bytes).bind fun size =>
    readNumber m_bytes size CertHeader.id

def getName : Option (List Byte) :=
  (SignedBlobReader.getSignatureSize m_bytes).bind fun size =>
    readString m_bytes size CertHeader.name

def getPublicKeyType : Option Nat :=
  (SignedBlobReader.getSignatureSize m_bytes).bind fun size =>
    readNumber m_bytes size CertHeader.public_key_type

/-- `GetPublicKey`; there is no key of another type. -/
def getPublicKey : Option (List Byte) :=
  (SignedBlobReader.getSignatureType m_bytes).bind fun
    | .RSA4096 => readSlice m_bytes (SignatureRSA4096.size + CertHeader.size) publicKeySize
    | .RSA2048 => readSlice m_bytes (SignatureRSA2048.size + CertHeader.size) publicKeySize
    | .other => none

end CertReader

/-- A map of certificates by their names. -/
abbrev CertMap := List (List Byte × CertReader)

/-- `emplace`, which keeps what there is. -/
def CertMap.emplace (certs : CertMap) (name : List Byte) (cert_reader : CertReader) : CertMap :=
  if (certs.lookup name).isSome then certs else certs ++ [(name, cert_reader)]

/-- The loop of `ParseCertChain`; without a value also when it goes on for more rounds. -/
def parseCertChainFrom (chain : List Byte) : Nat → Nat → CertMap → Option CertMap
  | 0, _, _ => none
  | rounds + 1, processed, certs =>
    if processed = chain.length then some certs
    else do
      let rest ← readSlice chain processed (chain.length - processed)
      let cert_reader ← CertReader.create rest
      if !cert_reader.m_is_valid then return certs
      else
        let name ← CertReader.getName cert_reader.m_bytes
        parseCertChainFrom chain rounds (processed + cert_reader.m_bytes.length)
          (certs.emplace name cert_reader)

def parseCertChain (rounds : Nat) (chain : List Byte) : Option CertMap :=
  parseCertChainFrom chain rounds 0 []

end Checked

end DolphinCore.IOS
