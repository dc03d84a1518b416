import DolphinCore.Lib.Endian

/-!
# DolphinCore.IOS.Formats

Title metadata, tickets and certificates, as `IOS/ES/Formats.cpp` reads them: a reader holds the bytes of a
signed blob, and its fields are big-endian numbers at fixed places.
-/

namespace DolphinCore.IOS

/-- `swap16`, `swap32` and `swap64` of the bytes at an offset. -/
def swapAt (bytes : List Byte) (offset size : Nat) : Nat :=
  Endian.fromBE ((bytes.drop offset).take size)

/-! ## signed blobs -/

def getSignatureSize (bytes : List Byte) : Nat :=
  if swapAt bytes 0 4 = 0x00010000 then 0x280
  else if swapAt bytes 0 4 = 0x00010001 then 0x180
  else 0

def isSignatureValid (bytes : List Byte) : Bool :=
  4 ≤ bytes.length && getSignatureSize bytes ≠ 0 && getSignatureSize bytes ≤ bytes.length

def getSignatureData (blob : List Byte) : List Byte :=
  (blob.drop 4).take (if swapAt blob 0 4 = 0x00010000 then 0x200 else 0x100)

/-- A string in a field of 64 characters. -/
def stringAt (bytes : List Byte) (offset : Nat) : List Byte :=
  ((bytes.drop offset).take 0x40).takeWhile fun b => b ≠ 0

/-- `GetIssuer`, which is the last field of the signature -/
def getIssuer (blob : List Byte) : List Byte := stringAt blob (getSignatureSize blob - 0x40)

/-- `SplitString`; nothing comes after a delimiter at the end. -/
def splitString (str : List Byte) (delim : Byte) : List (List Byte) :=
  let output := str.splitOn delim
  if output.getLast? = some [] then output.dropLast else output

/-! ## certificates -/

/-- `sizeof(CertRSA4096)` or `sizeof(CertRSA2048)` -/
def certFullSize (bytes : List Byte) : Nat :=
  if swapAt bytes 0 4 = 0x00010000 then 0x400 else 0x300

/-- The size of the certificate that the bytes begin with, as `CertReader` finds it -/
def certSize (bytes : List Byte) : Option Nat :=
  if !isSignatureValid bytes then none
  else if bytes.length < certFullSize bytes then none
  else some (certFullSize bytes)

/-- `CertReader::GetName` -/
def certName (cert : List Byte) : List Byte := stringAt cert (getSignatureSize cert + 4)

/-- `ParseCertChain`, for as many certificates -/
def parseCerts : Nat → List Byte → List (List Byte)
  | 0, _ => []
  | n + 1, chain =>
    match certSize chain with
    | none => []
    | some size => chain.take size :: parseCerts n (chain.drop size)

/-- A certificate of a chain, which is the first of its name. -/
def findCert (chain name : List Byte) : Option (List Byte) :=
  (parseCerts chain.length chain).find? fun cert => certName cert = name

theorem certSize_append {bytes more : List Byte} {size : Nat} (h : certSize bytes = some size) :
    certSize (bytes ++ more) = some size ∧ size ≤ bytes.length := by
  have hfour : 4 ≤ bytes.length := by
    unfold certSize isSignatureValid at h
    by_contra hlt
    simp [hlt] at h
  have hswap : swapAt (bytes ++ more) 0 4 = swapAt bytes 0 4 := by
    unfold swapAt
    rw [List.drop_zero, List.drop_zero, List.take_append_of_le_length hfour]
  have hsig : getSignatureSize (bytes ++ more) = getSignatureSize bytes := by
    unfold getSignatureSize
    rw [hswap]
  have hfull : certFullSize (bytes ++ more) = certFullSize bytes := by
    unfold certFullSize
    rw [hswap]
  unfold certSize at h ⊢
  rw [Option.ite_none_left_eq_some, Option.ite_none_left_eq_some, Option.some.injEq] at h
  obtain ⟨hvalid, hlong, rfl⟩ := h
  rw [Bool.not_eq_true', Bool.not_eq_false] at hvalid
  have hvalid' : isSignatureValid (bytes ++ more) = true := by
    unfold isSignatureValid at hvalid ⊢
    simp only [Bool.and_eq_true, decide_eq_true_eq, hsig, List.length_append] at hvalid ⊢
    exact ⟨⟨by omega, hvalid.1.2⟩, by omega⟩
  refine ⟨?_, by omega⟩
  rw [hvalid', hfull, if_neg (by decide), if_neg]
  rw [List.length_append]
  omega

theorem parseCerts_append (more : List Byte) : (n : Nat) → {m : Nat} → n ≤ m →
    (chain : List Byte) → parseCerts n chain <+: parseCerts m (chain ++ more)
  | 0, _, _, _ => List.nil_prefix
  | n + 1, 0, hnm, _ => by omega
  | n + 1, m + 1, hnm, chain => by
    rw [parseCerts, parseCerts]
    cases hsize : certSize chain with
    | none => exact List.nil_prefix
    | some size =>
      obtain ⟨hmore, hle⟩ := certSize_append hsize
      rw [hmore]
      simp only
      rw [List.take_append_of_le_length hle, List.drop_append_of_le_length hle]
      exact (List.prefix_cons_inj _).mpr (parseCerts_append more n (by omega) _)

theorem findCert_append {chain name cert : List Byte} (h : findCert chain name = some cert)
    (more : List Byte) : findCert (chain ++ more) name = some cert := by
  refine (parseCerts_append more chain.length ?_ chain).find?_eq_some h
  rw [List.length_append]
  omega

/-! ## contents -/

/-- `Content`; the hash is one number. -/
structure Content where
  id : BitVec 32
  index : BitVec 16
  type : BitVec 16
  size : Nat
  sha1 : BitVec 160
deriving DecidableEq

def Content.isShared (content : Content) : Bool := content.type &&& 0x8000 ≠ 0

def Content.isOptional (content : Content) : Bool := content.type &&& 0x4000 ≠ 0

/-! ## title metadata -/

/-- `sizeof(TMDHeader)` -/
def tmdHeaderSize : Nat := 0x1e4

/-- `sizeof(Content)` -/
def contentSize : Nat := 36

structure TMDReader where
  m_bytes : List Byte
deriving DecidableEq

namespace TMDReader

/-- A reader without bytes. -/
def empty : TMDReader := ⟨[]⟩

def getNumContents (tmd : TMDReader) : Nat := swapAt tmd.m_bytes 0x1de 2

def isValid (tmd : TMDReader) : Bool :=
  isSignatureValid tmd.m_bytes && tmdHeaderSize ≤ tmd.m_bytes.length &&
    tmdHeaderSize + tmd.getNumContents * contentSize ≤ tmd.m_bytes.length

def getTitleId (tmd : TMDReader) : BitVec 64 := BitVec.ofNat 64 (swapAt tmd.m_bytes 0x18c 8)

def getTitleFlags (tmd : TMDReader) : BitVec 32 := BitVec.ofNat 32 (swapAt tmd.m_bytes 0x194 4)

/-- `GetContent` of an index in range -/
def contentAt (tmd : TMDReader) (index : Nat) : Content :=
  let base := tmdHeaderSize + index * contentSize
  { id := BitVec.ofNat 32 (swapAt tmd.m_bytes base 4)
    index := BitVec.ofNat 16 (swapAt tmd.m_bytes (base + 4) 2)
    type := BitVec.ofNat 16 (swapAt tmd.m_bytes (base + 6) 2)
    size := swapAt tmd.m_bytes (base + 8) 8
    sha1 := BitVec.ofNat 160 (swapAt tmd.m_bytes (base + 16) 20) }

def getContents (tmd : TMDReader) : List Content :=
  (List.range tmd.getNumContents).map tmd.contentAt

def findContentById (tmd : TMDReader) (id : BitVec 32) : Option Content :=
  tmd.getContents.find? fun content => content.id = id

theorem of_findContentById {tmd : TMDReader} {id : BitVec 32} {content : Content}
    (h : tmd.findContentById id = some content) : content ∈ tmd.getContents ∧ content.id = id := by
  exact ⟨List.mem_of_find?_eq_some h, by simpa using List.find?_some h⟩

end TMDReader

def isValidTMDSize (size : Nat) : Bool := size ≤ 0x49e4

/-! ## tickets -/

/-- `sizeof(Ticket)` -/
def ticketSize : Nat := 0x2a4

structure TicketReader where
  m_bytes : List Byte
deriving DecidableEq

namespace TicketReader

def isValid (ticket : TicketReader) : Bool :=
  isSignatureValid ticket.m_bytes && !ticket.m_bytes.isEmpty &&
    ticket.m_bytes.length % ticketSize = 0

/-- The field `title_id`, as bytes. -/
def titleIdBytes (ticket : TicketReader) : List Byte := (ticket.m_bytes.drop 0x1dc).take 8

def commonKeyIndex (ticket : TicketReader) : Nat := swapAt ticket.m_bytes 0x1f1 1

def titleKey (ticket : TicketReader) : List Byte := (ticket.m_bytes.drop 0x1bf).take 16

end TicketReader

end DolphinCore.IOS
