import DolphinCore.IOS.BlobReaders
import Mathlib.Tactic.ByContra

/-!
# DolphinCore.IOS.BlobBounds

A title's metadata, a ticket or a certificate that is valid is read inside of its bytes only, and
the readers give what `IOS.Formats` says that is there.
-/

namespace DolphinCore.IOS

namespace Checked

/-! ## accesses -/

section Accesses

variable {bytes : List Byte} {offset size : Nat} {field : Extent}

theorem readSlice_of_le (h : offset + size ≤ bytes.length) :
    readSlice bytes offset size = some ((bytes.drop offset).take size) := if_pos h

theorem readField_of_le (h : offset + field.start + field.length ≤ bytes.length) :
    readField bytes offset field =
      some ((bytes.drop (offset + field.start)).take field.length) := if_pos h

theorem readSwapped_of_le (h : offset + size ≤ bytes.length) :
    readSwapped bytes offset size = some (swapAt bytes offset size) := by
  unfold readSwapped
  rw [readSlice_of_le h]
  rfl

theorem readNumber_of_le (h : offset + field.start + field.length ≤ bytes.length) :
    readNumber bytes offset field =
      some (swapAt bytes (offset + field.start) field.length) := readSwapped_of_le h

theorem readString_of_le (h : offset + field.start + field.length ≤ bytes.length) :
    readString bytes offset field = some (((bytes.drop (offset + field.start)).take
      field.length).takeWhile fun b => b ≠ 0) := by
  unfold readString
  rw [readField_of_le h]
  rfl

theorem isSome_readSlice (h : offset + size ≤ bytes.length) :
    (readSlice bytes offset size).isSome := by rw [readSlice_of_le h]; rfl

theorem isSome_readField (h : offset + field.start + field.length ≤ bytes.length) :
    (readField bytes offset field).isSome := isSome_readSlice h

theorem isSome_readNumber (h : offset + field.start + field.length ≤ bytes.length) :
    (readNumber bytes offset field).isSome := by rw [readNumber_of_le h]; rfl

theorem isSome_readString (h : offset + field.start + field.length ≤ bytes.length) :
    (readString bytes offset field).isSome := by rw [readString_of_le h]; rfl

theorem swapAt_slice {at' n : Nat} (h : at' + n ≤ size) :
    swapAt ((bytes.drop offset).take size) at' n = swapAt bytes (offset + at') n := by
  unfold swapAt
  rw [List.drop_take, List.take_take, List.drop_drop, Nat.min_eq_left (by omega)]

theorem mapM_eq_some {α β : Type} {f : α → Option β} {g : α → β} {l : List α}
    (h : ∀ a ∈ l, f a = some (g a)) : l.mapM f = some (l.map g) := by
  induction l with
  | nil => rfl
  | cons a l ih =>
    rw [List.mapM_cons, h a List.mem_cons_self, ih fun a ha => h a (List.mem_cons_of_mem _ ha)]
    rfl

end Accesses

/-! ## signed blobs -/

section Signature

variable {bytes : List Byte}

theorem getSignatureType_of_le (h : 4 ≤ bytes.length) :
    SignedBlobReader.getSignatureType bytes = some (SignatureType.ofWord (swapAt bytes 0 4)) := by
  unfold SignedBlobReader.getSignatureType
  rw [readSwapped_of_le h]
  rfl

theorem getSignatureSize_of_le (h : 4 ≤ bytes.length) :
    SignedBlobReader.getSignatureSize bytes = some (IOS.getSignatureSize bytes) := by
  unfold SignedBlobReader.getSignatureSize IOS.getSignatureSize
  rw [getSignatureType_of_le h, Option.map_some]
  unfold SignatureType.ofWord
  by_cases h4096 : swapAt bytes 0 4 = 0x00010000
  · rw [if_pos h4096, if_pos h4096]
    rfl
  · rw [if_neg h4096, if_neg h4096]
    by_cases h2048 : swapAt bytes 0 4 = 0x00010001
    · rw [if_pos h2048, if_pos h2048]
      rfl
    · rw [if_neg h2048, if_neg h2048]

theorem isSignatureValid_eq (bytes : List Byte) :
    SignedBlobReader.isSignatureValid bytes = some (IOS.isSignatureValid bytes) := by
  unfold SignedBlobReader.isSignatureValid IOS.isSignatureValid
  by_cases h : bytes.length < 4
  · rw [if_pos h, decide_eq_false (by omega : ¬ 4 ≤ bytes.length)]
    rfl
  · rw [if_neg h, getSignatureSize_of_le (by omega), Option.map_some,
      decide_eq_true (by omega : 4 ≤ bytes.length)]
    simp only [Bool.not_or, ← decide_not, Nat.not_lt, Bool.true_and, ne_eq]

theorem signature_cases (h : IOS.isSignatureValid bytes = true) :
    (SignedBlobReader.getSignatureType bytes = some .RSA4096 ∧
      SignedBlobReader.getSignatureSize bytes = some 0x280 ∧ swapAt bytes 0 4 = 0x00010000 ∧
      0x280 ≤ bytes.length) ∨
    (SignedBlobReader.getSignatureType bytes = some .RSA2048 ∧
      SignedBlobReader.getSignatureSize bytes = some 0x180 ∧ swapAt bytes 0 4 ≠ 0x00010000 ∧
      0x180 ≤ bytes.length) := by
  unfold IOS.isSignatureValid at h
  simp only [Bool.and_eq_true, decide_eq_true_eq] at h
  obtain ⟨⟨hfour, hne⟩, hsize⟩ := h
  have htype := getSignatureType_of_le hfour
  have hsig := getSignatureSize_of_le hfour
  unfold SignatureType.ofWord at htype
  unfold IOS.getSignatureSize at hne hsize hsig
  by_cases h4096 : swapAt bytes 0 4 = 0x00010000
  · rw [if_pos h4096] at htype hsize hsig
    exact .inl ⟨htype, hsig, h4096, hsize⟩
  · rw [if_neg h4096] at htype hne hsize hsig
    by_cases h2048 : swapAt bytes 0 4 = 0x00010001
    · rw [if_pos h2048] at htype hsize hsig
      exact .inr ⟨htype, hsig, h4096, hsize⟩
    · rw [if_neg h2048] at hne
      exact absurd rfl hne

/-- The reads of the signature stay inside. -/
structure SignatureInBounds (bytes : List Byte) : Prop where
  getSignatureType : (SignedBlobReader.getSignatureType bytes).isSome
  getSignatureSize : (SignedBlobReader.getSignatureSize bytes).isSome
  getSignatureData : (SignedBlobReader.getSignatureData bytes).isSome
  getIssuer : (SignedBlobReader.getIssuer bytes).isSome

theorem signatureInBounds (h : IOS.isSignatureValid bytes = true) : SignatureInBounds bytes := by
  obtain ⟨htype, hsig, -, hlen⟩ | ⟨htype, hsig, -, hlen⟩ := signature_cases h
  · refine ⟨by rw [htype]; rfl, by rw [hsig]; rfl, ?_, ?_⟩
    · unfold SignedBlobReader.getSignatureData
      rw [htype]
      exact isSome_readField (Nat.le_trans (by decide) hlen)
    · unfold SignedBlobReader.getIssuer
      rw [htype]
      exact isSome_readString (Nat.le_trans (by decide) hlen)
  · refine ⟨by rw [htype]; rfl, by rw [hsig]; rfl, ?_, ?_⟩
    · unfold SignedBlobReader.getSignatureData
      rw [htype]
      exact isSome_readField (Nat.le_trans (by decide) hlen)
    · unfold SignedBlobReader.getIssuer
      rw [htype]
      exact isSome_readString (Nat.le_trans (by decide) hlen)

end Signature

/-! ## title metadata -/

/-- The reads of a title's metadata stay inside. -/
structure TMDInBounds (bytes : List Byte) : Prop extends SignatureInBounds bytes where
  getBootIndex : (TMDReader.getBootIndex bytes).isSome
  getIOSId : (TMDReader.getIOSId bytes).isSome
  getTitleId : (TMDReader.getTitleId bytes).isSome
  getTitleFlags : (TMDReader.getTitleFlags bytes).isSome
  getTitleVersion : (TMDReader.getTitleVersion bytes).isSome
  getGroupId : (TMDReader.getGroupId bytes).isSome
  getNumContents : (TMDReader.getNumContents bytes).isSome
  getGameID : (TMDReader.getGameID bytes).isSome
  getRawView : (TMDReader.getRawView bytes).isSome
  getContent : ∀ index, (TMDReader.getContent bytes index).isSome
  getContents : (TMDReader.getContents bytes).isSome
  findContentById : ∀ id, (TMDReader.findContentById bytes id).isSome

section TMD

variable {bytes : List Byte}

theorem tmd_isValid_eq (bytes : List Byte) :
    TMDReader.isValid bytes = some (IOS.TMDReader.isValid ⟨bytes⟩) := by
  unfold TMDReader.isValid IOS.TMDReader.isValid
  rw [isSignatureValid_eq, Option.bind_some]
  cases IOS.isSignatureValid bytes with
  | false => rfl
  | true =>
    by_cases h : bytes.length < tmdHeaderSize
    · rw [if_neg (by decide), if_pos h, decide_eq_false (by omega : ¬ tmdHeaderSize ≤ bytes.length)]
      rfl
    · have hnum : TMDReader.getNumContents bytes = some (IOS.TMDReader.getNumContents ⟨bytes⟩) :=
        readNumber_of_le (Nat.le_trans (by decide) (Nat.le_of_not_lt h))
      rw [if_neg (by decide), if_neg h, hnum, Option.map_some,
        decide_eq_true (by omega : tmdHeaderSize ≤ bytes.length), ← decide_not]
      simp only [Nat.not_lt, Bool.true_and]

/-- Metadata without contents. -/
example : TMDReader.isValid ([0, 1, 0, 1] ++ List.replicate 0x1e0 0) = some true := by
  decide +kernel

/-- The header and the contents of metadata that is valid. -/
structure TMDFits (bytes : List Byte) : Prop where
  signature : IOS.isSignatureValid bytes = true
  header : tmdHeaderSize ≤ bytes.length
  contents : tmdHeaderSize + IOS.TMDReader.getNumContents ⟨bytes⟩ * contentSize ≤ bytes.length

theorem TMDFits.of_isValid (h : TMDReader.isValid bytes = some true) : TMDFits bytes := by
  rw [tmd_isValid_eq] at h
  have h := Option.some.inj h
  unfold IOS.TMDReader.isValid at h
  simp only [Bool.and_eq_true, decide_eq_true_eq] at h
  exact ⟨h.1.1, h.1.2, h.2⟩

namespace TMDFits

variable (h : TMDFits bytes)

include h

theorem isSome_header {field : Extent} (hfield : field.start + field.length ≤ tmdHeaderSize) :
    (readNumber bytes 0 field).isSome :=
  isSome_readNumber (by have := h.header; omega)

theorem getNumContents_eq :
    TMDReader.getNumContents bytes = some (IOS.TMDReader.getNumContents ⟨bytes⟩) :=
  readNumber_of_le (Nat.le_trans (by decide) h.header)

theorem entry_le {index n : Nat} (hindex : index < IOS.TMDReader.getNumContents ⟨bytes⟩)
    (hn : n ≤ contentSize) : tmdHeaderSize + index * contentSize + n ≤ bytes.length := by
  have hle := Nat.mul_le_mul_right contentSize (Nat.succ_le_of_lt hindex)
  have := h.contents
  rw [Nat.succ_mul] at hle
  omega

theorem getContent_eq {index : Nat} (hindex : index < IOS.TMDReader.getNumContents ⟨bytes⟩) :
    TMDReader.getContent bytes index = some (some (IOS.TMDReader.contentAt ⟨bytes⟩ index)) := by
  have hfield (field : Extent) (hfield : field.start + field.length ≤ contentSize) :
      readNumber bytes (tmdHeaderSize + index * contentSize) field =
        some (swapAt bytes (tmdHeaderSize + index * contentSize + field.start) field.length) :=
    readNumber_of_le (by have := h.entry_le hindex hfield; omega)
  unfold TMDReader.getContent
  rw [h.getNumContents_eq, Option.bind_eq_bind, Option.bind_some, if_neg (by omega)]
  dsimp only
  rw [hfield ContentEntry.id (by decide), hfield ContentEntry.index (by decide),
    hfield ContentEntry.type (by decide), hfield ContentEntry.size (by decide),
    hfield ContentEntry.sha1 (by decide)]
  rfl

theorem getContents_eq : TMDReader.getContents bytes =
    some ((IOS.TMDReader.getContents ⟨bytes⟩).map some) := by
  unfold TMDReader.getContents IOS.TMDReader.getContents
  rw [h.getNumContents_eq, Option.bind_eq_bind, Option.bind_some,
    mapM_eq_some (fun i hi => h.getContent_eq (List.mem_range.mp hi)), List.map_map]
  rfl

theorem findContentFrom_eq (id : BitVec 32) (n index : Nat)
    (hindex : index + n ≤ IOS.TMDReader.getNumContents ⟨bytes⟩) :
    TMDReader.findContentFrom bytes id n index =
      some (((List.range' index n).map (IOS.TMDReader.contentAt ⟨bytes⟩)).find?
        fun content => content.id = id) := by
  induction n generalizing index with
  | zero => rfl
  | succ n ih =>
    rw [TMDReader.findContentFrom, h.getContent_eq (by omega), List.range'_succ, List.map_cons,
      List.find?_cons, ih (index + 1) (by omega), Option.bind_eq_bind, Option.bind_some]
    by_cases hid : (IOS.TMDReader.contentAt ⟨bytes⟩ index).id = id
    · simp only [hid, if_true, decide_true]
      rfl
    · simp only [hid, if_false, decide_false]

theorem findContentById_eq (id : BitVec 32) : TMDReader.findContentById bytes id =
    some (IOS.TMDReader.findContentById ⟨bytes⟩ id) := by
  unfold TMDReader.findContentById IOS.TMDReader.findContentById IOS.TMDReader.getContents
  rw [h.getNumContents_eq, Option.bind_eq_bind, Option.bind_some,
    h.findContentFrom_eq id _ 0 (by omega), List.range_eq_range']

theorem isSome_getRawView : (TMDReader.getRawView bytes).isSome := by
  have hbase : TMDHeader.tmd_version.start +
      (TMDHeader.access_rights.start - TMDHeader.tmd_version.start) ≤ bytes.length :=
    Nat.le_trans (by decide) h.header
  have hfield (field : Extent) (hfield : field.start + field.length ≤ tmdHeaderSize) :
      readField bytes 0 field = some ((bytes.drop (0 + field.start)).take field.length) :=
    readField_of_le (by have := h.header; omega)
  have hviews := mapM_eq_some (l := List.range (IOS.TMDReader.getNumContents ⟨bytes⟩))
    fun i hi => readSlice_of_le (h.entry_le (List.mem_range.mp hi)
      (by decide : CONTENT_VIEW_SIZE ≤ contentSize))
  unfold TMDReader.getRawView
  simp only [Option.bind_eq_bind]
  rw [readSlice_of_le hbase, hfield TMDHeader.title_version (by decide),
    hfield TMDHeader.num_contents (by decide), h.getNumContents_eq]
  simp only [Option.bind_some, hviews]
  rfl

theorem isSome_getGameID : (TMDReader.getGameID bytes).isSome := by
  have htitle : TMDHeader.title_id.start + 4 + 4 ≤ bytes.length :=
    Nat.le_trans (by decide) h.header
  have hgroup : 0 + TMDHeader.group_id.start + TMDHeader.group_id.length ≤ bytes.length :=
    Nat.le_trans (by decide) h.header
  have hid : 0 + TMDHeader.title_id.start + TMDHeader.title_id.length ≤ bytes.length :=
    Nat.le_trans (by decide) h.header
  unfold TMDReader.getGameID TMDReader.getTitleId
  rw [readSlice_of_le htitle, readField_of_le hgroup, readNumber_of_le hid]
  simp only [Option.bind_eq_bind, Option.bind_some]
  split <;> rfl

theorem inBounds : TMDInBounds bytes where
  toSignatureInBounds := signatureInBounds h.signature
  getBootIndex := h.isSome_header (by decide)
  getIOSId := h.isSome_header (by decide)
  getTitleId := h.isSome_header (by decide)
  getTitleFlags := h.isSome_header (by decide)
  getTitleVersion := h.isSome_header (by decide)
  getGroupId := h.isSome_header (by decide)
  getNumContents := h.isSome_header (by decide)
  getGameID := h.isSome_getGameID
  getRawView := h.isSome_getRawView
  getContent index := by
    by_cases hindex : index < IOS.TMDReader.getNumContents ⟨bytes⟩
    · rw [h.getContent_eq hindex]
      rfl
    · unfold TMDReader.getContent
      rw [h.getNumContents_eq, Option.bind_eq_bind, Option.bind_some, if_pos (by omega)]
      rfl
  getContents := by rw [h.getContents_eq]; rfl
  findContentById id := by rw [h.findContentById_eq id]; rfl

end TMDFits

end TMD

/-! ## tickets -/

/-- A ticket of the bytes, and its number. -/
def ticketAt (bytes : List Byte) (i : Nat) : List Byte :=
  (bytes.drop (ticketSize * i)).take ticketSize

def ticketId (ticket : List Byte) : Nat :=
  swapAt ticket Ticket.ticket_id.start Ticket.ticket_id.length

/-- The tickets of the bytes. -/
def tickets (bytes : List Byte) : List (List Byte) :=
  (List.range (TicketReader.getNumberOfTickets bytes)).map (ticketAt bytes)

/-- The reads of tickets stay inside. -/
structure TicketInBounds (bytes : List Byte) : Prop extends SignatureInBounds bytes where
  getRawTicket : ∀ id, (TicketReader.getRawTicket bytes id).isSome
  getRawTicketView : ∀ i, i < TicketReader.getNumberOfTickets bytes →
    (TicketReader.getRawTicketView bytes i).isSome
  getDeviceId : (TicketReader.getDeviceId bytes).isSome
  getTitleId : (TicketReader.getTitleId bytes).isSome
  getTitleKey : ∀ decrypt : List Byte → Bool → List Byte → List Byte,
    (TicketReader.getTitleKey bytes decrypt).isSome
  deleteTicket : ∀ id, (TicketReader.deleteTicket bytes id).isSome

section Tickets

variable {bytes : List Byte}

theorem ticket_isValid_eq (bytes : List Byte) :
    TicketReader.isValid bytes = some (IOS.TicketReader.isValid ⟨bytes⟩) := by
  unfold TicketReader.isValid
  rw [isSignatureValid_eq]
  rfl

theorem ticket_le {i : Nat} (hi : i < TicketReader.getNumberOfTickets bytes) :
    ticketSize * i + ticketSize ≤ bytes.length := by
  have hle := Nat.mul_le_mul_left ticketSize (Nat.succ_le_of_lt hi)
  have hdiv := Nat.mul_div_le bytes.length ticketSize
  rw [Nat.mul_succ] at hle
  unfold TicketReader.getNumberOfTickets at hle
  omega

theorem readTicket_eq {i : Nat} (hi : i < TicketReader.getNumberOfTickets bytes) :
    readSlice bytes (ticketSize * i) ticketSize = some (ticketAt bytes i) :=
  readSlice_of_le (ticket_le hi)

theorem readTicketId_eq {i : Nat} (hi : i < TicketReader.getNumberOfTickets bytes) :
    readNumber bytes (ticketSize * i) Ticket.ticket_id = some (ticketId (ticketAt bytes i)) := by
  have hfield : Ticket.ticket_id.start + Ticket.ticket_id.length ≤ ticketSize := by decide
  have hle := ticket_le hi
  rw [readNumber_of_le (by omega)]
  exact congrArg some (swapAt_slice hfield).symm

theorem getRawTicketFrom_eq (id n i : Nat)
    (hi : i + n ≤ TicketReader.getNumberOfTickets bytes) :
    TicketReader.getRawTicketFrom bytes id n i =
      some ((((List.range' i n).map (ticketAt bytes)).find?
        fun ticket => ticketId ticket = id).getD []) := by
  induction n generalizing i with
  | zero => rfl
  | succ n ih =>
    rw [TicketReader.getRawTicketFrom, readTicketId_eq (by omega), List.range'_succ, List.map_cons,
      List.find?_cons, ih (i + 1) (by omega), readTicket_eq (by omega), Option.bind_eq_bind,
      Option.bind_some]
    by_cases hid : ticketId (ticketAt bytes i) = id
    · simp only [hid, if_true, decide_true, Option.getD_some]
    · simp only [hid, if_false, decide_false]

theorem getRawTicket_eq (bytes : List Byte) (id : Nat) : TicketReader.getRawTicket bytes id =
    some (((tickets bytes).find? fun ticket => ticketId ticket = id).getD []) := by
  unfold TicketReader.getRawTicket tickets
  rw [getRawTicketFrom_eq id _ 0 (by omega), List.range_eq_range']

theorem keepTickets_eq (id : Nat) (l : List Nat)
    (hl : ∀ i ∈ l, i < TicketReader.getNumberOfTickets bytes) (new_ticket : List Byte) :
    l.foldlM (TicketReader.keepTicket bytes id) new_ticket = some (new_ticket ++
        ((l.map (ticketAt bytes)).filter fun ticket => ticketId ticket ≠ id).flatten) := by
  induction l generalizing new_ticket with
  | nil => simp only [List.foldlM_nil, List.map_nil, List.filter_nil, List.flatten_nil,
      List.append_nil]; rfl
  | cons i l ih =>
    have hi := hl i List.mem_cons_self
    have hrest := ih fun i hi => hl i (List.mem_cons_of_mem _ hi)
    have hkeep : TicketReader.keepTicket bytes id new_ticket i =
        some (if ticketId (ticketAt bytes i) ≠ id then new_ticket ++ ticketAt bytes i
          else new_ticket) := by
      unfold TicketReader.keepTicket
      rw [readTicketId_eq hi, readTicket_eq hi, Option.bind_eq_bind, Option.bind_some]
      split <;> rfl
    rw [List.foldlM_cons, hkeep, Option.bind_eq_bind, Option.bind_some, hrest, List.map_cons,
      List.filter_cons]
    by_cases hid : ticketId (ticketAt bytes i) = id
    · simp only [hid, ne_eq, not_true_eq_false, if_false, decide_false, Bool.false_eq_true]
    · simp only [hid, ne_eq, not_false_eq_true, if_true, decide_true, List.flatten_cons,
        List.append_assoc]

theorem deleteTicket_eq (bytes : List Byte) (id : Nat) : TicketReader.deleteTicket bytes id =
    some ((tickets bytes).filter fun ticket => ticketId ticket ≠ id).flatten := by
  unfold TicketReader.deleteTicket tickets
  rw [keepTickets_eq id _ (fun i hi => List.mem_range.mp hi), List.nil_append]

theorem length_of_mem_tickets {ticket : List Byte} (h : ticket ∈ tickets bytes) :
    ticket.length = ticketSize := by
  obtain ⟨i, hi, rfl⟩ := List.mem_map.mp h
  have hle := ticket_le (List.mem_range.mp hi)
  unfold ticketAt
  rw [List.length_take, List.length_drop]
  omega

theorem tickets_append {ticket : List Byte} (h : ticket.length = ticketSize) (rest : List Byte) :
    tickets (ticket ++ rest) = ticket :: tickets rest := by
  have hnum : TicketReader.getNumberOfTickets (ticket ++ rest) =
      TicketReader.getNumberOfTickets rest + 1 := by
    unfold TicketReader.getNumberOfTickets
    rw [List.length_append, h, Nat.add_comm, Nat.add_div_right _ (by decide)]
  have hzero : ticketAt (ticket ++ rest) 0 = ticket := by
    unfold ticketAt
    rw [Nat.mul_zero, List.drop_zero, ← h, List.take_left]
  have hsucc (i : Nat) : ticketAt (ticket ++ rest) (i + 1) = ticketAt rest i := by
    have hdrop : (ticket ++ rest).drop ticketSize = rest := by rw [← h, List.drop_left]
    unfold ticketAt
    rw [Nat.mul_succ, Nat.add_comm, ← List.drop_drop, hdrop]
  unfold tickets
  rw [hnum, List.range_succ_eq_map, List.map_cons, hzero, List.map_map]
  exact congrArg (ticket :: ·) (List.map_congr_left fun i _ => hsucc i)

theorem tickets_flatten {l : List (List Byte)} (h : ∀ ticket ∈ l, ticket.length = ticketSize) :
    tickets l.flatten = l := by
  induction l with
  | nil => rfl
  | cons ticket l ih =>
    rw [List.flatten_cons, tickets_append (h ticket List.mem_cons_self),
      ih fun ticket ht => h ticket (List.mem_cons_of_mem _ ht)]

theorem deleteTicket_tickets (bytes : List Byte) (id : Nat) :
    ∃ left, TicketReader.deleteTicket bytes id = some left ∧
      tickets left = (tickets bytes).filter fun ticket => ticketId ticket ≠ id :=
  ⟨_, deleteTicket_eq bytes id,
    tickets_flatten fun _ ht => length_of_mem_tickets (List.mem_of_mem_filter ht)⟩

theorem ticketInBounds (h : TicketReader.isValid bytes = some true) : TicketInBounds bytes := by
  rw [ticket_isValid_eq] at h
  have h := Option.some.inj h
  unfold IOS.TicketReader.isValid at h
  simp only [Bool.and_eq_true, decide_eq_true_eq, Bool.not_eq_true', List.isEmpty_eq_false_iff] at h
  obtain ⟨⟨hsignature, hne⟩, hmod⟩ := h
  have hlen : ticketSize ≤ bytes.length :=
    Nat.le_of_dvd (List.length_pos_iff.mpr hne) (Nat.dvd_of_mod_eq_zero hmod)
  refine ⟨signatureInBounds hsignature, fun id => ?_, fun i hi => ?_, ?_, ?_, fun decrypt => ?_,
    fun id => ?_⟩
  · rw [getRawTicket_eq]
    rfl
  · have hle := ticket_le hi
    have hview : Ticket.ticket_id.start + (ticketViewSize - 4) ≤ ticketSize := by decide
    have hversion : 0 + Ticket.version.start + Ticket.version.length ≤ bytes.length :=
      Nat.le_trans (by decide) hlen
    unfold TicketReader.getRawTicketView
    rw [readField_of_le hversion, readSlice_of_le (by omega)]
    rfl
  · exact isSome_readNumber (Nat.le_trans (by decide) hlen)
  · exact isSome_readNumber (Nat.le_trans (by decide) hlen)
  · have hid : 0 + Ticket.title_id.start + Ticket.title_id.length ≤ bytes.length :=
      Nat.le_trans (by decide) hlen
    have hindex : 0 + Ticket.common_key_index.start + Ticket.common_key_index.length ≤
      bytes.length := Nat.le_trans (by decide) hlen
    have hkey : 0 + Ticket.title_key.start + Ticket.title_key.length ≤ bytes.length :=
      Nat.le_trans (by decide) hlen
    unfold TicketReader.getTitleKey
    rw [readField_of_le hid, readNumber_of_le hindex, readField_of_le hkey]
    rfl
  · rw [deleteTicket_eq]
    rfl

end Tickets

/-! ## certificates -/

/-- The reads of a certificate stay inside. -/
structure CertInBounds (bytes : List Byte) : Prop extends SignatureInBounds bytes where
  getId : (CertReader.getId bytes).isSome
  getName : (CertReader.getName bytes).isSome
  getPublicKeyType : (CertReader.getPublicKeyType bytes).isSome
  getPublicKey : (CertReader.getPublicKey bytes).isSome

section Certs

variable {bytes : List Byte}

theorem create_eq (bytes : List Byte) : CertReader.create bytes =
    some (match IOS.certSize bytes with
      | none => ⟨bytes, false⟩
      | some size => ⟨bytes.take size, true⟩) := by
  unfold CertReader.create IOS.certSize
  rw [isSignatureValid_eq, Option.bind_some]
  cases hvalid : IOS.isSignatureValid bytes with
  | false => rfl
  | true =>
    have hresize (size : Nat) : CertReader.resize bytes size =
        match (if bytes.length < size then none else some size : Option Nat) with
        | none => ⟨bytes, false⟩
        | some size => ⟨bytes.take size, true⟩ := by
      unfold CertReader.resize
      by_cases h : bytes.length < size
      · rw [if_pos h, if_pos h]
      · rw [if_neg h, if_neg h]
    obtain ⟨htype, -, hword, -⟩ | ⟨htype, -, hword, -⟩ := signature_cases hvalid
    · have hsize : certFullSize bytes = certRSA4096Size := if_pos hword
      rw [if_neg (by decide), htype, Option.map_some, if_neg (by decide), hsize]
      exact congrArg some (hresize _)
    · have hsize : certFullSize bytes = certRSA2048Size := if_neg hword
      rw [if_neg (by decide), htype, Option.map_some, if_neg (by decide), hsize]
      exact congrArg some (hresize _)

/-- A certificate that has its size. -/
structure CertFits (bytes : List Byte) : Prop where
  signature : IOS.isSignatureValid bytes = true
  full : certFullSize bytes = bytes.length

theorem CertFits.of_certSize {size : Nat} (h : IOS.certSize bytes = some size) :
    CertFits (bytes.take size) ∧ 0 < size ∧ size ≤ bytes.length := by
  unfold IOS.certSize at h
  rw [Option.ite_none_left_eq_some, Option.ite_none_left_eq_some, Option.some.injEq] at h
  obtain ⟨hvalid, hlong, rfl⟩ := h
  rw [Bool.not_eq_true', Bool.not_eq_false] at hvalid
  have hlen : (bytes.take (certFullSize bytes)).length = certFullSize bytes :=
    List.length_take_of_le (by omega)
  have hfour : 4 ≤ certFullSize bytes := by
    unfold certFullSize
    split <;> decide
  have hword : swapAt (bytes.take (certFullSize bytes)) 0 4 = swapAt bytes 0 4 := by
    unfold swapAt
    rw [List.drop_zero, List.drop_zero, List.take_take, Nat.min_eq_left hfour]
  have hfull : certFullSize (bytes.take (certFullSize bytes)) = certFullSize bytes :=
    if_congr (by rw [hword]) rfl rfl
  refine ⟨⟨?_, hfull.trans hlen.symm⟩, by omega, by omega⟩
  have hsig : IOS.getSignatureSize (bytes.take (certFullSize bytes)) =
      IOS.getSignatureSize bytes := by
    unfold IOS.getSignatureSize
    rw [hword]
  have hle : IOS.getSignatureSize bytes ≤ certFullSize bytes := by
    unfold IOS.getSignatureSize certFullSize
    split
    · decide
    · split <;> decide
  unfold IOS.isSignatureValid at hvalid ⊢
  simp only [Bool.and_eq_true, decide_eq_true_eq] at hvalid ⊢
  rw [hsig, hlen]
  exact ⟨⟨hfour, hvalid.1.2⟩, hle⟩

namespace CertFits

variable (h : CertFits bytes)

include h

theorem layout : ∃ size, SignedBlobReader.getSignatureSize bytes = some size ∧
    IOS.getSignatureSize bytes = size ∧ size + CertHeader.size + publicKeySize ≤ bytes.length ∧
    CertReader.getPublicKey bytes = readSlice bytes (size + CertHeader.size) publicKeySize := by
  have hfull := h.full
  unfold certFullSize at hfull
  obtain ⟨htype, hsig, hword, -⟩ | ⟨htype, hsig, hword, hlen⟩ := signature_cases h.signature
  · rw [if_pos hword] at hfull
    have hsize : IOS.getSignatureSize bytes = 0x280 := if_pos hword
    refine ⟨_, hsig, hsize, hfull ▸ by decide, ?_⟩
    unfold CertReader.getPublicKey
    rw [htype]
    rfl
  · rw [if_neg hword] at hfull
    have hsize := (getSignatureSize_of_le (by omega : 4 ≤ bytes.length)).symm.trans hsig
    refine ⟨_, hsig, Option.some.inj hsize, hfull ▸ by decide, ?_⟩
    unfold CertReader.getPublicKey
    rw [htype]
    rfl

theorem getName_eq : CertReader.getName bytes = some (IOS.certName bytes) := by
  obtain ⟨size, hsig, hsize, hle, -⟩ := h.layout
  have hname : CertHeader.name.start + CertHeader.name.length ≤ CertHeader.size := by decide
  unfold CertReader.getName IOS.certName
  rw [hsig, Option.bind_some, readString_of_le (by omega), hsize]
  rfl

theorem inBounds : CertInBounds bytes := by
  obtain ⟨size, hsig, hsize, hle, hkey⟩ := h.layout
  have hfield {field : Extent} (hfield : field.start + field.length ≤ CertHeader.size) :
      (readNumber bytes size field).isSome := isSome_readNumber (by omega)
  refine ⟨signatureInBounds h.signature, ?_, ?_, ?_, ?_⟩
  · unfold CertReader.getId
    rw [hsig]
    exact hfield (by decide)
  · rw [h.getName_eq]
    rfl
  · unfold CertReader.getPublicKeyType
    rw [hsig]
    exact hfield (by decide)
  · rw [hkey]
    exact isSome_readSlice hle

end CertFits

theorem certInBounds {cert_reader : CertReader} (h : CertReader.create bytes = some cert_reader)
    (hvalid : cert_reader.m_is_valid = true) : CertInBounds cert_reader.m_bytes := by
  rw [create_eq] at h
  obtain rfl := Option.some.inj h
  cases hsize : IOS.certSize bytes with
  | none =>
    rw [hsize] at hvalid
    cases hvalid
  | some size => exact (CertFits.of_certSize hsize).1.inBounds

end Certs

/-! ## chains of certificates -/

section Chain

variable {chain : List Byte}

/-- The certificates of a chain are put into the map one by one. -/
def emplaceAll (certs : CertMap) (l : List (List Byte)) : CertMap :=
  l.foldl (fun certs cert => certs.emplace (IOS.certName cert) ⟨cert, true⟩) certs

theorem parseCertChainFrom_eq (rounds processed : Nat) (certs : CertMap)
    (hle : processed ≤ chain.length) (hrounds : chain.length - processed ≤ rounds) :
    parseCertChainFrom chain (rounds + 1) processed certs =
      some (emplaceAll certs (IOS.parseCerts rounds (chain.drop processed))) := by
  induction rounds generalizing processed certs with
  | zero =>
    rw [parseCertChainFrom, if_pos (by omega)]
    rfl
  | succ rounds ih =>
    rw [parseCertChainFrom]
    by_cases hend : processed = chain.length
    · rw [if_pos hend, hend, List.drop_length]
      rfl
    · have hslice : readSlice chain processed (chain.length - processed) =
          some (chain.drop processed) := by
        rw [readSlice_of_le (by omega), List.take_of_length_le (by rw [List.length_drop])]
      rw [if_neg hend, hslice, Option.bind_eq_bind, Option.bind_some, create_eq,
        Option.bind_eq_bind, Option.bind_some, IOS.parseCerts]
      cases hsize : IOS.certSize (chain.drop processed) with
      | none => rfl
      | some size =>
        obtain ⟨hfits, hpos, hsize_le⟩ := CertFits.of_certSize hsize
        rw [List.length_drop] at hsize_le
        have hlen : ((chain.drop processed).take size).length = size :=
          List.length_take_of_le (by rw [List.length_drop]; exact hsize_le)
        dsimp only
        rw [if_neg (by decide), hfits.getName_eq, Option.bind_some, hlen,
          ih (processed + size) _ (by omega) (by omega), List.drop_drop]
        rfl

theorem parseCertChain_eq (chain : List Byte) {rounds : Nat} (h : chain.length ≤ rounds) :
    parseCertChain (rounds + 1) chain = some (emplaceAll [] (IOS.parseCerts rounds chain)) :=
  parseCertChainFrom_eq rounds 0 [] (Nat.zero_le _) h

/-- Bytes of a chain that are a certificate. -/
structure CertOf (chain cert : List Byte) : Prop where
  slice : ∃ offset, offset + cert.length ≤ chain.length ∧
    cert = (chain.drop offset).take cert.length
  fits : CertFits cert

theorem parseCerts_certOf (rounds : Nat) (chain : List Byte) :
    ∀ cert ∈ IOS.parseCerts rounds chain, CertOf chain cert := by
  induction rounds generalizing chain with
  | zero => exact fun _ h => absurd h List.not_mem_nil
  | succ rounds ih =>
    intro cert hcert
    rw [IOS.parseCerts] at hcert
    cases hsize : IOS.certSize chain with
    | none =>
      rw [hsize] at hcert
      exact absurd hcert List.not_mem_nil
    | some size =>
      rw [hsize] at hcert
      obtain ⟨hfits, -, hle⟩ := CertFits.of_certSize hsize
      obtain rfl | hrest := List.mem_cons.mp hcert
      · have hlen : (chain.take size).length = size := List.length_take_of_le hle
        exact ⟨⟨0, by omega, by rw [hlen, List.drop_zero]⟩, hfits⟩
      · obtain ⟨⟨offset, hoffset, hslice⟩, hfits'⟩ := ih (chain.drop size) cert hrest
        rw [List.length_drop] at hoffset
        rw [List.drop_drop] at hslice
        exact ⟨⟨size + offset, by omega, hslice⟩, hfits'⟩

/-- An entry of the map. -/
def EntryOf (chain : List Byte) (entry : List Byte × CertReader) : Prop :=
  CertOf chain entry.2.m_bytes ∧ entry.2.m_is_valid = true ∧
    CertReader.getName entry.2.m_bytes = some entry.1

theorem emplaceAll_entryOf {l : List (List Byte)} (hl : ∀ cert ∈ l, CertOf chain cert)
    (certs : CertMap) (hcerts : ∀ entry ∈ certs, EntryOf chain entry) :
    ∀ entry ∈ emplaceAll certs l, EntryOf chain entry := by
  induction l generalizing certs with
  | nil => exact hcerts
  | cons cert l ih =>
    refine ih (fun cert hcert => hl cert (List.mem_cons_of_mem _ hcert)) _ fun entry hentry => ?_
    have hcert := hl cert List.mem_cons_self
    change entry ∈ CertMap.emplace certs (IOS.certName cert) ⟨cert, true⟩ at hentry
    unfold CertMap.emplace at hentry
    split at hentry
    · exact hcerts entry hentry
    · obtain hold | hnew := List.mem_append.mp hentry
      · exact hcerts entry hold
      · obtain rfl := List.mem_singleton.mp hnew
        exact ⟨hcert, rfl, hcert.fits.getName_eq⟩

end Chain

/-! ## every vector -/

/-- What the readers do with a vector of bytes. -/
structure ReadInBounds (bytes : List Byte) : Prop where
  /-- The checks can be made of any bytes. -/
  checked : (TMDReader.isValid bytes).isSome ∧ (TicketReader.isValid bytes).isSome ∧
    (CertReader.create bytes).isSome
  tmd : TMDReader.isValid bytes = some true → TMDInBounds bytes
  ticket : TicketReader.isValid bytes = some true → TicketInBounds bytes
  cert : ∀ cert_reader, CertReader.create bytes = some cert_reader →
    cert_reader.m_is_valid = true → CertInBounds cert_reader.m_bytes
  /-- `DeleteTicket` leaves the other tickets. -/
  left : ∀ id, ∃ left, TicketReader.deleteTicket bytes id = some left ∧
    tickets left = (tickets bytes).filter fun ticket => ticketId ticket ≠ id
  /-- `ParseCertChain` ends, with certificates of the bytes. -/
  chain : ∀ rounds, bytes.length < rounds → ∃ certs, parseCertChain rounds bytes = some certs ∧
    ∀ entry ∈ certs, EntryOf bytes entry

theorem readInBounds (bytes : List Byte) : ReadInBounds bytes where
  checked := by
    rw [tmd_isValid_eq, ticket_isValid_eq, create_eq]
    exact ⟨rfl, rfl, rfl⟩
  tmd h := (TMDFits.of_isValid h).inBounds
  ticket := ticketInBounds
  cert _ := certInBounds
  left := deleteTicket_tickets bytes
  chain rounds hrounds := by
    obtain ⟨rounds, rfl⟩ : ∃ k, rounds = k + 1 := ⟨rounds - 1, by omega⟩
    exact ⟨_, parseCertChain_eq bytes (Nat.le_of_lt_succ hrounds),
      emplaceAll_entryOf (parseCerts_certOf rounds bytes) [] fun _ h => absurd h List.not_mem_nil⟩

end Checked

end DolphinCore.IOS
