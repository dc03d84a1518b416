import DolphinCore.Lib.ByteMemory
import DolphinCore.Lib.FileImage
import Mathlib.Tactic.ByContra

/-!
# DolphinCore.Gecko.CodeHandler

`InstallCodeHandlerLocked`, which puts the Gecko code handler and the list of the active codes into
emulated memory.  The list begins in the last eight bytes of the handler.

The stores go to a memory of bytes that also keeps which bytes were written.  What the instruction
cache is told is left out.

What `InstallCodeHandlerLocked` leaves in memory: the list of the codes that fit, in their order,
inside of the area of the handler.  A handler of less than 16 bytes has no room for the words in
front of the list.
-/

namespace DolphinCore

namespace Gecko

structure Code where
  address : BitVec 32
  data : BitVec 32

structure GeckoCode where
  codes : List Code

def INSTALLER_BASE_ADDRESS : Nat := 0x80001800
def INSTALLER_END_ADDRESS : Nat := 0x80003000
def HLE_TRAMPOLINE_ADDRESS : Nat := INSTALLER_END_ADDRESS - 4
def MAGIC_GAMEID : BitVec 32 := 0xD01F1BAD#32
def CODE_SIZE : Nat := 8

inductive Installation
  | Uninstalled
  | Installed
  | Failed
  deriving DecidableEq

/-! ## memory -/

structure Ram where
  memory : Mem 32
  written : List Extent

namespace Ram

variable (ram : Ram)

/-- Bytes that are stored one behind the other. -/
def store (bytes : List Byte) (a : Nat) : Ram :=
  ⟨ram.memory.write (BitVec.ofNat 32 a) bytes, ram.written ++ [⟨a, bytes.length⟩]⟩

def HostWrite_U8 (value : Byte) (a : Nat) : Ram := ram.store [value] a

def HostWrite_U32 (value : BitVec 32) (a : Nat) : Ram := ram.store (Mem.toBytes 4 value.toNat) a

def HostRead_U32 (a : Nat) : BitVec 32 :=
  BitVec.ofNat 32 (Mem.ofBytes (ram.memory.read (BitVec.ofNat 32 a) 4))

end Ram

/-! ## the parts of the function -/

/-- The handler is copied byte by byte. -/
def copyHandler (data : List Byte) (ram : Ram) : Ram :=
  data.zipIdx.foldl (fun ram p => ram.HostWrite_U8 p.1 (INSTALLER_BASE_ADDRESS + p.2)) ram

/-- An access to the registers of the other console is patched. -/
def patchWord (mmio_addr : Byte) (ram : Ram) (h : Nat) : Ram :=
  if ram.HostRead_U32 (INSTALLER_BASE_ADDRESS + h) =
      0x3F000000#32 ||| ((mmio_addr ^^^ 1).setWidth 32 <<< 8) then
    ram.HostWrite_U32 (0x3F000000#32 ||| mmio_addr.setWidth 32 <<< 8) (INSTALLER_BASE_ADDRESS + h)
  else ram

/-- The loop over the words of the handler, the last of which it may have in part. -/
def patchHandler (mmio_addr : Byte) (data : List Byte) (ram : Ram) : Ram :=
  (List.range ((data.length + 3) / 4)).foldl (fun ram k => patchWord mmio_addr ram (4 * k)) ram

/-- One line of a code. -/
def writeLine (st : Ram × Nat) (code : Code) : Ram × Nat :=
  let (ram, next_address) := st
  let ram := ram.HostWrite_U32 code.address next_address
  let ram := ram.HostWrite_U32 code.data (next_address + 4)
  (ram, next_address + CODE_SIZE)

/-- A code, which is left out where it does not fit. -/
def writeCode (end_address : Nat) (st : Ram × Nat) (active_code : GeckoCode) : Ram × Nat :=
  if end_address < st.2 + active_code.codes.length * CODE_SIZE then st
  else active_code.codes.foldl writeLine st

/-- The check of the handler's size. -/
def SizeOk (data : List Byte) : Prop :=
  ¬ INSTALLER_END_ADDRESS - INSTALLER_BASE_ADDRESS - CODE_SIZE < data.length

instance (data : List Byte) : Decidable (SizeOk data) := inferInstanceAs (Decidable (¬ _))

/-- The handler in memory, before the list. -/
def installHandler (bWii : Bool) (data : List Byte) (ram : Ram) : Ram :=
  let mmio_addr : Byte := if bWii then 0xCD else 0xCC
  let ram := patchHandler mmio_addr data (copyHandler data ram)
  ram.HostWrite_U32 MAGIC_GAMEID INSTALLER_BASE_ADDRESS

/-- The list of the codes. -/
def installList (data : List Byte) (active_codes : List GeckoCode) (ram : Ram) : Ram :=
  let codelist_base_address := INSTALLER_BASE_ADDRESS + data.length - CODE_SIZE
  let ram := ram.HostWrite_U32 0x00D0C0DE#32 codelist_base_address
  let ram := ram.HostWrite_U32 0x00D0C0DE#32 (codelist_base_address + 4)
  let start_address := codelist_base_address + CODE_SIZE
  let end_address := INSTALLER_END_ADDRESS - CODE_SIZE
  let (ram, next_address) := active_codes.foldl (writeCode end_address) (ram, start_address)
  let ram := ram.HostWrite_U32 0xF0000000#32 next_address
  let ram := ram.HostWrite_U32 0#32 (next_address + 4)
  let ram := ram.HostWrite_U32 0#32 HLE_TRAMPOLINE_ADDRESS
  ram.HostWrite_U8 1 (INSTALLER_BASE_ADDRESS + 7)

/-- `InstallCodeHandlerLocked`; `file` is what `ReadFileToString` gives. -/
def installCodeHandlerLocked (bWii : Bool) (file : Option (List Byte))
    (active_codes : List GeckoCode) (ram : Ram) : Installation × Ram :=
  match file with
  | none => (.Failed, ram)
  | some data =>
    if SizeOk data then
      (.Installed, installList data active_codes (installHandler bWii data ram))
    else (.Failed, ram)

end Gecko

end DolphinCore

namespace DolphinCore

namespace Gecko

/-! ## the list -/

def lineBytes (code : Code) : List Byte :=
  Mem.toBytes 4 code.address.toNat ++ Mem.toBytes 4 code.data.toNat

def codeBytes (code : GeckoCode) : List Byte := code.codes.flatMap lineBytes

def headerBytes : List Byte := lineBytes ⟨0x00D0C0DE#32, 0x00D0C0DE#32⟩

def terminatorBytes : List Byte := lineBytes ⟨0xF0000000#32, 0#32⟩

/-- The codes that are taken, where there is room for so many bytes: each one that still fits. -/
def fitting (room : Nat) : List GeckoCode → List GeckoCode
  | [] => []
  | code :: codes =>
    if (codeBytes code).length ≤ room then
      code :: fitting (room - (codeBytes code).length) codes
    else fitting room codes

/-- The list of the codes, between its header and its end. -/
def listBytes (room : Nat) (codes : List GeckoCode) : List Byte :=
  headerBytes ++ (fitting room codes).flatMap codeBytes ++ terminatorBytes

@[simp] theorem length_lineBytes (code : Code) : (lineBytes code).length = 8 := by
  simp [lineBytes]

@[simp] theorem length_codeBytes (code : GeckoCode) :
    (codeBytes code).length = code.codes.length * 8 := by
  rw [codeBytes, List.length_flatMap]
  simp

theorem length_fitting_le (room : Nat) (codes : List GeckoCode) :
    ((fitting room codes).flatMap codeBytes).length ≤ room := by
  induction codes generalizing room with
  | nil => exact Nat.zero_le _
  | cons code codes ih =>
    rw [fitting]
    split
    · next h =>
      have := ih (room - (codeBytes code).length)
      rw [List.flatMap_cons, List.length_append]
      omega
    · exact ih room

/-! ## what is written -/

/-- What is written beyond what was written before, all of it with a property. -/
def Grown (P : Extent → Prop) (ram ram' : Ram) : Prop :=
  ∃ new, ram'.written = ram.written ++ new ∧ ∀ e ∈ new, P e

namespace Grown

variable {P : Extent → Prop} {ram ram' ram'' : Ram}

theorem refl (ram : Ram) : Grown P ram ram := ⟨[], by simp⟩

theorem trans (h : Grown P ram ram') (h' : Grown P ram' ram'') : Grown P ram ram'' := by
  obtain ⟨new, hnew, hP⟩ := h
  obtain ⟨new', hnew', hP'⟩ := h'
  refine ⟨new ++ new', by rw [hnew', hnew, List.append_assoc], fun e he => ?_⟩
  exact (List.mem_append.mp he).elim (hP e) (hP' e)

theorem store {bytes : List Byte} {a : Nat} (h : P ⟨a, bytes.length⟩) (ram : Ram) :
    Grown P ram (ram.store bytes a) :=
  ⟨[⟨a, bytes.length⟩], rfl, fun _ he => List.mem_singleton.mp he ▸ h⟩

theorem writeU32 {value : BitVec 32} {a : Nat} (h : P ⟨a, 4⟩) (ram : Ram) :
    Grown P ram (ram.HostWrite_U32 value a) :=
  store (by rwa [Mem.length_toBytes]) ram

theorem foldl {α β : Type} (mem : β → Ram) {f : β → α → β} {l : List α}
    (h : ∀ b, ∀ a ∈ l, Grown P (mem b) (mem (f b a))) (b : β) :
    Grown P (mem b) (mem (l.foldl f b)) := by
  induction l generalizing b with
  | nil => exact refl (mem b)
  | cons a l ih =>
    exact (h b a List.mem_cons_self).trans
      (ih (fun b a ha => h b a (List.mem_cons_of_mem _ ha)) (f b a))

theorem mono {Q : Extent → Prop} (h : Grown P ram ram') (hPQ : ∀ e, P e → Q e) :
    Grown Q ram ram' := by
  obtain ⟨new, hnew, hP⟩ := h
  exact ⟨new, hnew, fun e he => hPQ e (hP e he)⟩

end Grown

/-- Some bytes from an address on, before the end of the area. -/
def From (a : Nat) (e : Extent) : Prop := a ≤ e.start ∧ e.stop ≤ INSTALLER_END_ADDRESS

theorem from_base {k n : Nat} (h : k + n ≤ 0x1800) :
    From INSTALLER_BASE_ADDRESS ⟨INSTALLER_BASE_ADDRESS + k, n⟩ := by
  refine ⟨Nat.le_add_right _ _, ?_⟩
  change 0x80001800 + k + n ≤ 0x80003000
  omega

theorem grown_patchWord (mmio_addr : Byte) (ram : Ram) {h : Nat} (hh : h + 4 ≤ 0x1800) :
    Grown (From INSTALLER_BASE_ADDRESS) ram (patchWord mmio_addr ram h) := by
  unfold patchWord
  split
  · exact Grown.writeU32 (from_base hh) ram
  · exact Grown.refl ram

variable {data : List Byte}

theorem length_le_of_sizeOk (h : SizeOk data) : data.length ≤ 0x17F8 := by
  unfold SizeOk INSTALLER_END_ADDRESS INSTALLER_BASE_ADDRESS CODE_SIZE at h
  omega

theorem grown_installHandler (bWii : Bool) (hsize : SizeOk data) (ram : Ram) :
    Grown (From INSTALLER_BASE_ADDRESS) ram (installHandler bWii data ram) := by
  have hlen := length_le_of_sizeOk hsize
  have hcopy : Grown (From INSTALLER_BASE_ADDRESS) ram (copyHandler data ram) := by
    refine Grown.foldl id (fun ram p hp => Grown.store (from_base (n := 1) ?_) ram) ram
    have := List.snd_lt_of_mem_zipIdx hp
    omega
  refine (hcopy.trans (Grown.foldl id (fun ram k hk => ?_) _)).trans
    (Grown.writeU32 (from_base (k := 0) (by omega)) _)
  have hlt := List.mem_range.mp hk
  exact grown_patchWord _ ram (by omega)

/-! ## the list in memory -/

/-- The list so far, from its begin on, and the address of its next line. -/
structure ListAt (base : Nat) (ram : Ram) (bytes : List Byte) (st : Ram × Nat) : Prop where
  holds : st.1.memory.Holds base bytes
  next_address : st.2 = base + bytes.length
  grown : Grown (From base) ram st.1

namespace ListAt

variable {base : Nat} {ram : Ram} {bytes : List Byte} {st : Ram × Nat}

theorem line (h : ListAt base ram bytes st) (code : Code)
    (hroom : base + bytes.length + 8 ≤ INSTALLER_END_ADDRESS) :
    ListAt base ram (bytes ++ lineBytes code) (writeLine st code) := by
  obtain ⟨ram', next_address⟩ := st
  obtain ⟨hholds, rfl, hgrown⟩ := h
  have hend : INSTALLER_END_ADDRESS ≤ 2 ^ 32 := by decide
  have hfirst := hholds.append (Mem.toBytes 4 code.address.toNat)
    (by rw [List.length_append, Mem.length_toBytes]; omega)
  have hsecond := hfirst.append (Mem.toBytes 4 code.data.toNat)
    (by simp only [List.length_append, Mem.length_toBytes]; omega)
  rw [List.length_append, Mem.length_toBytes, ← Nat.add_assoc, List.append_assoc] at hsecond
  refine ⟨hsecond, ?_, ?_⟩
  · rw [List.length_append, length_lineBytes]
    rfl
  · refine (hgrown.trans (Grown.writeU32 ?_ _)).trans (Grown.writeU32 ?_ _)
    · exact ⟨Nat.le_add_right _ _, by simp only [Extent.stop]; omega⟩
    · exact ⟨by simp only; omega, by simp only [Extent.stop]; omega⟩

theorem lines (h : ListAt base ram bytes st) (lines : List Code)
    (hroom : base + bytes.length + lines.length * 8 ≤ INSTALLER_END_ADDRESS) :
    ListAt base ram (bytes ++ lines.flatMap lineBytes) (lines.foldl writeLine st) := by
  induction lines generalizing bytes st with
  | nil => simpa using h
  | cons code lines ih =>
    rw [List.length_cons] at hroom
    have hnext := ih (h.line code (by omega))
      (by rw [List.length_append, length_lineBytes]; omega)
    rwa [List.append_assoc, ← List.flatMap_cons] at hnext

theorem codes (h : ListAt base ram bytes st) (codes : List GeckoCode) (room : Nat)
    (hroom : base + bytes.length + room = INSTALLER_END_ADDRESS - CODE_SIZE) :
    ListAt base ram (bytes ++ (fitting room codes).flatMap codeBytes)
      (codes.foldl (writeCode (INSTALLER_END_ADDRESS - CODE_SIZE)) st) := by
  induction codes generalizing bytes st room with
  | nil => simpa [fitting] using h
  | cons code codes ih =>
    have hsize : code.codes.length * CODE_SIZE = (codeBytes code).length :=
      (length_codeBytes code).symm
    rw [List.foldl_cons, fitting, writeCode, hsize, h.next_address]
    by_cases hfit : (codeBytes code).length ≤ room
    · rw [if_pos hfit, if_neg (by omega), List.flatMap_cons, ← List.append_assoc]
      refine ih (h.lines code.codes ?_) _ ?_
      · rw [← length_codeBytes]
        omega
      · change base + (bytes ++ codeBytes code).length + _ = _
        rw [List.length_append]
        omega
    · rw [if_neg hfit, if_pos (by omega)]
      exact ih h room hroom

end ListAt

/-- Where the list begins, and how many bytes its codes may have. -/
def listBase (data : List Byte) : Nat := INSTALLER_BASE_ADDRESS + data.length - CODE_SIZE

def listRoom (data : List Byte) : Nat := 0x17F8 - data.length

theorem installList_eq (hsize : SizeOk data) (codes : List GeckoCode) (ram : Ram) :
    ∃ ram' next_address,
      ListAt (listBase data) ram (listBytes (listRoom data) codes) (ram', next_address) ∧
      installList data codes ram = (ram'.HostWrite_U32 0#32 HLE_TRAMPOLINE_ADDRESS).HostWrite_U8 1
          (INSTALLER_BASE_ADDRESS + 7) := by
  have hlen := length_le_of_sizeOk hsize
  have hbase : listBase data + 8 + listRoom data = INSTALLER_END_ADDRESS - CODE_SIZE := by
    unfold listBase listRoom INSTALLER_BASE_ADDRESS INSTALLER_END_ADDRESS CODE_SIZE
    omega
  have hend : INSTALLER_END_ADDRESS - CODE_SIZE + 8 = INSTALLER_END_ADDRESS := rfl
  have hstart : ListAt (listBase data) ram [] (ram, listBase data) :=
    ⟨fun i hi => absurd hi (Nat.not_lt_zero i), rfl, Grown.refl ram⟩
  have hheader := hstart.line ⟨0x00D0C0DE#32, 0x00D0C0DE#32⟩
    (by simp only [List.length_nil]; omega)
  have hcodes := hheader.codes codes (listRoom data)
    (by rw [List.nil_append, length_lineBytes]; exact hbase)
  have hroom := length_fitting_le (listRoom data) codes
  have hlist := hcodes.line ⟨0xF0000000#32, 0#32⟩
    (by rw [List.nil_append, List.length_append, length_lineBytes]; omega)
  exact ⟨_, _, hlist, rfl⟩

theorem listBase_add_length_le (hsize : SizeOk data) (codes : List GeckoCode) :
    listBase data + (listBytes (listRoom data) codes).length ≤ INSTALLER_END_ADDRESS := by
  have hlen := length_le_of_sizeOk hsize
  have hroom := length_fitting_le (listRoom data) codes
  simp only [listBytes, headerBytes, terminatorBytes, List.length_append, length_lineBytes]
  unfold listBase listRoom INSTALLER_BASE_ADDRESS INSTALLER_END_ADDRESS CODE_SIZE at *
  omega

theorem listBytes_end (room : Nat) (codes : List GeckoCode) {i : Nat}
    (hi : i < (listBytes room codes).length) (hend : (listBytes room codes).length ≤ i + 4) :
    (listBytes room codes)[i] = 0 := by
  have hsplit : listBytes room codes =
      (headerBytes ++ (fitting room codes).flatMap codeBytes ++ Mem.toBytes 4 0xF0000000) ++
        List.replicate 4 0 := by
    rw [listBytes, terminatorBytes, lineBytes, ← List.append_assoc]
    rfl
  have hlen := congrArg List.length hsplit
  rw [List.length_append, List.length_replicate] at hlen
  simp only [hsplit]
  rw [List.getElem_append_right (by omega), List.getElem_replicate]

theorem holds_trampoline (hsize : SizeOk data) (codes : List GeckoCode) {ram : Ram}
    (h : ram.memory.Holds (listBase data) (listBytes (listRoom data) codes)) :
    (ram.HostWrite_U32 0#32 HLE_TRAMPOLINE_ADDRESS).memory.Holds (listBase data)
      (listBytes (listRoom data) codes) := by
  have hle := listBase_add_length_le hsize codes
  have hend : INSTALLER_END_ADDRESS ≤ 2 ^ 32 := by decide
  have htramp : HLE_TRAMPOLINE_ADDRESS + 4 = INSTALLER_END_ADDRESS := rfl
  refine h.write_agree (by omega) (by rw [Mem.length_toBytes]; omega) fun i j hi hj heq => ?_
  have hzero : Mem.toBytes 4 (0#32).toNat = List.replicate 4 0 := rfl
  rw [listBytes_end _ _ hi (by omega)]
  simp only [hzero, List.getElem_replicate]

/-! ## what is installed -/

/-- A file that passes the check of its size. -/
structure AcceptedHandler where
  data : List Byte
  size_ok : SizeOk data

/-- The area of the handler, and the word of the trampoline. -/
def InArea (e : Extent) : Prop :=
  (INSTALLER_BASE_ADDRESS ≤ e.start ∧ e.stop ≤ INSTALLER_END_ADDRESS) ∨
    (HLE_TRAMPOLINE_ADDRESS ≤ e.start ∧ e.stop ≤ HLE_TRAMPOLINE_ADDRESS + 4)

/-- `InstallCodeHandlerLocked` writes in its area only, and leaves the list of the codes that fit
behind the handler. -/
def Installs (bWii : Bool) (handler : AcceptedHandler) (codes : List GeckoCode) (ram : Ram) :
    Prop :=
  ∃ ram', installCodeHandlerLocked bWii (some handler.data) codes ram = (.Installed, ram') ∧
    Grown InArea ram ram' ∧
    ram'.memory.Holds (listBase handler.data) (listBytes (listRoom handler.data) codes)

variable {bWii : Bool} {handler : AcceptedHandler} {codes : List GeckoCode} {ram : Ram}

theorem install_eq : installCodeHandlerLocked bWii (some handler.data) codes ram =
    (.Installed, installList handler.data codes (installHandler bWii handler.data ram)) :=
  if_pos handler.size_ok

theorem installs_of_le (h : 16 ≤ handler.data.length) : Installs bWii handler codes ram := by
  have hend : INSTALLER_END_ADDRESS ≤ 2 ^ 32 := by decide
  have hbase : INSTALLER_BASE_ADDRESS + 8 ≤ listBase handler.data := by
    unfold listBase CODE_SIZE
    omega
  obtain ⟨ram', next_address, hlist, heq⟩ := installList_eq handler.size_ok codes
    (installHandler bWii handler.data ram)
  refine ⟨_, install_eq, ?_, ?_⟩
  · have hhandler : Grown InArea ram (installHandler bWii handler.data ram) :=
      (grown_installHandler bWii handler.size_ok ram).mono fun e he => .inl he
    have hcodes : Grown InArea _ ram' :=
      hlist.grown.mono fun e he => .inl ⟨Nat.le_trans (by omega) he.1, he.2⟩
    rw [heq]
    refine ((hhandler.trans hcodes).trans (Grown.writeU32 ?_ _)).trans (Grown.store ?_ _)
    · exact .inr ⟨Nat.le_refl _, Nat.le_refl _⟩
    · exact .inl (from_base (by decide))
  · have htramp := holds_trampoline handler.size_ok codes hlist.holds
    have hle := listBase_add_length_le handler.size_ok codes
    rw [heq]
    exact htramp.write_outside (by omega) (by decide) (.inl (by
      omega))

theorem grown_installList (data : List Byte) (codes : List GeckoCode) (ram : Ram) :
    Grown (fun _ => True) (ram.HostWrite_U32 0x00D0C0DE#32 (listBase data))
      (installList data codes ram) := by
  have hline (st : Ram × Nat) (code : Code) : Grown (fun _ => True) st.1 (writeLine st code).1 :=
    (Grown.writeU32 trivial _).trans (Grown.writeU32 trivial _)
  have hcode (st : Ram × Nat) (code : GeckoCode) : Grown (fun _ => True) st.1
      (writeCode (INSTALLER_END_ADDRESS - CODE_SIZE) st code).1 := by
    unfold writeCode
    split
    · exact Grown.refl _
    · exact Grown.foldl Prod.fst (fun st code _ => hline st code) st
  have hcodes (st : Ram × Nat) := Grown.foldl Prod.fst (l := codes)
    (fun st code _ => hcode st code) st
  have hsecond : Grown (fun _ => True) (ram.HostWrite_U32 0x00D0C0DE#32 (listBase data))
      ((ram.HostWrite_U32 0x00D0C0DE#32 (listBase data)).HostWrite_U32 0x00D0C0DE#32
        (listBase data + 4)) := Grown.writeU32 trivial _
  refine hsecond.trans ((hcodes (_, listBase data + CODE_SIZE)).trans ?_)
  exact ((Grown.writeU32 trivial _).trans (Grown.writeU32 trivial _)).trans
    ((Grown.writeU32 trivial _).trans (Grown.store trivial _))

/-- The words in front of the list are outside of the area, or meet the byte that turns the codes
on. -/
theorem not_installs_of_lt (h : handler.data.length < 16) : ¬ Installs bWii handler codes ram := by
  rintro ⟨ram', hrun, ⟨new, hnew, harea⟩, hholds⟩
  rw [install_eq] at hrun
  obtain rfl := (Prod.mk.inj hrun).2
  by_cases hlen : handler.data.length < 8
  · obtain ⟨new1, hnew1, -⟩ := grown_installHandler bWii handler.size_ok ram
    obtain ⟨new2, hnew2, -⟩ := grown_installList handler.data codes
      (installHandler bWii handler.data ram)
    have hmem : ⟨listBase handler.data, 4⟩ ∈ new := by
      have happ : ram.written ++ new =
          ram.written ++ (new1 ++ [⟨listBase handler.data, 4⟩] ++ new2) := by
        rw [← hnew, hnew2]
        change (installHandler bWii handler.data ram).written ++ [_] ++ new2 = _
        rw [hnew1]
        simp only [List.append_assoc]
        rfl
      rw [List.append_cancel_left happ]
      simp
    obtain hin | hin := harea _ hmem
    · have : listBase handler.data < INSTALLER_BASE_ADDRESS := by
        unfold listBase CODE_SIZE INSTALLER_BASE_ADDRESS
        omega
      exact absurd hin.1 (by simp only; omega)
    · have : listBase handler.data < HLE_TRAMPOLINE_ADDRESS := by
        unfold listBase CODE_SIZE INSTALLER_BASE_ADDRESS
        change _ < 0x80002FFC
        omega
      exact absurd hin.1 (by simp only; omega)
  · obtain ⟨ram', next_address, -, heq⟩ := installList_eq handler.size_ok codes
      (installHandler bWii handler.data ram)
    have hone : (installList handler.data codes (installHandler bWii handler.data ram)).memory
        (BitVec.ofNat 32 (INSTALLER_BASE_ADDRESS + 7)) = 1 := by
      have hlast : Mem.Holds (installList handler.data codes
          (installHandler bWii handler.data ram)).memory (INSTALLER_BASE_ADDRESS + 7) [1] := by
        exact Mem.Holds.write _ (by decide)
      exact hlast 0 (by decide)
    have hplace : listBase handler.data + (15 - handler.data.length) =
        INSTALLER_BASE_ADDRESS + 7 := by
      unfold listBase CODE_SIZE
      omega
    have hheader : 15 - handler.data.length < (headerBytes).length := by
      rw [headerBytes, length_lineBytes]
      omega
    have hbyte := hholds (15 - handler.data.length) (by
      simp only [listBytes, List.length_append]
      omega)
    rw [hplace, hone] at hbyte
    simp only [listBytes, List.append_assoc] at hbyte
    rw [List.getElem_append_left hheader] at hbyte
    have hnone : (1 : Byte) ∉ headerBytes := by decide
    exact hnone (hbyte ▸ List.getElem_mem hheader)

/-- A handler of eight zeros passes the check, and the byte that turns the codes on is the last one
of the words in front of the list. -/
theorem smallHandler_not_installs : ∃ handler : AcceptedHandler, handler.data = List.replicate 8 0 ∧
      ¬ Installs false handler [] ⟨fun _ => 0, []⟩ :=
  ⟨⟨List.replicate 8 0, by decide⟩, rfl, not_installs_of_lt (by decide)⟩

/-- It does so exactly for handlers of at least 16 bytes. -/
theorem installs_iff (bWii : Bool) (handler : AcceptedHandler) (codes : List GeckoCode)
    (ram : Ram) : Installs bWii handler codes ram ↔ 16 ≤ handler.data.length := by
  refine ⟨fun h => ?_, installs_of_le⟩
  by_contra hlt
  exact not_installs_of_lt (by omega) h

end Gecko

end DolphinCore
