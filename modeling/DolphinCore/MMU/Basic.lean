import DolphinCore.Lib.FinLiteral
import DolphinCore.Lib.ByteMemory

/-!
# DolphinCore.MMU.Basic

Page address translation of `Core/PowerPC/MMU.cpp`: the two TLBs, the walk of the
hashed page table, and the translation of an effective address by the BAT tables
or by pages.

`physicalBase` is the memory behind `Memory::physical_base`.  Host words are read
with `swap32` in the source, so the model compares and stores big-endian words.
-/

namespace DolphinCore.MMU

/-! ## flags and results -/

inductive XCheckTLBFlag
  | noException
  | read
  | write
  | opcode
  | opcodeNoException
deriving DecidableEq

/-- `IsOpcodeFlag` -/
def XCheckTLBFlag.isOpcode : XCheckTLBFlag → Bool
  | .opcode | .opcodeNoException => true
  | _ => false

/-- `IsNoExceptionFlag` -/
def XCheckTLBFlag.isNoException : XCheckTLBFlag → Bool
  | .noException | .opcodeNoException => true
  | _ => false

inductive TranslateResult
  | batTranslated
  | pageTableTranslated
  | directStoreSegment
  | pageFault
deriving DecidableEq

structure TranslateAddressResult where
  result : TranslateResult
  address : BitVec 32
deriving DecidableEq

def TranslateAddressResult.success (r : TranslateAddressResult) : Bool :=
  r.result = .batTranslated || r.result = .pageTableTranslated

inductive TLBLookupResult
  | found
  | notFound
  | updateC
deriving DecidableEq

/-! ## the state -/

/-- `INVALID_TAG`, which is no page number: those have 20 bits. -/
def invalidTag : BitVec 32 := 0xffffffff

/-- A set of a TLB: two ways, and the one used last. -/
structure TLBEntry where
  tag : Fin 2 → BitVec 32 := fun _ => invalidTag
  paddr : Fin 2 → BitVec 32 := fun _ => 0
  pte : Fin 2 → BitVec 32 := fun _ => 0
  recent : Fin 2 := 0

abbrev BatTable := BitVec 15 → BitVec 32

/-- The part of `ppcState` and of `Memory` that data accesses read and write. -/
structure State where
  sr : BitVec 4 → BitVec 32
  /-- `spr[SPR_SDR]` -/
  sprSDR : BitVec 32
  pagetableBase : BitVec 32
  pagetableHashmask : BitVec 32
  /-- The data TLB and the instruction TLB, 64 sets each. -/
  tlb : Bool → BitVec 6 → TLBEntry
  physicalBase : Mem 32
  /-- `MSR.DR` -/
  msrDR : Bool
  ibatTable : BatTable
  dbatTable : BatTable
  /-- `m_pEXRAM` is mapped. -/
  exram : Bool
  /-- `m_pFakeVMEM` is mapped. -/
  fakeVMEM : Bool

/-- `ppcState.tlb = {}` -/
def emptyTLB : Bool → BitVec 6 → TLBEntry := fun _ _ => {}

/-! ## fields -/

def eaSR (v : BitVec 32) : BitVec 4 := (v >>> 28).setWidth 4

def eaPageIndex (v : BitVec 32) : BitVec 32 := v >>> 12 &&& 0xffff

def eaOffset (v : BitVec 32) : BitVec 32 := v &&& 0xfff

def eaAPI (v : BitVec 32) : BitVec 32 := v >>> 22 &&& 0x3f

def srVSID (v : BitVec 32) : BitVec 32 := v &&& 0xffffff

/-- `SR_T`, a direct-store segment -/
def srT (v : BitVec 32) : Bool := v &&& 0x80000000 ≠ 0

/-- `SR_N`, no instruction fetch -/
def srN (v : BitVec 32) : Bool := v &&& 0x10000000 ≠ 0

def pte1V : BitVec 32 := 0x80000000

def pte1H : BitVec 32 := 0x40

/-- `PTE2.R` -/
def pte2R : BitVec 32 := 0x100

/-- `PTE2.C` -/
def pte2C : BitVec 32 := 0x80

/-- `PTE2.RPN`, shifted to its place in a physical address -/
def pte2RPN (pte2 : BitVec 32) : BitVec 32 := pte2 >>> 12 <<< 12

/-- The page of an effective address, `vpa >> HW_PAGE_INDEX_SHIFT`. -/
def pageOf (vpa : BitVec 32) : BitVec 32 := vpa >>> 12

/-- The set of a page, `tag & HW_PAGE_INDEX_MASK`. -/
def setOf (tag : BitVec 32) : BitVec 6 := tag.setWidth 6

def readWord (m : Mem 32) (a : BitVec 32) : BitVec 32 := BitVec.ofNat 32 (Mem.ofBytes (m.read a 4))

def writeWord (m : Mem 32) (a v : BitVec 32) : Mem 32 := m.write a (Mem.toBytes 4 v.toNat)

/-! ## the TLB -/

def State.setTLB (s : State) (opcode : Bool) (set : BitVec 6) (tlbe : TLBEntry) : State :=
  { s with tlb := fun o i => if o = opcode ∧ i = set then tlbe else s.tlb o i }

/-- `LookupTLBPageAddress` once the tag of way `i` matches. -/
def lookupWay (flag : XCheckTLBFlag) (vpa : BitVec 32) (i : Fin 2) (s : State) :
    TLBLookupResult × BitVec 32 × State :=
  let tag := pageOf vpa
  let tlbe := s.tlb flag.isOpcode (setOf tag)
  -- check if C bit requires updating
  if flag = .write ∧ tlbe.pte i &&& pte2C = 0 then
    let tlbe := { tlbe with pte := Function.update tlbe.pte i (tlbe.pte i ||| pte2C) }
    (.updateC, 0, s.setTLB flag.isOpcode (setOf tag) tlbe)
  else
    let tlbe := if flag.isNoException then tlbe else { tlbe with recent := i }
    (.found, tlbe.paddr i ||| (vpa &&& 0xfff), s.setTLB flag.isOpcode (setOf tag) tlbe)

def lookupTLBPageAddress (flag : XCheckTLBFlag) (vpa : BitVec 32) (s : State) :
    TLBLookupResult × BitVec 32 × State :=
  let tag := pageOf vpa
  let tlbe := s.tlb flag.isOpcode (setOf tag)
  if tlbe.tag 0 = tag then lookupWay flag vpa 0 s
  else if tlbe.tag 1 = tag then lookupWay flag vpa 1 s
  else (.notFound, 0, s)

def updateTLBEntry (flag : XCheckTLBFlag) (pte2 address : BitVec 32) (s : State) : State :=
  if flag.isNoException then s
  else
    let tag := pageOf address
    let tlbe := s.tlb flag.isOpcode (setOf tag)
    let index : Fin 2 := if tlbe.recent = 0 ∧ tlbe.tag 0 ≠ invalidTag then 1 else 0
    s.setTLB flag.isOpcode (setOf tag)
      { recent := index
        paddr := Function.update tlbe.paddr index (pte2RPN pte2)
        pte := Function.update tlbe.pte index pte2
        tag := Function.update tlbe.tag index tag }

/-- `InvalidateTLBEntry`: both ways of the set, in both TLBs. -/
def invalidateTLBEntry (address : BitVec 32) (s : State) : State :=
  { s with tlb := fun o i =>
      if i = setOf (pageOf address) then { s.tlb o i with tag := fun _ => invalidTag }
      else s.tlb o i }

/-! ## the page table -/

/-- The search of one PTEG: the first of `n` entries from `ptegAddr` on that is `pte1`. -/
def searchPTEG (m : Mem 32) (pte1 ptegAddr : BitVec 32) : Nat → Option (BitVec 32)
  | 0 => none
  | n + 1 =>
    if readWord m ptegAddr = pte1 then some ptegAddr else searchPTEG m pte1 (ptegAddr + 8) n

def ptegAddr (s : State) (hash : BitVec 32) : BitVec 32 :=
  (hash &&& s.pagetableHashmask) <<< 6 ||| s.pagetableBase

/-- The two hashes of `TranslatePageAddress`: the address of the entry for an address. -/
def findPTE (s : State) (address : BitVec 32) : Option (BitVec 32) :=
  let vsid := srVSID (s.sr (eaSR address))
  let hash := vsid ^^^ eaPageIndex address
  let pte1 := vsid <<< 7 ||| eaAPI address ||| pte1V
  (searchPTEG s.physicalBase pte1 (ptegAddr s hash) 8).or
    (searchPTEG s.physicalBase (pte1 ||| pte1H) (ptegAddr s (~~~hash)) 8)

/-- The access bits set by an access. -/
def setAccessBits (flag : XCheckTLBFlag) (pte2 : BitVec 32) : BitVec 32 :=
  match flag with
  | .noException | .opcodeNoException => pte2
  | .read | .opcode => pte2 ||| pte2R
  | .write => pte2 ||| pte2R ||| pte2C

/-- `TranslatePageAddress` after the TLB lookup, whose result is `res`. -/
def walkPageTable (address : BitVec 32) (flag : XCheckTLBFlag) (res : TLBLookupResult)
    (s : State) : TranslateAddressResult × State :=
  let sr := s.sr (eaSR address)
  if srT sr then (⟨.directStoreSegment, 0⟩, s)
  else if flag.isOpcode && srN sr then (⟨.pageFault, 0⟩, s)
  else
    match findPTE s address with
    | none => (⟨.pageFault, 0⟩, s)
    | some pteg =>
      let pte2 := setAccessBits flag (readWord s.physicalBase (pteg + 4))
      let s :=
        if flag.isNoException then s
        else { s with physicalBase := writeWord s.physicalBase (pteg + 4) pte2 }
      -- the TLB entry was already updated if this was caused by a C bit
      let s := if res = .updateC then s else updateTLBEntry flag pte2 address s
      (⟨.pageTableTranslated, pte2RPN pte2 ||| eaOffset address⟩, s)

def translatePageAddress (address : BitVec 32) (flag : XCheckTLBFlag) (s : State) :
    TranslateAddressResult × State :=
  match lookupTLBPageAddress flag address s with
  | (.found, paddr, s) => (⟨.pageTableTranslated, paddr⟩, s)
  | (res, _, s) => walkPageTable address flag res s

/-! ## the writers of what the walk reads -/

/-- `SetSR`, for `mtsr` and `mtsrin` -/
def setSR (index : BitVec 4) (value : BitVec 32) (s : State) : State :=
  { s with sr := Function.update s.sr index value }

def isValidLowMask (mask : BitVec 32) : Bool := mask &&& (mask + 1) = 0

def sdrUpdated (s : State) : State :=
  let htabmask := s.sprSDR &&& 0x1ff
  if isValidLowMask htabmask then
    let htaborg := s.sprSDR >>> 16 &&& 0xffff
    if htaborg &&& htabmask = 0 then
      { s with
        pagetableBase := htaborg <<< 16
        pagetableHashmask := htabmask <<< 10 ||| 0x3ff }
    else s
  else s

/-- `mtspr` to `SPR_SDR` -/
def mtsprSDR (value : BitVec 32) (s : State) : State := sdrUpdated { s with sprSDR := value }

/-! ## effective addresses -/

/-- `TranslateBatAddess` -/
def translateBatAddress (batTable : BatTable) (address : BitVec 32) : Option (BitVec 32) :=
  let batResult := batTable ((address >>> 17).setWidth 15)
  if batResult &&& 1 = 0 then none
  else some ((batResult &&& ~~~3) ||| (address &&& 0x1ffff))

/-- `TranslateAddress`: the BAT tables come first. -/
def translateAddress (flag : XCheckTLBFlag) (address : BitVec 32) (s : State) :
    TranslateAddressResult × State :=
  match translateBatAddress (if flag.isOpcode then s.ibatTable else s.dbatTable) address with
  | some paddr => (⟨.batTranslated, paddr⟩, s)
  | none => translatePageAddress address flag s

end DolphinCore.MMU
