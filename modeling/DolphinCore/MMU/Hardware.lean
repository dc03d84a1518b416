import DolphinCore.MMU.Tlb

/-!
# DolphinCore.MMU.Hardware

`ReadFromHardware` and `WriteToHardware` of `Core/PowerPC/MMU.cpp`.  The width of an
access is a number of bytes `n`, and its data a bit vector of `8 * n` bits.  What lies
outside of RAM (the EFB, the MMIO registers, the gather pipe) is a parameter.
-/

namespace DolphinCore.MMU

/-! ## the machine -/

/-- What an access reaches that is not RAM. -/
structure Devices (δ : Type) where
  efbRead : BitVec 32 → δ → BitVec 32 × δ
  efbWrite : BitVec 32 → BitVec 32 → δ → δ
  /-- `mmio_mapping->Read`, at an address and a width -/
  mmioRead : BitVec 32 → (n : Nat) → δ → BitVec (8 * n) × δ
  /-- `mmio_mapping->Write` -/
  mmioWrite : BitVec 32 → (n : Nat) → BitVec (8 * n) → δ → δ
  /-- `GPFifo::Write8` to `GPFifo::Write64` -/
  gpFifoWrite : (n : Nat) → BitVec (8 * n) → δ → δ

structure Machine (δ : Type) where
  mmu : State
  devices : δ
  bMMU : Bool
  sprDSISR : BitVec 32
  sprDAR : BitVec 32
  /-- `Exceptions & EXCEPTION_DSI` -/
  exceptionDSI : Bool

/-- `GenerateDSIException`; without MMU mode it only raises an alert. -/
def generateDSIException (effectiveAddress : BitVec 32) (m : Machine δ) : Machine δ :=
  if !m.bMMU then m
  else { m with
    sprDSISR := if effectiveAddress ≠ 0 then 1 <<< 30 ||| 1 <<< 25 else 1 <<< 30
    sprDAR := effectiveAddress
    exceptionDSI := true }

def Machine.setMMU (m : Machine δ) (s : State) : Machine δ := { m with mmu := s }

@[simp] theorem Machine.setMMU_mmu (m : Machine δ) (s : State) : (m.setMMU s).mmu = s := rfl

@[simp] theorem Machine.setMMU_setMMU (m : Machine δ) (s s' : State) :
    (m.setMMU s).setMMU s' = m.setMMU s' := rfl

/-- The result of a translation and the machine after it. -/
def Machine.translate (m : Machine δ) (flag : XCheckTLBFlag) (address : BitVec 32) :
    TranslateAddressResult × Machine δ :=
  ((translateAddress flag address m.mmu).1, m.setMMU (translateAddress flag address m.mmu).2)

/-! ## physical accesses -/

def ramMask : BitVec 32 := 0x01FFFFFF

/-- Where RAM, EXRAM, the locked L1 cache and fake VMEM are in `physical_base`. -/
def hostAddress (s : State) (emAddress : BitVec 32) : Option (BitVec 32) :=
  if emAddress &&& 0xF8000000 = 0 then some (emAddress &&& ramMask)
  else if s.exram && emAddress >>> 28 = 1 && emAddress &&& 0x0FFFFFFF < 0x04000000 then
    some (0x10000000 + (emAddress &&& 0x0FFFFFFF))
  else if emAddress >>> 28 = 0xE && emAddress < 0xE0000000 + 0x00040000 then
    some (0xE0000000 + (emAddress &&& 0x0FFFFFFF))
  else if s.fakeVMEM && emAddress &&& 0xFE000000 = 0x7E000000 then
    some (0x7E000000 + (emAddress &&& ramMask))
  else none

/-- `ReadFromHardware` once the address is physical. -/
def readPhysical (dev : Devices δ) (flag : XCheckTLBFlag) (n : Nat) (emAddress : BitVec 32)
    (m : Machine δ) : BitVec (8 * n) × Machine δ :=
  match hostAddress m.mmu emAddress with
  | some a => (BitVec.ofNat (8 * n) (Mem.ofBytes (m.mmu.physicalBase.read a n)), m)
  | none =>
    if flag = .read ∧ emAddress &&& 0xF8000000 = 0x08000000 then
      if emAddress < 0x0c000000 then
        let (var, devices) := dev.efbRead emAddress m.devices
        (var.setWidth (8 * n), { m with devices := devices })
      else
        let (var, devices) := dev.mmioRead emAddress n m.devices
        (var, { m with devices := devices })
    else (0, m)

/-- `WriteToHardware` once the address is physical. -/
def writePhysical (dev : Devices δ) (flag : XCheckTLBFlag) (n : Nat) (emAddress : BitVec 32)
    (data : BitVec (8 * n)) (m : Machine δ) : Machine δ :=
  match hostAddress m.mmu emAddress with
  | some a =>
    m.setMMU { m.mmu with
      physicalBase := m.mmu.physicalBase.write a (Mem.toBytes n data.toNat) }
  | none =>
    if flag = .write ∧ emAddress &&& 0xFFFFF000 = 0x0C008000 then
      { m with devices := dev.gpFifoWrite n data m.devices }
    else if flag = .write ∧ emAddress &&& 0xF8000000 = 0x08000000 then
      if emAddress < 0x0c000000 then
        { m with devices := dev.efbWrite (data.setWidth 32) emAddress m.devices }
      else { m with devices := dev.mmioWrite emAddress n data m.devices }
    else m

/-! ## accesses across a page boundary -/

/-- The access runs into the next page. -/
def Crosses (emAddress : BitVec 32) (n : Nat) : Prop := 4096 - n < (emAddress &&& 0xfff).toNat

instance (emAddress : BitVec 32) (n : Nat) : Decidable (Crosses emAddress n) :=
  inferInstanceAs (Decidable (4096 - n < _))

/-- `em_address_next_page`: a 64-bit sum, truncated. -/
def nextPage (emAddress : BitVec 32) (n : Nat) : BitVec 32 :=
  BitVec.ofNat 32 (emAddress.toNat + n - 1) &&& ~~~0xfff

/-- The loop of `ReadFromHardware`: `addr` is a `u32`, the bound of the loop is not. -/
def readLoop (dev : Devices δ) (flag : XCheckTLBFlag) (n bound : Nat)
    (emAddressNextPage addrNextPage : BitVec 32) :
    Nat → (addr addrTranslated : BitVec 32) → BitVec (8 * n) → Machine δ →
    Option (BitVec (8 * n) × Machine δ)
  | 0, _, _, _, _ => none
  | fuel + 1, addr, addrTranslated, var, m =>
    if addr.toNat < bound then
      let addrTranslated := if addr = emAddressNextPage then addrNextPage else addrTranslated
      let (byte, m) := readPhysical dev flag 1 addrTranslated m
      readLoop dev flag n bound emAddressNextPage addrNextPage fuel (addr + 1) (addrTranslated + 1)
        (var <<< 8 ||| byte.setWidth (8 * n)) m
    else some (var, m)

/-- `none` if the loop has not ended within `fuel` turns. -/
def readFromHardware (dev : Devices δ) (fuel : Nat) (flag : XCheckTLBFlag) (n : Nat)
    (emAddress : BitVec 32) (m : Machine δ) : Option (BitVec (8 * n) × Machine δ) :=
  if m.mmu.msrDR then
    let (translatedAddr, m) := m.translate flag emAddress
    if !translatedAddr.success then
      some (0, if flag = .read then generateDSIException emAddress m else m)
    else if Crosses emAddress n then
      let emAddressNextPage := nextPage emAddress n
      let (addrNextPage, m) := m.translate flag emAddressNextPage
      if !addrNextPage.success then
        some (0, if flag = .read then generateDSIException emAddressNextPage m else m)
      else
        readLoop dev flag n (emAddress.toNat + n) emAddressNextPage addrNextPage.address
          fuel emAddress translatedAddr.address 0 m
    else some (readPhysical dev flag n translatedAddr.address m)
  else some (readPhysical dev flag n emAddress m)

def bswap {n : Nat} (data : BitVec (8 * n)) : BitVec (8 * n) :=
  BitVec.ofNat (8 * n) (Mem.ofBytes (Mem.toBytes n data.toNat).reverse)

/-- The loop of `WriteToHardware`, with `k` of `n` bytes to go: `em_address + i` is a
64-bit sum. -/
def writeLoop (dev : Devices δ) (flag : XCheckTLBFlag) (n : Nat)
    (emAddress emAddressNextPage addrNextPage : BitVec 32) (val : BitVec (8 * n)) :
    (k : Nat) → (addrTranslated : BitVec 32) → Machine δ → Machine δ
  | 0, _, m => m
  | k + 1, addrTranslated, m =>
    let i := n - (k + 1)
    let addrTranslated :=
      if emAddress.toNat + i = emAddressNextPage.toNat then addrNextPage else addrTranslated
    writeLoop dev flag n emAddress emAddressNextPage addrNextPage val k (addrTranslated + 1)
      (writePhysical dev flag 1 addrTranslated ((val >>> (i * 8)).setWidth 8) m)

def writeToHardware (dev : Devices δ) (flag : XCheckTLBFlag) (n : Nat) (emAddress : BitVec 32)
    (data : BitVec (8 * n)) (m : Machine δ) : Machine δ :=
  if m.mmu.msrDR then
    let (translatedAddr, m) := m.translate flag emAddress
    if !translatedAddr.success then
      if flag = .write then generateDSIException emAddress m else m
    else if emAddress &&& BitVec.ofNat 32 (n - 1) ≠ 0 ∧ Crosses emAddress n then
      let emAddressNextPage := nextPage emAddress n
      let (addrNextPage, m) := m.translate flag emAddressNextPage
      if !addrNextPage.success then
        if flag = .write then generateDSIException emAddressNextPage m else m
      else
        writeLoop dev flag n emAddress emAddressNextPage addrNextPage.address (bswap data) n
          translatedAddr.address m
    else writePhysical dev flag n translatedAddr.address data m
  else writePhysical dev flag n emAddress data m

end DolphinCore.MMU
