import DolphinCore.MMU.Access

/-!
# DolphinCore.MMU.Fault

Data accesses whose translation fails.  At most the access bits of one page table entry
have changed by then, the first page's; the exception names the page that failed.  Its
store bit is set for every address but zero, whatever the access was.
-/

namespace DolphinCore.MMU

variable {δ : Type}

/-! ## accesses -/

def clearCacheLine (dev : Devices δ) (address : BitVec 32) (m : Machine δ) : Machine δ :=
  if m.mmu.msrDR then
    let (translatedAddress, m) := m.translate .write address
    -- dcbz to direct store segments is ignored
    if translatedAddress.result = .directStoreSegment then m
    else if translatedAddress.result = .pageFault then generateDSIException address m
    else clear translatedAddress.address m
  else clear address m
where
  clear (address : BitVec 32) (m : Machine δ) : Machine δ :=
    [0, 8, 16, 24].foldl (fun m i => writePhysical dev .write 8 (address + i) 0 m) m

/-- `Read_U8` to `Read_U64`, `Write_U8` to `Write_U64`, and dcbz. -/
inductive DataAccess
  | read (n : Nat) (address : BitVec 32)
  | write (n : Nat) (address : BitVec 32) (data : BitVec (8 * n))
  | dcbz (address : BitVec 32)

namespace DataAccess

/-- The widths that the functions have. -/
def Width (n : Nat) : Prop := n = 1 ∨ n = 2 ∨ n = 4 ∨ n = 8

def WellSized : DataAccess → Prop
  | read n _ => Width n
  | write n _ _ => Width n
  | dcbz _ => True

def isWrite : DataAccess → Bool
  | read _ _ => false
  | _ => true

def isDcbz : DataAccess → Bool
  | dcbz _ => true
  | _ => false

def flag (a : DataAccess) : XCheckTLBFlag := if a.isWrite then .write else .read

def address : DataAccess → BitVec 32
  | read _ address => address
  | write _ address _ => address
  | dcbz address => address

/-- The second page that the access touches. -/
def secondPage : DataAccess → Option (BitVec 32)
  | read n address => if Crosses address n then some (nextPage address n) else none
  | write n address _ => if Crosses address n then some (nextPage address n) else none
  | dcbz _ => none

/-- The machine after the access; a load may need turns of its loop. -/
def exec (dev : Devices δ) (fuel : Nat) (m : Machine δ) : DataAccess → Option (Machine δ)
  | read n address => (readFromHardware dev fuel .read n address m).map Prod.snd
  | write n address data => some (writeToHardware dev .write n address data m)
  | dcbz address => some (clearCacheLine dev address m)

/-- The address whose translation fails, how, and the machine then: the pages are translated
one after the other. -/
def fault (m : Machine δ) (a : DataAccess) : Option (BitVec 32 × TranslateResult × Machine δ) :=
  let first := translateAddress a.flag a.address m.mmu
  if first.1.success then
    a.secondPage.bind fun next =>
      let second := translateAddress a.flag next first.2
      if second.1.success then none else some (next, second.1.result, m.setMMU second.2)
  else some (a.address, first.1.result, m.setMMU first.2)

end DataAccess

/-! ## what a failed access leaves -/

/-- `PPC_EXC_DSISR_STORE` -/
def dsisrStore : BitVec 32 := 1 <<< 25

/-- Two memories that differ in the access bits of a page table entry at most. -/
def AccessBitsOnly (m m' : Mem 32) : Prop :=
  m' = m ∨ ∃ pteg bits, readWord m pteg &&& pte1V ≠ 0 ∧ bits &&& ~~~(pte2R ||| pte2C) = 0 ∧
    m' = writeWord m (pteg + 4) (readWord m (pteg + 4) ||| bits)

/-- The exception is pending, and the registers tell the page and the kind of access. -/
structure Reports (m : Machine δ) (write : Bool) (faultAddress : BitVec 32) : Prop where
  pending : m.exceptionDSI = true
  dar : pageOf m.sprDAR = pageOf faultAddress
  store : m.sprDSISR &&& dsisrStore ≠ 0 ↔ write = true

/-- What is to hold after a failed access. -/
structure FaultSpec (m m' : Machine δ) (write : Bool) (faultAddress : BitVec 32) : Prop where
  memory : AccessBitsOnly m.mmu.physicalBase m'.mmu.physicalBase
  devices : m'.devices = m.devices
  reports : Reports m' write faultAddress

/-! ## translations -/

section

variable {s : State} {flag : XCheckTLBFlag} {address : BitVec 32}

theorem setAccessBits_eq (flag : XCheckTLBFlag) (pte2 : BitVec 32) :
    ∃ bits, bits &&& ~~~(pte2R ||| pte2C) = 0 ∧ setAccessBits flag pte2 = pte2 ||| bits := by
  cases flag with
  | noException => exact ⟨0, by decide, BitVec.or_zero.symm⟩
  | opcodeNoException => exact ⟨0, by decide, BitVec.or_zero.symm⟩
  | read => exact ⟨pte2R, by decide, rfl⟩
  | opcode => exact ⟨pte2R, by decide, rfl⟩
  | write => exact ⟨pte2R ||| pte2C, by decide, BitVec.or_assoc ..⟩

theorem searchPTEG_eq_some {m : Mem 32} {pte1 : BitVec 32} : (n : Nat) → {a b : BitVec 32} →
    searchPTEG m pte1 a n = some b → readWord m b = pte1
  | n + 1, a, b, h => by
    rw [searchPTEG] at h
    split at h
    · next heq =>
      cases h
      exact heq
    · exact searchPTEG_eq_some n h

theorem findPTE_valid {pteg : BitVec 32} (h : findPTE s address = some pteg) :
    readWord s.physicalBase pteg &&& pte1V ≠ 0 := by
  have hvalid : ∀ x : BitVec 32, (x ||| pte1V) &&& pte1V ≠ 0 := by
    intro x h
    rw [BitVec.and_or_distrib_right, BitVec.and_self] at h
    have hor := (BitVec.or_eq_zero_iff.mp h).2
    exact absurd hor (by decide)
  unfold findPTE at h
  rw [Option.or_eq_some_iff] at h
  rcases h with h | ⟨-, h⟩
  · rw [searchPTEG_eq_some 8 h]
    exact hvalid _
  · rw [searchPTEG_eq_some 8 h, BitVec.or_assoc, BitVec.or_comm pte1V, ← BitVec.or_assoc]
    exact hvalid _

theorem lookupTLBPageAddress_physicalBase (flag : XCheckTLBFlag) (vpa : BitVec 32) (s : State) :
    (lookupTLBPageAddress flag vpa s).2.2.physicalBase = s.physicalBase := by
  rw [lookupTLBPageAddress_eq]
  split
  · unfold lookupWay
    dsimp only
    split <;> rfl
  · rfl

theorem updateTLBEntry_physicalBase (flag : XCheckTLBFlag) (pte2 address : BitVec 32) (s : State) :
    (updateTLBEntry flag pte2 address s).physicalBase = s.physicalBase := by
  unfold updateTLBEntry
  split <;> rfl

theorem walkPageTable_physicalBase (address : BitVec 32) (flag : XCheckTLBFlag)
    (res : TLBLookupResult) (s : State) :
    AccessBitsOnly s.physicalBase (walkPageTable address flag res s).2.physicalBase ∧
    ((walkPageTable address flag res s).1.success = false →
      (walkPageTable address flag res s).2.physicalBase = s.physicalBase) := by
  unfold walkPageTable
  dsimp only
  split
  · exact ⟨.inl rfl, fun _ => rfl⟩
  · split
    · exact ⟨.inl rfl, fun _ => rfl⟩
    · cases hf : findPTE s address with
      | none => exact ⟨.inl rfl, fun _ => rfl⟩
      | some pteg =>
        obtain ⟨bits, hbits, hset⟩ := setAccessBits_eq flag (readWord s.physicalBase (pteg + 4))
        refine ⟨?_, fun h => absurd h (by simp [TranslateAddressResult.success])⟩
        by_cases hno : flag.isNoException
        · left
          simp only [hno, if_true]
          split
          · rfl
          · exact updateTLBEntry_physicalBase ..
        · right
          refine ⟨pteg, bits, findPTE_valid hf, hbits, ?_⟩
          simp only [hno, ← hset]
          split
          · rfl
          · exact updateTLBEntry_physicalBase ..

theorem translateAddress_physicalBase (flag : XCheckTLBFlag) (address : BitVec 32) (s : State) :
    AccessBitsOnly s.physicalBase (translateAddress flag address s).2.physicalBase ∧
    ((translateAddress flag address s).1.success = false →
      (translateAddress flag address s).2.physicalBase = s.physicalBase) := by
  unfold translateAddress
  split
  · exact ⟨.inl rfl, fun _ => rfl⟩
  · unfold translatePageAddress
    have hlookup := lookupTLBPageAddress_physicalBase flag address s
    split
    · next paddr s' hfound =>
      rw [hfound] at hlookup
      exact ⟨.inl hlookup, fun _ => hlookup⟩
    · next res paddr s' hne hlook =>
      rw [hlook] at hlookup
      obtain ⟨hbits, hfail⟩ := walkPageTable_physicalBase address flag res s'
      have hlookup' : s'.physicalBase = s.physicalBase := hlookup
      rw [hlookup'] at hbits hfail
      exact ⟨hbits, hfail⟩

end

/-! ## failed accesses -/

section

variable {m : Machine δ}

@[simp] theorem Machine.translate_fst (m : Machine δ) (flag : XCheckTLBFlag) (address : BitVec 32) :
    (m.translate flag address).1 = (translateAddress flag address m.mmu).1 := rfl

@[simp] theorem Machine.translate_mmu (m : Machine δ) (flag : XCheckTLBFlag) (address : BitVec 32) :
    (m.translate flag address).2 = m.setMMU (translateAddress flag address m.mmu).2 := rfl

theorem DataAccess.fault_spec {a : DataAccess} {faultAddress : BitVec 32}
    {result : TranslateResult} {m' : Machine δ} (h : a.fault m = some (faultAddress, result, m')) :
    (∃ s, m' = m.setMMU s) ∧ AccessBitsOnly m.mmu.physicalBase m'.mmu.physicalBase := by
  unfold DataAccess.fault at h
  simp only at h
  obtain ⟨hbits, hfail⟩ := translateAddress_physicalBase a.flag a.address m.mmu
  cases hfirst : (translateAddress a.flag a.address m.mmu).1.success
  · rw [hfirst, if_neg Bool.false_ne_true] at h
    cases h
    exact ⟨⟨_, rfl⟩, hbits⟩
  · rw [hfirst, if_pos rfl] at h
    obtain ⟨page, -, h⟩ := Option.bind_eq_some_iff.mp h
    cases hsecond : (translateAddress a.flag page
      (translateAddress a.flag a.address m.mmu).2).1.success
    · have hsame := (translateAddress_physicalBase a.flag page
        (translateAddress a.flag a.address m.mmu).2).2 hsecond
      rw [hsecond, if_neg Bool.false_ne_true] at h
      cases h
      refine ⟨⟨_, rfl⟩, ?_⟩
      rw [Machine.setMMU_mmu, hsame]
      exact hbits
    · rw [hsecond, if_pos rfl] at h
      cases h

theorem misaligned_of_crosses {n : Nat} (hn : DataAccess.Width n) {address : BitVec 32}
    (h : Crosses address n) : address &&& BitVec.ofNat 32 (n - 1) ≠ 0 := by
  have hoffset := toNat_eaOffset address
  unfold Crosses at h
  unfold eaOffset at hoffset
  intro hzero
  have hzero' := congrArg BitVec.toNat hzero
  rcases hn with rfl | rfl | rfl | rfl
  · omega
  · simp at hzero'
    omega
  · rw [toNat_and_mask address 2 rfl] at hzero'
    simp at hzero'
    omega
  · rw [toNat_and_mask address 3 rfl] at hzero'
    simp at hzero'
    omega

theorem DataAccess.exec_of_fault (dev : Devices δ) (fuel : Nat) {a : DataAccess}
    (hsized : a.WellSized) (hDR : m.mmu.msrDR = true) {faultAddress : BitVec 32}
    {result : TranslateResult} {m' : Machine δ} (h : a.fault m = some (faultAddress, result, m')) :
    a.exec dev fuel m = some (if a.isDcbz ∧ result = .directStoreSegment then m'
        else generateDSIException faultAddress m') := by
  unfold DataAccess.fault at h
  simp only at h
  cases hfirst : (translateAddress a.flag a.address m.mmu).1.success
  · rw [hfirst, if_neg Bool.false_ne_true] at h
    cases h
    cases a with
    | read n address =>
      have hfirst' : (translateAddress .read address m.mmu).1.success = false := hfirst
      simp [DataAccess.exec, readFromHardware, hDR, hfirst', DataAccess.address, DataAccess.flag,
        DataAccess.isWrite, DataAccess.isDcbz]
    | write n address data =>
      have hfirst' : (translateAddress .write address m.mmu).1.success = false := hfirst
      simp [DataAccess.exec, writeToHardware, hDR, hfirst', DataAccess.address, DataAccess.flag,
        DataAccess.isWrite, DataAccess.isDcbz]
    | dcbz address =>
      have hfirst' : (translateAddress .write address m.mmu).1.success = false := hfirst
      have hresult : (translateAddress .write address m.mmu).1.result = .directStoreSegment ∨
          (translateAddress .write address m.mmu).1.result = .pageFault := by
        unfold TranslateAddressResult.success at hfirst'
        cases hr : (translateAddress .write address m.mmu).1.result <;> simp [hr] at hfirst' ⊢
      rcases hresult with hresult | hresult <;>
        simp [DataAccess.exec, clearCacheLine, hDR, hresult, DataAccess.address, DataAccess.flag,
          DataAccess.isWrite, DataAccess.isDcbz]
  · rw [hfirst, if_pos rfl] at h
    obtain ⟨page, hpage, h⟩ := Option.bind_eq_some_iff.mp h
    cases hsecond : (translateAddress a.flag page
      (translateAddress a.flag a.address m.mmu).2).1.success
    · rw [hsecond, if_neg Bool.false_ne_true] at h
      cases h
      cases a with
      | read n address =>
        obtain ⟨hc, hpage⟩ := Option.ite_none_right_eq_some.mp hpage
        cases hpage
        have hfirst' : (translateAddress .read address m.mmu).1.success = true := hfirst
        have hsecond' : (translateAddress .read (nextPage address n)
          (translateAddress .read address m.mmu).2).1.success = false := hsecond
        simp [DataAccess.exec, readFromHardware, hDR, hfirst', hc, hsecond', DataAccess.address,
          DataAccess.flag, DataAccess.isWrite, DataAccess.isDcbz]
      | write n address data =>
        obtain ⟨hc, hpage⟩ := Option.ite_none_right_eq_some.mp hpage
        cases hpage
        have hmis := misaligned_of_crosses hsized hc
        have hfirst' : (translateAddress .write address m.mmu).1.success = true := hfirst
        have hsecond' : (translateAddress .write (nextPage address n)
          (translateAddress .write address m.mmu).2).1.success = false := hsecond
        simp [DataAccess.exec, writeToHardware, hDR, hfirst', hc, hsecond', DataAccess.address,
          DataAccess.flag, DataAccess.isWrite, DataAccess.isDcbz]
        exact fun haligned => absurd haligned hmis
      | dcbz address => cases hpage
    · rw [hsecond, if_pos rfl] at h
      cases h

theorem generateDSIException_reports (hMMU : m.bMMU = true) (faultAddress : BitVec 32)
    (write : Bool) : Reports (generateDSIException faultAddress m) write faultAddress ↔
      (write = true ↔ faultAddress ≠ 0) := by
  have hstore : (if faultAddress ≠ 0 then 1 <<< 30 ||| 1 <<< 25 else 1 <<< 30 : BitVec 32) &&&
      dsisrStore ≠ 0 ↔ faultAddress ≠ 0 := by
    by_cases h : faultAddress ≠ 0
    · rw [if_pos h]
      exact iff_of_true (by decide) h
    · rw [if_neg h]
      exact iff_of_false (by decide) h
  unfold generateDSIException
  rw [hMMU, Bool.not_true, if_neg Bool.false_ne_true]
  constructor
  · intro h
    exact h.store.symm.trans hstore
  · intro h
    exact ⟨rfl, rfl, hstore.trans h.symm⟩

/-- **What a failed access leaves**, in MMU mode and for any state of the TLB.  Memory and
devices are as they were but for access bits.  The report is right exactly when the access is
a write to an address other than zero or a load from zero; dcbz to a direct-store segment
reports nothing. -/
theorem DataAccess.faultSpec_iff (dev : Devices δ) (fuel : Nat) {a : DataAccess}
    (hsized : a.WellSized) (hMMU : m.bMMU = true) (hDR : m.mmu.msrDR = true)
    {faultAddress : BitVec 32} {result : TranslateResult} {m' : Machine δ}
    (h : a.fault m = some (faultAddress, result, m')) :
    ∃ m'', a.exec dev fuel m = some m'' ∧
      AccessBitsOnly m.mmu.physicalBase m''.mmu.physicalBase ∧ m''.devices = m.devices ∧
      (FaultSpec m m'' a.isWrite faultAddress ↔
        if a.isDcbz ∧ result = .directStoreSegment then Reports m a.isWrite faultAddress
        else (a.isWrite = true ↔ faultAddress ≠ 0)) := by
  obtain ⟨⟨s, rfl⟩, hbits⟩ := DataAccess.fault_spec h
  have hMMU' : (m.setMMU s).bMMU = true := hMMU
  refine ⟨_, DataAccess.exec_of_fault dev fuel hsized hDR h, ?_⟩
  split
  · refine ⟨hbits, rfl, fun h => ?_, fun h => ⟨hbits, rfl, ?_⟩⟩
    · exact ⟨h.reports.pending, h.reports.dar, h.reports.store⟩
    · exact ⟨h.pending, h.dar, h.store⟩
  · have hmmu : (generateDSIException faultAddress (m.setMMU s)).mmu = s := by
      unfold generateDSIException
      split <;> rfl
    have hdevices : (generateDSIException faultAddress (m.setMMU s)).devices = m.devices := by
      unfold generateDSIException
      split <;> rfl
    rw [Machine.setMMU_mmu] at hbits
    rw [hmmu]
    refine ⟨hbits, hdevices, ?_⟩
    rw [← generateDSIException_reports hMMU']
    constructor
    · exact fun h => h.reports
    · exact fun h => ⟨by rwa [hmmu], hdevices, h⟩

end

/-- A machine in MMU mode with one page table, which has no entries. -/
def unmappedMachine : Machine Unit := machineOf clearedState

/-- A store across two pages, the first of which is not mapped. -/
theorem faultSpec_iff_store : ∃ m'', (DataAccess.write 4 0xFFE 0).exec noDevices 0 unmappedMachine =
    some m'' ∧ FaultSpec unmappedMachine m'' true 0xFFE := by
  obtain ⟨m', hfault⟩ : ∃ m', (DataAccess.write 4 0xFFE 0).fault unmappedMachine =
      some (0xFFE, .pageFault, m') := ⟨_, rfl⟩
  have hsized : (DataAccess.write 4 0xFFE 0).WellSized := Or.inr (Or.inr (Or.inl rfl))
  obtain ⟨m'', hexec, -, -, hiff⟩ := DataAccess.faultSpec_iff noDevices 0 hsized rfl rfl hfault
  refine ⟨m'', hexec, hiff.mpr ?_⟩
  rw [if_neg (by decide)]
  decide

/-- A load is reported as a store. -/
theorem load_reported_as_store : (readFromHardware noDevices 0 .read 4 0x1000 unmappedMachine).map
        (fun r => (r.2.exceptionDSI, r.2.sprDAR, r.2.sprDSISR &&& dsisrStore)) =
      some (true, 0x1000, dsisrStore) := by
  decide

end DolphinCore.MMU
