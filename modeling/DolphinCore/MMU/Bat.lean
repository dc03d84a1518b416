import DolphinCore.Lib.Bits
import DolphinCore.MMU.Basic

/-!
# DolphinCore.MMU.Bat

The BAT tables of `Core/PowerPC/MMU.cpp`, rebuilt from the BAT registers whenever one
of them is written: one 32-bit entry for each block of 128 KiB.  The memory checks of
the debugger come in as a predicate on the address of a block.
-/

namespace DolphinCore.MMU

/-- An upper and a lower BAT register. -/
structure BatPair where
  batu : BitVec 32
  batl : BitVec 32

/-! ## fields -/

/-- `UReg_BAT_Up.VP` -/
def BatPair.vp (b : BatPair) : BitVec 32 := b.batu &&& 1

/-- `UReg_BAT_Up.VS` -/
def BatPair.vs (b : BatPair) : BitVec 32 := b.batu >>> 1 &&& 1

/-- `UReg_BAT_Up.BL` -/
def BatPair.bl (b : BatPair) : BitVec 32 := b.batu >>> 2 &&& 0x7ff

/-- `UReg_BAT_Up.BEPI` -/
def BatPair.bepi (b : BatPair) : BitVec 32 := b.batu >>> 17

/-- `UReg_BAT_Lo.BRPN` -/
def BatPair.brpn (b : BatPair) : BitVec 32 := b.batl >>> 17

def batMappedBit : BitVec 32 := 0x1

def batPhysicalBit : BitVec 32 := 0x2

/-! ## building a table -/

/-- `valid_bit` of `UpdateBATs`, before the memory checks. -/
def validBit (s : State) (physicalAddress : BitVec 32) : BitVec 32 :=
  if s.fakeVMEM && physicalAddress &&& 0xFE000000 = 0x7E000000 then batMappedBit ||| batPhysicalBit
  else if physicalAddress < 0x02000000 then batMappedBit ||| batPhysicalBit
  else if s.exram && physicalAddress >>> 28 = 1 && physicalAddress &&& 0x0FFFFFFF < 0x04000000 then
    batMappedBit ||| batPhysicalBit
  else if physicalAddress >>> 28 = 0xE && physicalAddress < 0xE0000000 + 0x40000 then
    batMappedBit ||| batPhysicalBit
  else batMappedBit

/-- The entry of a block; fastmem is off where a memory check overlaps it. -/
def batEntry (s : State) (overlapsMemcheck : BitVec 32 → Bool)
    (virtualAddress physicalAddress : BitVec 32) : BitVec 32 :=
  let valid := validBit s physicalAddress
  physicalAddress |||
    if overlapsMemcheck virtualAddress then valid &&& ~~~batPhysicalBit else valid

/-- The body of the loop over `j` in `UpdateBATs`. -/
def updateBATsBlock (s : State) (overlapsMemcheck : BitVec 32 → Bool) (b : BatPair)
    (table : BatTable) (j : BitVec 32) : BatTable :=
  if j &&& b.bl = j then
    let physicalAddress := (b.brpn ||| j) <<< 17
    let virtualAddress := (b.bepi ||| j) <<< 17
    Function.update table ((virtualAddress >>> 17).setWidth 15)
      (batEntry s overlapsMemcheck virtualAddress physicalAddress)
  else table

/-- The body of the loop over the register pairs. -/
def updateBATsPair (s : State) (overlapsMemcheck : BitVec 32 → Bool) (table : BatTable)
    (b : BatPair) : BatTable :=
  if b.vs = 0 ∧ b.vp = 0 then table
  else if b.bepi &&& b.bl ≠ 0 then table
  else
    ((List.range (b.bl.toNat + 1)).map (BitVec.ofNat 32)).foldl
      (updateBATsBlock s overlapsMemcheck b) table

def updateBATs (s : State) (overlapsMemcheck : BitVec 32 → Bool) (spr : Fin 4 → BatPair)
    (table : BatTable) : BatTable :=
  (List.ofFn spr).foldl (updateBATsPair s overlapsMemcheck) table

def updateFakeMMUBat (overlapsMemcheck : BitVec 32 → Bool) (startAddr : BitVec 32)
    (table : BatTable) : BatTable :=
  ((List.range 0x800).map (BitVec.ofNat 32)).foldl
    (fun table i =>
      let eAddress := i + startAddr >>> 17
      let pAddress := 0x7E000000 ||| (i <<< 17 &&& 0x01FFFFFF)
      let flags :=
        if overlapsMemcheck (eAddress <<< 17) then batMappedBit else batMappedBit ||| batPhysicalBit
      Function.update table (eAddress.setWidth 15) (pAddress ||| flags))
    table

/-- The table both `DBATUpdated` and `IBATUpdated` build; `extended` holds the second
four register pairs if the console has them enabled. -/
def buildBatTable (s : State) (overlapsMemcheck : BitVec 32 → Bool) (spr : Fin 4 → BatPair)
    (extended : Option (Fin 4 → BatPair)) : BatTable :=
  let table := updateBATs s overlapsMemcheck spr fun _ => 0
  let table := match extended with
    | some spr => updateBATs s overlapsMemcheck spr table
    | none => table
  if s.fakeVMEM then
    updateFakeMMUBat overlapsMemcheck 0x70000000 (updateFakeMMUBat overlapsMemcheck 0x40000000 table)
  else table

def dbatUpdated (overlapsMemcheck : BitVec 32 → Bool) (spr : Fin 4 → BatPair)
    (extended : Option (Fin 4 → BatPair)) (s : State) : State :=
  { s with dbatTable := buildBatTable s overlapsMemcheck spr extended }

def ibatUpdated (overlapsMemcheck : BitVec 32 → Bool) (spr : Fin 4 → BatPair)
    (extended : Option (Fin 4 → BatPair)) (s : State) : State :=
  { s with ibatTable := buildBatTable s overlapsMemcheck spr extended }

/-! ## entries name whole blocks -/

/-- Between the flags and the block number an entry is zero. -/
def BatAligned (table : BatTable) : Prop := ∀ i, table i &&& 0x1fffc = 0

theorem shiftLeft_and_eq_zero (x : BitVec 32) {c : BitVec 32}
    (h : BitVec.allOnes 32 <<< 17 &&& c = 0) : x <<< 17 &&& c = 0 := by
  rw [← BitVec.and_allOnes (x := x), BitVec.shiftLeft_and_distrib, BitVec.and_assoc, h]
  exact BitVec.and_zero

theorem BatAligned.foldl {f : BatTable → α → BatTable}
    (hf : ∀ table a, BatAligned table → BatAligned (f table a)) : (l : List α) →
    {table : BatTable} → BatAligned table → BatAligned (l.foldl f table)
  | [], _, h => h
  | a :: l, _, h => BatAligned.foldl hf l (hf _ a h)

variable (s : State)

theorem validBit_and (physicalAddress : BitVec 32) :
    validBit s physicalAddress &&& 0x1fffc = 0 := by
  unfold validBit
  split
  · rfl
  · split
    · rfl
    · split
      · rfl
      · split <;> rfl

theorem batEntry_and (overlapsMemcheck : BitVec 32 → Bool) (virtualAddress x : BitVec 32) :
    batEntry s overlapsMemcheck virtualAddress (x <<< 17) &&& 0x1fffc = 0 := by
  have hx := shiftLeft_and_eq_zero x (c := 0x1fffc) (by decide)
  have hvalid := validBit_and s (x <<< 17)
  unfold batEntry
  rw [BitVec.and_or_distrib_right, hx]
  split
  · rw [BitVec.and_assoc, BitVec.and_comm (~~~batPhysicalBit), ← BitVec.and_assoc, hvalid]
    rfl
  · rw [hvalid]
    rfl

theorem batAligned_updateBATs (overlapsMemcheck : BitVec 32 → Bool) (spr : Fin 4 → BatPair)
    {table : BatTable} (h : BatAligned table) :
    BatAligned (updateBATs s overlapsMemcheck spr table) := by
  refine BatAligned.foldl (fun table b h => ?_) _ h
  unfold updateBATsPair
  split
  · exact h
  · split
    · exact h
    · refine BatAligned.foldl (fun table j h => ?_) _ h
      unfold updateBATsBlock
      split
      · exact forall_update_and h _ (batEntry_and ..)
      · exact h

theorem batAligned_updateFakeMMUBat (overlapsMemcheck : BitVec 32 → Bool) (startAddr : BitVec 32)
    {table : BatTable} (h : BatAligned table) :
    BatAligned (updateFakeMMUBat overlapsMemcheck startAddr table) := by
  refine BatAligned.foldl (fun table i h => forall_update_and h _ ?_) _ h
  have hi : (i <<< 17 &&& 0x01FFFFFF) &&& 0x1fffc = 0 := by
    rw [BitVec.and_assoc]
    exact shiftLeft_and_eq_zero i (by decide)
  rw [BitVec.and_or_distrib_right, BitVec.and_or_distrib_right, hi]
  split <;> rfl

/-- **Main theorem**: every table built names whole blocks. -/
theorem batAligned_buildBatTable (overlapsMemcheck : BitVec 32 → Bool) (spr : Fin 4 → BatPair)
    (extended : Option (Fin 4 → BatPair)) :
    BatAligned (buildBatTable s overlapsMemcheck spr extended) := by
  have hempty : BatAligned fun _ => 0 := fun _ => BitVec.zero_and
  have hspr := batAligned_updateBATs s overlapsMemcheck spr hempty
  have hext : BatAligned (match extended with
      | some spr' => updateBATs s overlapsMemcheck spr'
          (updateBATs s overlapsMemcheck spr fun _ => 0)
      | none => updateBATs s overlapsMemcheck spr fun _ => 0) := by
    cases extended with
    | none => exact hspr
    | some spr' => exact batAligned_updateBATs s overlapsMemcheck spr' hspr
  unfold buildBatTable
  dsimp only
  split
  · exact batAligned_updateFakeMMUBat _ _ (batAligned_updateFakeMMUBat _ _ hext)
  · exact hext

end DolphinCore.MMU
