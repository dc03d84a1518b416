import DolphinCore.Lib.FinLiteral
import DolphinCore.Lib.Bits
import DolphinCore.Lib.Ordered
import DolphinCore.Lib.NodeMap

/-!
# DolphinCore.JitCache.Basic

`JitBaseBlockCache` of `Core/PowerPC/JitCommon/JitCache.cpp`: the compiled blocks, the
maps that lead to them, and the links between them.

A `JitBlock*` is the address of a node of `block_map`.  `WriteLinkBlock` patches the jump
of an exit; the block it was last pointed at is kept with the exit.
-/

namespace DolphinCore.JitCache

abbrev BlockPtr := Nat

/-! ## blocks -/

/-- `JitBlock::LinkData`; the jump at `exitPtrs` goes to a block, or to the dispatcher. -/
structure LinkData where
  exitAddress : BitVec 32
  linkStatus : Bool
  exitPtrs : Option BlockPtr

abbrev fastBlockMapElements : Nat := 0x10000

structure JitBlock where
  normalEntry : BitVec 64
  effectiveAddress : BitVec 32
  msrBits : BitVec 32
  physicalAddress : BitVec 32
  linkData : List LinkData
  physicalAddresses : OrdSet (BitVec 32)
  fastBlockMapIndex : Fin fastBlockMapElements

def JitBlock.overlapsPhysicalRange (b : JitBlock) (address length : BitVec 32) : Bool :=
  b.physicalAddresses.lowerBound address ≠ b.physicalAddresses.lowerBound (address + length)

/-- Rewrites the exits of a block. -/
def JitBlock.relink (f : LinkData → LinkData) (b : JitBlock) : JitBlock :=
  { b with linkData := b.linkData.map f }

/-! ## the bit set of occupied cache lines -/

structure ValidBlockBitSet where
  validBlock : BitVec 32 → BitVec 32

namespace ValidBlockBitSet

def set (v : ValidBlockBitSet) (bit : BitVec 32) : ValidBlockBitSet :=
  ⟨Function.update v.validBlock (bit / 32) (v.validBlock (bit / 32) ||| 1#32 <<< (bit % 32).toNat)⟩

def clear (v : ValidBlockBitSet) (bit : BitVec 32) : ValidBlockBitSet :=
  ⟨Function.update v.validBlock (bit / 32)
    (v.validBlock (bit / 32) &&& ~~~(1#32 <<< (bit % 32).toNat))⟩

def clearAll : ValidBlockBitSet := ⟨fun _ => 0⟩

def test (v : ValidBlockBitSet) (bit : BitVec 32) : Bool :=
  v.validBlock (bit / 32) &&& 1#32 <<< (bit % 32).toNat ≠ 0

end ValidBlockBitSet

/-! ## the cache -/

def jitCacheMsrMask : BitVec 32 := 0x30

def fastBlockMapMask : BitVec 32 := 0xffff

/-- `~(BLOCK_RANGE_MAP_ELEMENTS - 1)` -/
def rangeMask : BitVec 32 := ~~~(0x100 - 1)

/-- What `JitCache_TranslateAddress` returns. -/
structure TranslateResult where
  valid : Bool
  address : BitVec 32

/-- What an operation sees of the machine: the address translation and the `MSR`. -/
structure Env where
  jitCacheTranslateAddress : BitVec 32 → TranslateResult
  msr : BitVec 32

/-- `JitBaseBlockCache`, and the two sets of addresses of `m_jit.js`; a block stands in
`block_map` under its `physicalAddress`. -/
structure JitBaseBlockCache where
  linksTo : List (BitVec 32 × BlockPtr)
  blockMap : NodeMap JitBlock
  blockRangeMap : OrdMap (BitVec 32) (OrdSet BlockPtr)
  validBlock : ValidBlockBitSet
  fastBlockMap : Fin fastBlockMapElements → Option BlockPtr
  fifoWriteAddresses : OrdSet (BitVec 32)
  pairedQuantizeAddresses : OrdSet (BitVec 32)

def init : JitBaseBlockCache where
  linksTo := []
  blockMap := .empty
  blockRangeMap := .empty
  validBlock := .clearAll
  fastBlockMap := fun _ => none
  fifoWriteAddresses := .empty
  pairedQuantizeAddresses := .empty

/-- The blocks a range of equal keys of `links_to` names. -/
def equalRange (links : List (BitVec 32 × BlockPtr)) (address : BitVec 32) : List BlockPtr :=
  (links.filter (·.1 = address)).map Prod.snd

namespace JitBaseBlockCache

variable (s : JitBaseBlockCache) (env : Env)

def modifyBlock (p : BlockPtr) (f : JitBlock → JitBlock) : JitBaseBlockCache :=
  { s with blockMap := s.blockMap.modify p f }

def fastLookupIndexForAddress (address : BitVec 32) : Fin fastBlockMapElements :=
  ⟨((address >>> 2) &&& fastBlockMapMask).toNat, by
    rw [toNat_and_mask _ 16 rfl]
    exact Nat.mod_lt _ (by decide)⟩

/-- `GetBlockFromStartAddress`; bit 5 of an `MSR` is `IR`. -/
def getBlockFromStartAddress (addr msr : BitVec 32) : Option BlockPtr :=
  let translated : TranslateResult :=
    if msr.getLsbD 5 then env.jitCacheTranslateAddress addr else ⟨true, addr⟩
  if !translated.valid then none
  else
    let range := s.blockMap.entries.filter (·.2.physicalAddress = translated.address)
    (range.find? fun e =>
      e.2.effectiveAddress = addr && e.2.msrBits = msr &&& jitCacheMsrMask).map Prod.fst

/-! ## links -/

/-- What `LinkBlockExits` does to one exit. -/
def linkExit (msrBits : BitVec 32) (e : LinkData) : LinkData :=
  if e.linkStatus then e
  else
    match s.getBlockFromStartAddress env e.exitAddress msrBits with
    | some destinationBlock => { e with exitPtrs := some destinationBlock, linkStatus := true }
    | none => e

def linkBlockExits (p : BlockPtr) : JitBaseBlockCache :=
  s.modifyBlock p fun block => block.relink (s.linkExit env block.msrBits)

def linkBlock (p : BlockPtr) : JitBaseBlockCache :=
  match s.blockMap.get? p with
  | none => s
  | some block =>
    let s := s.linkBlockExits env p
    (equalRange s.linksTo block.effectiveAddress).foldl (fun s q =>
      match s.blockMap.get? q with
      | some b2 => if block.msrBits = b2.msrBits then s.linkBlockExits env q else s
      | none => s) s

/-- What `UnlinkBlock` does to a block that may lead to `block`. -/
def unlinkFrom (block sourceBlock : JitBlock) : JitBlock :=
  if sourceBlock.msrBits ≠ block.msrBits then sourceBlock
  else
    sourceBlock.relink fun e =>
      if e.exitAddress = block.effectiveAddress then { e with exitPtrs := none, linkStatus := false }
      else e

def unlinkBlock (p : BlockPtr) : JitBaseBlockCache :=
  match s.blockMap.get? p with
  | none => s
  | some block =>
    let s := s.modifyBlock p (·.relink fun e => { e with exitPtrs := none })
    { s with
      blockMap := (equalRange s.linksTo block.effectiveAddress).foldl
        (fun m q => m.modify q (unlinkFrom block)) s.blockMap }

/-- Drops the entry of a block in `fast_block_map`. -/
def dropFastEntry (p : BlockPtr) (block : JitBlock) : JitBaseBlockCache :=
  { s with
    fastBlockMap :=
      if s.fastBlockMap block.fastBlockMapIndex = some p then
        Function.update s.fastBlockMap block.fastBlockMapIndex none
      else s.fastBlockMap }

def destroyBlock (p : BlockPtr) : JitBaseBlockCache :=
  match s.blockMap.get? p with
  | none => s
  | some block =>
    let s := s.dropFastEntry p block
    let s := s.unlinkBlock p
    { s with
      linksTo := block.linkData.foldl
        (fun links e => links.filter fun l => !(l.1 = e.exitAddress && l.2 = p)) s.linksTo }

/-! ## operations -/

def clear : JitBaseBlockCache :=
  let s := { s with fifoWriteAddresses := .empty, pairedQuantizeAddresses := .empty }
  let s := (s.blockMap.entries.map Prod.fst).foldl destroyBlock s
  { s with
    blockMap := .empty
    linksTo := []
    blockRangeMap := .empty
    validBlock := .clearAll
    fastBlockMap := fun _ => none }

/-- `AllocateBlock`, if the allocator gives the new node the address `p`. -/
def allocateBlock (p : BlockPtr) (emAddress : BitVec 32) : Option JitBaseBlockCache :=
  let physicalAddress := (env.jitCacheTranslateAddress emAddress).address
  if h : s.blockMap.get? p = none then
    some { s with
      blockMap := s.blockMap.push p {
        normalEntry := 0
        effectiveAddress := emAddress
        msrBits := env.msr &&& jitCacheMsrMask
        physicalAddress := physicalAddress
        linkData := []
        physicalAddresses := .empty
        fastBlockMapIndex := 0 } h }
  else none

/-- What the JIT leaves in a new block: its entry point, and exits that go to the
dispatcher. -/
def doJit (p : BlockPtr) (normalEntry : BitVec 64) (exits : List (BitVec 32)) : JitBaseBlockCache :=
  s.modifyBlock p fun b =>
    { b with normalEntry := normalEntry, linkData := exits.map fun a => ⟨a, false, none⟩ }

/-- Enters the instructions of a block into `valid_block` and `block_range_map`. -/
def occupy (p : BlockPtr) (physicalAddresses : OrdSet (BitVec 32)) : JitBaseBlockCache :=
  { s with
    validBlock := physicalAddresses.toList.foldl (fun v addr => v.set (addr / 32)) s.validBlock
    blockRangeMap := physicalAddresses.toList.foldl
      (fun m addr => m.modify (addr &&& rangeMask) (·.insert p)) s.blockRangeMap }

def finalizeBlock (p : BlockPtr) (blockLink : Bool) (physicalAddresses : OrdSet (BitVec 32)) :
    JitBaseBlockCache :=
  match s.blockMap.get? p with
  | none => s
  | some block =>
    let index := fastLookupIndexForAddress block.effectiveAddress
    let s := { s with fastBlockMap := Function.update s.fastBlockMap index (some p) }
    let s := s.modifyBlock p fun b =>
      { b with fastBlockMapIndex := index, physicalAddresses := physicalAddresses }
    let s := s.occupy p physicalAddresses
    if blockLink then
      let s := { s with linksTo := s.linksTo ++ block.linkData.map fun (e : LinkData) => (e.exitAddress, p) }
      s.linkBlock env p
    else s

def moveBlockIntoFastCache (addr msr : BitVec 32) : Option BlockPtr × JitBaseBlockCache :=
  match s.getBlockFromStartAddress env addr msr with
  | none => (none, s)
  | some p =>
    match s.blockMap.get? p with
    | none => (none, s)
    | some block =>
      let s := s.dropFastEntry p block
      let index := fastLookupIndexForAddress addr
      let s := { s with fastBlockMap := Function.update s.fastBlockMap index (some p) }
      (some p, s.modifyBlock p fun b => { b with fastBlockMapIndex := index })

/-- `Dispatch`: the entry point of the block at `PC`. -/
def dispatch (pc : BitVec 32) : Option (BitVec 64) × JitBaseBlockCache :=
  let fast := s.fastBlockMap (fastLookupIndexForAddress pc)
  match fast.bind s.blockMap.get? with
  | some block =>
    if block.effectiveAddress ≠ pc || block.msrBits ≠ env.msr &&& jitCacheMsrMask then
      let (p, s) := s.moveBlockIntoFastCache env pc (env.msr &&& jitCacheMsrMask)
      ((p.bind s.blockMap.get?).map (·.normalEntry), s)
    else (some block.normalEntry, s)
  | none =>
    let (p, s) := s.moveBlockIntoFastCache env pc (env.msr &&& jitCacheMsrMask)
    ((p.bind s.blockMap.get?).map (·.normalEntry), s)

/-! ## invalidation -/

/-- Removes a block that overlaps the range while macro block `k` is walked. -/
def removeBlock (k : BitVec 32) (p : BlockPtr) (block : JitBlock) : JitBaseBlockCache :=
  let s := { s with
    blockRangeMap := block.physicalAddresses.toList.foldl
      (fun m addr =>
        if addr &&& rangeMask ≠ k then m.modify (addr &&& rangeMask) (·.erase p) else m)
      s.blockRangeMap }
  let s := s.destroyBlock p
  { s with
    blockMap := s.blockMap.erase p
    blockRangeMap := s.blockRangeMap.modify k (·.erase p) }

/-- The inner loop of `ErasePhysicalRange`, over the blocks of macro block `k`; `none` is
a pointer that leads nowhere. -/
def eraseInMacroBlock (k address length : BitVec 32) :
    List BlockPtr → JitBaseBlockCache → Option JitBaseBlockCache
  | [], s => some s
  | p :: ps, s =>
    match s.blockMap.get? p with
    | none => none
    | some block =>
      if block.overlapsPhysicalRange address length then
        eraseInMacroBlock k address length ps (s.removeBlock k p block)
      else eraseInMacroBlock k address length ps s

/-- The outer loop of `ErasePhysicalRange`, with its two iterators; `none` is a walk past
the end of the map.  Every round moves to a greater key, so that `2 ^ 32 + 1` rounds are
never used up. -/
def eraseMacroBlocks (address length : BitVec 32) (stop : Option (BitVec 32)) :
    Nat → Option (BitVec 32) → JitBaseBlockCache → Option JitBaseBlockCache
  | 0, _, _ => none
  | fuel + 1, start, s =>
    if start = stop then some s
    else
      match start with
      | none => none
      | some k =>
        match s.blockRangeMap.find k with
        | none => none
        | some blocks =>
          match eraseInMacroBlock k address length blocks.toList s with
          | none => none
          | some s =>
            let next := s.blockRangeMap.keys.next k
            let s :=
              if (s.blockRangeMap.find k).any OrdSet.isEmpty then
                { s with blockRangeMap := s.blockRangeMap.erase k }
              else s
            eraseMacroBlocks address length stop fuel next s

def erasePhysicalRange (address length : BitVec 32) : Option JitBaseBlockCache :=
  let start := s.blockRangeMap.keys.lowerBound (address &&& rangeMask)
  let stop := s.blockRangeMap.keys.lowerBound (address + length)
  eraseMacroBlocks address length stop (2 ^ 32 + 1) start s

/-- The loop of `InvalidateICache` over the addresses of `m_jit.js`; it goes through at
most `2 ^ 30` addresses if it ends. -/
def eraseWriteAddresses (stop : BitVec 32) :
    Nat → BitVec 32 → JitBaseBlockCache → Option JitBaseBlockCache
  | 0, _, _ => none
  | fuel + 1, i, s =>
    if i < stop then
      eraseWriteAddresses stop fuel (i + 4)
        { s with
          fifoWriteAddresses := s.fifoWriteAddresses.erase i
          pairedQuantizeAddresses := s.pairedQuantizeAddresses.erase i }
    else some s

/-- `InvalidateICache`; `none` if it does not return. -/
def invalidateICache (address length : BitVec 32) (forced : Bool) : Option JitBaseBlockCache :=
  let translated := env.jitCacheTranslateAddress address
  if !translated.valid then some s
  else
    let pAddr := translated.address
    if length = 32 && !s.validBlock.test (pAddr / 32) then some s
    else
      let s := if length = 32 then { s with validBlock := s.validBlock.clear (pAddr / 32) } else s
      match s.erasePhysicalRange pAddr length with
      | none => none
      | some s =>
        if !forced then eraseWriteAddresses (address + length) (2 ^ 30 + 1) address s
        else some s

end JitBaseBlockCache

/-! ## runs -/

inductive Op
  | compile (p : BlockPtr) (emAddress : BitVec 32) (normalEntry : BitVec 64)
      (exits : List (BitVec 32)) (blockLink : Bool) (physicalAddresses : OrdSet (BitVec 32))
  | dispatch (pc : BitVec 32)
  | moveBlockIntoFastCache (addr msr : BitVec 32)
  | invalidateICache (address length : BitVec 32) (forced : Bool)
  | erasePhysicalRange (address length : BitVec 32)
  | clear

open JitBaseBlockCache in
/-- One operation, under the translation and the `MSR` of its own time; `none` if it does
not return, or if the allocator gave out an address that is in use. -/
def step (s : JitBaseBlockCache) (a : Env × Op) : Option JitBaseBlockCache :=
  match a.2 with
  | .compile p emAddress normalEntry exits blockLink physicalAddresses =>
    (s.allocateBlock a.1 p emAddress).map fun s =>
      (s.doJit p normalEntry exits).finalizeBlock a.1 p blockLink physicalAddresses
  | .dispatch pc => some (s.dispatch a.1 pc).2
  | .moveBlockIntoFastCache addr msr => some (s.moveBlockIntoFastCache a.1 addr msr).2
  | .invalidateICache address length forced => s.invalidateICache a.1 address length forced
  | .erasePhysicalRange address length => s.erasePhysicalRange address length
  | .clear => some s.clear

end DolphinCore.JitCache
