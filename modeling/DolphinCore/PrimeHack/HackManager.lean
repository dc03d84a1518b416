import DolphinCore.Lib.Run
import DolphinCore.PrimeHack.PrimeMod

/-!
# DolphinCore.PrimeHack.HackManager

`HackManager` of `HackManager.cpp`: the frames, in which the mods are reset on a change of the game,
initialised, applied and run, and the revert of all changes around a savestate.
-/

namespace DolphinCore.PrimeHack

inductive Game
  | INVALID_GAME
  | MENU
  | MENU_PRIME_1
  | MENU_PRIME_2
  | PRIME_1
  | PRIME_2
  | PRIME_3
  | PRIME_3_STANDALONE
  | PRIME_1_GCN
  | PRIME_2_GCN
  deriving DecidableEq, Repr

inductive Region
  | INVALID_REGION
  | NTSC_U
  | PAL
  | NTSC_J
  deriving DecidableEq, Repr

/-- The mods stand in the order of their names, by which `std::map` goes over them. -/
structure HackManager where
  last_game : Game
  last_region : Region
  mods : List PrimeMod
  mod_state_backup : Option (List ModState)

/-- What a frame does with one mod: the state that `update_mod_states` leaves, the changes that
`init_mod` adds and what it returns, and the calls of `set_code_group_state` in `run_mod`. -/
structure ModInput where
  state : ModState
  inits : List AddedChange
  was_init : Bool
  calls : List (String × ModState)

/-- A frame: the game and region that are detected, and what it does with the mods. -/
structure Frame where
  game : Game
  region : Region
  mods : Nat → ModInput

/-- As many mods as there are, none of them used yet. -/
def HackManager.init (n : Nat) : HackManager :=
  ⟨.INVALID_GAME, .INVALID_REGION, List.replicate n .new, none⟩

/-! ## a frame -/

/-- `init_mod` and `mark_initialized` of a mod that is not initialised. -/
def initMod (m : PrimeMod) (input : ModInput) : PrimeMod :=
  if m.initialized then m
  else
    let m' := input.inits.foldl PrimeMod.addCodeChange m
    if input.was_init then { m' with initialized := true } else m'

/-- The update of the original instructions and the writes of a mod that is to be applied. -/
def flushMod (m : PrimeMod) (mem : Memory) : PrimeMod × Memory :=
  if m.shouldApplyChanges mem then
    let m' := m.updateOriginalInstructions mem
    (m', m'.applyInstructionChanges mem)
  else (m, mem)

/-- The first loop of `run_active_mods`, over the mods from the `i`-th on. -/
def flushLoop (f : Frame) : Nat → List PrimeMod → Memory → List PrimeMod × Memory
  | _, [], mem => ([], mem)
  | i, m :: ms, mem =>
    let flushed := flushMod (initMod m (f.mods i)) mem
    let rest := flushLoop f (i + 1) ms flushed.2
    (flushed.1 :: rest.1, rest.2)

/-- `run_mod` of a mod that is running. -/
def runMod (m : PrimeMod) (input : ModInput) : Option PrimeMod :=
  if m.state = .ENABLED ∨ m.state = .CODE_DISABLED then
    input.calls.foldlM (fun m call => m.setCodeGroupState call.1 call.2) m
  else some m

/-- The second loop, over the mods from the `i`-th on. -/
def runLoop (f : Frame) : Nat → List PrimeMod → Option (List PrimeMod)
  | _, [] => some []
  | i, m :: ms =>
    (runMod m (f.mods i)).bind fun m' => (runLoop f (i + 1) ms).map fun ms' => m' :: ms'

/-- The game or the region has changed. -/
def changesGame (h : HackManager) (f : Frame) : Bool :=
  f.game ≠ h.last_game ∨ f.region ≠ h.last_region

/-- The mods after the reset and `update_mod_states`. -/
def enterFrame (h : HackManager) (f : Frame) : List PrimeMod :=
  (if changesGame h f then h.mods.map PrimeMod.resetMod else h.mods).mapIdx fun i m =>
    m.setState (f.mods i).state

def runActiveMods (h : HackManager) (mem : Memory) (f : Frame) : Option (HackManager × Memory) :=
  if f.game = .INVALID_GAME ∨ f.region = .INVALID_REGION then
    some ({ h with mods := enterFrame h f }, mem)
  else
    let flushed := flushLoop f 0 (enterFrame h f) mem
    (runLoop f 0 flushed.1).map fun mods =>
      ({ h with last_game := f.game, last_region := f.region, mods := mods }, flushed.2)

/-! ## savestates -/

def saveModStates (h : HackManager) : HackManager :=
  { h with mod_state_backup := some (h.mods.map PrimeMod.state) }

def restoreModStates (h : HackManager) : HackManager :=
  match h.mod_state_backup with
  | none => h
  | some states =>
    { h with mods := h.mods.mapIdx fun i m =>
        match states[i]? with
        | none => m
        | some state => if m.initialized then m.setState state else m }

/-- The loop of `revert_all_code_changes`. -/
def revertLoop : List PrimeMod → Memory → List PrimeMod × Memory
  | [], mem => ([], mem)
  | m :: ms, mem =>
    let m' := if m.initialized then m.setState .DISABLED else m
    let rest := revertLoop ms (if m.initialized then m'.applyInstructionChanges mem else mem)
    (m' :: rest.1, rest.2)

def revertAllCodeChanges (h : HackManager) (mem : Memory) : HackManager × Memory :=
  let reverted := revertLoop h.mods mem
  ({ h with mods := reverted.1 }, reverted.2)

end DolphinCore.PrimeHack
