import DolphinCore.PrimeHack.PrimeUtils

/-!
# DolphinCore.PrimeHack.ElfModLoader

The hooks of `ElfModLoader.cpp`.  Each one adds an entry to the table of callgates, which put the
address of the pair of the original and the hook function into `r11` and go to the dispatcher.
-/

namespace DolphinCore.PrimeHack

structure CallgateDefinition where
  callgate_fn_table : BitVec 32
  callgate_dispatch_fn : BitVec 32
  dispatch_table : BitVec 32
  trampoline_restore_table : BitVec 32
  callgate_count : BitVec 32
  trampoline_count : BitVec 32

/-- The part of `ElfModLoader` that hooks. -/
structure ElfModLoader where
  mod : PrimeMod
  callgate : CallgateDefinition

/-- A call of `create_vthook_callgated`, `create_blhook_callgated` or `create_trampoline_callgated`. -/
inductive Hook
  | vthook (hook_target vfte_addr : BitVec 32)
  | blhook (hook_target bl_addr : BitVec 32)
  | trampoline (hook_target func_start : BitVec 32)
  deriving DecidableEq, Repr

namespace ElfModLoader

/-! ## creating hooks -/

def addCodeChange (l : ElfModLoader) (addr code : BitVec 32) : ElfModLoader :=
  { l with mod := l.mod.addCodeChange ⟨⟨addr, code⟩, ""⟩ }

def addCallgateEntry (l : ElfModLoader) (hook_target original_target : BitVec 32) :
    ElfModLoader × BitVec 32 :=
  let dispatch_loc := 8 * l.callgate.callgate_count + l.callgate.dispatch_table
  let callgate_fn_table_loc := 12 * l.callgate.callgate_count + l.callgate.callgate_fn_table
  let r11_dispatch_lis := genLis 11 ((dispatch_loc >>> 16).setWidth 16)
  let r11_dispatch_ori := genOri 11 11 (dispatch_loc.setWidth 16)
  let branch_to_cg_dispatch :=
    genBranch (callgate_fn_table_loc + 8) l.callgate.callgate_dispatch_fn
  let added := ((((l.addCodeChange (dispatch_loc + 0) original_target).addCodeChange
    (dispatch_loc + 4) hook_target).addCodeChange
    (callgate_fn_table_loc + 0) r11_dispatch_lis).addCodeChange
    (callgate_fn_table_loc + 4) r11_dispatch_ori).addCodeChange
    (callgate_fn_table_loc + 8) branch_to_cg_dispatch
  ({ added with callgate :=
      { added.callgate with callgate_count := added.callgate.callgate_count + 1 } },
    callgate_fn_table_loc)

def addTrampolineRestoreEntry (l : ElfModLoader) (live : Memory) (func_start : BitVec 32) :
    ElfModLoader × BitVec 32 :=
  let trampoline_restore_loc :=
    8 * l.callgate.trampoline_count + l.callgate.trampoline_restore_table
  let original_instruction := live func_start
  let branch_to_after_trampoline := genBranch (trampoline_restore_loc + 4) (func_start + 4)
  let added := (l.addCodeChange (trampoline_restore_loc + 0) original_instruction).addCodeChange
    (trampoline_restore_loc + 4) branch_to_after_trampoline
  ({ added with callgate :=
      { added.callgate with trampoline_count := added.callgate.trampoline_count + 1 } },
    trampoline_restore_loc)

def createVthookCallgated (l : ElfModLoader) (live : Memory) (hook_target vfte_addr : BitVec 32) :
    ElfModLoader :=
  let entry := l.addCallgateEntry hook_target (live vfte_addr)
  entry.1.addCodeChange vfte_addr entry.2

def createBlhookCallgated (l : ElfModLoader) (live : Memory) (hook_target bl_addr : BitVec 32) :
    ElfModLoader :=
  let bl_target := bl_addr + getBranchOffset (live bl_addr)
  let entry := l.addCallgateEntry hook_target bl_target
  entry.1.addCodeChange bl_addr (genBranchLink bl_addr entry.2)

def createTrampolineCallgated (l : ElfModLoader) (live : Memory)
    (hook_target func_start : BitVec 32) : ElfModLoader :=
  let restore := l.addTrampolineRestoreEntry live func_start
  let entry := restore.1.addCallgateEntry hook_target restore.2
  entry.1.addCodeChange func_start (genBranch func_start entry.2)

def create (live : Memory) (l : ElfModLoader) : Hook → ElfModLoader
  | .vthook hook_target vfte_addr => l.createVthookCallgated live hook_target vfte_addr
  | .blhook hook_target bl_addr => l.createBlhookCallgated live hook_target bl_addr
  | .trampoline hook_target func_start => l.createTrampolineCallgated live hook_target func_start

/-- The hooks of a mod file, for which the memory is read before any of them is applied. -/
def createAll (live : Memory) (l : ElfModLoader) (hooks : List Hook) : ElfModLoader :=
  hooks.foldl (create live) l

end ElfModLoader

/-! ## the changes of a hook -/

/-- The address that a hook patches. -/
def Hook.site : Hook → BitVec 32
  | .vthook _ vfte_addr => vfte_addr
  | .blhook _ bl_addr => bl_addr
  | .trampoline _ func_start => func_start

/-- The function that is to be called. -/
def Hook.hookTarget : Hook → BitVec 32
  | .vthook hook_target _ => hook_target
  | .blhook hook_target _ => hook_target
  | .trampoline hook_target _ => hook_target

/-- How many entries of the trampoline table a hook takes. -/
def Hook.trampolines : Hook → Nat
  | .trampoline .. => 1
  | _ => 0

section

variable (tables : CallgateDefinition) (live : Memory)

def dispatchLoc (i : Nat) : BitVec 32 := 8 * BitVec.ofNat 32 i + tables.dispatch_table

def callgateLoc (i : Nat) : BitVec 32 := 12 * BitVec.ofNat 32 i + tables.callgate_fn_table

def trampolineLoc (t : Nat) : BitVec 32 := 8 * BitVec.ofNat 32 t + tables.trampoline_restore_table

/-- Where the site of a hook led before, with `t` trampolines in front of it. -/
def Hook.original (t : Nat) : Hook → BitVec 32
  | .vthook _ vfte_addr => live vfte_addr
  | .blhook _ bl_addr => bl_addr + getBranchOffset (live bl_addr)
  | .trampoline .. => trampolineLoc tables t

/-- The word that the site gets. -/
def Hook.patch (i : Nat) : Hook → BitVec 32
  | .vthook .. => callgateLoc tables i
  | .blhook _ bl_addr => genBranchLink bl_addr (callgateLoc tables i)
  | .trampoline _ func_start => genBranch func_start (callgateLoc tables i)

/-- The trampoline of a hook, if it has one. -/
def Hook.trampolineChanges (t : Nat) : Hook → List CodeChange
  | .trampoline _ func_start =>
    [⟨trampolineLoc tables t, live func_start⟩,
      ⟨trampolineLoc tables t + 4, genBranch (trampolineLoc tables t + 4) (func_start + 4)⟩]
  | _ => []

/-- All that the `i`-th hook writes, with `t` trampolines in front of it. -/
def Hook.changes (i t : Nat) (hook : Hook) : List CodeChange :=
  hook.trampolineChanges tables live t ++ [⟨dispatchLoc tables i, hook.original tables live t⟩,
      ⟨dispatchLoc tables i + 4, hook.hookTarget⟩,
      ⟨callgateLoc tables i, genLis 11 ((dispatchLoc tables i >>> 16).setWidth 16)⟩,
      ⟨callgateLoc tables i + 4, genOri 11 11 ((dispatchLoc tables i).setWidth 16)⟩,
      ⟨callgateLoc tables i + 8, genBranch (callgateLoc tables i + 8) tables.callgate_dispatch_fn⟩,
      ⟨hook.site, hook.patch tables i⟩]

/-- All that the hooks write, from the `i`-th on. -/
def hookChanges : Nat → Nat → List Hook → List CodeChange
  | _, _, [] => []
  | i, t, hook :: hooks =>
    hook.changes tables live i t ++ hookChanges (i + 1) (t + hook.trampolines) hooks

end

/-- The tables with counts. -/
def CallgateDefinition.withCounts (tables : CallgateDefinition) (i t : Nat) : CallgateDefinition :=
  { tables with
    callgate_count := BitVec.ofNat 32 i
    trampoline_count := BitVec.ofNat 32 t }

theorem ofNat_succ (k : Nat) : BitVec.ofNat 32 k + 1 = BitVec.ofNat 32 (k + 1) := by
  rw [BitVec.ofNat_add]
  rfl

theorem create_spec {tables : CallgateDefinition} (live : Memory) {i t : Nat} {l : ElfModLoader}
    (hl : l.callgate = tables.withCounts i t) (hook : Hook) :
    (l.create live hook).mod.current_active_changes =
        l.mod.current_active_changes ++ hook.changes tables live i t ∧
      (l.create live hook).mod.state = l.mod.state ∧
      (l.create live hook).callgate = tables.withCounts (i + 1) (t + hook.trampolines) := by
  obtain ⟨m, callgate⟩ := l
  cases hl
  cases hook with
  | vthook hook_target vfte_addr =>
    refine ⟨?_, rfl, ?_⟩
    · simp only [ElfModLoader.create, ElfModLoader.createVthookCallgated,
        ElfModLoader.addCallgateEntry, ElfModLoader.addCodeChange, PrimeMod.addCodeChange,
        add_zero, List.append_assoc]
      rfl
    · rw [CallgateDefinition.withCounts, ← ofNat_succ]
      rfl
  | blhook hook_target bl_addr =>
    refine ⟨?_, rfl, ?_⟩
    · simp only [ElfModLoader.create, ElfModLoader.createBlhookCallgated,
        ElfModLoader.addCallgateEntry, ElfModLoader.addCodeChange, PrimeMod.addCodeChange,
        add_zero, List.append_assoc]
      rfl
    · rw [CallgateDefinition.withCounts, ← ofNat_succ]
      rfl
  | trampoline hook_target func_start =>
    refine ⟨?_, rfl, ?_⟩
    · simp only [ElfModLoader.create, ElfModLoader.createTrampolineCallgated,
        ElfModLoader.addTrampolineRestoreEntry, ElfModLoader.addCallgateEntry,
        ElfModLoader.addCodeChange, PrimeMod.addCodeChange, add_zero, List.append_assoc]
      rfl
    · rw [CallgateDefinition.withCounts, ← ofNat_succ, Hook.trampolines, ← ofNat_succ]
      rfl

/-- **The hooks one after another** write what each one writes at its count. -/
theorem createAll_spec (tables : CallgateDefinition) (live : Memory) : (hooks : List Hook) →
    (i t : Nat) → (l : ElfModLoader) → l.callgate = tables.withCounts i t →
    (l.createAll live hooks).mod.current_active_changes =
        l.mod.current_active_changes ++ hookChanges tables live i t hooks ∧
      (l.createAll live hooks).mod.state = l.mod.state
  | [], _, _, l, _ => ⟨(List.append_nil _).symm, rfl⟩
  | hook :: hooks, i, t, l, hl => by
    obtain ⟨hown, hsame, hcallgate⟩ := create_spec live hl hook
    obtain ⟨hchanges, hstate⟩ := createAll_spec tables live hooks (i + 1) (t + hook.trampolines)
      (l.create live hook) hcallgate
    rw [ElfModLoader.createAll, List.foldl_cons, ← ElfModLoader.createAll, hchanges, hstate, hown,
      hsame, hookChanges, List.append_assoc]
    exact ⟨rfl, rfl⟩

end DolphinCore.PrimeHack
