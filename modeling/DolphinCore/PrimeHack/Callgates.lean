import DolphinCore.PrimeHack.ElfModLoader

/-!
# DolphinCore.PrimeHack.Callgates

Where the hooks lead when they are applied: from each site through its callgate to the dispatcher,
and through the trampolines past the instructions that they displace.
-/

namespace DolphinCore.PrimeHack

/-! ## layout -/

/-- Two ranges that do not meet. -/
def Apart (a len b len' : Nat) : Prop := a + len ≤ b ∨ b + len' ≤ a

instance (a len b len' : Nat) : Decidable (Apart a len b len') :=
  inferInstanceAs (Decidable (_ ∨ _))

/-- How many entries of the trampoline table the hooks take. -/
def trampolineCount (hooks : List Hook) : Nat := (hooks.map Hook.trampolines).sum

/-- The tables have room for the entries of the hooks, from the `i`-th and the `t`-th on, and the
sites are different words outside of them. -/
structure Layout (tables : CallgateDefinition) (i t : Nat) (hooks : List Hook) : Prop where
  dispatch_aligned : tables.dispatch_table.toNat % 4 = 0
  callgate_aligned : tables.callgate_fn_table.toNat % 4 = 0
  trampoline_aligned : tables.trampoline_restore_table.toNat % 4 = 0
  dispatch_fits : tables.dispatch_table.toNat + 8 * (i + hooks.length) ≤ 2 ^ 32
  callgate_fits : tables.callgate_fn_table.toNat + 12 * (i + hooks.length) ≤ 2 ^ 32
  trampoline_fits : tables.trampoline_restore_table.toNat + 8 * (t + trampolineCount hooks) ≤ 2 ^ 32
  dispatch_callgate : Apart (tables.dispatch_table.toNat + 8 * i) (8 * hooks.length)
    (tables.callgate_fn_table.toNat + 12 * i) (12 * hooks.length)
  dispatch_trampoline : Apart (tables.dispatch_table.toNat + 8 * i) (8 * hooks.length)
    (tables.trampoline_restore_table.toNat + 8 * t) (8 * trampolineCount hooks)
  callgate_trampoline : Apart (tables.callgate_fn_table.toNat + 12 * i) (12 * hooks.length)
    (tables.trampoline_restore_table.toNat + 8 * t) (8 * trampolineCount hooks)
  sites : (hooks.map Hook.site).Nodup
  sites_aligned : ∀ hook ∈ hooks, hook.site.toNat % 4 = 0
  sites_apart : ∀ hook ∈ hooks,
    Apart hook.site.toNat 4 (tables.dispatch_table.toNat + 8 * i) (8 * hooks.length) ∧
    Apart hook.site.toNat 4 (tables.callgate_fn_table.toNat + 12 * i) (12 * hooks.length) ∧
    Apart hook.site.toNat 4 (tables.trampoline_restore_table.toNat + 8 * t)
      (8 * trampolineCount hooks)

variable {tables : CallgateDefinition} {live : Memory} {i t : Nat} {hook : Hook} {hooks : List Hook}

theorem trampolineCount_cons (hook : Hook) (hooks : List Hook) :
    trampolineCount (hook :: hooks) = hook.trampolines + trampolineCount hooks := by
  rfl

theorem Layout.tail (h : Layout tables i t (hook :: hooks)) :
    Layout tables (i + 1) (t + hook.trampolines) hooks := by
  obtain ⟨ha₁, ha₂, ha₃, hf₁, hf₂, hf₃, hd₁, hd₂, hd₃, hs, hsa, hap⟩ := h
  rw [List.length_cons] at hf₁ hf₂ hd₁ hd₂ hd₃
  rw [trampolineCount_cons] at hf₃ hd₂ hd₃
  rw [List.map_cons, List.nodup_cons] at hs
  simp only [Apart] at *
  refine ⟨ha₁, ha₂, ha₃, by omega, by omega, by omega, ?_, ?_, ?_, hs.2,
    fun hook' hmem => hsa hook' (List.mem_cons_of_mem _ hmem), fun hook' hmem => ?_⟩
  · simp only [Apart]
    omega
  · simp only [Apart]
    omega
  · simp only [Apart]
    omega
  · have hsite := hap hook' (List.mem_cons_of_mem _ hmem)
    rw [List.length_cons, trampolineCount_cons] at hsite
    simp only [Apart]
    omega

/-! ## the words of the hooks -/

variable (tables) in
/-- The words of the trampoline of a hook, if it has one. -/
def Hook.trampolineWords (t : Nat) : Hook → List Nat
  | .trampoline .. => [tables.trampoline_restore_table.toNat + 8 * t,
      tables.trampoline_restore_table.toNat + 8 * t + 4]
  | _ => []

variable (tables) in
/-- The addresses that the `i`-th hook writes, as numbers. -/
def Hook.words (i t : Nat) (hook : Hook) : List Nat :=
  hook.trampolineWords tables t ++
    [tables.dispatch_table.toNat + 8 * i, tables.dispatch_table.toNat + 8 * i + 4,
      tables.callgate_fn_table.toNat + 12 * i, tables.callgate_fn_table.toNat + 12 * i + 4,
      tables.callgate_fn_table.toNat + 12 * i + 8, hook.site.toNat]

variable (tables) in
/-- The addresses that the hooks write from the `i`-th on. -/
def hookWords : Nat → Nat → List Hook → List Nat
  | _, _, [] => []
  | i, t, hook :: hooks =>
    hook.words tables i t ++ hookWords (i + 1) (t + hook.trampolines) hooks

theorem toNat_entry (stride : BitVec 32) {table : BitVec 32} {k n : Nat}
    (hfits : table.toNat + stride.toNat * n ≤ 2 ^ 32) (hk : k < n) (hstride : 0 < stride.toNat) :
    (stride * BitVec.ofNat 32 k + table).toNat = table.toNat + stride.toNat * k := by
  have hstep : stride.toNat * k < stride.toNat * n := Nat.mul_lt_mul_of_pos_left hk hstride
  have hle : k ≤ stride.toNat * k := Nat.le_mul_of_pos_left k hstride
  have hmod : k % 2 ^ 32 = k := Nat.mod_eq_of_lt (by omega)
  rw [BitVec.toNat_add, BitVec.toNat_mul, BitVec.toNat_ofNat, hmod, Nat.mod_add_mod,
    Nat.mod_eq_of_lt (by omega), Nat.add_comm]

theorem toNat_dispatchLoc (h : Layout tables i t (hook :: hooks)) :
    (dispatchLoc tables i).toNat = tables.dispatch_table.toNat + 8 * i := by
  have hfits := h.dispatch_fits
  rw [List.length_cons] at hfits
  exact toNat_entry 8 hfits (by omega) (by decide)

theorem toNat_callgateLoc (h : Layout tables i t (hook :: hooks)) :
    (callgateLoc tables i).toNat = tables.callgate_fn_table.toNat + 12 * i := by
  have hfits := h.callgate_fits
  rw [List.length_cons] at hfits
  exact toNat_entry 12 hfits (by omega) (by decide)

theorem toNat_add_offset {a offset : BitVec 32} (h : a.toNat + offset.toNat < 2 ^ 32) :
    (a + offset).toNat = a.toNat + offset.toNat := by
  rw [BitVec.toNat_add, Nat.mod_eq_of_lt h]

theorem words_eq (h : Layout tables i t (hook :: hooks)) :
    (hook.changes tables live i t).map (fun change => change.address.toNat) =
      hook.words tables i t := by
  have hdispatch := toNat_dispatchLoc h
  have hcallgate := toNat_callgateLoc h
  have hfits₁ := h.dispatch_fits
  have hfits₂ := h.callgate_fits
  rw [List.length_cons] at hfits₁ hfits₂
  have h4 : (4 : BitVec 32).toNat = 4 := rfl
  have h8 : (8 : BitVec 32).toNat = 8 := rfl
  have hdispatch4 : (dispatchLoc tables i + 4).toNat = tables.dispatch_table.toNat + 8 * i + 4 := by
    rw [toNat_add_offset (by omega), hdispatch, h4]
  have hcallgate4 : (callgateLoc tables i + 4).toNat =
      tables.callgate_fn_table.toNat + 12 * i + 4 := by
    rw [toNat_add_offset (by omega), hcallgate, h4]
  have hcallgate8 : (callgateLoc tables i + 8).toNat =
      tables.callgate_fn_table.toNat + 12 * i + 8 := by
    rw [toNat_add_offset (by omega), hcallgate, h8]
  have htrampoline : (hook.trampolineChanges tables live t).map (fun change => change.address.toNat) =
      hook.trampolineWords tables t := by
    cases hook with
    | vthook => rfl
    | blhook => rfl
    | trampoline hook_target func_start =>
      have hfits₃ := h.trampoline_fits
      rw [trampolineCount_cons, Hook.trampolines] at hfits₃
      have hloc : (trampolineLoc tables t).toNat = tables.trampoline_restore_table.toNat + 8 * t :=
        toNat_entry 8 hfits₃ (by omega) (by decide)
      have hloc4 : (trampolineLoc tables t + 4).toNat =
          tables.trampoline_restore_table.toNat + 8 * t + 4 := by
        rw [toNat_add_offset (by omega), hloc, h4]
      simp only [Hook.trampolineChanges, Hook.trampolineWords, List.map_cons, List.map_nil, hloc, hloc4]
  rw [Hook.changes, List.map_append, htrampoline, Hook.words]
  simp only [List.map_cons, List.map_nil, hdispatch, hdispatch4, hcallgate, hcallgate4, hcallgate8]

theorem hookWords_eq (live : Memory) : (hooks : List Hook) → (i t : Nat) → Layout tables i t hooks →
    (hookChanges tables live i t hooks).map (fun change => change.address.toNat) =
      hookWords tables i t hooks
  | [], _, _, _ => rfl
  | hook :: hooks, i, t, h => by
    rw [hookChanges, List.map_append, words_eq h, hookWords_eq live hooks _ _ h.tail, hookWords]

variable (tables) in
/-- A word of one of the entries from the `i`-th and the `t`-th on. -/
def InEntries (i n t k a : Nat) : Prop :=
  (tables.dispatch_table.toNat + 8 * i ≤ a ∧ a + 4 ≤ tables.dispatch_table.toNat + 8 * (i + n)) ∨
    (tables.callgate_fn_table.toNat + 12 * i ≤ a ∧
      a + 4 ≤ tables.callgate_fn_table.toNat + 12 * (i + n)) ∨
    (tables.trampoline_restore_table.toNat + 8 * t ≤ a ∧
      a + 4 ≤ tables.trampoline_restore_table.toNat + 8 * (t + k))

theorem mem_words {a : Nat} (ha : a ∈ hook.words tables i t) :
    InEntries tables i 1 t hook.trampolines a ∨ a = hook.site.toNat := by
  rw [Hook.words, List.mem_append] at ha
  simp only [InEntries]
  rcases ha with ha | ha
  · cases hook with
    | vthook => exact absurd ha List.not_mem_nil
    | blhook => exact absurd ha List.not_mem_nil
    | trampoline hook_target func_start =>
      simp only [Hook.trampolineWords, List.mem_cons, List.not_mem_nil, or_false] at ha
      simp only [Hook.trampolines]
      omega
  · simp only [List.mem_cons, List.not_mem_nil, or_false] at ha
    omega

theorem mem_hookWords : (hooks : List Hook) → (i t : Nat) → {a : Nat} →
    a ∈ hookWords tables i t hooks →
    InEntries tables i hooks.length t (trampolineCount hooks) a ∨ ∃ hook ∈ hooks, a = hook.site.toNat
  | [], _, _, _, ha => absurd ha List.not_mem_nil
  | hook :: hooks, i, t, a, ha => by
    rw [hookWords, List.mem_append] at ha
    rw [List.length_cons, trampolineCount_cons]
    rcases ha with ha | ha
    · rcases mem_words ha with h | h
      · refine .inl ?_
        simp only [InEntries] at h ⊢
        omega
      · exact .inr ⟨hook, List.mem_cons_self .., h⟩
    · rcases mem_hookWords hooks (i + 1) (t + hook.trampolines) ha with h | ⟨hook', hmem, h⟩
      · refine .inl ?_
        simp only [InEntries] at h ⊢
        omega
      · exact .inr ⟨hook', List.mem_cons_of_mem _ hmem, h⟩

theorem pairwise_words (h : Layout tables i t (hook :: hooks)) :
    (hook.words tables i t).Pairwise fun a b => Apart a 4 b 4 := by
  have hdc := h.dispatch_callgate
  have hdt := h.dispatch_trampoline
  have hct := h.callgate_trampoline
  obtain ⟨hsd, hsc, hst⟩ := h.sites_apart hook (List.mem_cons_self ..)
  rw [List.length_cons] at hdc hdt hct hsd hsc
  rw [trampolineCount_cons] at hdt hct hst
  simp only [Apart] at hdc hdt hct hsd hsc hst
  cases hook <;>
  · simp only [Hook.trampolines] at hdt hct hst
    simp only [Hook.words, Hook.trampolineWords, List.cons_append, List.nil_append,
      List.pairwise_cons, List.forall_mem_cons, List.not_mem_nil, IsEmpty.forall_iff, implies_true,
      List.Pairwise.nil, and_true, Apart]
    omega

theorem apart_of_mem (h : Layout tables i t (hook :: hooks)) {a b : Nat}
    (ha : a ∈ hook.words tables i t)
    (hb : b ∈ hookWords tables (i + 1) (t + hook.trampolines) hooks) : Apart a 4 b 4 := by
  have hdc := h.dispatch_callgate
  have hdt := h.dispatch_trampoline
  have hct := h.callgate_trampoline
  have hsites := h.sites_apart
  have hnodup := h.sites
  rw [List.map_cons, List.nodup_cons] at hnodup
  simp only [List.length_cons, trampolineCount_cons, Apart] at hdc hdt hct hsites
  have hown := hsites hook (List.mem_cons_self ..)
  rw [Apart]
  rcases mem_words ha with ha | rfl
  · rcases mem_hookWords hooks _ _ hb with hb | ⟨hook', hmem, rfl⟩
    · simp only [InEntries] at ha hb
      omega
    · have hother := hsites hook' (List.mem_cons_of_mem _ hmem)
      simp only [InEntries] at ha
      omega
  · rcases mem_hookWords hooks _ _ hb with hb | ⟨hook', hmem, rfl⟩
    · simp only [InEntries] at hb
      omega
    · have hne : hook.site.toNat ≠ hook'.site.toNat := by
        intro heq
        rw [BitVec.toNat_inj] at heq
        exact hnodup.1 (heq ▸ List.mem_map_of_mem hmem)
      have haligned := h.sites_aligned hook (List.mem_cons_self ..)
      have haligned' := h.sites_aligned hook' (List.mem_cons_of_mem _ hmem)
      omega

/-- **The words of different entries do not overlap.** -/
theorem pairwise_hookWords : (hooks : List Hook) → (i t : Nat) → Layout tables i t hooks →
    (hookWords tables i t hooks).Pairwise fun a b => Apart a 4 b 4
  | [], _, _, _ => .nil
  | hook :: hooks, i, t, h => by
    rw [hookWords, List.pairwise_append]
    exact ⟨pairwise_words h, pairwise_hookWords hooks _ _ h.tail,
      fun a ha b hb => apart_of_mem h ha hb⟩

theorem nodup_hookChanges (h : Layout tables i t hooks) :
    ((hookChanges tables live i t hooks).map CodeChange.address).Nodup := by
  have hwords := (pairwise_hookWords hooks i t h).imp (S := fun a b => a ≠ b) fun hapart heq => by
    rw [Apart, heq] at hapart
    omega
  rw [← hookWords_eq live hooks i t h] at hwords
  rw [List.Nodup, List.pairwise_map]
  rw [List.pairwise_map] at hwords
  exact hwords.imp fun hne heq => hne (congrArg BitVec.toNat heq)

/-! ## the memory -/

theorem mem_hookChanges {change : CodeChange} : (hooks : List Hook) → (i t j : Nat) →
    hooks[j]? = some hook →
    change ∈ hook.changes tables live (i + j) (t + trampolineCount (hooks.take j)) →
    change ∈ hookChanges tables live i t hooks
  | first :: hooks, i, t, 0, hj, hc => by
    cases hj
    exact List.mem_append_left _ hc
  | first :: hooks, i, t, j + 1, hj, hc => by
    refine List.mem_append_right _ (mem_hookChanges hooks (i + 1) (t + first.trampolines) j hj ?_)
    rwa [Nat.add_right_comm, Nat.add_assoc, Nat.add_assoc t]

/-- The memory when the hooks are applied. -/
def hookedMemory (live : Memory) (l : ElfModLoader) (hooks : List Hook) (mem : Memory) : Memory :=
  (l.createAll live hooks).mod.applyInstructionChanges mem

theorem hookedMemory_eq {l : ElfModLoader} (hl : l.callgate = tables.withCounts 0 0)
    (hstate : l.mod.state = .ENABLED) (h : Layout tables 0 0 hooks) {j : Nat}
    (hj : hooks[j]? = some hook) (mem : Memory) {change : CodeChange}
    (hc : change ∈ hook.changes tables live j (trampolineCount (hooks.take j))) :
    hookedMemory live l hooks mem change.address = change.var := by
  obtain ⟨hchanges, hsame⟩ := createAll_spec tables live hooks 0 0 l hl
  have happly : (l.createAll live hooks).mod.getChangesToApply =
      l.mod.current_active_changes ++ hookChanges tables live 0 0 hooks := by
    rw [PrimeMod.getChangesToApply, hsame, hstate, if_neg (by decide), hchanges]
  rw [hookedMemory, PrimeMod.applyInstructionChanges, happly, PrimeMod.writeChanges,
    List.foldl_append]
  refine PrimeMod.writeChanges_of_mem (nodup_hookChanges h) (mem_hookChanges hooks 0 0 j hj ?_)
  rwa [Nat.zero_add, Nat.zero_add]

/-! ## execution -/

section

variable {ρ : Type} {other : BitVec 32 → BitVec 32 → Cpu ρ → BitVec 32 × Cpu ρ} {s : Cpu ρ}

/-- The state with another value in `r11`. -/
def Cpu.withR11 (s : Cpu ρ) (value : BitVec 32) : Cpu ρ :=
  { s with gpr := Function.update s.gpr 11 value }

theorem run_callgate
    (hlis : s.mem (callgateLoc tables i) = genLis 11 ((dispatchLoc tables i >>> 16).setWidth 16))
    (hori : s.mem (callgateLoc tables i + 4) = genOri 11 11 ((dispatchLoc tables i).setWidth 16))
    (hbranch : s.mem (callgateLoc tables i + 8) =
      genBranch (callgateLoc tables i + 8) tables.callgate_dispatch_fn)
    (hnear : Near (callgateLoc tables i + 8) tables.callgate_dispatch_fn) :
    (cpuStep other)^[3] (callgateLoc tables i, s) =
      (tables.callgate_dispatch_fn, s.withR11 (dispatchLoc tables i)) := by
  have hnext : callgateLoc tables i + 4 + 4 = callgateLoc tables i + 8 := BitVec.add_assoc ..
  have hfirst : cpuStep other (callgateLoc tables i, s) = (callgateLoc tables i + 4,
      s.withR11 (((dispatchLoc tables i >>> 16).setWidth 16).setWidth 32 <<< 16)) := by
    rw [cpuStep, hlis, execute_genLis]
    rfl
  have hsecond : cpuStep other (callgateLoc tables i + 4,
      s.withR11 (((dispatchLoc tables i >>> 16).setWidth 16).setWidth 32 <<< 16)) =
      (callgateLoc tables i + 8, s.withR11 (dispatchLoc tables i)) := by
    have hword : (s.withR11 (((dispatchLoc tables i >>> 16).setWidth 16).setWidth 32 <<< 16)).mem
        (callgateLoc tables i + 4) = genOri 11 11 ((dispatchLoc tables i).setWidth 16) := hori
    rw [cpuStep, hword, execute_genOri, hnext]
    simp only [Cpu.withR11, Function.update_idem, Function.update_self, high_or_low]
  have hthird : cpuStep other (callgateLoc tables i + 8, s.withR11 (dispatchLoc tables i)) =
      (tables.callgate_dispatch_fn, s.withR11 (dispatchLoc tables i)) := by
    have hword : (s.withR11 (dispatchLoc tables i)).mem (callgateLoc tables i + 8) =
        genBranch (callgateLoc tables i + 8) tables.callgate_dispatch_fn := hbranch
    rw [cpuStep, hword, execute_genBranch hnear]
  rw [Function.iterate_succ_apply, hfirst, Function.iterate_succ_apply, hsecond,
    Function.iterate_one, hthird]

/-- The branches of a hook span less than 32 MiB. -/
def Hook.InRange (tables : CallgateDefinition) (i t : Nat) : Hook → Prop
  | .vthook .. => Near (callgateLoc tables i + 8) tables.callgate_dispatch_fn
  | .blhook _ bl_addr =>
    Near (callgateLoc tables i + 8) tables.callgate_dispatch_fn ∧ Near bl_addr (callgateLoc tables i)
  | .trampoline _ func_start =>
    Near (callgateLoc tables i + 8) tables.callgate_dispatch_fn ∧
      Near func_start (callgateLoc tables i) ∧ Near (trampolineLoc tables t + 4) (func_start + 4)

/-- The instruction does the same wherever it stands, and then goes on with the next one or to an
address that does not depend on where it stands. -/
def NotPcRelative (other : BitVec 32 → BitVec 32 → Cpu ρ → BitVec 32 × Cpu ρ) (inst : BitVec 32)
    (effect : Cpu ρ → Option (BitVec 32) × Cpu ρ) : Prop :=
  ∀ pc s, execute other inst pc s = ((effect s).1.getD (pc + 4), (effect s).2)

/-- What happens at the site of a hook in the memory `mem`, where `live` was before. -/
def Hook.Leads (other : BitVec 32 → BitVec 32 → Cpu ρ → BitVec 32 × Cpu ρ)
    (tables : CallgateDefinition) (live mem : Memory) (i t : Nat) : Hook → Prop
  | .vthook _ vfte_addr =>
    ∀ s, s.mem = mem → (cpuStep other)^[3] (mem vfte_addr, s) =
      (tables.callgate_dispatch_fn, s.withR11 (dispatchLoc tables i))
  | .blhook hook_target bl_addr =>
    OPCD (live bl_addr) = 18 → AA (live bl_addr) = false → LK (live bl_addr) = true →
      (∀ s, s.mem = live → cpuStep other (bl_addr, s) =
        ((Hook.blhook hook_target bl_addr).original tables live t, { s with lr := bl_addr + 4 })) ∧
      ∀ s, s.mem = mem → (cpuStep other)^[4] (bl_addr, s) = (tables.callgate_dispatch_fn,
          ({ s with lr := bl_addr + 4 } : Cpu ρ).withR11 (dispatchLoc tables i))
  | .trampoline _ func_start =>
    (∀ s, s.mem = mem → (cpuStep other)^[4] (func_start, s) =
      (tables.callgate_dispatch_fn, s.withR11 (dispatchLoc tables i))) ∧
      ∀ effect, NotPcRelative other (live func_start) effect → ∀ s, s.mem = mem →
        (∀ target, (effect s).1 = some target →
          cpuStep other (trampolineLoc tables t, s) = (target, (effect s).2)) ∧
        ((effect s).1 = none →
          (effect s).2.mem (trampolineLoc tables t + 4) = mem (trampolineLoc tables t + 4) →
          (cpuStep other)^[2] (trampolineLoc tables t, s) = (func_start + 4, (effect s).2))

theorem leads_vthook {mem : Memory} {hook_target vfte_addr : BitVec 32}
    (hgate : ∀ s : Cpu ρ, s.mem = mem → (cpuStep other)^[3] (callgateLoc tables i, s) =
      (tables.callgate_dispatch_fn, s.withR11 (dispatchLoc tables i)))
    (hsite : mem vfte_addr = callgateLoc tables i) :
    (Hook.vthook hook_target vfte_addr).Leads other tables live mem i t := by
  intro s hs
  rw [hsite]
  exact hgate s hs

theorem leads_blhook {mem : Memory} {hook_target bl_addr : BitVec 32}
    (hgate : ∀ s : Cpu ρ, s.mem = mem → (cpuStep other)^[3] (callgateLoc tables i, s) =
      (tables.callgate_dispatch_fn, s.withR11 (dispatchLoc tables i)))
    (hsite : mem bl_addr = genBranchLink bl_addr (callgateLoc tables i))
    (hnear : Near bl_addr (callgateLoc tables i)) :
    (Hook.blhook hook_target bl_addr).Leads other tables live mem i t := by
  intro hOPCD hAA hLK
  refine ⟨fun s hs => ?_, fun s hs => ?_⟩
  · have hword : s.mem bl_addr = live bl_addr := congrFun hs bl_addr
    rw [cpuStep, hword, execute_bl hOPCD hAA hLK]
    rfl
  · have hword : s.mem bl_addr = genBranchLink bl_addr (callgateLoc tables i) :=
      (congrFun hs bl_addr).trans hsite
    have hfirst : cpuStep other (bl_addr, s) =
        (callgateLoc tables i, { s with lr := bl_addr + 4 }) := by
      rw [cpuStep, hword, execute_genBranchLink hnear]
    rw [Function.iterate_succ_apply, hfirst, hgate]
    exact hs

theorem leads_trampoline {mem : Memory} {hook_target func_start : BitVec 32}
    (hgate : ∀ s : Cpu ρ, s.mem = mem → (cpuStep other)^[3] (callgateLoc tables i, s) =
      (tables.callgate_dispatch_fn, s.withR11 (dispatchLoc tables i)))
    (hsite : mem func_start = genBranch func_start (callgateLoc tables i))
    (hnear : Near func_start (callgateLoc tables i))
    (hdisplaced : mem (trampolineLoc tables t) = live func_start)
    (hreturn : mem (trampolineLoc tables t + 4) =
      genBranch (trampolineLoc tables t + 4) (func_start + 4))
    (hback : Near (trampolineLoc tables t + 4) (func_start + 4)) :
    (Hook.trampoline hook_target func_start).Leads other tables live mem i t := by
  refine ⟨fun s hs => ?_, fun effect heffect s hs => ?_⟩
  · have hfirst : cpuStep other (func_start, s) = (callgateLoc tables i, s) := by
      rw [cpuStep, hs, hsite, execute_genBranch hnear]
    rw [Function.iterate_succ_apply, hfirst, hgate s hs]
  · have hfirst : cpuStep other (trampolineLoc tables t, s) =
        ((effect s).1.getD (trampolineLoc tables t + 4), (effect s).2) := by
      rw [cpuStep, hs, hdisplaced, heffect]
    refine ⟨fun target htarget => ?_, fun hnone hkept => ?_⟩
    · rw [hfirst, htarget]
      rfl
    · have hsecond : cpuStep other (trampolineLoc tables t + 4, (effect s).2) =
          (func_start + 4, (effect s).2) := by
        rw [cpuStep, hkept, hreturn, execute_genBranch hback]
      rw [Function.iterate_succ_apply, hfirst, hnone, Function.iterate_one]
      exact hsecond

/-- **The hooks of a mod file.**  When all changes are applied, no two entries overlap, the pair of
each hook holds the former target of its site and the hook function, and its site leads to the
dispatcher with that pair, and the trampoline past the instruction that it displaces. -/
theorem createAll_leads {l : ElfModLoader} (hl : l.callgate = tables.withCounts 0 0)
    (hstate : l.mod.state = .ENABLED) (h : Layout tables 0 0 hooks) (live mem : Memory)
    {j : Nat} (hj : hooks[j]? = some hook)
    (hrange : hook.InRange tables j (trampolineCount (hooks.take j))) :
    ((hookChanges tables live 0 0 hooks).Pairwise fun change change' =>
        Apart change.address.toNat 4 change'.address.toNat 4) ∧
      hookedMemory live l hooks mem (dispatchLoc tables j) =
        hook.original tables live (trampolineCount (hooks.take j)) ∧
      hookedMemory live l hooks mem (dispatchLoc tables j + 4) = hook.hookTarget ∧
      hook.Leads other tables live (hookedMemory live l hooks mem) j
        (trampolineCount (hooks.take j)) := by
  have hword : ∀ change ∈ hook.changes tables live j (trampolineCount (hooks.take j)),
      hookedMemory live l hooks mem change.address = change.var :=
    fun change hc => hookedMemory_eq hl hstate h hj mem hc
  rw [Hook.changes, List.forall_mem_append] at hword
  simp only [List.forall_mem_cons, List.not_mem_nil, IsEmpty.forall_iff, implies_true,
    and_true] at hword
  obtain ⟨htrampoline, horiginal, htarget, hlis, hori, hbranch, hsite⟩ := hword
  have hgate : ∀ s : Cpu ρ, Near (callgateLoc tables j + 8) tables.callgate_dispatch_fn →
      s.mem = hookedMemory live l hooks mem → (cpuStep other)^[3] (callgateLoc tables j, s) =
        (tables.callgate_dispatch_fn, s.withR11 (dispatchLoc tables j)) := by
    intro s hnear hs
    rw [← hs] at hlis hori hbranch
    exact run_callgate hlis hori hbranch hnear
  refine ⟨?_, horiginal, htarget, ?_⟩
  · have hpairs := pairwise_hookWords hooks 0 0 h
    rwa [← hookWords_eq live hooks 0 0 h, List.pairwise_map] at hpairs
  · cases hook with
    | vthook hook_target vfte_addr => exact leads_vthook (fun s => hgate s hrange) hsite
    | blhook hook_target bl_addr => exact leads_blhook (fun s => hgate s hrange.1) hsite hrange.2
    | trampoline hook_target func_start =>
      rw [Hook.trampolineChanges, List.forall_mem_cons, List.forall_mem_singleton] at htrampoline
      exact leads_trampoline (fun s => hgate s hrange.1) hsite hrange.2.1 htrampoline.1
        htrampoline.2 hrange.2.2

end

/-! ## a mod file with three hooks, and two hooks of one site -/

/-- The loader with the tables of a mod. -/
def exampleLoader : ElfModLoader :=
  ⟨{ PrimeMod.new with state := .ENABLED },
    ⟨0x80600000, 0x80610000, 0x80620000, 0x80630000, 0, 0⟩⟩

def exampleHooks : List Hook :=
  [.vthook 0x80640000 0x803e0010, .blhook 0x80640100 0x80010004, .trampoline 0x80640200 0x80020000]

theorem layout_exampleHooks : Layout exampleLoader.callgate 0 0 exampleHooks := by
  constructor <;> decide

theorem near_of_bounds {src dst : BitVec 32} (h : src.toNat % 4 = 0 ∧ dst.toNat % 4 = 0 ∧
    dst.toNat < src.toNat + 0x2000000 ∧ src.toNat < dst.toNat + 0x2000000) : Near src dst :=
  ⟨h.1, h.2.1, h.2.2.1, h.2.2.2⟩

/-- The third hook of the example, where the processor goes on with the next word after all other
instructions. -/
theorem createAll_leads_trampoline :
    ((hookChanges exampleLoader.callgate (fun _ => 0x9421fff0) 0 0 exampleHooks).Pairwise
        fun change change' => Apart change.address.toNat 4 change'.address.toNat 4) ∧
      hookedMemory (fun _ => 0x9421fff0) exampleLoader exampleHooks (fun _ => 0x9421fff0)
        0x80620010 = 0x80630000 ∧
      hookedMemory (fun _ => 0x9421fff0) exampleLoader exampleHooks (fun _ => 0x9421fff0)
        0x80620014 = 0x80640200 ∧
      (Hook.trampoline 0x80640200 0x80020000).Leads (fun _ pc (s : Cpu Unit) => (pc + 4, s))
        exampleLoader.callgate (fun _ => 0x9421fff0)
        (hookedMemory (fun _ => 0x9421fff0) exampleLoader exampleHooks fun _ => 0x9421fff0) 2 0 :=
  createAll_leads (j := 2) rfl rfl layout_exampleHooks (fun _ => 0x9421fff0) (fun _ => 0x9421fff0)
    rfl ⟨near_of_bounds (by decide), near_of_bounds (by decide), near_of_bounds (by decide)⟩

/-- Two hooks of one site. -/
def commonHooks : List Hook := [.blhook 0x80640000 0x80010004, .blhook 0x80640100 0x80010004]

/-- The site leads to the dispatcher with the pair of the second hook. -/
theorem not_leads_commonHooks :
    ¬ (Hook.blhook 0x80640000 0x80010004).Leads (fun _ pc (s : Cpu Unit) => (pc + 4, s))
      exampleLoader.callgate (fun _ => 0x48000101)
      (hookedMemory (fun _ => 0x48000101) exampleLoader commonHooks fun _ => 0x48000101) 0 0 := by
  intro hleads
  have hfirst := (hleads (by decide) (by decide) (by decide)).2
    ⟨0, fun _ => 0, hookedMemory (fun _ => 0x48000101) exampleLoader commonHooks
      fun _ => 0x48000101, ()⟩ rfl
  have hr11 := congrArg (fun c => c.2.gpr 11) hfirst
  revert hr11
  decide

end DolphinCore.PrimeHack
