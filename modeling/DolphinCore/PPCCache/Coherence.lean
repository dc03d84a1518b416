import DolphinCore.Lib.Run
import DolphinCore.PPCCache.Lookup

/-!
# DolphinCore.PPCCache.Coherence

Sessions of the instruction cache: reads, invalidations, resets and changes of `HID0`
between arbitrary writes to memory.  A session remembers what every line of memory held
when it was last loaded; that is what the cache returns for it.
-/

namespace DolphinCore.PPCCache

/-! ## lines of memory -/

/-- The first address of the line of an address. -/
def lineOf (addr : BitVec 32) : BitVec 32 := addr &&& ~~~0x1f

theorem toNat_lineOf (addr : BitVec 32) : (lineOf addr).toNat = addr.toNat / 32 * 32 := by
  rw [lineOf, toNat_and_not_mask addr 5 rfl]
  omega

theorem lineOf_eq (addr : BitVec 32) : lineOf addr = lineAddr (tagOf addr) (setOf addr) := by
  apply BitVec.eq_of_toNat_eq
  rw [toNat_lineOf, toNat_lineAddr_of]

theorem getPointer_eq (mem : Memory) (a : BitVec 32) : getPointer mem a =
      if a.toNat % 2 ^ 30 < 2 ^ 25 then some (BitVec.ofNat 32 (a.toNat % 2 ^ 30))
      else if mem.exram = true ∧ a.toNat % 2 ^ 30 / 2 ^ 28 = 1 ∧ a.toNat % 2 ^ 28 < 2 ^ 26 then
        some (BitVec.ofNat 32 (2 ^ 28 + a.toNat % 2 ^ 26))
      else none := by
  have hlow : ∀ k, k ≤ 30 → ∀ c : BitVec 32, c.toNat = 2 ^ k - 1 →
      ((a &&& 0x3FFFFFFF) &&& c).toNat = a.toNat % 2 ^ k := by
    intro k hk c hc
    rw [toNat_and_mask _ k hc, toNat_and_mask a 30 rfl, Nat.mod_mod_of_dvd _ (Nat.pow_dvd_pow 2 hk)]
  have hram : a &&& 0x3FFFFFFF < 0x02000000 ↔ a.toNat % 2 ^ 30 < 2 ^ 25 := by
    rw [BitVec.lt_def, toNat_and_mask a 30 rfl]
    rfl
  have h28 : (a &&& 0x3FFFFFFF) >>> 28 = 1 ↔ a.toNat % 2 ^ 30 / 2 ^ 28 = 1 := by
    rw [← BitVec.toNat_inj, BitVec.toNat_ushiftRight, toNat_and_mask a 30 rfl,
      Nat.shiftRight_eq_div_pow]
    rfl
  have hex : (a &&& 0x3FFFFFFF) &&& 0x0fffffff < 0x04000000 ↔ a.toNat % 2 ^ 28 < 2 ^ 26 := by
    rw [BitVec.lt_def, hlow 28 (by decide) _ rfl]
    rfl
  unfold getPointer
  rw [if_congr hram rfl rfl]
  split
  · congr 1
    apply BitVec.eq_of_toNat_eq
    rw [toNat_and_mask a 30 rfl, BitVec.toNat_ofNat]
    omega
  · simp only [Bool.and_eq_true, decide_eq_true_eq, h28, hex, and_assoc]
    split
    · congr 1
      apply BitVec.eq_of_toNat_eq
      rw [BitVec.toNat_add, hlow 26 (by decide) _ rfl, BitVec.toNat_ofNat]
      rfl
    · rfl

variable {mem : Memory} {addr p : BitVec 32} {ss : Session}

theorem getPointer_some {a p : BitVec 32} (h : getPointer mem a = some p) :
    (a.toNat % 2 ^ 30 < 2 ^ 25 ∧ p.toNat = a.toNat % 2 ^ 30) ∨
      (a.toNat % 2 ^ 30 / 2 ^ 28 = 1 ∧ a.toNat % 2 ^ 28 < 2 ^ 26 ∧
        p.toNat = 2 ^ 28 + a.toNat % 2 ^ 26) := by
  rw [getPointer_eq] at h
  split at h
  · next hram =>
      cases h
      refine .inl ⟨hram, ?_⟩
      rw [BitVec.toNat_ofNat]
      omega
  · split at h
    · next hex =>
        cases h
        refine .inr ⟨hex.2.1, hex.2.2, ?_⟩
        rw [BitVec.toNat_ofNat]
        omega
    · cases h

theorem setOf_getPointer {a p : BitVec 32} (h : getPointer mem a = some p) : setOf p = setOf a := by
  apply BitVec.eq_of_toNat_eq
  rw [toNat_setOf, toNat_setOf]
  have := getPointer_some h
  omega

theorem getPointer_lineOf_eq_iff {a b p q : BitVec 32} (ha : getPointer mem (lineOf a) = some p)
    (hb : getPointer mem (lineOf b) = some q) :
    p = q ↔ SameLine a b := by
  have hpa := getPointer_some ha
  have hqb := getPointer_some hb
  have hva := and_vmem_ne_zero a
  have hvb := and_vmem_ne_zero b
  have hea := and_exram_ne_zero a
  have heb := and_exram_ne_zero b
  rw [toNat_lineOf] at hpa hqb
  have hva' : ¬a &&& icacheVmemBit ≠ 0 := by
    rw [hva]
    omega
  have hvb' : ¬b &&& icacheVmemBit ≠ 0 := by
    rw [hvb]
    omega
  rw [SameLine, slotOf, slotOf, if_neg hva', if_neg hvb', ← BitVec.toNat_inj]
  have h20 : ∀ v : BitVec 32, ((v >>> 5).setWidth 20).toNat = v.toNat / 32 % 2 ^ 20 := by
    intro v
    rw [BitVec.toNat_setWidth, BitVec.toNat_ushiftRight, Nat.shiftRight_eq_div_pow]
  have h21 : ∀ v : BitVec 32, ((v >>> 5).setWidth 21).toNat = v.toNat / 32 % 2 ^ 21 := by
    intro v
    rw [BitVec.toNat_setWidth, BitVec.toNat_ushiftRight, Nat.shiftRight_eq_div_pow]
  obtain ⟨hra, hpa⟩ | ⟨hra, hra', hpa⟩ := hpa <;> obtain ⟨hrb, hqb⟩ | ⟨hrb, hrb', hqb⟩ := hqb
  · rw [if_neg (by rw [hea]; omega), if_neg (by rw [heb]; omega), Slot.ram.injEq,
      ← BitVec.toNat_inj, h20, h20]
    omega
  · rw [if_neg (by rw [hea]; omega), if_pos (by rw [heb]; omega)]
    exact iff_of_false (by omega) (by simp)
  · rw [if_pos (by rw [hea]; omega), if_neg (by rw [heb]; omega)]
    exact iff_of_false (by omega) (by simp)
  · rw [if_pos (by rw [hea]; omega), if_pos (by rw [heb]; omega), Slot.ex.injEq,
      ← BitVec.toNat_inj, h21, h21]
    omega

theorem copyFromEmu_lineOf (h : getPointer mem (lineOf addr) = some p) (data : Line) :
    copyFromEmu mem data (lineOf addr) = lineAt mem p := by
  have hend : (lineOf addr + 32 - 1).toNat = (lineOf addr).toNat + 31 := by
    have h32 : (32 : BitVec 32).toNat = 32 := rfl
    have h1 : (1 : BitVec 32).toNat = 1 := rfl
    rw [BitVec.toNat_sub, BitVec.toNat_add, toNat_lineOf, h32, h1]
    omega
  have hsome : ∃ q, getPointer mem (lineOf addr + 32 - 1) = some q := by
    have h' := h
    rw [getPointer_eq] at h' ⊢
    rw [hend, toNat_lineOf] at *
    split at h'
    · exact ⟨_, if_pos (by omega)⟩
    · split at h'
      · next hex => exact ⟨_, by rw [if_neg (by omega), if_pos ⟨hex.1, by omega, by omega⟩]⟩
      · cases h'
  obtain ⟨q, hq⟩ := hsome
  rw [copyFromEmu, getPointerForRange, h, hq]

/-- The place of the word of an address in its line. -/
def wordIndex (addr : BitVec 32) : BitVec 3 := (addr >>> 2).setWidth 3

/-- The word of an address as a line loaded now would have it. -/
def memoryWord (mem : Memory) (addr : BitVec 32) : Option (BitVec 32) :=
  (getPointer mem (lineOf addr)).map fun p => lineAt mem p (wordIndex addr)

/-! ## sessions -/

inductive Action
  | readInstruction (addr : BitVec 32)
  | invalidate (addr : BitVec 32)
  | reset
  | setHID0 (hid0 : HID0)
  /-- Memory is written, by anyone and as a whole. -/
  | write (bytes : Mem 32)

structure Session where
  cache : InstructionCache
  hid0 : HID0
  mem : Memory
  /-- The words returned so far. -/
  out : List (BitVec 32)
  /-- What a line of memory held when it was last loaded, unless its set has been
  invalidated since. -/
  filled : BitVec 32 → Option Line
  /-- All reads so far were of lines that exist. -/
  backed : Bool

/-- After `InstructionCache::Init`. -/
def Session.init (hid0 : HID0) (mem : Memory) : Session :=
  ⟨PPCCache.init, hid0, mem, [], fun _ => none, true⟩

/-- The record of loads after a read: it is loaded on a miss, unless the cache is locked. -/
def Session.filledBy (ss : Session) (addr : BitVec 32) : BitVec 32 → Option Line :=
  if ss.hid0.ice && !ss.hid0.ilock && (lookup ss.cache addr).isNone then
    match getPointer ss.mem (lineOf addr) with
    | some p => Function.update ss.filled p (some (lineAt ss.mem p))
    | none => ss.filled
  else ss.filled

def Session.step (ss : Session) : Action → Option Session
  | .readInstruction addr =>
    (PPCCache.readInstruction ss.hid0 ss.mem ss.cache addr).map fun (w, c) =>
      { ss with
        cache := c
        out := ss.out ++ [w]
        filled := ss.filledBy addr
        backed := ss.backed && (getPointer ss.mem (lineOf addr)).isSome }
  | .invalidate addr =>
    some { ss with
      cache := PPCCache.invalidate ss.hid0 ss.cache addr
      filled := fun p => if ss.hid0.ice && setOf p = setOf addr then none else ss.filled p }
  | .reset => some { ss with cache := PPCCache.reset ss.cache, filled := fun _ => none }
  | .setHID0 hid0 => some { ss with hid0 := hid0 }
  | .write bytes => some { ss with mem := { ss.mem with bytes := bytes } }

/-- A session of the cache with tag search. -/
structure SearchSession where
  cache : SearchCache
  hid0 : HID0
  mem : Memory
  out : List (BitVec 32)

def SearchSession.init (hid0 : HID0) (mem : Memory) : SearchSession :=
  ⟨⟨fun _ _ _ => 0, fun _ _ => none, fun _ => 0⟩, hid0, mem, []⟩

def SearchSession.step (ss : SearchSession) : Action → Option SearchSession
  | .readInstruction addr =>
    (ss.cache.read ss.hid0 ss.mem addr).map fun (w, c) =>
      { ss with cache := c, out := ss.out ++ [w] }
  | .invalidate addr => some { ss with cache := ss.cache.invalidate ss.hid0 addr }
  | .reset => some { ss with cache := ss.cache.reset }
  | .setHID0 hid0 => some { ss with hid0 := hid0 }
  | .write bytes => some { ss with mem := { ss.mem with bytes := bytes } }

/-! ## what a session keeps -/

/-- Valid ways hold what their lines held when they were loaded. -/
def Session.Filled (ss : Session) : Prop :=
  ∀ s t, Holds ss.cache s t → ∃ p,
    getPointer ss.mem (lineAddr (ss.cache.tags s.set t) s.set) = some p ∧
      ss.filled p = some (ss.cache.data s.set t)

structure Session.Good (ss : Session) : Prop where
  exact_cache : Exact ss.cache
  filled : ss.backed = true → ss.Filled

/-- The session of the search cache that does the same. -/
def Matches (ss : Session) (ss' : SearchSession) : Prop :=
  ss' = ⟨ss.cache.abs, ss.hid0, ss.mem, ss.out⟩

theorem init_good (hid0 : HID0) (mem : Memory) : (Session.init hid0 mem).Good where
  exact_cache := exact_reset _
  filled _ s t hholds := by
    simp [Holds, Session.init, init, reset] at hholds

theorem lineOf_lineAddr (tag : BitVec 20) (set : BitVec 7) :
    lineOf (lineAddr tag set) = lineAddr tag set := by
  apply BitVec.eq_of_toNat_eq
  rw [toNat_lineOf, toNat_lineAddr]
  omega

theorem filled_load (hexact : Exact ss.cache) (hfilled : ss.Filled)
    (hp : getPointer ss.mem (lineOf addr) = some p) (hmiss : lookup ss.cache addr = none)
    (t : Fin 8) :
    Session.Filled { ss with
      cache := (useWay (load ss.mem ss.cache addr t) addr t).2
      filled := Function.update ss.filled p (some (lineAt ss.mem p)) } := by
  intro s u hholds
  have hloaded := loaded_load ss.mem ss.cache addr t
  have hway : (load ss.mem ss.cache addr t).way s = some u :=
    (exact_load hexact ss.mem hmiss t s u).mpr hholds
  rw [way_load] at hway
  show ∃ q, getPointer ss.mem (lineAddr ((load ss.mem ss.cache addr t).tags s.set u) s.set) = some q ∧
    Function.update ss.filled p (some (lineAt ss.mem p)) q =
      some ((load ss.mem ss.cache addr t).data s.set u)
  rw [hloaded.tags, hloaded.data]
  split at hway
  · next hs =>
      cases hway
      rw [hs, set_slotOf]
      simp only [Function.update_self]
      rw [← lineOf_eq, ← lineOf, copyFromEmu_lineOf hp]
      exact ⟨p, hp, Function.update_self ..⟩
  · next hs =>
      split at hway
      · cases hway
      · next hne =>
          have hold := (hexact s u).mp hway
          have hkeep : ¬(s.set = setOf addr ∧ u = t) := by
            rintro ⟨hset, rfl⟩
            rw [Holds, hset] at hold
            exact hne ⟨hold.1, hold.2.symm⟩
          have hother : ∀ {β : Type} (f : BitVec 7 → Fin 8 → β) (x : β),
              Function.update f (setOf addr) (Function.update (f (setOf addr)) t x) s.set u =
                f s.set u := by
            intro β f x
            by_cases hset : s.set = setOf addr
            · have hu : u ≠ t := fun h => hkeep ⟨hset, h⟩
              rw [hset, Function.update_self, Function.update_of_ne hu]
            · rw [Function.update_of_ne hset]
          obtain ⟨q, hq, hfill⟩ := hfilled s u hold
          rw [hother, hother]
          refine ⟨q, hq, ?_⟩
          have hqp : q ≠ p := by
            rw [← lineOf_lineAddr] at hq
            rw [ne_eq, getPointer_lineOf_eq_iff hq hp, SameLine]
            intro hsame
            exact hs (hold.2.symm.trans hsame)
          rw [Function.update_of_ne hqp, hfill]

theorem readInstruction_cases {hid0 : HID0} {c c' : InstructionCache} {addr w : BitVec 32}
    (h : readInstruction hid0 mem c addr = some (w, c')) :
    (c' = c ∧ (hid0.ice = false ∨ hid0.ilock = true ∧ lookup c addr = none)) ∨
    (∃ t, lookup c addr = some t ∧ c' = (useWay c addr t).2) ∨
    (hid0.ice = true ∧ hid0.ilock = false ∧ lookup c addr = none ∧
      c' = (useWay (load mem c addr (selectWay c (setOf addr))) addr (selectWay c (setOf addr))).2) := by
  unfold readInstruction at h
  split at h
  · next hice =>
      obtain ⟨w', _, hw⟩ := Option.map_eq_some_iff.mp h
      exact .inl ⟨(Prod.mk.inj hw).2.symm, .inl (by simpa using hice)⟩
  · next hice =>
      cases hway : lookup c addr with
      | some t =>
        rw [hway] at h
        exact .inr (.inl ⟨t, rfl, (Prod.mk.inj (Option.some.inj h)).2.symm⟩)
      | none =>
        rw [hway] at h
        dsimp only at h
        split at h
        · next hlock =>
            obtain ⟨w', _, hw⟩ := Option.map_eq_some_iff.mp h
            exact .inl ⟨(Prod.mk.inj hw).2.symm, .inr ⟨hlock, rfl⟩⟩
        · next hlock =>
            exact .inr (.inr ⟨by simpa using hice, by simpa using hlock, rfl,
              (Prod.mk.inj (Option.some.inj h)).2.symm⟩)

theorem filled_read (hexact : Exact ss.cache) (hfilled : ss.Filled) {addr p w : BitVec 32}
    (hp : getPointer ss.mem (lineOf addr) = some p) {c : InstructionCache}
    (h : readInstruction ss.hid0 ss.mem ss.cache addr = some (w, c)) :
    Session.Filled { ss with cache := c, filled := ss.filledBy addr } := by
  unfold Session.filledBy
  obtain ⟨rfl, hbypass⟩ | ⟨t, hhit, rfl⟩ | ⟨hice, hlock, hmiss, rfl⟩ := readInstruction_cases h
  · have hno : (ss.hid0.ice && !ss.hid0.ilock && (lookup ss.cache addr).isNone) = false := by
      obtain hice | ⟨hlock, _⟩ := hbypass
      · rw [hice]
        rfl
      · rw [hlock, Bool.not_true, Bool.and_false, Bool.false_and]
    simp only [hno, Bool.false_eq_true, if_false]
    exact hfilled
  · simp only [hhit, Option.isNone_some, Bool.and_false, Bool.false_eq_true, if_false]
    exact hfilled
  · simp only [hice, hlock, hmiss, hp, Bool.not_false, Option.isNone_none, Bool.and_self, if_true]
    exact filled_load hexact hfilled hp hmiss _

theorem filled_invalidate (hexact : Exact ss.cache) (hfilled : ss.Filled) (addr : BitVec 32) :
    Session.Filled { ss with
      cache := PPCCache.invalidate ss.hid0 ss.cache addr
      filled := fun p => if ss.hid0.ice && setOf p = setOf addr then none else ss.filled p } := by
  cases hice : ss.hid0.ice with
  | false =>
    have hcache : PPCCache.invalidate ss.hid0 ss.cache addr = ss.cache := by
      rw [PPCCache.invalidate, hice]
      rfl
    simp only [hcache, Bool.false_and, Bool.false_eq_true, if_false]
    exact hfilled
  | true =>
    obtain ⟨hdata, htags, _, _⟩ := invalidate_contents (c := ss.cache) hice addr
    intro s t hholds
    have hway := (exact_invalidate hexact ss.hid0 addr s t).mpr hholds
    rw [way_invalidate hexact hice] at hway
    split at hway
    · cases hway
    · next hset =>
        obtain ⟨p, hp, hfill⟩ := hfilled s t ((hexact s t).mp hway)
        have hp' : setOf p ≠ setOf addr := by
          rw [setOf_getPointer hp, setOf_lineAddr]
          exact hset
        refine ⟨p, ?_, ?_⟩
        · rw [htags]
          exact hp
        · simp only [hp', decide_false, Bool.and_false, Bool.false_eq_true, if_false, hdata]
          exact hfill

theorem step_good {ss tt : Session} {ss' : SearchSession} (a : Action) (h : ss.Good)
    (hm : Matches ss ss') (hs : ss.step a = some tt) :
    ∃ tt', ss'.step a = some tt' ∧ tt.Good ∧ Matches tt tt' := by
  cases hm
  cases a with
  | readInstruction addr =>
    obtain ⟨⟨w, c⟩, hread, rfl⟩ := Option.map_eq_some_iff.mp hs
    have habs := readInstruction_abs h.exact_cache ss.hid0 ss.mem addr
    rw [hread, Option.map_some] at habs
    refine ⟨_, by rw [SearchSession.step, ← habs, Option.map_some]; rfl,
      ⟨exact_readInstruction h.exact_cache hread, fun hbacked => ?_⟩, rfl⟩
    obtain ⟨hold, hline⟩ := Bool.and_eq_true_iff.mp hbacked
    obtain ⟨p, hp⟩ := Option.isSome_iff_exists.mp hline
    exact filled_read h.exact_cache (h.filled hold) hp hread
  | invalidate addr =>
    cases hs
    refine ⟨_, rfl, ⟨exact_invalidate h.exact_cache _ addr, fun hbacked => ?_⟩, ?_⟩
    · exact filled_invalidate h.exact_cache (h.filled hbacked) addr
    · rw [Matches, abs_invalidate]
  | reset =>
    cases hs
    refine ⟨_, rfl, ⟨exact_reset _, fun _ s t hholds => ?_⟩, ?_⟩
    · simp [Holds, reset] at hholds
    · rw [Matches, abs_reset]
  | setHID0 hid0 =>
    cases hs
    exact ⟨_, rfl, ⟨h.exact_cache, h.filled⟩, rfl⟩
  | write bytes =>
    cases hs
    exact ⟨_, rfl, ⟨h.exact_cache, h.filled⟩, rfl⟩

/-! ## what the cache promises -/

/-- What holds in every state of a session. -/
structure Session.Coherent (ss : Session) : Prop where
  /-- The arrays give a way for a line exactly if it is valid and has the tag of the line. -/
  lookup_iff : ∀ addr (t : Fin 8), lookup ss.cache addr = some t ↔
    (ss.cache.valid (setOf addr)).getLsbD t = true ∧
      SameLine (lineAddr (ss.cache.tags (setOf addr) t) (setOf addr)) addr
  /-- No set holds a line twice. -/
  unique : ∀ set (t u : Fin 8), (ss.cache.valid set).getLsbD t = true → (ss.cache.valid set).getLsbD u = true →
    SameLine (lineAddr (ss.cache.tags set t) set) (lineAddr (ss.cache.tags set u) set) → t = u
  /-- A read returns what the line held when it was last loaded, or else what is in memory. -/
  read : ss.backed = true → ∀ addr p, getPointer ss.mem (lineOf addr) = some p →
    (readInstruction ss.hid0 ss.mem ss.cache addr).map Prod.fst =
      if !ss.hid0.ice then readU32 ss.mem addr
      else match lookup ss.cache addr with
        | some _ => (ss.filled p).map fun line => line (wordIndex addr)
        | none => if ss.hid0.ilock then readU32 ss.mem addr else memoryWord ss.mem addr
  /-- After `Invalidate` reads of the set return what is in memory. -/
  invalidated : ss.hid0.ice = true → ∀ addr addr' p, setOf addr' = setOf addr →
    getPointer ss.mem (lineOf addr') = some p →
    (readInstruction ss.hid0 ss.mem (invalidate ss.hid0 ss.cache addr) addr').map Prod.fst =
      if ss.hid0.ilock then readU32 ss.mem addr' else memoryWord ss.mem addr'

theorem readInstruction_miss {hid0 : HID0} (hice : hid0.ice = true) {c : InstructionCache}
    (hp : getPointer mem (lineOf addr) = some p) (hmiss : lookup c addr = none) :
    (readInstruction hid0 mem c addr).map Prod.fst =
      if hid0.ilock then readU32 mem addr else memoryWord mem addr := by
  have hloaded := loaded_load mem c addr (selectWay c (setOf addr))
  unfold readInstruction
  rw [hice, hmiss]
  simp only [Bool.not_true, Bool.false_eq_true, if_false]
  split
  · rw [Option.map_map]
    exact Option.map_id'
  · rw [Option.map_some, useWay, hloaded.data, memoryWord, hp, Option.map_some]
    simp only [Function.update_self]
    rw [← lineOf, copyFromEmu_lineOf hp]
    rfl

theorem Session.Good.coherent (h : ss.Good) : ss.Coherent where
  lookup_iff addr t := by
    rw [lookup_eq, h.exact_cache, Holds, set_slotOf]
    rfl
  unique set t u ht hu hsame := by
    have hway : ∀ v : Fin 8, (ss.cache.valid set).getLsbD v = true →
        ss.cache.way (ss.cache.slot set v) = some v := by
      intro v hv
      refine (h.exact_cache _ v).mpr ?_
      rw [Holds, InstructionCache.set_slot]
      exact ⟨hv, rfl⟩
    have heq : ss.cache.slot set t = ss.cache.slot set u := hsame
    have ht' := hway t ht
    rw [heq, hway u hu] at ht'
    exact (Option.some.inj ht').symm
  read hbacked addr p hp := by
    cases hice : ss.hid0.ice with
    | false =>
      rw [readInstruction, hice]
      simp only [Bool.not_false, if_true]
      rw [Option.map_map]
      exact Option.map_id'
    | true =>
      cases hway : lookup ss.cache addr with
      | none =>
        rw [readInstruction_miss hice hp hway]
        simp only [Bool.not_true, Bool.false_eq_true, if_false]
      | some t =>
        have hholds := hway
        rw [lookup_eq, h.exact_cache] at hholds
        obtain ⟨q, hq, hfill⟩ := h.filled hbacked _ t hholds
        rw [set_slotOf] at hq hfill
        have hqp : q = p := by
          rw [← lineOf_lineAddr] at hq
          rw [getPointer_lineOf_eq_iff hq hp, SameLine]
          have hslot := hholds.2
          rw [set_slotOf] at hslot
          exact hslot
        rw [readInstruction, hice, hway, ← hqp, hfill]
        rfl
  invalidated hice addr addr' p hset hp := by
    refine readInstruction_miss hice hp ?_
    rw [lookup_eq, way_invalidate h.exact_cache hice, set_slotOf, if_pos hset]

/-- **Main theorem**: after every sequence of reads, invalidations, resets, changes of
`HID0` and writes to memory, the lookup arrays are exact, reads return what they should,
and the cache with tag search has returned the same words. -/
theorem instructionCache_refines (hid0 : HID0) (mem : Memory) (as : List Action) {ss : Session}
    (h : Run.exec Session.step (Session.init hid0 mem) as = some ss) :
    ss.Coherent ∧ ∃ ss', Run.exec SearchSession.step (SearchSession.init hid0 mem) as = some ss' ∧
      ss'.out = ss.out ∧ ss'.cache = ss.cache.abs := by
  have hinit : Matches (Session.init hid0 mem) (SearchSession.init hid0 mem) := by
    simp [Matches, Session.init, SearchSession.init, InstructionCache.abs, init, reset]
  obtain ⟨ss', hss', hgood, hm⟩ := Run.exec_simulate
    (R := fun ss ss' => ss.Good ∧ Matches ss ss')
    (fun ss a tt ss' hR hs => step_good a hR.1 hR.2 hs) as ⟨init_good hid0 mem, hinit⟩ h
  cases hm
  exact ⟨hgood.coherent, _, hss', rfl, rfl⟩

/-- The cache is enabled and not locked. -/
def enabled : HID0 := ⟨true, false⟩

/-- A line is read, memory changes under it, and `Invalidate` makes the change visible. -/
def readWriteInvalidate : List Action :=
  [.readInstruction 0x20, .write fun _ => 1, .readInstruction 0x24, .invalidate 0x20,
    .readInstruction 0x28]

theorem instructionCache_refines_readWriteInvalidate :
    ∃ ss, Run.exec Session.step (Session.init enabled ⟨fun _ => 0, true⟩) readWriteInvalidate =
        some ss ∧ ss.out = [0, 0, 0x01010101] ∧ ss.Coherent :=
  ⟨_, rfl, by decide, (instructionCache_refines enabled ⟨fun _ => 0, true⟩
    readWriteInvalidate rfl).1⟩

/-- After a read at 0 the lookup array gives a way for `0x80000000`, whose tag is not in
the set; and a read where there is no memory leaves a line behind that reads at 0 hit. -/
theorem lookup_without_tag :
    (∃ ss, Run.exec Session.step (Session.init enabled ⟨fun _ => 0, true⟩) [.readInstruction 0] =
        some ss ∧ lookup ss.cache 0x80000000 = some 0 ∧
      ∀ t, ss.cache.tags (setOf 0x80000000) t ≠ tagOf 0x80000000) ∧
    (Run.exec Session.step (Session.init enabled ⟨fun a => if a = 0 then 0x60 else 0, true⟩)
        [.readInstruction 0x02000000, .readInstruction 0]).map Session.out = some [0, 0] ∧
    readU32 ⟨fun a => if a = 0 then 0x60 else 0, true⟩ 0 = some 0x60000000 :=
  ⟨⟨_, rfl, by decide, by decide⟩, by decide, by decide⟩

end DolphinCore.PPCCache
