import DolphinCore.Lib.Run
import DolphinCore.MMU.Bat

/-!
# DolphinCore.MMU.Tlb

The TLBs against the page table.  An entry is tagged with the effective page only, and
nothing but `tlbie` drops entries, so a write to a segment register, to `SDR1` or to the
page table leaves entries behind that the walk would no longer produce.  A session keeps
track of the addresses such a write has affected and no `tlbie` has reached since; for
every other address the TLBs are transparent.
-/

namespace DolphinCore.MMU

/-! ## the walk as a function of the state -/

/-- The result of the two-hash walk, for data or for instructions. -/
def pageWalk (s : State) (opcode : Bool) (address : BitVec 32) : TranslateAddressResult :=
  let sr := s.sr (eaSR address)
  if srT sr then ⟨.directStoreSegment, 0⟩
  else if opcode && srN sr then ⟨.pageFault, 0⟩
  else
    match findPTE s address with
    | none => ⟨.pageFault, 0⟩
    | some pteg =>
      ⟨.pageTableTranslated, pte2RPN (readWord s.physicalBase (pteg + 4)) ||| eaOffset address⟩

variable (flag : XCheckTLBFlag)

theorem pte2RPN_setAccessBits (pte2 : BitVec 32) :
    pte2RPN (setAccessBits flag pte2) = pte2RPN pte2 := by
  have hR : pte2R >>> 12 = 0 := by decide
  have hC : pte2C >>> 12 = 0 := by decide
  unfold pte2RPN
  cases flag <;> simp [setAccessBits, BitVec.ushiftRight_or_distrib, hR, hC]

theorem walkPageTable_fst (address : BitVec 32) (flag : XCheckTLBFlag) (res : TLBLookupResult)
    (s : State) : (walkPageTable address flag res s).1 = pageWalk s flag.isOpcode address := by
  unfold walkPageTable pageWalk
  dsimp only
  split
  · rfl
  · split
    · rfl
    · cases findPTE s address with
      | none => rfl
      | some pteg => simp only [pte2RPN_setAccessBits]

variable (v : BitVec 32)

theorem invalidTag_ne_pageOf : invalidTag ≠ pageOf v := by
  intro h
  have h' := congrArg BitVec.toNat h
  have := v.isLt
  simp only [pageOf, BitVec.toNat_ushiftRight, Nat.shiftRight_eq_div_pow] at h'
  simp [invalidTag] at h'
  omega

theorem translatePageAddress_emptyTLB (s : State) (address : BitVec 32) (flag : XCheckTLBFlag) :
    (translatePageAddress address flag { s with tlb := emptyTLB }).1 =
      pageWalk s flag.isOpcode address := by
  have htag := invalidTag_ne_pageOf address
  unfold translatePageAddress lookupTLBPageAddress emptyTLB
  simp only [htag, if_false]
  exact walkPageTable_fst ..

/-! ## pages -/

theorem eaSR_eq : eaSR v = (pageOf v >>> 16).setWidth 4 := by
  rw [eaSR, pageOf, ← BitVec.shiftRight_add]

theorem eaAPI_eq : eaAPI v = pageOf v >>> 10 &&& 0x3f := by
  rw [eaAPI, pageOf, ← BitVec.shiftRight_add]

theorem eaPageIndex_eq : eaPageIndex v = pageOf v &&& 0xffff := rfl

theorem findPTE_congr (s : State) {v v' : BitVec 32} (h : pageOf v' = pageOf v) :
    findPTE s v' = findPTE s v := by
  unfold findPTE
  rw [eaSR_eq, eaAPI_eq, eaPageIndex_eq, h, ← eaSR_eq, ← eaAPI_eq, ← eaPageIndex_eq]

variable {s : State}

theorem pageWalk_of_findPTE {opcode : Bool} {address pteg : BitVec 32}
    (hT : srT (s.sr (eaSR address)) = false) (hN : (opcode && srN (s.sr (eaSR address))) = false)
    (hf : findPTE s address = some pteg) {v : BitVec 32} (hv : pageOf v = pageOf address) :
    pageWalk s opcode v =
      ⟨.pageTableTranslated, pte2RPN (readWord s.physicalBase (pteg + 4)) ||| eaOffset v⟩ := by
  have hsr : eaSR v = eaSR address := by rw [eaSR_eq, eaSR_eq, hv]
  unfold pageWalk
  simp only [hsr, hT, hN, findPTE_congr s hv, hf, Bool.false_eq_true, if_false]

/-! ## stores of access bits -/

/-- Addresses of page table entries are multiples of 8. -/
def Aligned (a : BitVec 32) : Prop := a.toNat % 8 = 0

theorem Aligned.add_eight {a : BitVec 32} (h : Aligned a) : Aligned (a + 8) := by
  have h8 : (8 : BitVec 32).toNat = 8 := rfl
  unfold Aligned at *
  rw [BitVec.toNat_add, h8]
  omega

theorem aligned_ptegAddr (h : Aligned s.pagetableBase) (hash : BitVec 32) :
    Aligned (ptegAddr s hash) := by
  unfold Aligned ptegAddr at *
  rw [BitVec.toNat_or, show (8 : Nat) = 2 ^ 3 from rfl, Nat.or_mod_two_pow, BitVec.toNat_shiftLeft,
    Nat.shiftLeft_eq]
  have hshift : (hash &&& s.pagetableHashmask).toNat * 2 ^ 6 % 2 ^ 32 % 2 ^ 3 = 0 := by omega
  rw [hshift, h]
  rfl

variable {m : Mem 32}

theorem searchPTEG_aligned {pte1 : BitVec 32} : (n : Nat) → {a b : BitVec 32} →
    Aligned a → searchPTEG m pte1 a n = some b → Aligned b
  | n + 1, a, b, ha, h => by
    rw [searchPTEG] at h
    split at h
    · cases h
      exact ha
    · exact searchPTEG_aligned n ha.add_eight h

theorem findPTE_aligned (h : Aligned s.pagetableBase) {address pteg : BitVec 32}
    (hf : findPTE s address = some pteg) : Aligned pteg := by
  unfold findPTE at hf
  dsimp only at hf
  rw [Option.or_eq_some_iff] at hf
  rcases hf with hf | ⟨_, hf⟩
  · exact searchPTEG_aligned 8 (aligned_ptegAddr h _) hf
  · exact searchPTEG_aligned 8 (aligned_ptegAddr h _) hf

/-- Two memories with the same page table entries, the access bits aside. -/
structure SameTable (m m' : Mem 32) : Prop where
  pte1 : ∀ a, Aligned a → readWord m' a = readWord m a
  rpn : ∀ a, Aligned a → pte2RPN (readWord m' (a + 4)) = pte2RPN (readWord m (a + 4))

theorem searchPTEG_congr {m m' : Mem 32} (h : SameTable m m') (pte1 : BitVec 32) :
    (n : Nat) → {a : BitVec 32} → Aligned a → searchPTEG m' pte1 a n = searchPTEG m pte1 a n
  | 0, _, _ => rfl
  | n + 1, a, ha => by
    rw [searchPTEG, searchPTEG, h.pte1 a ha, searchPTEG_congr h pte1 n ha.add_eight]

theorem pageWalk_sameTable (h : Aligned s.pagetableBase) (hm : SameTable s.physicalBase m)
    (opcode : Bool) (address : BitVec 32) :
    pageWalk { s with physicalBase := m } opcode address = pageWalk s opcode address := by
  have hsearch : ∀ pte1 hash, searchPTEG m pte1 (ptegAddr s hash) 8 =
      searchPTEG s.physicalBase pte1 (ptegAddr s hash) 8 :=
    fun pte1 hash => searchPTEG_congr hm pte1 8 (aligned_ptegAddr h hash)
  have haddr : ∀ hash, ptegAddr { s with physicalBase := m } hash = ptegAddr s hash := fun _ => rfl
  have hfind : findPTE { s with physicalBase := m } address = findPTE s address := by
    unfold findPTE
    dsimp only
    rw [haddr, haddr, hsearch, hsearch]
  unfold pageWalk
  rw [hfind]
  dsimp only
  cases hf : findPTE s address with
  | none => rfl
  | some pteg =>
    have hrpn := hm.rpn pteg (findPTE_aligned h hf)
    simp only [hrpn]

theorem readWord_writeWord (m : Mem 32) (a v : BitVec 32) : readWord (writeWord m a v) a = v := by
  have hread := Mem.read_write m a (Mem.toBytes 4 v.toNat) (by simp)
  rw [Mem.length_toBytes] at hread
  have hv := v.isLt
  rw [readWord, writeWord, hread, Mem.ofBytes_toBytes, Nat.mod_eq_of_lt (by omega),
    BitVec.ofNat_toNat, BitVec.setWidth_eq]

theorem readWord_writeWord_of_disjoint (m : Mem 32) {a b : BitVec 32} (v : BitVec 32)
    (h : ∀ i < 4, ∀ j < 4, a + BitVec.ofNat 32 i ≠ b + BitVec.ofNat 32 j) :
    readWord (writeWord m b v) a = readWord m a := by
  rw [readWord, readWord]
  congr 2
  refine Mem.read_congr fun i hi => Mem.write_of_ne _ _ _ fun j hj => ?_
  exact h i hi j (by simpa using hj)

theorem sameTable_setAccessBits (m : Mem 32) {pteg : BitVec 32} (h : Aligned pteg)
    (flag : XCheckTLBFlag) :
    SameTable m (writeWord m (pteg + 4) (setAccessBits flag (readWord m (pteg + 4)))) where
  pte1 a ha := by
    refine readWord_writeWord_of_disjoint m _ fun i hi j hj heq => ?_
    have h4 : (4 : BitVec 32).toNat = 4 := rfl
    have heq' := congrArg BitVec.toNat heq
    unfold Aligned at h ha
    simp only [BitVec.toNat_add, BitVec.toNat_ofNat, h4] at heq'
    omega
  rpn a ha := by
    by_cases hab : a = pteg
    · subst hab
      rw [readWord_writeWord, pte2RPN_setAccessBits]
    · rw [readWord_writeWord_of_disjoint]
      intro i hi j hj heq
      have h4 : (4 : BitVec 32).toNat = 4 := rfl
      have heq' := congrArg BitVec.toNat heq
      have hlt := a.isLt
      have hlt' := pteg.isLt
      unfold Aligned at h ha
      simp only [BitVec.toNat_add, BitVec.toNat_ofNat, h4] at heq'
      exact hab (BitVec.eq_of_toNat_eq (by omega))

/-! ## sessions -/

/-- A state, and the addresses whose walk a write has changed since the last `tlbie`
that reached them. -/
structure Session where
  state : State
  stale : BitVec 32 → Bool

inductive Action
  | translate (address : BitVec 32) (flag : XCheckTLBFlag)
  | tlbie (address : BitVec 32)
  /-- `mtsr` and `mtsrin` -/
  | mtsr (index : BitVec 4) (value : BitVec 32)
  | mtsprSDR (value : BitVec 32)
  | dbatUpdated (overlapsMemcheck : BitVec 32 → Bool) (spr : Fin 4 → BatPair)
      (extended : Option (Fin 4 → BatPair))
  | ibatUpdated (overlapsMemcheck : BitVec 32 → Bool) (spr : Fin 4 → BatPair)
      (extended : Option (Fin 4 → BatPair))
  /-- `MSR.DR` is set or cleared. -/
  | mtmsrDR (dr : Bool)
  /-- A store to the page table, a byte of it. -/
  | store (address : BitVec 32) (byte : BitVec 8)

/-- The state after a write, which marks the addresses whose walk it changes. -/
def Session.wrote (ss : Session) (s : State) : Session where
  state := s
  stale := fun v => ss.stale v ||
    decide (pageWalk s false v ≠ pageWalk ss.state false v ∨
      pageWalk s true v ≠ pageWalk ss.state true v)

def Session.step (ss : Session) : Action → Option Session
  | .translate address flag =>
    some { ss with state := (translatePageAddress address flag ss.state).2 }
  | .tlbie address =>
    some {
      state := invalidateTLBEntry address ss.state
      stale := fun v => ss.stale v && decide (setOf (pageOf v) ≠ setOf (pageOf address)) }
  | .mtsr index value => some (ss.wrote (setSR index value ss.state))
  | .mtsprSDR value => some (ss.wrote (MMU.mtsprSDR value ss.state))
  | .dbatUpdated overlapsMemcheck spr extended =>
    some { ss with state := dbatUpdated overlapsMemcheck spr extended ss.state }
  | .ibatUpdated overlapsMemcheck spr extended =>
    some { ss with state := ibatUpdated overlapsMemcheck spr extended ss.state }
  | .mtmsrDR dr => some { ss with state := { ss.state with msrDR := dr } }
  | .store address byte =>
    some (ss.wrote { ss.state with physicalBase := ss.state.physicalBase.write address [byte] })

/-- The state `PowerPC::Reset` leaves, with any segment registers, BAT tables and memory. -/
structure IsReset (s : State) : Prop where
  tlb : s.tlb = emptyTLB
  pagetableBase : s.pagetableBase = 0
  pagetableHashmask : s.pagetableHashmask = 0
  ibatTable : BatAligned s.ibatTable
  dbatTable : BatAligned s.dbatTable

def Session.init (s : State) : Session := ⟨s, fun _ => false⟩

/-! ## the invariant -/

/-- The ways of a TLB agree with the walk on the addresses that are not stale. -/
def Agrees (s : State) (stale : BitVec 32 → Bool) : Prop :=
  ∀ opcode v i, (s.tlb opcode (setOf (pageOf v))).tag i = pageOf v → stale v = false →
    pageWalk s opcode v =
      ⟨.pageTableTranslated, (s.tlb opcode (setOf (pageOf v))).paddr i ||| eaOffset v⟩

/-- What every state of a run has: page table entries, pages and blocks are aligned. -/
structure State.Valid (s : State) : Prop where
  pagetableBase : Aligned s.pagetableBase
  paddr : ∀ opcode set i, (s.tlb opcode set).paddr i &&& 0xfff = 0
  ibatTable : BatAligned s.ibatTable
  dbatTable : BatAligned s.dbatTable

structure Session.Good (ss : Session) : Prop where
  valid : ss.state.Valid
  agrees : Agrees ss.state ss.stale

theorem good_init (h : IsReset s) : (Session.init s).Good where
  valid := by
    refine ⟨?_, fun opcode set i => ?_, h.ibatTable, h.dbatTable⟩
    · show Aligned s.pagetableBase
      rw [h.pagetableBase]
      rfl
    · show (s.tlb opcode set).paddr i &&& 0xfff = 0
      rw [h.tlb]
      exact BitVec.zero_and
  agrees opcode v i htag _ := by
    rw [Session.init, h.tlb] at htag
    exact absurd htag (invalidTag_ne_pageOf v)

theorem good_wrote {ss : Session} (h : ss.Good) (htlb : s.tlb = ss.state.tlb) (hvalid : s.Valid) :
    (ss.wrote s).Good where
  valid := hvalid
  agrees opcode v i htag hstale := by
    simp only [Session.wrote, Bool.or_eq_false_iff, decide_eq_false_iff_not, not_or, not_not]
      at hstale
    obtain ⟨hold, hdata, hinstr⟩ := hstale
    have hwalk : pageWalk s opcode v = pageWalk ss.state opcode v := by
      cases opcode
      · exact hdata
      · exact hinstr
    simp only [Session.wrote, htlb] at htag ⊢
    rw [hwalk]
    exact h.agrees opcode v i htag hold

theorem good_tlbie {ss : Session} (h : ss.Good) (address : BitVec 32) :
    Session.Good ⟨invalidateTLBEntry address ss.state,
      fun v => ss.stale v && decide (setOf (pageOf v) ≠ setOf (pageOf address))⟩ where
  valid := by
    refine ⟨h.valid.pagetableBase, fun opcode set i => ?_, h.valid.ibatTable, h.valid.dbatTable⟩
    have hpaddr := h.valid.paddr opcode set i
    simp only [invalidateTLBEntry]
    split <;> exact hpaddr
  agrees opcode v i htag hstale := by
    simp only [invalidateTLBEntry] at htag ⊢
    by_cases hset : setOf (pageOf v) = setOf (pageOf address)
    · rw [if_pos hset] at htag
      exact absurd htag (invalidTag_ne_pageOf v)
    · rw [if_neg hset] at htag ⊢
      simp only [hset, ne_eq, not_false_eq_true, decide_true, Bool.and_true] at hstale
      exact h.agrees opcode v i htag hstale

/-! ## translation keeps the invariant -/

@[simp] theorem pageWalk_setTLB (s : State) (o : Bool) (set : BitVec 6) (tlbe : TLBEntry)
    (opcode : Bool) (v : BitVec 32) :
    pageWalk (s.setTLB o set tlbe) opcode v = pageWalk s opcode v := rfl

/-- A state that differs in the TLBs and the memory only. -/
def Framed (s s' : State) : Prop := s' = { s with tlb := s'.tlb, physicalBase := s'.physicalBase }

theorem State.Valid.of_framed {s s' : State} (h : s.Valid) (hf : Framed s s')
    (hpaddr : ∀ opcode set i, (s'.tlb opcode set).paddr i &&& 0xfff = 0) : s'.Valid := by
  rw [hf]
  exact ⟨h.pagetableBase, hpaddr, h.ibatTable, h.dbatTable⟩

/-- A state with the same walk and the same tags and addresses in the TLBs. -/
structure SameTranslation (s s' : State) : Prop where
  framed : Framed s s'
  walk : ∀ opcode v, pageWalk s' opcode v = pageWalk s opcode v
  tag : ∀ opcode set, (s'.tlb opcode set).tag = (s.tlb opcode set).tag
  paddr : ∀ opcode set, (s'.tlb opcode set).paddr = (s.tlb opcode set).paddr

theorem State.Valid.of_same {s s' : State} (h : s.Valid) (hs : SameTranslation s s') : s'.Valid := by
  refine h.of_framed hs.framed fun opcode set i => ?_
  rw [hs.paddr]
  exact h.paddr opcode set i

variable {stale : BitVec 32 → Bool}

theorem Agrees.of_same {s s' : State} (h : Agrees s stale) (hs : SameTranslation s s') :
    Agrees s' stale := by
  intro opcode v i htag hstale
  rw [hs.tag] at htag
  rw [hs.walk, hs.paddr]
  exact h opcode v i htag hstale

theorem SameTranslation.setTLB {o : Bool} {set : BitVec 6} {tlbe : TLBEntry}
    (htag : tlbe.tag = (s.tlb o set).tag) (hpaddr : tlbe.paddr = (s.tlb o set).paddr) :
    SameTranslation s (s.setTLB o set tlbe) where
  framed := rfl
  walk _ _ := rfl
  tag opcode i := by
    simp only [State.setTLB]
    split
    · next h => rw [h.1, h.2, htag]
    · rfl
  paddr opcode i := by
    simp only [State.setTLB]
    split
    · next h => rw [h.1, h.2, hpaddr]
    · rfl

theorem sameTranslation_lookupWay (vpa : BitVec 32) (i : Fin 2) (s : State) :
    SameTranslation s (lookupWay flag vpa i s).2.2 := by
  unfold lookupWay
  dsimp only
  split
  · exact .setTLB rfl rfl
  · split
    · exact .setTLB rfl rfl
    · exact .setTLB rfl rfl

theorem SameTranslation.refl (s : State) : SameTranslation s s :=
  ⟨rfl, fun _ _ => rfl, fun _ _ => rfl, fun _ _ => rfl⟩

theorem sameTranslation_lookup (vpa : BitVec 32) (s : State) :
    SameTranslation s (lookupTLBPageAddress flag vpa s).2.2 := by
  unfold lookupTLBPageAddress
  dsimp only
  split
  · exact sameTranslation_lookupWay ..
  · split
    · exact sameTranslation_lookupWay ..
    · exact .refl s

theorem lookupTLBPageAddress_found {flag : XCheckTLBFlag} {vpa paddr : BitVec 32} {s s' : State}
    (h : lookupTLBPageAddress flag vpa s = (.found, paddr, s')) :
    ∃ i, (s.tlb flag.isOpcode (setOf (pageOf vpa))).tag i = pageOf vpa ∧
      paddr = (s.tlb flag.isOpcode (setOf (pageOf vpa))).paddr i ||| eaOffset vpa := by
  have hway : ∀ i, lookupWay flag vpa i s = (.found, paddr, s') →
      paddr = (s.tlb flag.isOpcode (setOf (pageOf vpa))).paddr i ||| eaOffset vpa := by
    intro i hi
    unfold lookupWay at hi
    dsimp only at hi
    split at hi
    · simp at hi
    · obtain ⟨-, hp, -⟩ := Prod.mk.inj hi |>.imp id Prod.mk.inj
      rw [← hp, eaOffset]
      split <;> rfl
  unfold lookupTLBPageAddress at h
  dsimp only at h
  split at h
  · next htag => exact ⟨0, htag, hway 0 h⟩
  · split at h
    · next htag => exact ⟨1, htag, hway 1 h⟩
    · simp at h

theorem agrees_updateTLBEntry (h : Agrees s stale) {flag : XCheckTLBFlag} {pte2 address : BitVec 32}
    (hwalk : ∀ v, pageOf v = pageOf address →
      pageWalk s flag.isOpcode v = ⟨.pageTableTranslated, pte2RPN pte2 ||| eaOffset v⟩) :
    Agrees (updateTLBEntry flag pte2 address s) stale := by
  unfold updateTLBEntry
  split
  · exact h
  · intro opcode v i htag hstale
    dsimp only at htag ⊢
    generalize (if (s.tlb flag.isOpcode (setOf (pageOf address))).recent = 0 ∧
      (s.tlb flag.isOpcode (setOf (pageOf address))).tag 0 ≠ invalidTag then 1 else 0 : Fin 2) =
        index at htag ⊢
    rw [pageWalk_setTLB]
    by_cases hset : opcode = flag.isOpcode ∧ setOf (pageOf v) = setOf (pageOf address)
    · simp only [State.setTLB, hset, and_self, if_true] at htag ⊢
      by_cases hi : i = index
      · subst hi
        rw [Function.update_self] at htag ⊢
        exact hwalk v htag.symm
      · rw [Function.update_of_ne hi] at htag ⊢
        rw [← hset.1, ← hset.2] at htag ⊢
        exact h opcode v i htag hstale
    · simp only [State.setTLB, if_neg hset] at htag ⊢
      exact h opcode v i htag hstale

theorem sameTranslation_physicalBase (h : Aligned s.pagetableBase)
    (hm : SameTable s.physicalBase m) : SameTranslation s { s with physicalBase := m } where
  framed := rfl
  walk opcode v := pageWalk_sameTable h hm opcode v
  tag _ _ := rfl
  paddr _ _ := rfl

theorem pte2RPN_and (pte2 : BitVec 32) : pte2RPN pte2 &&& 0xfff = 0 := by
  rw [pte2RPN, ← BitVec.and_allOnes (x := pte2 >>> 12), BitVec.shiftLeft_and_distrib,
    BitVec.and_assoc, show BitVec.allOnes 32 <<< 12 &&& 0xfff = 0 by decide]
  exact BitVec.and_zero

theorem framed_updateTLBEntry (pte2 address : BitVec 32) (s : State) :
    Framed s (updateTLBEntry flag pte2 address s) := by
  unfold updateTLBEntry
  split <;> rfl

theorem valid_updateTLBEntry (h : s.Valid) (flag : XCheckTLBFlag) (pte2 address : BitVec 32) :
    (updateTLBEntry flag pte2 address s).Valid := by
  refine h.of_framed (framed_updateTLBEntry ..) fun opcode set i => ?_
  unfold updateTLBEntry
  split
  · exact h.paddr opcode set i
  · simp only [State.setTLB]
    split
    · exact forall_update_and (h.paddr _ _) _ (pte2RPN_and pte2) i
    · exact h.paddr opcode set i

theorem walkPageTable_cases (h : Aligned s.pagetableBase) (address : BitVec 32)
    (flag : XCheckTLBFlag) (res : TLBLookupResult) :
    ((walkPageTable address flag res s).1.success = false ∧
      (walkPageTable address flag res s).2 = s) ∨
    ∃ pte2 s1, SameTranslation s s1 ∧ s1.tlb = s.tlb ∧ (∀ v, pageOf v = pageOf address →
        pageWalk s flag.isOpcode v = ⟨.pageTableTranslated, pte2RPN pte2 ||| eaOffset v⟩) ∧
      (walkPageTable address flag res s).2 =
        if res = .updateC then s1 else updateTLBEntry flag pte2 address s1 := by
  unfold walkPageTable
  dsimp only
  split
  · exact .inl ⟨rfl, rfl⟩
  · next hT =>
    split
    · exact .inl ⟨rfl, rfl⟩
    · next hN =>
      cases hf : findPTE s address with
      | none => exact .inl ⟨rfl, rfl⟩
      | some pteg =>
        rw [Bool.not_eq_true] at hT hN
        refine .inr ⟨setAccessBits flag (readWord s.physicalBase (pteg + 4)), _, ?_, ?_, ?_, rfl⟩
        · split
          · exact .refl s
          · exact sameTranslation_physicalBase h
              (sameTable_setAccessBits _ (findPTE_aligned h hf) flag)
        · split <;> rfl
        · intro v hv
          rw [pageWalk_of_findPTE hT hN hf hv, pte2RPN_setAccessBits]

theorem good_walkPageTable (hs : Session.Good ⟨s, stale⟩) (address : BitVec 32)
    (flag : XCheckTLBFlag) (res : TLBLookupResult) :
    Session.Good ⟨(walkPageTable address flag res s).2, stale⟩ := by
  obtain ⟨_, hs'⟩ | ⟨pte2, s1, hsame, _, hwalk, hs'⟩ :=
    walkPageTable_cases hs.valid.pagetableBase address flag res
  · rw [hs']
    exact hs
  · have hagrees : Agrees s1 stale := hs.agrees.of_same hsame
    have hvalid : s1.Valid := hs.valid.of_same hsame
    rw [hs']
    split
    · exact ⟨hvalid, hagrees⟩
    · refine ⟨valid_updateTLBEntry hvalid .., agrees_updateTLBEntry hagrees fun v hv => ?_⟩
      rw [hsame.walk, hwalk v hv]

theorem good_translatePageAddress (hs : Session.Good ⟨s, stale⟩) (address : BitVec 32)
    (flag : XCheckTLBFlag) :
    Session.Good ⟨(translatePageAddress address flag s).2, stale⟩ := by
  have hsame := sameTranslation_lookup flag address s
  have hlookup : Session.Good ⟨(lookupTLBPageAddress flag address s).2.2, stale⟩ :=
    ⟨hs.valid.of_same hsame, hs.agrees.of_same hsame⟩
  unfold translatePageAddress
  split
  · next heq =>
      rw [heq] at hlookup
      exact hlookup
  · next heq =>
      rw [heq] at hlookup
      exact good_walkPageTable hlookup address flag _

theorem sdrUpdated_tlb (s : State) : (sdrUpdated s).tlb = s.tlb := by
  unfold sdrUpdated
  dsimp only
  split
  · split <;> rfl
  · rfl

theorem valid_mtsprSDR (h : s.Valid) (value : BitVec 32) : (mtsprSDR value s).Valid := by
  have hbase : ∀ htaborg : BitVec 32, Aligned (htaborg <<< 16) := by
    intro htaborg
    simp only [Aligned, BitVec.toNat_shiftLeft, Nat.shiftLeft_eq]
    omega
  unfold mtsprSDR sdrUpdated
  dsimp only
  split
  · split
    · exact ⟨hbase _, h.paddr, h.ibatTable, h.dbatTable⟩
    · exact ⟨h.pagetableBase, h.paddr, h.ibatTable, h.dbatTable⟩
  · exact ⟨h.pagetableBase, h.paddr, h.ibatTable, h.dbatTable⟩

theorem good_step {ss ss' : Session} (a : Action) (hs : ss.step a = some ss') (h : ss.Good) :
    ss'.Good := by
  cases a <;> cases hs
  case translate address flag => exact good_translatePageAddress h address flag
  case tlbie address => exact good_tlbie h address
  case mtsr index value =>
      exact good_wrote h rfl ⟨h.valid.pagetableBase, h.valid.paddr, h.valid.ibatTable,
        h.valid.dbatTable⟩
  case mtsprSDR value => exact good_wrote h (sdrUpdated_tlb _) (valid_mtsprSDR h.valid value)
  case dbatUpdated overlapsMemcheck spr extended =>
      exact ⟨⟨h.valid.pagetableBase, h.valid.paddr, h.valid.ibatTable,
        fun i => batAligned_buildBatTable _ _ _ _ i⟩, h.agrees⟩
  case ibatUpdated overlapsMemcheck spr extended =>
      exact ⟨⟨h.valid.pagetableBase, h.valid.paddr, fun i => batAligned_buildBatTable _ _ _ _ i,
        h.valid.dbatTable⟩, h.agrees⟩
  case mtmsrDR dr =>
      exact ⟨⟨h.valid.pagetableBase, h.valid.paddr, h.valid.ibatTable, h.valid.dbatTable⟩, h.agrees⟩
  case store address byte =>
      exact good_wrote h rfl ⟨h.valid.pagetableBase, h.valid.paddr, h.valid.ibatTable,
        h.valid.dbatTable⟩

theorem good_run (h0 : IsReset s) {ss : Session}
    (hr : Run Session.step (fun _ _ => True) (Session.init s) ss) : ss.Good :=
  hr.invariant (good_init h0) fun _ a _ h _ hs => good_step a hs h

/-! ## transparency -/

theorem Session.Good.translate_eq {ss : Session} (h : ss.Good) (address : BitVec 32)
    (flag : XCheckTLBFlag) (hstale : ss.stale address = false) :
    (translatePageAddress address flag ss.state).1 = pageWalk ss.state flag.isOpcode address := by
  have hsame := sameTranslation_lookup flag address ss.state
  unfold translatePageAddress
  split
  · next paddr s' heq =>
      obtain ⟨i, htag, hpaddr⟩ := lookupTLBPageAddress_found heq
      rw [h.agrees flag.isOpcode address i htag hstale, hpaddr]
  · next heq =>
      rw [heq] at hsame
      rw [walkPageTable_fst, hsame.walk]

/-- **Main theorem**: in every state of a run from a reset, and for every address whose
walk no write to a segment register, `SDR1` or memory has changed since the last `tlbie`
of its set, a translation gives the result of the walk with empty TLBs. -/
theorem translatePageAddress_eq_walk {s : State} (h0 : IsReset s) {ss : Session}
    (hr : Run Session.step (fun _ _ => True) (Session.init s) ss) (address : BitVec 32)
    (flag : XCheckTLBFlag) (hstale : ss.stale address = false) :
    (translatePageAddress address flag ss.state).1 =
      (translatePageAddress address flag { ss.state with tlb := emptyTLB }).1 := by
  have hgood := good_run h0 hr
  rw [hgood.translate_eq address flag hstale, translatePageAddress_emptyTLB]

/-- Reset, with segment registers and memory cleared. -/
def clearedState : State where
  sr _ := 0
  sprSDR := 0
  pagetableBase := 0
  pagetableHashmask := 0
  tlb := emptyTLB
  physicalBase _ := 0
  msrDR := true
  ibatTable _ := 0
  dbatTable _ := 0
  exram := false
  fakeVMEM := false

theorem clearedState_isReset : IsReset clearedState :=
  ⟨rfl, rfl, rfl, fun _ => BitVec.zero_and, fun _ => BitVec.zero_and⟩

/-- An entry that maps page 1 to the physical page 2, each store followed by `tlbie`, and
a first read through it. -/
def mapPageOne : List Action :=
  [.mtsprSDR 0, .store 0x40 0x80, .tlbie 0x1000, .store 0x46 0x20, .tlbie 0x1000,
    .translate 0x1000 .read]

/-- After a write to another segment register page 1 is still translated by its entry. -/
theorem translatePageAddress_eq_walk_pageOne :
    ∃ ss, Run.exec Session.step (Session.init clearedState) (mapPageOne ++ [.mtsr 1 5]) = some ss ∧
      (translatePageAddress 0x1000 .write ss.state).1 =
        (translatePageAddress 0x1000 .write { ss.state with tlb := emptyTLB }).1 :=
  ⟨_, rfl, translatePageAddress_eq_walk clearedState_isReset
    (.of_exec (mapPageOne ++ [.mtsr 1 5]) (fun _ _ _ => trivial) rfl) 0x1000 .write
    (by decide)⟩

/-- After a write that makes its own segment a direct-store segment, the entry of page 1 is
still found in the TLB. -/
theorem translatePageAddress_ne_walk :
    (Run.exec Session.step (Session.init clearedState) (mapPageOne ++ [.mtsr 0 0x80000000])).map
      (fun ss => ((translatePageAddress 0x1000 .read ss.state).1,
        (translatePageAddress 0x1000 .read { ss.state with tlb := emptyTLB }).1)) =
    some (⟨.pageTableTranslated, 0x2000⟩, ⟨.directStoreSegment, 0⟩) := by
  decide

end DolphinCore.MMU
