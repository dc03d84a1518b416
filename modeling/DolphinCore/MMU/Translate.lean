import DolphinCore.MMU.Tlb

/-!
# DolphinCore.MMU.Translate

What one translation does, as the accesses built on it need it: the addresses of a page
are translated alike, a translation leaves the translation of pages in other sets alone,
and a page that has been translated for a store stays translated.
-/

namespace DolphinCore.MMU

/-! ## addresses of a page -/

theorem toNat_pageOf (v : BitVec 32) : (pageOf v).toNat = v.toNat / 4096 := by
  rw [pageOf, BitVec.toNat_ushiftRight, Nat.shiftRight_eq_div_pow]

theorem toNat_eaOffset (v : BitVec 32) : (eaOffset v).toNat = v.toNat % 4096 :=
  toNat_and_mask v 12 rfl

section
variable {v : BitVec 32} {i : Nat} (hi : v.toNat % 4096 + i < 4096)
include hi

theorem toNat_add_of_page : (v + BitVec.ofNat 32 i).toNat = v.toNat + i := by
  rw [BitVec.toNat_add, BitVec.toNat_ofNat, Nat.mod_eq_of_lt (by omega : i < 2 ^ 32)]
  omega

theorem pageOf_add : pageOf (v + BitVec.ofNat 32 i) = pageOf v := by
  apply BitVec.eq_of_toNat_eq
  rw [toNat_pageOf, toNat_pageOf, toNat_add_of_page hi]
  omega

theorem and_mask_add {c : BitVec 32} (k : Nat) (hk : 12 ≤ k) (hk' : k ≤ 32)
    (hc : c.toNat = 2 ^ k - 1) : (v + BitVec.ofNat 32 i) &&& c = (v &&& c) + BitVec.ofNat 32 i := by
  have hdvd : 4096 ∣ 2 ^ k := Nat.pow_dvd_pow 2 hk
  have hmod := Nat.mod_mod_of_dvd v.toNat hdvd
  have hroom : v.toNat % 2 ^ k + i < 2 ^ k := by
    obtain ⟨q, hq⟩ := hdvd
    omega
  apply BitVec.eq_of_toNat_eq
  rw [toNat_and_mask _ k hc, toNat_add_of_page hi, BitVec.toNat_add, toNat_and_mask v k hc,
    BitVec.toNat_ofNat, Nat.mod_eq_of_lt (by omega : i < 2 ^ 32),
    Nat.mod_eq_of_lt (by omega : v.toNat % 2 ^ k + i < 2 ^ 32), Nat.add_mod,
    Nat.mod_eq_of_lt (by omega : i < 2 ^ k), Nat.mod_eq_of_lt hroom]

theorem eaOffset_add : eaOffset (v + BitVec.ofNat 32 i) = eaOffset v + BitVec.ofNat 32 i :=
  and_mask_add hi 12 (by decide) (by decide) rfl

end

theorem and_eq_of_pageOf {v v' c : BitVec 32} (h : pageOf v' = pageOf v) (hc : c &&& 0xfff = 0) :
    v' &&& c = v &&& c := by
  have hbits : ∀ k, 12 ≤ k → v'.getLsbD k = v.getLsbD k := by
    intro k hk
    have hk' := congrArg (·.getLsbD (k - 12)) h
    simp only [pageOf, BitVec.getLsbD_ushiftRight] at hk'
    rwa [Nat.add_sub_cancel' hk] at hk'
  refine BitVec.eq_of_getLsbD_eq fun k _ => ?_
  rw [BitVec.getLsbD_and, BitVec.getLsbD_and]
  by_cases h12 : 12 ≤ k
  · rw [hbits k h12]
  · have hmask : ∀ k < 12, (0xfff : BitVec 32).getLsbD k = true := by decide
    have hk0 : c.getLsbD k = false := by
      have hck := congrArg (·.getLsbD k) hc
      rw [BitVec.getLsbD_and, hmask k (by omega), Bool.and_true] at hck
      rw [hck]
      exact BitVec.getLsbD_zero
    rw [hk0, Bool.and_false, Bool.and_false]

theorem or_eaOffset {base : BitVec 32} (h : base &&& 0xfff = 0) (v : BitVec 32) :
    base ||| eaOffset v = base + eaOffset v := by
  refine (BitVec.add_eq_or_of_and_eq_zero _ _ ?_).symm
  rw [eaOffset, BitVec.and_comm v, ← BitVec.and_assoc, h]
  exact BitVec.zero_and

/-! ## the translation as a function of the state -/

/-- The way of the TLB that a lookup finds. -/
def tlbWay (s : State) (opcode : Bool) (v : BitVec 32) : Option (Fin 2) :=
  let tlbe := s.tlb opcode (setOf (pageOf v))
  if tlbe.tag 0 = pageOf v then some 0 else if tlbe.tag 1 = pageOf v then some 1 else none

theorem lookupTLBPageAddress_eq (flag : XCheckTLBFlag) (vpa : BitVec 32) (s : State) :
    lookupTLBPageAddress flag vpa s =
      match tlbWay s flag.isOpcode vpa with
      | some i => lookupWay flag vpa i s
      | none => (.notFound, 0, s) := by
  unfold lookupTLBPageAddress tlbWay
  dsimp only
  split
  · rfl
  · split <;> rfl

/-- The way that answers a lookup: not one whose C bit is yet to be set. -/
def answeringWay (s : State) (flag : XCheckTLBFlag) (v : BitVec 32) : Option (Fin 2) :=
  match tlbWay s flag.isOpcode v with
  | some i =>
    if flag = .write ∧ (s.tlb flag.isOpcode (setOf (pageOf v))).pte i &&& pte2C = 0 then none
    else some i
  | none => none

theorem translatePageAddress_fst (s : State) (flag : XCheckTLBFlag) (v : BitVec 32) :
    (translatePageAddress v flag s).1 =
      match answeringWay s flag v with
      | some i =>
        ⟨.pageTableTranslated, (s.tlb flag.isOpcode (setOf (pageOf v))).paddr i ||| eaOffset v⟩
      | none => pageWalk s flag.isOpcode v := by
  unfold translatePageAddress answeringWay
  rw [lookupTLBPageAddress_eq]
  cases tlbWay s flag.isOpcode v with
  | none => exact walkPageTable_fst ..
  | some i =>
    unfold lookupWay
    by_cases hC : flag = .write ∧ (s.tlb flag.isOpcode (setOf (pageOf v))).pte i &&& pte2C = 0
    · simp only [if_pos hC]
      exact walkPageTable_fst ..
    · simp only [if_neg hC]
      split <;> rfl

theorem pageWalk_page {s : State} {opcode : Bool} {v : BitVec 32}
    (h : (pageWalk s opcode v).success) :
    ∃ base, base &&& 0xfff = 0 ∧ ∀ v', pageOf v' = pageOf v →
      pageWalk s opcode v' = ⟨.pageTableTranslated, base ||| eaOffset v'⟩ := by
  by_cases hT : srT (s.sr (eaSR v))
  · simp [pageWalk, hT, TranslateAddressResult.success] at h
  · by_cases hN : opcode && srN (s.sr (eaSR v))
    · simp [pageWalk, hT, hN, TranslateAddressResult.success] at h
    · cases hf : findPTE s v with
      | none => simp [pageWalk, hT, hN, hf, TranslateAddressResult.success] at h
      | some pteg =>
        rw [Bool.not_eq_true] at hT hN
        exact ⟨_, pte2RPN_and _, fun v' hv' => pageWalk_of_findPTE hT hN hf hv'⟩

theorem tlbWay_congr (s : State) (opcode : Bool) {v v' : BitVec 32} (h : pageOf v' = pageOf v) :
    tlbWay s opcode v' = tlbWay s opcode v := by
  rw [tlbWay, tlbWay, h]

theorem answeringWay_congr (s : State) (flag : XCheckTLBFlag) {v v' : BitVec 32}
    (h : pageOf v' = pageOf v) : answeringWay s flag v' = answeringWay s flag v := by
  rw [answeringWay, answeringWay, tlbWay_congr s _ h, h]

theorem translateBatAddress_page {table : BatTable} (h : BatAligned table) (v : BitVec 32) :
    (∀ v', pageOf v' = pageOf v → translateBatAddress table v' = none) ∨
    ∃ base, base &&& 0xfff = 0 ∧ ∀ v', pageOf v' = pageOf v →
      translateBatAddress table v' = some (base ||| eaOffset v') := by
  have hindex : ∀ v', pageOf v' = pageOf v → v' >>> 17 = v >>> 17 := by
    have h17 : ∀ v : BitVec 32, v >>> 17 = pageOf v >>> 5 := by
      intro v
      rw [pageOf, ← BitVec.shiftRight_add]
    intro v' hv'
    rw [h17, h17, hv']
  unfold translateBatAddress
  by_cases hmap : table ((v >>> 17).setWidth 15) &&& 1 = 0
  · refine .inl fun v' hv' => ?_
    rw [hindex v' hv', if_pos hmap]
  · refine .inr ⟨(table ((v >>> 17).setWidth 15) &&& ~~~3) ||| (v &&& 0x1f000), ?_, fun v' hv' => ?_⟩
    · have hblock : table ((v >>> 17).setWidth 15) &&& ~~~3 &&& 0xfff = 0 := by
        rw [BitVec.and_assoc, show (~~~3 &&& 0xfff : BitVec 32) = 0x1fffc &&& 0xfff by decide,
          ← BitVec.and_assoc, h]
        exact BitVec.zero_and
      rw [BitVec.and_or_distrib_right, hblock, BitVec.and_assoc,
        show (0x1f000 &&& 0xfff : BitVec 32) = 0#32 by decide, BitVec.and_zero]
      rfl
    · rw [hindex v' hv', if_neg hmap, show (0x1ffff : BitVec 32) = 0x1f000 ||| 0xfff by decide,
        BitVec.and_or_distrib_left, and_eq_of_pageOf hv' (by decide : (0x1f000 : BitVec 32) &&& 0xfff = 0),
        BitVec.or_assoc, eaOffset]

variable {flag : XCheckTLBFlag}

theorem translateAddress_page {s : State} (h : s.Valid) {v : BitVec 32}
    (hs : (translateAddress flag v s).1.success) :
    ∃ base, base &&& 0xfff = 0 ∧ ∀ v', pageOf v' = pageOf v → (translateAddress flag v' s).1 =
        ⟨(translateAddress flag v s).1.result, base ||| eaOffset v'⟩ := by
  have htable : BatAligned (if flag.isOpcode then s.ibatTable else s.dbatTable) := by
    split
    · exact h.ibatTable
    · exact h.dbatTable
  unfold translateAddress at hs ⊢
  obtain hbat | ⟨base, hbase, hbat⟩ := translateBatAddress_page htable v
  · rw [hbat v rfl] at hs ⊢
    rw [translatePageAddress_fst] at hs ⊢
    cases hway : answeringWay s flag v with
    | some i =>
      refine ⟨_, h.paddr flag.isOpcode (setOf (pageOf v)) i, fun v' hv' => ?_⟩
      rw [hbat v' hv']
      rw [translatePageAddress_fst, answeringWay_congr s flag hv', hway, hv']
    | none =>
      rw [hway] at hs
      obtain ⟨base, hbase, hwalk⟩ := pageWalk_page hs
      refine ⟨base, hbase, fun v' hv' => ?_⟩
      rw [hbat v' hv']
      rw [translatePageAddress_fst, answeringWay_congr s flag hv', hway]
      rw [hwalk v' hv', hwalk v rfl]
  · refine ⟨base, hbase, fun v' hv' => ?_⟩
    rw [hbat v' hv', hbat v rfl]

theorem translateAddress_add {s : State} (h : s.Valid) {v : BitVec 32}
    (hs : (translateAddress flag v s).1.success) {i : Nat} (hi : v.toNat % 4096 + i < 4096) :
    (translateAddress flag (v + BitVec.ofNat 32 i) s).1 =
        ⟨(translateAddress flag v s).1.result,
          (translateAddress flag v s).1.address + BitVec.ofNat 32 i⟩ ∧
      (translateAddress flag v s).1.address.toNat % 4096 = v.toNat % 4096 := by
  obtain ⟨base, hbase, hpage⟩ := translateAddress_page h hs
  have hv := congrArg TranslateAddressResult.address (hpage v rfl)
  constructor
  · rw [hpage _ (pageOf_add hi), hv, or_eaOffset hbase, or_eaOffset hbase, eaOffset_add hi,
      BitVec.add_assoc]
  · have hoff : eaOffset (base ||| eaOffset v) = eaOffset v := by
      rw [eaOffset, BitVec.and_or_distrib_right, hbase, eaOffset, BitVec.and_assoc, BitVec.and_self]
      exact BitVec.zero_or
    rw [hv, ← toNat_eaOffset, hoff, toNat_eaOffset]

/-! ## the state after a translation -/

/-- A state that translates the pages in other sets than that of `v` as `s` does. -/
structure Touches (v : BitVec 32) (s s' : State) : Prop where
  framed : Framed s s'
  walk : ∀ opcode v', pageWalk s' opcode v' = pageWalk s opcode v'
  tlb : ∀ opcode set, set ≠ setOf (pageOf v) → s'.tlb opcode set = s.tlb opcode set

theorem Touches.refl (v : BitVec 32) (s : State) : Touches v s s :=
  ⟨rfl, fun _ _ => rfl, fun _ _ _ => rfl⟩

theorem Touches.trans {v : BitVec 32} {s s' s'' : State} (h : Touches v s s')
    (h' : Touches v s' s'') : Touches v s s'' where
  framed := by
    rw [Framed, h'.framed, h.framed]
  walk opcode v' := (h'.walk opcode v').trans (h.walk opcode v')
  tlb opcode set hset := (h'.tlb opcode set hset).trans (h.tlb opcode set hset)

theorem Touches.setTLB (v : BitVec 32) (s : State) (o : Bool) (tlbe : TLBEntry) :
    Touches v s (s.setTLB o (setOf (pageOf v)) tlbe) where
  framed := rfl
  walk _ _ := rfl
  tlb opcode set hset := by
    simp only [State.setTLB]
    rw [if_neg fun h => hset h.2]

theorem touches_lookup (flag : XCheckTLBFlag) (v : BitVec 32) (s : State) :
    Touches v s (lookupTLBPageAddress flag v s).2.2 := by
  rw [lookupTLBPageAddress_eq]
  cases tlbWay s flag.isOpcode v with
  | none => exact .refl v s
  | some i =>
    unfold lookupWay
    dsimp only
    split
    · exact .setTLB ..
    · exact .setTLB ..

theorem touches_updateTLBEntry (flag : XCheckTLBFlag) (pte2 v : BitVec 32) (s : State) :
    Touches v s (updateTLBEntry flag pte2 v s) := by
  unfold updateTLBEntry
  split
  · exact .refl v s
  · exact .setTLB ..

theorem touches_walkPageTable {s : State} (h : s.Valid) (v : BitVec 32) (flag : XCheckTLBFlag)
    (res : TLBLookupResult) : Touches v s (walkPageTable v flag res s).2 := by
  obtain ⟨_, hs'⟩ | ⟨pte2, s1, hsame, htlb, _, hs'⟩ :=
    walkPageTable_cases h.pagetableBase v flag res
  · rw [hs']
    exact .refl v s
  · have h1 : Touches v s s1 := ⟨hsame.framed, hsame.walk, fun _ _ _ => by rw [htlb]⟩
    rw [hs']
    split
    · exact h1
    · exact h1.trans (touches_updateTLBEntry ..)

theorem touches_translatePageAddress {s : State} (h : s.Valid) (v : BitVec 32)
    (flag : XCheckTLBFlag) : Touches v s (translatePageAddress v flag s).2 := by
  have hlookup := touches_lookup flag v s
  have hvalid := h.of_same (sameTranslation_lookup flag v s)
  unfold translatePageAddress
  split
  · next heq =>
      rw [heq] at hlookup
      exact hlookup
  · next heq =>
      rw [heq] at hlookup hvalid
      exact hlookup.trans (touches_walkPageTable hvalid ..)

theorem touches_translateAddress {s : State} (h : s.Valid) (flag : XCheckTLBFlag)
    (v : BitVec 32) : Touches v s (translateAddress flag v s).2 := by
  unfold translateAddress
  split
  · exact .refl v s
  · exact touches_translatePageAddress h v flag

theorem valid_translateAddress {s : State} (h : s.Valid) (flag : XCheckTLBFlag) (v : BitVec 32) :
    (translateAddress flag v s).2.Valid := by
  have hgood : Session.Good ⟨s, fun _ => true⟩ := ⟨h, fun _ _ _ _ hstale => by cases hstale⟩
  unfold translateAddress
  split
  · exact h
  · exact (good_translatePageAddress hgood v flag).valid

theorem Touches.translateAddress {v : BitVec 32} {s s' : State} (h : Touches v s s')
    {v' : BitVec 32} (hset : setOf (pageOf v') ≠ setOf (pageOf v)) (flag : XCheckTLBFlag) :
    (translateAddress flag v' s').1 = (translateAddress flag v' s).1 := by
  have hway : answeringWay s' flag v' = answeringWay s flag v' := by
    unfold answeringWay tlbWay
    rw [h.tlb _ _ hset]
  have hpage : (translatePageAddress v' flag s').1 = (translatePageAddress v' flag s).1 := by
    rw [translatePageAddress_fst, translatePageAddress_fst, hway, h.tlb _ _ hset, h.walk]
  have hi := congrArg State.ibatTable h.framed
  have hd := congrArg State.dbatTable h.framed
  dsimp only at hi hd
  unfold MMU.translateAddress
  rw [hi, hd]
  split
  · rfl
  · exact hpage

/-! ## resident pages -/

/-- The page of `v` is in a BAT block or in the data TLB. -/
def Resident (s : State) (v : BitVec 32) : Prop :=
  (translateBatAddress s.dbatTable v).isSome ∨ (tlbWay s false v).isSome

theorem Resident.congr {s : State} (hs : s.Valid) {v v' : BitVec 32} (h : pageOf v' = pageOf v)
    (hv : Resident s v) : Resident s v' := by
  obtain hbat | hway := hv
  · obtain hnone | ⟨base, _, hsome⟩ := translateBatAddress_page hs.dbatTable v
    · rw [hnone v rfl] at hbat
      cases hbat
    · exact .inl (by rw [hsome v' h]; rfl)
  · exact .inr (by rwa [tlbWay_congr s false h])

theorem Touches.resident {v v' : BitVec 32} {s s' : State} (h : Touches v s s')
    (hset : setOf (pageOf v') ≠ setOf (pageOf v)) (hv : Resident s v') : Resident s' v' := by
  have hway : tlbWay s' false v' = tlbWay s false v' := by rw [tlbWay, tlbWay, h.tlb _ _ hset]
  have hbat := congrArg State.dbatTable h.framed
  dsimp only at hbat
  rw [Resident, hway, hbat]
  exact hv

theorem Resident.read {s : State} {v : BitVec 32} (h : Resident s v) (m : Mem 32) :
    (translateAddress .read v s).2.physicalBase = s.physicalBase ∧
      (translateAddress .read v { s with physicalBase := m }).1 = (translateAddress .read v s).1 := by
  unfold translateAddress
  cases hbat : translateBatAddress s.dbatTable v with
  | some paddr =>
    simp only [XCheckTLBFlag.isOpcode, Bool.false_eq_true, if_false, hbat]
    exact ⟨trivial, trivial⟩
  | none =>
    have hway : (tlbWay s false v).isSome := by simpa [Resident, hbat] using h
    obtain ⟨i, hi⟩ := Option.isSome_iff_exists.mp hway
    have hi' : tlbWay { s with physicalBase := m } false v = some i := hi
    simp only [XCheckTLBFlag.isOpcode, Bool.false_eq_true, if_false, hbat]
    unfold translatePageAddress
    rw [lookupTLBPageAddress_eq, lookupTLBPageAddress_eq]
    simp only [XCheckTLBFlag.isOpcode, hi, hi', lookupWay, reduceCtorEq, false_and, if_false]
    exact ⟨rfl, trivial⟩

theorem tlbWay_of_tag {s s' : State} (h : ∀ opcode set, (s'.tlb opcode set).tag = (s.tlb opcode set).tag)
    (opcode : Bool) (v : BitVec 32) : tlbWay s' opcode v = tlbWay s opcode v := by
  rw [tlbWay, tlbWay, h]

theorem tlbWay_updateTLBEntry {s : State} {v : BitVec 32} (hflag : flag.isNoException = false)
    (hmiss : tlbWay s flag.isOpcode v = none) (pte2 : BitVec 32) :
    ∃ i, tlbWay (updateTLBEntry flag pte2 v s) flag.isOpcode v = some i ∧
      ((updateTLBEntry flag pte2 v s).tlb flag.isOpcode (setOf (pageOf v))).paddr i = pte2RPN pte2 := by
  have hmiss0 : (s.tlb flag.isOpcode (setOf (pageOf v))).tag 0 ≠ pageOf v := by
    intro h
    simp [tlbWay, h] at hmiss
  unfold updateTLBEntry
  rw [hflag]
  simp only [Bool.false_eq_true, if_false]
  generalize (if (s.tlb flag.isOpcode (setOf (pageOf v))).recent = 0 ∧
    (s.tlb flag.isOpcode (setOf (pageOf v))).tag 0 ≠ invalidTag then 1 else 0 : Fin 2) = index
  refine ⟨index, ?_, ?_⟩
  · have hindex : index = 0 ∨ index = 1 := by omega
    obtain rfl | rfl := hindex
    · simp [tlbWay, State.setTLB]
    · simp [tlbWay, State.setTLB, hmiss0]
  · simp [State.setTLB]

theorem translatePageAddress_read {s : State} {v : BitVec 32} {i : Fin 2}
    (h : tlbWay s false v = some i) :
    (translatePageAddress v .read s).1 =
      ⟨.pageTableTranslated, (s.tlb false (setOf (pageOf v))).paddr i ||| eaOffset v⟩ := by
  have hway : answeringWay s .read v = some i := by
    simp [answeringWay, XCheckTLBFlag.isOpcode, h]
  rw [translatePageAddress_fst, hway]
  rfl

theorem translatePageAddress_hit {s : State} (h : s.Valid) (flag : XCheckTLBFlag) {v : BitVec 32}
    {i : Fin 2} (hway : tlbWay s flag.isOpcode v = some i) (opcode : Bool) (set : BitVec 6) :
    ((translatePageAddress v flag s).2.tlb opcode set).tag = (s.tlb opcode set).tag ∧
      ((translatePageAddress v flag s).2.tlb opcode set).paddr = (s.tlb opcode set).paddr := by
  have hsame := sameTranslation_lookup flag v s
  unfold translatePageAddress
  rw [lookupTLBPageAddress_eq, hway] at hsame ⊢
  dsimp only at hsame ⊢
  generalize hlookup : lookupWay flag v i s = r at hsame ⊢
  obtain ⟨res, paddr, s1⟩ := r
  cases res with
  | found => exact ⟨hsame.tag opcode set, hsame.paddr opcode set⟩
  | notFound =>
    unfold lookupWay at hlookup
    dsimp only at hlookup
    split at hlookup <;> simp at hlookup
  | updateC =>
    obtain ⟨_, hs'⟩ | ⟨pte2, s2, hsame', _, _, hs'⟩ :=
      walkPageTable_cases (h.of_same hsame).pagetableBase v flag .updateC
    · rw [hs']
      exact ⟨hsame.tag opcode set, hsame.paddr opcode set⟩
    · rw [hs', if_pos rfl, hsame'.tag, hsame'.paddr]
      exact ⟨hsame.tag opcode set, hsame.paddr opcode set⟩

theorem translatePageAddress_miss {s : State} (h : s.Valid) (flag : XCheckTLBFlag) {v : BitVec 32}
    (hflag : flag.isNoException = false) (hway : tlbWay s flag.isOpcode v = none)
    (hs : (translatePageAddress v flag s).1.success) :
    ∃ i, tlbWay (translatePageAddress v flag s).2 flag.isOpcode v = some i ∧
      ∀ v', pageOf v' = pageOf v → (translatePageAddress v' flag s).1 = ⟨.pageTableTranslated,
        ((translatePageAddress v flag s).2.tlb flag.isOpcode (setOf (pageOf v))).paddr i |||
          eaOffset v'⟩ := by
  have hwalk : translatePageAddress v flag s = walkPageTable v flag .notFound s := by
    rw [translatePageAddress, lookupTLBPageAddress_eq, hway]
  rw [hwalk] at hs ⊢
  obtain ⟨hfail, _⟩ | ⟨pte2, s1, hsame, htlb, hpage, hs'⟩ :=
    walkPageTable_cases h.pagetableBase v flag .notFound
  · rw [hfail] at hs
    cases hs
  · have hway' : tlbWay s1 flag.isOpcode v = none := by
      rw [tlbWay_of_tag hsame.tag]
      exact hway
    obtain ⟨i, hi, hpaddr⟩ := tlbWay_updateTLBEntry hflag hway' pte2
    rw [hs', if_neg (by decide)]
    refine ⟨i, hi, fun v' hv' => ?_⟩
    have hanswer : answeringWay s flag v' = none := by
      rw [answeringWay_congr s flag hv', answeringWay, hway]
    rw [translatePageAddress_fst, hanswer, hpaddr]
    exact hpage v' hv'

/-- A page translated for a store is resident, and loads from it go where they went
before or where the store goes. -/
theorem resident_of_write {s : State} (h : s.Valid) {v : BitVec 32}
    (hs : (translateAddress .write v s).1.success) :
    Resident (translateAddress .write v s).2 v ∧ ∀ v', pageOf v' = pageOf v →
      (translateAddress .read v' (translateAddress .write v s).2).1 = (translateAddress .read v' s).1 ∨
      (translateAddress .read v' (translateAddress .write v s).2).1 =
        (translateAddress .write v' s).1 := by
  obtain hbat | ⟨base, _, hbat⟩ := translateBatAddress_page h.dbatTable v
  · have htranslate : ∀ flag v', flag.isOpcode = false → pageOf v' = pageOf v →
        ∀ s', s'.dbatTable = s.dbatTable →
        translateAddress flag v' s' = translatePageAddress v' flag s' := by
      intro flag v' hflag hv' s' hs'
      rw [translateAddress, hflag, hs']
      simp only [Bool.false_eq_true, if_false, hbat v' hv']
    have hframed := (touches_translatePageAddress h v .write).framed
    have hdbat := congrArg State.dbatTable hframed
    dsimp only at hdbat
    rw [htranslate .write v rfl rfl s rfl] at hs ⊢
    cases hway : tlbWay s false v with
    | some i =>
      have htlb := fun opcode set => translatePageAddress_hit h .write hway opcode set
      have hway' : ∀ v', pageOf v' = pageOf v →
          tlbWay (translatePageAddress v .write s).2 false v' = some i := by
        intro v' hv'
        rw [tlbWay_congr _ _ hv', tlbWay_of_tag fun opcode set => (htlb opcode set).1]
        exact hway
      refine ⟨.inr (by rw [hway' v rfl]; rfl), fun v' hv' => .inl ?_⟩
      rw [htranslate .read v' rfl hv' _ hdbat, htranslate .read v' rfl hv' s rfl,
        translatePageAddress_read (hway' v' hv'),
        translatePageAddress_read ((tlbWay_congr s false hv').trans hway), (htlb _ _).2]
    | none =>
      obtain ⟨i, hi, hpage⟩ := translatePageAddress_miss h .write rfl hway hs
      have hi' : tlbWay (translatePageAddress v .write s).2 false v = some i := hi
      refine ⟨.inr (by rw [hi']; rfl), fun v' hv' => .inr ?_⟩
      rw [htranslate .read v' rfl hv' _ hdbat, htranslate .write v' rfl hv' s rfl,
        translatePageAddress_read ((tlbWay_congr _ false hv').trans hi'), hpage v' hv', hv']
      rfl
  · have htranslate : ∀ flag v', flag.isOpcode = false → pageOf v' = pageOf v →
        translateAddress flag v' s = (⟨.batTranslated, base ||| eaOffset v'⟩, s) := by
      intro flag v' hflag hv'
      rw [translateAddress, hflag]
      simp only [Bool.false_eq_true, if_false, hbat v' hv']
    rw [htranslate .write v rfl rfl]
    refine ⟨.inl (by rw [hbat v rfl]; rfl), fun v' hv' => .inl rfl⟩

end DolphinCore.MMU
