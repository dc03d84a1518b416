import DolphinCore.ActionReplay.ARDecrypt
import DolphinCore.Lib.Computation
import Mathlib.Data.List.Basic
import Mathlib.Tactic.Set

/-!
# DolphinCore.ActionReplay.DecryptBounds

When `DecryptARCode` returns without an access outside of its arrays: up to 127 lines, whose words
the checksum covers, and, as no checksum is made then, up to 600 lines one of which fails its parity
check.
-/

namespace DolphinCore.ActionReplay

/-! ## computations that return -/

/-- The computation returns. -/
def Returns {α : Type} (x : Except Fault α) : Prop := ∃ v, x = .ok v

variable {α β : Type}

namespace Returns

theorem pure (v : α) : Returns (Pure.pure v : Except Fault α) := ⟨v, rfl⟩

theorem bind {x : Except Fault α} {f : α → Except Fault β} (hx : Returns x)
    (hf : ∀ v, Returns (f v)) : Returns (x >>= f) := by
  obtain ⟨v, rfl⟩ := hx
  exact hf v

theorem foldlM {f : β → α → Except Fault β} {l : List α} (h : ∀ b, ∀ a ∈ l, Returns (f b a))
    (b : β) : Returns (l.foldlM f b) := by
  induction l generalizing b with
  | nil => exact pure b
  | cons a l ih =>
    exact (h b a List.mem_cons_self).bind fun b' =>
      ih (fun b a ha => h b a (List.mem_cons_of_mem _ ha)) b'

theorem mapM {f : α → Except Fault β} {l : List α} (h : ∀ a ∈ l, Returns (f a)) :
    Returns (l.mapM f) := by
  induction l with
  | nil => exact ⟨[], rfl⟩
  | cons a l ih =>
    rw [List.mapM_cons]
    exact (h a List.mem_cons_self).bind fun b =>
      (ih fun a ha => h a (List.mem_cons_of_mem _ ha)).bind fun bs => pure _

theorem of_bind {x : Except Fault α} {f : α → Except Fault β} (h : Returns (x >>= f)) :
    ∃ v, x = .ok v ∧ Returns (f v) := by
  obtain ⟨r, hr⟩ := h
  obtain ⟨v, hv, hf⟩ := bind_eq_ok.mp hr
  exact ⟨v, hv, r, hf⟩

theorem of_mapM {f : α → Except Fault β} {l : List α} (h : Returns (l.mapM f)) :
    ∀ a ∈ l, Returns (f a) := by
  induction l with
  | nil => exact fun a ha => absurd ha List.not_mem_nil
  | cons a l ih =>
    rw [List.mapM_cons] at h
    obtain ⟨b, hb, hrest⟩ := h.of_bind
    obtain ⟨bs, hbs, -⟩ := hrest.of_bind
    exact List.forall_mem_cons.mpr ⟨⟨b, hb⟩, ih ⟨bs, hbs⟩⟩

end Returns

variable {i : Nat} {seeds : List (BitVec 32)} {size : BitVec 16} {fuel : Nat}

theorem returns_readTable {α : Type} {t : List α} (h : i < t.length) : Returns (readTable t i) :=
  ⟨t[i], by rw [readTable, List.getElem?_eq_getElem h]⟩

variable (codes : Words) (uninit : Words)

theorem returns_readWord (h : i < UCODES_SIZE) : Returns (readWord codes i) :=
  ⟨codes i, if_pos h⟩

theorem returns_writeWord (h : i < UCODES_SIZE) (v : BitVec 32) :
    Returns (writeWord codes i v) :=
  ⟨_, if_pos h⟩

/-! ## the cipher and the checksum -/

theorem returns_substitute {t : List (BitVec 32)} (ht : t.length = 0x40) (tmp : BitVec 32) :
    Returns (substitute t tmp) := by
  apply returns_readTable
  have : (tmp &&& 0x3F).toNat ≤ 0x3F := by
    rw [BitVec.toNat_and]
    exact Nat.and_le_right
  omega

theorem returns_halfRound (hs : seeds.length = 32) (hi : i + 1 < 32) (v : BitVec 32) :
    Returns (halfRound seeds i v) := by
  refine (returns_readTable (by omega)).bind fun s0 => (returns_readTable (by omega)).bind
    fun s1 => ?_
  refine (returns_substitute rfl _).bind fun _ => (returns_substitute rfl _).bind fun _ => ?_
  refine (returns_substitute rfl _).bind fun _ => (returns_substitute rfl _).bind fun _ => ?_
  refine (returns_substitute rfl _).bind fun _ => (returns_substitute rfl _).bind fun _ => ?_
  refine (returns_substitute rfl _).bind fun _ => (returns_substitute rfl _).bind fun _ => ?_
  exact .pure _

theorem returns_decryptcode (hs : seeds.length = 32) (codes : Words) {p : Nat}
    (hp : p + 1 < UCODES_SIZE) : Returns (decryptcode seeds codes p) := by
  have hp' : p < UCODES_SIZE := by omega
  have hseeds : ∀ i ∈ [0, 4, 8, 12, 16, 20, 24, 28], i + 3 < 32 := by decide
  refine (returns_readWord codes hp').bind fun addr => (returns_readWord codes hp).bind fun val => ?_
  refine (Returns.foldlM (fun w i hi => ?_) _).bind fun w => ?_
  · have hlast := hseeds i hi
    exact (returns_halfRound hs (by omega) _).bind fun _ =>
      (returns_halfRound hs (by omega) _).bind fun _ => .pure _
  · exact (returns_writeWord _ hp' _).bind fun codes => returns_writeWord codes hp _

theorem returns_crcByte (word : BitVec 32) (ret : BitVec 16) (i : Nat) :
    Returns (crcByte word ret i) := by
  have hmask (v : BitVec 8) : (v &&& 0x0F).toNat < 16 := by
    have : (v &&& 0x0F).toNat ≤ 0x0F := by
      rw [BitVec.toNat_and]
      exact Nat.and_le_right
    omega
  exact (returns_readTable (hmask _)).bind fun _ =>
    (returns_readTable (hmask _)).bind fun _ => .pure _

theorem gencrc16From_covers (hsize : size.toNat ≤ 0xFF) (k : Nat) (tmp : BitVec 8)
    (htmp : tmp.toNat + k = size.toNat) (ret : BitVec 16) (hfuel : k < fuel) :
    ∃ crc, gencrc16From codes size fuel tmp ret =
      .ok (crc, (List.range k).map (tmp.toNat + ·)) := by
  induction k generalizing tmp ret fuel with
  | zero =>
    obtain ⟨fuel, rfl⟩ : ∃ f, fuel = f + 1 := ⟨fuel - 1, by omega⟩
    exact ⟨ret, by rw [gencrc16From, if_neg (by omega)]; rfl⟩
  | succ k ih =>
    obtain ⟨fuel, rfl⟩ : ∃ f, fuel = f + 1 := ⟨fuel - 1, by omega⟩
    have hnext : (tmp + 1).toNat = tmp.toNat + 1 := by bv_omega
    obtain ⟨word, hword⟩ := returns_readWord codes (i := tmp.toNat)
      (by simp only [UCODES_SIZE]; omega)
    obtain ⟨ret', hret⟩ := Returns.foldlM (f := crcByte word) (l := [0, 1, 2, 3])
      (fun ret i _ => returns_crcByte word ret i) ret
    obtain ⟨crc, hrest⟩ := ih (tmp + 1) (by omega) ret' (Nat.lt_of_succ_lt_succ hfuel)
    refine ⟨crc, ?_⟩
    rw [gencrc16From, if_pos (by omega), hword]
    change ([0, 1, 2, 3].foldlM (crcByte word) ret >>= _) = _
    rw [hret]
    change (gencrc16From codes size fuel (tmp + 1) ret' >>= _) = _
    rw [hrest, List.range_succ_eq_map, List.map_cons, List.map_map, hnext]
    simp only [Function.comp_def, Nat.succ_eq_add_one, Nat.add_zero, Nat.add_assoc, Nat.add_comm 1]
    rfl

theorem gencrc16From_endless (hsize : 0x100 ≤ size.toNat) (fuel : Nat) (tmp : BitVec 8)
    (ret : BitVec 16) :
    gencrc16From codes size fuel tmp ret = .error .endless := by
  induction fuel generalizing tmp ret with
  | zero => rfl
  | succ fuel ih =>
    have htmp := tmp.isLt
    obtain ⟨word, hword⟩ := returns_readWord codes (i := tmp.toNat)
      (by simp only [UCODES_SIZE]; omega)
    obtain ⟨ret', hret⟩ := Returns.foldlM (f := crcByte word) (l := [0, 1, 2, 3])
      (fun ret i _ => returns_crcByte word ret i) ret
    rw [gencrc16From, if_pos (by omega), hword]
    change ([0, 1, 2, 3].foldlM (crcByte word) ret >>= _) = _
    rw [hret]
    change (gencrc16From codes size fuel (tmp + 1) ret' >>= _) = _
    rw [ih]
    rfl

/-! ## a batch -/

theorem returns_decryptAll (hs : seeds.length = 32) (codes : Words) (size : BitVec 16)
    (hsize : size.toNat ≤ UCODES_SIZE) :
    Returns ((List.range (size.toNat / 2)).foldlM
      (fun codes k => decryptcode seeds codes (2 * k)) codes) := by
  refine Returns.foldlM (fun codes k hk => returns_decryptcode hs codes ?_) codes
  have := List.mem_range.mp hk
  omega

/-- The first word without its checksum. -/
def withoutCheck (codes : Words) : Words := Function.update codes 0 (codes 0 &&& 0x0FFFFFFF)

theorem batchdecrypt_eq {codes codes' : Words}
    (hall : (List.range (size.toNat / 2)).foldlM (fun codes k => decryptcode seeds codes (2 * k))
      codes = .ok codes') (fuel : Nat) :
    batchdecrypt fuel seeds codes size =
      (verifycode fuel (withoutCheck codes') size).map fun check =>
        ⟨codes' 0 >>> 28 = check.1.setWidth 32, withoutCheck codes', check.2⟩ := by
  unfold batchdecrypt
  rw [hall]
  change (verifycode fuel (withoutCheck codes') size >>= _) = _
  cases verifycode fuel (withoutCheck codes') size <;> rfl

theorem batchdecrypt_covers (hs : seeds.length = 32) (codes : Words) (size : BitVec 16)
    (hsize : size.toNat ≤ 0xFF) (hfuel : size.toNat < fuel) :
    ∃ batch, batchdecrypt fuel seeds codes size = .ok batch ∧
      batch.covered = List.range size.toNat := by
  obtain ⟨codes', hall⟩ := returns_decryptAll hs codes size
    (by simp only [UCODES_SIZE]; omega)
  have hcrc : ∃ crc, gencrc16 fuel (withoutCheck codes') size =
      .ok (crc, List.range size.toNat) := by
    unfold gencrc16
    split
    · obtain ⟨crc, h⟩ := gencrc16From_covers (withoutCheck codes') hsize size.toNat 0
        (by simp) 0 hfuel
      exact ⟨crc, h.trans (by simp)⟩
    · next h =>
      have hzero : size.toNat = 0 := by bv_omega
      exact ⟨0, by rw [hzero]; rfl⟩
  obtain ⟨crc, hcrc⟩ := hcrc
  rw [batchdecrypt_eq hall, verifycode, hcrc]
  exact ⟨_, rfl, rfl⟩

theorem batchdecrypt_endless (hs : seeds.length = 32) (codes : Words) (hsize : 0x100 ≤ size.toNat)
    (hsize' : size.toNat ≤ UCODES_SIZE) (fuel : Nat) :
    batchdecrypt fuel seeds codes size = .error .endless := by
  obtain ⟨codes', hall⟩ := returns_decryptAll hs codes size hsize'
  rw [batchdecrypt_eq hall, verifycode, gencrc16, if_pos (by bv_omega),
    gencrc16From_endless _ hsize]
  rfl

/-! ## the words of the lines -/

theorem alphatobinFrom_ok (lost : BitVec 32) {alpha : List EncryptedLine} {org : BitVec 32} (n : Nat)
    {k : Nat} (size : BitVec 32) (hn : size.toNat = n) (hlen : k + n ≤ alpha.length)
    (hroom : k + n ≤ 600) (horg : org.toNat = k + n + 1) (dst : Words) (ret : BitVec 32) :
    ∃ dst' ret', alphatobinFrom lost alpha org size (2 * k) dst ret = .ok (dst', ret') ∧
      (ret' = 0 ↔ ret = 0 ∧ ∀ line ∈ (alpha.drop k).take n, parityOk lost line = true) ∧
      (ret' = ret ∨ 1 ≤ ret'.toNat ∧ ret'.toNat ≤ alpha.length) := by
  induction n generalizing k size dst ret with
  | zero =>
    have hzero : size = 0 := by bv_omega
    refine ⟨dst, ret, ?_, by simp, .inl rfl⟩
    rw [alphatobinFrom, if_pos hzero]
  | succ n ih =>
    have hk : k < alpha.length := by omega
    have hsize : size ≠ 0 := by bv_omega
    have hfail : (org - size).toNat = k + 1 := by bv_omega
    set ret1 := if parityOk lost alpha[k] then ret else org - size with hret1
    obtain ⟨dst', ret', hrun, hzero, hrange⟩ := ih (k := k + 1) (size - 1) (by bv_omega)
      (by omega) (by omega) (by omega)
      (Function.update (Function.update dst (2 * k) (bin0 lost alpha[k])) (2 * k + 1)
        (bin1 lost alpha[k])) ret1
    refine ⟨dst', ret', ?_, ?_, ?_⟩
    · rw [alphatobinFrom, if_neg hsize]
      have hline : alpha[2 * k / 2]? = some alpha[k] := by
        rw [Nat.mul_div_cancel_left k (by decide : 0 < 2), List.getElem?_eq_getElem hk]
      rw [hline]
      dsimp only
      rw [dif_pos (by simp only [UCODES_SIZE]; omega)]
      exact hrun
    · rw [hzero, List.drop_eq_getElem_cons hk, List.take_succ_cons, List.forall_mem_cons]
      by_cases hok : parityOk lost alpha[k] = true
      · simp [hret1, hok]
      · have hne : ret1 ≠ 0 := by
          rw [hret1, if_neg hok]
          bv_omega
        exact ⟨fun h => absurd h.1 hne, fun h => absurd h.2.1 hok⟩
    · by_cases hok : parityOk lost alpha[k] = true
      · rwa [hret1, if_pos hok] at hrange
      · rw [hret1, if_neg hok] at hrange
        obtain rfl | h := hrange
        · exact .inr (by omega)
        · exact .inr h

theorem alphatobinFrom_outside {lost : BitVec 32} {alpha : List EncryptedLine} {org : BitVec 32}
    (r : Nat) {k : Nat} (hr : k + r = 600) {size : BitVec 32} (hsize : r < size.toNat) (dst : Words)
    (ret : BitVec 32) :
    alphatobinFrom lost alpha org size (2 * k) dst ret = .error .outside := by
  induction r generalizing k size dst ret with
  | zero =>
    have hne : size ≠ 0 := by bv_omega
    rw [alphatobinFrom, if_neg hne]
    split
    · rfl
    · rw [dif_neg (by simp only [UCODES_SIZE]; omega)]
  | succ r ih =>
    have hne : size ≠ 0 := by bv_omega
    rw [alphatobinFrom, if_neg hne]
    split
    · rfl
    · rw [dif_pos (by simp only [UCODES_SIZE]; omega)]
      exact ih (k := k + 1) (by omega) (by bv_omega) _ _

/-! ## the function -/

/-- `DecryptARCode` returns, without an access outside of an array, and a checksum that it makes
covers every word of the lines. -/
def DecryptsSafely (lost : BitVec 32) (uninit : Words) (lines : List EncryptedLine) : Prop :=
  ∃ fuel decrypted, decryptARCode fuel lost uninit lines = .ok decrypted ∧
    ∀ covered ∈ decrypted.covered, covered = List.range (2 * lines.length)

/-- The number of lines as the `int` that `alphatobin` counts with. -/
def lineCount (lines : List EncryptedLine) : Nat := lines.length % 2 ^ 32

/-- A line that is read fails its parity check. -/
def ParityFails (lost : BitVec 32) (lines : List EncryptedLine) : Prop :=
  ∃ line ∈ (lines.map EncryptedLine.upper).take (lineCount lines), parityOk lost line = false

variable {lost : BitVec 32} {lines : List EncryptedLine}

theorem buildseeds_ok : ∃ seeds, buildseeds = .ok seeds ∧ seeds.length = 32 := by
  have h := buildseeds_length
  cases hseeds : buildseeds with
  | error e =>
    rw [hseeds] at h
    cases h
  | ok seeds =>
    rw [hseeds] at h
    exact ⟨seeds, rfl, Except.ok.inj h⟩

theorem alphatobin_outside (h : 600 < lineCount lines) :
    alphatobin lost uninit (lines.map EncryptedLine.upper)
      (BitVec.ofNat 32 (lines.map EncryptedLine.upper).length) = .error .outside := by
  unfold lineCount at h
  exact alphatobinFrom_outside 600 rfl (by simpa using h) _ _

theorem alphatobin_ok (lost : BitVec 32) (uninit : Words) (h : lineCount lines ≤ 600) :
    ∃ dst ret, alphatobin lost uninit (lines.map EncryptedLine.upper)
        (BitVec.ofNat 32 (lines.map EncryptedLine.upper).length) = .ok (dst, ret) ∧
      (ret ≠ 0 ↔ ParityFails lost lines) ∧ (ret = 0 ∨ (ret - 1).toNat < lines.length) := by
  have hle : lineCount lines ≤ lines.length := Nat.mod_le _ _
  have hlen : 0 + lineCount lines ≤ (lines.map EncryptedLine.upper).length := by
    simpa using hle
  have horg : (BitVec.ofNat 32 lines.length + 1).toNat = 0 + lineCount lines + 1 := by
    rw [BitVec.toNat_add, BitVec.toNat_ofNat]
    change (lineCount lines + 1) % 2 ^ 32 = _
    omega
  obtain ⟨dst, ret, hrun, hzero, hrange⟩ := alphatobinFrom_ok lost (lineCount lines)
    (BitVec.ofNat 32 lines.length) (by simp [lineCount]) hlen (by omega) horg uninit 0
  refine ⟨dst, ret, ?_, ?_, ?_⟩
  · rw [alphatobin, List.length_map]
    exact hrun
  · rw [ne_eq, hzero]
    simp [ParityFails]
  · obtain h | ⟨h1, h2⟩ := hrange
    · exact .inl h
    · rw [List.length_map] at h2
      exact .inr (by bv_omega)

theorem decryptARCode_outside (h : 600 < lineCount lines) (fuel : Nat) :
    decryptARCode fuel lost uninit lines = .error .outside := by
  obtain ⟨seeds, hseeds, -⟩ := buildseeds_ok
  unfold decryptARCode
  rw [hseeds]
  change (alphatobin lost uninit _ _ >>= _) = _
  rw [alphatobin_outside uninit h]
  rfl

theorem decryptARCode_parityFails (h : lineCount lines ≤ 600) (hfail : ParityFails lost lines)
    (fuel : Nat) :
    decryptARCode fuel lost uninit lines = .ok ⟨[], none⟩ := by
  obtain ⟨seeds, hseeds, -⟩ := buildseeds_ok
  obtain ⟨dst, ret, hrun, hne, hrange⟩ := alphatobin_ok lost uninit h
  have hret := hne.mpr hfail
  obtain ⟨line, hline⟩ := returns_readTable (t := lines.map EncryptedLine.upper)
    (i := (ret - 1).toNat) (by rw [List.length_map]; exact hrange.resolve_left hret)
  unfold decryptARCode
  rw [hseeds]
  change (alphatobin lost uninit _ _ >>= _) = _
  rw [hrun]
  change ite (ret ≠ 0) _ _ = _
  rw [if_pos hret, hline]
  rfl

theorem decryptARCode_parityOk (h : lineCount lines ≤ 600) (hok : ¬ ParityFails lost lines) :
    ∃ seeds dst, seeds.length = 32 ∧ ∀ fuel, decryptARCode fuel lost uninit lines = (do
        let batch ← batchdecrypt fuel seeds dst (BitVec.ofNat 16 lines.length <<< 1)
        let ops ← ((List.range lines.length).drop (if batch.verified then 1 else 0)).mapM
          (readEntry batch.codes)
        pure ⟨ops, some batch.covered⟩) := by
  obtain ⟨seeds, hseeds, hlen⟩ := buildseeds_ok
  obtain ⟨dst, ret, hrun, hne, -⟩ := alphatobin_ok lost uninit h
  have hret : ¬ ret ≠ 0 := fun h => hok (hne.mp h)
  refine ⟨seeds, dst, hlen, fun fuel => ?_⟩
  unfold decryptARCode
  rw [hseeds]
  change (alphatobin lost uninit _ _ >>= _) = _
  rw [hrun]
  change ite (ret ≠ 0) _ _ = _
  rw [if_neg hret, List.length_map]

theorem not_returns_readWord (h : UCODES_SIZE ≤ i) :
    ¬ Returns (readWord codes i) := by
  rintro ⟨v, hv⟩
  rw [readWord, if_neg (by omega)] at hv
  cases hv

theorem batch_size (h : lineCount lines ≤ 600) :
    (BitVec.ofNat 16 lines.length <<< 1).toNat = 2 * lineCount lines := by
  unfold lineCount at *
  rw [BitVec.toNat_shiftLeft, BitVec.toNat_ofNat, Nat.shiftLeft_eq]
  omega

theorem decryptARCode_of_le (lost : BitVec 32) (uninit : Words) (h : lines.length ≤ 127)
    (hfuel : 2 * lines.length < fuel) :
    ∃ decrypted, decryptARCode fuel lost uninit lines = .ok decrypted ∧
      ∀ covered ∈ decrypted.covered, covered = List.range (2 * lines.length) := by
  have hcount : lineCount lines = lines.length := Nat.mod_eq_of_lt (by omega)
  by_cases hfail : ParityFails lost lines
  · exact ⟨_, decryptARCode_parityFails uninit (by omega) hfail fuel, fun _ h => by cases h⟩
  · obtain ⟨seeds, dst, hseeds, hrun⟩ := decryptARCode_parityOk uninit (by omega) hfail
    have hle : lineCount lines ≤ 600 := by omega
    have hsize := batch_size hle
    obtain ⟨batch, hbatch, hcovered⟩ := batchdecrypt_covers hseeds dst
      (BitVec.ofNat 16 lines.length <<< 1) (by omega) (hsize.trans_lt (by rwa [hcount]))
    obtain ⟨ops, hops⟩ : Returns
        (((List.range lines.length).drop (if batch.verified then 1 else 0)).mapM
          (readEntry batch.codes)) := by
      refine Returns.mapM fun i hi => ?_
      have hlt := List.mem_range.mp (List.mem_of_mem_drop hi)
      exact (returns_readWord _ (by simp only [UCODES_SIZE]; omega)).bind fun _ =>
        (returns_readWord _ (by simp only [UCODES_SIZE]; omega)).bind fun _ => .pure _
    refine ⟨⟨ops, some batch.covered⟩, ?_, ?_⟩
    · rw [hrun, hbatch]
      change (((List.range lines.length).drop (if batch.verified then 1 else 0)).mapM
        (readEntry batch.codes) >>= _) = _
      rw [hops]
      rfl
    · intro covered hmem
      rw [← Option.mem_some.mp hmem, hcovered, hsize, hcount]

theorem not_returns_decryptARCode {uninit : Words} (h : 127 < lines.length)
    (hok : ¬ (lineCount lines ≤ 600 ∧ ParityFails lost lines)) (fuel : Nat) :
    ¬ Returns (decryptARCode fuel lost uninit lines) := by
  intro hreturns
  by_cases hcount : lineCount lines ≤ 600
  · obtain ⟨seeds, dst, hseeds, heq⟩ := decryptARCode_parityOk uninit hcount
      fun hfail : ParityFails lost lines => hok ⟨hcount, hfail⟩
    rw [heq] at hreturns
    obtain ⟨batch, hbatch, hrest⟩ := hreturns.of_bind
    by_cases hlong : 128 ≤ lineCount lines
    · -- the checksum counts in eight bits
      have hsize := batch_size hcount
      rw [batchdecrypt_endless hseeds dst (by omega) (by simp only [UCODES_SIZE]; omega)] at hbatch
      cases hbatch
    · -- the entries are read for the lines that were not
      obtain ⟨ops, hops, -⟩ := hrest.of_bind
      have hmany : 2 ^ 32 ≤ lines.length := by
        unfold lineCount at hlong
        omega
      have hmem : 600 ∈ (List.range lines.length).drop (if batch.verified then 1 else 0) := by
        apply List.mem_of_getElem? (i := 600 - if batch.verified then 1 else 0)
        rw [List.getElem?_drop, Nat.add_sub_cancel' (by split <;> decide),
          List.getElem?_range (by omega)]
      have hentry : Returns (readEntry batch.codes 600) := Returns.of_mapM ⟨ops, hops⟩ 600 hmem
      obtain ⟨addr, haddr, -⟩ := hentry.of_bind
      exact not_returns_readWord batch.codes (by decide) ⟨addr, haddr⟩
  · obtain ⟨decrypted, hrun⟩ := hreturns
    rw [decryptARCode_outside uninit (by omega)] at hrun
    cases hrun

/-- The lines that `DecryptARCode` returns on, as far as the checksum and its array let it. -/
def Decryptable (lost : BitVec 32) (lines : List EncryptedLine) : Prop :=
  lines.length ≤ 127 ∨ lineCount lines ≤ 600 ∧ ParityFails lost lines

theorem not_returns_of_not_decryptable (h : ¬ Decryptable lost lines) (fuel : Nat) :
    ¬ Returns (decryptARCode fuel lost uninit lines) := by
  rw [Decryptable, not_or, not_le] at h
  exact not_returns_decryptARCode h.1 h.2 fuel

theorem decryptARCode_of_decryptable (h : Decryptable lost lines) (hfuel : 0xFF < fuel) :
    ∃ decrypted, decryptARCode fuel lost uninit lines = .ok decrypted ∧
      ∀ covered ∈ decrypted.covered, covered = List.range (2 * lines.length) := by
  obtain h | ⟨hcount, hfail⟩ := h
  · exact decryptARCode_of_le lost uninit h (by omega)
  · exact ⟨_, decryptARCode_parityFails uninit hcount hfail fuel, fun _ h => by cases h⟩

/-- `0000-0000-00000` -/
def zeroLine : EncryptedLine := ⟨List.replicate 13 0x30, rfl⟩

end DolphinCore.ActionReplay
