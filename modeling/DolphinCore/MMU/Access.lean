import DolphinCore.MMU.Hardware
import DolphinCore.MMU.Translate

/-!
# DolphinCore.MMU.Access

What `ReadFromHardware` and `WriteToHardware` do on RAM, byte by byte, for accesses within
a page and across two.  A load that runs over the end of the address space never ends:
its loop compares a 32-bit counter with a bound of more than 32 bits.
-/

namespace DolphinCore.MMU

/-! ## the specification -/

/-- Where the byte at an effective address is in RAM. -/
def hostOf (s : State) (flag : XCheckTLBFlag) (v : BitVec 32) : Option (BitVec 32) :=
  let r := (translateAddress flag v s).1
  if r.success then hostAddress s r.address else none

/-- The `n` bytes at `address` translate to RAM, to the distinct places `host`. -/
structure Mapped (s : State) (flag : XCheckTLBFlag) (address : BitVec 32) (n : Nat)
    (host : Nat → BitVec 32) : Prop where
  hostOf_eq : ∀ i < n, hostOf s flag (address + BitVec.ofNat 32 i) = some (host i)
  distinct : ∀ i < n, ∀ j < n, host i = host j → i = j

/-- The `i`-th byte, the most significant one first. -/
def beByte {n : Nat} (data : BitVec (8 * n)) (i : Nat) : BitVec 8 :=
  (data >>> (8 * (n - 1 - i))).setWidth 8

/-- The state after the translations of an access. -/
def translated (s : State) (flag : XCheckTLBFlag) (address : BitVec 32) (n : Nat) : State :=
  let s1 := (translateAddress flag address s).2
  if Crosses address n then (translateAddress flag (nextPage address n) s1).2 else s1

/-- What an access of `n` bytes at `address` should do wherever it is mapped. -/
structure AccessSpec (dev : Devices δ) (m : Machine δ) (address : BitVec 32) (n : Nat) : Prop where
  /-- A store puts every byte in its place, and changes nothing else after the translations. -/
  write : ∀ flag host, Mapped m.mmu flag address n host → ∀ data : BitVec (8 * n), ∃ mem,
    writeToHardware dev flag n address data m =
      m.setMMU { translated m.mmu flag address n with physicalBase := mem } ∧
    (∀ i < n, mem (host i) = beByte data i) ∧
    ∀ x, (∀ i < n, x ≠ host i) → mem x = (translated m.mmu flag address n).physicalBase x
  /-- A load ends, with the bytes that are there after the translations. -/
  read : ∀ flag host, Mapped m.mmu flag address n host → ∃ fuel value,
    readFromHardware dev fuel flag n address m =
      some (value, m.setMMU (translated m.mmu flag address n)) ∧
    value.toNat = Mem.ofBytes ((List.range n).map fun i =>
      (translated m.mmu flag address n).physicalBase (host i))
  /-- A load after a store ends with the value stored. -/
  readBack : ∀ host, Mapped m.mmu .write address n host → Mapped m.mmu .read address n host →
    ∀ data : BitVec (8 * n), ∃ fuel m',
      readFromHardware dev fuel .read n address (writeToHardware dev .write n address data m) =
        some (data, m')

/-! ## host addresses -/

variable {i : Nat} {flag : XCheckTLBFlag} {n : Nat} {m : Machine δ}

theorem hostAddress_add (s : State) {p : BitVec 32} (hi : p.toNat % 4096 + i < 4096) :
    hostAddress s (p + BitVec.ofNat 32 i) = (hostAddress s p).map (· + BitVec.ofNat 32 i) := by
  have hpage := pageOf_add hi
  have hnat := toNat_add_of_page hi
  have hram := and_eq_of_pageOf hpage (by decide : (0xF8000000 : BitVec 32) &&& 0xfff = 0)
  have hvmem := and_eq_of_pageOf hpage (by decide : (0xFE000000 : BitVec 32) &&& 0xfff = 0)
  have h28 : (p + BitVec.ofNat 32 i) >>> 28 = p >>> 28 := by
    apply BitVec.eq_of_toNat_eq
    rw [BitVec.toNat_ushiftRight, BitVec.toNat_ushiftRight, hnat, Nat.shiftRight_eq_div_pow,
      Nat.shiftRight_eq_div_pow]
    omega
  have hexram : (p + BitVec.ofNat 32 i) &&& 0x0FFFFFFF < 0x04000000 ↔
      p &&& 0x0FFFFFFF < 0x04000000 := by
    rw [BitVec.lt_def, BitVec.lt_def, toNat_and_mask _ 28 rfl, toNat_and_mask _ 28 rfl, hnat,
      show (0x04000000 : BitVec 32).toNat = 0x04000000 from rfl]
    omega
  have hl1 : p + BitVec.ofNat 32 i < 0xE0000000 + 0x00040000 ↔ p < 0xE0000000 + 0x00040000 := by
    rw [BitVec.lt_def, BitVec.lt_def, hnat,
      show (0xE0000000 + 0x00040000 : BitVec 32).toNat = 0xE0040000 from rfl]
    omega
  have hmask := and_mask_add hi (c := ramMask) 25 (by decide) (by decide) rfl
  have hmask' := and_mask_add hi (c := 0x0FFFFFFF) 28 (by decide) (by decide) rfl
  unfold hostAddress
  simp only [hram, hvmem, h28, hexram, hl1]
  simp only [hmask, hmask', ← BitVec.add_assoc]
  split
  · rfl
  · split
    · rfl
    · split
      · rfl
      · split <;> rfl

theorem hostAddress_of_framed {s s' : State} (h : Framed s s') (p : BitVec 32) :
    hostAddress s' p = hostAddress s p := by
  have hx := congrArg State.exram h
  have hv := congrArg State.fakeVMEM h
  rw [hostAddress, hostAddress, hx, hv]

theorem hostOf_eq_some {s : State} {v a : BitVec 32} :
    hostOf s flag v = some a ↔ (translateAddress flag v s).1.success = true ∧
      hostAddress s (translateAddress flag v s).1.address = some a := by
  unfold hostOf
  dsimp only
  split
  · next h => simp [h]
  · next h => simp [h]

theorem hostOf_add {s : State} (h : s.Valid) {v a : BitVec 32} (hv : hostOf s flag v = some a)
    (hi : v.toNat % 4096 + i < 4096) :
    hostOf s flag (v + BitVec.ofNat 32 i) = some (a + BitVec.ofNat 32 i) := by
  rw [hostOf_eq_some] at hv ⊢
  obtain ⟨hs, ha⟩ := hv
  obtain ⟨hadd, hoff⟩ := translateAddress_add h hs hi
  rw [hadd]
  refine ⟨hs, ?_⟩
  rw [hostAddress_add s (by omega), ha]
  rfl

/-! ## the two pages of an access -/

section
variable {address : BitVec 32} {n : Nat} (hn : 1 ≤ n ∧ n ≤ 8)
include hn

theorem crosses_iff : Crosses address n ↔ 4096 < address.toNat % 4096 + n := by
  rw [Crosses, show (address &&& 0xfff).toNat = _ from toNat_eaOffset address]
  omega

theorem nextPage_eq (hc : Crosses address n) :
    nextPage address n = address + BitVec.ofNat 32 (4096 - address.toNat % 4096) := by
  rw [crosses_iff hn] at hc
  apply BitVec.eq_of_toNat_eq
  rw [nextPage, toNat_and_not_mask _ 12 rfl, BitVec.toNat_add, BitVec.toNat_ofNat, BitVec.toNat_ofNat]
  omega

theorem toNat_nextPage (hc : Crosses address n) :
    (nextPage address n).toNat = (address.toNat - address.toNat % 4096 + 4096) % 2 ^ 32 := by
  rw [nextPage_eq hn hc, BitVec.toNat_add, BitVec.toNat_ofNat]
  omega

theorem setOf_nextPage (hc : Crosses address n) :
    setOf (pageOf (nextPage address n)) ≠ setOf (pageOf address) := by
  intro h
  have h' := congrArg BitVec.toNat h
  simp only [setOf, BitVec.toNat_setWidth, toNat_pageOf, toNat_nextPage hn hc] at h'
  omega

theorem pageOf_byte (hi : i < n) : pageOf (address + BitVec.ofNat 32 i) = pageOf address ∨
      Crosses address n ∧ pageOf (address + BitVec.ofNat 32 i) = pageOf (nextPage address n) := by
  by_cases h : address.toNat % 4096 + i < 4096
  · exact .inl (pageOf_add h)
  · have hc : Crosses address n := (crosses_iff hn).mpr (by omega)
    refine .inr ⟨hc, ?_⟩
    apply BitVec.eq_of_toNat_eq
    rw [toNat_pageOf, toNat_pageOf, toNat_nextPage hn hc, BitVec.toNat_add, BitVec.toNat_ofNat]
    omega

end

/-! ## bytes of the data -/

theorem two_pow_eight_mul (k : Nat) : 2 ^ (8 * k) = 256 ^ k := Nat.pow_mul 2 8 k

theorem toBytes_eq_map (data : BitVec (8 * n)) :
    Mem.toBytes n data.toNat = (List.range n).map (beByte data) := by
  apply List.ext_getElem
  · simp
  · intro i hi hi'
    rw [Mem.getElem_toBytes, List.getElem_map, List.getElem_range, beByte]
    apply BitVec.eq_of_toNat_eq
    rw [BitVec.toNat_ofNat, BitVec.toNat_setWidth, BitVec.toNat_ushiftRight,
      Nat.shiftRight_eq_div_pow, two_pow_eight_mul]

theorem ofBytes_beByte (data : BitVec (8 * n)) :
    Mem.ofBytes ((List.range n).map (beByte data)) = data.toNat := by
  have hlt := data.isLt
  rw [two_pow_eight_mul] at hlt
  rw [← toBytes_eq_map, Mem.ofBytes_toBytes, Nat.mod_eq_of_lt hlt]

theorem bswap_byte {n i : Nat} (hi : i < n) (data : BitVec (8 * n)) :
    (bswap data >>> (i * 8)).setWidth 8 = beByte data i := by
  have hlt := Mem.ofBytes_lt (Mem.toBytes n data.toNat).reverse
  rw [List.length_reverse, Mem.length_toBytes] at hlt
  have hbyte := Mem.ofBytes_reverse_div (Mem.toBytes n data.toNat) i (by simpa using hi)
  simp only [toBytes_eq_map, List.getElem_map, List.getElem_range] at hbyte hlt
  apply BitVec.eq_of_toNat_eq
  rw [← hbyte, bswap, toBytes_eq_map, BitVec.toNat_setWidth, BitVec.toNat_ushiftRight,
    BitVec.toNat_ofNat, two_pow_eight_mul, Nat.mod_eq_of_lt hlt, Nat.shiftRight_eq_div_pow,
    Nat.mul_comm i 8, two_pow_eight_mul]

theorem shiftLeft_or_byte (hn : 1 ≤ n) (x : Nat) (b : BitVec 8) :
    (BitVec.ofNat (8 * n) x <<< 8 ||| (b.setWidth (8 * n))) =
      BitVec.ofNat (8 * n) (x * 256 + b.toNat) := by
  obtain ⟨k, rfl⟩ : ∃ k, n = k + 1 := ⟨n - 1, by omega⟩
  have hb := b.isLt
  have hpow : 256 ^ (k + 1) = 256 * 256 ^ k := Nat.pow_succ'
  have hble : 1 ≤ 256 ^ k := Nat.one_le_pow _ _ (by omega)
  apply BitVec.eq_of_toNat_eq
  rw [BitVec.toNat_or, BitVec.toNat_shiftLeft, BitVec.toNat_ofNat, BitVec.toNat_ofNat,
    BitVec.toNat_setWidth, two_pow_eight_mul, hpow, Nat.mod_eq_of_lt (by omega : b.toNat < 256 * 256 ^ k),
    Nat.shiftLeft_eq, Nat.mod_mul_mod, Nat.mul_comm x (2 ^ 8), Nat.mul_mod_mul_left]
  have hor := Nat.two_pow_add_eq_or_of_lt hb (x % 256 ^ k)
  rw [← hor, Nat.mod_mul]
  have hdiv : (2 ^ 8 * x + b.toNat) / 256 = x := by omega
  have hmod : (2 ^ 8 * x + b.toNat) % 256 = b.toNat := by omega
  rw [hdiv, hmod]
  omega

/-! ## physical accesses -/

section
variable (dev : Devices δ) (flag : XCheckTLBFlag)

variable {p a : BitVec 32}

theorem readPhysical_host (h : hostAddress m.mmu p = some a) (n : Nat) :
    readPhysical dev flag n p m =
      (BitVec.ofNat (8 * n) (Mem.ofBytes (m.mmu.physicalBase.read a n)), m) := by
  rw [readPhysical, h]

theorem writePhysical_host (h : hostAddress m.mmu p = some a) (data : BitVec (8 * n)) :
    writePhysical dev flag n p data m = m.setMMU { m.mmu with
        physicalBase := m.mmu.physicalBase.write a ((List.range n).map (beByte data)) } := by
  rw [writePhysical, h, toBytes_eq_map]

theorem readPhysical_one (h : hostAddress m.mmu p = some a) :
    readPhysical dev flag 1 p m = (m.mmu.physicalBase a, m) := by
  have hb := (m.mmu.physicalBase a).isLt
  rw [readPhysical_host dev flag h]
  refine Prod.ext (BitVec.eq_of_toNat_eq ?_) rfl
  rw [BitVec.toNat_ofNat, Mem.read, Mem.read, Mem.ofBytes, List.foldl_cons, List.foldl_nil,
    Nat.zero_mul, Nat.zero_add, Nat.mod_eq_of_lt hb]

theorem writePhysical_one (h : hostAddress m.mmu p = some a) (b : BitVec 8) :
    writePhysical dev flag 1 p b m =
      m.setMMU { m.mmu with physicalBase := m.mmu.physicalBase.write a [b] } := by
  have hbyte : (List.range 1).map (beByte (n := 1) b) = [b] := by
    rw [List.range_one, List.map_singleton, beByte]
    simp
  rw [writePhysical_host dev flag h (n := 1), hbyte]

/-! ## the two loops -/

/-- Translated addresses go up by one except at the next page, which has its own. -/
structure Turns (address next q : BitVec 32) (n : Nat) (t : Nat → BitVec 32) : Prop where
  atNext : ∀ i < n, address + BitVec.ofNat 32 i = next → t i = q
  step : ∀ i, i + 1 < n → address + BitVec.ofNat 32 (i + 1) ≠ next → t (i + 1) = t i + 1

theorem Turns.turn {address next q : BitVec 32} {t : Nat → BitVec 32} (h : Turns address next q n t)
    (hi : i < n) {a : BitVec 32} (ha : address + BitVec.ofNat 32 i ≠ next → a = t i) :
    (if address + BitVec.ofNat 32 i = next then q else a) = t i := by
  split
  · next heq => exact (h.atNext i hi heq).symm
  · next hne => exact ha hne

variable {address next q : BitVec 32} {n bound : Nat} {t host : Nat → BitVec 32}

theorem readLoop_eq (hn : 1 ≤ n) (ht : Turns address next q n t)
    (hhost : ∀ i < n, hostAddress m.mmu (t i) = some (host i))
    (hbound : ∀ i < n, (address + BitVec.ofNat 32 i).toNat < bound)
    (hend : ¬(address + BitVec.ofNat 32 n).toNat < bound) : (k i : Nat) → i + k = n →
    {a : BitVec 32} → (i < n → address + BitVec.ofNat 32 i ≠ next → a = t i) →
    readLoop dev flag n bound next q (k + 1) (address + BitVec.ofNat 32 i) a
        (BitVec.ofNat (8 * n)
          (Mem.ofBytes ((List.range i).map fun j => m.mmu.physicalBase (host j)))) m =
      some (BitVec.ofNat (8 * n)
        (Mem.ofBytes ((List.range n).map fun j => m.mmu.physicalBase (host j))), m)
  | 0, i, hk, _, _ => by
    obtain rfl : i = n := hk
    rw [readLoop, if_neg hend]
  | k + 1, i, hk, a, ha => by
    have hi : i < n := by omega
    have hstep : i + 1 < n → address + BitVec.ofNat 32 (i + 1) ≠ next → t i + 1 = t (i + 1) :=
      fun hi' hne => (ht.step i hi' hne).symm
    rw [readLoop, if_pos (hbound i hi)]
    dsimp only
    rw [ht.turn hi (ha hi), readPhysical_one dev flag (hhost i hi)]
    rw [shiftLeft_or_byte hn, ← Mem.ofBytes_append_singleton, BitVec.add_assoc,
      show BitVec.ofNat 32 i + 1 = BitVec.ofNat 32 (i + 1) by rw [BitVec.ofNat_add]; rfl,
      ← readLoop_eq hn ht hhost hbound hend k (i + 1) (by omega) hstep, List.range_succ,
      List.map_append, List.map_singleton]

theorem writeLoop_eq (ht : Turns address next q n t) (val data : BitVec (8 * n))
    (hnext : ∀ i < n, address.toNat + i = next.toNat ↔ address + BitVec.ofNat 32 i = next)
    (hval : ∀ i < n, (val >>> (i * 8)).setWidth 8 = beByte data i)
    (hdistinct : ∀ i < n, ∀ j < n, host i = host j → i = j) : (k : Nat) → k ≤ n →
    {m : Machine δ} → (∀ i < n, hostAddress m.mmu (t i) = some (host i)) → {a : BitVec 32} →
    (0 < k → address + BitVec.ofNat 32 (n - k) ≠ next → a = t (n - k)) →
    ∃ mem, writeLoop dev flag n address next q val k a m =
        m.setMMU { m.mmu with physicalBase := mem } ∧
      (∀ i < n, n - k ≤ i → mem (host i) = beByte data i) ∧
      ∀ x, (∀ i < n, n - k ≤ i → x ≠ host i) → mem x = m.mmu.physicalBase x
  | 0, _, m, _, _, _ => ⟨m.mmu.physicalBase, rfl, fun i hi hi' => by omega, fun _ _ => rfl⟩
  | k + 1, hk, m, hhost, a, ha => by
    have hi : n - (k + 1) < n := by omega
    have hsucc : n - (k + 1) + 1 = n - k := by omega
    generalize hi' : n - (k + 1) = i at ha hi hsucc
    have hturn := ht.turn hi (ha (by omega))
    have hstep : 0 < k → address + BitVec.ofNat 32 (n - k) ≠ next → t i + 1 = t (n - k) := by
      intro hk' hne
      rw [← hsucc] at hne ⊢
      exact (ht.step i (by omega) hne).symm
    obtain ⟨mem, hmem, hbytes, hframe⟩ := writeLoop_eq ht val data hnext hval hdistinct k (by omega)
      (m := m.setMMU { m.mmu with
        physicalBase := m.mmu.physicalBase.write (host i) [beByte data i] }) hhost hstep
    refine ⟨mem, ?_, fun j hj hij => ?_, fun x hx => ?_⟩
    · rw [writeLoop]
      rw [hi', hval i hi, if_congr (hnext i hi) rfl rfl, hturn, writePhysical_one dev flag (hhost i hi),
        hmem]
      rfl
    · by_cases hji : j = i
      · subst hji
        have hother : ∀ i < n, n - k ≤ i → host j ≠ host i := by
          intro i' hi' hle heq
          have := hdistinct j hj i' hi' heq
          omega
        rw [hframe _ hother]
        simp [Machine.setMMU, Mem.write]
      · exact hbytes j hj (by omega)
    · rw [hframe x fun j hj hle => hx j hj (by omega)]
      simp [Machine.setMMU, Mem.write, hx i hi (by omega)]

end

/-! ## accesses to mapped bytes -/

section
variable {s : State} {flag : XCheckTLBFlag} {address : BitVec 32} {n : Nat} {host : Nat → BitVec 32}

/-- The translated address of the `i`-th byte. -/
def translatedByte (s : State) (flag : XCheckTLBFlag) (address : BitVec 32) (i : Nat) : BitVec 32 :=
  (translateAddress flag (address + BitVec.ofNat 32 i) s).1.address

theorem Mapped.byte (h : Mapped s flag address n host) (hi : i < n) :
    (translateAddress flag (address + BitVec.ofNat 32 i) s).1.success = true ∧
      hostAddress s (translatedByte s flag address i) = some (host i) :=
  hostOf_eq_some.mp (h.hostOf_eq i hi)

theorem Mapped.first (h : Mapped s flag address n host) (hn : 1 ≤ n) :
    (translateAddress flag address s).1.success = true ∧
      hostAddress s (translateAddress flag address s).1.address = some (host 0) := by
  have h0 := h.byte (i := 0) (by omega)
  rwa [translatedByte, BitVec.add_zero] at h0

theorem framed_translated (hs : s.Valid) (flag : XCheckTLBFlag) (address : BitVec 32) (n : Nat) :
    Framed s (translated s flag address n) := by
  have h1 := (touches_translateAddress hs flag address).framed
  have h2 := (touches_translateAddress (valid_translateAddress hs flag address) flag
    (nextPage address n)).framed
  unfold translated
  split
  · rw [Framed, h2, h1]
  · exact h1

variable (hs : s.Valid) (hn : 1 ≤ n ∧ n ≤ 8)
include hs hn

theorem translateAddress_nextPage (hc : Crosses address n) (flag flag' : XCheckTLBFlag) :
    (translateAddress flag' (nextPage address n) (translateAddress flag address s).2).1 =
      (translateAddress flag' (nextPage address n) s).1 :=
  (touches_translateAddress hs flag address).translateAddress (setOf_nextPage hn hc) flag'

omit hs in
theorem Mapped.nextPage_success (h : Mapped s flag address n host) (hc : Crosses address n) :
    (translateAddress flag (nextPage address n) s).1.success = true := by
  have hoff := (crosses_iff hn).mp hc
  rw [nextPage_eq hn hc]
  exact (h.byte (by omega)).1

theorem Mapped.turns (h : Mapped s flag address n host) (hc : Crosses address n) :
    Turns address (nextPage address n) (translateAddress flag (nextPage address n) s).1.address n
      (translatedByte s flag address) where
  atNext i _ heq := by rw [translatedByte, heq]
  step i hi hne := by
    have hoff : (address + BitVec.ofNat 32 i).toNat % 4096 + 1 < 4096 := by
      rw [BitVec.toNat_add, BitVec.toNat_ofNat]
      by_contra hge
      have hi' : i + 1 = 4096 - address.toNat % 4096 := by omega
      rw [nextPage_eq hn hc, hi'] at hne
      exact hne rfl
    have hadd := (translateAddress_add hs (h.byte (by omega)).1 hoff).1
    rw [BitVec.add_assoc, ← BitVec.ofNat_add] at hadd
    rw [translatedByte, hadd]
    rfl

theorem Mapped.host_eq (h : Mapped s flag address n host) (hc : ¬Crosses address n) (hi : i < n) :
    host i = host 0 + BitVec.ofNat 32 i := by
  rw [crosses_iff hn] at hc
  have h0 := hostOf_eq_some.mpr (h.first hn.1)
  have hadd := hostOf_add hs h0 (i := i) (by omega)
  rw [h.hostOf_eq i hi] at hadd
  exact Option.some.inj hadd

end

section
variable {m : Machine δ} {flag : XCheckTLBFlag} {address : BitVec 32} {n : Nat}
variable {host : Nat → BitVec 32}

/-- **Loads**: the bytes that are in RAM after the translations. -/
theorem readFromHardware_mapped (dev : Devices δ) (hs : m.mmu.Valid) (hDR : m.mmu.msrDR = true)
    (hn : 1 ≤ n ∧ n ≤ 8) (hwrap : address.toNat + n ≤ 2 ^ 32)
    (h : Mapped m.mmu flag address n host) :
    readFromHardware dev (n + 1) flag n address m =
      some (BitVec.ofNat (8 * n) (Mem.ofBytes ((List.range n).map fun i =>
        (translated m.mmu flag address n).physicalBase (host i))),
      m.setMMU (translated m.mmu flag address n)) := by
  have hfirst := h.first hn.1
  have hframed := framed_translated hs flag address n
  unfold readFromHardware
  rw [if_pos hDR]
  simp only [Machine.translate, Machine.setMMU_mmu, Machine.setMMU_setMMU, hfirst.1, Bool.not_true,
    Bool.false_eq_true, if_false]
  by_cases hc : Crosses address n
  · have hoff := (crosses_iff hn).mp hc
    have hbyte : ∀ i < n, (address + BitVec.ofNat 32 i).toNat < address.toNat + n := by
      intro i hi
      rw [BitVec.toNat_add, BitVec.toNat_ofNat]
      omega
    have hend : ¬(address + BitVec.ofNat 32 n).toNat < address.toNat + n := by
      rw [BitVec.toNat_add, BitVec.toNat_ofNat]
      omega
    have hsuccess := h.nextPage_success hn hc
    have hturns := h.turns hs hn hc
    rw [← translateAddress_nextPage hs hn hc flag flag] at hsuccess hturns
    rw [translated, if_pos hc] at hframed ⊢
    simp only [if_pos hc, hsuccess, Bool.not_true, Bool.false_eq_true, if_false]
    have hloop := readLoop_eq dev flag hn.1 (m := m.setMMU (translateAddress flag
        (nextPage address n) (translateAddress flag address m.mmu).2).2) hturns
      (fun i hi => (hostAddress_of_framed hframed _).trans (h.byte hi).2) hbyte hend n 0 (by omega)
      (a := (translateAddress flag address m.mmu).1.address) (fun _ _ => by
        rw [translatedByte, BitVec.add_zero])
    rw [BitVec.add_zero] at hloop
    exact hloop
  · rw [translated, if_neg hc] at hframed ⊢
    rw [if_neg hc, readPhysical_host dev flag ((hostAddress_of_framed hframed _).trans hfirst.2)]
    congr 4
    apply List.ext_getElem
    · simp
    · intro i hi hi'
      rw [Mem.length_read] at hi
      rw [Mem.getElem_read, List.getElem_map, List.getElem_range, h.host_eq hs hn hc hi]
      rfl

theorem unaligned_of_crosses (hn : n = 1 ∨ n = 2 ∨ n = 4 ∨ n = 8) (hc : Crosses address n) :
    address &&& BitVec.ofNat 32 (n - 1) ≠ 0 := by
  rw [crosses_iff (by omega)] at hc
  intro h0
  have h0' := congrArg BitVec.toNat h0
  obtain rfl | rfl | rfl | rfl := hn
  · omega
  · rw [toNat_and_mask address 1 rfl, show (0 : BitVec 32).toNat = 0 from rfl] at h0'
    omega
  · rw [toNat_and_mask address 2 rfl, show (0 : BitVec 32).toNat = 0 from rfl] at h0'
    omega
  · rw [toNat_and_mask address 3 rfl, show (0 : BitVec 32).toNat = 0 from rfl] at h0'
    omega

/-- **Stores**: every byte in its place, and nothing else changed after the translations. -/
theorem writeToHardware_mapped (dev : Devices δ) (hs : m.mmu.Valid) (hDR : m.mmu.msrDR = true)
    (hn : n = 1 ∨ n = 2 ∨ n = 4 ∨ n = 8) (hwrap : address.toNat + n ≤ 2 ^ 32)
    (h : Mapped m.mmu flag address n host) (data : BitVec (8 * n)) : ∃ mem,
    writeToHardware dev flag n address data m =
      m.setMMU { translated m.mmu flag address n with physicalBase := mem } ∧
    (∀ i < n, mem (host i) = beByte data i) ∧
    ∀ x, (∀ i < n, x ≠ host i) → mem x = (translated m.mmu flag address n).physicalBase x := by
  have hn' : 1 ≤ n ∧ n ≤ 8 := by omega
  have hfirst := h.first hn'.1
  have hframed := framed_translated hs flag address n
  unfold writeToHardware
  rw [if_pos hDR]
  simp only [Machine.translate, Machine.setMMU_mmu, Machine.setMMU_setMMU, hfirst.1, Bool.not_true,
    Bool.false_eq_true, if_false]
  by_cases hc : Crosses address n
  · have hnext : ∀ i < n, address.toNat + i = (nextPage address n).toNat ↔
        address + BitVec.ofNat 32 i = nextPage address n := by
      intro i hi
      rw [← BitVec.toNat_inj, toNat_nextPage hn' hc, BitVec.toNat_add, BitVec.toNat_ofNat]
      omega
    have hsuccess := h.nextPage_success hn' hc
    have hturns := h.turns hs hn' hc
    rw [← translateAddress_nextPage hs hn' hc flag flag] at hsuccess hturns
    rw [translated, if_pos hc] at hframed ⊢
    simp only [if_pos (And.intro (unaligned_of_crosses hn hc) hc), hsuccess, Bool.not_true,
      Bool.false_eq_true, if_false]
    obtain ⟨mem, hmem, hbytes, hother⟩ := writeLoop_eq dev flag hturns (bswap data) data
      hnext (fun i hi => bswap_byte hi data) h.distinct n (Nat.le_refl n)
      (m := m.setMMU (translateAddress flag (nextPage address n)
        (translateAddress flag address m.mmu).2).2)
      (fun i hi => (hostAddress_of_framed hframed _).trans (h.byte hi).2)
      (a := (translateAddress flag address m.mmu).1.address) (fun _ _ => by
        rw [Nat.sub_self, translatedByte, BitVec.add_zero])
    exact ⟨mem, hmem, fun i hi => hbytes i hi (by omega), fun x hx => hother x fun i hi _ => hx i hi⟩
  · rw [translated, if_neg hc] at hframed ⊢
    rw [if_neg fun hc' => hc hc'.2,
      writePhysical_host dev flag ((hostAddress_of_framed hframed _).trans hfirst.2)]
    have hlen : ((List.range n).map (beByte data)).length ≤ 2 ^ 32 := by
      rw [List.length_map, List.length_range]
      omega
    refine ⟨_, rfl, fun i hi => ?_, fun x hx => Mem.write_of_ne _ _ _ fun i hi => ?_⟩
    · rw [h.host_eq hs hn' hc hi, Mem.write_of_lt _ _ _ hlen i (by simpa using hi), List.getElem_map,
        List.getElem_range]
    · rw [List.length_map, List.length_range] at hi
      rw [← h.host_eq hs hn' hc hi]
      exact hx i hi

end

/-! ## loads after stores -/

section
variable {s : State} {address : BitVec 32} {n : Nat} {host : Nat → BitVec 32}

theorem valid_translated (hs : s.Valid) (flag : XCheckTLBFlag) (address : BitVec 32) (n : Nat) :
    (translated s flag address n).Valid := by
  unfold translated
  split
  · exact valid_translateAddress (valid_translateAddress hs flag address) flag _
  · exact valid_translateAddress hs flag address

theorem Mapped.resident (hs : s.Valid) (hn : 1 ≤ n ∧ n ≤ 8) (h : Mapped s .write address n host)
    (hi : i < n) :
    Resident (translated s .write address n) (address + BitVec.ofNat 32 i) ∧
      ((translateAddress .read (address + BitVec.ofNat 32 i) (translated s .write address n)).1 =
          (translateAddress .read (address + BitVec.ofNat 32 i) s).1 ∨
        (translateAddress .read (address + BitVec.ofNat 32 i) (translated s .write address n)).1 =
          (translateAddress .write (address + BitVec.ofNat 32 i) s).1) := by
  have hs1 := valid_translateAddress hs .write address
  have htouch := touches_translateAddress hs .write address
  have htouch' := touches_translateAddress hs1 .write (nextPage address n)
  obtain ⟨hres, hload⟩ := resident_of_write hs (h.first hn.1).1
  unfold translated
  obtain hpage | ⟨hc, hpage⟩ := pageOf_byte hn hi
  · have hres' := hres.congr hs1 hpage
    split
    · next hc =>
        have hset : setOf (pageOf (address + BitVec.ofNat 32 i)) ≠
            setOf (pageOf (nextPage address n)) := by
          rw [hpage]
          exact (setOf_nextPage hn hc).symm
        rw [htouch'.translateAddress hset]
        exact ⟨htouch'.resident hset hres', hload _ hpage⟩
    · exact ⟨hres', hload _ hpage⟩
  · have hset : setOf (pageOf (address + BitVec.ofNat 32 i)) ≠ setOf (pageOf address) := by
      rw [hpage]
      exact setOf_nextPage hn hc
    have hsuccess := h.nextPage_success hn hc
    rw [← translateAddress_nextPage hs hn hc .write .write] at hsuccess
    obtain ⟨hres', hload'⟩ := resident_of_write hs1 hsuccess
    rw [if_pos hc, ← htouch.translateAddress hset .read, ← htouch.translateAddress hset .write]
    exact ⟨hres'.congr (valid_translateAddress hs1 ..) hpage, hload' _ hpage⟩

theorem translated_read_physicalBase (hs : s.Valid) (hn : 1 ≤ n ∧ n ≤ 8)
    (hres : ∀ i < n, Resident s (address + BitVec.ofNat 32 i)) :
    (translated s .read address n).physicalBase = s.physicalBase := by
  have hfirst : Resident s address := by
    have h0 := hres 0 (by omega)
    rwa [BitVec.add_zero] at h0
  have hmem := (hfirst.read s.physicalBase).1
  unfold translated
  split
  · next hc =>
      have hoff := (crosses_iff hn).mp hc
      have hnext : Resident s (nextPage address n) := by
        rw [nextPage_eq hn hc]
        exact hres _ (by omega)
      have hnext' := (touches_translateAddress hs .read address).resident (setOf_nextPage hn hc) hnext
      rw [(hnext'.read s.physicalBase).1, hmem]
  · exact hmem

end

section
variable {m : Machine δ} {address : BitVec 32} {n : Nat} {host : Nat → BitVec 32}

theorem readFromHardware_writeToHardware (dev : Devices δ) (hs : m.mmu.Valid)
    (hDR : m.mmu.msrDR = true) (hn : n = 1 ∨ n = 2 ∨ n = 4 ∨ n = 8)
    (hwrap : address.toNat + n ≤ 2 ^ 32) (hw : Mapped m.mmu .write address n host)
    (hr : Mapped m.mmu .read address n host) (data : BitVec (8 * n)) :
    ∃ m', readFromHardware dev (n + 1) .read n address (writeToHardware dev .write n address data m) =
      some (data, m') := by
  have hn' : 1 ≤ n ∧ n ≤ 8 := by omega
  obtain ⟨mem, hstore, hbytes, _⟩ := writeToHardware_mapped dev hs hDR hn hwrap hw data
  have hframed := framed_translated hs .write address n
  have hvalid := valid_translated hs .write address n
  generalize hs2 : translated m.mmu .write address n = s2 at hstore hframed hvalid
  have hvalid' : State.Valid { s2 with physicalBase := mem } :=
    ⟨hvalid.pagetableBase, hvalid.paddr, hvalid.ibatTable, hvalid.dbatTable⟩
  have hres : ∀ i < n, Resident s2 (address + BitVec.ofNat 32 i) := by
    intro i hi
    rw [← hs2]
    exact (hw.resident hs hn' hi).1
  have hres' : ∀ i < n, Resident { s2 with physicalBase := mem } (address + BitVec.ofNat 32 i) := hres
  have hDR' : State.msrDR { s2 with physicalBase := mem } = true := by
    have := congrArg State.msrDR hframed
    exact this.trans hDR
  have hmapped : Mapped { s2 with physicalBase := mem } .read address n host := by
    refine ⟨fun i hi => ?_, hw.distinct⟩
    have hhost : ∀ p, hostAddress { s2 with physicalBase := mem } p = hostAddress m.mmu p :=
      fun p => @hostAddress_of_framed m.mmu s2 hframed p
    have hload := (hw.resident hs hn' hi).2
    rw [hs2] at hload
    rw [hostOf_eq_some, ((hres i hi).read mem).2, hhost]
    obtain heq | heq := hload
    · rw [heq]
      exact hr.byte hi
    · rw [heq]
      exact hw.byte hi
  rw [hstore, readFromHardware_mapped dev (m := m.setMMU _) hvalid' hDR' hn' hwrap hmapped]
  refine ⟨_, congrArg some (Prod.ext ?_ rfl)⟩
  rw [Machine.setMMU_mmu, translated_read_physicalBase hvalid' hn' hres',
    List.map_congr_left fun i hi => hbytes i (List.mem_range.mp hi), ofBytes_beByte]
  rw [BitVec.ofNat_toNat, BitVec.setWidth_eq]

end

/-! ## accesses over the end of the address space -/

theorem readLoop_eq_none (dev : Devices δ) (flag : XCheckTLBFlag) (n : Nat) {bound : Nat}
    (hbound : 2 ^ 32 ≤ bound) (next q : BitVec 32) : (fuel : Nat) → (addr a : BitVec 32) →
    (var : BitVec (8 * n)) → (m : Machine δ) →
    readLoop dev flag n bound next q fuel addr a var m = none
  | 0, _, _, _, _ => rfl
  | fuel + 1, addr, a, var, m => by
    rw [readLoop, if_pos (by omega)]
    exact readLoop_eq_none dev flag n hbound next q fuel _ _ _ _

theorem readFromHardware_eq_none (dev : Devices δ) {address : BitVec 32} {host : Nat → BitVec 32}
    (hs : m.mmu.Valid) (hDR : m.mmu.msrDR = true) (hn : 1 ≤ n ∧ n ≤ 8)
    (hwrap : 2 ^ 32 < address.toNat + n) (h : Mapped m.mmu flag address n host) (fuel : Nat) :
    readFromHardware dev fuel flag n address m = none := by
  have hc : Crosses address n := (crosses_iff hn).mpr (by omega)
  have hsuccess := h.nextPage_success hn hc
  rw [← translateAddress_nextPage hs hn hc flag flag] at hsuccess
  unfold readFromHardware
  rw [if_pos hDR]
  simp only [Machine.translate, Machine.setMMU_mmu, Machine.setMMU_setMMU, (h.first hn.1).1,
    if_pos hc, hsuccess, Bool.not_true, Bool.false_eq_true, if_false]
  exact readLoop_eq_none dev flag n (by omega) ..

/-- **Main theorem**: in every state of a run, and for every address whose bytes translate
to distinct places of RAM, accesses do what they should exactly if they do not run over the
end of the address space. -/
theorem accessSpec_iff (dev : Devices δ) {s : State} (h0 : IsReset s) {ss : Session}
    (hrun : Run Session.step (fun _ _ => True) (Session.init s) ss) (m : Machine δ)
    (hm : m.mmu = ss.state) (hDR : m.mmu.msrDR = true) {n : Nat}
    (hn : n = 1 ∨ n = 2 ∨ n = 4 ∨ n = 8) (address : BitVec 32) {host : Nat → BitVec 32}
    (hr : Mapped m.mmu .read address n host) :
    AccessSpec dev m address n ↔ address.toNat + n ≤ 2 ^ 32 := by
  have hs : m.mmu.Valid := by
    rw [hm]
    exact (good_run h0 hrun).valid
  have hn' : 1 ≤ n ∧ n ≤ 8 := by omega
  constructor
  · intro hspec
    by_contra hwrap
    obtain ⟨fuel, value, hread, _⟩ := hspec.read .read host hr
    rw [readFromHardware_eq_none dev hs hDR hn' (by omega) hr] at hread
    cases hread
  · intro hwrap
    refine ⟨fun flag host h data => ?_, fun flag host h => ?_, fun host hw hr data => ?_⟩
    · exact writeToHardware_mapped dev hs hDR hn hwrap h data
    · refine ⟨n + 1, _, readFromHardware_mapped dev hs hDR hn' hwrap h, ?_⟩
      have hlt := Mem.ofBytes_lt ((List.range n).map fun i =>
        (translated m.mmu flag address n).physicalBase (host i))
      rw [List.length_map, List.length_range, ← two_pow_eight_mul] at hlt
      rw [BitVec.toNat_ofNat, Nat.mod_eq_of_lt hlt]
    · obtain ⟨m', hm'⟩ := readFromHardware_writeToHardware dev hs hDR hn hwrap hw hr data
      exact ⟨n + 1, m', hm'⟩

/-- The machine with two blocks mapped: the first one of the address space to the first one
of RAM, and the last one to the second one. -/
def mapFirstAndLast : List Action :=
  [.dbatUpdated (fun _ => false)
    (fun i => if i = 0 then ⟨0x2, 0x0⟩ else if i = 1 then ⟨0xFFFE0002, 0x00020000⟩ else ⟨0, 0⟩) none]

def noDevices : Devices Unit where
  efbRead _ d := (0, d)
  efbWrite _ _ d := d
  mmioRead _ _ d := (0, d)
  mmioWrite _ _ _ d := d
  gpFifoWrite _ _ d := d

/-- The machine in a state, with nothing outside of RAM. -/
def machineOf (s : State) : Machine Unit where
  mmu := s
  devices := ()
  bMMU := true
  sprDSISR := 0
  sprDAR := 0
  exceptionDSI := false

/-- A word across the first two pages. -/
theorem accessSpec_iff_firstPages :
    ∃ ss, Run.exec Session.step (Session.init clearedState) mapFirstAndLast = some ss ∧
      (AccessSpec noDevices (machineOf ss.state) 0xFFE 4 ↔ (0xFFE : BitVec 32).toNat + 4 ≤ 2 ^ 32) :=
  ⟨_, rfl, accessSpec_iff noDevices clearedState_isReset
    (.of_exec mapFirstAndLast (fun _ _ _ => trivial) rfl) (machineOf _) rfl rfl (by decide) 0xFFE
    (⟨by decide, by decide⟩ : Mapped _ .read 0xFFE 4 fun i => BitVec.ofNat 32 (0xFFE + i))⟩

/-- Where a word across the last page and the first one is. -/
def lastThenFirst (i : Nat) : BitVec 32 :=
  if i < 2 then BitVec.ofNat 32 (0x3FFFE + i) else BitVec.ofNat 32 (i - 2)

/-- A word across the last page and the first one: it is mapped, and no load of it ends. -/
theorem not_accessSpec_lastPage :
    ∃ ss, Run.exec Session.step (Session.init clearedState) mapFirstAndLast = some ss ∧
      ss.state.msrDR = true ∧
      Mapped ss.state .read 0xFFFFFFFE 4 lastThenFirst ∧
      Mapped ss.state .write 0xFFFFFFFE 4 lastThenFirst ∧
      (∀ fuel, readFromHardware noDevices fuel .read 4 0xFFFFFFFE (machineOf ss.state) = none) ∧
      ¬AccessSpec noDevices (machineOf ss.state) 0xFFFFFFFE 4 := by
  obtain ⟨ss, hss⟩ : ∃ ss, Run.exec Session.step (Session.init clearedState) mapFirstAndLast =
      some ss := ⟨_, rfl⟩
  have hrun : Run Session.step (fun _ _ => True) (Session.init clearedState) ss :=
    .of_exec mapFirstAndLast (fun _ _ _ => trivial) hss
  have hread : Mapped ss.state .read 0xFFFFFFFE 4 lastThenFirst := by
    cases hss
    exact ⟨by decide, by decide⟩
  have hwrite : Mapped ss.state .write 0xFFFFFFFE 4 lastThenFirst := by
    cases hss
    exact ⟨by decide, by decide⟩
  have hDR : ss.state.msrDR = true := by
    cases hss
    rfl
  have hnone : ∀ fuel,
      readFromHardware noDevices fuel .read 4 0xFFFFFFFE (machineOf ss.state) = none :=
    readFromHardware_eq_none noDevices (m := machineOf ss.state)
      (good_run clearedState_isReset hrun).valid hDR (by decide) (by decide) hread
  refine ⟨ss, hss, hDR, hread, hwrite, hnone, fun hspec => ?_⟩
  obtain ⟨fuel, value, hload, _⟩ := hspec.read .read lastThenFirst hread
  rw [hnone] at hload
  cases hload

end DolphinCore.MMU
