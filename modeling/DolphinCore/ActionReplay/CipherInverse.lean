import DolphinCore.ActionReplay.DecryptBounds

/-!
# DolphinCore.ActionReplay.CipherInverse

The cipher of the codes undoes itself when the key is taken from its other end: the
two scramblings mirror each other, and each half of a round is an exclusive or with
what the other word gives.
-/

namespace DolphinCore.ActionReplay

/-! ## the scramblings -/

theorem rotateLeft_rotateRight {w n : Nat} (x : BitVec w) (h : n < w) :
    (x.rotateRight n).rotateLeft n = x := by
  refine BitVec.eq_of_getLsbD_eq fun i hi => ?_
  rw [BitVec.getLsbD_rotateLeft_of_le h, BitVec.getLsbD_rotateRight_of_lt h,
    BitVec.getLsbD_rotateRight_of_lt h]
  by_cases hin : i < n
  · have hhigh : ¬ w - n + i < w - n := by omega
    have hlt : w - n + i < w := by omega
    have hback : w - n + i - (w - n) = i := by omega
    simp [hin, hhigh, hlt, hback]
  · have hlow : i - n < w - n := by omega
    have hback : n + (i - n) = i := by omega
    simp [hin, hlow, hi, hback]

theorem rotateRight_rotateLeft {w n : Nat} (x : BitVec w) (h : n < w) :
    (x.rotateLeft n).rotateRight n = x := by
  refine BitVec.eq_of_getLsbD_eq fun i hi => ?_
  rw [BitVec.getLsbD_rotateRight_of_lt h, BitVec.getLsbD_rotateLeft_of_le h,
    BitVec.getLsbD_rotateLeft_of_le h]
  by_cases hin : i < w - n
  · have hhigh : ¬ n + i < n := by omega
    have hlt : n + i < w := by omega
    have hback : n + i - n = i := by omega
    simp [hin, hhigh, hlt, hback]
  · have hlow : i - (w - n) < n := by omega
    have hback : w - n + (i - (w - n)) = i := by omega
    simp [hin, hlow, hi, hback]

/-- The step between two rotations: the bits of the mask change places. -/
def exchange (mask : BitVec 32) (w : BitVec 32 × BitVec 32) : BitVec 32 × BitVec 32 :=
  let tmp := (w.1 ^^^ w.2) &&& mask
  (w.1 ^^^ tmp, w.2 ^^^ tmp)

@[simp] theorem exchange_exchange (mask : BitVec 32) (w : BitVec 32 × BitVec 32) :
    exchange mask (exchange mask w) = w := by
  have hsame (a b t : BitVec 32) : (a ^^^ t) ^^^ (b ^^^ t) = a ^^^ b := by
    rw [BitVec.xor_comm b t, BitVec.xor_assoc, ← BitVec.xor_assoc t, BitVec.xor_self,
      BitVec.zero_xor]
  simp [exchange, hsame, BitVec.xor_assoc]

theorem exchange_swap (mask : BitVec 32) (w : BitVec 32 × BitVec 32) :
    exchange mask w.swap = (exchange mask w).swap := by
  simp [exchange, BitVec.xor_comm w.2 w.1]

/-- A rotation of the first word, or of the second one. -/
def first (f : BitVec 32 → BitVec 32) (w : BitVec 32 × BitVec 32) : BitVec 32 × BitVec 32 :=
  (f w.1, w.2)

def second (f : BitVec 32 → BitVec 32) (w : BitVec 32 × BitVec 32) : BitVec 32 × BitVec 32 :=
  (w.1, f w.2)

theorem first_swap (f : BitVec 32 → BitVec 32) (w : BitVec 32 × BitVec 32) :
    first f w.swap = (second f w).swap := rfl

theorem second_swap (f : BitVec 32 → BitVec 32) (w : BitVec 32 × BitVec 32) :
    second f w.swap = (first f w).swap := rfl

theorem unscramble1_eq (addr val : BitVec 32) : unscramble1 addr val =
    first (·.rotateLeft 1) (exchange 0xAAAAAAAA (second (·.rotateLeft 9)
      (exchange 0x00FF00FF (second (·.rotateRight 6) (exchange 0x33333333
        (second (·.rotateRight 0x12) (exchange 0xFFFF0000 (second (·.rotateRight 0x14)
          (exchange 0xF0F0F0F0 (second (·.rotateLeft 4) (addr, val))))))))))) := by
  simp only [unscramble1, exchange, first, second]

theorem unscramble2_eq (addr val : BitVec 32) : unscramble2 addr val =
    first (·.rotateRight 4) (exchange 0xF0F0F0F0 (first (·.rotateLeft 0x14)
      (exchange 0xFFFF0000 (first (·.rotateLeft 0x12) (exchange 0x33333333
        (first (·.rotateLeft 6) (exchange 0x00FF00FF (first (·.rotateRight 9)
          (exchange 0xAAAAAAAA (second (·.rotateRight 1) (addr, val))))))))))) := by
  simp only [unscramble2, exchange, first, second]

theorem first_first {f g : BitVec 32 → BitVec 32} (h : ∀ x, f (g x) = x)
    (w : BitVec 32 × BitVec 32) : first f (first g w) = w :=
  Prod.ext (h w.1) rfl

theorem second_second {f g : BitVec 32 → BitVec 32} (h : ∀ x, f (g x) = x)
    (w : BitVec 32 × BitVec 32) : second f (second g w) = w :=
  Prod.ext rfl (h w.2)

/-- The first scrambling undoes the second one, on words that changed places. -/
theorem unscramble1_unscramble2 (addr val : BitVec 32) :
    unscramble1 (unscramble2 addr val).2 (unscramble2 addr val).1 = (val, addr) := by
  have hswap (w : BitVec 32 × BitVec 32) : (w.2, w.1) = w.swap := rfl
  rw [unscramble1_eq, hswap, unscramble2_eq, second_swap,
    first_first fun x => rotateLeft_rotateRight x (by decide), exchange_swap, exchange_exchange,
    second_swap, first_first fun x => rotateRight_rotateLeft x (by decide), exchange_swap,
    exchange_exchange, second_swap, first_first fun x => rotateRight_rotateLeft x (by decide),
    exchange_swap, exchange_exchange, second_swap,
    first_first fun x => rotateRight_rotateLeft x (by decide), exchange_swap, exchange_exchange,
    second_swap, first_first fun x => rotateLeft_rotateRight x (by decide), exchange_swap,
    exchange_exchange, first_swap, second_second fun x => rotateLeft_rotateRight x (by decide)]
  rfl

theorem unscramble2_unscramble1 (addr val : BitVec 32) :
    unscramble2 (unscramble1 addr val).2 (unscramble1 addr val).1 = (val, addr) := by
  have hswap (w : BitVec 32 × BitVec 32) : (w.2, w.1) = w.swap := rfl
  rw [unscramble2_eq, hswap, unscramble1_eq, second_swap,
    first_first fun x => rotateRight_rotateLeft x (by decide), exchange_swap, exchange_exchange,
    first_swap, second_second fun x => rotateRight_rotateLeft x (by decide), exchange_swap,
    exchange_exchange, first_swap, second_second fun x => rotateLeft_rotateRight x (by decide),
    exchange_swap, exchange_exchange, first_swap,
    second_second fun x => rotateLeft_rotateRight x (by decide), exchange_swap, exchange_exchange,
    first_swap, second_second fun x => rotateLeft_rotateRight x (by decide), exchange_swap,
    exchange_exchange, first_swap, second_second fun x => rotateRight_rotateLeft x (by decide)]
  rfl

theorem swap32_swap32 (v : BitVec 32) : swap32 (swap32 v) = v := by
  refine BitVec.eq_of_getLsbD_eq fun i hi => ?_
  simp only [swap32, BitVec.getLsbD_append, BitVec.getLsbD_extractLsb']
  grind

/-! ## the rounds -/

/-- The key from its other end: the pairs of seeds in reverse. -/
def reversedKey (seeds : List (BitVec 32)) : List (BitVec 32) :=
  (List.range 32).map fun i => seeds.getD (if i % 2 = 0 then 30 - i else 32 - i) 0

variable {seeds : List (BitVec 32)} {i : Nat}

theorem readTable_reversedKey (hs : seeds.length = 32) (hi : i < 32) :
    readTable (reversedKey seeds) i =
      readTable seeds (if i % 2 = 0 then 30 - i else 32 - i) := by
  have hlt : (if i % 2 = 0 then 30 - i else 32 - i) < seeds.length := by
    split <;> omega
  simp [readTable, reversedKey, hi, List.getElem?_eq_getElem hlt]

/-- The halves of the rounds come in reverse. -/
theorem halfRound_reversedKey (hs : seeds.length = 32) (hi : i < 32) (heven : i % 2 = 0)
    (v : BitVec 32) :
    halfRound (reversedKey seeds) i v = halfRound seeds (30 - i) v := by
  have hodd : (i + 1) % 2 ≠ 0 := by omega
  have hnext : 32 - (i + 1) = 30 - i + 1 := by omega
  rw [halfRound, halfRound, readTable_reversedKey hs hi, readTable_reversedKey hs (by omega),
    if_pos heven, if_neg hodd, hnext]

theorem cipherRound_reversedKey (hs : seeds.length = 32) (hi : i + 4 ≤ 32) (heven : i % 2 = 0)
    {w w' : BitVec 32 × BitVec 32} (h : cipherRound seeds w i = .ok w') :
    cipherRound (reversedKey seeds) w'.swap (28 - i) = .ok w.swap := by
  obtain ⟨x, hx, h⟩ := bind_eq_ok.mp h
  obtain ⟨y, hy, h⟩ := bind_eq_ok.mp h
  cases h
  have hfirst : 30 - (28 - i) = i + 2 := by omega
  have hsecond : 30 - (28 - i + 2) = i := by omega
  have hundo (a b : BitVec 32) : a ^^^ b ^^^ b = a := by
    rw [BitVec.xor_assoc, BitVec.xor_self, BitVec.xor_zero]
  refine bind_eq_ok.mpr ⟨y, ?_, bind_eq_ok.mpr ⟨x, ?_, ?_⟩⟩
  · rw [halfRound_reversedKey hs (by omega) (by omega), hfirst]
    exact hy
  · rw [halfRound_reversedKey hs (by omega) (by omega), hsecond]
    simp only [Prod.fst_swap, hundo]
    exact hx
  · simp only [Prod.fst_swap, Prod.snd_swap, hundo]
    rfl

theorem rounds_reversedKey (hs : seeds.length = 32) : (l : List Nat)
    → (∀ i ∈ l, i + 4 ≤ 32 ∧ i % 2 = 0) → {w w' : BitVec 32 × BitVec 32} →
    l.foldlM (cipherRound seeds) w = .ok w' →
    (l.reverse.map (28 - ·)).foldlM (cipherRound (reversedKey seeds)) w'.swap = .ok w.swap
  | [], _, w, w', h => by
      cases h
      rfl
  | i :: l, hl, w, w', h => by
      obtain ⟨hi, hrest⟩ := List.forall_mem_cons.mp hl
      obtain ⟨u, hu, h⟩ := bind_eq_ok.mp h
      rw [List.reverse_cons, List.map_append, List.foldlM_append]
      refine bind_eq_ok.mpr ⟨u.swap, rounds_reversedKey hs l hrest h, ?_⟩
      exact bind_eq_ok.mpr ⟨w.swap, cipherRound_reversedKey hs hi.1 hi.2 hu, rfl⟩

theorem readWord_eq_ok {codes : Words} {v : BitVec 32} :
    readWord codes i = .ok v ↔ i < UCODES_SIZE ∧ codes i = v := by
  rw [readWord]
  split <;> simp [*]

theorem writeWord_eq_ok {codes codes' : Words} {v : BitVec 32} :
    writeWord codes i v = .ok codes' ↔ i < UCODES_SIZE ∧ Function.update codes i v = codes' := by
  rw [writeWord]
  split <;> simp [*]

/-- **The cipher undoes itself**: what `decryptcode` makes of a pair of words, whatever the key, is
made into the pair again with the key reversed.  So no two codes are decrypted to one. -/
theorem decryptcode_reversedKey (hs : seeds.length = 32) {codes codes' : Words} {p : Nat}
    (h : decryptcode seeds codes p = .ok codes') :
    decryptcode (reversedKey seeds) codes' p = .ok codes := by
  obtain ⟨addr, haddr, h⟩ := bind_eq_ok.mp h
  obtain ⟨val, hval, h⟩ := bind_eq_ok.mp h
  obtain ⟨w, hw, h⟩ := bind_eq_ok.mp h
  obtain ⟨mid, hmid, h⟩ := bind_eq_ok.mp h
  obtain ⟨hp, rfl⟩ := readWord_eq_ok.mp haddr
  obtain ⟨hp', rfl⟩ := readWord_eq_ok.mp hval
  obtain ⟨-, rfl⟩ := writeWord_eq_ok.mp hmid
  obtain ⟨-, rfl⟩ := writeWord_eq_ok.mp h
  have hne : p ≠ p + 1 := by omega
  have hrounds : [0, 4, 8, 12, 16, 20, 24, 28].foldlM (cipherRound (reversedKey seeds)) w.swap =
      .ok (unscramble1 (swap32 (codes p)) (swap32 (codes (p + 1)))).swap :=
    rounds_reversedKey hs [0, 4, 8, 12, 16, 20, 24, 28] (by decide) hw
  refine bind_eq_ok.mpr ⟨_, readWord_eq_ok.mpr ⟨hp, rfl⟩, bind_eq_ok.mpr
    ⟨_, readWord_eq_ok.mpr ⟨hp', rfl⟩, ?_⟩⟩
  simp only [Function.update_self, Function.update_of_ne hne, swap32_swap32,
    unscramble1_unscramble2]
  refine bind_eq_ok.mpr ⟨_, hrounds, ?_⟩
  simp only [Prod.fst_swap, Prod.snd_swap, unscramble2_unscramble1, swap32_swap32]
  refine bind_eq_ok.mpr ⟨_, writeWord_eq_ok.mpr ⟨hp, rfl⟩, writeWord_eq_ok.mpr ⟨hp', ?_⟩⟩
  funext j
  by_cases hj' : j = p + 1
  · rw [hj', Function.update_self]
  · by_cases hj : j = p
    · rw [hj, Function.update_of_ne hne, Function.update_self]
    · simp only [Function.update_of_ne hj, Function.update_of_ne hj']

/-- The key that `buildseeds` makes, and the first pair of an array. -/
theorem decryptcode_reversedKey_first : ∃ seeds codes', buildseeds = .ok seeds ∧
    decryptcode seeds (fun _ => 0) 0 = .ok codes' ∧
    decryptcode (reversedKey seeds) codes' 0 = .ok fun _ => 0 := by
  obtain ⟨seeds, hbuild, hs⟩ := buildseeds_ok
  obtain ⟨codes', h⟩ := returns_decryptcode hs (fun _ => 0) (p := 0) (by decide)
  exact ⟨seeds, codes', hbuild, h, decryptcode_reversedKey hs h⟩

end DolphinCore.ActionReplay
