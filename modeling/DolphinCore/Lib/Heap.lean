import Mathlib.Data.Multiset.Defs

/-!
# DolphinCore.Lib.Heap

The heap algorithms of the C++ standard library over a vector: `push_heap`,
`pop_heap` and `make_heap`, each with a comparison in the role of `operator<`.
A range is a heap when no element compares greater than its parent, so the
front element is a greatest one; with `std::greater` in the role of the
comparison the front is a least one.

The standard leaves the layout of the result open.  The sifts below are the
textbook ones, and every result is stated of the heap property and of the
multiset of elements only.
-/

namespace DolphinCore.Heap

/-! ## The comparison -/

/-- A strict weak order, the standard library's requirement on a comparison. -/
structure StrictWeak (comp : α → α → Bool) : Prop where
  asymm : ∀ {a b}, comp a b = true → comp b a = false
  negTrans : ∀ {a b c}, comp a b = false → comp b c = false → comp a c = false

theorem StrictWeak.irrefl {comp : α → α → Bool} (hc : StrictWeak comp) (a : α) :
    comp a a = false := by
  cases h : comp a a with
  | false => rfl
  | true => rw [← hc.asymm h, h]

/-! ## Index arithmetic -/

/-- The parent of a position in the implicit binary tree. -/
def parent (i : Nat) : Nat := (i - 1) / 2

theorem parent_le (i : Nat) : parent i ≤ i := by unfold parent; omega

theorem parent_lt (h : i ≠ 0) : parent i < i := by unfold parent; omega

theorem eq_child_of_parent (h : j ≠ 0) (hp : parent j = i) :
    j = 2 * i + 1 ∨ j = 2 * i + 2 := by unfold parent at hp; omega

/-! ## The heap property -/

/-- The first `n` elements are in heap order at every parent from `k` on. -/
def HeapFrom (comp : α → α → Bool) (a : Array α) (k n : Nat) : Prop :=
  ∀ j (hj : j < a.size) (hp : parent j < a.size), j < n → k ≤ parent j →
    comp a[parent j] a[j] = false

/-- `std::is_heap`: no element compares greater than its parent. -/
def IsHeap (comp : α → α → Bool) (a : Array α) : Prop :=
  ∀ j (hj : j < a.size) (hp : parent j < a.size), comp a[parent j] a[j] = false

instance (comp : α → α → Bool) (a : Array α) : Decidable (IsHeap comp a) :=
  inferInstanceAs (Decidable (∀ j (hj : j < a.size) (hp : parent j < a.size),
    comp a[parent j] a[j] = false))

theorem isHeap_iff_heapFrom {comp : α → α → Bool} {a : Array α} :
    IsHeap comp a ↔ HeapFrom comp a 0 a.size :=
  ⟨fun h j hj hp _ _ => h j hj hp, fun h j hj hp => h j hj hp hj (Nat.zero_le _)⟩

theorem IsHeap.front_not_comp {comp : α → α → Bool} (hc : StrictWeak comp) {a : Array α}
    (h : IsHeap comp a) (h0 : 0 < a.size) :
    ∀ j (hj : j < a.size), comp a[0] a[j] = false := by
  intro j
  induction j using Nat.strongRecOn with
  | ind j ih =>
    intro hj
    by_cases hj0 : j = 0
    · subst hj0
      exact hc.irrefl _
    · have hlt := parent_lt hj0
      have hp : parent j < a.size := by omega
      exact hc.negTrans (ih (parent j) hlt hp) (h j hj hp)

theorem IsHeap.front_not_comp_mem {comp : α → α → Bool} (hc : StrictWeak comp) {a : Array α}
    (h : IsHeap comp a) (h0 : 0 < a.size) (x : α) (hx : x ∈ a) : comp a[0] x = false := by
  obtain ⟨j, hj, rfl⟩ := Array.mem_iff_getElem.mp hx
  exact h.front_not_comp hc h0 j hj

theorem isHeap_map_iff {comp : β → β → Bool} {f : α → β} {a : Array α} : IsHeap comp (a.map f) ↔
      ∀ j (hj : j < a.size) (hp : parent j < a.size), comp (f a[parent j]) (f a[j]) = false := by
  simp [IsHeap]

theorem isHeap_empty (comp : α → α → Bool) : IsHeap comp #[] := fun _ hj => absurd hj (by simp)

/-! ## push_heap -/

/-- Move the element at `i` towards the root while it compares greater than its parent. -/
def siftUp (comp : α → α → Bool) (a : Array α) (i : Nat) (hi : i < a.size) : Array α :=
  if h0 : i = 0 then a
  else
    have hp : parent i < a.size := Nat.lt_of_le_of_lt (parent_le i) hi
    if comp a[parent i] a[i] then
      siftUp comp (a.swap i (parent i)) (parent i) (by simpa using hp)
    else a
termination_by i
decreasing_by exact parent_lt h0

/-- `std::push_heap` after the new element has been appended. -/
def pushHeap (comp : α → α → Bool) (a : Array α) : Array α :=
  if h : a.size = 0 then a else siftUp comp a (a.size - 1) (by omega)

/-- The state of `siftUp`: only the edge into `i` may be out of order, and the
parent of `i` bounds the children of `i`. -/
structure UpReady (comp : α → α → Bool) (a : Array α) (i : Nat) : Prop where
  except : ∀ j (hj : j < a.size) (hp : parent j < a.size), j ≠ i → comp a[parent j] a[j] = false
  grand : ∀ j (hj : j < a.size) (hp : parent i < a.size), j ≠ i → parent j = i →
    comp a[parent i] a[j] = false

theorem siftUp_perm (comp : α → α → Bool) (a : Array α) (i : Nat) (hi : i < a.size) :
    (siftUp comp a i hi).Perm a := by
  fun_induction siftUp comp a i hi with
  | case1 a hi => exact Array.Perm.refl _
  | case2 a i hi h0 hp hlt ih => exact ih.trans (Array.swap_perm _ _)
  | case3 a i hi h0 hp hlt => exact Array.Perm.refl _

/-- One step of `siftUp` moves the one edge out of order to the parent. -/
theorem UpReady.swap {comp : α → α → Bool} (hc : StrictWeak comp) {a : Array α} {i : Nat}
    (h : UpReady comp a i) (h0 : i ≠ 0) (hi : i < a.size)
    (hp : parent i < a.size) (hlt : comp a[parent i] a[i] = true) :
    UpReady comp (a.swap i (parent i)) (parent i) := by
  have hpi := parent_lt h0
  constructor
  · intro j hj hpj hne
    have hj' : j < a.size := by simpa using hj
    have hpj' : parent j < a.size := by simpa using hpj
    by_cases hji : j = i
    · subst hji
      simpa using hc.asymm hlt
    · by_cases hpji : parent j = i
      · have hgr := h.grand j hj' hp hji hpji
        simpa [Array.getElem_swap, hpji, hji, hne] using hgr
      · by_cases hpp : parent j = parent i
        · have hex := h.except j hj' hpj' hji
          simp only [hpp] at hex
          have hup : comp a[i] a[j] = false := hc.negTrans (hc.asymm hlt) hex
          simpa [Array.getElem_swap, hpp, hji, hne, hpi.ne] using hup
        · simpa [Array.getElem_swap, hpji, hpp, hji, hne] using h.except j hj' hpj' hji
  · intro j hj hpp hne hpj
    have hj' : j < a.size := by simpa using hj
    have hpp' : parent (parent i) < a.size := by simpa using hpp
    have hex : j ≠ i → comp a[parent i] a[j] = false := by
      intro hji
      have hex := h.except j hj' (by omega) hji
      simpa only [hpj] using hex
    by_cases hp0 : parent i = 0
    · -- the root is its own parent, and its new element bounds the old one
      have hpp0 : parent (parent i) = parent i := by rw [hp0]; rfl
      by_cases hji : j = i
      · subst hji
        simpa [hpp0] using hc.asymm hlt
      · have hup : comp a[i] a[j] = false := hc.negTrans (hc.asymm hlt) (hex hji)
        simpa [Array.getElem_swap, hpp0, hji, hne, hpi.ne] using hup
    · have hlt' := parent_lt hp0
      have hgp := h.except (parent i) hp hpp' (by omega)
      have hne' : parent (parent i) ≠ i := by omega
      by_cases hji : j = i
      · subst hji
        simpa [Array.getElem_swap, hne', hlt'.ne] using hgp
      · have hup := hc.negTrans hgp (hex hji)
        simpa [Array.getElem_swap, hji, hne, hne', hlt'.ne] using hup

theorem siftUp_isHeap {comp : α → α → Bool} (hc : StrictWeak comp) (a : Array α) (i : Nat)
    (hi : i < a.size) (h : UpReady comp a i) : IsHeap comp (siftUp comp a i hi) := by
  fun_induction siftUp comp a i hi with
  | case1 a hi =>
    intro j hj hp
    by_cases hj0 : j = 0
    · subst hj0
      exact hc.irrefl _
    · exact h.except j hj hp hj0
  | case2 a i hi h0 hp hlt ih => exact ih (h.swap hc h0 hi hp hlt)
  | case3 a i hi h0 hp hlt =>
    intro j hj hpj
    by_cases hji : j = i
    · subst hji
      simpa using hlt
    · exact h.except j hj hpj hji

theorem pushHeap_perm (comp : α → α → Bool) (a : Array α) : (pushHeap comp a).Perm a := by
  unfold pushHeap
  split
  · exact Array.Perm.refl _
  · exact siftUp_perm _ _ _ _

theorem pushHeap_push_isHeap {comp : α → α → Bool} (hc : StrictWeak comp) {a : Array α}
    (h : IsHeap comp a) (x : α) : IsHeap comp (pushHeap comp (a.push x)) := by
  unfold pushHeap
  rw [dif_neg (by simp)]
  apply siftUp_isHeap hc
  constructor
  · intro j hj _ hne
    have hj' : j < a.size := by simp at hj hne; omega
    have hp : parent j < a.size := Nat.lt_of_le_of_lt (parent_le j) hj'
    simpa [Array.getElem_push, hj', hp] using h j hj' hp
  · intro j hj _ hne hpj
    have hle := parent_le j
    omega

/-! ## Sifting down -/

/-- The greater child of `i` among the first `n` elements, the left one on a tie. -/
def greaterChild (comp : α → α → Bool) (a : Array α) (i n : Nat) (hn : n ≤ a.size) : Nat :=
  if hr : 2 * i + 2 < n then
    if comp a[2 * i + 1] a[2 * i + 2] then 2 * i + 2 else 2 * i + 1
  else 2 * i + 1

theorem greaterChild_eq {comp : α → α → Bool} {a : Array α} {i n : Nat} (hn : n ≤ a.size) :
    greaterChild comp a i n hn = 2 * i + 1 ∨ greaterChild comp a i n hn = 2 * i + 2 := by
  unfold greaterChild
  split
  · split
    · exact Or.inr rfl
    · exact Or.inl rfl
  · exact Or.inl rfl

theorem greaterChild_lt {comp : α → α → Bool} {a : Array α} {i n : Nat} (hn : n ≤ a.size)
    (hl : 2 * i + 1 < n) : greaterChild comp a i n hn < n := by
  unfold greaterChild
  split
  · split <;> assumption
  · exact hl

theorem lt_greaterChild {comp : α → α → Bool} {a : Array α} {i n : Nat} (hn : n ≤ a.size) :
    i < greaterChild comp a i n hn := by
  rcases @greaterChild_eq _ comp a i n hn with h | h <;> rw [h] <;> omega

theorem parent_greaterChild {comp : α → α → Bool} {a : Array α} {i n : Nat} (hn : n ≤ a.size) :
    parent (greaterChild comp a i n hn) = i := by
  unfold parent
  rcases @greaterChild_eq _ comp a i n hn with h | h <;> rw [h] <;> omega

theorem greaterChild_not_comp {comp : α → α → Bool} (hc : StrictWeak comp) {a : Array α}
    {i n j : Nat} (hn : n ≤ a.size) (hj : j < n) (hj0 : j ≠ 0)
    (hp : parent j = i) (hc' : greaterChild comp a i n hn < n) :
    comp a[greaterChild comp a i n hn] a[j] = false := by
  revert hc'
  unfold greaterChild
  rcases eq_child_of_parent hj0 hp with rfl | rfl
  · split
    · split
      · next hlt => exact fun _ => hc.asymm hlt
      · exact fun _ => hc.irrefl _
    · exact fun _ => hc.irrefl _
  · split
    · split
      · exact fun _ => hc.irrefl _
      · next hlt => exact fun _ => by simpa using hlt
    · next hr => exact absurd hj hr

/-- Move the element at `i` towards the leaves of the first `n` elements while one of
its children compares greater. -/
def siftDown (comp : α → α → Bool) (a : Array α) (i n : Nat) (hn : n ≤ a.size) : Array α :=
  if hl : 2 * i + 1 < n then
    let c := greaterChild comp a i n hn
    have hcn : c < n := greaterChild_lt hn hl
    if comp a[i] a[c] then siftDown comp (a.swap i c) c n (by simpa using hn) else a
  else a
termination_by n - i
decreasing_by
  have : i < greaterChild comp a i n hn := lt_greaterChild hn
  omega

theorem siftDown_perm (comp : α → α → Bool) (a : Array α) (i n : Nat) (hn : n ≤ a.size) :
    (siftDown comp a i n hn).Perm a := by
  fun_induction siftDown comp a i n hn with
  | case1 a i hn hl c hcn hlt ih => exact ih.trans (Array.swap_perm _ _)
  | case2 a i hn hl c hcn hlt => exact Array.Perm.refl _
  | case3 a i hn hl => exact Array.Perm.refl _

@[simp] theorem size_siftDown (comp : α → α → Bool) (a : Array α) (i n : Nat) (hn : n ≤ a.size) :
    (siftDown comp a i n hn).size = a.size := (siftDown_perm comp a i n hn).size_eq

theorem siftDown_getElem_of_le (comp : α → α → Bool) (a : Array α) (i n : Nat) (hn : n ≤ a.size)
    (j : Nat) (hj : j < (siftDown comp a i n hn).size) (hj' : j < a.size) (hnj : n ≤ j) :
    (siftDown comp a i n hn)[j] = a[j] := by
  fun_induction siftDown comp a i n hn with
  | case1 a i hn hl c hcn hlt ih =>
    rw [ih hj (by simpa using hj')]
    exact Array.getElem_swap_of_ne (by omega) (by omega)
  | case2 a i hn hl c hcn hlt => rfl
  | case3 a i hn hl => rfl

/-- The state of `siftDown`: among the parents from `k` on only the edges out of `i`
may be out of order, and the parent of `i` bounds the children of `i`. -/
structure DownReady (comp : α → α → Bool) (a : Array α) (k i n : Nat) (hn : n ≤ a.size) : Prop where
  except : ∀ j (hj : j < n) (hp : parent j < n), k ≤ parent j → parent j ≠ i →
    comp a[parent j] a[j] = false
  grand : ∀ j (hj : j < n) (hp : parent i < n), parent j = i → j ≠ i → i ≠ 0 → k ≤ parent i →
    comp a[parent i] a[j] = false

theorem DownReady.swap {comp : α → α → Bool} (hc : StrictWeak comp) {a : Array α} {k i c n : Nat}
    {hn : n ≤ a.size} (h : DownReady comp a k i n hn) (hic : i < c) (hcn : c < n)
    (hpc : parent c = i)
    (hmax : ∀ j (hj : j < n), j ≠ 0 → parent j = i → comp a[c] a[j] = false)
    (hlt : comp a[i] a[c] = true) :
    DownReady comp (a.swap i c) k c n (by simpa using hn) := by
  constructor
  · intro j hj hp hk hpj
    by_cases hji : j = i
    · -- the edge into `i` now ends at a child of the old element
      subst hji
      by_cases hj0 : j = 0
      · subst hj0
        have : parent 0 = 0 := rfl
        simp [this, hc.irrefl]
      · have hgr := h.grand c hcn hp hpc (by omega) hj0 hk
        simpa [Array.getElem_swap, (parent_lt hj0).ne, hpj] using hgr
    · by_cases hpi : parent j = i
      · by_cases hjc : j = c
        · subst hjc
          simpa [Array.getElem_swap, hpi, hji] using hc.asymm hlt
        · have hj0 : j ≠ 0 := by
            intro hj0
            have : parent 0 = 0 := rfl
            rw [hj0] at hpi
            omega
          simpa [Array.getElem_swap, hpi, hji, hjc] using hmax j hj hj0 hpi
      · by_cases hjc : j = c
        · exact absurd (hjc ▸ hpc) hpi
        · simpa [Array.getElem_swap, hpi, hpj, hji, hjc] using h.except j hj hp hk hpi
  · intro j hj hp hpj hjc _ hk
    have hpj' : c ≤ j := hpj ▸ parent_le j
    have hex := h.except j hj (by omega) (by omega) (by omega)
    simp only [hpj] at hex
    simpa [Array.getElem_swap, hpc, hjc, show j ≠ i by omega] using hex

theorem siftDown_heapFrom {comp : α → α → Bool} (hc : StrictWeak comp) (a : Array α)
    (k i n : Nat) (hn : n ≤ a.size) (h : DownReady comp a k i n hn) :
    HeapFrom comp (siftDown comp a i n hn) k n := by
  fun_induction siftDown comp a i n hn with
  | case1 a i hn hl c hcn hlt ih =>
    exact ih (h.swap hc (lt_greaterChild hn) hcn (parent_greaterChild hn)
      (fun j hj hj0 hp => greaterChild_not_comp hc hn hj hj0 hp hcn) hlt)
  | case2 a i hn hl c hcn hlt =>
    intro j hj hp hjn hk
    by_cases hpi : parent j = i
    · by_cases hj0 : j = 0
      · subst hj0
        exact hc.irrefl _
      · have hmax := greaterChild_not_comp hc hn hjn hj0 hpi hcn
        have hpar : comp a[i] a[c] = false := by simpa using hlt
        have hup := hc.negTrans hpar hmax
        simpa only [hpi] using hup
    · have hple := parent_le j
      exact h.except j hjn (by omega) hk hpi
  | case3 a i hn hl =>
    intro j hj hp hjn hk
    have hple := parent_le j
    by_cases hpi : parent j = i
    · by_cases hj0 : j = 0
      · subst hj0
        exact hc.irrefl _
      · rcases eq_child_of_parent hj0 hpi with h1 | h1 <;> omega
    · exact h.except j hjn (by omega) hk hpi

/-! ## pop_heap -/

/-- `std::pop_heap`: the front goes to the back, the rest becomes a heap again. -/
def popHeap (comp : α → α → Bool) (a : Array α) : Array α :=
  if h : a.size = 0 then a
  else siftDown comp (a.swap 0 (a.size - 1)) 0 (a.size - 1) (by simp)

theorem popHeap_perm (comp : α → α → Bool) (a : Array α) : (popHeap comp a).Perm a := by
  unfold popHeap
  split
  · exact Array.Perm.refl _
  · exact (siftDown_perm _ _ _ _ _).trans (Array.swap_perm _ _)

@[simp] theorem size_popHeap (comp : α → α → Bool) (a : Array α) :
    (popHeap comp a).size = a.size := (popHeap_perm comp a).size_eq

theorem popHeap_back (comp : α → α → Bool) (a : Array α) (h : 0 < a.size)
    (hb : a.size - 1 < (popHeap comp a).size) : (popHeap comp a)[a.size - 1] = a[0] := by
  have h0 : a.size ≠ 0 := by omega
  have heq : popHeap comp a = siftDown comp (a.swap 0 (a.size - 1)) 0 (a.size - 1) (by simp) := by
    simp [popHeap, h0]
  simp only [heq]
  rw [siftDown_getElem_of_le comp _ _ _ _ _ (by simp; omega) (by simp; omega) (Nat.le_refl _)]
  simp

theorem popHeap_pop_isHeap {comp : α → α → Bool} (hc : StrictWeak comp) {a : Array α}
    (h : IsHeap comp a) : IsHeap comp (popHeap comp a).pop := by
  by_cases h0 : a.size = 0
  · have : a = #[] := Array.eq_empty_of_size_eq_zero h0
    subst this
    exact isHeap_empty comp
  · have hdown : HeapFrom comp (popHeap comp a) 0 (a.size - 1) := by
      rw [popHeap, dif_neg h0]
      apply siftDown_heapFrom hc
      constructor
      · intro j hj hp _ hpj
        have hj0 : j ≠ 0 := fun hj0 => hpj (by rw [hj0]; rfl)
        simpa [Array.getElem_swap, hpj, hj0, hj.ne, hp.ne] using h j (by omega) (by omega)
      · intro j _ _ _ _ hne
        exact absurd rfl hne
    intro j hj hp
    have hj' : j < a.size - 1 := by simpa using hj
    have hp' : parent j < a.size - 1 := by simpa using hp
    simpa using hdown j (by simp; omega) (by simp; omega) hj' (Nat.zero_le _)

theorem popHeap_pop_perm (comp : α → α → Bool) (a : Array α) (h : 0 < a.size) :
    ((popHeap comp a).pop.push a[0]).Perm a := by
  have hback := popHeap_back comp a h (by simp; omega)
  have hpop : (popHeap comp a).pop.push a[0] = popHeap comp a := by
    rw [← hback]
    apply Array.ext
    · simp; omega
    · intro i hi1 hi2
      simp only [Array.getElem_push, Array.getElem_pop, Array.size_pop, size_popHeap]
      split
      · rfl
      · congr 1
        simp at hi1
        omega
  rw [hpop]
  exact popHeap_perm comp a

/-! ## make_heap -/

/-- The loop of `std::make_heap`: sift down from every parent below `k`. -/
def makeHeapLoop (comp : α → α → Bool) (a : Array α) : Nat → Array α
  | 0 => a
  | k + 1 => makeHeapLoop comp (siftDown comp a k a.size (Nat.le_refl _)) k

def makeHeap (comp : α → α → Bool) (a : Array α) : Array α :=
  makeHeapLoop comp a (a.size / 2)

theorem makeHeapLoop_perm (comp : α → α → Bool) (a : Array α) (k : Nat) :
    (makeHeapLoop comp a k).Perm a := by
  induction k generalizing a with
  | zero => exact Array.Perm.refl _
  | succ k ih => exact (ih _).trans (siftDown_perm _ _ _ _ _)

theorem makeHeap_perm (comp : α → α → Bool) (a : Array α) : (makeHeap comp a).Perm a :=
  makeHeapLoop_perm comp a _

theorem makeHeapLoop_isHeap {comp : α → α → Bool} (hc : StrictWeak comp) (a : Array α) (k : Nat)
    (h : HeapFrom comp a k a.size) : IsHeap comp (makeHeapLoop comp a k) := by
  induction k generalizing a with
  | zero => exact isHeap_iff_heapFrom.mpr h
  | succ k ih =>
    apply ih
    simp only [size_siftDown]
    apply siftDown_heapFrom hc
    constructor
    · intro j hj hp hk hpj
      exact h j hj hp hj (by omega)
    · intro j _ _ _ _ hk0 hk
      have := parent_lt hk0
      omega

theorem makeHeap_isHeap {comp : α → α → Bool} (hc : StrictWeak comp) (a : Array α) :
    IsHeap comp (makeHeap comp a) := by
  apply makeHeapLoop_isHeap hc
  intro j hj _ _ hk
  -- a parent in the second half has no children
  unfold parent at hk
  have hj0 : j = 0 ∨ 1 ≤ j := by omega
  rcases hj0 with rfl | hj1
  · exact hc.irrefl _
  · omega

end DolphinCore.Heap
