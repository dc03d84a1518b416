import DolphinCore.Common.ChunkFile
import DolphinCore.Lib.Run

/-!
# DolphinCore.Common.ChunkRoundTrip

Each call of `Do` stands for one string of bytes: it is measured with its length, written as it, and
read back from it, by induction on the type of the object.  After a marker that does not match,
nothing is changed any more.

Objects that serialize their fields by hand.  What is read over another object is what was
written where a field takes part, and stays as it was where none does.
-/

namespace DolphinCore.ChunkFile

variable {α β : Type}

/-! ## bytes in the buffer -/

/-- The bytes stand in the buffer at an address. -/
def Holds (mem : Nat → Byte) (a : Nat) (bytes : List Byte) : Prop :=
  ∀ (i : Nat) (b : Byte), bytes[i]? = some b → mem (a + i) = b

variable {mem : Nat → Byte}

theorem holds_append {a : Nat} {xs ys : List Byte} :
    Holds mem a (xs ++ ys) ↔ Holds mem a xs ∧ Holds mem (a + xs.length) ys := by
  refine ⟨fun h => ⟨fun i b hb => h i b ?_, fun i b hb => ?_⟩, fun h i b hb => ?_⟩
  · rw [List.getElem?_append_left (List.getElem?_eq_some_iff.mp hb).1, hb]
  · rw [Nat.add_assoc]
    refine h (xs.length + i) b ?_
    rw [List.getElem?_append_right (Nat.le_add_right ..), Nat.add_sub_cancel_left, hb]
  · by_cases hi : i < xs.length
    · rw [List.getElem?_append_left hi] at hb
      exact h.1 i b hb
    · rw [List.getElem?_append_right (Nat.not_lt.mp hi)] at hb
      have hword := h.2 (i - xs.length) b hb
      rwa [Nat.add_assoc, Nat.add_sub_cancel' (Nat.not_lt.mp hi)] at hword

theorem readBytes_of_holds {a : Nat} {bytes : List Byte} (h : Holds mem a bytes) :
    readBytes mem a bytes.length = bytes := by
  refine List.ext_getElem? fun i => ?_
  rw [readBytes, List.getElem?_map]
  by_cases hi : i < bytes.length
  · have hb := List.getElem?_eq_getElem hi
    rw [List.getElem?_range hi, hb, Option.map_some, h i _ hb]
  · rw [List.getElem?_eq_none (Nat.not_lt.mp hi), List.getElem?_eq_none, Option.map_none]
    rw [List.length_range]
    exact Nat.not_lt.mp hi

theorem holds_writeBytes (mem : Nat → Byte) (a : Nat) (bytes : List Byte) :
    Holds (writeBytes mem a bytes) a bytes := by
  intro i b hb
  rw [writeBytes, if_pos (Nat.le_add_right ..), Nat.add_sub_cancel_left, hb]
  rfl

theorem writeBytes_of_not {a x : Nat} {bytes : List Byte} (h : x < a ∨ a + bytes.length ≤ x) :
    writeBytes mem a bytes x = mem x := by
  rw [writeBytes]
  split
  · next hle =>
    rw [List.getElem?_eq_none (by omega)]
    rfl
  · rfl

theorem writeBytes_append (mem : Nat → Byte) (a : Nat) (xs ys : List Byte) :
    writeBytes (writeBytes mem a xs) (a + xs.length) ys = writeBytes mem a (xs ++ ys) := by
  funext x
  simp only [writeBytes]
  by_cases hlow : a ≤ x
  · by_cases hhigh : a + xs.length ≤ x
    · have hnone : xs[x - a]? = none := List.getElem?_eq_none (by omega)
      rw [if_pos hhigh, if_pos hlow, if_pos hlow, hnone, List.getElem?_append_right (by omega),
        Nat.sub_sub]
      rfl
    · rw [if_neg hhigh, if_pos hlow, if_pos hlow, List.getElem?_append_left (by omega)]
  · have hhigh : ¬ a + xs.length ≤ x := by omega
    rw [if_neg hhigh, if_neg hlow, if_neg hlow]

theorem writeBytes_nil (mem : Nat → Byte) (a : Nat) : writeBytes mem a [] = mem := by
  funext x
  exact writeBytes_of_not (by rw [List.length_nil]; omega)

/-! ## what a call stands for -/

/-- The pointer past some bytes. -/
def PointerWrap.skip (p : PointerWrap) (n : Nat) : PointerWrap := { p with ptr := p.ptr + n }

/-- The pointer past some bytes that are written. -/
def PointerWrap.put (p : PointerWrap) (bytes : List Byte) : PointerWrap :=
  { p with ptr := p.ptr + bytes.length, mem := writeBytes p.mem p.ptr bytes }

/-- A call that writes, measures and reads `encode x` for the object `x`. -/
structure Encodes (doObj : Do α) (fits : α → Prop) (encode : α → List Byte) : Prop where
  mode : ∀ p x, (doObj p x).1.mode = p.mode
  write : ∀ p x, fits x → p.mode = .MODE_WRITE → doObj p x = (p.put (encode x), x)
  measure : ∀ p x, fits x → p.mode ≠ .MODE_WRITE → p.mode ≠ .MODE_READ →
    doObj p x = (p.skip (encode x).length, x)
  read : ∀ p x, fits x → p.mode = .MODE_READ → Holds p.mem p.ptr (encode x) →
    ∀ x₀, doObj p x₀ = (p.skip (encode x).length, x)

theorem encodes_trivial (T : TriviallyCopyable α) :
    Encodes (doTrivial T) (fun _ => True) T.toBytes where
  mode p x := by
    obtain ⟨ptr, mode, mem⟩ := p
    cases mode <;> rfl
  write p x _ hmode := by
    rw [doTrivial, doVoid, hmode]
    simp only [T.ofBytes_toBytes, PointerWrap.put, hmode]
  measure p x _ hwrite hread := by
    obtain ⟨ptr, mode, mem⟩ := p
    cases mode with
    | MODE_READ => exact absurd rfl hread
    | MODE_WRITE => exact absurd rfl hwrite
    | MODE_MEASURE => simp only [doTrivial, doVoid, T.ofBytes_toBytes, PointerWrap.skip]
    | MODE_VERIFY => simp only [doTrivial, doVoid, T.ofBytes_toBytes, PointerWrap.skip]
  read p x _ hmode hholds x₀ := by
    have hbytes := readBytes_of_holds hholds
    rw [T.length_toBytes] at hbytes
    rw [doTrivial, doVoid, hmode]
    simp only [T.length_toBytes, hbytes, T.ofBytes_toBytes, PointerWrap.skip, hmode]

theorem encodes_bool :
    Encodes doBool (fun _ => True) (fun x => u8.toBytes (if x then 1 else 0)) where
  mode p x := (encodes_trivial u8).mode p _
  write p x _ hmode := by
    have hmode' : (p.put (u8.toBytes (if x then 1 else 0))).mode ≠ .MODE_READ := by
      rw [PointerWrap.put, hmode]
      decide
    rw [doBool, (encodes_trivial u8).write p _ trivial hmode, if_neg hmode']
  measure p x _ hwrite hread := by
    rw [doBool, (encodes_trivial u8).measure p _ trivial hwrite hread]
    exact congrArg _ (if_neg hread)
  read p x _ hmode hholds x₀ := by
    rw [doBool, (encodes_trivial u8).read p _ trivial hmode hholds]
    refine congrArg _ ((if_pos hmode).trans ?_)
    cases x <;> rfl

theorem PointerWrap.skip_skip (p : PointerWrap) (m n : Nat) : (p.skip m).skip n = p.skip (m + n) := by
  simp only [PointerWrap.skip, Nat.add_assoc]

theorem PointerWrap.put_put (p : PointerWrap) (xs ys : List Byte) :
    (p.put xs).put ys = p.put (xs ++ ys) := by
  simp only [PointerWrap.put, writeBytes_append, List.length_append, Nat.add_assoc]

theorem encodes_pair {doFirst : Do α} {doSecond : Do β} {fits : α → Prop} {fits' : β → Prop}
    {encode : α → List Byte} {encode' : β → List Byte} (h : Encodes doFirst fits encode)
    (h' : Encodes doSecond fits' encode') :
    Encodes (doPair doFirst doSecond) (fun x => fits x.1 ∧ fits' x.2)
      fun x => encode x.1 ++ encode' x.2 where
  mode p x := (h'.mode _ _).trans (h.mode p x.1)
  write p x hx hmode := by
    rw [doPair, h.write p x.1 hx.1 hmode, h'.write (p.put (encode x.1)) x.2 hx.2 hmode]
    simp only [PointerWrap.put_put]
  measure p x hx hwrite hread := by
    rw [doPair, h.measure p x.1 hx.1 hwrite hread,
      h'.measure (p.skip (encode x.1).length) x.2 hx.2 hwrite hread]
    simp only [PointerWrap.skip_skip, List.length_append]
  read p x hx hmode hholds x₀ := by
    obtain ⟨hfirst, hsecond⟩ := holds_append.mp hholds
    rw [doPair, h.read p x.1 hx.1 hmode hfirst,
      h'.read (p.skip (encode x.1).length) x.2 hx.2 hmode hsecond]
    simp only [PointerWrap.skip_skip, List.length_append]

/-! ## containers -/

section

variable {doElem : Do α} {fits : α → Prop} {encode : α → List Byte}

theorem mode_doEach (h : Encodes doElem fits encode) : (xs : List α) → (p : PointerWrap) →
    (doEach doElem p xs).1.mode = p.mode
  | [], _ => rfl
  | x :: xs, p => (mode_doEach h xs (doElem p x).1).trans (h.mode p x)

theorem write_doEach (h : Encodes doElem fits encode) : (xs : List α) → (p : PointerWrap) →
    (∀ x ∈ xs, fits x) → p.mode = .MODE_WRITE → doEach doElem p xs = (p.put (xs.flatMap encode), xs)
  | [], p, _, _ => by
    rw [doEach, List.flatMap_nil, PointerWrap.put, writeBytes_nil]
    rfl
  | x :: xs, p, hxs, hmode => by
    have hrest := write_doEach h xs (p.put (encode x)) (fun y hy => hxs y (List.mem_cons_of_mem _ hy))
      hmode
    simp only [doEach, h.write p x (hxs x (List.mem_cons_self ..)) hmode, hrest,
      PointerWrap.put_put, List.flatMap_cons]

theorem measure_doEach (h : Encodes doElem fits encode) : (xs : List α) → (p : PointerWrap) →
    (∀ x ∈ xs, fits x) → p.mode ≠ .MODE_WRITE → p.mode ≠ .MODE_READ →
    doEach doElem p xs = (p.skip (xs.flatMap encode).length, xs)
  | [], _, _, _, _ => rfl
  | x :: xs, p, hxs, hwrite, hread => by
    have hrest := measure_doEach h xs (p.skip (encode x).length)
      (fun y hy => hxs y (List.mem_cons_of_mem _ hy)) hwrite hread
    simp only [doEach, h.measure p x (hxs x (List.mem_cons_self ..)) hwrite hread, hrest,
      PointerWrap.skip_skip, List.flatMap_cons, List.length_append]

theorem read_doEach (h : Encodes doElem fits encode) : (xs xs₀ : List α) → (p : PointerWrap) →
    xs₀.length = xs.length → (∀ x ∈ xs, fits x) → p.mode = .MODE_READ →
    Holds p.mem p.ptr (xs.flatMap encode) →
    doEach doElem p xs₀ = (p.skip (xs.flatMap encode).length, xs)
  | [], xs₀, _, hlen, _, _, _ => by
    rw [List.length_eq_zero_iff.mp hlen]
    rfl
  | x :: xs, [], _, hlen, _, _, _ => absurd hlen (Nat.succ_ne_zero _).symm
  | x :: xs, x₀ :: xs₀, p, hlen, hxs, hmode, hholds => by
    obtain ⟨hfirst, hsecond⟩ := holds_append.mp hholds
    have hrest := read_doEach h xs xs₀ (p.skip (encode x).length) (Nat.succ.inj hlen)
      (fun y hy => hxs y (List.mem_cons_of_mem _ hy)) hmode hsecond
    simp only [doEach, h.read p x (hxs x (List.mem_cons_self ..)) hmode hfirst, hrest,
      PointerWrap.skip_skip, List.flatMap_cons, List.length_append]

theorem resize_length (container : List α) (value : α) :
    resize container container.length value = container := by
  rw [resize, List.take_length, Nat.sub_self, List.replicate_zero, List.append_nil]

theorem length_resize (container : List α) (size : Nat) (value : α) :
    (resize container size value).length = size := by
  rw [resize, List.length_append, List.length_take, List.length_replicate]
  omega

/-- The bytes of a number of elements and the elements. -/
def encodeAll (encode : α → List Byte) (xs : List α) : List Byte :=
  u32.toBytes (BitVec.ofNat 32 xs.length) ++ xs.flatMap encode

theorem toNat_length {xs : List α} (h : xs.length < 2 ^ 32) :
    (BitVec.ofNat 32 xs.length).toNat = xs.length := by
  rw [BitVec.toNat_ofNat, Nat.mod_eq_of_lt h]

theorem encodes_container (h : Encodes doElem fits encode) (value : α) :
    Encodes (doContainer doElem value) (fun x => x.length < 2 ^ 32 ∧ ∀ elem ∈ x, fits elem)
      (encodeAll encode) where
  mode p x := (mode_doEach h _ _).trans ((encodes_trivial u32).mode p _)
  write p x hx hmode := by
    rw [doContainer, (encodes_trivial u32).write p _ trivial hmode]
    simp only [toNat_length hx.1, resize_length]
    rw [write_doEach h x (p.put _) hx.2 hmode, PointerWrap.put_put]
    rfl
  measure p x hx hwrite hread := by
    rw [doContainer, (encodes_trivial u32).measure p _ trivial hwrite hread]
    simp only [toNat_length hx.1, resize_length]
    rw [measure_doEach h x (p.skip _) hx.2 hwrite hread, PointerWrap.skip_skip, encodeAll,
      List.length_append]
  read p x hx hmode hholds x₀ := by
    obtain ⟨hsize, helems⟩ := holds_append.mp hholds
    rw [doContainer, (encodes_trivial u32).read p (BitVec.ofNat 32 x.length) trivial hmode hsize]
    simp only [toNat_length hx.1]
    rw [read_doEach h x _ (p.skip _) (length_resize ..) hx.2 hmode helems, PointerWrap.skip_skip, encodeAll,
      List.length_append]

/-! ## sets and maps -/

theorem insert_of_greater (c : Compare α) {value : α} : (elems : List α) →
    (∀ elem ∈ elems, c.less elem value = true) → c.insert value elems = elems ++ [value]
  | [], _ => rfl
  | elem :: elems, h => by
    have hless := h elem (List.mem_cons_self ..)
    have hnot : ¬ c.less value elem = true := by
      intro hgreater
      have hself := c.trans _ _ _ hless hgreater
      rw [c.irrefl] at hself
      cases hself
    rw [Compare.insert, if_neg hnot, if_pos hless,
      insert_of_greater c elems fun elem' hmem => h elem' (List.mem_cons_of_mem _ hmem)]
    rfl

theorem mode_readSet {c : Compare α} (h : Encodes doElem fits encode) (value : α) : (n : Nat) →
    (p : PointerWrap) → (s : StdSet c) → (readSet doElem value n p s).1.mode = p.mode
  | 0, _, _ => rfl
  | n + 1, p, _ => (mode_readSet h value n (doElem p value).1 _).trans (h.mode p value)

theorem readSet_spec {c : Compare α} (h : Encodes doElem fits encode) (value : α) : (xs : List α) →
    (p : PointerWrap) → (s t : StdSet c) → s.elems ++ xs = t.elems → (∀ x ∈ xs, fits x) →
    p.mode = .MODE_READ → Holds p.mem p.ptr (xs.flatMap encode) →
    readSet doElem value xs.length p s = (p.skip (xs.flatMap encode).length, t)
  | [], p, s, t, heq, _, _, _ => by
    obtain ⟨elems, _⟩ := s
    obtain ⟨elems', _⟩ := t
    rw [List.append_nil] at heq
    cases heq
    rfl
  | x :: xs, p, s, t, heq, hxs, hmode, hholds => by
    obtain ⟨hfirst, hsecond⟩ := holds_append.mp hholds
    have hsorted := t.sorted
    rw [← heq, List.pairwise_append] at hsorted
    have hlast : (s.insert x).elems = s.elems ++ [x] :=
      insert_of_greater c s.elems fun elem hmem => hsorted.2.2 elem hmem x (List.mem_cons_self ..)
    have hinsert : (s.insert x).elems ++ xs = t.elems := by
      rw [hlast, ← heq, List.append_assoc]
      rfl
    have hrest := readSet_spec h value xs (p.skip (encode x).length) (s.insert x) t hinsert
      (fun y hy => hxs y (List.mem_cons_of_mem _ hy)) hmode hsecond
    rw [List.length_cons, readSet]
    simp only [h.read p x (hxs x (List.mem_cons_self ..)) hmode hfirst, hrest,
      PointerWrap.skip_skip, List.flatMap_cons, List.length_append]

theorem encodes_set (h : Encodes doElem fits encode) (c : Compare α) (value : α) :
    Encodes (doSet c doElem value) (fun x => x.elems.length < 2 ^ 32 ∧ ∀ elem ∈ x.elems, fits elem)
      fun x => encodeAll encode x.elems where
  mode p x := by
    have hcount := (encodes_trivial u32).mode p (BitVec.ofNat 32 x.elems.length)
    rw [doSet]
    split
    · exact (mode_readSet h value _ _ _).trans hcount
    · exact (mode_doEach h _ _).trans hcount
  write p x hx hmode := by
    have hmode' : (p.put (u32.toBytes (BitVec.ofNat 32 x.elems.length))).mode ≠ .MODE_READ := by
      rw [PointerWrap.put, hmode]
      decide
    rw [doSet, (encodes_trivial u32).write p _ trivial hmode, if_neg hmode',
      write_doEach h x.elems (p.put _) hx.2 hmode]
    simp only [PointerWrap.put_put]
    rfl
  measure p x hx hwrite hread := by
    rw [doSet, (encodes_trivial u32).measure p _ trivial hwrite hread]
    refine (if_neg hread).trans ?_
    rw [measure_doEach h x.elems (p.skip _) hx.2 hwrite hread]
    simp only [PointerWrap.skip_skip, encodeAll, List.length_append]
  read p x hx hmode hholds x₀ := by
    obtain ⟨hsize, helems⟩ := holds_append.mp hholds
    rw [doSet, (encodes_trivial u32).read p (BitVec.ofNat 32 x.elems.length) trivial hmode hsize]
    refine (if_pos hmode).trans ?_
    rw [toNat_length hx.1, readSet_spec h value x.elems (p.skip _) ⟨[], .nil⟩ x rfl hx.2 hmode helems,
      PointerWrap.skip_skip, encodeAll, List.length_append]

end

/-- **By induction on the type**, each call of `Do` stands for the bytes of its object. -/
theorem Doable.encodes {doObj : Do α} {fits : α → Prop} (h : Doable doObj fits) :
    ∃ encode, Encodes doObj fits encode := by
  induction h with
  | trivial T => exact ⟨_, encodes_trivial T⟩
  | bool => exact ⟨_, encodes_bool⟩
  | pair _ _ ih ih' =>
    obtain ⟨_, hfirst⟩ := ih
    obtain ⟨_, hsecond⟩ := ih'
    exact ⟨_, encodes_pair hfirst hsecond⟩
  | container value _ ih =>
    obtain ⟨_, helem⟩ := ih
    exact ⟨_, encodes_container helem value⟩
  | set c value _ ih =>
    obtain ⟨_, helem⟩ := ih
    exact ⟨_, encodes_set helem c value⟩
  | map c value _ _ ih ih' =>
    obtain ⟨_, hkey⟩ := ih
    obtain ⟨_, hvalue⟩ := ih'
    exact ⟨_, encodes_set (encodes_pair hkey hvalue) (c.byKey _) value⟩

/-! ## the round trip, and markers -/

/-- The object takes `n` bytes: it is measured as `n`, it is written to the `n` bytes at the pointer and
to no others, and reading these bytes anywhere, over any object, gives it back. -/
structure RoundTrips (doObj : Do α) (x : α) (n : Nat) : Prop where
  measure : ∀ p, p.mode = .MODE_MEASURE → doObj p x = (p.skip n, x)
  write : ∀ p, p.mode = .MODE_WRITE → (doObj p x).1.ptr = p.ptr + n ∧ (doObj p x).2 = x
  frame : ∀ p, p.mode = .MODE_WRITE → ∀ a, a < p.ptr ∨ p.ptr + n ≤ a → (doObj p x).1.mem a = p.mem a
  read : ∀ p, p.mode = .MODE_WRITE → ∀ q, q.mode = .MODE_READ →
    (∀ i < n, q.mem (q.ptr + i) = (doObj p x).1.mem (p.ptr + i)) → ∀ x₀, doObj q x₀ = (q.skip n, x)

theorem Encodes.roundTrips {doObj : Do α} {fits : α → Prop} {encode : α → List Byte}
    (h : Encodes doObj fits encode) {x : α} (hx : fits x) : RoundTrips doObj x (encode x).length where
  measure p hmode := h.measure p x hx (by rw [hmode]; decide) (by rw [hmode]; decide)
  write p hmode := by
    rw [h.write p x hx hmode]
    exact ⟨rfl, rfl⟩
  frame p hmode a ha := by
    rw [h.write p x hx hmode]
    exact writeBytes_of_not ha
  read p hmode q hread hcopied x₀ := by
    refine h.read q x hx hread (fun i b hb => ?_) x₀
    rw [hcopied i (List.getElem?_eq_some_iff.mp hb).1, h.write p x hx hmode]
    exact holds_writeBytes p.mem p.ptr (encode x) i b hb

/-- Calls one after another. -/
def callStep (p : PointerWrap) (c : Call) : Option PointerWrap := some (c.run p)

theorem Call.mode_run (c : Call) {p : PointerWrap} (h : p.mode = .MODE_MEASURE) :
    (c.run p).mode = .MODE_MEASURE := by
  cases c with
  | obj hdo x =>
    obtain ⟨encode, hencodes⟩ := hdo.encodes
    exact (hencodes.mode p x).trans h
  | marker arbitraryNumber =>
    have hcookie := (encodes_trivial u32).mode p arbitraryNumber
    rw [Call.run, doMarker, if_neg]
    · exact hcookie.trans h
    · rw [hcookie, h]
      exact fun hboth => absurd hboth.1 (by decide)

theorem mode_of_mismatch {p q : PointerWrap} {arbitraryNumber : BitVec 32} (hmode : p.mode = .MODE_READ)
    (hmismatch : (doTrivial u32 p arbitraryNumber).2 ≠ arbitraryNumber)
    (h : Run callStep (fun _ _ => True) (doMarker p arbitraryNumber) q) :
    q.mode = .MODE_MEASURE := by
  refine h.invariant (I := fun p => p.mode = .MODE_MEASURE) ?_ fun s c t hs _ hstep => ?_
  · rw [doMarker, if_pos]
    exact ⟨((encodes_trivial u32).mode p arbitraryNumber).trans hmode, hmismatch⟩
  · cases hstep
    exact c.mode_run hs

/-- **Every object that `Do` takes is measured, written and read back alike, and is left alone once a
marker does not match.** -/
theorem doable_spec {doObj : Do α} {fits : α → Prop} (h : Doable doObj fits) {x : α} (hx : fits x) :
    (∃ n, RoundTrips doObj x n) ∧
      ∀ (p : PointerWrap) (arbitraryNumber : BitVec 32), p.mode = .MODE_READ →
        (doTrivial u32 p arbitraryNumber).2 ≠ arbitraryNumber →
        ∀ q, Run callStep (fun _ _ => True) (doMarker p arbitraryNumber) q → (doObj q x).2 = x := by
  obtain ⟨encode, hencodes⟩ := h.encodes
  refine ⟨⟨_, hencodes.roundTrips hx⟩, fun p arbitraryNumber hmode hmismatch q hrun => ?_⟩
  rw [(hencodes.roundTrips hx).measure q (mode_of_mismatch hmode hmismatch hrun)]

/-- Bytes as `std::less` compares them. -/
def lessByte : Compare Byte where
  less a b := decide (a < b)
  irrefl a := decide_eq_false (BitVec.lt_irrefl a)
  trans _ _ _ h h' := decide_eq_true (BitVec.lt_trans (of_decide_eq_true h) (of_decide_eq_true h'))

/-- A vector of pairs of a bool and a set of bytes. -/
theorem doable_spec_vector :
    (∃ n, RoundTrips (doContainer (doPair doBool (doSet lessByte (doTrivial u8) 0)) (false, ⟨[], .nil⟩))
        [(true, ⟨[1, 2], by decide⟩), (false, ⟨[], .nil⟩)] n) ∧
      ∀ (p : PointerWrap) (arbitraryNumber : BitVec 32), p.mode = .MODE_READ →
        (doTrivial u32 p arbitraryNumber).2 ≠ arbitraryNumber →
        ∀ q, Run callStep (fun _ _ => True) (doMarker p arbitraryNumber) q →
          (doContainer (doPair doBool (doSet lessByte (doTrivial u8) 0)) (false, ⟨[], .nil⟩) q
            [(true, ⟨[1, 2], by decide⟩), (false, ⟨[], .nil⟩)]).2 =
              [(true, ⟨[1, 2], by decide⟩), (false, ⟨[], .nil⟩)] :=
  doable_spec (.container _ (.pair .bool (.set lessByte 0 (.trivial u8)))) (by simp)

end DolphinCore.ChunkFile

namespace DolphinCore.ChunkFile

variable {α β ι : Type}

/-- A call that writes `encode x` for the object `x`, and makes `restore x x₀` of the object
`x₀` that it is read over. -/
structure Restores (doObj : Do α) (fits : α → Prop) (encode : α → List Byte)
    (restore : α → α → α) : Prop where
  mode : ∀ p x, (doObj p x).1.mode = p.mode
  write : ∀ p x, fits x → p.mode = .MODE_WRITE → doObj p x = (p.put (encode x), x)
  read : ∀ p x x₀, fits x → p.mode = .MODE_READ → Holds p.mem p.ptr (encode x) →
    doObj p x₀ = (p.skip (encode x).length, restore x x₀)

theorem Encodes.restores {doObj : Do α} {fits : α → Prop} {encode : α → List Byte}
    (h : Encodes doObj fits encode) : Restores doObj fits encode fun x _ => x where
  mode := h.mode
  write := h.write
  read p x x₀ hx hmode hholds := h.read p x hx hmode hholds x₀

/-! ## fields -/

/-- `Do` of one field. -/
def doPart (get : α → β) (set : β → α → α) (doObj : Do β) : Do α := fun p x =>
  let part := doObj p (get x)
  (part.1, set part.2 x)

theorem Restores.part {doObj : Do β} {fits : β → Prop} {encode : β → List Byte}
    {restore : β → β → β} (h : Restores doObj fits encode restore) (get : α → β)
    (set : β → α → α) (hset : ∀ x, set (get x) x = x) :
    Restores (doPart get set doObj) (fun x => fits (get x)) (fun x => encode (get x))
      fun x x₀ => set (restore (get x) (get x₀)) x₀ where
  mode p x := h.mode p (get x)
  write p x hx hmode := by
    rw [doPart, h.write p (get x) hx hmode]
    exact congrArg _ (hset x)
  read p x x₀ hx hmode hholds := by
    rw [doPart, h.read p (get x) (get x₀) hx hmode hholds]

/-- One call after another on the same object. -/
def doThen (doFirst doSecond : Do α) : Do α := fun p x =>
  let first := doFirst p x
  doSecond first.1 first.2

section

variable {doFirst doSecond : Do α} {fits fits' : α → Prop} {encode encode' : α → List Byte}
  {restore restore' : α → α → α}

theorem Restores.andThen (h : Restores doFirst fits encode restore)
    (h' : Restores doSecond fits' encode' restore') :
    Restores (doThen doFirst doSecond) (fun x => fits x ∧ fits' x)
      (fun x => encode x ++ encode' x) fun x x₀ => restore' x (restore x x₀) where
  mode p x := (h'.mode _ _).trans (h.mode p x)
  write p x hx hmode := by
    rw [doThen, h.write p x hx.1 hmode]
    simp only
    rw [h'.write (p.put (encode x)) x hx.2 hmode, PointerWrap.put_put]
  read p x x₀ hx hmode hholds := by
    obtain ⟨hfirst, hsecond⟩ := holds_append.mp hholds
    rw [doThen, h.read p x x₀ hx.1 hmode hfirst]
    simp only
    rw [h'.read (p.skip (encode x).length) x (restore x x₀) hx.2 hmode hsecond,
      PointerWrap.skip_skip, List.length_append]

/-- A call that is left out for some objects. -/
def doUnless (leftOut : α → Bool) (doObj : Do α) : Do α := fun p x =>
  if leftOut x then (p, x) else doObj p x

theorem Restores.andUnless (h : Restores doFirst fits encode restore)
    (h' : Restores doSecond fits' encode' restore') (leftOut : α → Bool)
    (hleft : ∀ x x₀, leftOut (restore x x₀) = leftOut x) :
    Restores (doThen doFirst (doUnless leftOut doSecond))
      (fun x => fits x ∧ (leftOut x = false → fits' x))
      (fun x => encode x ++ if leftOut x then [] else encode' x)
      fun x x₀ => if leftOut x then restore x x₀ else restore' x (restore x x₀) where
  mode p x := by
    rw [doThen, doUnless]
    split
    · exact h.mode p x
    · exact (h'.mode _ _).trans (h.mode p x)
  write p x hx hmode := by
    rw [doThen, h.write p x hx.1 hmode]
    simp only [doUnless]
    cases hout : leftOut x
    · simp only [Bool.false_eq_true, if_false]
      rw [h'.write (p.put (encode x)) x (hx.2 hout) hmode, PointerWrap.put_put]
    · simp only [if_true, List.append_nil]
  read p x x₀ hx hmode hholds := by
    obtain ⟨hfirst, hsecond⟩ := holds_append.mp hholds
    rw [doThen, h.read p x x₀ hx.1 hmode hfirst]
    simp only [doUnless, hleft]
    cases hout : leftOut x
    · rw [hout] at hsecond
      simp only [Bool.false_eq_true, if_false] at hsecond ⊢
      rw [h'.read (p.skip (encode x).length) x (restore x x₀) (hx.2 hout) hmode hsecond,
        PointerWrap.skip_skip, List.length_append]
    · simp only [if_true, List.append_nil]

end

/-! ## arrays -/

/-- The elements at some places, one after another. -/
def doIndices [DecidableEq ι] (doElem : ι → Do α) : List ι → Do (ι → α)
  | [] => fun p x => (p, x)
  | i :: is =>
    doThen (doPart (fun x => x i) (fun elem x => Function.update x i elem) (doElem i))
      (doIndices doElem is)

theorem Restores.indices [DecidableEq ι] {doElem : ι → Do α} {fits : ι → α → Prop}
    {encode : ι → α → List Byte} {restore : ι → α → α → α}
    (h : ∀ i, Restores (doElem i) (fits i) (encode i) (restore i)) : (is : List ι) → is.Nodup →
    Restores (doIndices doElem is) (fun x => ∀ i ∈ is, fits i (x i))
      (fun x => is.flatMap fun i => encode i (x i))
      fun x x₀ i => if i ∈ is then restore i (x i) (x₀ i) else x₀ i
  | [], _ => {
      mode := fun _ _ => rfl
      write := fun p x _ _ => by
        rw [List.flatMap_nil, PointerWrap.put, writeBytes_nil]
        rfl
      read := fun p x x₀ _ _ _ => by
        rfl }
  | i :: is, hnodup => by
    obtain ⟨hnot, hnodup⟩ := List.nodup_cons.mp hnodup
    have helem := (h i).part (α := ι → α) (fun x => x i)
      (fun elem x => Function.update x i elem) fun x => Function.update_eq_self i x
    have hboth := helem.andThen (Restores.indices h is hnodup)
    refine ⟨hboth.mode, fun p x hx hmode => ?_, fun p x x₀ hx hmode hholds => ?_⟩
    · exact hboth.write p x ⟨hx i (List.mem_cons_self ..),
        fun j hj => hx j (List.mem_cons_of_mem i hj)⟩ hmode
    · refine (hboth.read p x x₀ ⟨hx i (List.mem_cons_self ..),
        fun j hj => hx j (List.mem_cons_of_mem i hj)⟩ hmode hholds).trans ?_
      refine congrArg _ (funext fun j => ?_)
      by_cases hj : j = i
      · subst hj
        simp [hnot]
      · simp [hj]

end DolphinCore.ChunkFile
