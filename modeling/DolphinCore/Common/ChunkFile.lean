import DolphinCore.Lib.Endian

/-!
# DolphinCore.Common.ChunkFile

`PointerWrap` of `ChunkFile.h`: one traversal of an object that loads, saves, measures or compares
it, over all types that the overloads of `Do` take apart.
-/

namespace DolphinCore.ChunkFile

inductive Mode
  | MODE_READ
  | MODE_WRITE
  | MODE_MEASURE
  | MODE_VERIFY
  deriving DecidableEq, Repr

/-- `PointerWrap`, with the bytes that it points into. -/
structure PointerWrap where
  ptr : Nat
  mode : Mode
  mem : Nat → Byte

/-- A call of `Do`: the pointer and the object after it. -/
abbrev Do (α : Type) := PointerWrap → α → PointerWrap × α

/-! ## bytes -/

/-- `memcpy` from the buffer. -/
def readBytes (mem : Nat → Byte) (a n : Nat) : List Byte := (List.range n).map fun i => mem (a + i)

/-- `memcpy` to the buffer. -/
def writeBytes (mem : Nat → Byte) (a : Nat) (bytes : List Byte) (x : Nat) : Byte :=
  if a ≤ x then (bytes[x - a]?).getD (mem x) else mem x

/-- `DoVoid` of an object with these bytes. -/
def doVoid (p : PointerWrap) (data : List Byte) : PointerWrap × List Byte :=
  match p.mode with
  | .MODE_READ => ({ p with ptr := p.ptr + data.length }, readBytes p.mem p.ptr data.length)
  | .MODE_WRITE =>
    ({ p with ptr := p.ptr + data.length, mem := writeBytes p.mem p.ptr data }, data)
  | .MODE_MEASURE => ({ p with ptr := p.ptr + data.length }, data)
  | .MODE_VERIFY => ({ p with ptr := p.ptr + data.length }, data)

/-- A type whose objects are copied with their bytes. -/
structure TriviallyCopyable (α : Type) where
  size : Nat
  toBytes : α → List Byte
  ofBytes : List Byte → α
  length_toBytes : ∀ x, (toBytes x).length = size
  ofBytes_toBytes : ∀ x, ofBytes (toBytes x) = x

def u8 : TriviallyCopyable Byte where
  size := 1
  toBytes x := [x]
  ofBytes bytes := bytes.headD 0
  length_toBytes _ := rfl
  ofBytes_toBytes _ := rfl

def u32 : TriviallyCopyable (BitVec 32) where
  size := 4
  toBytes x := Endian.toLE 4 x.toNat
  ofBytes bytes := BitVec.ofNat 32 (Endian.fromLE bytes)
  length_toBytes x := Endian.length_toLE 4 x.toNat
  ofBytes_toBytes x := by
    rw [Endian.fromLE_toLE_of_lt x.isLt, BitVec.ofNat_toNat, BitVec.setWidth_eq]

/-! ## the overloads of `Do` -/

/-- `Do` of a trivially copyable object. -/
def doTrivial (T : TriviallyCopyable α) : Do α := fun p x =>
  let done := doVoid p (T.toBytes x)
  (done.1, T.ofBytes done.2)

/-- `Do(bool&)` -/
def doBool : Do Bool := fun p x =>
  let stable : Byte := if x then 1 else 0
  let done := doTrivial u8 p stable
  (done.1, if done.1.mode = .MODE_READ then decide (done.2 ≠ 0) else x)

/-- `Do(std::pair<T, U>&)` -/
def doPair (doFirst : Do α) (doSecond : Do β) : Do (α × β) := fun p x =>
  let first := doFirst p x.1
  let second := doSecond first.1 x.2
  (second.1, (first.2, second.2))

/-- The elements one after another. -/
def doEach (doElem : Do α) : Do (List α)
  | p, [] => (p, [])
  | p, elem :: elems =>
    let first := doElem p elem
    let rest := doEach doElem first.1 elems
    (rest.1, first.2 :: rest.2)

/-- `resize`, where `value` is the element that is constructed by default. -/
def resize (container : List α) (size : Nat) (value : α) : List α :=
  container.take size ++ List.replicate (size - container.length) value

/-- `DoContainer`, of strings, vectors, lists and deques. -/
def doContainer (doElem : Do α) (value : α) : Do (List α) := fun p container =>
  let size := doTrivial u32 p (BitVec.ofNat 32 container.length)
  doEach doElem size.1 (resize container size.2.toNat value)

/-- What a `std::set` compares its elements with. -/
structure Compare (α : Type) where
  less : α → α → Bool
  irrefl : ∀ a, less a a = false
  trans : ∀ a b c, less a b = true → less b c = true → less a c = true

/-- `insert` into the elements in their order, which leaves an equivalent one alone. -/
def Compare.insert (c : Compare α) (value : α) : List α → List α
  | [] => [value]
  | elem :: elems =>
    if c.less value elem then value :: elem :: elems
    else if c.less elem value then elem :: c.insert value elems
    else elem :: elems

/-- `std::set` -/
structure StdSet (c : Compare α) where
  elems : List α
  sorted : elems.Pairwise fun a b => c.less a b = true

theorem Compare.mem_insert (c : Compare α) {value x : α} : (elems : List α) →
    x ∈ c.insert value elems → x = value ∨ x ∈ elems
  | [], h => .inl (List.mem_singleton.mp h)
  | elem :: elems, h => by
    rw [Compare.insert] at h
    split at h
    · exact List.mem_cons.mp h
    · split at h
      · rcases List.mem_cons.mp h with rfl | h
        · exact .inr (List.mem_cons_self ..)
        · exact (c.mem_insert elems h).imp_right (List.mem_cons_of_mem _)
      · exact .inr h

theorem Compare.sorted_insert (c : Compare α) (value : α) : (elems : List α) →
    (elems.Pairwise fun a b => c.less a b = true) →
    (c.insert value elems).Pairwise fun a b => c.less a b = true
  | [], _ => List.pairwise_singleton ..
  | elem :: elems, h => by
    obtain ⟨hhead, htail⟩ := List.pairwise_cons.mp h
    rw [Compare.insert]
    split
    · next hless =>
      refine List.pairwise_cons.mpr ⟨fun x hx => ?_, h⟩
      rcases List.mem_cons.mp hx with rfl | hx
      · exact hless
      · exact c.trans _ _ _ hless (hhead x hx)
    · split
      · next hgreater =>
        refine List.pairwise_cons.mpr ⟨fun x hx => ?_, c.sorted_insert value elems htail⟩
        rcases c.mem_insert elems hx with rfl | hx
        · exact hgreater
        · exact hhead x hx
      · exact h

def StdSet.insert {c : Compare α} (s : StdSet c) (value : α) : StdSet c :=
  ⟨c.insert value s.elems, c.sorted_insert value s.elems s.sorted⟩

/-- The loop that reads a set, whose elements are constructed as `value`. -/
def readSet {c : Compare α} (doElem : Do α) (value : α) :
    Nat → PointerWrap → StdSet c → PointerWrap × StdSet c
  | 0, p, s => (p, s)
  | count + 1, p, s =>
    let elem := doElem p value
    readSet doElem value count elem.1 (s.insert elem.2)

/-- `Do(std::set<V>&)`; outside of reading, the elements are not changed by their turns. -/
def doSet (c : Compare α) (doElem : Do α) (value : α) : Do (StdSet c) := fun p s =>
  let count := doTrivial u32 p (BitVec.ofNat 32 s.elems.length)
  if count.1.mode = .MODE_READ then readSet doElem value count.2.toNat count.1 ⟨[], .nil⟩
  else ((doEach doElem count.1 s.elems).1, s)

/-- Pairs by their keys. -/
def Compare.byKey (c : Compare κ) (ν : Type) : Compare (κ × ν) where
  less a b := c.less a.1 b.1
  irrefl a := c.irrefl a.1
  trans a b d := c.trans a.1 b.1 d.1

/-- `std::map` -/
abbrev StdMap (c : Compare κ) (ν : Type) := StdSet (c.byKey ν)

/-- `Do(std::map<K, V>&)` -/
def doMap (c : Compare κ) (doKey : Do κ) (doValue : Do ν) (value : κ × ν) : Do (StdMap c ν) :=
  doSet (c.byKey ν) (doPair doKey doValue) value

/-! ## what `Do` takes -/

/-- The calls of `Do` that the overloads give, and the objects each of whose containers has fewer than
2^32 elements. -/
inductive Doable : {α : Type} → Do α → (α → Prop) → Prop
  | trivial (T : TriviallyCopyable α) : Doable (doTrivial T) fun _ => True
  | bool : Doable doBool fun _ => True
  | pair {doFirst : Do α} {doSecond : Do β} {fits : α → Prop} {fits' : β → Prop} :
    Doable doFirst fits → Doable doSecond fits' →
    Doable (doPair doFirst doSecond) fun x => fits x.1 ∧ fits' x.2
  | container {doElem : Do α} {fits : α → Prop} (value : α) : Doable doElem fits →
    Doable (doContainer doElem value) fun x => x.length < 2 ^ 32 ∧ ∀ elem ∈ x, fits elem
  | set {doElem : Do α} {fits : α → Prop} (c : Compare α) (value : α) : Doable doElem fits →
    Doable (doSet c doElem value) fun x => x.elems.length < 2 ^ 32 ∧ ∀ elem ∈ x.elems, fits elem
  | map {doKey : Do κ} {doValue : Do ν} {fits : κ → Prop} {fits' : ν → Prop} (c : Compare κ)
    (value : κ × ν) : Doable doKey fits → Doable doValue fits' →
    Doable (doMap c doKey doValue value) fun x =>
      x.elems.length < 2 ^ 32 ∧ ∀ elem ∈ x.elems, fits elem.1 ∧ fits' elem.2

/-! ## markers -/

def doMarker (p : PointerWrap) (arbitraryNumber : BitVec 32) : PointerWrap :=
  let cookie := doTrivial u32 p arbitraryNumber
  if cookie.1.mode = .MODE_READ ∧ cookie.2 ≠ arbitraryNumber then
    { cookie.1 with mode := .MODE_MEASURE }
  else cookie.1

/-- A call of `Do` or of `DoMarker`. -/
inductive Call
  | obj {α : Type} {doObj : Do α} {fits : α → Prop} (h : Doable doObj fits) (x : α)
  | marker (arbitraryNumber : BitVec 32)

/-- The pointer after a call. -/
def Call.run (p : PointerWrap) : Call → PointerWrap
  | @Call.obj _ doObj _ _ x => (doObj p x).1
  | .marker arbitraryNumber => doMarker p arbitraryNumber

end DolphinCore.ChunkFile
