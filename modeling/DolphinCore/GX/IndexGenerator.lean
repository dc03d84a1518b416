import DolphinCore.Lib.Prefixes
import Mathlib.Data.BitVec
import Mathlib.Data.List.Basic

/-!
# DolphinCore.GX.IndexGenerator

The indices of the primitives that are drawn (`IndexGenerator.cpp`), and when
the vertex manager flushes before a draw (`VertexManagerBase.cpp`).  The indices
of a draw are those of the vertices that were written since the last flush,
counted from there; a vertex count is a number, as fewer than `2 ^ 32` vertices
fit the buffer.
-/

namespace DolphinCore.GX

inductive GxDrawMode where
  | quads | quads2 | triangles | triangleStrip | triangleFan | lines | lineStrip | points
  deriving DecidableEq

inductive PrimitiveType where
  | points | lines | triangles
  deriving DecidableEq

def primitiveFromGx : GxDrawMode → PrimitiveType
  | .quads | .quads2 | .triangles | .triangleStrip | .triangleFan => .triangles
  | .lines | .lineStrip => .lines
  | .points => .points

/-! ## the loops of IndexGenerator -/

namespace IndexGenerator

/-- A loop `while (i < top)` that writes what belongs to `i` and goes on by `inc`, for at most
`fuel` turns. -/
def whileBelow (write : Nat → List Nat) (inc top : Nat) : Nat → Nat → List Nat
  | 0, _ => []
  | fuel + 1, i => if i < top then write i ++ whileBelow write inc top fuel (i + inc) else []

def addList (base n : Nat) : List Nat :=
  whileBelow (fun i => [i - 2, i - 1, i]) 3 (base + n) n (base + 2)

/-- The loop of `AddStrip`, with the first vertex and the winding. -/
def stripLoop (top : Nat) : Nat → Nat → Nat → Nat → List Nat
  | 0, _, _, _ => []
  | fuel + 1, a, i, wind =>
    if i < top then
      [a, i - wind, i - (wind ^^^ 1)] ++ stripLoop top fuel (a + 1) (i + 1) (wind ^^^ 1)
    else []

def addStrip (base n : Nat) : List Nat := stripLoop (base + n) n base (base + 2) 1

def addFan (base n : Nat) : List Nat :=
  whileBelow (fun i => [base, i - 1, i]) 1 (base + n) n (base + 2)

/-- The loop of `AddQuads`, and the triangle of three vertices that are left. -/
def quadLoop (top : Nat) : Nat → Nat → List Nat
  | 0, _ => []
  | fuel + 1, i =>
    if i < top then [i - 3, i - 2, i - 1, i - 3, i - 1, i] ++ quadLoop top fuel (i + 4)
    else if i = top then [top - 3, top - 2, top - 1]
    else []

def addQuads (base n : Nat) : List Nat := quadLoop (base + n) (n + 1) (base + 3)

def addLineList (base n : Nat) : List Nat :=
  whileBelow (fun i => [i - 1, i]) 2 (base + n) n (base + 1)

def addLineStrip (base n : Nat) : List Nat :=
  whileBelow (fun i => [i - 1, i]) 1 (base + n) n (base + 1)

def addPoints (base n : Nat) : List Nat :=
  whileBelow (fun i => [i]) 1 (base + n) n base

def primitiveTable : GxDrawMode → Nat → Nat → List Nat
  | .quads | .quads2 => addQuads
  | .triangles => addList
  | .triangleStrip => addStrip
  | .triangleFan => addFan
  | .lines => addLineList
  | .lineStrip => addLineStrip
  | .points => addPoints

end IndexGenerator

/-! ## the vertex manager -/

def roundUpPow2 (x : BitVec 32) : BitVec 32 :=
  let b2 (x : BitVec 32) := x ||| x >>> 1
  let b4 (x : BitVec 32) := b2 x ||| b2 x >>> 2
  let b8 (x : BitVec 32) := b4 x ||| b4 x >>> 4
  let b16 (x : BitVec 32) := b8 x ||| b8 x >>> 8
  let b32 (x : BitVec 32) := b16 x ||| b16 x >>> 16
  b32 (x - 1) + 1

def largestPossibleVertex : Nat := 4 * 45 + 4 * 2
def maxPrimitivesPerCommand : Nat := 65535

def maxVBufferSize : Nat :=
  (roundUpPow2 (BitVec.ofNat 32 (maxPrimitivesPerCommand * largestPossibleVertex))).toNat

def maxIBufferSize : Nat := (roundUpPow2 (BitVec.ofNat 32 (maxPrimitivesPerCommand * 3))).toNat

/-- The state of `IndexGenerator` and `VertexManagerBase`: the indices since the buffer was
allocated, the vertices they are for, and the room left for vertices. -/
structure VertexManager where
  indices : List (BitVec 16)
  baseIndex : Nat
  currentPrimitiveType : PrimitiveType
  isFlushed : Bool
  remainingSize : Nat

namespace VertexManager

/-- What the manager begins with. -/
def init : VertexManager := ⟨[], 0, .points, true, 0⟩

/-- `IndexGenerator::GetRemainingIndices`, an unsigned difference. -/
def remainingIndices (m : VertexManager) : Nat := (65534 + 2 ^ 32 - m.baseIndex % 2 ^ 32) % 2 ^ 32

/-- `GetRemainingIndices`: the vertices of a primitive for which there is room. -/
def remainingFor (m : VertexManager) (primitive : GxDrawMode) : Nat :=
  let indexLen := (maxIBufferSize + 2 ^ 32 - m.indices.length % 2 ^ 32) % 2 ^ 32
  match primitive with
  | .triangleStrip | .triangleFan => indexLen / 3 + 2
  | .quads | .quads2 => indexLen / 6 * 4
  | .lineStrip => indexLen / 2 + 1
  | .triangles | .lines | .points => indexLen

/-- Whether `PrepareForAdditionalData` asks for a flush. -/
def NeedsFlush (m : VertexManager) (primitive : GxDrawMode) (count stride : Nat) : Prop :=
  count > min m.remainingIndices (m.remainingFor primitive) ∨
    (count * stride + 4) % 2 ^ 32 > m.remainingSize ∨
    m.currentPrimitiveType ≠ primitiveFromGx primitive

instance (m : VertexManager) (primitive : GxDrawMode) (count stride : Nat) :
    Decidable (m.NeedsFlush primitive count stride) := by
  unfold NeedsFlush
  infer_instance

def flush (m : VertexManager) : VertexManager := { m with isFlushed := true }

def resetBuffer (m : VertexManager) : VertexManager :=
  { m with indices := [], baseIndex := 0, remainingSize := maxVBufferSize }

def prepareForAdditionalData (m : VertexManager) (primitive : GxDrawMode) (count stride : Nat) :
    VertexManager :=
  let m := if m.NeedsFlush primitive count stride then m.flush else m
  let m := { m with currentPrimitiveType := primitiveFromGx primitive }
  if m.isFlushed then { m.resetBuffer with isFlushed := false } else m

def addIndices (m : VertexManager) (primitive : GxDrawMode) (n : Nat) : VertexManager :=
  { m with
    indices := m.indices ++
      (IndexGenerator.primitiveTable primitive m.baseIndex n).map (BitVec.ofNat 16)
    baseIndex := m.baseIndex + n }

def incCurrentBufferPointer (m : VertexManager) (size : Nat) : VertexManager :=
  { m with remainingSize := m.remainingSize - size }

end VertexManager

/-! ## what the indices are to be -/

/-- The vertices of the primitives that `n` vertices make, as the hardware draws them. -/
def decompose (primitive : GxDrawMode) (n : Nat) : List Nat :=
  match primitive with
  | .quads | .quads2 =>
    (List.range (n / 4)).flatMap
        (fun k => [4 * k, 4 * k + 1, 4 * k + 2, 4 * k, 4 * k + 2, 4 * k + 3]) ++
      if n % 4 = 3 then [n - 3, n - 2, n - 1] else []
  | .triangles => (List.range (n / 3)).flatMap fun k => [3 * k, 3 * k + 1, 3 * k + 2]
  | .triangleStrip =>
    (List.range (n - 2)).flatMap fun k => if k % 2 = 0 then [k, k + 1, k + 2] else [k, k + 2, k + 1]
  | .triangleFan => (List.range (n - 2)).flatMap fun k => [0, k + 1, k + 2]
  | .lines => (List.range (n / 2)).flatMap fun k => [2 * k, 2 * k + 1]
  | .lineStrip => (List.range (n - 1)).flatMap fun k => [k, k + 1]
  | .points => List.range n

/-- The indices of draws whose vertices stand one behind the other from `base` on. -/
def decomposeAll (base : Nat) : List (GxDrawMode × Nat) → List Nat
  | [] => []
  | (primitive, n) :: draws =>
    (decompose primitive n).map (base + ·) ++ decomposeAll (base + n) draws

namespace IndexGenerator

theorem range_succ_flatMap (c : Nat) (f : Nat → List Nat) :
    (List.range (c + 1)).flatMap f = f 0 ++ (List.range c).flatMap fun k => f (k + 1) := by
  simp [List.range_succ_eq_map, List.flatMap_map]

theorem whileBelow_eq (write : Nat → List Nat) (inc top : Nat) : ∀ {c fuel i : Nat}, c ≤ fuel →
    (∀ k, k < c ↔ i + k * inc < top) →
    whileBelow write inc top fuel i = (List.range c).flatMap fun k => write (i + k * inc)
  | 0, fuel, i, _, hc => by
    have hlt : ¬i < top := by simpa using hc 0
    cases fuel <;> simp [whileBelow, hlt]
  | c + 1, 0, i, hfuel, _ => by omega
  | c + 1, fuel + 1, i, hfuel, hc => by
    have hlt : i < top := by simpa using (hc 0).mp (by omega)
    have hnext : ∀ k, k < c ↔ i + inc + k * inc < top := by
      intro k
      have := hc (k + 1)
      rw [Nat.succ_mul] at this
      omega
    rw [whileBelow, if_pos hlt, whileBelow_eq write inc top (by omega) hnext, range_succ_flatMap]
    simp [Nat.succ_mul, Nat.add_assoc, Nat.add_comm inc]

theorem map_flatMap_congr {c base : Nat} {f g : Nat → List Nat}
    (h : ∀ k < c, f k = (g k).map (base + ·)) :
    (List.range c).flatMap f = ((List.range c).flatMap g).map (base + ·) := by
  rw [List.map_flatMap]
  exact List.flatMap_congr fun k hk => h k (List.mem_range.mp hk)

variable (base n : Nat)

theorem addList_eq : addList base n = (decompose .triangles n).map (base + ·) := by
  rw [addList, whileBelow_eq (c := n / 3) _ _ _ (by omega) (by omega)]
  refine map_flatMap_congr fun k _ => ?_
  simp
  omega

theorem addFan_eq : addFan base n = (decompose .triangleFan n).map (base + ·) := by
  rw [addFan, whileBelow_eq (c := n - 2) _ _ _ (by omega) (by omega)]
  refine map_flatMap_congr fun k _ => ?_
  simp
  omega

theorem addLineList_eq : addLineList base n = (decompose .lines n).map (base + ·) := by
  rw [addLineList, whileBelow_eq (c := n / 2) _ _ _ (by omega) (by omega)]
  refine map_flatMap_congr fun k _ => ?_
  simp
  omega

theorem addLineStrip_eq :
    addLineStrip base n = (decompose .lineStrip n).map (base + ·) := by
  rw [addLineStrip, whileBelow_eq (c := n - 1) _ _ _ (by omega) (by omega)]
  refine map_flatMap_congr fun k _ => ?_
  simp
  omega

theorem addPoints_eq : addPoints base n = (decompose .points n).map (base + ·) := by
  rw [addPoints, whileBelow_eq (c := n) _ _ _ le_rfl (by omega)]
  rw [decompose, List.map_eq_flatMap]
  simp

theorem stripLoop_eq (top : Nat) : ∀ {c n a k : Nat}, c ≤ n → (c = top - (a + 2)) →
    stripLoop top n a (a + 2) (if k % 2 = 0 then 1 else 0) = (List.range c).flatMap fun j =>
        if (k + j) % 2 = 0 then [a + j, a + j + 1, a + j + 2] else [a + j, a + j + 2, a + j + 1]
  | 0, fuel, a, k, _, hc => by
    have hlt : ¬a + 2 < top := by omega
    cases fuel <;> simp [stripLoop, hlt]
  | c + 1, 0, a, k, hfuel, _ => by omega
  | c + 1, fuel + 1, a, k, hfuel, hc => by
    have hlt : a + 2 < top := by omega
    have hwind : (if k % 2 = 0 then 1 else 0) ^^^ 1 = if (k + 1) % 2 = 0 then 1 else 0 := by
      by_cases hk : k % 2 = 0
      · have : ¬(k + 1) % 2 = 0 := by omega
        simp [hk, this]
      · have : (k + 1) % 2 = 0 := by omega
        simp [hk, this]
    have ih := stripLoop_eq top (c := c) (n := fuel) (a := a + 1) (k := k + 1) (by omega) (by omega)
    rw [stripLoop, if_pos hlt, hwind, ih, range_succ_flatMap]
    refine congrArg₂ (· ++ ·) ?_ (List.flatMap_congr fun j _ => ?_)
    · by_cases hk : k % 2 = 0
      · have hk' : ¬(k + 1) % 2 = 0 := by omega
        simp [hk, hk']
      · have hk' : (k + 1) % 2 = 0 := by omega
        simp [hk, hk']
    · have h1 : k + 1 + j = k + (j + 1) := by omega
      have h2 : a + 1 + j = a + (j + 1) := by omega
      rw [h1, h2]

theorem addStrip_eq :
    addStrip base n = (decompose .triangleStrip n).map (base + ·) := by
  have := stripLoop_eq (base + n) (c := n - 2) (n := n) (a := base) (k := 0) (by omega) (by omega)
  rw [addStrip]
  refine this.trans (map_flatMap_congr fun k _ => ?_)
  simp only [Nat.zero_add]
  split <;> simp <;> omega

theorem quadLoop_eq (top : Nat) : ∀ {c fuel i : Nat}, c < fuel → 3 ≤ i →
    (∀ k, k < c ↔ i + 4 * k < top) →
    quadLoop top fuel i = (List.range c).flatMap (fun k =>
        [i + 4 * k - 3, i + 4 * k - 2, i + 4 * k - 1, i + 4 * k - 3, i + 4 * k - 1, i + 4 * k]) ++
      if i + 4 * c = top then [top - 3, top - 2, top - 1] else []
  | 0, 0, i, hfuel, _, _ => by omega
  | 0, fuel + 1, i, _, _, hc => by
    have hlt : ¬i < top := by simpa using hc 0
    simp [quadLoop, hlt]
  | c + 1, 0, i, hfuel, _, _ => by omega
  | c + 1, fuel + 1, i, hfuel, hi, hc => by
    have hlt : i < top := by simpa using (hc 0).mp (by omega)
    have hnext : ∀ k, k < c ↔ i + 4 + 4 * k < top := by
      intro k
      have := hc (k + 1)
      omega
    rw [quadLoop, if_pos hlt, quadLoop_eq top (by omega) (by omega) hnext, range_succ_flatMap]
    have hend : i + 4 + 4 * c = i + 4 * (c + 1) := by omega
    rw [hend, List.append_assoc]
    refine congrArg₂ (· ++ ·) (by simp) (congrArg₂ (· ++ ·) (List.flatMap_congr fun j _ => ?_) rfl)
    have hj : i + 4 + 4 * j = i + 4 * (j + 1) := by omega
    rw [hj]

theorem addQuads_eq : addQuads base n = (decompose .quads n).map (base + ·) := by
  rw [addQuads, quadLoop_eq (c := n / 4) _ (by omega) (by omega) (by omega), decompose, List.map_append]
  refine congrArg₂ (· ++ ·) (map_flatMap_congr fun k _ => ?_) ?_
  · simp
    omega
  · by_cases h : n % 4 = 3
    · have hend : base + 3 + 4 * (n / 4) = base + n := by omega
      simp [h, hend]
      omega
    · have hend : base + 3 + 4 * (n / 4) ≠ base + n := by omega
      simp [h, hend]

theorem primitiveTable_eq (primitive : GxDrawMode) (base n : Nat) :
    primitiveTable primitive base n = (decompose primitive n).map (base + ·) := by
  cases primitive with
  | quads => exact addQuads_eq base n
  | quads2 => exact addQuads_eq base n
  | triangles => exact addList_eq base n
  | triangleStrip => exact addStrip_eq base n
  | triangleFan => exact addFan_eq base n
  | lines => exact addLineList_eq base n
  | lineStrip => exact addLineStrip_eq base n
  | points => exact addPoints_eq base n

end IndexGenerator

/-! ## sizes -/

variable {primitive : GxDrawMode}

theorem lt_of_mem_decompose {n j : Nat} (h : j ∈ decompose primitive n) : j < n := by
  cases primitive <;>
    simp only [decompose, List.mem_append, List.mem_flatMap, List.mem_range, List.mem_cons,
      List.not_mem_nil, or_false] at h
  case quads | quads2 =>
    rcases h with ⟨k, hk, h⟩ | h
    · omega
    · split at h
      · simp only [List.mem_cons, List.not_mem_nil, or_false] at h
        omega
      · cases h
  case triangleStrip =>
    obtain ⟨k, hk, h⟩ := h
    split at h <;> simp only [List.mem_cons, List.not_mem_nil, or_false] at h <;> omega
  case points => exact h
  all_goals
    obtain ⟨k, hk, h⟩ := h
    omega

theorem length_flatMap_range (c b : Nat) (f : Nat → List Nat) (h : ∀ k, (f k).length = b) :
    ((List.range c).flatMap f).length = c * b := by
  simp [List.length_flatMap, h]

theorem length_decompose (primitive : GxDrawMode) (n : Nat) : (decompose primitive n).length =
    match primitive with
    | .quads | .quads2 => n / 4 * 6 + if n % 4 = 3 then 3 else 0
    | .triangles => n / 3 * 3
    | .triangleStrip | .triangleFan => (n - 2) * 3
    | .lines => n / 2 * 2
    | .lineStrip => (n - 1) * 2
    | .points => n := by
  cases primitive <;> simp only [decompose, List.length_append]
  case quads | quads2 =>
    rw [length_flatMap_range _ 6 _ fun _ => rfl]
    split <;> rfl
  case triangles => exact length_flatMap_range _ 3 _ fun _ => rfl
  case triangleStrip =>
    refine length_flatMap_range _ 3 _ fun k => ?_
    split <;> rfl
  case triangleFan => exact length_flatMap_range _ 3 _ fun _ => rfl
  case lines => exact length_flatMap_range _ 2 _ fun _ => rfl
  case lineStrip => exact length_flatMap_range _ 2 _ fun _ => rfl
  case points => exact List.length_range

theorem length_decompose_le (primitive : GxDrawMode) (n : Nat) :
    (decompose primitive n).length ≤ n * 3 := by
  rw [length_decompose]
  cases primitive <;> simp only <;> try split
  all_goals omega

theorem maxIBufferSize_eq : maxIBufferSize = 2 ^ 18 := by decide

theorem length_decompose_le_of_le_remainingFor {m : VertexManager} {n : Nat}
    (hlen : m.indices.length ≤ maxIBufferSize) (h : n ≤ m.remainingFor primitive) :
    m.indices.length + (decompose primitive n).length ≤ maxIBufferSize := by
  rw [length_decompose]
  rw [maxIBufferSize_eq] at hlen ⊢
  have hleft : (2 ^ 18 + 2 ^ 32 - m.indices.length % 2 ^ 32) % 2 ^ 32 = 2 ^ 18 - m.indices.length := by
    omega
  cases primitive <;> simp only [VertexManager.remainingFor, maxIBufferSize_eq, hleft] at h ⊢ <;>
    try split
  all_goals omega

/-! ## sequences of draws -/

theorem decomposeAll_append (base : Nat) (draws : List (GxDrawMode × Nat)) (primitive : GxDrawMode)
    (n : Nat) : decomposeAll base (draws ++ [(primitive, n)]) = decomposeAll base draws ++
      (decompose primitive n).map (base + (draws.map (·.2)).sum + ·) := by
  induction draws generalizing base with
  | nil => simp [decomposeAll]
  | cons d draws ih => simp [decomposeAll, ih, Nat.add_assoc]

/-- The manager, with the draws since the buffer was allocated: the primitive and the number of
vertices that were written. -/
structure Drawing where
  manager : VertexManager
  drawn : List (GxDrawMode × Nat)

/-- What is done to the manager: a flush, or a draw of `count` vertices of which the loader writes
`written`. -/
inductive Action where
  | flush
  | draw (primitive : GxDrawMode) (count written stride : Nat)

/-- The sizes that a draw can have. -/
def Action.Valid : Action → Prop
  | .flush => True
  | .draw _ count written stride =>
    count ≤ maxPrimitivesPerCommand ∧ written ≤ count ∧ stride ≤ largestPossibleVertex

namespace Drawing

/-- What a draw begins with. -/
def init : Drawing := ⟨.init, []⟩

/-- Whether a draw gets a new buffer. -/
def Resets (d : Drawing) (primitive : GxDrawMode) (count stride : Nat) : Prop :=
  d.manager.isFlushed = true ∨ d.manager.NeedsFlush primitive count stride

instance (d : Drawing) (primitive : GxDrawMode) (count stride : Nat) :
    Decidable (d.Resets primitive count stride) := by
  unfold Resets
  infer_instance

def step (d : Drawing) : Action → Drawing
  | .flush => { d with manager := d.manager.flush }
  | .draw primitive count written stride =>
    { manager := ((d.manager.prepareForAdditionalData primitive count stride).addIndices primitive
        written).incCurrentBufferPointer (stride * written)
      drawn := (if d.Resets primitive count stride then [] else d.drawn) ++ [(primitive, written)] }

def run (actions : List Action) : Drawing := actions.foldl step init

/-- The vertices since the buffer was allocated. -/
def vertices (d : Drawing) : Nat := (d.drawn.map (·.2)).sum

/-- The indices fit the buffer, are those of the draws, below the restart value, and of vertices
of their own draw. -/
structure Right (d : Drawing) : Prop where
  length_le : d.manager.indices.length ≤ maxIBufferSize
  indices_eq : d.manager.indices.map (·.toNat) = decomposeAll 0 d.drawn
  lt_restart : ∀ i ∈ d.manager.indices, i.toNat < 65535
  own : ∀ draw ∈ d.drawn, ∀ j ∈ decompose draw.1 draw.2, j < draw.2

/-- A draw that is put behind others finds fewer than 65535 vertices, or gives no index. -/
def Admissible (d : Drawing) : Action → Prop
  | .flush => True
  | .draw primitive count written stride =>
    d.Resets primitive count stride ∨ d.vertices < 65535 ∨ decompose primitive written = []

/-- The indices are right and the next vertex is counted rightly. -/
structure Counted (d : Drawing) : Prop extends Right d where
  baseIndex : d.manager.baseIndex = d.vertices

theorem counted_init : Counted init where
  length_le := Nat.zero_le _
  indices_eq := rfl
  lt_restart := by simp [init, VertexManager.init]
  own := by simp [init]
  baseIndex := rfl

theorem map_toNat_ofNat {l : List Nat} (h : ∀ j ∈ l, j < 65535) :
    (l.map (BitVec.ofNat 16)).map (·.toNat) = l := by
  rw [List.map_map]
  refine (List.map_congr_left fun j hj => ?_).trans (List.map_id l)
  have := h j hj
  simp
  omega

theorem Counted.append {m : VertexManager} {drawn : List (GxDrawMode × Nat)} {n : Nat}
    (h : Counted ⟨m, drawn⟩) (size : Nat)
    (hlt : ∀ j ∈ decompose primitive n, m.baseIndex + j < 65535)
    (hlen : m.indices.length + (decompose primitive n).length ≤ maxIBufferSize) :
    Counted ⟨(m.addIndices primitive n).incCurrentBufferPointer size, drawn ++ [(primitive, n)]⟩ := by
  have hbase : m.baseIndex = (drawn.map (·.2)).sum := h.baseIndex
  have hnew : ∀ j ∈ (decompose primitive n).map (m.baseIndex + ·), j < 65535 := by simpa using hlt
  refine ⟨⟨?_, ?_, ?_, ?_⟩, ?_⟩
  · simpa [VertexManager.incCurrentBufferPointer, VertexManager.addIndices,
      IndexGenerator.primitiveTable_eq] using hlen
  · simp only [VertexManager.incCurrentBufferPointer, VertexManager.addIndices,
      IndexGenerator.primitiveTable_eq, List.map_append, map_toNat_ofNat hnew, decomposeAll_append]
    rw [h.indices_eq, hbase, Nat.zero_add]
  · intro i hi
    rcases List.mem_append.mp hi with hi | hi
    · exact h.lt_restart i hi
    · rw [IndexGenerator.primitiveTable_eq] at hi
      obtain ⟨j, hj, rfl⟩ := List.mem_map.mp hi
      have := hnew j hj
      simp
      omega
  · intro draw hdraw
    rcases List.mem_append.mp hdraw with hdraw | hdraw
    · exact h.own draw hdraw
    · obtain rfl := List.mem_singleton.mp hdraw
      exact fun j hj => lt_of_mem_decompose hj
  · simp [VertexManager.incCurrentBufferPointer, VertexManager.addIndices, vertices, hbase]

variable {d : Drawing} {count stride : Nat}

theorem prepare_of_resets (h : d.Resets primitive count stride) :
    (d.manager.prepareForAdditionalData primitive count stride).indices = [] ∧
      (d.manager.prepareForAdditionalData primitive count stride).baseIndex = 0 := by
  unfold VertexManager.prepareForAdditionalData
  rcases h with h | h
  · split <;> simp [VertexManager.flush, VertexManager.resetBuffer, h]
  · simp [VertexManager.flush, VertexManager.resetBuffer, h]

theorem prepare_of_not_resets (h : ¬d.Resets primitive count stride) :
    (d.manager.prepareForAdditionalData primitive count stride).indices = d.manager.indices ∧
      (d.manager.prepareForAdditionalData primitive count stride).baseIndex = d.manager.baseIndex := by
  obtain ⟨hflushed, hneeds⟩ := not_or.mp h
  simp [VertexManager.prepareForAdditionalData, hneeds, hflushed]

theorem le_of_not_resets (h : ¬d.Resets primitive count stride) :
    count ≤ d.manager.remainingIndices ∧ count ≤ d.manager.remainingFor primitive := by
  obtain ⟨-, hneeds⟩ := not_or.mp h
  have := (not_or.mp hneeds).1
  omega

theorem Counted.step {a : Action} (hd : Counted d) (ha : a.Valid) (hok : d.Admissible a) :
    Counted (d.step a) := by
  cases a with
  | flush => exact ⟨⟨hd.length_le, hd.indices_eq, hd.lt_restart, hd.own⟩, hd.baseIndex⟩
  | draw primitive count written stride =>
    obtain ⟨hcount, hwritten, -⟩ := ha
    unfold maxPrimitivesPerCommand at hcount
    have hlength := length_decompose_le primitive written
    simp only [Drawing.step]
    by_cases hresets : d.Resets primitive count stride
    · obtain ⟨hindices, hbase⟩ := prepare_of_resets hresets
      rw [if_pos hresets]
      refine Counted.append ⟨⟨?_, ?_, ?_, ?_⟩, ?_⟩ _ (fun j hj => ?_) ?_
      · simp [hindices]
      · simp [hindices, decomposeAll]
      · simp [hindices]
      · simp
      · simp [hbase, vertices]
      · have := lt_of_mem_decompose hj
        omega
      · rw [hindices, maxIBufferSize_eq, List.length_nil]
        omega
    · obtain ⟨hindices, hbase⟩ := prepare_of_not_resets hresets
      obtain ⟨hroom, hroom'⟩ := le_of_not_resets hresets
      rw [if_neg hresets]
      refine Counted.append (m := d.manager.prepareForAdditionalData primitive count stride)
        ⟨⟨?_, ?_, ?_, hd.own⟩, ?_⟩ _ (fun j hj => ?_) ?_
      · simpa only [hindices] using hd.length_le
      · simpa only [hindices] using hd.indices_eq
      · simpa only [hindices] using hd.lt_restart
      · exact hbase.trans hd.baseIndex
      · rcases hok with hok | hok | hok
        · exact absurd hok hresets
        · have := lt_of_mem_decompose hj
          rw [← hd.baseIndex] at hok
          unfold VertexManager.remainingIndices at hroom
          rw [hbase]
          omega
        · simp [hok] at hj
      · rw [hindices]
        exact length_decompose_le_of_le_remainingFor hd.length_le (hwritten.trans hroom')

theorem Right.admissible {a : Action} (h : Right (d.step a)) : d.Admissible a := by
  cases a with
  | flush => trivial
  | draw primitive count written stride =>
    by_contra hok
    obtain ⟨hresets, hok⟩ := not_or.mp hok
    obtain ⟨hfull, hsome⟩ := not_or.mp hok
    obtain ⟨j, hj⟩ := List.exists_mem_of_ne_nil _ hsome
    have hdrawn : (d.step (.draw primitive count written stride)).drawn =
        d.drawn ++ [(primitive, written)] := by simp [Drawing.step, hresets]
    have heq := h.indices_eq
    rw [hdrawn, decomposeAll_append, Nat.zero_add] at heq
    have hmem : d.vertices + j ∈ (d.step (.draw primitive count written stride)).manager.indices.map
        (·.toNat) := by
      rw [heq]
      exact List.mem_append_right _ (List.mem_map.mpr ⟨j, hj, rfl⟩)
    obtain ⟨i, hi, hij⟩ := List.mem_map.mp hmem
    have := h.lt_restart i hi
    omega

theorem run_append (actions : List Action) (a : Action) : run (actions ++ [a]) = (run actions).step a := by
  simp [run]

/-- After every part of a sequence of draws the indices are right, exactly when every draw is
admissible where it comes. -/
theorem right_iff (actions : List Action) (hvalid : ∀ a ∈ actions, a.Valid) :
    (∀ before, before <+: actions → Right (run before)) ↔
      ∀ before a, before ++ [a] <+: actions → (run before).Admissible a := by
  refine prefixes_iff (I := fun before => Counted (run before)) counted_init
    (fun _ h => h.toRight) (fun before a hmem h hok => ?_) (fun before a _ _ hright => ?_)
  · rw [run_append]
    exact h.step (hvalid a hmem) hok
  · rw [run_append] at hright
    exact hright.admissible

/-- A strip and a quad of one buffer. -/
theorem right_iff_strip_quad :
    let actions := [.draw .triangleStrip 5 5 24, .draw .quads 4 4 24]
    (∀ before, before <+: actions → Right (run before)) ↔
      ∀ before a, before ++ [a] <+: actions → (run before).Admissible a :=
  right_iff _ (by simp [Action.Valid, maxPrimitivesPerCommand, largestPossibleVertex])

/-- After a draw of 65535 points one more point is put behind them. -/
theorem point_behind_65535 : ¬∀ actions, (∀ a ∈ actions, a.Valid) → Right (run actions) := by
  intro h
  have hright := h [.draw .points 65535 65535 12, .draw .points 1 1 12]
    (by simp [Action.Valid, maxPrimitivesPerCommand, largestPossibleVertex])
  have hadmissible : (run [.draw .points 65535 65535 12]).Admissible (.draw .points 1 1 12) :=
    Right.admissible hright
  have hrun : run [.draw .points 65535 65535 12] =
      ⟨⟨(IndexGenerator.primitiveTable .points 0 65535).map (BitVec.ofNat 16), 65535, .points, false,
        maxVBufferSize - 12 * 65535⟩, [(.points, 65535)]⟩ := by
    simp [run, step, init, VertexManager.init, Resets, VertexManager.prepareForAdditionalData,
      VertexManager.resetBuffer, VertexManager.addIndices, VertexManager.incCurrentBufferPointer,
      VertexManager.flush, primitiveFromGx]
  have hlength : ((IndexGenerator.primitiveTable .points 0 65535).map (BitVec.ofNat 16)).length =
      65535 := by
    rw [List.length_map, IndexGenerator.primitiveTable_eq, List.length_map, length_decompose]
  have hsize : maxVBufferSize = 2 ^ 24 := by decide
  rw [hrun] at hadmissible
  simp only [Admissible, Resets, VertexManager.NeedsFlush, VertexManager.remainingIndices,
    VertexManager.remainingFor, vertices, hlength, hsize, maxIBufferSize_eq, primitiveFromGx,
    decompose] at hadmissible
  simp at hadmissible

end Drawing

end DolphinCore.GX
