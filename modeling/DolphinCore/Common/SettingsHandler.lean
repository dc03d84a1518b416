import Mathlib.Logic.Function.Iterate
import DolphinCore.Lib.StdString

/-!
# DolphinCore.Common.SettingsHandler

`SettingsHandler` of `Common/SettingsHandler.cpp`: a text of `key=value` lines that is
written to a buffer of 256 bytes under a rotating key, and read back from it.
-/

namespace DolphinCore.Common

open StdString

abbrev settingsSize : Nat := 0x100

def initialSeed : BitVec 32 := 0x73B5DBFA

/-- `"\r\n"` -/
def delim : List Byte := [13#8, 10#8]

structure SettingsHandler where
  buffer : Vector Byte settingsSize
  position : Nat
  key : BitVec 32
  decoded : List Byte

namespace SettingsHandler

def reset : SettingsHandler where
  decoded := []
  position := 0
  key := initialSeed
  buffer := Vector.replicate settingsSize 0

/-- The key for the next byte. -/
def nextKey (key : BitVec 32) : BitVec 32 := (key >>> 31) ||| (key <<< 1)

def writeByte (h : SettingsHandler) (b : Byte) : SettingsHandler :=
  if settingsSize ≤ h.position then h
  else
    { h with
      buffer := h.buffer.setIfInBounds h.position ((b.setWidth 32 ^^^ h.key).setWidth 8)
      position := h.position + 1
      key := nextKey h.key }

def addSetting (h : SettingsHandler) (key value : List Byte) : SettingsHandler :=
  let h := key.foldl writeByte h
  let h := writeByte h 0x3d#8
  let h := value.foldl writeByte h
  let h := writeByte h 13#8
  writeByte h 10#8

/-- The loop of `Decrypt`, with `str` at an index of the buffer; `none` if it reads a byte
behind the buffer. -/
def decryptLoop : Nat → Nat → SettingsHandler → Option SettingsHandler
  | 0, _, _ => none
  | fuel + 1, str, h =>
    match h.buffer[str]? with
    | none => none
    | some c =>
      if c = 0 then some h
      else
        match h.buffer[h.position]? with
        | none => some h
        | some b =>
          decryptLoop fuel (str + 1)
            { h with
              decoded := h.decoded ++ [(b.setWidth 32 ^^^ h.key).setWidth 8]
              position := h.position + 1
              key := nextKey h.key }

/-- `Decrypt`; `str` can be at 257 places at most. -/
def decrypt (h : SettingsHandler) : Option SettingsHandler := decryptLoop (settingsSize + 1) 0 h

/-- `Save`: the bytes of the file. -/
def save (h : SettingsHandler) : List Byte := h.buffer.toList

/-- `Open`, and what it returns. -/
def openFile (file : List Byte) : Option (Bool × SettingsHandler) :=
  let h := { reset with buffer := Vector.ofFn fun i => file.getD i 0 }
  if file.length < settingsSize then some (false, h)
  else (decrypt h).map fun h => (true, h)

/-- The value that starts at a position of the text; positions are 64-bit numbers. -/
def valueAt (decoded : List Byte) (start : Nat) : List Byte :=
  let delimFound := (find decoded delim start).getD (decoded.length - 1)
  substr decoded start ((2 ^ 64 + delimFound - start) % 2 ^ 64)

def getValue (h : SettingsHandler) (key : List Byte) : List Byte :=
  let toFind := delim ++ key ++ [0x3d#8]
  match find h.decoded toFind 0 with
  | some found => valueAt h.decoded (found + toFind.length)
  | none =>
    let toFind := key ++ [0x3d#8]
    match find h.decoded toFind 0 with
    | some 0 => valueAt h.decoded (0 + toFind.length)
    | _ => []

/-! ## the cipher -/

/-- The key of the byte at a position. -/
def keyAt (i : Nat) : BitVec 32 := nextKey^[i] initialSeed

/-- The byte the key of a position turns into zero. -/
def keyByte (i : Nat) : Byte := (keyAt i).setWidth 8

/-- The bytes of a text, from a position on. -/
def cipher : Nat → List Byte → List Byte
  | _, [] => []
  | i, b :: bs => (b ^^^ keyByte i) :: cipher (i + 1) bs

theorem keyAt_succ (i : Nat) : keyAt (i + 1) = nextKey (keyAt i) :=
  Function.iterate_succ_apply' _ _ _

theorem setWidth_xor_keyAt (b : Byte) (i : Nat) :
    (b.setWidth 32 ^^^ keyAt i).setWidth 8 = b ^^^ keyByte i := by
  rw [BitVec.setWidth_xor, BitVec.setWidth_setWidth_of_le _ (by decide), BitVec.setWidth_eq, keyByte]

@[simp] theorem length_cipher : (i : Nat) → (t : List Byte) → (cipher i t).length = t.length
  | _, [] => rfl
  | i, b :: t => by rw [cipher, List.length_cons, length_cipher (i + 1) t, List.length_cons]

theorem cipher_append : (i : Nat) → (t u : List Byte) →
    cipher i (t ++ u) = cipher i t ++ cipher (i + t.length) u
  | _, [], _ => rfl
  | i, b :: t, u => by
    rw [List.cons_append, cipher, cipher, cipher_append (i + 1) t u, List.length_cons,
      List.cons_append, Nat.add_right_comm, Nat.add_assoc]

/-! ## writing -/

/-- The text has been written to the buffer. -/
structure Written (h : SettingsHandler) (t : List Byte) : Prop where
  buffer : h.buffer.toList = cipher 0 t ++ List.replicate (settingsSize - t.length) 0
  position : h.position = t.length
  key : h.key = keyAt t.length

theorem Written.reset : Written reset [] := ⟨rfl, rfl, rfl⟩

theorem Written.writeByte {h : SettingsHandler} {t : List Byte} (hw : Written h t) (b : Byte)
    (ht : t.length < settingsSize) : Written (writeByte h b) (t ++ [b]) := by
  have hpos : ¬settingsSize ≤ h.position := by
    rw [hw.position]
    omega
  have hrep : settingsSize - t.length = (settingsSize - (t ++ [b]).length) + 1 := by
    rw [List.length_append, List.length_singleton]
    omega
  rw [SettingsHandler.writeByte, if_neg hpos]
  constructor
  · rw [Vector.toList_setIfInBounds, hw.buffer, hw.position, hw.key, setWidth_xor_keyAt,
      cipher_append, Nat.zero_add, hrep, List.replicate_succ, List.append_assoc]
    rw [← length_cipher 0 t, List.set_append_right _ _ (Nat.le_refl _), Nat.sub_self]
    rfl
  · rw [hw.position, List.length_append, List.length_singleton]
  · rw [hw.key, List.length_append, List.length_singleton, keyAt_succ]

theorem Written.foldl {h : SettingsHandler} {t : List Byte} (hw : Written h t) : (u : List Byte) →
    t.length + u.length ≤ settingsSize → Written (u.foldl SettingsHandler.writeByte h) (t ++ u)
  | [], _ => by rwa [List.append_nil]
  | b :: u, hlen => by
    rw [List.length_cons] at hlen
    have hb := hw.writeByte b (by omega)
    have h := hb.foldl u (by rw [List.length_append, List.length_singleton]; omega)
    rwa [List.append_assoc, List.singleton_append] at h

/-- The line of a setting. -/
def line (key value : List Byte) : List Byte := key ++ 0x3d#8 :: (value ++ delim)

theorem addSetting_eq_foldl (h : SettingsHandler) (key value : List Byte) :
    h.addSetting key value = (line key value).foldl SettingsHandler.writeByte h := by
  rw [line, List.foldl_append, List.foldl_cons, List.foldl_append]
  rfl

/-- The text of a list of settings. -/
def text (settings : List (List Byte × List Byte)) : List Byte :=
  settings.flatMap fun s => line s.1 s.2

/-- All settings, added to a fresh buffer. -/
def addSettings (settings : List (List Byte × List Byte)) : SettingsHandler :=
  settings.foldl (fun h s => h.addSetting s.1 s.2) reset

theorem Written.addSettings (settings : List (List Byte × List Byte))
    (hlen : (text settings).length ≤ settingsSize) :
    Written (addSettings settings) (text settings) := by
  have hfold : ∀ (ss : List (List Byte × List Byte)) (h : SettingsHandler),
      ss.foldl (fun h s => h.addSetting s.1 s.2) h = (text ss).foldl SettingsHandler.writeByte h := by
    intro ss
    induction ss with
    | nil => exact fun _ => rfl
    | cons s ss ih =>
      intro h
      rw [List.foldl_cons, ih, addSetting_eq_foldl, text, text, List.flatMap_cons,
        List.foldl_append]
  rw [SettingsHandler.addSettings, hfold]
  have h := Written.reset.foldl (text settings) (by simpa using hlen)
  rwa [List.nil_append] at h

/-! ## reading -/

/-- The buffer holds a text, `p` of which has been read. -/
structure Reading (h : SettingsHandler) (t p : List Byte) : Prop where
  buffer : h.buffer.toList = cipher 0 t ++ List.replicate (settingsSize - t.length) 0
  position : h.position = p.length
  key : h.key = keyAt p.length
  decoded : h.decoded = p

theorem openFile_save {h : SettingsHandler} {t : List Byte} (hw : Written h t) :
    ∃ h', Reading h' t [] ∧ openFile (save h) = (decrypt h').map fun h => (true, h) := by
  refine ⟨{ reset with buffer := h.buffer }, ⟨hw.buffer, rfl, rfl, rfl⟩, ?_⟩
  have hbuf : (Vector.ofFn fun i : Fin settingsSize => (save h).getD i 0) = h.buffer := by
    apply Vector.ext
    intro i hi
    simp [save, List.getD_eq_getElem?_getD]
  have hlen : ¬(save h).length < settingsSize := by
    rw [save, Vector.length_toList]
    exact Nat.lt_irrefl _
  rw [openFile]
  rw [hbuf, if_neg hlen]

theorem Reading.getElem? {h : SettingsHandler} {p r : List Byte} (hr : Reading h (p ++ r) p) :
    h.buffer[p.length]? = (cipher p.length r ++ List.replicate (settingsSize - (p ++ r).length) 0)[0]? := by
  rw [← Vector.getElem?_toList, hr.buffer, cipher_append, Nat.zero_add, List.append_assoc,
    ← length_cipher 0 p, List.getElem?_append_right (Nat.le_refl _), Nat.sub_self]

/-- Reading gives the text if no byte of it is zero under its key, and there is a zero byte
behind it. -/
theorem decryptLoop_iff : (r p : List Byte) → (fuel : Nat) → (h : SettingsHandler) →
    Reading h (p ++ r) p → r.length < fuel → (p ++ r).length ≤ settingsSize →
    ((∃ h', decryptLoop fuel p.length h = some h' ∧ h'.decoded = p ++ r) ↔
      (∀ i b, r[i]? = some b → b ≠ keyByte (p.length + i)) ∧ (p ++ r).length < settingsSize)
  | _, _, 0, _, _, hf, _ => absurd hf (Nat.not_lt_zero _)
  | [], p, fuel + 1, h, hr, _, hlen => by
    have hget := hr.getElem?
    rw [List.append_nil] at hlen hget ⊢
    rw [decryptLoop, hget]
    obtain hlt | heq := Nat.lt_or_eq_of_le hlen
    · have hrep : (cipher p.length [] ++ List.replicate (settingsSize - p.length) 0)[0]? =
          some (0 : Byte) := by
        rw [cipher, List.nil_append, List.getElem?_replicate, if_pos (by omega)]
      rw [hrep]
      simp [hr.decoded, hlt]
    · have hrep : (cipher p.length [] ++ List.replicate (settingsSize - p.length) 0)[0]? =
          (none : Option Byte) := by
        simp [cipher, heq]
      simp [heq]
  | b :: r, p, fuel + 1, h, hr, hf, hlen => by
    have hget := hr.getElem?
    rw [cipher, List.cons_append, List.getElem?_cons_zero] at hget
    rw [decryptLoop, hget]
    dsimp only
    by_cases hb : b = keyByte p.length
    · -- the byte is taken for the end of the text
      have hzero : b ^^^ keyByte p.length = 0 := by
        rw [hb, BitVec.xor_self]
        rfl
      rw [if_pos hzero]
      constructor
      · rintro ⟨h', heq, hdec⟩
        cases heq
        rw [hr.decoded] at hdec
        simp at hdec
      · rintro ⟨hall, _⟩
        exact absurd hb (hall 0 b rfl)
    · have hne : b ^^^ keyByte p.length ≠ 0 := by
        intro hzero
        exact hb (BitVec.xor_eq_zero_iff.mp hzero)
      rw [if_neg hne, hr.position, hget]
      have hr' : Reading
          { h with
            decoded := h.decoded ++ [((b ^^^ keyByte p.length).setWidth 32 ^^^ h.key).setWidth 8]
            position := p.length + 1
            key := nextKey h.key } ((p ++ [b]) ++ r) (p ++ [b]) := by
        constructor
        · rw [List.append_assoc, List.singleton_append]
          exact hr.buffer
        · rw [List.length_append, List.length_singleton]
        · rw [hr.key, List.length_append, List.length_singleton, keyAt_succ]
        · rw [hr.decoded, hr.key, setWidth_xor_keyAt, BitVec.xor_assoc, BitVec.xor_self]
          simp
      have hf' : r.length < fuel := by simpa using hf
      have ih := decryptLoop_iff r (p ++ [b]) fuel _ hr' hf'
        (by rwa [List.append_assoc, List.singleton_append])
      rw [List.append_assoc, List.singleton_append, List.length_append, List.length_singleton] at ih
      rw [ih]
      apply and_congr_left
      intro _
      constructor
      · intro hall i c hc
        cases i with
        | zero =>
          cases hc
          exact hb
        | succ i =>
          rw [Nat.add_comm i 1, ← Nat.add_assoc]
          exact hall i c hc
      · intro hall i c hc
        have h := hall (i + 1) c hc
        rwa [Nat.add_comm i 1, ← Nat.add_assoc] at h

/-! ## values -/

/-- Printable characters. -/
def Printable (c : Byte) : Prop := 0x20 ≤ c.toNat ∧ c.toNat ≤ 0x7e

/-- Keys and values are printable, and no key has a `'='` in it. -/
def Valid (settings : List (List Byte × List Byte)) : Prop :=
  ∀ s ∈ settings, (∀ c ∈ s.1, Printable c ∧ c ≠ 0x3d#8) ∧ ∀ c ∈ s.2, Printable c

theorem cr_not_mem {l : List Byte} (h : ∀ c ∈ l, Printable c) : 13#8 ∉ l := by
  intro hmem
  have h13 : 0x20 ≤ (13#8).toNat := (h 13 hmem).1
  exact absurd h13 (by decide)

theorem key_isPrefix {r : List Byte} : {k k' : List Byte} → (∀ c ∈ k, c ≠ 0x3d#8) →
    (∀ c ∈ k', c ≠ 0x3d#8) → (k ++ [0x3d#8] <+: k' ++ 0x3d#8 :: r ↔ k = k')
  | [], [], _, _ => by simp
  | [], c :: k', _, hk' => by
    have hc := hk' c (List.mem_cons_self ..)
    simp [Ne.symm hc]
  | c :: k, [], hk, _ => by
    have hc := hk c (List.mem_cons_self ..)
    simp [hc]
  | c :: k, c' :: k', hk, hk' => by
    have ih := key_isPrefix (r := r) (fun c hc => hk c (List.mem_cons_of_mem _ hc))
      fun c hc => hk' c (List.mem_cons_of_mem _ hc)
    rw [List.cons_append, List.cons_append, List.cons_prefix_cons, ih, List.cons.injEq]

/-- The text behind the value of a setting. -/
def tailText (settings : List (List Byte × List Byte)) : List Byte := delim ++ text settings

theorem text_cons (k v : List Byte) (rest : List (List Byte × List Byte)) :
    text ((k, v) :: rest) = (k ++ 0x3d#8 :: v) ++ tailText rest := by
  simp [text, line, tailText]

theorem valueAt_append (p v : List Byte) (rest : List (List Byte × List Byte))
    (hv : 13#8 ∉ v) (hlen : (p ++ (v ++ tailText rest)).length < 2 ^ 64) :
    valueAt (p ++ (v ++ tailText rest)) p.length = v := by
  have hfind : find (p ++ (v ++ tailText rest)) delim p.length = some (p.length + v.length) := by
    rw [find_append]
    have h := search_append_of_not_mem [10#8] (tailText rest) v p.length hv
    rw [show delim = [13#8, 10#8] from rfl, h]
    exact search_of_isPrefix _ (List.prefix_append _ _)
  rw [List.length_append, List.length_append] at hlen
  have hsize : (2 ^ 64 + (p.length + v.length) - p.length) % 2 ^ 64 = v.length := by
    omega
  rw [valueAt, hfind, Option.getD_some, hsize, substr_append]

/-- Where `GetValue` finds a key that is not the first one of the text. -/
theorem search_tailText (K : List Byte) (hK : ∀ c ∈ K, c ≠ 0x3d#8) :
    (rest : List (List Byte × List Byte)) → (i : Nat) → Valid rest →
    match rest.find? (·.1 = K) with
    | some s => ∃ a r, tailText rest = (a ++ (delim ++ K ++ [0x3d#8])) ++ (s.2 ++ tailText r) ∧
        search (delim ++ K ++ [0x3d#8]) (tailText rest) i = some (i + a.length)
    | none => search (delim ++ K ++ [0x3d#8]) (tailText rest) i = none
  | [], i, _ => by
    have hnot : ∀ a : List Byte, a.length < 3 → ¬(delim ++ K ++ [0x3d#8]) <+: a := by
      intro a ha hp
      have hlen := hp.length_le
      simp only [delim, List.length_append, List.length_cons, List.length_nil] at hlen
      omega
    have htail : tailText [] = [13#8, 10#8] := rfl
    rw [htail]
    dsimp only [List.find?_nil]
    rw [search_cons_of_not_isPrefix (hnot _ (by decide)), search_cons_of_not_isPrefix (hnot _ (by decide)),
      search_nil (by simp)]
  | (k, v) :: rest, i, hvalid => by
    obtain ⟨hk, hv⟩ := hvalid (k, v) (List.mem_cons_self ..)
    have hrest : Valid rest := fun s hs => hvalid s (List.mem_cons_of_mem _ hs)
    have htail : tailText ((k, v) :: rest) = 13#8 :: 10#8 :: ((k ++ 0x3d#8 :: v) ++ tailText rest) := by
      rw [tailText, text_cons]
      rfl
    have hpat : delim ++ K ++ [0x3d#8] = 13#8 :: 10#8 :: (K ++ [0x3d#8]) := by
      simp [delim]
    have hfront : 13#8 :: 10#8 :: (K ++ [0x3d#8]) <+: 13#8 :: 10#8 :: ((k ++ 0x3d#8 :: v) ++ tailText rest) ↔
        K = k := by
      rw [List.cons_prefix_cons, List.cons_prefix_cons, List.append_assoc, List.cons_append,
        key_isPrefix hK fun c hc => (hk c hc).2]
      simp
    by_cases hKk : K = k
    · have hfind : ((k, v) :: rest).find? (·.1 = K) = some (k, v) := by
        simp [hKk]
      rw [hfind]
      refine ⟨[], rest, ?_, ?_⟩
      · rw [htail, hpat, hKk]
        simp
      · rw [htail, hpat]
        exact search_of_isPrefix i (hfront.mpr hKk)
    · have hfind : ((k, v) :: rest).find? (·.1 = K) = rest.find? (·.1 = K) := by
        simp [Ne.symm hKk]
      have hcr : 13#8 ∉ 10#8 :: (k ++ 0x3d#8 :: v) := by
        have h1 : 13#8 ∉ k := cr_not_mem fun c hc => (hk c hc).1
        have h2 : 13#8 ∉ v := cr_not_mem hv
        simp [h1, h2]
      have hskip : search (13#8 :: 10#8 :: (K ++ [0x3d#8])) (tailText ((k, v) :: rest)) i =
          search (13#8 :: 10#8 :: (K ++ [0x3d#8])) (tailText rest)
            (i + 1 + (10#8 :: (k ++ 0x3d#8 :: v)).length) := by
        rw [htail, search_cons_of_not_isPrefix fun h => hKk (hfront.mp h)]
        exact search_append_of_not_mem _ _ (10#8 :: (k ++ 0x3d#8 :: v)) _ hcr
      have ih := search_tailText K hK rest (i + 1 + (10#8 :: (k ++ 0x3d#8 :: v)).length) hrest
      rw [hfind, hpat, hskip]
      rw [hpat] at ih
      cases hfound : rest.find? (·.1 = K) with
      | none => simpa only [hfound] using ih
      | some s =>
        simp only [hfound] at ih ⊢
        obtain ⟨a, r, ha, hs⟩ := ih
        refine ⟨13#8 :: 10#8 :: ((k ++ 0x3d#8 :: v) ++ a), r, ?_, ?_⟩
        · rw [htail, ha]
          simp
        · rw [hs]
          simp
          omega

/-- `GetValue` gives the value of a setting that is not the first one, if there is one with
the key, and else that of the first setting. -/
theorem getValue_text {h : SettingsHandler} {k v : List Byte}
    {rest : List (List Byte × List Byte)} (hvalid : Valid ((k, v) :: rest))
    (hlen : (text ((k, v) :: rest)).length < 2 ^ 64) (hdec : h.decoded = text ((k, v) :: rest))
    {K : List Byte} (hK : ∀ c ∈ K, c ≠ 0x3d#8) :
    (∀ s, rest.find? (·.1 = K) = some s → getValue h K = s.2) ∧
      (rest.find? (·.1 = K) = none → K = k → getValue h K = v) := by
  obtain ⟨hk, hv⟩ := hvalid (k, v) (List.mem_cons_self ..)
  have hrest : Valid rest := fun s hs => hvalid s (List.mem_cons_of_mem _ hs)
  have hcr : 13#8 ∉ k ++ 0x3d#8 :: v := by
    have h1 : 13#8 ∉ k := cr_not_mem fun c hc => (hk c hc).1
    have h2 : 13#8 ∉ v := cr_not_mem hv
    simp [h1, h2]
  have htext := text_cons k v rest
  have hsearch := search_tailText K hK rest (k ++ 0x3d#8 :: v).length hrest
  have hfind : find h.decoded (delim ++ K ++ [0x3d#8]) 0 =
      search (delim ++ K ++ [0x3d#8]) (tailText rest) (k ++ 0x3d#8 :: v).length := by
    have h0 := find_append [] (text ((k, v) :: rest)) (delim ++ K ++ [0x3d#8])
    rw [List.nil_append, List.length_nil] at h0
    rw [hdec, h0, htext]
    have hskip := search_append_of_not_mem (10#8 :: (K ++ [0x3d#8])) (tailText rest)
      (k ++ 0x3d#8 :: v) 0 hcr
    rwa [Nat.zero_add] at hskip
  constructor
  · intro s hs
    rw [hs] at hsearch
    obtain ⟨a, r, ha, hat⟩ := hsearch
    have hs2 : 13#8 ∉ s.2 := cr_not_mem (hrest s (List.mem_of_find?_eq_some hs)).2
    have hwhole : h.decoded =
        ((k ++ 0x3d#8 :: v) ++ (a ++ (delim ++ K ++ [0x3d#8]))) ++ (s.2 ++ tailText r) := by
      rw [hdec, htext, ha]
      simp only [List.append_assoc]
    have hstart : (k ++ 0x3d#8 :: v).length + a.length + (delim ++ K ++ [0x3d#8]).length =
        ((k ++ 0x3d#8 :: v) ++ (a ++ (delim ++ K ++ [0x3d#8]))).length := by
      simp only [List.length_append]
      omega
    rw [← hdec, hwhole] at hlen
    rw [getValue]
    rw [hfind, hat]
    dsimp only
    rw [hstart, hwhole]
    exact valueAt_append _ _ _ hs2 hlen
  · rintro hnone rfl
    rw [hnone] at hsearch
    have hfirst : find h.decoded (K ++ [0x3d#8]) 0 = some 0 := by
      have h0 := find_append [] (text ((K, v) :: rest)) (K ++ [0x3d#8])
      rw [List.nil_append, List.length_nil] at h0
      rw [hdec, h0]
      refine search_of_isPrefix 0 ⟨v ++ tailText rest, ?_⟩
      rw [htext]
      simp
    have hwhole : h.decoded = (K ++ [0x3d#8]) ++ (v ++ tailText rest) := by
      rw [hdec, htext]
      simp
    rw [← hdec, hwhole] at hlen
    rw [getValue]
    dsimp only
    rw [hfind, hsearch]
    rw [hfirst]
    rw [Nat.zero_add, hwhole]
    exact valueAt_append _ _ _ (cr_not_mem hv) hlen

/-! ## the round trip -/

/-- The saved settings are opened without reading behind the buffer, the text is the one that
was written, and every key has the value of its first setting. -/
def RoundTrips (settings : List (List Byte × List Byte)) : Prop :=
  ∃ h, openFile (save (addSettings settings)) = some (true, h) ∧ h.decoded = text settings ∧
    ∀ K s, settings.find? (·.1 = K) = some s → h.getValue K = s.2

/-- The text leaves a byte of the buffer free, none of its bytes is the low byte of the key at
its position, and no later setting gives the first key another value. -/
structure Readable (settings : List (List Byte × List Byte)) : Prop where
  shorter : (text settings).length < settingsSize
  nonzero : ∀ i b, (text settings)[i]? = some b → b ≠ keyByte i
  first : ∀ k v rest s, settings = (k, v) :: rest → rest.find? (·.1 = k) = some s → s.2 = v

section

variable {settings : List (List Byte × List Byte)}

theorem length_text_lt (hlen : (text settings).length ≤ settingsSize) :
    (text settings).length < 2 ^ 64 := by
  have h64 : settingsSize < 2 ^ 64 := by decide
  omega

theorem openFile_text_iff (hlen : (text settings).length ≤ settingsSize) :
    (∃ h, openFile (save (addSettings settings)) = some (true, h) ∧ h.decoded = text settings) ↔
      (∀ i b, (text settings)[i]? = some b → b ≠ keyByte i) ∧
        (text settings).length < settingsSize := by
  obtain ⟨h₀, hread, hopen⟩ := openFile_save (Written.addSettings settings hlen)
  have hiff := decryptLoop_iff (text settings) [] (settingsSize + 1) h₀ hread (by omega) hlen
  simp only [List.nil_append, List.length_nil, Nat.zero_add] at hiff
  rw [← hiff, hopen]
  constructor
  · rintro ⟨h, hfile, hdec⟩
    obtain ⟨h', hloop, heq⟩ := Option.map_eq_some_iff.mp hfile
    cases heq
    exact ⟨h, hloop, hdec⟩
  · rintro ⟨h, hloop, hdec⟩
    exact ⟨h, by rw [decrypt, hloop]; rfl, hdec⟩

theorem readable_of_roundTrips (hvalid : Valid settings)
    (hlen : (text settings).length ≤ settingsSize) (hround : RoundTrips settings) :
    Readable settings := by
  obtain ⟨h, hfile, hdec, hget⟩ := hround
  obtain ⟨hnonzero, hshort⟩ := (openFile_text_iff hlen).mp ⟨h, hfile, hdec⟩
  refine ⟨hshort, hnonzero, ?_⟩
  rintro k v rest s rfl hs
  have hk := (hvalid (k, v) (List.mem_cons_self ..)).1
  have hlater := (getValue_text hvalid (length_text_lt hlen) hdec fun c hc => (hk c hc).2).1 s hs
  rw [← hlater]
  exact hget k (k, v) (by simp)

theorem roundTrips_of_readable (hvalid : Valid settings)
    (hlen : (text settings).length ≤ settingsSize) (hread : Readable settings) :
    RoundTrips settings := by
  obtain ⟨h, hfile, hdec⟩ := (openFile_text_iff hlen).mpr ⟨hread.nonzero, hread.shorter⟩
  refine ⟨h, hfile, hdec, ?_⟩
  intro K s hs
  cases settings with
  | nil => cases hs
  | cons kv rest =>
    obtain ⟨k, v⟩ := kv
    have hmem := List.mem_of_find?_eq_some hs
    have hkey : s.1 = K := by simpa using List.find?_some hs
    have hK : ∀ c ∈ K, c ≠ 0x3d#8 := fun c hc => ((hvalid s hmem).1 c (hkey ▸ hc)).2
    obtain ⟨hlater, halone⟩ := getValue_text hvalid (length_text_lt hlen) hdec hK
    by_cases hKk : k = K
    · have hskv : s = (k, v) := by
        simpa [List.find?_cons, hKk] using hs.symm
      subst hskv
      cases hrest : rest.find? (·.1 = K) with
      | none => exact halone hrest hKk.symm
      | some s' =>
        rw [hlater s' hrest]
        exact hread.first k v rest s' rfl (hKk ▸ hrest)
    · have hs' : rest.find? (·.1 = K) = some s := by
        simpa [List.find?_cons, hKk] using hs
      exact hlater s hs'

/-- **When settings are read back.** -/
theorem roundTrips_iff (hvalid : Valid settings)
    (hlen : (text settings).length ≤ settingsSize) : RoundTrips settings ↔ Readable settings :=
  ⟨readable_of_roundTrips hvalid hlen, roundTrips_of_readable hvalid hlen⟩

end

/-- `AREA=USA` -/
theorem roundTrips_iff_area : RoundTrips [([0x41, 0x52, 0x45, 0x41], [0x55, 0x53, 0x41])] := by
  refine (roundTrips_iff ?_ (by decide)).mpr ⟨by decide, ?_, ?_⟩
  · unfold Valid Printable
    decide
  · intro i b hb heq
    have hi := (List.getElem?_eq_some_iff.mp hb).1
    have hall : ∀ i < 10, (text [([0x41, 0x52, 0x45, 0x41], [0x55, 0x53, 0x41])])[i]? ≠
        some (keyByte i) := by decide
    exact hall i hi (heq ▸ hb)
  · rintro k v rest s heq hs
    cases heq
    cases hs

/-- The `N` of `AREA=NZL` stands where the key turns it into zero; a text of 256 bytes leaves
no zero byte to stop at; and the second value of the first key is taken. -/
theorem not_roundTrips : ¬RoundTrips [([0x41, 0x52, 0x45, 0x41], [0x4e, 0x5a, 0x4c])] ∧
      ¬RoundTrips [([0x41], List.replicate 252 0x61)] ∧
      ¬RoundTrips [([0x41], [0x31]), ([0x41], [0x32])] := by
  refine ⟨fun h => ?_, fun h => ?_, fun h => ?_⟩
  · have hread := readable_of_roundTrips (by unfold Valid Printable; decide) (by decide) h
    exact hread.nonzero 5 0x4e rfl (by decide)
  · have hvalid : Valid [([0x41], List.replicate 252 0x61)] := by
      intro s hs
      obtain rfl := List.mem_singleton.mp hs
      refine ⟨by unfold Printable; decide, fun c hc => ?_⟩
      rw [List.eq_of_mem_replicate hc]
      unfold Printable
      decide
    have hlen : (text [([0x41], List.replicate 252 0x61)]).length = settingsSize := by
      decide +kernel
    have hread := readable_of_roundTrips hvalid (Nat.le_of_eq hlen) h
    exact Nat.ne_of_lt hread.shorter hlen
  · have hread := readable_of_roundTrips (by unfold Valid Printable; decide) (by decide) h
    exact absurd (hread.first [0x41] [0x31] [([0x41], [0x32])] _ rfl rfl) (by decide)

end SettingsHandler

end DolphinCore.Common
