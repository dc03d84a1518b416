import DolphinCore.Lib.StdString

/-!
# DolphinCore.Common.NandPaths

`EscapeFileName` and `UnescapeFileName` of `Common/NandPaths.cpp`, over strings of bytes,
with the functions of `Common/StringUtil.cpp` they call.
-/

namespace DolphinCore.Common

open StdString

/-- `'_'` -/
abbrev underscore : Byte := 0x5f

/-! ## StringUtil -/

/-- The loop of `ReplaceAll`. -/
def replaceAllLoop (src dest : List Byte) : Nat → List Byte → Nat → Option (List Byte)
  | 0, _, _ => none
  | fuel + 1, result, pos =>
    match find result src pos with
    | none => some result
    | some pos =>
      replaceAllLoop src dest fuel (replace result pos src.length dest) (pos + dest.length)

/-- `ReplaceAll`; `none` if it does not end, which is so for an empty `src` only. -/
def replaceAll (result src dest : List Byte) : Option (List Byte) :=
  if src = dest then some result else replaceAllLoop src dest (result.length + 1) result 0

/-- The value of a hexadecimal digit. -/
def hexValue (c : Byte) : Option Nat :=
  if 0x30 ≤ c && c ≤ 0x39 then some (c.toNat - 0x30)
  else if 0x41 ≤ c && c ≤ 0x46 then some (c.toNat - 0x41 + 10)
  else if 0x61 ≤ c && c ≤ 0x66 then some (c.toNat - 0x61 + 10)
  else none

/-- The digits at the front of a string: their value, whether there are any, and the rest. -/
def hexDigits (value : Nat) (any : Bool) : List Byte → Nat × Bool × List Byte
  | [] => (value, any, [])
  | c :: cs =>
    match hexValue c with
    | some d => hexDigits (16 * value + d) true cs
    | none => (value, any, c :: cs)

/-- `strtoul` with base 16: the value, whether it is out of range, and the rest of the
string.  Blanks, a sign and `0x` may stand before the digits. -/
def strtoul (s : List Byte) : Nat × Bool × List Byte :=
  let s₁ := s.dropWhile fun c => c = 0x20 || (0x09 ≤ c && c ≤ 0x0d)
  let (negative, s₂) :=
    match s₁ with
    | 0x2b#8 :: r => (false, r)
    | 0x2d#8 :: r => (true, r)
    | _ => (false, s₁)
  let s₃ :=
    match s₂ with
    | 0x30#8 :: x :: d :: r => if (x = 0x78 || x = 0x58) && (hexValue d).isSome then d :: r else s₂
    | _ => s₂
  match hexDigits 0 false s₃ with
  | (_, false, _) => (0, false, s)
  | (value, true, rest) =>
    if 2 ^ 64 ≤ value then (2 ^ 64 - 1, true, rest)
    else (if negative then (2 ^ 64 - value) % 2 ^ 64 else value, false, rest)

/-- `AsciiToHex`; a string is read up to its first zero byte. -/
def asciiToHex (szValue : List Byte) : Option (BitVec 32) :=
  match strtoul (szValue.takeWhile (· ≠ 0)) with
  | (value, erange, endptr) =>
    if endptr ≠ [] then none
    else if erange then none
    else some (BitVec.ofNat 32 value)

/-! ## NandPaths -/

def charsToReplace : List Byte := [0x22, 0x2a, 0x2f, 0x3a, 0x3c, 0x3e, 0x3f, 0x5c, 0x7c, 0x7f]

/-- The condition under which `EscapeFileName` replaces a `char`, which is signed. -/
def needsEscape (c : Byte) : Bool :=
  (0 ≤ c.toInt && c.toInt ≤ 0x1F) || charsToReplace.contains c

def hexDigit (n : Nat) : Byte := if n < 10 then BitVec.ofNat 8 (0x30 + n) else BitVec.ofNat 8 (0x57 + n)

/-- `StringFromFormat("__%02x__", c)` for a character that is not negative. -/
def escapeSequence (c : Byte) : List Byte :=
  [underscore, underscore, hexDigit (c.toNat / 16), hexDigit (c.toNat % 16), underscore, underscore]

/-- `EscapeFileName`; the character `'.'` is `0x2e`. -/
def escapeFileName (filename : List Byte) : Option (List Byte) :=
  if filename.all (· = 0x2e) then replaceAll filename [0x2e] (escapeSequence 0x2e)
  else
    (replaceAll filename [underscore, underscore]
      (escapeSequence underscore ++ escapeSequence underscore)).map fun s =>
        s.flatMap fun c => if needsEscape c then escapeSequence c else [c]

/-- The loop of `UnescapeFileName`. -/
def unescapeLoop : Nat → List Byte → Nat → Option (List Byte)
  | 0, _, _ => none
  | fuel + 1, result, pos =>
    match find result [underscore, underscore] pos with
    | none => some result
    | some pos =>
      let result :=
        if pos + 6 ≤ result.length && result[pos + 4]? = some underscore &&
            result[pos + 5]? = some underscore then
          match asciiToHex (substr result (pos + 2) 2) with
          | some character => replace result pos 6 [character.setWidth 8]
          | none => result
        else result
      unescapeLoop fuel result (pos + 1)

def unescapeFileName (filename : List Byte) : Option (List Byte) :=
  unescapeLoop (filename.length + 1) filename 0

/-! ## the loop of `ReplaceAll` -/

variable {c : Byte} {s : List Byte}

section

variable (src dest : List Byte)

theorem replaceAllLoop_append (p s : List Byte) (fuel : Nat) :
    replaceAllLoop src dest (fuel + 1) (p ++ (src ++ s)) p.length =
      replaceAllLoop src dest fuel ((p ++ dest) ++ s) (p ++ dest).length := by
  rw [replaceAllLoop, find_append, search_of_isPrefix _ (List.prefix_append src s)]
  dsimp only
  rw [replace_append, List.append_assoc, List.length_append]

theorem replaceAllLoop_cons (h : ¬src <+: c :: s) (p : List Byte) (fuel : Nat) :
    replaceAllLoop src dest fuel (p ++ c :: s) p.length =
      replaceAllLoop src dest fuel ((p ++ [c]) ++ s) (p ++ [c]).length := by
  cases fuel with
  | zero => rfl
  | succ fuel =>
    rw [replaceAllLoop, replaceAllLoop, find_append_cons h, List.append_assoc]
    rfl

theorem replaceAllLoop_nil (h : src ≠ []) (p : List Byte) (fuel : Nat) :
    replaceAllLoop src dest (fuel + 1) p p.length = some p := by
  have hfind := find_append p [] src
  rw [List.append_nil, search_nil h] at hfind
  rw [replaceAllLoop, hfind]

end

/-! ## tokens -/

/-- A character of a file name, as it stands in the escaped name. -/
inductive Token
  | lit (c : Byte)
  | esc (c : Byte)

namespace Token

def char : Token → Byte
  | lit c => c
  | esc c => c

def text : Token → List Byte
  | lit c => [c]
  | esc c => escapeSequence c

/-- A character that is not one of a pair of underscores. -/
def ofChar (c : Byte) : Token := if needsEscape c then esc c else lit c

@[simp] theorem char_ofChar (c : Byte) : (ofChar c).char = c := by
  unfold ofChar
  split <;> rfl

theorem eq_of_ofChar_eq_lit {c d : Byte} (h : ofChar c = lit d) :
    c = d ∧ needsEscape c = false := by
  unfold ofChar at h
  split at h
  · cases h
  · next hc =>
    cases h
    exact ⟨rfl, Bool.eq_false_iff.mpr hc⟩

theorem text_ofChar (c : Byte) :
    (ofChar c).text = if needsEscape c then escapeSequence c else [c] := by
  unfold ofChar
  split <;> rfl

end Token

/-- Two underscores side by side. -/
def IsPair (c d : Byte) : Prop := c = underscore ∧ d = underscore

instance : Decidable (IsPair c d) := inferInstanceAs (Decidable (_ ∧ _))

theorem not_isPrefix_pair {c d : Byte} (h : ¬IsPair c d) :
    ¬[underscore, underscore] <+: c :: d :: s := by
  rw [List.cons_prefix_cons, List.cons_prefix_cons]
  exact fun hp => h ⟨hp.1.symm, hp.2.1.symm⟩

theorem not_isPrefix_singleton : ¬[underscore, underscore] <+: [c] :=
  fun h => absurd h.length_le (by simp)

/-- The tokens of a name: pairs of underscores, and other characters. -/
def tokens : List Byte → List Token
  | c :: d :: cs =>
    if IsPair c d then .esc c :: .esc d :: tokens cs
    else .ofChar c :: tokens (d :: cs)
  | [c] => [.ofChar c]
  | [] => []

theorem map_char_tokens : (s : List Byte) → (tokens s).map Token.char = s
  | c :: d :: cs => by
    rw [tokens]
    split
    · simp [map_char_tokens cs, Token.char]
    · simp [map_char_tokens (d :: cs)]
  | [c] => by simp [tokens]
  | [] => rfl

theorem needsEscape_of_lit_mem : {s : List Byte} → .lit c ∈ tokens s → needsEscape c = false
  | a :: b :: s, h => by
    rw [tokens] at h
    split at h
    · simp only [List.mem_cons, reduceCtorEq, false_or] at h
      exact needsEscape_of_lit_mem h
    · obtain h | h := List.mem_cons.mp h
      · obtain ⟨rfl, hc⟩ := Token.eq_of_ofChar_eq_lit h.symm
        exact hc
      · exact needsEscape_of_lit_mem h
  | [a], h => by
    rw [tokens, List.mem_singleton] at h
    obtain ⟨rfl, hc⟩ := Token.eq_of_ofChar_eq_lit h.symm
    exact hc

/-- No two literal underscores stand side by side. -/
def Apart (t u : Token) : Prop := ¬(t = .lit underscore ∧ u = .lit underscore)

theorem head_tokens (d : Byte) (s : List Byte) :
    ∃ t ts, tokens (d :: s) = t :: ts ∧ (t = .lit underscore → d = underscore) := by
  cases s with
  | nil => exact ⟨_, _, rfl, fun h => (Token.eq_of_ofChar_eq_lit h).1⟩
  | cons e s =>
    rw [tokens]
    split
    · exact ⟨_, _, rfl, fun h => by cases h⟩
    · exact ⟨_, _, rfl, fun h => (Token.eq_of_ofChar_eq_lit h).1⟩

theorem isChain_tokens : (s : List Byte) → (tokens s).IsChain Apart
  | c :: d :: s => by
    rw [tokens]
    split
    · have h := isChain_tokens s
      cases hts : tokens s with
      | nil => simp [Apart]
      | cons t ts =>
        rw [hts] at h
        simp [Apart, h]
    · next hpair =>
      obtain ⟨t, ts, hts, hd⟩ := head_tokens d s
      have h := isChain_tokens (d :: s)
      rw [hts] at h ⊢
      refine .cons_cons ?_ h
      rintro ⟨hc, ht⟩
      exact hpair ⟨(Token.eq_of_ofChar_eq_lit hc).1, hd ht⟩
  | [c] => by simp [tokens]
  | [] => .nil

theorem isChain_map_esc : (s : List Byte) → (s.map Token.esc).IsChain Apart
  | c :: d :: s => by
    rw [List.map_cons, List.map_cons, List.isChain_cons_cons]
    exact ⟨fun h => Token.noConfusion h.1, isChain_map_esc (d :: s)⟩
  | [c] => by simp
  | [] => .nil

theorem length_le_text : (ts : List Token) → ts.length ≤ (ts.flatMap Token.text).length
  | [] => Nat.le_refl _
  | t :: ts => by
    have h := length_le_text ts
    have ht : 0 < t.text.length := by cases t <;> exact Nat.succ_pos _
    rw [List.flatMap_cons, List.length_append, List.length_cons]
    omega

/-! ## escaping -/

/-- A pair of underscores stands for two escaped ones. -/
def doubled : List Byte → List Byte
  | c :: d :: cs =>
    if IsPair c d then (escapeSequence c ++ escapeSequence d) ++ doubled cs
    else c :: doubled (d :: cs)
  | [c] => [c]
  | [] => []

theorem replaceAllLoop_doubled : (s p : List Byte) → (fuel : Nat) → s.length < fuel →
    replaceAllLoop [underscore, underscore] (escapeSequence underscore ++ escapeSequence underscore)
      fuel (p ++ s) p.length = some (p ++ doubled s)
  | _, _, 0, h => absurd h (Nat.not_lt_zero _)
  | c :: d :: cs, p, fuel + 1, h => by
    have hlen : cs.length + 1 < fuel := by simpa using h
    rw [doubled]
    split
    · next hpair =>
      obtain ⟨hc, hd⟩ := hpair
      rw [hc, hd]
      have hstep := replaceAllLoop_append [underscore, underscore]
        (escapeSequence underscore ++ escapeSequence underscore) p cs fuel
      rw [List.cons_append, List.cons_append, List.nil_append] at hstep
      rw [hstep, replaceAllLoop_doubled cs _ fuel (by omega), List.append_assoc p]
    · next hpair =>
      rw [replaceAllLoop_cons _ _ (not_isPrefix_pair hpair),
        replaceAllLoop_doubled (d :: cs) _ _ (by rw [List.length_cons]; omega),
        List.append_assoc]
      rfl
  | [c], p, fuel + 1, _ => by
    rw [replaceAllLoop_cons _ _ not_isPrefix_singleton, List.append_nil,
      replaceAllLoop_nil _ _ (List.cons_ne_nil _ _)]
    rfl
  | [], p, fuel + 1, _ => by
    rw [List.append_nil, replaceAllLoop_nil _ _ (List.cons_ne_nil _ _), doubled, List.append_nil]

theorem replaceAllLoop_dots (dest : List Byte) : (s p : List Byte) → (fuel : Nat) →
    (∀ c ∈ s, c = 0x2e) → s.length < fuel →
    replaceAllLoop [0x2e] dest fuel (p ++ s) p.length = some (p ++ s.flatMap fun _ => dest)
  | _, _, 0, _, h => absurd h (Nat.not_lt_zero _)
  | c :: s, p, fuel + 1, hs, h => by
    cases hs c (List.mem_cons_self ..)
    have hlen : s.length < fuel := by simpa using h
    have hstep := replaceAllLoop_append [0x2e] dest p s fuel
    rw [List.cons_append, List.nil_append] at hstep
    rw [hstep, replaceAllLoop_dots dest s _ fuel (fun c hc => hs c (List.mem_cons_of_mem _ hc)) hlen,
      List.append_assoc, List.flatMap_cons]
  | [], p, fuel + 1, _, _ => by
    rw [List.append_nil, replaceAllLoop_nil _ _ (List.cons_ne_nil _ _), List.flatMap_nil,
      List.append_nil]

theorem hexDigit_plain : ∀ n < 16, needsEscape (hexDigit n) = false ∧ hexDigit n ≠ underscore := by
  decide

theorem needsEscape_escapeSequence (c : Byte) : ∀ x ∈ escapeSequence c, needsEscape x = false := by
  have hunderscore : needsEscape underscore = false := by decide
  have hhigh := (hexDigit_plain (c.toNat / 16) (Nat.div_lt_of_lt_mul c.isLt)).1
  have hlow := (hexDigit_plain (c.toNat % 16) (Nat.mod_lt _ (by decide))).1
  simp only [escapeSequence, List.forall_mem_cons, hunderscore, hhigh, hlow, true_and]
  exact fun _ h => absurd h List.not_mem_nil

theorem flatMap_escapeSequence (c : Byte) :
    ((escapeSequence c).flatMap fun c => if needsEscape c then escapeSequence c else [c]) =
      escapeSequence c := by
  have hkeep (l : List Byte) (hl : ∀ x ∈ l, needsEscape x = false) :
      (l.flatMap fun c => if needsEscape c then escapeSequence c else [c]) = l := by
    induction l with
    | nil => rfl
    | cons x l ih =>
      rw [List.flatMap_cons, hl x (List.mem_cons_self ..),
        ih fun y hy => hl y (List.mem_cons_of_mem _ hy)]
      rfl
  exact hkeep _ (needsEscape_escapeSequence c)

theorem flatMap_doubled : (s : List Byte) →
    ((doubled s).flatMap fun c => if needsEscape c then escapeSequence c else [c]) =
      (tokens s).flatMap Token.text
  | c :: d :: cs => by
    rw [doubled, tokens]
    split
    · rw [List.flatMap_append, List.flatMap_append, flatMap_escapeSequence,
        flatMap_escapeSequence, flatMap_doubled cs, List.append_assoc]
      rfl
    · rw [List.flatMap_cons, List.flatMap_cons, flatMap_doubled (d :: cs), Token.text_ofChar]
  | [c] => by
    rw [doubled, tokens, List.flatMap_singleton, List.flatMap_singleton, Token.text_ofChar]
  | [] => rfl

theorem exists_tokens (s : List Byte) : ∃ ts : List Token,
    escapeFileName s = some (ts.flatMap Token.text) ∧ ts.map Token.char = s ∧ ts.IsChain Apart ∧
      (∀ c, .lit c ∈ ts → needsEscape c = false) ∧
      (ts ≠ [] → ∃ t ∈ ts, ∃ x ∈ t.text, x ≠ 0x2e) := by
  unfold escapeFileName
  split
  · next hdots =>
    have hs : ∀ c ∈ s, c = 0x2e := by simpa using hdots
    have hrep := replaceAllLoop_dots (escapeSequence 0x2e) s [] (s.length + 1) hs (Nat.lt_succ_self _)
    rw [List.nil_append, List.nil_append, List.length_nil] at hrep
    refine ⟨s.map .esc, ?_, ?_, ?_, ?_, ?_⟩
    · rw [replaceAll, if_neg (by decide), hrep, List.flatMap_map]
      congr 1
      exact List.flatMap_congr fun c hc => by rw [hs c hc]; rfl
    · rw [List.map_map]
      exact List.map_id _
    · exact isChain_map_esc s
    · simp
    · intro hne
      obtain ⟨t, ht⟩ := List.exists_mem_of_ne_nil _ hne
      obtain ⟨c, _, rfl⟩ := List.mem_map.mp ht
      exact ⟨_, ht, underscore, List.mem_cons_self .., by decide⟩
  · next hdots =>
    have hrep := replaceAllLoop_doubled s [] (s.length + 1) (Nat.lt_succ_self _)
    rw [List.nil_append, List.nil_append, List.length_nil] at hrep
    refine ⟨tokens s, ?_, map_char_tokens s, isChain_tokens s,
      fun c hc => needsEscape_of_lit_mem hc, fun _ => ?_⟩
    · rw [replaceAll, if_neg (by decide), hrep, Option.map_some, flatMap_doubled]
    · have hex : ∃ c ∈ s, c ≠ 0x2e := by simpa using hdots
      obtain ⟨c, hc, hne⟩ := hex
      rw [← map_char_tokens s] at hc
      obtain ⟨t, ht, rfl⟩ := List.mem_map.mp hc
      cases t with
      | lit c => exact ⟨_, ht, c, List.mem_singleton_self c, hne⟩
      | esc c => exact ⟨_, ht, underscore, List.mem_cons_self .., by decide⟩

/-! ## unescaping -/

theorem asciiToHex_hexDigit (c : Byte) :
    asciiToHex [hexDigit (c.toNat / 16), hexDigit (c.toNat % 16)] = some (c.setWidth 32) := by
  decide +revert +kernel

theorem hexDigit_ne_underscore (c : Byte) : hexDigit (c.toNat % 16) ≠ underscore :=
  (hexDigit_plain (c.toNat % 16) (Nat.mod_lt _ (by decide))).2

theorem unescapeLoop_escapeSequence (c : Byte) (p s : List Byte) (fuel : Nat) :
    unescapeLoop (fuel + 1) (p ++ (escapeSequence c ++ s)) p.length =
      unescapeLoop fuel ((p ++ [c]) ++ s) (p ++ [c]).length := by
  have hpre : [underscore, underscore] <+: escapeSequence c ++ s :=
    ⟨escapeSequence c |>.drop 2 |>.append s, rfl⟩
  have hget : ∀ k, (p ++ (escapeSequence c ++ s))[p.length + k]? = (escapeSequence c ++ s)[k]? := by
    intro k
    rw [List.getElem?_append_right (Nat.le_add_right _ _), Nat.add_sub_cancel_left]
  have hdigits : substr (p ++ (escapeSequence c ++ s)) (p.length + 2) 2 =
      [hexDigit (c.toNat / 16), hexDigit (c.toNat % 16)] := by
    have h := substr_append (p ++ [underscore, underscore])
      [hexDigit (c.toNat / 16), hexDigit (c.toNat % 16)] ([underscore, underscore] ++ s)
    rw [List.length_append, List.append_assoc] at h
    exact h
  rw [unescapeLoop, find_append, search_of_isPrefix _ hpre]
  dsimp only
  rw [hget, hget, hdigits, asciiToHex_hexDigit, if_pos]
  · dsimp only
    rw [show 6 = (escapeSequence c).length from rfl, replace_append, BitVec.setWidth_setWidth_of_le _ (by decide),
      BitVec.setWidth_eq, List.append_assoc, List.length_append]
    rfl
  · simp [escapeSequence]

theorem unescapeLoop_cons (h : ¬[underscore, underscore] <+: c :: s) (p : List Byte) (fuel : Nat) :
    unescapeLoop fuel (p ++ c :: s) p.length =
      unescapeLoop fuel ((p ++ [c]) ++ s) (p ++ [c]).length := by
  cases fuel with
  | zero => rfl
  | succ fuel =>
    rw [unescapeLoop, unescapeLoop, find_append_cons h, List.append_assoc]
    rfl

theorem unescapeLoop_underscore (c : Byte) (p s : List Byte) (fuel : Nat) :
    unescapeLoop (fuel + 1) (p ++ underscore :: (escapeSequence c ++ s)) p.length =
      unescapeLoop fuel ((p ++ [underscore]) ++ (escapeSequence c ++ s))
        (p ++ [underscore]).length := by
  have hpre : [underscore, underscore] <+: underscore :: (escapeSequence c ++ s) :=
    ⟨(escapeSequence c ++ s).drop 1, rfl⟩
  have hget : (p ++ underscore :: (escapeSequence c ++ s))[p.length + 4]? =
      some (hexDigit (c.toNat % 16)) := by
    rw [List.getElem?_append_right (Nat.le_add_right _ _), Nat.add_sub_cancel_left]
    rfl
  rw [unescapeLoop, find_append, search_of_isPrefix _ hpre]
  dsimp only
  rw [hget, if_neg, List.append_assoc, List.length_append]
  · rfl
  · have hne : some (hexDigit (c.toNat % 16)) ≠ some underscore :=
      fun h => hexDigit_ne_underscore c (Option.some.inj h)
    simp only [decide_eq_false hne, Bool.and_false, Bool.false_and, Bool.false_eq_true,
      not_false_iff]

theorem unescapeLoop_tokens : (ts : List Token) → (p : List Byte) → (fuel : Nat) →
    ts.IsChain Apart → ts.length < fuel →
    unescapeLoop fuel (p ++ ts.flatMap Token.text) p.length = some (p ++ ts.map Token.char)
  | _, _, 0, _, h => absurd h (Nat.not_lt_zero _)
  | [], p, fuel + 1, _, _ => by
    have hfind := find_append p [] [underscore, underscore]
    rw [List.append_nil, search_nil (List.cons_ne_nil _ _)] at hfind
    rw [List.flatMap_nil, List.append_nil, unescapeLoop, hfind, List.map_nil, List.append_nil]
  | .esc c :: ts, p, fuel + 1, hts, h => by
    rw [List.flatMap_cons, Token.text, unescapeLoop_escapeSequence,
      unescapeLoop_tokens ts _ fuel hts.of_cons (by simpa using h), List.append_assoc]
    rfl
  | .lit c :: ts, p, fuel + 1, hts, h => by
    have hlen : ts.length < fuel := by simpa using h
    rw [List.flatMap_cons, Token.text, List.cons_append, List.nil_append]
    by_cases hpre : [underscore, underscore] <+: c :: ts.flatMap Token.text
    · -- the second underscore of the pair is the first one of an escape sequence
      obtain ⟨rfl, hnext⟩ := List.cons_prefix_cons.mp hpre
      cases ts with
      | nil => exact absurd hnext.length_le (by decide)
      | cons t ts =>
        cases t with
        | lit d =>
          obtain ⟨rfl, _⟩ := List.cons_prefix_cons.mp hnext
          exact absurd ⟨rfl, rfl⟩ (List.isChain_cons_cons.mp hts).1
        | esc d =>
          have ih := unescapeLoop_tokens (.esc d :: ts) (p ++ [underscore]) fuel
            hts.of_cons hlen
          rw [List.flatMap_cons] at ih ⊢
          rw [Token.text] at ih ⊢
          rw [unescapeLoop_underscore, ih, List.append_assoc]
          rfl
    · rw [unescapeLoop_cons hpre,
        unescapeLoop_tokens ts _ (fuel + 1) hts.of_cons (by omega), List.append_assoc]
      rfl

/-! ## names on the host -/

/-- The characters that may not stand in the name of a file on the host. -/
def Forbidden (c : Byte) : Prop :=
  c.toNat ≤ 0x1f ∨ c ∈ [0x22, 0x2a, 0x2f, 0x3a, 0x3c, 0x3e, 0x3f, 0x5c, 0x7c, 0x7f]

theorem needsEscape_iff (c : Byte) : needsEscape c = true ↔ Forbidden c := by
  have hlow : (0 ≤ c.toInt ∧ c.toInt ≤ 0x1F) ↔ c.toNat ≤ 0x1f := by
    rw [BitVec.toInt_eq_toNat_cond]
    split <;> omega
  unfold needsEscape Forbidden
  rw [Bool.or_eq_true, Bool.and_eq_true, decide_eq_true_eq, decide_eq_true_eq, hlow,
    List.contains_iff_mem]
  rfl

theorem not_forbidden_text {t : Token} (h : ∀ c, t = .lit c → needsEscape c = false) :
    ∀ x ∈ t.text, ¬Forbidden x := by
  intro x hx
  rw [← needsEscape_iff, Bool.not_eq_true]
  cases t with
  | lit c =>
    cases List.mem_singleton.mp hx
    exact h x rfl
  | esc c => exact needsEscape_escapeSequence c x hx

theorem escapeFileName_spec (s : List Byte) : ∃ e, escapeFileName s = some e ∧
    (∀ c ∈ e, ¬Forbidden c) ∧ ¬(e ≠ [] ∧ ∀ c ∈ e, c = 0x2e) ∧ unescapeFileName e = some s := by
  obtain ⟨ts, he, hchars, hchain, hlit, hdot⟩ := exists_tokens s
  refine ⟨_, he, ?_, ?_, ?_⟩
  · intro c hc
    obtain ⟨t, ht, hct⟩ := List.mem_flatMap.mp hc
    exact not_forbidden_text (fun c hc => hlit c (hc ▸ ht)) c hct
  · rintro ⟨hne, hall⟩
    have hts : ts ≠ [] := fun h => hne (by rw [h]; rfl)
    obtain ⟨t, ht, x, hx, hxne⟩ := hdot hts
    exact hxne (hall x (List.mem_flatMap.mpr ⟨t, ht, hx⟩))
  · have hlen := length_le_text ts
    have h := unescapeLoop_tokens ts [] ((ts.flatMap Token.text).length + 1) hchain (by omega)
    rw [List.nil_append, List.nil_append, hchars] at h
    exact h

/-- **Distinct names stay distinct**, and every name comes back from its escaped form. -/
theorem escapeFileName_injective_spec :
    (∀ s, ∃ e, escapeFileName s = some e ∧ (∀ c ∈ e, ¬Forbidden c) ∧
      ¬(e ≠ [] ∧ ∀ c ∈ e, c = 0x2e) ∧ unescapeFileName e = some s) ∧
    Function.Injective escapeFileName := by
  refine ⟨escapeFileName_spec, fun s s' h => ?_⟩
  obtain ⟨e, he, _, _, hs⟩ := escapeFileName_spec s
  obtain ⟨e', he', _, _, hs'⟩ := escapeFileName_spec s'
  cases Option.some.inj (he.symm.trans (h.trans he'))
  exact Option.some.inj (hs.symm.trans hs')

end DolphinCore.Common
