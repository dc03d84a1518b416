import Mathlib.Data.List.DropRight
import DolphinCore.Lib.StdString

/-!
# DolphinCore.Common.StringUtil

Strings of bytes: stripping spaces and quotes, comparing without case, and the
lines of a text.
-/

namespace DolphinCore

abbrev Str := List Byte

/-! ## stripping -/

/-- One of `" \t\r\n"`. -/
def isSpace (b : Byte) : Bool := b = 0x20 || b = 0x09 || b = 0x0d || b = 0x0a

def StripSpaces (str : Str) : Str := (str.dropWhile isSpace).rdropWhile isSpace

/-- `StripQuotes`; a single quote is both the first and the last one. -/
def StripQuotes (s : Str) : Str :=
  if s.head? = some 0x22 ∧ s.getLast? = some 0x22 then StdString.substr s 1 (s.length - 2) else s

section

variable {s : Str} {c : Byte}

theorem stripSpaces_cons (hc : isSpace c = true) (s : Str) :
    StripSpaces (c :: s) = StripSpaces s := by
  unfold StripSpaces
  rw [List.dropWhile_cons_of_pos hc]

theorem stripSpaces_concat (hc : isSpace c = true) (s : Str) :
    StripSpaces (s ++ [c]) = StripSpaces s := by
  unfold StripSpaces
  rw [List.dropWhile_append]
  split
  · next h =>
    rw [List.isEmpty_iff.mp h, List.dropWhile_cons_of_pos hc]
    rfl
  · rw [List.rdropWhile_concat_pos _ _ _ hc]

theorem stripSpaces_isInfix (s : Str) : StripSpaces s <:+: s :=
  (List.rdropWhile_prefix (p := isSpace) _).isInfix.trans (List.dropWhile_suffix _).isInfix

theorem stripQuotes_isInfix (s : Str) : StripQuotes s <:+: s := by
  unfold StripQuotes
  split
  · exact (List.take_prefix _ _).isInfix.trans (List.drop_suffix _ _).isInfix
  · exact List.infix_refl s

theorem stripSpaces_eq_self (hhead : ∀ c ∈ s.head?, isSpace c = false)
    (hlast : ∀ c ∈ s.getLast?, isSpace c = false) : StripSpaces s = s := by
  unfold StripSpaces
  have hdrop : s.dropWhile isSpace = s := by
    cases s with
    | nil => rfl
    | cons c s => exact List.dropWhile_cons_of_neg (by simp [hhead c rfl])
  rw [hdrop]
  rcases List.eq_nil_or_concat s with rfl | ⟨s, c, rfl⟩
  · rfl
  · rw [List.concat_eq_append]
    refine List.rdropWhile_concat_neg _ _ _ ?_
    simp [hlast c (by simp)]

theorem stripSpaces_head (s : Str) : ∀ c ∈ (StripSpaces s).head?, isSpace c = false := by
  intro c hc
  obtain ⟨r, hr⟩ := List.rdropWhile_prefix (p := isSpace) (s.dropWhile isSpace)
  unfold StripSpaces at hc
  cases hs : List.rdropWhile isSpace (s.dropWhile isSpace) with
  | nil =>
    rw [hs] at hc
    cases hc
  | cons d t =>
    rw [hs] at hc hr
    cases hc
    have hne : s.dropWhile isSpace ≠ [] := by
      rw [← hr]
      exact List.cons_ne_nil _ _
    have hnot := List.head_dropWhile_not isSpace hne
    simpa [← hr] using hnot

theorem stripSpaces_last (s : Str) : ∀ c ∈ (StripSpaces s).getLast?, isSpace c = false := by
  intro c hc
  have hne : StripSpaces s ≠ [] := by
    rintro h
    rw [h] at hc
    cases hc
  have hnot := List.rdropWhile_last_not isSpace (s.dropWhile isSpace) hne
  rw [List.getLast?_eq_some_getLast hne] at hc
  cases hc
  exact Bool.eq_false_iff.mpr hnot

theorem stripSpaces_idem (s : Str) : StripSpaces (StripSpaces s) = StripSpaces s :=
  stripSpaces_eq_self (stripSpaces_head s) (stripSpaces_last s)

end

/-! ## case -/

/-- `tolower` -/
def lower (b : Byte) : Byte := if 0x41 ≤ b ∧ b ≤ 0x5a then b + 0x20 else b

/-- What `strcasecmp` compares: the characters before a NUL, without case. -/
def ciNorm (s : Str) : Str := (s.takeWhile fun b => b ≠ 0).map lower

/-! ## lines -/

/-- The lines that `getline` finds; the last one may have no end. -/
def getlines : Str → List Str
  | [] => []
  | b :: bs =>
    if b = 0x0a then [] :: getlines bs
    else
      match getlines bs with
      | [] => [[b]]
      | line :: lines => (b :: line) :: lines

/-- `SplitString`: a delimiter at the end begins no piece. -/
def SplitString (delim : Byte) : Str → List Str
  | [] => []
  | b :: bs =>
    if b = delim then [] :: SplitString delim bs
    else
      match SplitString delim bs with
      | [] => [[b]]
      | piece :: pieces => (b :: piece) :: pieces

theorem splitString_piece {delim : Byte} {piece : Str} (h : delim ∉ piece) (rest : Str) :
    SplitString delim (piece ++ delim :: rest) = piece :: SplitString delim rest := by
  induction piece with
  | nil => rw [List.nil_append, SplitString, if_pos rfl]
  | cons b bs ih =>
    obtain ⟨hb, hbs⟩ := not_or.mp (List.mem_cons.not.mp h)
    rw [List.cons_append, SplitString, if_neg fun h => hb h.symm, ih hbs]

theorem splitString_last {delim : Byte} {piece : Str} (h : delim ∉ piece) (hne : piece ≠ []) :
    SplitString delim piece = [piece] := by
  induction piece with
  | nil => exact absurd rfl hne
  | cons b bs ih =>
    obtain ⟨hb, hbs⟩ := not_or.mp (List.mem_cons.not.mp h)
    rw [SplitString, if_neg fun h => hb h.symm]
    cases bs with
    | nil => rfl
    | cons c cs => rw [ih hbs (List.cons_ne_nil c cs)]

/-- Lines that are written, each with its end. -/
def putlines (lines : List Str) : Str := lines.flatMap fun line => line ++ [0x0a]

theorem not_mem_of_mem_getlines {text line : Str} (h : line ∈ getlines text) :
    (0x0a : Byte) ∉ line := by
  induction text generalizing line with
  | nil => cases h
  | cons b bs ih =>
    rw [getlines] at h
    split at h
    · rcases List.mem_cons.mp h with rfl | h
      · exact List.not_mem_nil
      · exact ih h
    · next hb =>
      split at h
      · rw [List.mem_singleton.mp h, List.mem_singleton]
        exact fun h => hb h.symm
      · next first lines hlines =>
        rw [hlines] at ih
        rcases List.mem_cons.mp h with rfl | h
        · rw [List.mem_cons, not_or]
          exact ⟨fun h => hb h.symm, ih (List.mem_cons_self ..)⟩
        · exact ih (List.mem_cons_of_mem _ h)

theorem getlines_line {line : Str} (h : (0x0a : Byte) ∉ line) (rest : Str) :
    getlines (line ++ 0x0a :: rest) = line :: getlines rest := by
  induction line with
  | nil => rw [List.nil_append, getlines, if_pos rfl]
  | cons b bs ih =>
    obtain ⟨hb, hbs⟩ := not_or.mp (List.mem_cons.not.mp h)
    rw [List.cons_append, getlines, if_neg fun h => hb h.symm, ih hbs]

theorem getlines_putlines {lines : List Str} (h : ∀ line ∈ lines, (0x0a : Byte) ∉ line) :
    getlines (putlines lines) = lines := by
  induction lines with
  | nil => rfl
  | cons line lines ih =>
    obtain ⟨hline, hlines⟩ := List.forall_mem_cons.mp h
    have hrest := ih hlines
    unfold putlines at hrest ⊢
    rw [List.flatMap_cons, List.append_assoc, List.singleton_append, getlines_line hline, hrest]

end DolphinCore
