import DolphinCore.Common.StringUtil
import DolphinCore.Lib.Run

/-!
# DolphinCore.Common.IniFile

Settings files. A section has keys with values, in the order in which they were
first set, and raw lines. Names of sections and keys are compared without case.

Text is read as on systems whose lines end with a line feed.

The raw lines of a section: `GetLines`, which strips them and takes comments off, and `SetLines`.
-/

namespace DolphinCore

/-! ## sections -/

/-- `IniFile::Section`; the map is the list of its keys with their values. -/
@[ext]
structure Section where
  name : Str
  keys_order : List Str
  values : List (Str × Str)
  m_lines : List Str
deriving DecidableEq

namespace Section

/-- A section without contents. -/
def new (name : Str) : Section := ⟨name, [], [], []⟩

/-- `values.find` -/
def find (s : Section) (key : Str) : Option (Str × Str) :=
  s.values.find? fun p => ciNorm p.1 = ciNorm key

def Set (s : Section) (key newValue : Str) : Section :=
  match s.find key with
  | some _ =>
    { s with values := s.values.map fun p =>
        if ciNorm p.1 = ciNorm key then (p.1, newValue) else p }
  | none => { s with values := s.values ++ [(key, newValue)], keys_order := s.keys_order ++ [key] }

/-- `Delete`; to erase the end of the order is undefined. -/
def Delete (s : Section) (key : Str) : Option (Bool × Section) :=
  match s.find key with
  | none => some (false, s)
  | some _ =>
    if key ∈ s.keys_order then
      some (true, { s with
        values := s.values.filter fun p => ciNorm p.1 ≠ ciNorm key
        keys_order := s.keys_order.erase key })
    else none

/-- `Set` with a default, which is not stored. -/
def SetDefault (s : Section) (key newValue defaultValue : Str) : Option Section :=
  if newValue ≠ defaultValue then some (s.Set key newValue)
  else (s.Delete key).map Prod.snd

end Section

/-! ## loading -/

/-- `ParseLine`: key and value, both empty where the line has none. -/
def ParseLine (line : Str) : Str × Str :=
  if line.head? = some 0x23 then ([], [])
  else
    match StdString.find line [0x3d] 0 with
    | none => ([], [])
    | some firstEquals =>
      (StripSpaces (StdString.substr line 0 firstEquals),
        StripQuotes (StripSpaces (line.drop (firstEquals + 1))))

/-- Lines that are kept as they are begin with `$`, `+` or `*`. -/
def verbatim (line : Str) : Bool :=
  line.head? = some 0x24 || line.head? = some 0x2b || line.head? = some 0x2a

/-- A line that is no header. -/
def Section.addLine (s : Section) (line : Str) : Section :=
  let (key, value) := ParseLine line
  if (key = [] ∧ value = []) ∨ verbatim line then { s with m_lines := s.m_lines ++ [line] }
  else s.Set key value

abbrev IniFile := List Section

namespace IniFile

/-- `GetSection`, as its place in the list. -/
def GetSection (sections : IniFile) (sectionName : Str) : Option Nat :=
  sections.findIdx? fun sect => ciNorm sect.name = ciNorm sectionName

def GetOrCreateSection (sections : IniFile) (sectionName : Str) : IniFile × Nat :=
  match sections.GetSection sectionName with
  | some i => (sections, i)
  | none => (sections ++ [.new sectionName], sections.length)

/-- The sections so far, and the current one. -/
structure LoadState where
  sections : IniFile
  current_section : Option Nat

/-- A line, when its end was taken off. -/
def loadLine (st : LoadState) (line : Str) : LoadState :=
  match line with
  | [] => st
  | c :: _ =>
    if c = 0x5b then
      match StdString.find line [0x5d] 0 with
      | none => st
      | some endpos =>
        let (sections, i) := st.sections.GetOrCreateSection (StdString.substr line 1 (endpos - 1))
        ⟨sections, some i⟩
    else
      match st.current_section with
      | none => st
      | some i => { st with sections := st.sections.modify i fun s => s.addLine line }

/-- A carriage return before the end of the line is taken off. -/
def takeCR (line : Str) : Str := if line.getLast? = some 0x0d then line.dropLast else line

/-- The first line may begin with a byte order mark. -/
def takeBOM (line : Str) : Str := if [0xef, 0xbb, 0xbf] <+: line then line.drop 3 else line

/-- The lines of a text as they are looked at. -/
def loadLines (text : Str) : List Str :=
  match getlines text with
  | [] => []
  | line :: lines => takeCR (takeBOM line) :: lines.map takeCR

/-- `Load` of a file with this text. -/
def Load (sections : IniFile) (text : Str) (keep_current_data : Bool) : IniFile :=
  ((loadLines text).foldl loadLine ⟨if keep_current_data then sections else [], none⟩).sections

/-! ## saving -/

/-- `[name]` -/
def headerLine (name : Str) : Str := 0x5b :: (name ++ [0x5d])

/-- `key = value` -/
def keyLine (key value : Str) : Str := key ++ (0x20 :: 0x3d :: 0x20 :: value)

/-- The lines of keys, each with its value in the map. -/
def keyLines (s : Section) : List Str → Option (List Str)
  | [] => some []
  | kvit :: kvits =>
    (s.find kvit).bind fun pair =>
      (keyLines s kvits).map (keyLine pair.1 pair.2 :: ·)

/-- The lines of a section. -/
def saveSection (sect : Section) : Option (List Str) :=
  let header :=
    if sect.keys_order ≠ [] ∨ sect.m_lines ≠ [] then [headerLine sect.name] else []
  if sect.keys_order = [] then some (header ++ sect.m_lines)
  else (keyLines sect sect.keys_order).map (header ++ ·)

/-- The lines of the file. -/
def saveLines : IniFile → Option (List Str)
  | [] => some []
  | sect :: sections =>
    (saveSection sect).bind fun lines => (saveLines sections).map (lines ++ ·)

/-- `Save`: the text that is written. -/
def Save (sections : IniFile) : Option Str := sections.saveLines.map putlines

/-! ## changes -/

inductive Change where
  | load (text : Str) (keep_current_data : Bool)
  | set (sectionName key newValue : Str)
  | setDefault (sectionName key newValue defaultValue : Str)
  | deleteKey (sectionName key : Str)
  | deleteSection (sectionName : Str)
  | setLines (sectionName : Str) (lines : List Str)

/-- What callers do with the settings. -/
def change (sections : IniFile) : Change → Option IniFile
  | .load text keep_current_data => some (sections.Load text keep_current_data)
  | .set sectionName key newValue =>
    let (sections, i) := sections.GetOrCreateSection sectionName
    some (sections.modify i fun s => s.Set key newValue)
  | .setDefault sectionName key newValue defaultValue =>
    let (sections, i) := sections.GetOrCreateSection sectionName
    (sections[i]?).bind fun s => (s.SetDefault key newValue defaultValue).map (sections.set i)
  | .deleteKey sectionName key =>
    match sections.GetSection sectionName with
    | none => some sections
    | some i => (sections[i]?).bind fun s => (s.Delete key).map fun r => sections.set i r.2
  | .deleteSection sectionName =>
    match sections.GetSection sectionName with
    | none => some sections
    | some i => some (sections.eraseIdx i)
  | .setLines sectionName lines =>
    let (sections, i) := sections.GetOrCreateSection sectionName
    some (sections.modify i fun s => { s with m_lines := lines })

end IniFile

end DolphinCore

namespace DolphinCore

/-- A line as `GetLines` gives it, nothing where it is a comment. -/
def cleanLine (remove_comments : Bool) (line : Str) : Option Str :=
  let stripped_line := StripSpaces line
  if remove_comments then
    match StdString.find stripped_line [0x23] 0 with
    | some 0 => none
    | some commentPos => some (StripSpaces (StdString.substr stripped_line 0 commentPos))
    | none => some stripped_line
  else some stripped_line

theorem cleanLine_eq_self {line : Str} (rc : Bool) (hhead : ∀ c ∈ line.head?, isSpace c = false)
    (hlast : ∀ c ∈ line.getLast?, isSpace c = false) (hcomment : 0x23 ∉ line) :
    cleanLine rc line = some line := by
  unfold cleanLine
  rw [stripSpaces_eq_self hhead hlast]
  cases rc with
  | false => rfl
  | true =>
    dsimp only
    rw [StdString.find_singleton_of_not_mem hcomment]
    rfl

theorem rdropWhile_cons {p : Byte → Bool} {c : Byte} (hc : p c = false) (s : Str) :
    (c :: s).rdropWhile p = c :: s.rdropWhile p := by
  induction s using List.reverseRecOn with
  | nil => exact List.rdropWhile_concat_neg _ [] _ (by simp [hc])
  | append_singleton s d ih =>
    rw [← List.cons_append]
    cases hd : p d with
    | true => rw [List.rdropWhile_concat_pos _ _ _ hd, List.rdropWhile_concat_pos _ _ _ hd, ih]
    | false =>
      rw [List.rdropWhile_concat_neg _ _ _ (by simp [hd]),
        List.rdropWhile_concat_neg _ _ _ (by simp [hd])]
      rfl

theorem stripSpaces_cons_of_not {c : Byte} (hc : isSpace c = false) (s : Str) :
    StripSpaces (c :: s) = c :: s.rdropWhile isSpace := by
  unfold StripSpaces
  rw [List.dropWhile_cons_of_neg (by simp [hc]), rdropWhile_cons hc]

theorem cleanLine_cons {c : Byte} (hc : isSpace c = false) (hne : c ≠ 0x23) (s : Str) :
    ∃ s', cleanLine true (c :: s) = some (c :: s') ∧
      (s' = s ↔ 0x23 ∉ s ∧ ∀ d ∈ s.getLast?, isSpace d = false) := by
  have hlast : s.rdropWhile isSpace = s ↔ ∀ d ∈ s.getLast?, isSpace d = false := by
    rw [List.rdropWhile_eq_self_iff]
    constructor
    · intro h d hd
      obtain ⟨hne, rfl⟩ := List.mem_getLast?_eq_getLast hd
      exact Bool.eq_false_iff.mpr (h hne)
    · intro h hne
      rw [h _ (List.getLast_mem_getLast? hne)]
      exact Bool.false_ne_true
  unfold cleanLine
  rw [stripSpaces_cons_of_not hc]
  dsimp only
  by_cases hmem : 0x23 ∈ s.rdropWhile isSpace
  · obtain ⟨p, r, hsplit, hp⟩ := List.eq_append_cons_of_mem hmem
    have hp' : 0x23 ∉ c :: p := List.not_mem_cons_of_ne_of_not_mem hne.symm hp
    rw [hsplit, ← List.cons_append, StdString.find_singleton hp', List.length_cons]
    change ∃ s', some (StripSpaces (StdString.substr (c :: p ++ 0x23 :: r) 0 (p.length + 1))) =
      some (c :: s') ∧ _
    rw [StdString.substr, List.drop_zero, List.take_left' (List.length_cons ..),
      stripSpaces_cons_of_not hc]
    refine ⟨_, rfl, fun h => ?_, fun h => ?_⟩
    · -- the first comment mark is cut off
      have hs : 0x23 ∈ s := (List.rdropWhile_prefix _ _).subset hmem
      rw [← h] at hs
      exact absurd ((List.rdropWhile_prefix _ _).subset hs) hp
    · exact absurd ((List.rdropWhile_prefix _ _).subset hmem) h.1
  · have hnot : 0x23 ∉ c :: s.rdropWhile isSpace := List.not_mem_cons_of_ne_of_not_mem hne.symm hmem
    rw [StdString.find_singleton_of_not_mem hnot]
    refine ⟨_, rfl, ?_⟩
    rw [hlast, iff_and_self]
    intro h
    rwa [hlast.mpr h] at hmem

namespace Section

variable (s : Section)

def GetLines (remove_comments : Bool) : List Str := s.m_lines.filterMap (cleanLine remove_comments)

def SetLines (lines : List Str) : Section := { s with m_lines := lines }

end Section

namespace IniFile

def GetLines (sections : IniFile) (sectionName : Str) (remove_comments : Bool) : List Str :=
  match (sections.GetSection sectionName).bind (sections[·]?) with
  | none => []
  | some section_ => section_.GetLines remove_comments

def SetLines (sections : IniFile) (sectionName : Str) (lines : List Str) : IniFile :=
  let (sections, i) := sections.GetOrCreateSection sectionName
  sections.modify i fun section_ => section_.SetLines lines

/-! ## what was set -/

variable {sections : IniFile} {sect : Section} {name name' : Str} {rc : Bool}

theorem getLines_cons : GetLines (sect :: sections) name rc =
      if ciNorm sect.name = ciNorm name then sect.GetLines rc else GetLines sections name rc := by
  unfold GetLines GetSection
  rw [List.findIdx?_cons]
  by_cases h : ciNorm sect.name = ciNorm name
  · simp [h]
  · simp only [h, decide_false, Bool.false_eq_true, if_false]
    cases sections.findIdx? _ <;> rfl

theorem setLines_cons (lines : List Str) : SetLines (sect :: sections) name lines =
      if ciNorm sect.name = ciNorm name then sect.SetLines lines :: sections
      else sect :: SetLines sections name lines := by
  unfold SetLines GetOrCreateSection GetSection
  rw [List.findIdx?_cons]
  by_cases h : ciNorm sect.name = ciNorm name
  · simp [h]
  · simp only [h, decide_false, Bool.false_eq_true, if_false]
    cases sections.findIdx? _ with
    | none => simp
    | some i => rfl

theorem setLines_nil (lines : List Str) :
    SetLines [] name lines = [(Section.new name).SetLines lines] := rfl

theorem getLines_setLines (lines : List Str) :
    (sections.SetLines name lines).GetLines name rc = lines.filterMap (cleanLine rc) := by
  induction sections with
  | nil =>
    have h : ciNorm ((Section.new name).SetLines lines).name = ciNorm name := rfl
    rw [setLines_nil, getLines_cons, if_pos h]
    rfl
  | cons sect sections ih =>
    rw [setLines_cons]
    by_cases h : ciNorm sect.name = ciNorm name
    · have h' : ciNorm (sect.SetLines lines).name = ciNorm name := h
      rw [if_pos h, getLines_cons, if_pos h']
      rfl
    · rw [if_neg h, getLines_cons, if_neg h, ih]

theorem getLines_setLines_of_ne (h : ciNorm name ≠ ciNorm name') (lines : List Str) :
    (sections.SetLines name lines).GetLines name' rc = sections.GetLines name' rc := by
  induction sections with
  | nil =>
    have h' : ciNorm ((Section.new name).SetLines lines).name ≠ ciNorm name' := h
    rw [setLines_nil, getLines_cons, if_neg h']
  | cons sect sections ih =>
    rw [setLines_cons]
    by_cases hname : ciNorm sect.name = ciNorm name
    · have hne : ciNorm sect.name ≠ ciNorm name' := hname ▸ h
      have hne' : ciNorm (sect.SetLines lines).name ≠ ciNorm name' := hne
      rw [if_pos hname, getLines_cons, getLines_cons, if_neg hne, if_neg hne']
    · rw [if_neg hname, getLines_cons, getLines_cons, ih]

end IniFile

end DolphinCore
