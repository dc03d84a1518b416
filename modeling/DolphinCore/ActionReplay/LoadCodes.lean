import DolphinCore.ActionReplay.DecryptBounds
import DolphinCore.Common.IniFile

/-!
# DolphinCore.ActionReplay.LoadCodes

`LoadCodes`, which reads the codes of two settings files, and `SaveCodes`.  The section of a code is
collected in two places, its plain entries and its encrypted lines, which are pushed where the next
name is met and at the end of the file.

What `LoadCodes` returns: one code for each section, where no section has both plain entries and
encrypted lines, and no valid line stands before the first name.  Codes that `SaveCodes` wrote are
read back where their names survive the cleaning of lines.
-/

namespace DolphinCore

namespace ActionReplay

structure ARCode where
  name : Str
  ops : List AREntry
  active : Bool
  user_defined : Bool
  deriving DecidableEq

/-! ## one line -/

def isHexDigit (c : Byte) : Bool :=
  (0x30 ≤ c && c ≤ 0x39) || (0x41 ≤ c && c ≤ 0x46) || (0x61 ≤ c && c ≤ 0x66)

def hexValue (c : Byte) : Nat :=
  if c ≤ 0x39 then c.toNat - 0x30 else if c ≤ 0x46 then c.toNat - 0x37 else c.toNat - 0x57

/-- `TryParse` of "0x" and a piece, which has too few characters for a value of more than 32 bits:
`strtoull` has to stop at the end of the string, or at a NUL in it. -/
def tryParseHex (piece : Str) : Option (BitVec 32) :=
  let digits := piece.takeWhile isHexDigit
  let value := BitVec.ofNat 32 (digits.foldl (fun value c => value * 16 + hexValue c) 0)
  if digits = [] then none
  else
    match piece.drop digits.length with
    | [] => some value
    | c :: _ => if c = 0 then some value else none

/-- What a line of the settings file is to `LoadCodes`. -/
inductive ARLine
  | name (name : Str)
  | plain (op : AREntry)
  | encrypted (line : EncryptedLine)
  | other

/-- Three groups of 4, 4 and 5 characters. -/
def parseEncrypted (line : Str) : ARLine :=
  match SplitString 0x2D line with
  | [a, b, c] =>
    if h : a.length = 4 ∧ b.length = 4 ∧ c.length = 5 then
      .encrypted ⟨a ++ b ++ c, by simp [h]⟩
    else .other
  | _ => .other

def parseLine (line : Str) : ARLine :=
  if line = [] then .other
  else if line.head? = some 0x24 then .name (line.drop 1)
  else
    match SplitString 0x20 line with
    | [a, b] =>
      if a.length = 8 ∧ b.length = 8 then
        match tryParseHex a, tryParseHex b with
        | some cmd_addr, some value => .plain ⟨cmd_addr, value⟩
        | _, _ => .other
      else parseEncrypted line
    | _ => parseEncrypted line

/-! ## the loop -/

/-- The variables of `LoadCodes` for one of the files. -/
structure Reader where
  codes : List ARCode
  encrypted_lines : List EncryptedLine
  current_code : ARCode

/-- `DecryptARCode` on the lines of a section. -/
abbrev Decrypt := List EncryptedLine → Except Fault (List AREntry)

variable (decrypt : Decrypt)

/-- What is collected is pushed when a name is met. -/
def pushAtName (r : Reader) : Except Fault Reader :=
  let r : Reader :=
    if r.current_code.ops ≠ [] then
      { r with codes := r.codes ++ [r.current_code], current_code := { r.current_code with ops := [] } }
    else r
  if r.encrypted_lines ≠ [] then do
    let ops ← decrypt r.encrypted_lines
    let code := { r.current_code with ops := r.current_code.ops ++ ops }
    pure ⟨r.codes ++ [code], [], { code with ops := [] }⟩
  else pure r

/-- What is collected is pushed at the end of the file. -/
def pushAtEnd (r : Reader) : Except Fault (List ARCode) :=
  let codes := if r.current_code.ops ≠ [] then r.codes ++ [r.current_code] else r.codes
  if r.encrypted_lines ≠ [] then do
    let ops ← decrypt r.encrypted_lines
    pure (codes ++ [{ r.current_code with ops := r.current_code.ops ++ ops }])
  else pure codes

variable (enabled_names : List Str) (user_defined : Bool)

def readLine (r : Reader) : ARLine → Except Fault Reader
  | .name name => do
    let r ← pushAtName decrypt r
    pure { r with
      current_code := ⟨name, r.current_code.ops, decide (name ∈ enabled_names), user_defined⟩ }
  | .plain op =>
    pure { r with current_code := { r.current_code with ops := r.current_code.ops ++ [op] } }
  | .encrypted line => pure { r with encrypted_lines := r.encrypted_lines ++ [line] }
  | .other => pure r

/-- A code before the first name: its flags are not initialized. -/
def blankCode (flags : Bool × Bool) : ARCode := ⟨[], [], flags.1, flags.2⟩

/-- The codes of one file. -/
def readLines (flags : Bool × Bool) (lines : List ARLine) : Except Fault (List ARCode) := do
  let r ← lines.foldlM (readLine decrypt enabled_names user_defined) ⟨[], [], blankCode flags⟩
  pushAtEnd decrypt r

/-- "ActionReplay_Enabled" -/
def enabledSection : Str :=
  [0x41, 0x63, 0x74, 0x69, 0x6F, 0x6E, 0x52, 0x65, 0x70, 0x6C, 0x61, 0x79, 0x5F, 0x45, 0x6E, 0x61,
    0x62, 0x6C, 0x65, 0x64]

/-- "ActionReplay" -/
def codeSection : Str :=
  [0x41, 0x63, 0x74, 0x69, 0x6F, 0x6E, 0x52, 0x65, 0x70, 0x6C, 0x61, 0x79]

/-- The names of the codes that are enabled. -/
def enabledNames (local_ini : IniFile) : List Str :=
  (local_ini.GetLines enabledSection true).filterMap fun line =>
    if line.head? = some 0x24 then some (line.drop 1) else none

/-- The lines of the codes of a file. -/
def codeLines (ini : IniFile) : List ARLine := (ini.GetLines codeSection true).map parseLine

def loadCodes (flags : Bool × Bool) (global_ini local_ini : IniFile) :
    Except Fault (List ARCode) := do
  let enabled_names := enabledNames local_ini
  let global_codes ← readLines decrypt enabled_names false flags (codeLines global_ini)
  let local_codes ← readLines decrypt enabled_names true flags (codeLines local_ini)
  pure (global_codes ++ local_codes)

/-! ## saving -/

def hexDigit (v : Nat) : Byte := BitVec.ofNat 8 (if v < 10 then 0x30 + v else 0x37 + v)

/-- `%08X` -/
def hex8 (v : BitVec 32) : Str :=
  [7, 6, 5, 4, 3, 2, 1, 0].map fun i => hexDigit (v.toNat / 16 ^ i % 16)

def opLine (op : AREntry) : Str := hex8 op.cmd_addr ++ 0x20 :: hex8 op.value

def nameLine (code : ARCode) : Str := 0x24 :: code.name

def saveCodes (local_ini : IniFile) (codes : List ARCode) : IniFile :=
  let enabled_lines := (codes.filter (·.active)).map nameLine
  let lines := (codes.filter (·.user_defined)).flatMap fun code => nameLine code :: code.ops.map opLine
  (local_ini.SetLines enabledSection enabled_lines).SetLines codeSection lines

/-! ## what the codes of a file are -/

/-- A name with the lines up to the next one. -/
structure ARSection where
  name : Str
  lines : List ARLine

/-- The plain entries among some lines. -/
def plainOps (lines : List ARLine) : List AREntry :=
  lines.filterMap fun
    | .plain op => some op
    | _ => none

def encryptedLines (lines : List ARLine) : List EncryptedLine :=
  lines.filterMap fun
    | .encrypted line => some line
    | _ => none

/-- The lines before the first name, and the sections. -/
def splitSections : List ARLine → List ARLine × List ARSection
  | [] => ([], [])
  | .name name :: rest => ([], ⟨name, (splitSections rest).1⟩ :: (splitSections rest).2)
  | line :: rest => (line :: (splitSections rest).1, (splitSections rest).2)

/-- The decrypted entries of a section. -/
def decryptedOps (s : ARSection) : Except Fault (List AREntry) :=
  if encryptedLines s.lines = [] then pure [] else decrypt (encryptedLines s.lines)

/-- The code of a section, if it has a valid line. -/
def sectionCode (s : ARSection) : Except Fault (List ARCode) :=
  if plainOps s.lines = [] ∧ encryptedLines s.lines = [] then pure []
  else do
    let ops ← decryptedOps decrypt s
    pure [⟨s.name, plainOps s.lines ++ ops, decide (s.name ∈ enabled_names), user_defined⟩]

/-- One code for each section, in their order. -/
def codesOfSections : List ARSection → Except Fault (List ARCode)
  | [] => pure []
  | s :: sections => do
    let code ← sectionCode decrypt enabled_names user_defined s
    let codes ← codesOfSections sections
    pure (code ++ codes)

/-- One code for each section of the two files. -/
def documentedCodes (global_ini local_ini : IniFile) : Except Fault (List ARCode) := do
  let enabled_names := enabledNames local_ini
  let global_codes ← codesOfSections decrypt enabled_names false
    (splitSections (codeLines global_ini)).2
  let local_codes ← codesOfSections decrypt enabled_names true (splitSections (codeLines local_ini)).2
  pure (global_codes ++ local_codes)

end ActionReplay

end DolphinCore

namespace DolphinCore

namespace ActionReplay

variable {decrypt : Decrypt}

/-! ## what is pushed -/

/-- The codes that are pushed for what was collected: the plain entries, and the decrypted ones
behind what is kept of them. -/
def flushed (decrypt : Decrypt) (kept : List AREntry) (cur : ARCode) (enc : List EncryptedLine) :
    Except Fault (List ARCode) :=
  let plain := if cur.ops ≠ [] then [cur] else []
  if enc ≠ [] then do
    let ops ← decrypt enc
    pure (plain ++ [{ cur with ops := kept ++ ops }])
  else pure plain

theorem pushAtName_eq (codes : List ARCode) (enc : List EncryptedLine) (cur : ARCode) :
    pushAtName decrypt ⟨codes, enc, cur⟩ =
      (flushed decrypt [] cur enc).map fun p => ⟨codes ++ p, [], { cur with ops := [] }⟩ := by
  obtain ⟨name, ops, active, user_defined⟩ := cur
  unfold pushAtName flushed
  by_cases henc : enc = []
  · cases ops <;> simp [henc, Except.map, pure, Except.pure]
  · cases ops <;> cases hd : decrypt enc <;>
      simp [henc, hd, Except.map, pure, Except.pure, bind, Except.bind]

theorem pushAtEnd_eq (codes : List ARCode) (enc : List EncryptedLine) (cur : ARCode) :
    pushAtEnd decrypt ⟨codes, enc, cur⟩ = (flushed decrypt cur.ops cur enc).map (codes ++ ·) := by
  obtain ⟨name, ops, active, user_defined⟩ := cur
  unfold pushAtEnd flushed
  by_cases henc : enc = []
  · cases ops <;> simp [henc, Except.map, pure, Except.pure]
  · cases ops <;> cases hd : decrypt enc <;>
      simp [henc, Except.map, pure, Except.pure, bind, Except.bind]

section Sections

variable (decrypt) (enabled_names : List Str) (user_defined : Bool)

/-- What is pushed from a place in a section on: the code so far, its encrypted lines and the
sections behind it. -/
def pushedSections (cur : ARCode) (enc : List EncryptedLine) :
    List ARSection → Except Fault (List ARCode)
  | [] => flushed decrypt cur.ops cur enc
  | s :: sections => do
    let p ← flushed decrypt [] cur enc
    let q ← pushedSections
      ⟨s.name, plainOps s.lines, decide (s.name ∈ enabled_names), user_defined⟩
      (encryptedLines s.lines) sections
    pure (p ++ q)

end Sections

variable {enabled_names : List Str} {user_defined : Bool}

theorem readLines_from (lines : List ARLine) (codes : List ARCode) (enc : List EncryptedLine)
    (cur : ARCode) :
    (lines.foldlM (readLine decrypt enabled_names user_defined) ⟨codes, enc, cur⟩ >>=
        pushAtEnd decrypt) =
      (pushedSections decrypt enabled_names user_defined
        { cur with ops := cur.ops ++ plainOps (splitSections lines).1 }
        (enc ++ encryptedLines (splitSections lines).1) (splitSections lines).2).map
          (codes ++ ·) := by
  induction lines generalizing codes enc cur with
  | nil =>
    simp only [List.foldlM_nil, splitSections, plainOps, encryptedLines, List.filterMap_nil,
      List.append_nil, pushedSections]
    exact pushAtEnd_eq codes enc cur
  | cons line rest ih =>
    rw [List.foldlM_cons, bind_assoc]
    cases line with
    | name name =>
      simp only [readLine, pushAtName_eq, splitSections, pushedSections, plainOps, encryptedLines,
        List.filterMap_nil, List.append_nil]
      cases hp : flushed decrypt [] cur enc with
      | error e => rfl
      | ok p =>
        refine (ih (codes ++ p) [] _).trans ?_
        simp only [List.nil_append]
        change _ = Except.map (codes ++ ·) (pushedSections decrypt enabled_names user_defined
          ⟨name, plainOps (splitSections rest).1, _, _⟩ (encryptedLines (splitSections rest).1)
          (splitSections rest).2 >>= fun q => pure (p ++ q))
        cases pushedSections decrypt enabled_names user_defined _ _ _ <;>
          simp [Except.map, bind, Except.bind, pure, Except.pure]
    | plain op =>
      refine (ih codes enc _).trans ?_
      simp [splitSections, plainOps, encryptedLines]
    | encrypted line =>
      refine (ih codes (enc ++ [line]) cur).trans ?_
      simp [splitSections, plainOps, encryptedLines]
    | other =>
      refine (ih codes enc cur).trans ?_
      simp [splitSections, plainOps, encryptedLines]

theorem readLines_eq (flags : Bool × Bool) (lines : List ARLine) :
    readLines decrypt enabled_names user_defined flags lines =
      pushedSections decrypt enabled_names user_defined
        { blankCode flags with ops := plainOps (splitSections lines).1 }
        (encryptedLines (splitSections lines).1) (splitSections lines).2 := by
  have hnil (x : Except Fault (List ARCode)) : x.map ([] ++ ·) = x := by
    cases x <;> rfl
  exact (readLines_from lines [] [] (blankCode flags)).trans (hnil _)

/-! ## how many codes there are -/

/-- A section with plain entries and encrypted lines. -/
def ARSection.Mixed (s : ARSection) : Prop := plainOps s.lines ≠ [] ∧ encryptedLines s.lines ≠ []

instance (s : ARSection) : Decidable s.Mixed := inferInstanceAs (Decidable (_ ∧ _))

/-- The number of codes that are pushed for what was collected. -/
def pushCount (ops : List AREntry) (enc : List EncryptedLine) : Nat :=
  (if ops = [] then 0 else 1) + if enc = [] then 0 else 1

theorem length_flushed {kept : List AREntry} {cur : ARCode} {enc : List EncryptedLine}
    {p : List ARCode} (h : flushed decrypt kept cur enc = .ok p) :
    p.length = pushCount cur.ops enc := by
  have hplain : (if cur.ops ≠ [] then [cur] else []).length = if cur.ops = [] then 0 else 1 := by
    by_cases hops : cur.ops = [] <;> simp [hops]
  unfold flushed at h
  unfold pushCount
  by_cases henc : enc = []
  · rw [if_neg (not_not_intro henc)] at h
    obtain rfl := Except.ok.inj h
    rw [hplain, if_pos henc]
    rfl
  · rw [if_pos henc] at h
    obtain ⟨ops, -, hp⟩ := bind_eq_ok.mp h
    obtain rfl := Except.ok.inj hp
    rw [List.length_append, hplain, if_neg henc]
    rfl

variable {s : ARSection} {sections : List ARSection} {codes : List ARCode}

theorem length_sectionCode {p : List ARCode}
    (h : sectionCode decrypt enabled_names user_defined s = .ok p) :
    p.length = if plainOps s.lines = [] ∧ encryptedLines s.lines = [] then 0 else 1 := by
  unfold sectionCode at h
  split at h
  · next hempty =>
    obtain rfl := Except.ok.inj h
    rw [if_pos hempty]
    rfl
  · next hvalid =>
    obtain ⟨ops, -, hp⟩ := bind_eq_ok.mp h
    obtain rfl := Except.ok.inj hp
    rw [if_neg hvalid]
    rfl

theorem pushCount_eq (s : ARSection) : pushCount (plainOps s.lines) (encryptedLines s.lines) =
      (if plainOps s.lines = [] ∧ encryptedLines s.lines = [] then 0 else 1) +
        if s.Mixed then 1 else 0 := by
  unfold pushCount ARSection.Mixed
  by_cases hops : plainOps s.lines = [] <;> by_cases henc : encryptedLines s.lines = [] <;>
    simp [hops, henc]

theorem length_pushedSections {cur : ARCode} {enc : List EncryptedLine} {p q : List ARCode}
    (hp : pushedSections decrypt enabled_names user_defined cur enc sections = .ok p)
    (hq : codesOfSections decrypt enabled_names user_defined sections = .ok q) :
    p.length = pushCount cur.ops enc + q.length + sections.countP (·.Mixed) := by
  induction sections generalizing cur enc p q with
  | nil =>
    obtain rfl := Except.ok.inj hq
    rw [length_flushed hp]
    rfl
  | cons s sections ih =>
    obtain ⟨p1, hp1, hp⟩ := bind_eq_ok.mp hp
    obtain ⟨p2, hp2, hp⟩ := bind_eq_ok.mp hp
    obtain ⟨q1, hq1, hq⟩ := bind_eq_ok.mp hq
    obtain ⟨q2, hq2, hq⟩ := bind_eq_ok.mp hq
    obtain rfl := Except.ok.inj hp
    obtain rfl := Except.ok.inj hq
    rw [List.length_append, List.length_append, length_flushed hp1, ih hp2 hq2,
      length_sectionCode hq1, List.countP_cons, pushCount_eq]
    simp only [decide_eq_true_eq]
    omega

theorem flushed_of_not_mixed (hs : ¬ s.Mixed) {kept : List AREntry}
    (hkept : kept = [] ∨ kept = plainOps s.lines) :
    flushed decrypt kept
        ⟨s.name, plainOps s.lines, decide (s.name ∈ enabled_names), user_defined⟩
        (encryptedLines s.lines) =
      sectionCode decrypt enabled_names user_defined s := by
  unfold flushed sectionCode decryptedOps
  by_cases henc : encryptedLines s.lines = []
  · by_cases hops : plainOps s.lines = []
    · simp [henc, hops]
    · simp [henc, hops]
  · have hops : plainOps s.lines = [] := by
      by_contra hops
      exact hs ⟨hops, henc⟩
    have hnil : kept = [] := hkept.elim id fun h => h.trans hops
    simp [henc, hops, hnil]

theorem pushedSections_of_not_mixed (h : ∀ t ∈ s :: sections, ¬ t.Mixed) :
    pushedSections decrypt enabled_names user_defined
        ⟨s.name, plainOps s.lines, decide (s.name ∈ enabled_names), user_defined⟩
        (encryptedLines s.lines) sections =
      codesOfSections decrypt enabled_names user_defined (s :: sections) := by
  obtain ⟨hs, hsections⟩ := List.forall_mem_cons.mp h
  induction sections generalizing s with
  | nil =>
    rw [pushedSections, flushed_of_not_mixed hs (.inr rfl), codesOfSections, codesOfSections]
    cases sectionCode decrypt enabled_names user_defined s with
    | error e => rfl
    | ok code => exact congrArg Except.ok (List.append_nil code).symm
  | cons t sections ih =>
    obtain ⟨ht, hrest⟩ := List.forall_mem_cons.mp hsections
    rw [pushedSections, flushed_of_not_mixed hs (.inl rfl), ih hsections ht hrest]
    rfl

/-! ## one code for each section -/

/-- Is there nothing before the first name, and does no section have plain entries and encrypted
lines? -/
def Separated (lines : List ARLine) : Prop :=
  plainOps (splitSections lines).1 = [] ∧ encryptedLines (splitSections lines).1 = [] ∧
    ∀ s ∈ (splitSections lines).2, ¬ s.Mixed

theorem readLines_of_separated {lines : List ARLine} (h : Separated lines) (flags : Bool × Bool) :
    readLines decrypt enabled_names user_defined flags lines =
      codesOfSections decrypt enabled_names user_defined (splitSections lines).2 := by
  obtain ⟨hops, henc, hsections⟩ := h
  rw [readLines_eq, hops, henc]
  cases hs : (splitSections lines).2 with
  | nil => rfl
  | cons s sections =>
    rw [hs] at hsections
    rw [← pushedSections_of_not_mixed hsections, pushedSections]
    generalize pushedSections decrypt enabled_names user_defined _ _ _ = pushed
    cases pushed <;> rfl

theorem length_readLines {lines : List ARLine} {flags : Bool × Bool} {p q : List ARCode}
    (hp : readLines decrypt enabled_names user_defined flags lines = .ok p)
    (hq : codesOfSections decrypt enabled_names user_defined (splitSections lines).2 = .ok q) :
    q.length ≤ p.length ∧ (p.length = q.length → Separated lines) := by
  rw [readLines_eq] at hp
  have hlen := length_pushedSections hp hq
  refine ⟨by omega, fun heq => ?_⟩
  have hcount : pushCount (plainOps (splitSections lines).1)
      (encryptedLines (splitSections lines).1) = 0 := by
    change p.length = pushCount (plainOps (splitSections lines).1) _ + _ + _ at hlen
    omega
  have hmixed : (splitSections lines).2.countP (·.Mixed) = 0 := by
    omega
  unfold pushCount at hcount
  refine ⟨?_, ?_, fun s hs => by simpa using List.countP_eq_zero.mp hmixed s hs⟩
  · by_contra h
    simp [h] at hcount
  · by_contra h
    simp [h] at hcount

theorem returns_sectionCode (enabled_names : List Str) (user_defined : Bool) :
    Returns (sectionCode decrypt enabled_names user_defined s) ↔
      (encryptedLines s.lines ≠ [] → Returns (decrypt (encryptedLines s.lines))) := by
  unfold sectionCode decryptedOps
  constructor
  · intro h henc
    rw [if_neg fun hempty => henc hempty.2, if_neg henc] at h
    obtain ⟨ops, hops, -⟩ := h.of_bind
    exact ⟨ops, hops⟩
  · intro h
    split
    · exact .pure _
    · refine Returns.bind ?_ fun ops => .pure _
      split
      · exact .pure _
      · next henc => exact h henc

theorem returns_codesOfSections (enabled_names : List Str) (user_defined : Bool)
    :
    Returns (codesOfSections decrypt enabled_names user_defined sections) ↔
      ∀ s ∈ sections, encryptedLines s.lines ≠ [] → Returns (decrypt (encryptedLines s.lines)) := by
  induction sections with
  | nil => exact ⟨fun _ s hs => absurd hs List.not_mem_nil, fun _ => .pure _⟩
  | cons s sections ih =>
    rw [List.forall_mem_cons, ← ih, ← returns_sectionCode enabled_names user_defined,
      codesOfSections]
    constructor
    · intro h
      obtain ⟨code, hcode, hrest⟩ := h.of_bind
      obtain ⟨codes, hcodes, -⟩ := hrest.of_bind
      exact ⟨⟨code, hcode⟩, codes, hcodes⟩
    · intro h
      exact h.1.bind fun code => h.2.bind fun codes => .pure _

/-- `LoadCodes` returns one code for each section of the two files. -/
def ReadsSections (decrypt : Decrypt) (flags : Bool × Bool) (global_ini local_ini : IniFile) :
    Prop :=
  ∃ codes, loadCodes decrypt flags global_ini local_ini = .ok codes ∧
    documentedCodes decrypt global_ini local_ini = .ok codes

/-- The encrypted lines of each section can be decrypted. -/
def SectionsDecrypt (decrypt : Decrypt) (lines : List ARLine) : Prop :=
  ∀ s ∈ (splitSections lines).2, encryptedLines s.lines ≠ [] →
    Returns (decrypt (encryptedLines s.lines))

theorem readsSections_iff_separated (flags : Bool × Bool) (global_ini local_ini : IniFile) :
    ReadsSections decrypt flags global_ini local_ini ↔
      (Separated (codeLines global_ini) ∧ SectionsDecrypt decrypt (codeLines global_ini)) ∧
        Separated (codeLines local_ini) ∧ SectionsDecrypt decrypt (codeLines local_ini) := by
  unfold ReadsSections loadCodes documentedCodes SectionsDecrypt
  constructor
  · rintro ⟨codes, hload, hdoc⟩
    obtain ⟨p1, hp1, hload⟩ := bind_eq_ok.mp hload
    obtain ⟨p2, hp2, hload⟩ := bind_eq_ok.mp hload
    obtain ⟨q1, hq1, hdoc⟩ := bind_eq_ok.mp hdoc
    obtain ⟨q2, hq2, hdoc⟩ := bind_eq_ok.mp hdoc
    have hlen : p1.length + p2.length = q1.length + q2.length := by
      rw [← List.length_append, ← List.length_append, Except.ok.inj hload, Except.ok.inj hdoc]
    obtain ⟨hle1, hsep1⟩ := length_readLines hp1 hq1
    obtain ⟨hle2, hsep2⟩ := length_readLines hp2 hq2
    exact ⟨⟨hsep1 (by omega), (returns_codesOfSections _ _).mp ⟨q1, hq1⟩⟩, hsep2 (by omega),
      (returns_codesOfSections _ _).mp ⟨q2, hq2⟩⟩
  · rintro ⟨⟨hsep1, hdec1⟩, hsep2, hdec2⟩
    obtain ⟨q1, hq1⟩ := (returns_codesOfSections (enabledNames local_ini) false).mpr hdec1
    obtain ⟨q2, hq2⟩ := (returns_codesOfSections (enabledNames local_ini) true).mpr hdec2
    dsimp only
    refine ⟨q1 ++ q2, ?_, ?_⟩
    · rw [readLines_of_separated hsep1, readLines_of_separated hsep2, hq1, hq2]
      rfl
    · rw [hq1, hq2]
      rfl

/-- `DecryptARCode`, whose checksum takes at most 256 rounds where it ends. -/
def decryptOps (lost : BitVec 32) (uninit : Words) : Decrypt := fun lines =>
  (decryptARCode 0x100 lost uninit lines).map (·.ops)

theorem returns_decryptOps (lost : BitVec 32) (uninit : Words) (lines : List EncryptedLine) :
    Returns (decryptOps lost uninit lines) ↔ Decryptable lost lines := by
  unfold decryptOps
  constructor
  · intro h
    by_contra hnot
    refine not_returns_of_not_decryptable uninit hnot 0x100 ?_
    cases hrun : decryptARCode 0x100 lost uninit lines with
    | error e =>
      rw [hrun] at h
      obtain ⟨ops, hops⟩ := h
      cases hops
    | ok decrypted => exact ⟨decrypted, rfl⟩
  · intro h
    obtain ⟨decrypted, hrun, -⟩ := decryptARCode_of_decryptable uninit h (by decide : 0xFF < 0x100)
    exact ⟨decrypted.ops, by rw [hrun]; rfl⟩

/-! ## lines that were saved -/

theorem hexDigit_spec : ∀ n < 16, isHexDigit (hexDigit n) = true ∧ hexValue (hexDigit n) = n ∧
    isSpace (hexDigit n) = false ∧ hexDigit n ≠ 0x23 ∧ hexDigit n ≠ 0x24 := by
  decide

theorem mem_hex8 {v : BitVec 32} {c : Byte} (h : c ∈ hex8 v) : ∃ n < 16, c = hexDigit n := by
  obtain ⟨i, -, rfl⟩ := List.mem_map.mp h
  exact ⟨_, Nat.mod_lt _ (by decide), rfl⟩

theorem length_hex8 (v : BitVec 32) : (hex8 v).length = 8 := rfl

theorem tryParseHex_hex8 (v : BitVec 32) : tryParseHex (hex8 v) = some v := by
  have hdigits : (hex8 v).takeWhile isHexDigit = hex8 v := by
    rw [List.takeWhile_eq_self_iff]
    intro c hc
    obtain ⟨n, hn, rfl⟩ := mem_hex8 hc
    exact (hexDigit_spec n hn).1
  have hvalue (i : Nat) : hexValue (hexDigit (v.toNat / 16 ^ i % 16)) = v.toNat / 16 ^ i % 16 :=
    (hexDigit_spec _ (Nat.mod_lt _ (by decide))).2.1
  have hfold : (hex8 v).foldl (fun value c => value * 16 + hexValue c) 0 = v.toNat := by
    have hstep (k : Nat) : v.toNat / 16 ^ (k + 1) * 16 + v.toNat / 16 ^ k % 16 =
        v.toNat / 16 ^ k := by
      rw [Nat.pow_succ, ← Nat.div_div_eq_div_mul, Nat.div_add_mod']
    have htop : v.toNat / 16 ^ (7 + 1) = 0 := Nat.div_eq_of_lt v.isLt
    have hfirst := hstep 7
    rw [htop] at hfirst
    simp only [hex8, List.map_cons, List.map_nil, List.foldl_cons, List.foldl_nil, hvalue]
    rw [hfirst, hstep 6, hstep 5, hstep 4, hstep 3, hstep 2, hstep 1, hstep 0, Nat.pow_zero,
      Nat.div_one]
  unfold tryParseHex
  dsimp only
  rw [hdigits, hfold, List.drop_length, BitVec.ofNat_toNat, BitVec.setWidth_eq]
  rfl

theorem not_mem_hex8 (v : BitVec 32) : (0x20 : Byte) ∉ hex8 v ∧ (0x23 : Byte) ∉ hex8 v := by
  constructor <;> intro h <;> obtain ⟨n, hn, hc⟩ := mem_hex8 h
  · have hspace := (hexDigit_spec n hn).2.2.1
    rw [← hc] at hspace
    cases hspace
  · exact (hexDigit_spec n hn).2.2.2.1 hc.symm

theorem opLine_spec (op : AREntry) :
    cleanLine true (opLine op) = some (opLine op) ∧ parseLine (opLine op) = .plain op := by
  have hhead : (opLine op).head? = some (hexDigit (op.cmd_addr.toNat / 16 ^ 7 % 16)) := rfl
  have hlt (n : Nat) : n % 16 < 16 := Nat.mod_lt _ (by decide)
  constructor
  · refine cleanLine_eq_self true ?_ ?_ ?_
    · intro c hc
      rw [← Option.mem_some.mp hc]
      exact (hexDigit_spec _ (hlt _)).2.2.1
    · intro c hc
      rw [← Option.mem_some.mp hc]
      exact (hexDigit_spec _ (hlt _)).2.2.1
    · simp only [opLine, List.mem_append, List.mem_cons, not_or]
      exact ⟨(not_mem_hex8 _).2, by decide, (not_mem_hex8 _).2⟩
  · have hname : (opLine op).head? ≠ some 0x24 := by
      rw [hhead, ne_eq, Option.some_inj]
      exact (hexDigit_spec _ (hlt _)).2.2.2.2
    have hsplit : SplitString 0x20 (opLine op) = [hex8 op.cmd_addr, hex8 op.value] := by
      rw [opLine, splitString_piece (not_mem_hex8 _).1,
        splitString_last (not_mem_hex8 _).1 (by simp [← List.length_eq_zero_iff, length_hex8])]
    unfold parseLine
    rw [if_neg (by simp [opLine]), if_neg hname, hsplit]
    simp only [length_hex8, and_self, if_true, tryParseHex_hex8]

/-- The name that is read back. -/
def cleanedName (name : Str) : Str := ((cleanLine true (0x24 :: name)).getD []).drop 1

/-- A name that is read back as it is: no comment and no spaces at its end. -/
def CleanName (name : Str) : Prop :=
  (0x23 : Byte) ∉ name ∧ ∀ c ∈ name.getLast?, isSpace c = false

theorem cleanLine_nameLine (name : Str) :
    cleanLine true (0x24 :: name) = some (0x24 :: cleanedName name) ∧
      (cleanedName name = name ↔ CleanName name) := by
  obtain ⟨s', hs', hiff⟩ := cleanLine_cons (c := 0x24) (by decide) (by decide) name
  have hname : cleanedName name = s' := by
    rw [cleanedName, hs']
    rfl
  rw [hname]
  exact ⟨hs', hiff⟩

/-! ## codes that were saved -/

/-- Codes of the user, as a list of them that is edited: they have entries and distinct names. -/
structure UserCodes where
  codes : List ARCode
  user_defined : ∀ code ∈ codes, code.user_defined = true
  has_ops : ∀ code ∈ codes, code.ops ≠ []
  distinct : (codes.map (·.name)).Nodup

/-- A code with its name as it is read back, and its flag as it comes from the names that are
enabled. -/
def reloaded (enabled_names : List Str) (code : ARCode) : ARCode :=
  ⟨cleanedName code.name, code.ops, decide (cleanedName code.name ∈ enabled_names), true⟩

theorem enabledNames_saveCodes (local_ini : IniFile) (codes : List ARCode) :
    enabledNames (saveCodes local_ini codes) =
      (codes.filter (·.active)).map fun code => cleanedName code.name := by
  have hne : ciNorm codeSection ≠ ciNorm enabledSection := by decide
  unfold enabledNames saveCodes
  rw [IniFile.getLines_setLines_of_ne hne, IniFile.getLines_setLines]
  induction codes.filter (·.active) with
  | nil => rfl
  | cons code codes ih =>
    rw [List.map_cons, List.filterMap_cons, nameLine, (cleanLine_nameLine code.name).1]
    rw [List.filterMap_cons_some (by rfl), ih]
    rfl

theorem filterMap_opLines (ops : List AREntry) :
    ((ops.map opLine).filterMap (cleanLine true)).map parseLine = ops.map .plain := by
  induction ops with
  | nil => rfl
  | cons op ops ih =>
    obtain ⟨hclean, hparse⟩ := opLine_spec op
    rw [List.map_cons, List.filterMap_cons_some hclean, List.map_cons, hparse, ih, List.map_cons]

theorem codeLines_saveCodes (local_ini : IniFile) (h : ∀ code ∈ codes, code.user_defined = true) :
    codeLines (saveCodes local_ini codes) =
      codes.flatMap fun code => .name (cleanedName code.name) :: code.ops.map .plain := by
  unfold codeLines saveCodes
  rw [IniFile.getLines_setLines, List.filter_eq_self.mpr h]
  clear h
  induction codes with
  | nil => rfl
  | cons code codes ih =>
    have hname : parseLine (0x24 :: cleanedName code.name) = .name (cleanedName code.name) := by
      rw [parseLine, if_neg (List.cons_ne_nil _ _), List.head?_cons, if_pos rfl, List.drop_one,
        List.tail_cons]
    rw [List.flatMap_cons, List.flatMap_cons, List.filterMap_append, List.map_append, ih, nameLine,
      List.filterMap_cons_some (cleanLine_nameLine code.name).1, List.map_cons, hname,
      filterMap_opLines]

theorem splitSections_plain (ops : List AREntry) (rest : List ARLine) :
    splitSections (ops.map .plain ++ rest) =
      (ops.map .plain ++ (splitSections rest).1, (splitSections rest).2) := by
  induction ops with
  | nil => rfl
  | cons op ops ih =>
    have hplain : splitSections (.plain op :: (ops.map .plain ++ rest)) =
        (.plain op :: (splitSections (ops.map .plain ++ rest)).1,
          (splitSections (ops.map .plain ++ rest)).2) := rfl
    rw [List.map_cons, List.cons_append, hplain, ih, List.cons_append]

theorem splitSections_saved (codes : List ARCode) : splitSections (codes.flatMap fun code =>
        .name (cleanedName code.name) :: code.ops.map .plain) =
      ([], codes.map fun code => ⟨cleanedName code.name, code.ops.map .plain⟩) := by
  induction codes with
  | nil => rfl
  | cons code codes ih =>
    rw [List.flatMap_cons, List.cons_append, splitSections, splitSections_plain, ih, List.append_nil,
      List.map_cons]

theorem plainOps_plain (ops : List AREntry) : plainOps (ops.map .plain) = ops := by
  induction ops with
  | nil => rfl
  | cons op ops ih => exact congrArg (op :: ·) ih

theorem encryptedLines_plain (ops : List AREntry) : encryptedLines (ops.map .plain) = [] := by
  induction ops with
  | nil => rfl
  | cons op ops ih => exact ih

theorem codesOfSections_saved (h : ∀ code ∈ codes, code.ops ≠ []) :
    codesOfSections decrypt enabled_names true
        (codes.map fun code => ⟨cleanedName code.name, code.ops.map .plain⟩) =
      .ok (codes.map (reloaded enabled_names)) := by
  induction codes with
  | nil => rfl
  | cons code codes ih =>
    obtain ⟨hcode, hcodes⟩ := List.forall_mem_cons.mp h
    have hsection : sectionCode decrypt enabled_names true
        ⟨cleanedName code.name, code.ops.map .plain⟩ = .ok [reloaded enabled_names code] := by
      unfold sectionCode decryptedOps
      simp only [plainOps_plain, encryptedLines_plain]
      rw [if_neg fun h => hcode h.1, if_pos trivial]
      change Except.ok [ARCode.mk _ (code.ops ++ []) _ _] = _
      rw [List.append_nil]
      rfl
    rw [List.map_cons, codesOfSections, hsection, ih hcodes]
    rfl

theorem loadCodes_saveCodes (flags : Bool × Bool) {global_ini : IniFile}
    (hglobal : codeLines global_ini = []) (local_ini : IniFile) (user : UserCodes) :
    loadCodes decrypt flags global_ini (saveCodes local_ini user.codes) =
      .ok (user.codes.map (reloaded (enabledNames (saveCodes local_ini user.codes)))) := by
  have hlines := codeLines_saveCodes local_ini user.user_defined
  have hsections := splitSections_saved user.codes
  have hsep : Separated (codeLines (saveCodes local_ini user.codes)) := by
    rw [hlines]
    refine ⟨by rw [hsections]; rfl, by rw [hsections]; rfl, fun s hs => ?_⟩
    rw [hsections] at hs
    obtain ⟨code, -, rfl⟩ := List.mem_map.mp hs
    exact fun h => h.2 (encryptedLines_plain code.ops)
  unfold loadCodes
  dsimp only
  rw [readLines_of_separated hsep, hlines, hsections, codesOfSections_saved user.has_ops, hglobal]
  rfl

/-- `LoadCodes` after `SaveCodes` returns the codes. -/
def SavedAreLoaded (decrypt : Decrypt) (flags : Bool × Bool) (local_ini : IniFile)
    (user : UserCodes) : Prop :=
  ∀ global_ini, codeLines global_ini = [] →
    loadCodes decrypt flags global_ini (saveCodes local_ini user.codes) = .ok user.codes

theorem mem_activeNames (h : (codes.map (·.name)).Nodup) {code : ARCode} (hcode : code ∈ codes) :
    code.name ∈ (codes.filter (·.active)).map (·.name) ↔ code.active = true := by
  constructor
  · intro hmem
    obtain ⟨other, hother, hname⟩ := List.mem_map.mp hmem
    obtain ⟨hmem', hactive⟩ := List.mem_filter.mp hother
    rwa [← List.inj_on_of_nodup_map h hmem' hcode hname]
  · intro hactive
    exact List.mem_map_of_mem (List.mem_filter.mpr ⟨hcode, hactive⟩)

theorem savedAreLoaded_iff (flags : Bool × Bool) (local_ini : IniFile) (user : UserCodes) :
    SavedAreLoaded decrypt flags local_ini user ↔ ∀ code ∈ user.codes, CleanName code.name := by
  constructor
  · intro h code hcode
    have hnil : codeLines ([] : IniFile) = [] := rfl
    have hload := (loadCodes_saveCodes flags hnil local_ini user).symm.trans (h [] hnil)
    have hmap := Except.ok.inj hload
    have hsame : reloaded (enabledNames (saveCodes local_ini user.codes)) code = code :=
      List.map_inj_left.mp (hmap.trans (List.map_id _).symm) code hcode
    exact (cleanLine_nameLine code.name).2.mp (congrArg ARCode.name hsame)
  · intro h global_ini hglobal
    rw [loadCodes_saveCodes flags hglobal]
    have hname : ∀ code ∈ user.codes, cleanedName code.name = code.name := fun code hcode =>
      (cleanLine_nameLine code.name).2.mpr (h code hcode)
    have hnames : enabledNames (saveCodes local_ini user.codes) =
        (user.codes.filter (·.active)).map (·.name) := by
      rw [enabledNames_saveCodes]
      exact List.map_congr_left fun code hcode => hname code (List.mem_of_mem_filter hcode)
    congr 1
    refine (List.map_congr_left fun code hcode => ?_).trans (List.map_id _)
    have hactive : decide (code.name ∈ (user.codes.filter (·.active)).map (·.name)) =
        code.active := by
      rw [Bool.eq_iff_iff, decide_eq_true_eq]
      exact mem_activeNames user.distinct hcode
    rw [reloaded, hnames, hname code hcode, hactive, ← user.user_defined code hcode]
    rfl

/-- A file whose sections are read one by one. -/
def Readable (lost : BitVec 32) (lines : List ARLine) : Prop :=
  Separated lines ∧ ∀ s ∈ (splitSections lines).2, encryptedLines s.lines ≠ [] →
    Decryptable lost (encryptedLines s.lines)

/-- `$A` with a plain entry and an encrypted line. -/
def mixedIni : IniFile :=
  [⟨codeSection, [], [], [[0x24, 0x41], opLine ⟨1, 2⟩,
    [0x30, 0x30, 0x30, 0x30, 0x2D, 0x30, 0x30, 0x30, 0x30, 0x2D, 0x30, 0x30, 0x30, 0x30, 0x30]]⟩]

/-- A code with the name `A#1`. -/
def numberedCode : UserCodes where
  codes := [⟨[0x41, 0x23, 0x31], [⟨0x04000000, 1⟩], true, true⟩]
  user_defined := by decide
  has_ops := by decide
  distinct := by decide

end ActionReplay

end DolphinCore
