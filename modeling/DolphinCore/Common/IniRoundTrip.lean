import DolphinCore.Common.IniLoaded

/-!
# DolphinCore.Common.IniRoundTrip

Saving settings and loading them again. The lines of a section begin behind its
header, and each line is read back on its own, so a file comes back as it was when
every line of it does.
-/

namespace DolphinCore

namespace Section

/-! ## contents -/

/-- The keys in their order, with their values. -/
def entries (s : Section) : List (Str × Str) := s.keys_order.filterMap s.find

/-- Nothing is written for a section without contents. -/
def Empty (s : Section) : Prop := s.keys_order = [] ∧ s.m_lines = []

instance : DecidablePred Empty := fun s =>
  inferInstanceAs (Decidable (s.keys_order = [] ∧ s.m_lines = []))

/-- The lines below the header. -/
def bodyLines (s : Section) : List Str :=
  if s.keys_order = [] then s.m_lines else s.values.map fun p => IniFile.keyLine p.1 p.2

end Section

section

variable {s : Section}

theorem KeysOk.find_of_mem (h : KeysOk s) {p : Str × Str} (hp : p ∈ s.values) :
    s.find p.1 = some p := by
  have hfound : (s.find p.1).isSome := by
    rw [Section.find, List.find?_isSome]
    exact ⟨p, hp, by simp⟩
  obtain ⟨q, hq⟩ := Option.isSome_iff_exists.mp hfound
  obtain ⟨hmem, hsame⟩ := KeysOk.mem_of_find hq
  rw [hq, List.inj_on_of_nodup_map h.distinct hmem hp hsame]

theorem KeysOk.entries_eq (h : KeysOk s) : s.entries = s.values := by
  have hvalues : ∀ vs : List (Str × Str), (∀ p ∈ vs, p ∈ s.values) →
      (vs.map Prod.fst).filterMap s.find = vs := by
    intro vs
    induction vs with
    | nil => exact fun _ => rfl
    | cons p vs ih =>
      intro hvs
      obtain ⟨hp, hrest⟩ := List.forall_mem_cons.mp hvs
      rw [List.map_cons, List.filterMap_cons_some (h.find_of_mem hp), ih hrest]
  rw [Section.entries, h.order]
  exact hvalues _ fun _ hp => hp

theorem KeysOk.keyLines_eq (h : KeysOk s) :
    IniFile.keyLines s s.keys_order = some (s.values.map fun p => IniFile.keyLine p.1 p.2) := by
  have hvalues : ∀ vs : List (Str × Str), (∀ p ∈ vs, p ∈ s.values) →
      IniFile.keyLines s (vs.map Prod.fst) = some (vs.map fun p => IniFile.keyLine p.1 p.2) := by
    intro vs
    induction vs with
    | nil => exact fun _ => rfl
    | cons p vs ih =>
      intro hvs
      obtain ⟨hp, hrest⟩ := List.forall_mem_cons.mp hvs
      rw [List.map_cons, IniFile.keyLines, h.find_of_mem hp, Option.bind_some, ih hrest,
        Option.map_some, List.map_cons]
  rw [h.order]
  exact hvalues _ fun _ hp => hp

end

/-! ## the text -/

namespace IniFile

/-- The lines of all sections with contents. -/
def savedLines (sections : IniFile) : List Str :=
  (sections.filter fun s => ¬s.Empty).flatMap fun s => headerLine s.name :: s.bodyLines

theorem saveSection_eq {s : Section} (h : KeysOk s) :
    saveSection s = some (if s.Empty then [] else headerLine s.name :: s.bodyLines) := by
  unfold saveSection Section.bodyLines Section.Empty
  by_cases hkeys : s.keys_order = []
  · by_cases hlines : s.m_lines = []
    · simp [hkeys, hlines]
    · simp [hkeys, hlines]
  · simp [hkeys, h.keyLines_eq]

variable {sections : IniFile}

theorem saveLines_eq (h : ∀ s ∈ sections, KeysOk s) :
    sections.saveLines = some sections.savedLines := by
  induction sections with
  | nil => rfl
  | cons s sections ih =>
    obtain ⟨hs, hrest⟩ := List.forall_mem_cons.mp h
    rw [saveLines, saveSection_eq hs, Option.bind_some, ih hrest, Option.map_some, savedLines,
      savedLines]
    by_cases hempty : s.Empty
    · rw [if_pos hempty, List.filter_cons_of_neg (by simpa using hempty), List.nil_append]
    · rw [if_neg hempty, List.filter_cons_of_pos (by simpa using hempty), List.flatMap_cons]

theorem loadLines_putlines {lines : List Str} (h : ∀ line ∈ lines, (0x0a : Byte) ∉ line)
    (hbom : ∀ line ∈ lines.head?, takeBOM line = line) :
    loadLines (putlines lines) = lines.map takeCR := by
  unfold loadLines
  rw [getlines_putlines h]
  cases lines with
  | nil => rfl
  | cons line lines =>
    rw [List.map_cons]
    simp only [hbom line rfl]

theorem takeBOM_headerLine (name : Str) : takeBOM (headerLine name) = headerLine name := by
  unfold takeBOM headerLine
  rw [if_neg]
  intro h
  have hb : (0xef : Byte) = 0x5b := (List.cons_prefix_cons.mp h).1
  exact absurd hb (by decide)

theorem head_savedLines (sections : IniFile) :
    ∀ line ∈ sections.savedLines.head?, ∃ name, line = headerLine name := by
  intro line hline
  unfold savedLines at hline
  cases hf : sections.filter fun s => ¬s.Empty with
  | nil =>
    rw [hf] at hline
    cases hline
  | cons s rest =>
    rw [hf] at hline
    cases hline
    exact ⟨s.name, rfl⟩

theorem not_mem_keyLine {k v : Str} (hk : (0x0a : Byte) ∉ k) (hv : (0x0a : Byte) ∉ v) :
    (0x0a : Byte) ∉ keyLine k v := by
  unfold keyLine
  simp only [List.mem_append, List.mem_cons, not_or]
  exact ⟨hk, by decide, by decide, by decide, hv⟩

theorem not_mem_bodyLines {s : Section} (h : Loaded s) :
    ∀ line ∈ s.bodyLines, (0x0a : Byte) ∉ line := by
  unfold Section.bodyLines
  split
  · exact h.raw_line
  · intro line hline
    obtain ⟨p, hp, rfl⟩ := List.mem_map.mp hline
    exact not_mem_keyLine (h.key_line p hp) (h.value_line p hp)

theorem not_mem_savedLines (h : ∀ s ∈ sections, Loaded s) :
    ∀ line ∈ sections.savedLines, (0x0a : Byte) ∉ line := by
  intro line hline
  obtain ⟨s, hs, hline⟩ := List.mem_flatMap.mp hline
  have hloaded := h s (List.mem_of_mem_filter hs)
  rcases List.mem_cons.mp hline with rfl | hline
  · unfold headerLine
    simp only [List.mem_cons, List.mem_append, List.not_mem_nil, or_false, not_or]
    exact ⟨by decide, hloaded.name_line, by decide⟩
  · exact not_mem_bodyLines hloaded line hline

theorem load_saved (h : ∀ s ∈ sections, Loaded s) (old : IniFile) :
    old.Load (putlines sections.savedLines) false =
      ((sections.savedLines.map takeCR).foldl loadLine ⟨[], none⟩).sections := by
  unfold Load
  rw [loadLines_putlines (not_mem_savedLines h)]
  · rfl
  · intro line hline
    obtain ⟨name, rfl⟩ := head_savedLines sections line hline
    exact takeBOM_headerLine name

/-! ## sections that are read back -/

/-- A line of a section. -/
def readLine (s : Section) (line : Str) : Section :=
  if takeCR line = [] then s else s.addLine (takeCR line)

/-- A section that is read back from its lines. -/
def reloadSection (s : Section) : Section := s.bodyLines.foldl readLine (.new s.name)

theorem modify_concat (acc : IniFile) (s : Section) (f : Section → Section) :
    (acc ++ [s]).modify acc.length f = acc ++ [f s] := by
  induction acc with
  | nil => rfl
  | cons t acc ih =>
    rw [List.cons_append, List.length_cons, List.modify_succ_cons, ih, List.cons_append]

theorem loadLine_body (acc : IniFile) (s : Section) {line : Str}
    (hhead : (takeCR line).head? ≠ some 0x5b) :
    loadLine ⟨acc ++ [s], some acc.length⟩ (takeCR line) =
      ⟨acc ++ [readLine s line], some acc.length⟩ := by
  unfold readLine
  generalize takeCR line = l at hhead ⊢
  cases l with
  | nil => rfl
  | cons c l =>
    have hc : c ≠ 0x5b := fun hc => hhead (congrArg some hc)
    rw [loadLine, if_neg hc, if_neg (List.cons_ne_nil _ _)]
    simp only [modify_concat]

theorem foldl_body (acc : IniFile) (s : Section) {lines : List Str}
    (hhead : ∀ line ∈ lines, (takeCR line).head? ≠ some 0x5b) :
    (lines.map takeCR).foldl loadLine ⟨acc ++ [s], some acc.length⟩ =
      ⟨acc ++ [lines.foldl readLine s], some acc.length⟩ := by
  induction lines generalizing s with
  | nil => rfl
  | cons line lines ih =>
    obtain ⟨hline, hrest⟩ := List.forall_mem_cons.mp hhead
    rw [List.map_cons, List.foldl_cons, loadLine_body acc s hline, ih _ hrest, List.foldl_cons]

theorem takeCR_headerLine (name : Str) : takeCR (headerLine name) = headerLine name := by
  refine takeCR_of_ne ?_
  have hlast : (headerLine name).getLast? = some 0x5d := by
    rw [headerLine, ← List.cons_append, List.getLast?_concat]
  rw [hlast]
  decide

theorem loadLine_header {acc : IniFile} {name : Str} (current : Option Nat)
    (hname : (0x5d : Byte) ∉ name) (hnew : ∀ t ∈ acc, ciNorm t.name ≠ ciNorm name) :
    loadLine ⟨acc, current⟩ (takeCR (headerLine name)) = ⟨acc ++ [.new name], some acc.length⟩ := by
  have hopen : (0x5d : Byte) ∉ 0x5b :: name := by
    rw [List.mem_cons, not_or]
    exact ⟨by decide, hname⟩
  have hend : StdString.find (0x5b :: (name ++ [0x5d])) [0x5d] 0 = some (name.length + 1) :=
    StdString.find_singleton hopen []
  have hsub : StdString.substr (0x5b :: (name ++ [0x5d])) 1 (name.length + 1 - 1) = name := by
    rw [StdString.substr, List.drop_one, List.tail_cons, Nat.add_sub_cancel, List.take_left]
  have hget : GetSection acc name = none := by
    rw [GetSection, List.findIdx?_eq_none_iff]
    simpa using hnew
  rw [takeCR_headerLine, headerLine, loadLine, if_pos rfl, hend]
  simp only [hsub, GetOrCreateSection, hget]

theorem readLine_name (s : Section) (line : Str) : (readLine s line).name = s.name := by
  unfold readLine
  split
  · rfl
  · exact s.addLine_name _

theorem foldl_readLine_name (lines : List Str) (s : Section) :
    (lines.foldl readLine s).name = s.name := by
  induction lines generalizing s with
  | nil => rfl
  | cons line lines ih => rw [List.foldl_cons, ih, readLine_name]

theorem reloadSection_name (s : Section) : (reloadSection s).name = s.name :=
  foldl_readLine_name _ _

theorem foldl_sections {sections : List Section} (acc : IniFile) (current : Option Nat)
    (hname : ∀ s ∈ sections, (0x5d : Byte) ∉ s.name)
    (hhead : ∀ s ∈ sections, ∀ line ∈ s.bodyLines, (takeCR line).head? ≠ some 0x5b)
    (hdistinct : NamesDistinct sections)
    (hnew : ∀ s ∈ sections, ∀ t ∈ acc, ciNorm t.name ≠ ciNorm s.name) :
    (((sections.flatMap fun s => headerLine s.name :: s.bodyLines).map takeCR).foldl loadLine
      ⟨acc, current⟩).sections = acc ++ sections.map reloadSection := by
  induction sections generalizing acc current with
  | nil => exact (List.append_nil acc).symm
  | cons s sections ih =>
    obtain ⟨hname, hnames⟩ := List.forall_mem_cons.mp hname
    obtain ⟨hhead, hheads⟩ := List.forall_mem_cons.mp hhead
    obtain ⟨hnew, hnews⟩ := List.forall_mem_cons.mp hnew
    obtain ⟨hother, hothers⟩ := List.nodup_cons.mp hdistinct
    have hnext : ∀ t ∈ sections, ∀ u ∈ acc ++ [reloadSection s], ciNorm u.name ≠ ciNorm t.name := by
      intro t ht
      refine List.forall_mem_append.mpr ⟨hnews t ht, List.forall_mem_singleton.mpr ?_⟩
      rw [reloadSection_name]
      exact fun heq => hother (List.mem_map.mpr ⟨t, ht, heq.symm⟩)
    rw [List.flatMap_cons, List.map_append, List.foldl_append, List.map_cons, List.foldl_cons,
      loadLine_header current hname hnew, foldl_body acc _ hhead]
    have hrest := ih (acc ++ [reloadSection s]) (some acc.length) hnames hheads hothers hnext
    rw [List.append_assoc, List.singleton_append, ← List.map_cons] at hrest
    exact hrest

end IniFile

end DolphinCore
