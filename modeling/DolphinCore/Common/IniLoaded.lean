import DolphinCore.Common.IniKeys

/-!
# DolphinCore.Common.IniLoaded

What a section can hold after a file was loaded: its name, keys, values and raw
lines come out of lines, so that each of them can stand in a line again.
-/

namespace DolphinCore

/-! ## parts of a line -/

section

variable {line k v : Str}

theorem parseLine_of_comment (h : line.head? = some 0x23) : ParseLine line = ([], []) := if_pos h

theorem parseLine_of_not_mem (h : (0x3d : Byte) ∉ line) : ParseLine line = ([], []) := by
  unfold ParseLine
  split
  · rfl
  · rw [StdString.find_singleton_of_not_mem h]

theorem parseLine_append (hhead : (k ++ 0x3d :: v).head? ≠ some 0x23) (hk : (0x3d : Byte) ∉ k) :
    ParseLine (k ++ 0x3d :: v) = (StripSpaces k, StripQuotes (StripSpaces v)) := by
  unfold ParseLine
  rw [if_neg hhead, StdString.find_singleton hk]
  have hkey : StdString.substr (k ++ 0x3d :: v) 0 k.length = k := by
    rw [StdString.substr, List.drop_zero, List.take_left]
  have hvalue : (k ++ 0x3d :: v).drop (k.length + 1) = v := by
    rw [← List.drop_drop, List.drop_left, List.drop_one, List.tail_cons]
  simp only [hkey, hvalue]

theorem parseLine_cases (line : Str) :
    ParseLine line = ([], []) ∨ ∃ k v, line = k ++ 0x3d :: v ∧ (0x3d : Byte) ∉ k ∧
      ParseLine line = (StripSpaces k, StripQuotes (StripSpaces v)) := by
  by_cases hhead : line.head? = some 0x23
  · exact .inl (parseLine_of_comment hhead)
  · by_cases hmem : (0x3d : Byte) ∈ line
    · obtain ⟨k, v, rfl, hk⟩ := List.eq_append_cons_of_mem hmem
      exact .inr ⟨k, v, rfl, hk, parseLine_append hhead hk⟩
    · exact .inl (parseLine_of_not_mem hmem)

theorem not_mem_of_infix {s t : Str} {c : Byte} (h : s <:+: t) (hc : c ∉ t) : c ∉ s :=
  fun hs => hc (h.mem hs)

theorem parseLine_key_not_eq (line : Str) : (0x3d : Byte) ∉ (ParseLine line).1 := by
  rcases parseLine_cases line with h | ⟨k, v, -, hk, h⟩
  · rw [h]
    exact List.not_mem_nil
  · rw [h]
    exact not_mem_of_infix (stripSpaces_isInfix k) hk

theorem parseLine_key_stripped (line : Str) :
    StripSpaces (ParseLine line).1 = (ParseLine line).1 := by
  rcases parseLine_cases line with h | ⟨k, v, -, -, h⟩
  · rw [h]
    rfl
  · rw [h]
    exact stripSpaces_idem k

theorem parseLine_key_not_mem {c : Byte} (h : c ∉ line) : c ∉ (ParseLine line).1 := by
  rcases parseLine_cases line with hl | ⟨k, v, rfl, -, hl⟩
  · rw [hl]
    exact List.not_mem_nil
  · rw [hl]
    have hk : c ∉ k := fun hc => h (List.mem_append_left _ hc)
    exact not_mem_of_infix (stripSpaces_isInfix k) hk

theorem parseLine_value_not_mem {c : Byte} (h : c ∉ line) : c ∉ (ParseLine line).2 := by
  rcases parseLine_cases line with hl | ⟨k, v, rfl, -, hl⟩
  · rw [hl]
    exact List.not_mem_nil
  · rw [hl]
    have hv : c ∉ v := fun hc => h (List.mem_append_right _ (List.mem_cons_of_mem _ hc))
    exact not_mem_of_infix ((stripQuotes_isInfix _).trans (stripSpaces_isInfix v)) hv

/-! ## carriage returns -/

namespace IniFile

theorem takeCR_concat (s : Str) : takeCR (s ++ [0x0d]) = s := by
  rw [takeCR, if_pos (by simp), List.dropLast_concat]

theorem takeCR_of_ne (h : line.getLast? ≠ some 0x0d) : takeCR line = line := if_neg h

theorem takeCR_cases (line : Str) : takeCR line = line ∨ line = takeCR line ++ [0x0d] := by
  unfold takeCR
  split
  · next h => exact .inr (List.dropLast_append_getLast? _ h).symm
  · exact .inl rfl

theorem takeCR_isInfix (line : Str) : takeCR line <:+: line := by
  unfold takeCR
  split
  · exact (List.dropLast_prefix line).isInfix
  · exact List.infix_refl line

theorem takeCR_eq_self_iff : takeCR line = line ↔ line.getLast? ≠ some 0x0d := by
  constructor
  · rintro h hlast
    rw [takeCR, if_pos hlast] at h
    have hlen := congrArg List.length h
    rw [List.length_dropLast] at hlen
    cases line with
    | nil => cases hlast
    | cons c cs =>
      rw [List.length_cons] at hlen
      omega
  · exact takeCR_of_ne

theorem takeCR_head (h : takeCR line ≠ []) : (takeCR line).head? = line.head? := by
  rcases takeCR_cases line with hl | hl
  · rw [hl]
  · obtain ⟨c, cs, hcs⟩ := List.exists_cons_of_ne_nil h
    rw [hl, takeCR_concat, hcs]
    rfl

theorem parseLine_takeCR (line : Str) : ParseLine (takeCR line) = ParseLine line := by
  rcases takeCR_cases line with hl | hl
  · rw [hl]
  · generalize takeCR line = s at hl
    subst hl
    cases s with
    | nil => rfl
    | cons c cs =>
      have hhead : ((c :: cs) ++ [0x0d]).head? = (c :: cs).head? := rfl
      by_cases hc : (c :: cs).head? = some 0x23
      · rw [parseLine_of_comment hc, parseLine_of_comment (hhead.trans hc)]
      · by_cases hmem : (0x3d : Byte) ∈ c :: cs
        · obtain ⟨k, v, hkv, hk⟩ := List.eq_append_cons_of_mem hmem
          rw [hkv] at hhead hc ⊢
          have hc' := hhead ▸ hc
          rw [List.append_assoc, List.cons_append] at hc' ⊢
          rw [parseLine_append hc hk, parseLine_append hc' hk, stripSpaces_concat rfl]
        · have hmem' : (0x3d : Byte) ∉ (c :: cs) ++ [0x0d] := by
            rw [List.mem_append, not_or]
            exact ⟨hmem, by decide⟩
          rw [parseLine_of_not_mem hmem, parseLine_of_not_mem hmem']

end IniFile

end

/-! ## loaded sections -/

/-- The parts of the section come out of lines without line feeds. -/
structure Loaded (s : Section) : Prop where
  keysOk : KeysOk s
  name_close : (0x5d : Byte) ∉ s.name
  name_line : (0x0a : Byte) ∉ s.name
  key_stripped : ∀ p ∈ s.values, StripSpaces p.1 = p.1
  key_equals : ∀ p ∈ s.values, (0x3d : Byte) ∉ p.1
  key_line : ∀ p ∈ s.values, (0x0a : Byte) ∉ p.1
  value_line : ∀ p ∈ s.values, (0x0a : Byte) ∉ p.2
  raw_ne_nil : ∀ line ∈ s.m_lines, line ≠ []
  raw_line : ∀ line ∈ s.m_lines, (0x0a : Byte) ∉ line
  raw_head : ∀ line ∈ s.m_lines, line.head? ≠ some 0x5b
  raw : ∀ line ∈ s.m_lines, ParseLine line = ([], []) ∨ verbatim line

theorem Section.forall_values_set {P : Str × Str → Prop} {s : Section} {key newValue : Str}
    (h : ∀ p ∈ s.values, P p) (hold : ∀ k v, P (k, v) → P (k, newValue)) (hnew : P (key, newValue)) :
    ∀ p ∈ (s.Set key newValue).values, P p := by
  unfold Section.Set
  split
  · intro p hp
    obtain ⟨q, hq, rfl⟩ := List.mem_map.mp hp
    split
    · exact hold q.1 q.2 (h q hq)
    · exact h q hq
  · exact List.forall_mem_append.mpr ⟨h, List.forall_mem_singleton.mpr hnew⟩

theorem Section.set_name (s : Section) (key newValue : Str) :
    (s.Set key newValue).name = s.name := by
  unfold Section.Set
  split <;> rfl

theorem Section.set_m_lines (s : Section) (key newValue : Str) :
    (s.Set key newValue).m_lines = s.m_lines := by
  unfold Section.Set
  split <;> rfl

theorem Section.addLine_name (s : Section) (line : Str) : (s.addLine line).name = s.name := by
  unfold Section.addLine
  simp only
  split
  · rfl
  · exact s.set_name _ _

namespace Loaded

variable {s : Section} {line : Str}

theorem new {name : Str} (hclose : (0x5d : Byte) ∉ name) (hline : (0x0a : Byte) ∉ name) :
    Loaded (.new name) :=
  ⟨KeysOk.new name, hclose, hline, nofun, nofun, nofun, nofun, nofun, nofun, nofun, nofun⟩

theorem set (h : Loaded s) (hline : (0x0a : Byte) ∉ line) :
    Loaded (s.Set (ParseLine line).1 (ParseLine line).2) where
  keysOk := h.keysOk.set _ _
  name_close := by
    rw [s.set_name]
    exact h.name_close
  name_line := by
    rw [s.set_name]
    exact h.name_line
  key_stripped :=
    Section.forall_values_set h.key_stripped (fun _ _ h => h) (parseLine_key_stripped line)
  key_equals := Section.forall_values_set h.key_equals (fun _ _ h => h) (parseLine_key_not_eq line)
  key_line := Section.forall_values_set h.key_line (fun _ _ h => h) (parseLine_key_not_mem hline)
  value_line :=
    Section.forall_values_set h.value_line (fun _ _ _ => parseLine_value_not_mem hline)
      (parseLine_value_not_mem hline)
  raw_ne_nil := by
    rw [s.set_m_lines]
    exact h.raw_ne_nil
  raw_line := by
    rw [s.set_m_lines]
    exact h.raw_line
  raw_head := by
    rw [s.set_m_lines]
    exact h.raw_head
  raw := by
    rw [s.set_m_lines]
    exact h.raw

theorem keep (h : Loaded s) (hne : line ≠ []) (hline : (0x0a : Byte) ∉ line)
    (hhead : line.head? ≠ some 0x5b) (hraw : ParseLine line = ([], []) ∨ verbatim line) :
    Loaded { s with m_lines := s.m_lines ++ [line] } :=
  { h with
    keysOk := ⟨h.keysOk.order, h.keysOk.distinct⟩
    raw_ne_nil := List.forall_mem_append.mpr ⟨h.raw_ne_nil, List.forall_mem_singleton.mpr hne⟩
    raw_line := List.forall_mem_append.mpr ⟨h.raw_line, List.forall_mem_singleton.mpr hline⟩
    raw_head := List.forall_mem_append.mpr ⟨h.raw_head, List.forall_mem_singleton.mpr hhead⟩
    raw := List.forall_mem_append.mpr ⟨h.raw, List.forall_mem_singleton.mpr hraw⟩ }

theorem addLine (h : Loaded s) (hne : line ≠ []) (hline : (0x0a : Byte) ∉ line)
    (hhead : line.head? ≠ some 0x5b) : Loaded (s.addLine line) := by
  unfold Section.addLine
  simp only
  split
  · next hraw =>
    refine h.keep hne hline hhead ?_
    rcases hraw with ⟨hk, hv⟩ | hraw
    · exact .inl (Prod.ext hk hv)
    · exact .inr hraw
  · exact h.set hline

end Loaded

/-! ## loaded files -/

namespace IniFile

/-- The names of the sections differ, not only by case. -/
def NamesDistinct (sections : IniFile) : Prop :=
  (sections.map fun s => ciNorm s.name).Nodup

variable {sections : IniFile}

theorem getSection_eq_none {sectionName : Str} (h : sections.GetSection sectionName = none) :
    ∀ s ∈ sections, ciNorm s.name ≠ ciNorm sectionName := by
  intro s hs
  simpa using List.findIdx?_eq_none_iff.mp h s hs

theorem namesDistinct_concat {s : Section} (h : sections.NamesDistinct)
    (hs : ∀ t ∈ sections, ciNorm t.name ≠ ciNorm s.name) :
    NamesDistinct (sections ++ [s]) := by
  unfold NamesDistinct
  rw [List.map_append, List.nodup_append]
  refine ⟨h, List.nodup_singleton _, fun a ha b hb => ?_⟩
  obtain ⟨t, ht, rfl⟩ := List.mem_map.mp ha
  obtain rfl := List.mem_singleton.mp hb
  exact hs t ht

theorem namesDistinct_getOrCreate (h : sections.NamesDistinct) (sectionName : Str) :
    (sections.GetOrCreateSection sectionName).1.NamesDistinct := by
  unfold GetOrCreateSection
  split
  · exact h
  · next hnone => exact namesDistinct_concat h (getSection_eq_none hnone)

theorem namesDistinct_modify (h : sections.NamesDistinct) {f : Section → Section}
    (hf : ∀ s, (f s).name = s.name) (i : Nat) :
    NamesDistinct (sections.modify i f) := by
  unfold NamesDistinct at h ⊢
  have hmap : (sections.modify i f).map (fun s => ciNorm s.name) =
      sections.map fun s => ciNorm s.name := by
    clear h
    induction sections generalizing i with
    | nil => rw [List.modify_nil]
    | cons s sections ih =>
      cases i with
      | zero => rw [List.modify_zero_cons, List.map_cons, List.map_cons, hf]
      | succ i => rw [List.modify_succ_cons, List.map_cons, List.map_cons, ih]
  rw [hmap]
  exact h

theorem header_name {line : Str} {endpos : Nat}
    (h : StdString.find (0x5b :: line) [0x5d] 0 = some endpos) :
    (0x5d : Byte) ∉ StdString.substr (0x5b :: line) 1 (endpos - 1) := by
  obtain ⟨p, r, hline, hp, rfl⟩ := StdString.find_singleton_eq_some h
  cases p with
  | nil => cases hline
  | cons c p =>
    rw [List.cons_append] at hline
    obtain ⟨rfl, rfl⟩ := List.cons.inj hline
    have hname : StdString.substr (0x5b :: (p ++ 0x5d :: r)) 1 ((0x5b :: p).length - 1) = p := by
      rw [StdString.substr, List.drop_one, List.tail_cons, List.length_cons, Nat.add_sub_cancel,
        List.take_left]
    rw [hname]
    exact fun hc => hp (List.mem_cons_of_mem _ hc)

theorem loaded_loadLine {st : LoadState} {line : Str} (h : ∀ s ∈ st.sections, Loaded s)
    (hdistinct : st.sections.NamesDistinct) (hline : (0x0a : Byte) ∉ line) :
    (∀ s ∈ (loadLine st line).sections, Loaded s) ∧ (loadLine st line).sections.NamesDistinct := by
  cases line with
  | nil => exact ⟨h, hdistinct⟩
  | cons c line =>
    by_cases hc : c = 0x5b
    · subst hc
      rw [loadLine, if_pos rfl]
      cases hend : StdString.find (0x5b :: line) [0x5d] 0 with
      | none => exact ⟨h, hdistinct⟩
      | some endpos =>
        have hname : (0x0a : Byte) ∉ StdString.substr (0x5b :: line) 1 (endpos - 1) :=
          not_mem_of_infix ((List.take_prefix _ _).isInfix.trans (List.drop_suffix _ _).isInfix) hline
        exact ⟨forall_getOrCreate (Loaded.new (header_name hend) hname) h,
          namesDistinct_getOrCreate hdistinct _⟩
    · rw [loadLine, if_neg hc]
      cases hcurrent : st.current_section with
      | none => exact ⟨h, hdistinct⟩
      | some i =>
        have hhead : (c :: line).head? ≠ some 0x5b := fun h => hc (Option.some.inj h)
        exact ⟨forall_modify (fun s hs => hs.addLine (List.cons_ne_nil _ _) hline hhead) h i,
          namesDistinct_modify hdistinct (fun s => s.addLine_name _) i⟩

theorem not_mem_of_mem_loadLines {text line : Str} (h : line ∈ loadLines text) :
    (0x0a : Byte) ∉ line := by
  have hlines : ∀ line ∈ getlines text, (0x0a : Byte) ∉ line :=
    fun line => not_mem_of_mem_getlines
  unfold loadLines at h
  cases hget : getlines text with
  | nil =>
    rw [hget] at h
    cases h
  | cons first lines =>
    rw [hget] at h hlines
    obtain ⟨hfirst, hrest⟩ := List.forall_mem_cons.mp hlines
    rcases List.mem_cons.mp h with rfl | h
    · have hbom : takeBOM first <:+: first := by
        unfold takeBOM
        split
        · exact (List.drop_suffix _ _).isInfix
        · exact List.infix_refl first
      exact not_mem_of_infix ((takeCR_isInfix _).trans hbom) hfirst
    · obtain ⟨l, hl, rfl⟩ := List.mem_map.mp h
      exact not_mem_of_infix (takeCR_isInfix l) (hrest l hl)

theorem loaded_load (sections : IniFile) (text : Str) :
    (∀ s ∈ sections.Load text false, Loaded s) ∧ (sections.Load text false).NamesDistinct := by
  have hfold : ∀ (lines : List Str) (st : LoadState), (∀ line ∈ lines, (0x0a : Byte) ∉ line) →
      (∀ s ∈ st.sections, Loaded s) → st.sections.NamesDistinct →
      (∀ s ∈ (lines.foldl loadLine st).sections, Loaded s) ∧
        (lines.foldl loadLine st).sections.NamesDistinct := by
    intro lines
    induction lines with
    | nil => exact fun _ _ h hdistinct => ⟨h, hdistinct⟩
    | cons line lines ih =>
      intro st hlines h hdistinct
      obtain ⟨hline, hrest⟩ := List.forall_mem_cons.mp hlines
      obtain ⟨h', hdistinct'⟩ := loaded_loadLine h hdistinct hline
      exact ih _ hrest h' hdistinct'
  exact hfold _ _ (fun line => not_mem_of_mem_loadLines) nofun List.nodup_nil

end IniFile

end DolphinCore
