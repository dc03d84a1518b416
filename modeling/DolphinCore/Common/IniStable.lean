import DolphinCore.Common.IniRoundTrip

/-!
# DolphinCore.Common.IniStable

Which sections survive saving and loading. Only keys are written when there are
any, values are not quoted again, and a key may make its line look like something
else.
-/

namespace DolphinCore

/-! ## the condition -/

/-- A key whose line is neither a comment nor a raw line nor a header. -/
def Plain (key : Str) : Prop :=
  key.head? ≠ some 0x23 ∧ verbatim key = false ∧ key.head? ≠ some 0x5b

/-- What is read of a value that was written. -/
def reread (value : Str) : Str := StripQuotes (StripSpaces value)

/-- The section is read back as it was written. -/
structure Stable (s : Section) : Prop where
  kinds : s.keys_order = [] ∨ s.m_lines = []
  keys : ∀ p ∈ s.values, Plain p.1
  pairs : ∀ p ∈ s.values, p ≠ ([], [])
  values : ∀ p ∈ s.values, reread p.2 = p.2
  lines : s.keys_order = [] → ∀ line ∈ s.m_lines, line.getLast? ≠ some 0x0d

/-! ## lines of keys -/

namespace IniFile

variable {s : Section}

section

variable {k v : Str}

theorem takeCR_keyLine_ne (k v : Str) : takeCR (keyLine k v) ≠ [] := by
  intro h
  have hlen := congrArg List.length h
  unfold takeCR keyLine at hlen
  split at hlen
  · simp at hlen
  · simp at hlen

theorem takeCR_keyLine_head (k v : Str) :
    (takeCR (keyLine k v)).head? = some (k.head?.getD 0x20) := by
  rw [takeCR_head (takeCR_keyLine_ne k v)]
  cases k <;> rfl

theorem verbatim_congr {l l' : Str} (h : l.head? = l'.head?) : verbatim l = verbatim l' := by
  unfold verbatim
  rw [h]

theorem verbatim_keyLine (k v : Str) :
    verbatim (takeCR (keyLine k v)) = verbatim [k.head?.getD 0x20] :=
  verbatim_congr (takeCR_keyLine_head k v)

theorem parseLine_keyLine (hhead : k.head? ≠ some 0x23) (hstripped : StripSpaces k = k)
    (hk : (0x3d : Byte) ∉ k) : ParseLine (takeCR (keyLine k v)) = (k, reread v) := by
  have hline : keyLine k v = (k ++ [0x20]) ++ 0x3d :: 0x20 :: v := by
    rw [keyLine, List.append_assoc]
    rfl
  have hk' : (0x3d : Byte) ∉ k ++ [0x20] := by
    rw [List.mem_append, not_or]
    exact ⟨hk, by decide⟩
  have hhead' : ((k ++ [0x20]) ++ 0x3d :: 0x20 :: v).head? ≠ some 0x23 := by
    cases k with
    | nil => exact by simp
    | cons c k => exact hhead
  rw [parseLine_takeCR, hline, parseLine_append hhead' hk', stripSpaces_concat rfl, hstripped,
    stripSpaces_cons rfl, reread]

theorem plain_iff_head : Plain k ↔ k.head?.getD 0x20 ≠ 0x23 ∧ verbatim [k.head?.getD 0x20] = false ∧
      k.head?.getD 0x20 ≠ 0x5b := by
  cases k <;> simp [Plain, verbatim]

theorem readLine_keyLine (hplain : Plain k) (hstripped : StripSpaces k = k)
    (hk : (0x3d : Byte) ∉ k) :
    readLine s (keyLine k v) =
      if (k, reread v) = (([], []) : Str × Str) then
        { s with m_lines := s.m_lines ++ [takeCR (keyLine k v)] }
      else s.Set k (reread v) := by
  have hverbatim : verbatim (takeCR (keyLine k v)) = false := by
    rw [verbatim_keyLine]
    exact (plain_iff_head.mp hplain).2.1
  unfold readLine Section.addLine
  rw [if_neg (takeCR_keyLine_ne k v), parseLine_keyLine hplain.1 hstripped hk]
  simp [hverbatim, Prod.ext_iff]

/-- A line that sets a key sets a plain one. -/
def SetsPlain (line : Str) : Prop :=
  line.head? ≠ some 0x5b → verbatim line = false → ParseLine line ≠ ([], []) →
    Plain (ParseLine line).1

theorem setsPlain_keyLine (hstripped : StripSpaces k = k) (hk : (0x3d : Byte) ∉ k) :
    SetsPlain (takeCR (keyLine k v)) := by
  intro hheader hverbatim hparse
  have hhead : k.head? ≠ some 0x23 := by
    intro hcomment
    refine hparse (parseLine_of_comment ?_)
    rw [takeCR_keyLine_head, hcomment]
    rfl
  rw [parseLine_keyLine hhead hstripped hk, plain_iff_head]
  rw [takeCR_keyLine_head] at hheader
  rw [verbatim_keyLine] at hverbatim
  refine ⟨?_, hverbatim, fun h => hheader (congrArg some h)⟩
  intro hcomment
  cases k with
  | nil =>
    have hspace : (0x20 : Byte) = 0x23 := hcomment
    exact absurd hspace (by decide)
  | cons c k => exact hhead (congrArg some hcomment)

end

/-! ## keys after loading a saved file -/

/-- All keys of a section are plain. -/
def KeysPlain (s : Section) : Prop := ∀ p ∈ s.values, Plain p.1

theorem keysPlain_addLine {line : Str} (h : KeysPlain s) (hline : SetsPlain line)
    (hhead : line.head? ≠ some 0x5b) : KeysPlain (s.addLine line) := by
  unfold Section.addLine
  simp only
  split
  · exact h
  · next hset =>
    obtain ⟨hparse, hverbatim⟩ := not_or.mp hset
    have hparse' : ParseLine line ≠ ([], []) := fun he => hparse (Prod.ext_iff.mp he)
    exact Section.forall_values_set h (fun _ _ hk => hk)
      (hline hhead (Bool.eq_false_iff.mpr hverbatim) hparse')

theorem keysPlain_loadLine {st : LoadState} {line : Str} (h : ∀ s ∈ st.sections, KeysPlain s)
    (hline : SetsPlain line) : ∀ s ∈ (loadLine st line).sections, KeysPlain s := by
  unfold loadLine
  split
  · exact h
  · next c l =>
    split
    · split
      · exact h
      · exact forall_getOrCreate (fun _ hp => by cases hp) h
    · next hc =>
      split
      · exact h
      · have hhead : (c :: l).head? ≠ some 0x5b := fun h => hc (Option.some.inj h)
        exact forall_modify (fun s hs => keysPlain_addLine hs hline hhead) h _

theorem setsPlain_saved {sections : IniFile} (h : ∀ s ∈ sections, Loaded s) :
    ∀ line ∈ sections.savedLines, SetsPlain (takeCR line) := by
  intro line hline
  obtain ⟨s, hs, hline⟩ := List.mem_flatMap.mp hline
  have hloaded := h s (List.mem_of_mem_filter hs)
  rcases List.mem_cons.mp hline with rfl | hline
  · rw [takeCR_headerLine]
    exact fun hheader => absurd rfl hheader
  · unfold Section.bodyLines at hline
    split at hline
    · intro hheader hverbatim hparse
      rw [parseLine_takeCR] at hparse
      rcases hloaded.raw line hline with hraw | hraw
      · exact absurd hraw hparse
      · by_cases hne : takeCR line = []
        · rw [← parseLine_takeCR, hne] at hparse
          exact absurd rfl hparse
        · rw [verbatim_congr (takeCR_head hne), hraw] at hverbatim
          cases hverbatim
    · obtain ⟨p, hp, rfl⟩ := List.mem_map.mp hline
      exact setsPlain_keyLine (hloaded.key_stripped p hp) (hloaded.key_equals p hp)

theorem keysPlain_saved {sections : IniFile} (h : ∀ s ∈ sections, Loaded s) (old : IniFile) :
    ∀ s ∈ old.Load (putlines sections.savedLines) false, KeysPlain s := by
  rw [load_saved h old]
  have hfold : ∀ (lines : List Str) (st : LoadState), (∀ line ∈ lines, SetsPlain (takeCR line)) →
      (∀ s ∈ st.sections, KeysPlain s) →
      ∀ s ∈ ((lines.map takeCR).foldl loadLine st).sections, KeysPlain s := by
    intro lines
    induction lines with
    | nil => exact fun _ _ h => h
    | cons line lines ih =>
      intro st hlines hst
      obtain ⟨hline, hrest⟩ := List.forall_mem_cons.mp hlines
      exact ih _ hrest (keysPlain_loadLine hst hline)
  exact hfold _ _ (setsPlain_saved h) nofun

/-! ## what a section becomes -/

theorem set_new {k v : Str} (h : ∀ p ∈ s.values, ciNorm p.1 ≠ ciNorm k) :
    s.Set k v = { s with values := s.values ++ [(k, v)], keys_order := s.keys_order ++ [k] } := by
  have hfind : s.find k = none := by
    rw [Section.find, List.find?_eq_none]
    simpa using h
  unfold Section.Set
  rw [hfind]

theorem foldl_keyLines_values {vs : List (Str × Str)} (s : Section)
    (hplain : ∀ p ∈ vs, Plain p.1) (hstripped : ∀ p ∈ vs, StripSpaces p.1 = p.1)
    (hequals : ∀ p ∈ vs, (0x3d : Byte) ∉ p.1) (hdistinct : (vs.map fun p => ciNorm p.1).Nodup)
    (hnew : ∀ p ∈ vs, ∀ q ∈ s.values, ciNorm q.1 ≠ ciNorm p.1) :
    ((vs.map fun p => keyLine p.1 p.2).foldl readLine s).values =
      s.values ++ (vs.map fun p => (p.1, reread p.2)).filter fun p => p ≠ ([], []) := by
  induction vs generalizing s with
  | nil => exact (List.append_nil _).symm
  | cons p vs ih =>
    obtain ⟨hplain, hplains⟩ := List.forall_mem_cons.mp hplain
    obtain ⟨hstripped, hstrippeds⟩ := List.forall_mem_cons.mp hstripped
    obtain ⟨hequals, hequalss⟩ := List.forall_mem_cons.mp hequals
    obtain ⟨hnew, hnews⟩ := List.forall_mem_cons.mp hnew
    obtain ⟨hother, hothers⟩ := List.nodup_cons.mp hdistinct
    rw [List.map_cons, List.foldl_cons, readLine_keyLine hplain hstripped hequals, List.map_cons]
    by_cases hempty : (p.1, reread p.2) = (([], []) : Str × Str)
    · have hrest := ih { s with m_lines := s.m_lines ++ [takeCR (keyLine p.1 p.2)] }
        hplains hstrippeds hequalss hothers hnews
      have hdrop : ¬decide ((p.1, reread p.2) ≠ (([], []) : Str × Str)) = true := by
        rw [decide_eq_true_iff]
        exact not_not.mpr hempty
      rw [if_pos hempty, hrest, List.filter_cons, if_neg hdrop]
    · have hnext : ∀ q ∈ vs, ∀ r ∈ s.values ++ [(p.1, reread p.2)], ciNorm r.1 ≠ ciNorm q.1 := by
        intro q hq
        refine List.forall_mem_append.mpr ⟨hnews q hq, List.forall_mem_singleton.mpr ?_⟩
        exact fun heq => hother (List.mem_map.mpr ⟨q, hq, heq.symm⟩)
      have hkeep : decide ((p.1, reread p.2) ≠ (([], []) : Str × Str)) = true := decide_eq_true hempty
      rw [if_neg hempty, set_new hnew, ih _ hplains hstrippeds hequalss hothers hnext,
        List.filter_cons, if_pos hkeep, List.append_assoc, List.singleton_append]

theorem foldl_keyLines_m_lines {vs : List (Str × Str)} (s : Section)
    (hplain : ∀ p ∈ vs, Plain p.1) (hstripped : ∀ p ∈ vs, StripSpaces p.1 = p.1)
    (hequals : ∀ p ∈ vs, (0x3d : Byte) ∉ p.1)
    (hpairs : ∀ p ∈ vs, (p.1, reread p.2) ≠ (([], []) : Str × Str)) :
    ((vs.map fun p => keyLine p.1 p.2).foldl readLine s).m_lines = s.m_lines := by
  induction vs generalizing s with
  | nil => rfl
  | cons p vs ih =>
    obtain ⟨hplain, hplains⟩ := List.forall_mem_cons.mp hplain
    obtain ⟨hstripped, hstrippeds⟩ := List.forall_mem_cons.mp hstripped
    obtain ⟨hequals, hequalss⟩ := List.forall_mem_cons.mp hequals
    obtain ⟨hpair, hpairs⟩ := List.forall_mem_cons.mp hpairs
    rw [List.map_cons, List.foldl_cons, ih _ hplains hstrippeds hequalss hpairs,
      readLine_keyLine hplain hstripped hequals, if_neg hpair, s.set_m_lines]

theorem foldl_raw {lines : List Str} (s : Section)
    (hraw : ∀ line ∈ lines, ParseLine line = ([], []) ∨ verbatim line) :
    lines.foldl readLine s =
      { s with m_lines := s.m_lines ++ (lines.map takeCR).filter fun line => line ≠ [] } := by
  induction lines generalizing s with
  | nil =>
    rw [List.map_nil, List.filter_nil, List.append_nil]
    rfl
  | cons line lines ih =>
    obtain ⟨hline, hrest⟩ := List.forall_mem_cons.mp hraw
    rw [List.foldl_cons, ih _ hrest, List.map_cons]
    by_cases hne : takeCR line = []
    · have hdrop : ¬decide (takeCR line ≠ []) = true := by
        rw [decide_eq_true_iff]
        exact not_not.mpr hne
      rw [readLine, if_pos hne, List.filter_cons, if_neg hdrop]
    · have hadd : s.addLine (takeCR line) = { s with m_lines := s.m_lines ++ [takeCR line] } := by
        unfold Section.addLine
        rw [parseLine_takeCR, verbatim_congr (takeCR_head hne)]
        rcases hline with hparse | hverbatim
        · simp [hparse]
        · simp [hverbatim]
      have hkeep : decide (takeCR line ≠ []) = true := decide_eq_true hne
      rw [readLine, if_neg hne, hadd, List.filter_cons, if_pos hkeep]
      simp only [List.append_assoc, List.singleton_append]

end IniFile

end DolphinCore
