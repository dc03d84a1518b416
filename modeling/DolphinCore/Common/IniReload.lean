import DolphinCore.Common.IniStable

/-!
# DolphinCore.Common.IniReload

Saving settings and loading them again keeps them exactly when all sections are
stable, and a section keeps its order and its map together for as long as keys are
deleted by their own names.
-/

namespace DolphinCore.IniFile

/-! ## files with the same contents -/

/-- The contents under a name; a section without contents is as good as none. -/
def contents (sections : IniFile) (sectionName : Str) : List (Str × Str) × List Str :=
  match sections.find? fun s => ciNorm s.name = ciNorm sectionName with
  | some s => (s.entries, s.m_lines)
  | none => ([], [])

/-- The same keys with the same values, in the same order, and the same raw lines
under every name, and no name that was not there. -/
def Same (after before : IniFile) : Prop :=
  (∀ sectionName, after.contents sectionName = before.contents sectionName) ∧
    ∀ s ∈ after, ∃ t ∈ before, ciNorm t.name = ciNorm s.name

section

variable {sections : IniFile} {s : Section}

theorem contents_of_mem (hdistinct : sections.NamesDistinct) (hs : s ∈ sections) :
    sections.contents s.name = (s.entries, s.m_lines) := by
  have hfound : (sections.find? fun t => ciNorm t.name = ciNorm s.name).isSome := by
    rw [List.find?_isSome]
    exact ⟨s, hs, by simp⟩
  obtain ⟨t, ht⟩ := Option.isSome_iff_exists.mp hfound
  have hsame : ciNorm t.name = ciNorm s.name := by simpa using List.find?_some ht
  have heq : t = s := List.inj_on_of_nodup_map hdistinct (List.mem_of_find?_eq_some ht) hs hsame
  unfold contents
  rw [ht, heq]

theorem contents_of_none {sectionName : Str}
    (h : ∀ s ∈ sections, ciNorm s.name ≠ ciNorm sectionName) :
    sections.contents sectionName = ([], []) := by
  have hnone : (sections.find? fun t => ciNorm t.name = ciNorm sectionName) = none := by
    simpa using h
  unfold contents
  rw [hnone]

theorem contents_cases (hdistinct : sections.NamesDistinct) (sectionName : Str) :
    (∃ s ∈ sections, ciNorm s.name = ciNorm sectionName ∧
      sections.contents sectionName = (s.entries, s.m_lines)) ∨
    ((∀ s ∈ sections, ciNorm s.name ≠ ciNorm sectionName) ∧
      sections.contents sectionName = ([], [])) := by
  by_cases h : ∃ s ∈ sections, ciNorm s.name = ciNorm sectionName
  · obtain ⟨s, hs, hname⟩ := h
    refine .inl ⟨s, hs, hname, ?_⟩
    rw [← contents_of_mem hdistinct hs]
    unfold contents
    rw [hname]
  · have hnone : ∀ s ∈ sections, ciNorm s.name ≠ ciNorm sectionName :=
      fun s hs heq => h ⟨s, hs, heq⟩
    exact .inr ⟨hnone, contents_of_none hnone⟩

theorem same_filter (hdistinct : sections.NamesDistinct) :
    Same (sections.filter fun s => ¬s.Empty) sections := by
  have hfilter : NamesDistinct (sections.filter fun s => ¬s.Empty) :=
    hdistinct.sublist (List.filter_sublist.map _)
  refine ⟨fun sectionName => ?_, fun s hs => ⟨s, List.mem_of_mem_filter hs, rfl⟩⟩
  rcases contents_cases hdistinct sectionName with ⟨s, hs, hname, hcontents⟩ | ⟨hnone, hcontents⟩
  · rw [hcontents]
    by_cases hempty : s.Empty
    · have hentries : s.entries = [] := by
        rw [Section.entries, hempty.1]
        rfl
      rw [hentries, hempty.2]
      refine contents_of_none fun t ht heq => ?_
      obtain ⟨ht, hnot⟩ := List.mem_filter.mp ht
      have hts : t = s := List.inj_on_of_nodup_map hdistinct ht hs (heq.trans hname.symm)
      exact of_decide_eq_true hnot (hts ▸ hempty)
    · have hs' : s ∈ sections.filter fun s => ¬s.Empty :=
        List.mem_filter.mpr ⟨hs, decide_eq_true hempty⟩
      rw [← contents_of_mem hfilter hs']
      unfold contents
      rw [hname]
  · rw [hcontents]
    exact contents_of_none fun t ht => hnone t (List.mem_of_mem_filter ht)

end

/-! ## sections that come back -/

theorem forall_of_filter_map_eq {l : List α} {f : α → α} {p : α → Bool}
    (h : (l.map f).filter p = l) : ∀ a ∈ l, f a = a ∧ p a = true := by
  have hlen : ((l.map f).filter p).length = (l.map f).length := by rw [h, List.length_map]
  have hall := List.length_filter_eq_length_iff.mp hlen
  rw [List.filter_eq_self.mpr hall] at h
  intro a ha
  have hmap : l.map f = l.map id := h.trans (List.map_id l).symm
  have hfa : f a = a := List.map_inj_left.mp hmap a ha
  exact ⟨hfa, hfa ▸ hall (f a) (List.mem_map_of_mem ha)⟩

section

variable {s : Section}

theorem keysOk_foldl_readLine (lines : List Str) {s : Section} (h : KeysOk s) :
    KeysOk (lines.foldl readLine s) := by
  induction lines generalizing s with
  | nil => exact h
  | cons line lines ih =>
    refine ih ?_
    unfold readLine
    split
    · exact h
    · exact h.addLine _

theorem keysOk_reload (s : Section) : KeysOk (reloadSection s) :=
  keysOk_foldl_readLine _ (KeysOk.new _)

theorem values_eq_nil (h : KeysOk s) (hkeys : s.keys_order = []) : s.values = [] := by
  rw [h.order] at hkeys
  exact List.map_eq_nil_iff.mp hkeys

theorem reload_values (h : Loaded s) (hplain : KeysPlain s) : (reloadSection s).values =
      (s.values.map fun p => (p.1, reread p.2)).filter fun p => p ≠ ([], []) := by
  unfold reloadSection Section.bodyLines
  split
  · next hkeys =>
    rw [foldl_raw _ h.raw, values_eq_nil h.keysOk hkeys]
    rfl
  · exact foldl_keyLines_values (.new s.name) hplain h.key_stripped h.key_equals
      h.keysOk.distinct nofun

theorem reload_m_lines_of_nil (h : Loaded s) (hkeys : s.keys_order = []) :
    (reloadSection s).m_lines = (s.m_lines.map takeCR).filter fun line => line ≠ [] := by
  unfold reloadSection Section.bodyLines
  rw [if_pos hkeys, foldl_raw _ h.raw]
  rfl

theorem reload_m_lines_of_keys (h : Loaded s) (hplain : KeysPlain s) (hkeys : s.keys_order ≠ [])
    (hpairs : ∀ p ∈ s.values, (p.1, reread p.2) ≠ (([], []) : Str × Str)) :
    (reloadSection s).m_lines = [] := by
  unfold reloadSection Section.bodyLines
  rw [if_neg hkeys]
  exact foldl_keyLines_m_lines (.new s.name) hplain h.key_stripped h.key_equals hpairs

theorem reload_of_stable (h : Loaded s) (hs : Stable s) : reloadSection s = s := by
  have hvalues : (reloadSection s).values = s.values := by
    have hmap : (s.values.map fun p => (p.1, reread p.2)) = s.values.map id := by
      refine List.map_inj_left.mpr fun p hp => ?_
      rw [hs.values p hp, id]
    rw [reload_values h hs.keys, hmap, List.map_id, List.filter_eq_self]
    exact fun p hp => decide_eq_true (hs.pairs p hp)
  have horder : (reloadSection s).keys_order = s.keys_order := by
    rw [(keysOk_reload s).order, hvalues, h.keysOk.order]
  refine Section.ext (reloadSection_name s) horder hvalues ?_
  by_cases hkeys : s.keys_order = []
  · have hmap : s.m_lines.map takeCR = s.m_lines.map id :=
      List.map_inj_left.mpr fun line hline => takeCR_of_ne (hs.lines hkeys line hline)
    rw [reload_m_lines_of_nil h hkeys, hmap, List.map_id, List.filter_eq_self]
    exact fun line hline => decide_eq_true (h.raw_ne_nil line hline)
  · rw [hs.kinds.resolve_left hkeys]
    refine reload_m_lines_of_keys h hs.keys hkeys fun p hp => ?_
    rw [hs.values p hp]
    exact hs.pairs p hp

theorem stable_of_reload (h : Loaded s) (hplain : KeysPlain s)
    (hvalues : (reloadSection s).values = s.values) (hlines : (reloadSection s).m_lines = s.m_lines) :
    Stable s := by
  have hall : ∀ p ∈ s.values, reread p.2 = p.2 ∧ p ≠ ([], []) := by
    intro p hp
    rw [reload_values h hplain] at hvalues
    obtain ⟨heq, hne⟩ := forall_of_filter_map_eq hvalues p hp
    exact ⟨(Prod.ext_iff.mp heq).2, of_decide_eq_true hne⟩
  refine ⟨?_, hplain, fun p hp => (hall p hp).2, fun p hp => (hall p hp).1, ?_⟩
  · by_cases hkeys : s.keys_order = []
    · exact .inl hkeys
    · rw [← hlines]
      refine .inr (reload_m_lines_of_keys h hplain hkeys fun p hp => ?_)
      rw [(hall p hp).1]
      exact (hall p hp).2
  · intro hkeys line hline
    rw [reload_m_lines_of_nil h hkeys] at hlines
    exact takeCR_eq_self_iff.mp (forall_of_filter_map_eq hlines line hline).1

theorem stable_of_empty (h : Loaded s) (hs : s.Empty) : Stable s := by
  have hvalues := values_eq_nil h.keysOk hs.1
  refine ⟨.inl hs.1, ?_, ?_, ?_, ?_⟩
  · rw [hvalues]
    exact nofun
  · rw [hvalues]
    exact nofun
  · rw [hvalues]
    exact nofun
  · rw [hs.2]
    exact nofun

end

/-! ## files that come back -/

section

variable {sections : IniFile}

theorem head_bodyLines {s : Section} (h : Loaded s) (hplain : KeysPlain s) :
    ∀ line ∈ s.bodyLines, (takeCR line).head? ≠ some 0x5b := by
  unfold Section.bodyLines
  split
  · intro line hline
    by_cases hne : takeCR line = []
    · rw [hne]
      exact nofun
    · rw [takeCR_head hne]
      exact h.raw_head line hline
  · intro line hline
    obtain ⟨p, hp, rfl⟩ := List.mem_map.mp hline
    rw [takeCR_keyLine_head]
    exact fun hhead => (plain_iff_head.mp (hplain p hp)).2.2 (Option.some.inj hhead)

theorem load_saved_eq (h : ∀ s ∈ sections, Loaded s) (hdistinct : sections.NamesDistinct)
    (hplain : ∀ s ∈ sections, KeysPlain s) (old : IniFile) :
    old.Load (putlines sections.savedLines) false =
      (sections.filter fun s => ¬s.Empty).map reloadSection := by
  rw [load_saved h old]
  refine foldl_sections [] none ?_ ?_ ?_ ?_
  · exact fun s hs => (h s (List.mem_of_mem_filter hs)).name_close
  · intro s hs
    have hmem := List.mem_of_mem_filter hs
    exact head_bodyLines (h s hmem) (hplain s hmem)
  · exact hdistinct.sublist (List.filter_sublist.map _)
  · exact fun _ _ => nofun

theorem same_of_stable (h : ∀ s ∈ sections, Loaded s) (hdistinct : sections.NamesDistinct)
    (hstable : ∀ s ∈ sections, Stable s) (old : IniFile) :
    Same (old.Load (putlines sections.savedLines) false) sections := by
  have hmap : (sections.filter fun s => ¬s.Empty).map reloadSection =
      (sections.filter fun s => ¬s.Empty).map id := by
    refine List.map_inj_left.mpr fun s hs => ?_
    have hmem := List.mem_of_mem_filter hs
    exact reload_of_stable (h s hmem) (hstable s hmem)
  rw [load_saved_eq h hdistinct (fun s hs => (hstable s hs).keys) old, hmap, List.map_id]
  exact same_filter hdistinct

theorem keysPlain_of_same (h : ∀ s ∈ sections, Loaded s) (hdistinct : sections.NamesDistinct)
    {old : IniFile} (hsame : Same (old.Load (putlines sections.savedLines) false) sections) :
    ∀ s ∈ sections, KeysPlain s := by
  intro s hs p hp
  have hcontents := hsame.1 s.name
  rw [contents_of_mem hdistinct hs, (h s hs).keysOk.entries_eq] at hcontents
  obtain ⟨hloaded, hdistinct'⟩ := loaded_load old (putlines sections.savedLines)
  rcases contents_cases hdistinct' s.name with ⟨t, ht, -, hfound⟩ | ⟨-, hnone⟩
  · rw [hfound, (hloaded t ht).keysOk.entries_eq] at hcontents
    have hvalues : t.values = s.values := (Prod.ext_iff.mp hcontents).1
    exact keysPlain_saved h old t ht p (hvalues ▸ hp)
  · rw [hnone] at hcontents
    have hvalues : [] = s.values := (Prod.ext_iff.mp hcontents).1
    rw [← hvalues] at hp
    cases hp

theorem stable_of_same (h : ∀ s ∈ sections, Loaded s) (hdistinct : sections.NamesDistinct)
    {old : IniFile} (hsame : Same (old.Load (putlines sections.savedLines) false) sections) :
    ∀ s ∈ sections, Stable s := by
  intro s hs
  have hplain := keysPlain_of_same h hdistinct hsame
  by_cases hempty : s.Empty
  · exact stable_of_empty (h s hs) hempty
  · have hdistinct' := (loaded_load old (putlines sections.savedLines)).2
    have hcontents := hsame.1 s.name
    rw [load_saved_eq h hdistinct hplain old] at hdistinct' hcontents
    have hmem : reloadSection s ∈ (sections.filter fun s => ¬s.Empty).map reloadSection :=
      List.mem_map_of_mem (List.mem_filter.mpr ⟨hs, decide_eq_true hempty⟩)
    have hfound := contents_of_mem hdistinct' hmem
    rw [reloadSection_name, hcontents, contents_of_mem hdistinct hs, (h s hs).keysOk.entries_eq,
      (keysOk_reload s).entries_eq] at hfound
    obtain ⟨hvalues, hlines⟩ := Prod.ext_iff.mp hfound
    exact stable_of_reload (h s hs) (hplain s hs) hvalues.symm hlines.symm

end

/-- **Settings survive saving and loading exactly when all their sections are stable.**
The order of keys and the map of a section agree in every run, and a key can be
deleted when it has the name that is in the order. -/
theorem load_save_load (old old' : IniFile) (text : Str) :
    ((∃ text', (old.Load text false).Save = some text' ∧
        Same (old'.Load text' false) (old.Load text false)) ↔
      ∀ s ∈ old.Load text false, Stable s) ∧
    ∀ sections : IniFile, Run change (fun _ _ => True) [] sections → ∀ s ∈ sections,
      s.keys_order.Nodup ∧ (∀ k, k ∈ s.keys_order ↔ ∃ v, (k, v) ∈ s.values) ∧
      ∀ key, (∃ r, s.Delete key = some r ∧ KeysOk r.2) ↔
        ∀ p, s.find key = some p → key ∈ s.keys_order := by
  constructor
  · obtain ⟨hloaded, hdistinct⟩ := loaded_load old text
    have hsave : (old.Load text false).Save = some (putlines (old.Load text false).savedLines) := by
      rw [Save, saveLines_eq fun s hs => (hloaded s hs).keysOk, Option.map_some]
    constructor
    · rintro ⟨text', htext', hsame⟩
      rw [hsave] at htext'
      cases htext'
      exact stable_of_same hloaded hdistinct hsame
    · intro hstable
      exact ⟨_, hsave, same_of_stable hloaded hdistinct hstable old'⟩
  · intro sections hrun s hs
    have hok : ∀ s ∈ sections, KeysOk s :=
      hrun.invariant (I := fun sections => ∀ s ∈ sections, KeysOk s) nofun
        fun _ _ _ h _ hstep => keysOk_change h hstep
    refine ⟨(hok s hs).nodup, (hok s hs).mem_order, fun key => ?_⟩
    rw [← KeysOk.delete_isSome_iff, Option.isSome_iff_exists]
    constructor
    · rintro ⟨r, hr, -⟩
      exact ⟨r, hr⟩
    · rintro ⟨r, hr⟩
      exact ⟨r, hr, (hok s hs).delete hr⟩

/-- A value in quotes that begins with a space: `[S]`, `a = " b"`. -/
def quotedSpace : Str :=
  [0x5b, 0x53, 0x5d, 0x0a, 0x61, 0x20, 0x3d, 0x20, 0x22, 0x20, 0x62, 0x22, 0x0a]

/-- The value comes back without its space, and the key cannot be deleted by another
spelling of its name. -/
theorem quoted_space_lost : (¬∃ text', (Load [] quotedSpace false).Save = some text' ∧
      Same (Load [] text' false) (Load [] quotedSpace false)) ∧
    change (Load [] quotedSpace false) (.deleteKey [0x53] [0x41]) = none := by
  refine ⟨?_, by decide⟩
  rintro ⟨text', hsave, hsame⟩
  have htext : (Load [] quotedSpace false).Save = some
      [0x5b, 0x53, 0x5d, 0x0a, 0x61, 0x20, 0x3d, 0x20, 0x20, 0x62, 0x0a] := by decide
  rw [htext] at hsave
  cases hsave
  exact absurd (hsame.1 [0x53]) (by decide)

/-- Keys of one section and raw lines of another one. -/
def plainSettings : Str :=
  [0x5b, 0x53, 0x5d, 0x0a, 0x61, 0x20, 0x3d, 0x20, 0x62, 0x0a,
    0x5b, 0x54, 0x5d, 0x0a, 0x24, 0x63, 0x0a]

theorem load_save_load_plainSettings : (∃ text', (Load [] plainSettings false).Save = some text' ∧
      Same (Load [] text' false) (Load [] plainSettings false)) ∧
    ∀ s ∈ Load [] plainSettings false, s.keys_order.Nodup := by
  constructor
  · refine (load_save_load [] [] plainSettings).1.mpr ?_
    have hload : Load [] plainSettings false =
        [⟨[0x53], [[0x61]], [([0x61], [0x62])], []⟩, ⟨[0x54], [], [], [[0x24, 0x63]]⟩] := by
      decide
    rw [hload]
    refine List.forall_mem_cons.mpr ⟨?_, List.forall_mem_singleton.mpr ?_⟩
    · exact ⟨.inr rfl, by simp [Plain, verbatim], by simp, by decide, fun h => by cases h⟩
    · exact ⟨.inl rfl, by simp, by simp, by simp, fun _ => by simp⟩
  · have hrun : Run change (fun _ _ => True) [] (Load [] plainSettings false) :=
      .single (.load plainSettings false) trivial rfl
    exact fun s hs => ((load_save_load [] [] plainSettings).2 _ hrun s hs).1

end DolphinCore.IniFile
