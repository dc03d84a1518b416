import DolphinCore.Common.IniFile

/-!
# DolphinCore.Common.IniKeys

The order of the keys of a section and its map agree as long as keys are deleted
by the name that they were set by first.
-/

namespace DolphinCore

/-- The order lists the keys of the map, which are distinct without case. -/
structure KeysOk (s : Section) : Prop where
  order : s.keys_order = s.values.map Prod.fst
  distinct : (s.values.map fun p => ciNorm p.1).Nodup

namespace KeysOk

variable {s : Section} {key : Str}

theorem new (name : Str) : KeysOk (.new name) := ⟨rfl, List.nodup_nil⟩

theorem find_eq_none (h : s.find key = none) : ∀ p ∈ s.values, ciNorm p.1 ≠ ciNorm key := by
  intro p hp
  simpa using List.find?_eq_none.mp h p hp

theorem mem_of_find {p : Str × Str} (h : s.find key = some p) :
    p ∈ s.values ∧ ciNorm p.1 = ciNorm key :=
  ⟨List.mem_of_find?_eq_some h, by simpa using List.find?_some h⟩

theorem nodup (h : KeysOk s) : s.keys_order.Nodup := by
  have hmap : (s.keys_order.map ciNorm).Nodup := by
    rw [h.order, List.map_map]
    exact h.distinct
  exact hmap.of_map

theorem mem_order (h : KeysOk s) (k : Str) : k ∈ s.keys_order ↔ ∃ v, (k, v) ∈ s.values := by
  rw [h.order, List.mem_map]
  constructor
  · rintro ⟨⟨k', v⟩, hp, rfl⟩
    exact ⟨v, hp⟩
  · rintro ⟨v, hp⟩
    exact ⟨(k, v), hp, rfl⟩

theorem set (h : KeysOk s) (key newValue : Str) : KeysOk (s.Set key newValue) := by
  unfold Section.Set
  cases hf : s.find key with
  | some p =>
    have hfst : ∀ q : Str × Str,
        (if ciNorm q.1 = ciNorm key then (q.1, newValue) else q).1 = q.1 := by
      intro q
      split <;> rfl
    refine ⟨?_, ?_⟩
    · simp only [List.map_map, Function.comp_def, hfst]
      exact h.order
    · simp only [List.map_map, Function.comp_def, hfst]
      exact h.distinct
  | none =>
    refine ⟨?_, ?_⟩
    · simp only [h.order, List.map_append, List.map_cons, List.map_nil]
    · rw [List.map_append, List.nodup_append]
      refine ⟨h.distinct, List.nodup_singleton _, fun a ha b hb => ?_⟩
      obtain ⟨p, hp, rfl⟩ := List.mem_map.mp ha
      obtain rfl := List.mem_singleton.mp hb
      exact find_eq_none hf p hp

theorem erase_eq {vs : List (Str × Str)} (hdistinct : (vs.map fun p => ciNorm p.1).Nodup)
    (hkey : key ∈ vs.map Prod.fst) :
    (vs.map Prod.fst).erase key = (vs.filter fun p => ciNorm p.1 ≠ ciNorm key).map Prod.fst := by
  induction vs with
  | nil => cases hkey
  | cons p vs ih =>
    obtain ⟨hnot, hrest⟩ := List.nodup_cons.mp hdistinct
    by_cases hp : p.1 = key
    · have hothers : vs.filter (fun q => ciNorm q.1 ≠ ciNorm key) = vs := by
        refine List.filter_eq_self.mpr fun q hq => ?_
        rw [decide_eq_true_iff]
        rintro heq
        have hsame : ciNorm q.1 = ciNorm p.1 := by rw [heq, hp]
        exact hnot (List.mem_map.mpr ⟨q, hq, hsame⟩)
      rw [List.map_cons, hp, List.erase_cons_head, List.filter_cons_of_neg (by simp [hp]), hothers]
    · have hin : key ∈ vs.map Prod.fst := by
        rcases List.mem_cons.mp hkey with h | h
        · exact absurd h.symm hp
        · exact h
      have hne : ciNorm p.1 ≠ ciNorm key := by
        rintro heq
        obtain ⟨q, hq, hqk⟩ := List.mem_map.mp hin
        have hsame : ciNorm q.1 = ciNorm p.1 := by rw [hqk, heq]
        exact hnot (List.mem_map.mpr ⟨q, hq, hsame⟩)
      rw [List.map_cons, List.erase_cons_tail (by simpa using hp),
        List.filter_cons_of_pos (by simpa using hne), List.map_cons, ih hrest hin]

theorem delete {r : Bool × Section} (h : KeysOk s) (hr : s.Delete key = some r) : KeysOk r.2 := by
  unfold Section.Delete at hr
  split at hr
  · cases hr
    exact h
  · obtain ⟨hkey, hsome⟩ := Option.ite_none_right_eq_some.mp hr
    cases hsome
    rw [h.order] at hkey
    refine ⟨?_, ?_⟩
    · rw [h.order, erase_eq h.distinct hkey]
    · exact h.distinct.sublist (List.filter_sublist.map _)

theorem delete_isSome_iff :
    (s.Delete key).isSome ↔ ∀ p, s.find key = some p → key ∈ s.keys_order := by
  unfold Section.Delete
  cases hf : s.find key with
  | none => simp
  | some p => by_cases hkey : key ∈ s.keys_order <;> simp [hkey]

theorem addLine (h : KeysOk s) (line : Str) : KeysOk (s.addLine line) := by
  unfold Section.addLine
  simp only
  split
  · exact ⟨h.order, h.distinct⟩
  · exact h.set _ _

end KeysOk

namespace IniFile

variable {sections : IniFile} {P : Section → Prop}

theorem forall_modify {f : Section → Section} (hf : ∀ s, P s → P (f s)) (h : ∀ s ∈ sections, P s)
    (i : Nat) : ∀ s ∈ sections.modify i f, P s := by
  induction sections generalizing i with
  | nil =>
    rw [List.modify_nil]
    exact h
  | cons s sections ih =>
    obtain ⟨hs, hrest⟩ := List.forall_mem_cons.mp h
    cases i with
    | zero =>
      exact List.forall_mem_cons.mpr ⟨hf s hs, hrest⟩
    | succ i =>
      exact List.forall_mem_cons.mpr ⟨hs, ih hrest i⟩

theorem forall_set {s' : Section} (hs' : P s') (h : ∀ s ∈ sections, P s) (i : Nat) :
    ∀ s ∈ sections.set i s', P s := by
  intro s hs
  rcases List.mem_or_eq_of_mem_set hs with hs | rfl
  · exact h s hs
  · exact hs'

theorem forall_getOrCreate {sectionName : Str} (hnew : P (.new sectionName))
    (h : ∀ s ∈ sections, P s) :
    ∀ s ∈ (sections.GetOrCreateSection sectionName).1, P s := by
  unfold GetOrCreateSection
  split
  · exact h
  · exact List.forall_mem_append.mpr ⟨h, List.forall_mem_singleton.mpr hnew⟩

theorem keysOk_loadLine {st : LoadState} (h : ∀ s ∈ st.sections, KeysOk s) (line : Str) :
    ∀ s ∈ (loadLine st line).sections, KeysOk s := by
  unfold loadLine
  split
  · exact h
  · split
    · split
      · exact h
      · exact forall_getOrCreate (KeysOk.new _) h
    · split
      · exact h
      · exact forall_modify (fun s hs => hs.addLine _) h _

theorem keysOk_load (h : ∀ s ∈ sections, KeysOk s) (text : Str) (keep : Bool) :
    ∀ s ∈ sections.Load text keep, KeysOk s := by
  have hfold : ∀ (lines : List Str) (st : LoadState), (∀ s ∈ st.sections, KeysOk s) →
      ∀ s ∈ (lines.foldl loadLine st).sections, KeysOk s := by
    intro lines
    induction lines with
    | nil => exact fun _ h => h
    | cons line lines ih => exact fun st hst => ih _ (keysOk_loadLine hst line)
  refine hfold _ _ ?_
  cases keep
  · exact nofun
  · exact h

theorem keysOk_change {sections sections' : IniFile} (h : ∀ s ∈ sections, KeysOk s) {c : Change}
    (hc : sections.change c = some sections') : ∀ s ∈ sections', KeysOk s := by
  cases c with
  | load text keep =>
    cases hc
    exact keysOk_load h text keep
  | set sectionName key newValue =>
    cases hc
    exact forall_modify (fun s hs => hs.set _ _) (forall_getOrCreate (KeysOk.new _) h) _
  | setDefault sectionName key newValue defaultValue =>
    have hcreated := forall_getOrCreate (KeysOk.new sectionName) h
    obtain ⟨s, hs, hc⟩ := Option.bind_eq_some_iff.mp hc
    obtain ⟨s', hs', rfl⟩ := Option.map_eq_some_iff.mp hc
    have hok := hcreated s (List.mem_of_getElem? hs)
    refine forall_set ?_ hcreated _
    unfold Section.SetDefault at hs'
    split at hs'
    · cases hs'
      exact hok.set _ _
    · obtain ⟨r, hr, rfl⟩ := Option.map_eq_some_iff.mp hs'
      exact hok.delete hr
  | deleteKey sectionName key =>
    unfold change at hc
    simp only at hc
    split at hc
    · cases hc
      exact h
    · obtain ⟨s, hs, hc⟩ := Option.bind_eq_some_iff.mp hc
      obtain ⟨r, hr, rfl⟩ := Option.map_eq_some_iff.mp hc
      exact forall_set ((h s (List.mem_of_getElem? hs)).delete hr) h _
  | deleteSection sectionName =>
    unfold change at hc
    simp only at hc
    split at hc
    · cases hc
      exact h
    · cases hc
      exact fun s hs => h s (List.mem_of_mem_eraseIdx hs)
  | setLines sectionName lines =>
    cases hc
    exact forall_modify (fun s hs => ⟨hs.order, hs.distinct⟩) (forall_getOrCreate (KeysOk.new _) h) _

end IniFile

end DolphinCore
