import DolphinCore.FifoPlayer.FifoPlayer

/-!
# DolphinCore.FifoPlayer.UpdateIndices

The player counts to the number of updates of the frame, and indexes those that
the analysis has found. These are fewer when the analysis of the recording ended
before, or in, the frame, and when an update comes after the start of the last
command. Then the index goes past the end.
-/

namespace DolphinCore.FifoPlayer

open GX

/-! ## what the analysis finds in any frame -/

/-- What is known of the analysis of a frame, whatever its data is. -/
structure FoundIn (frame : FifoFrameInfo) (info : AnalyzedFrameInfo) : Prop where
  updates : info.memoryUpdates <+: frame.memoryUpdates
  before : ∀ u ∈ info.memoryUpdates, u.position < frame.fifoData.length
  length_eq : info.objectStarts.length = info.objectEnds.length
  ends_pos : ∀ t ∈ info.objectEnds, 0 < t
  empty : frame.fifoData = [] → info.objectStarts = []

/-- A walk, with the data that is left. -/
structure WalkOf (frame : FifoFrameInfo) (w : FrameWalk) (rest : List Byte) : Prop where
  updates : w.analyzed.memoryUpdates ++ w.later = frame.memoryUpdates
  before : ∀ u ∈ w.analyzed.memoryUpdates, u.position < frame.fifoData.length
  rest : rest = frame.fifoData.drop w.cmdStart
  ok : w.Ok

namespace WalkOf

variable {frame : FifoFrameInfo} {w w' : FrameWalk} {cmd : Byte} {data : List Byte}

theorem start (a : Analyzer) (frame : FifoFrameInfo) :
    WalkOf frame (.start a frame) frame.fifoData :=
  ⟨List.nil_append _, nofun, rfl, FrameWalk.ok_start a frame⟩

theorem addUpdates_before (h : WalkOf frame w (cmd :: data)) :
    ∀ u ∈ w.addUpdates.analyzed.memoryUpdates, u.position < frame.fifoData.length := by
  have hlt : w.cmdStart < frame.fifoData.length := by
    by_contra hge
    have hnil := List.drop_eq_nil_of_le (Nat.le_of_not_lt hge)
    rw [← h.rest] at hnil
    cases hnil
  intro u hu
  rcases List.mem_append.mp hu with hu | hu
  · exact h.before u hu
  · have hle := List.mem_takeWhile_imp hu
    exact Nat.lt_of_le_of_lt (of_decide_eq_true hle) hlt

theorem toggle_memoryUpdates (w : FrameWalk) (drawing : Bool) :
    (w.toggle drawing).memoryUpdates = w.analyzed.memoryUpdates := by
  unfold FrameWalk.toggle
  split
  · rfl
  · split <;> rfl

theorem next {n : Nat} {outs : List Unit} (h : WalkOf frame w (cmd :: data))
    (hs : w.command cmd data = .ok (.next w' n outs)) : WalkOf frame w' (data.drop n) := by
  unfold FrameWalk.command at hs
  simp only at hs
  split at hs
  · cases hs
  · next hsize =>
    cases hs
    generalize hc : (AnalyzeCommand w.addUpdates.analyzer (cmd :: data)).1 = cmdSize at hsize ⊢
    refine ⟨?_, ?_, ?_, h.ok.next (Nat.pos_of_ne_zero hsize) _⟩
    · show (w.addUpdates.toggle _).memoryUpdates ++ w.addUpdates.later = _
      rw [toggle_memoryUpdates, w.addUpdates_all]
      exact h.updates
    · show ∀ u ∈ (w.addUpdates.toggle _).memoryUpdates, _
      rw [toggle_memoryUpdates]
      exact h.addUpdates_before
    · show data.drop (cmdSize - 1) = frame.fifoData.drop (w.cmdStart + cmdSize)
      obtain ⟨k, rfl⟩ := Nat.exists_eq_succ_of_ne_zero hsize
      have hrest : data = frame.fifoData.drop (w.cmdStart + 1) := by
        rw [← List.drop_drop, ← h.rest]
        rfl
      rw [hrest, List.drop_drop]
      exact congrArg (frame.fifoData.drop ·) (by omega)

theorem error (h : WalkOf frame w (cmd :: data)) (hs : w.command cmd data = .error w') :
    FoundIn frame w'.analyzed := by
  unfold FrameWalk.command at hs
  simp only at hs
  split at hs
  · cases hs
    refine ⟨⟨w.addUpdates.later, ?_⟩, h.addUpdates_before, rfl, nofun, fun _ => rfl⟩
    exact w.addUpdates_all.trans h.updates
  · cases hs

theorem finish {rest : List Byte} (h : WalkOf frame w rest)
    (hempty : frame.fifoData = [] → w.analyzed.objectStarts = []) :
    FoundIn frame w.finish.analyzed := by
  have hobjects := h.ok.finish
  have hstarts : w.finish.analyzed.objectStarts = w.analyzed.objectStarts := by
    unfold FrameWalk.finish
    split <;> rfl
  rw [← hstarts] at hempty
  refine ⟨⟨w.later, ?_⟩, ?_, hobjects.length_eq, ?_, hempty⟩
  · rw [FrameWalk.finish_memoryUpdates]
    exact h.updates
  · rw [FrameWalk.finish_memoryUpdates]
    exact h.before
  · intro t ht
    have hlen := hobjects.length_eq
    have hinc := hobjects.increasing
    cases hcase : w.finish.analyzed.objectStarts with
    | nil =>
      rw [hcase, List.length_nil] at hlen
      rw [List.length_eq_zero_iff.mp hlen.symm] at ht
      cases ht
    | cons s starts =>
      rw [hcase, interleave] at hinc
      rw [hcase, List.length_cons] at hlen
      have hlt := (List.pairwise_cons.mp hinc).1 t (mem_interleave (.inr hlen.symm) (.inl ht))
      omega

end WalkOf

theorem analyzeFrame_found (a : Analyzer) (frame : FifoFrameInfo) :
    (∀ w, analyzeFrame a frame = .ok w → FoundIn frame w.analyzed) ∧
      ∀ w, analyzeFrame a frame = .error w → FoundIn frame w.analyzed := by
  obtain ⟨hok, hfail⟩ := decode_invariant (f := FrameWalk.command) (I := WalkOf frame)
    (E := fun w => FoundIn frame w.analyzed) (fun _ _ _ _ _ _ h hs => h.next hs)
    (fun w cmd data w' h hs => by
      unfold FrameWalk.command at hs
      simp only at hs
      split at hs <;> cases hs)
    (fun _ _ _ _ h hs => h.error hs) (WalkOf.start a frame)
  have hempty : ∀ r, decode FrameWalk.command (.start a frame) frame.fifoData = .ok r →
      frame.fifoData = [] → r.state.analyzed.objectStarts = [] := by
    intro r hr hnil
    rw [hnil, decode_nil] at hr
    cases hr
    rfl
  unfold analyzeFrame
  cases hd : decode FrameWalk.command (.start a frame) frame.fifoData with
  | error e =>
    refine ⟨nofun, fun w hw => ?_⟩
    cases hw
    exact hfail e hd
  | ok r =>
    refine ⟨fun w hw => ?_, nofun⟩
    cases hw
    exact (hok r hd).finish (hempty r hd)

theorem foundIn_empty (frame : FifoFrameInfo) : FoundIn frame .empty :=
  ⟨List.nil_prefix, nofun, rfl, nofun, fun _ => rfl⟩

/-! ## indices -/

section

variable {frame : FifoFrameInfo} {info : AnalyzedFrameInfo}

theorem WriteFramePart_isSome (hlen : info.memoryUpdates.length = frame.memoryUpdates.length)
    (dataEnd dataStart k : Nat) : (WriteFramePart frame info dataEnd dataStart k).isSome := by
  induction hn : frame.memoryUpdates.length - k generalizing dataStart k with
  | zero =>
    rw [WriteFramePart, if_neg (by omega)]
    rfl
  | succ n ih =>
    rw [WriteFramePart]
    split
    · rw [List.getElem?_eq_getElem (by omega : k < info.memoryUpdates.length)]
      simp only
      split
      · rw [Option.isSome_map]
        exact ih _ _ (by omega)
      · rfl
    · rfl

theorem WriteFramePart_none (hlen : info.memoryUpdates.length < frame.memoryUpdates.length)
    {dataEnd : Nat} (hall : ∀ u ∈ info.memoryUpdates, u.position < dataEnd) {dataStart : Nat}
    (hlt : dataStart < dataEnd) {k : Nat} (hk : k ≤ info.memoryUpdates.length) :
    WriteFramePart frame info dataEnd dataStart k = none := by
  induction hn : info.memoryUpdates.length - k generalizing dataStart k with
  | zero =>
    rw [WriteFramePart, if_pos ⟨by omega, hlt⟩, List.getElem?_eq_none (by omega)]
  | succ n ih =>
    have hk' : k < info.memoryUpdates.length := by omega
    have hu : info.memoryUpdates[k].fifoPosition.toNat < dataEnd :=
      hall _ (List.getElem_mem hk')
    rw [WriteFramePart, if_pos ⟨by omega, hlt⟩, List.getElem?_eq_getElem hk']
    simp only [if_pos hu]
    rw [ih (by split <;> omega) (by omega) (by omega)]
    rfl

theorem WriteFramePart_le {dataEnd dataStart k k' : Nat} {events : List PlayEvent}
    (hk : k ≤ info.memoryUpdates.length)
    (h : WriteFramePart frame info dataEnd dataStart k = some (events, k')) :
    k' ≤ info.memoryUpdates.length := by
  induction hn : frame.memoryUpdates.length - k generalizing dataStart k events with
  | zero =>
    rw [WriteFramePart, if_neg (by omega)] at h
    cases h
    exact hk
  | succ n ih =>
    rw [WriteFramePart] at h
    split at h
    · split at h
      · cases h
      · next u hget =>
        have hlt := (List.getElem?_eq_some_iff.mp hget).1
        simp only at h
        split at h
        · rw [Option.map_eq_some_iff] at h
          obtain ⟨⟨events', n'⟩, hrec, hpair⟩ := h
          cases hpair
          exact ih (by omega) hrec (by omega)
        · cases h
          exact hk
    · cases h
      exact hk

theorem writeParts_isSome
    (hpart : ∀ dataEnd dataStart k, (WriteFramePart frame info dataEnd dataStart k).isSome)
    (parts : List (Nat × Nat)) (k : Nat) : (writeParts frame info k parts).isSome := by
  induction parts generalizing k with
  | nil => rfl
  | cons part parts ih =>
    obtain ⟨dataStart, dataEnd⟩ := part
    obtain ⟨⟨events, k'⟩, hk'⟩ := Option.isSome_iff_exists.mp (hpart dataEnd dataStart k)
    rw [writeParts, hk', Option.bind_some, Option.isSome_map]
    exact ih k'

/-- **Indices of updates**: every index is in range, whichever objects are played, exactly when
the analysis has found all updates of the frame, or the frame has no data. -/
theorem WriteFrame_isSome_iff (hfound : FoundIn frame info)
    (hsize : frame.fifoData.length < 2 ^ 32) :
    (∀ early range, (WriteFrame early range frame info).isSome) ↔
      frame.fifoData = [] ∨ info.memoryUpdates.length = frame.memoryUpdates.length := by
  constructor
  · intro h
    by_contra hnot
    obtain ⟨hdata, hlen⟩ := not_or.mp hnot
    have hlt : info.memoryUpdates.length < frame.memoryUpdates.length :=
      Nat.lt_of_le_of_ne hfound.updates.length_le hlen
    have hpos : 0 < frame.fifoData.length := List.length_pos_iff.mpr hdata
    have hsome := h false ⟨0, info.objectStarts.length⟩
    unfold WriteFrame at hsome
    rw [frameParts_full ⟨rfl, Nat.le_succ _⟩, Nat.mod_eq_of_lt hsize] at hsome
    simp only [Bool.false_eq_true, if_false] at hsome
    split at hsome
    · rw [writeParts, WriteFramePart_none hlt hfound.before hpos (Nat.zero_le _)] at hsome
      cases hsome
    · next hobjects =>
      have hend : 0 < info.lastEnd := by
        unfold AnalyzedFrameInfo.lastEnd
        have hlast : info.objectStarts.length - 1 < info.objectEnds.length := by
          have := hfound.length_eq
          omega
        rw [List.getD_eq_getElem?_getD, List.getElem?_eq_getElem hlast]
        exact hfound.ends_pos _ (List.getElem_mem hlast)
      rcases Nat.lt_or_ge info.lastEnd frame.fifoData.length with hin | hout
      · cases hfirst : WriteFramePart frame info info.lastEnd 0 0 with
        | none =>
          rw [writeParts, hfirst] at hsome
          cases hsome
        | some r =>
          obtain ⟨events, k⟩ := r
          have hk := WriteFramePart_le (Nat.zero_le _) hfirst
          simp only [writeParts, hfirst, Option.bind_some,
            WriteFramePart_none hlt hfound.before hin hk, Option.bind_none, Option.map_none] at hsome
          cases hsome
      · have hall : ∀ u ∈ info.memoryUpdates, u.position < info.lastEnd := fun u hu =>
          Nat.lt_of_lt_of_le (hfound.before u hu) hout
        rw [writeParts, WriteFramePart_none hlt hall hend (Nat.zero_le _)] at hsome
        cases hsome
  · intro h early range
    rcases h with hdata | hlen
    · have hparts : frameParts frame info range = [(0, 0)] := by
        have hstarts := hfound.empty hdata
        unfold frameParts
        simp [hstarts, hdata, skipObjects]
      unfold WriteFrame
      rw [hparts, writeParts, WriteFramePart, if_neg (by omega)]
      rfl
    · exact writeParts_isSome (WriteFramePart_isSome hlen) _ _

end

/-! ## which files -/

/-- Where the commands begin that the analysis looks at, and the analyzer after them, if all of
them are known. -/
def commandStarts (a : Analyzer) (cmdStart : Nat) : List Byte → List Nat × Option Analyzer
  | [] => ([], some a)
  | cmd :: data =>
    let (cmdSize, a) := AnalyzeCommand a (cmd :: data)
    if cmdSize = 0 then ([cmdStart], none)
    else
      let (starts, after) := commandStarts a (cmdStart + cmdSize) (data.drop (cmdSize - 1))
      (cmdStart :: starts, after)
termination_by data => data.length
decreasing_by
  simp only [List.length_drop, List.length_cons]
  omega

/-- No update comes later than the start of the last command that the analysis looks at. -/
def UpdatesFound (a : Analyzer) : List FifoFrameInfo → Prop
  | [] => True
  | frame :: frames =>
    let (starts, after) := commandStarts { a with drawingObject := false } 0 frame.fifoData
    (frame.fifoData = [] ∨ ∀ u ∈ frame.memoryUpdates, ∃ p ∈ starts, u.position ≤ p) ∧
      match after with
      | some a => UpdatesFound a frames
      | none => ∀ frame ∈ frames, frame.fifoData = [] ∨ frame.memoryUpdates = []

/-- What a walk from `w` on finds, at its end `w'`. -/
def FindsAll (w w' : FrameWalk) (starts : List Nat) : Prop :=
  w'.analyzed.memoryUpdates.length = (w.analyzed.memoryUpdates ++ w.later).length ↔
    ∀ u ∈ w.later, ∃ p ∈ starts, u.position ≤ p

theorem length_eq_append {α : Type _} (xs ys : List α) :
    xs.length = (xs ++ ys).length ↔ ys = [] := by
  rw [List.length_append, ← List.length_eq_zero_iff]
  omega

theorem occurred_iff (w : FrameWalk) (u : MemoryUpdate) :
    w.occurred u = true ↔ u.position ≤ w.cmdStart :=
  decide_eq_true_iff

theorem FindsAll.last (w : FrameWalk) : FindsAll w w.addUpdates [w.cmdStart] := by
  unfold FindsAll
  rw [← w.addUpdates_all, length_eq_append]
  show w.later.dropWhile w.occurred = [] ↔ _
  simp only [List.dropWhile_eq_nil_iff, occurred_iff, List.mem_singleton, exists_eq_left]

variable {a : Analyzer}

theorem FindsAll.next {w w' : FrameWalk} {starts : List Nat} {n : Nat}
    (hge : ∀ p ∈ starts, w.cmdStart ≤ p) (h : FindsAll (w.addUpdates.next n a) w' starts) :
    FindsAll w w' (w.cmdStart :: starts) := by
  have hupdates : (w.addUpdates.next n a).analyzed.memoryUpdates =
      w.addUpdates.analyzed.memoryUpdates := WalkOf.toggle_memoryUpdates ..
  unfold FindsAll at h ⊢
  rw [hupdates, show (w.addUpdates.next n a).later = w.addUpdates.later from rfl,
    w.addUpdates_all] at h
  rw [h]
  show (∀ u ∈ w.later.dropWhile w.occurred, _) ↔ _
  constructor
  · intro hall u hu
    rw [← List.takeWhile_append_dropWhile (p := w.occurred) (l := w.later)] at hu
    rcases List.mem_append.mp hu with hu | hu
    · exact ⟨_, List.mem_cons_self .., (occurred_iff w u).mp (List.mem_takeWhile_imp hu)⟩
    · obtain ⟨p, hp, hle⟩ := hall u hu
      exact ⟨p, List.mem_cons_of_mem _ hp, hle⟩
  · intro hall u hu
    obtain ⟨p, hp, hle⟩ := hall u ((List.dropWhile_sublist _).subset hu)
    rcases List.mem_cons.mp hp with rfl | hp
    · -- the first of those that are left is later than this command, so others begin after it
      have hne := List.ne_nil_of_mem hu
      have hhead := List.head_dropWhile_not w.occurred hne
      obtain ⟨q, hq, hle'⟩ := hall _ ((List.dropWhile_sublist _).subset (List.head_mem hne))
      rcases List.mem_cons.mp hq with rfl | hq
      · rw [(occurred_iff w _).mpr hle'] at hhead
        cases hhead
      · exact ⟨q, hq, Nat.le_trans hle (hge q hq)⟩
    · exact ⟨p, hp, hle⟩

theorem commandStarts_zero {p : Nat} {cmd : Byte} {data : List Byte}
    (h : (AnalyzeCommand a (cmd :: data)).1 = 0) :
    commandStarts a p (cmd :: data) = ([p], none) := by
  rw [commandStarts]
  exact if_pos h

theorem commandStarts_cons {p : Nat} {cmd : Byte} {data : List Byte}
    (h : (AnalyzeCommand a (cmd :: data)).1 ≠ 0) :
    commandStarts a p (cmd :: data) =
      let next := commandStarts (AnalyzeCommand a (cmd :: data)).2
        (p + (AnalyzeCommand a (cmd :: data)).1)
        (data.drop ((AnalyzeCommand a (cmd :: data)).1 - 1))
      (p :: next.1, next.2) := by
  rw [commandStarts]
  exact if_neg h

theorem le_of_mem_commandStarts (a : Analyzer) (cmdStart : Nat) (data : List Byte) :
    ∀ p ∈ (commandStarts a cmdStart data).1, cmdStart ≤ p := by
  induction a, cmdStart, data using commandStarts.induct with
  | case1 a cmdStart =>
    rw [commandStarts]
    exact nofun
  | case2 a cmdStart cmd data a' hc =>
    rw [commandStarts_zero (by rw [hc])]
    exact fun p hp => (List.mem_singleton.mp hp).ge
  | case3 a cmdStart cmd data cmdSize a' hc hpos _ _ _ ih =>
    rw [commandStarts_cons (by rw [hc]; exact hpos), hc]
    intro p hp
    rcases List.mem_cons.mp hp with rfl | hp
    · exact Nat.le_refl _
    · exact Nat.le_trans (Nat.le_add_right _ _) (ih p hp)

theorem decode_findsAll (w : FrameWalk) (data : List Byte) :
    (∀ r, decode FrameWalk.command w data = .ok r →
      (commandStarts w.analyzer w.cmdStart data).2 = some r.state.analyzer ∧
      FindsAll w r.state (commandStarts w.analyzer w.cmdStart data).1) ∧
    ∀ e, decode FrameWalk.command w data = .error e →
      (commandStarts w.analyzer w.cmdStart data).2 = none ∧
      FindsAll w e (commandStarts w.analyzer w.cmdStart data).1 := by
  induction w, data using decode_induct (f := FrameWalk.command) with
  | nil w =>
    rw [commandStarts, decode_nil]
    refine ⟨fun r hr => ?_, nofun⟩
    cases hr
    refine ⟨rfl, ?_⟩
    unfold FindsAll
    simp [List.eq_nil_iff_forall_not_mem]
  | error w cmd data e he =>
    rw [decode_of_error he]
    refine ⟨nofun, fun e' he' => ?_⟩
    cases he'
    unfold FrameWalk.command at he
    simp only at he
    split at he
    · next hzero =>
      cases he
      rw [commandStarts_zero (a := w.analyzer) hzero]
      exact ⟨rfl, FindsAll.last w⟩
    · cases he
  | stop w cmd data w' hs =>
    unfold FrameWalk.command at hs
    simp only at hs
    split at hs <;> cases hs
  | next w cmd data w' n outs hs ih =>
    rw [decode_of_next hs]
    unfold FrameWalk.command at hs
    simp only at hs
    split at hs
    · cases hs
    · next hpos =>
      cases hs
      have hpos : ¬ (AnalyzeCommand w.analyzer (cmd :: data)).1 = 0 := hpos
      have hge := le_of_mem_commandStarts (AnalyzeCommand w.analyzer (cmd :: data)).2
        (w.cmdStart + (AnalyzeCommand w.analyzer (cmd :: data)).1)
        (data.drop ((AnalyzeCommand w.analyzer (cmd :: data)).1 - 1))
      rw [commandStarts_cons hpos]
      obtain ⟨hok, herror⟩ := ih
      refine ⟨fun r hr => ?_, fun e he => ?_⟩
      · cases hd : decode FrameWalk.command _ (data.drop _) with
        | error e => rw [hd] at hr; cases hr
        | ok r' =>
          rw [hd] at hr
          cases hr
          obtain ⟨hafter, hfinds⟩ := hok r' hd
          exact ⟨hafter, hfinds.next fun p hp => Nat.le_of_add_right_le (hge p hp)⟩
      · cases hd : decode FrameWalk.command _ (data.drop _) with
        | ok r' => rw [hd] at he; cases he
        | error e' =>
          rw [hd] at he
          cases he
          obtain ⟨hafter, hfinds⟩ := herror _ hd
          exact ⟨hafter, hfinds.next fun p hp => Nat.le_of_add_right_le (hge p hp)⟩

theorem FindsAll.iff {frame : FifoFrameInfo} {w : FrameWalk} {starts : List Nat}
    (h : FindsAll (.start a frame) w starts) :
    w.analyzed.memoryUpdates.length = frame.memoryUpdates.length ↔
      ∀ u ∈ frame.memoryUpdates, ∃ p ∈ starts, u.position ≤ p := h

theorem isSome_empty_iff {frame : FifoFrameInfo} (hsize : frame.fifoData.length < 2 ^ 32) :
    (∀ early range, (WriteFrame early range frame .empty).isSome) ↔
      frame.fifoData = [] ∨ frame.memoryUpdates = [] := by
  rw [WriteFrame_isSome_iff (foundIn_empty frame) hsize]
  exact or_congr_right (eq_comm.trans List.length_eq_zero_iff)

/-- **Indices of updates in a file**: every index is in range exactly when no update comes later
than the start of the last command that the analysis looks at. -/
theorem analyzeAll_isSome_iff (a : Analyzer) {frames : List FifoFrameInfo}
    (hsize : ∀ frame ∈ frames, frame.fifoData.length < 2 ^ 32) :
    List.Forall₂ (fun frame info => ∀ early range, (WriteFrame early range frame info).isSome)
      frames (analyzeAll a frames) ↔ UpdatesFound a frames := by
  induction frames generalizing a with
  | nil => exact ⟨fun _ => trivial, fun _ => .nil⟩
  | cons frame frames ih =>
    obtain ⟨hframe, hframes⟩ := List.forall_mem_cons.mp hsize
    obtain ⟨hfoundOk, hfoundError⟩ := analyzeFrame_found a frame
    obtain ⟨hok, herror⟩ := decode_findsAll (.start a frame) frame.fifoData
    rw [UpdatesFound, analyzeAll]
    cases hd : decode FrameWalk.command (.start a frame) frame.fifoData with
    | error w =>
      have hf : analyzeFrame a frame = .error w := by
        unfold analyzeFrame
        rw [hd]
        rfl
      obtain ⟨hafter, hfinds⟩ := herror w hd
      have hafter : (commandStarts { a with drawingObject := false } 0 frame.fifoData).2 = none :=
        hafter
      rw [hf]
      simp only
      rw [List.forall₂_cons, WriteFrame_isSome_iff (hfoundError w hf) hframe, hfinds.iff,
        List.forall₂_map_right_iff, List.forall₂_same, hafter]
      exact and_congr_right fun _ => 
        forall₂_congr fun frame hmem => isSome_empty_iff (hframes frame hmem)
    | ok r =>
      have hf : analyzeFrame a frame = .ok r.state.finish := by
        unfold analyzeFrame
        rw [hd]
        rfl
      obtain ⟨hafter, hfinds⟩ := hok r hd
      have hafter : (commandStarts { a with drawingObject := false } 0 frame.fifoData).2 =
          some r.state.analyzer := hafter
      rw [hf]
      simp only
      rw [List.forall₂_cons, WriteFrame_isSome_iff (hfoundOk _ hf) hframe, ih _ hframes,
        r.state.finish_memoryUpdates, r.state.finish_analyzer, hfinds.iff, hafter]
      exact Iff.rfl

end DolphinCore.FifoPlayer
