import DolphinCore.NetPlay.PadBuffer
import Mathlib.Data.List.Perm.Subperm

/-!
# DolphinCore.NetPlay.TimeBase

The detection of desyncs: `SendTimeBase` of the clients splits a time base of 64 bits into two
words, `OnData` of the server joins them, collects the time bases of a frame and compares them when
it has one for each player.
-/

namespace DolphinCore.NetPlay

/-! ## SendTimeBase -/

/-- The content of `NP_MSG_TIMEBASE`. -/
structure TimeBasePacket where
  x : BitVec 32
  y : BitVec 32
  frame : FrameNum
  deriving DecidableEq, Repr

/-- `SendTimeBase`: the packet, and the client's `m_timebase_frame` afterwards. -/
def sendTimeBase (m_timebase_frame : FrameNum) (timebase : BitVec 64) : TimeBasePacket × FrameNum :=
  (⟨timebase.setWidth 32, (timebase <<< 32).setWidth 32, m_timebase_frame⟩, m_timebase_frame + 1)

/-- A call of `SendTimeBase` whose packet reaches the server: whose it is, for which frame, and the
time base there was. -/
structure Report where
  pid : PlayerId
  frame : FrameNum
  timebase : BitVec 64
  deriving DecidableEq, Repr

def Report.packet (m : Report) : TimeBasePacket := (sendTimeBase m.frame m.timebase).1

/-! ## OnData -/

/-- What the server has for the detection of desyncs, and the messages `NP_MSG_DESYNC_DETECTED` that
it has sent: the player to blame and the frame. -/
structure DesyncState where
  m_timebase_by_frame : FrameNum → List (PlayerId × BitVec 64)
  m_desync_detected : Bool
  sent : List (Int × FrameNum)

/-- As `StartGame` of the server leaves it. -/
def DesyncState.start : DesyncState := ⟨fun _ => [], false, []⟩

/-- `x | ((u64)y << 32)` -/
def TimeBasePacket.join (packet : TimeBasePacket) : BitVec 64 :=
  packet.x.setWidth 64 ||| (packet.y.setWidth 64 <<< 32)

/-- All the time bases are as the first one. -/
def allEqual (timebases : List (PlayerId × BitVec 64)) : Bool :=
  timebases.all fun pair => pair.2 = (timebases.headD (0, 0)).2

/-- The first player that is the only outlier, or -1. -/
def pidToBlame (timebases : List (PlayerId × BitVec 64)) : Int :=
  match timebases.find? fun pair =>
      timebases.all fun other => other.1 = pair.1 ∨ other.2 ≠ pair.2 with
  | some pair => pair.1.toNat
  | none => -1

/-- `OnData` for `NP_MSG_TIMEBASE` of a player, where `players` is the size of `m_players`. -/
def onTimeBase (players : Nat) (s : DesyncState) (pid : PlayerId) (packet : TimeBasePacket) :
    DesyncState :=
  if s.m_desync_detected then s
  else
    let timebases := s.m_timebase_by_frame packet.frame ++ [(pid, packet.join)]
    if players ≤ timebases.length then
      let erased := Function.update s.m_timebase_by_frame packet.frame []
      if allEqual timebases then { s with m_timebase_by_frame := erased }
      else ⟨erased, true, s.sent ++ [(pidToBlame timebases, packet.frame)]⟩
    else
      { s with m_timebase_by_frame := Function.update s.m_timebase_by_frame packet.frame timebases }

/-- The server after the reports that have reached it. -/
def received (players : Nat) (msgs : List Report) : DesyncState :=
  msgs.foldl (fun s m => onTimeBase players s m.pid m.packet) .start

/-! ## what is to be detected -/

/-- What a detection sees of a time base. -/
abbrev View := BitVec 64 → BitVec 64

/-- All players reported for the frame. -/
def Complete (players : List PlayerId) (msgs : List Report) (frame : FrameNum) : Prop :=
  ∀ p ∈ players, ∃ m ∈ msgs, m.frame = frame ∧ m.pid = p

/-- Two time bases of the frame are seen to differ. -/
def Differ (v : View) (msgs : List Report) (frame : FrameNum) : Prop :=
  ∃ m ∈ msgs, ∃ m' ∈ msgs, m.frame = frame ∧ m'.frame = frame ∧ v m.timebase ≠ v m'.timebase

/-- The time base of a player is seen to differ from that of every other player. -/
def Outlier (v : View) (msgs : List Report) (frame : FrameNum) (p : PlayerId) : Prop :=
  ∃ m ∈ msgs, m.frame = frame ∧ m.pid = p ∧
    ∀ m' ∈ msgs, m'.frame = frame → m'.pid ≠ p → v m'.timebase ≠ v m.timebase

/-- A desync is reported if and only if there is one; the report names its frame, and the player to
blame if there is one. -/
def Detects (v : View) (players : List PlayerId) (msgs : List Report) (sent : List (Int × FrameNum)) :
    Prop :=
  (sent ≠ [] ↔ ∃ frame, Complete players msgs frame ∧ Differ v msgs frame) ∧
    ∀ r ∈ sent, (Complete players msgs r.2 ∧ Differ v msgs r.2) ∧
      ((∃ p, r.1 = (p.toNat : Int) ∧ Outlier v msgs r.2 p) ∨ r.1 = -1 ∧ ∀ p, ¬ Outlier v msgs r.2 p)

/-- The reports of connected players, one for a player and a frame. -/
structure PerFrame (players : List PlayerId) (msgs : List Report) : Prop where
  nodup_players : players.Nodup
  mem : ∀ m ∈ msgs, m.pid ∈ players
  nodup : (msgs.map fun m => (m.pid, m.frame)).Nodup

/-- What reaches the server of a time base: its low word, since `timebase << 32` has no other. -/
def low : View := fun timebase => (timebase.setWidth 32).setWidth 64

theorem join_packet (m : Report) : m.packet.join = low m.timebase := by
  have hy : (m.timebase <<< 32).setWidth 32 = 0#32 := by
    apply BitVec.eq_of_toNat_eq
    rw [BitVec.toNat_setWidth, BitVec.toNat_shiftLeft, Nat.shiftLeft_eq]
    change _ = 0
    omega
  rw [Report.packet, sendTimeBase, TimeBasePacket.join, hy]
  simp [low]

/-! ## the reports of a frame -/

/-- The time bases of a frame as the server keeps them. -/
def collected (msgs : List Report) (frame : FrameNum) : List (PlayerId × BitVec 64) :=
  (msgs.filter (·.frame = frame)).map fun m => (m.pid, m.packet.join)

variable {msgs : List Report} {frame : FrameNum} {players : List PlayerId} {m : Report}

theorem mem_collected {pair : PlayerId × BitVec 64} : pair ∈ collected msgs frame ↔
      ∃ m ∈ msgs, m.frame = frame ∧ (m.pid, low m.timebase) = pair := by
  simp only [collected, List.mem_map, List.mem_filter, decide_eq_true_eq, join_packet, and_assoc]

theorem collected_append (msgs : List Report) (m : Report) (frame : FrameNum) :
    collected (msgs ++ [m]) frame =
      collected msgs frame ++ if m.frame = frame then [(m.pid, m.packet.join)] else [] := by
  rw [collected, List.filter_append, List.map_append, ← collected, List.filter_singleton]
  by_cases h : m.frame = frame <;> simp [h]

theorem PerFrame.init (h : PerFrame players (msgs ++ [m])) : PerFrame players msgs where
  nodup_players := h.nodup_players
  mem m' hm' := h.mem m' (List.mem_append_left _ hm')
  nodup := by
    have hnodup := h.nodup
    rw [List.map_append] at hnodup
    exact (List.nodup_append.mp hnodup).1

theorem PerFrame.nodup_pids (h : PerFrame players msgs) (frame : FrameNum) :
    ((msgs.filter (·.frame = frame)).map Report.pid).Nodup := by
  have hkeys : (msgs.filter (·.frame = frame)).Pairwise
      fun a b => (a.pid, a.frame) ≠ (b.pid, b.frame) :=
    (List.pairwise_map.mp h.nodup).filter _
  refine List.pairwise_map.mpr (hkeys.imp_of_mem fun {a b} ha hb hne heq => hne ?_)
  have hfa := of_decide_eq_true (List.mem_filter.mp ha).2
  have hfb := of_decide_eq_true (List.mem_filter.mp hb).2
  rw [heq, hfa, hfb]

theorem complete_iff (h : PerFrame players msgs) (frame : FrameNum) :
    Complete players msgs frame ↔ players.length ≤ (collected msgs frame).length := by
  have hlen : (collected msgs frame).length =
      ((msgs.filter (·.frame = frame)).map Report.pid).length := by
    rw [collected, List.length_map, List.length_map]
  have hmem (p : PlayerId) : p ∈ (msgs.filter (·.frame = frame)).map Report.pid ↔
      ∃ m ∈ msgs, m.frame = frame ∧ m.pid = p := by
    simp only [List.mem_map, List.mem_filter, decide_eq_true_eq, and_assoc]
  have hsub : (msgs.filter (·.frame = frame)).map Report.pid ⊆ players := by
    intro p hp
    obtain ⟨m, hm, _, rfl⟩ := (hmem p).mp hp
    exact h.mem m hm
  rw [hlen]
  constructor
  · intro hcomplete
    exact (h.nodup_players.subperm fun p hp => (hmem p).mpr (hcomplete p hp)).length_le
  · intro hle p hp
    have hperm := ((h.nodup_pids frame).subperm hsub).perm_of_length_le hle
    exact (hmem p).mp (hperm.mem_iff.mpr hp)

theorem PerFrame.frame_ne (h : PerFrame players (msgs ++ [m])) (hc : Complete players msgs frame) :
    m.frame ≠ frame := by
  rintro rfl
  obtain ⟨m', hm', hframe, hpid⟩ := hc m.pid (h.mem m (List.mem_append_right _ (List.mem_singleton_self m)))
  have hnodup := h.nodup
  rw [List.map_append, List.nodup_append] at hnodup
  exact hnodup.2.2 (m'.pid, m'.frame) (List.mem_map_of_mem hm') (m.pid, m.frame)
    (List.mem_map_of_mem (List.mem_singleton_self m)) (by rw [hpid, hframe])

theorem allEqual_iff {timebases : List (PlayerId × BitVec 64)} : allEqual timebases = true ↔
    ∀ a ∈ timebases, ∀ b ∈ timebases, a.2 = b.2 := by
  cases timebases with
  | nil => simp [allEqual]
  | cons first rest =>
    rw [allEqual, List.all_eq_true]
    constructor
    · intro h a ha b hb
      exact (of_decide_eq_true (h a ha)).trans (of_decide_eq_true (h b hb)).symm
    · intro h a ha
      exact decide_eq_true (h a ha first (List.mem_cons_self ..))

theorem allEqual_collected (msgs : List Report) (frame : FrameNum) :
    allEqual (collected msgs frame) = true ↔ ¬ Differ low msgs frame := by
  rw [allEqual_iff]
  constructor
  · rintro h ⟨m, hm, m', hm', hf, hf', hne⟩
    exact hne (h _ (mem_collected.mpr ⟨m, hm, hf, rfl⟩) _ (mem_collected.mpr ⟨m', hm', hf', rfl⟩))
  · intro h a ha b hb
    obtain ⟨m, hm, hf, rfl⟩ := mem_collected.mp ha
    obtain ⟨m', hm', hf', rfl⟩ := mem_collected.mp hb
    by_contra hne
    exact h ⟨m, hm, m', hm', hf, hf', hne⟩

theorem alone_iff (msgs : List Report) (frame : FrameNum) (pair : PlayerId × BitVec 64) :
    ((collected msgs frame).all fun other => other.1 = pair.1 ∨ other.2 ≠ pair.2) = true ↔
      ∀ m' ∈ msgs, m'.frame = frame → m'.pid ≠ pair.1 → low m'.timebase ≠ pair.2 := by
  rw [List.all_eq_true]
  simp only [decide_eq_true_eq]
  constructor
  · intro h m' hm' hf hne
    exact (h _ (mem_collected.mpr ⟨m', hm', hf, rfl⟩)).resolve_left hne
  · intro h other hother
    obtain ⟨m', hm', hf, rfl⟩ := mem_collected.mp hother
    by_cases hpid : m'.pid = pair.1
    · exact .inl hpid
    · exact .inr (h m' hm' hf hpid)

theorem pidToBlame_collected (msgs : List Report) (frame : FrameNum) :
    (∃ p, pidToBlame (collected msgs frame) = (p.toNat : Int) ∧ Outlier low msgs frame p) ∨
      pidToBlame (collected msgs frame) = -1 ∧ ∀ p, ¬ Outlier low msgs frame p := by
  rw [pidToBlame]
  split
  · next pair hfind =>
    obtain ⟨m, hm, hf, rfl⟩ := mem_collected.mp (List.mem_of_find?_eq_some hfind)
    have halone := (alone_iff msgs frame _).mp (List.find?_some
      (p := fun pair : PlayerId × BitVec 64 =>
        (collected msgs frame).all fun other => other.1 = pair.1 ∨ other.2 ≠ pair.2) hfind)
    exact .inl ⟨m.pid, rfl, m, hm, hf, rfl, halone⟩
  · next hfind =>
    refine .inr ⟨rfl, ?_⟩
    rintro p ⟨m, hm, hf, rfl, halone⟩
    have hnot := List.find?_eq_none.mp hfind _ (mem_collected.mpr ⟨m, hm, hf, rfl⟩)
    exact hnot ((alone_iff msgs frame _).mpr halone)

/-! ## a report for another frame -/

section

variable {v : View}

theorem mem_append_of_frame_ne (h : m.frame ≠ frame) {m' : Report} (hf : m'.frame = frame) :
    m' ∈ msgs ++ [m] ↔ m' ∈ msgs := by
  rw [List.mem_append, List.mem_singleton, or_iff_left]
  rintro rfl
  exact h hf

theorem complete_append_iff (h : m.frame ≠ frame) :
    Complete players (msgs ++ [m]) frame ↔ Complete players msgs frame := by
  refine forall₂_congr fun p _ => exists_congr fun m' => ?_
  exact and_congr_left fun hf => mem_append_of_frame_ne h hf.1

theorem differ_append_iff (h : m.frame ≠ frame) :
    Differ v (msgs ++ [m]) frame ↔ Differ v msgs frame := by
  constructor
  · rintro ⟨a, ha, b, hb, hfa, hfb, hne⟩
    exact ⟨a, (mem_append_of_frame_ne h hfa).mp ha, b, (mem_append_of_frame_ne h hfb).mp hb, hfa,
      hfb, hne⟩
  · rintro ⟨a, ha, b, hb, hrest⟩
    exact ⟨a, List.mem_append_left _ ha, b, List.mem_append_left _ hb, hrest⟩

theorem outlier_append_iff (h : m.frame ≠ frame) {p : PlayerId} :
    Outlier v (msgs ++ [m]) frame p ↔ Outlier v msgs frame p := by
  constructor
  · rintro ⟨a, ha, hfa, hp, halone⟩
    exact ⟨a, (mem_append_of_frame_ne h hfa).mp ha, hfa, hp, fun b hb =>
      halone b (List.mem_append_left _ hb)⟩
  · rintro ⟨a, ha, hfa, hp, halone⟩
    exact ⟨a, List.mem_append_left _ ha, hfa, hp, fun b hb hfb =>
      halone b ((mem_append_of_frame_ne h hfb).mp hb) hfb⟩

theorem Detects.append {sent : List (Int × FrameNum)} (hframes : PerFrame players (msgs ++ [m]))
    (h : Detects v players msgs sent) (hsent : sent ≠ []) : Detects v players (msgs ++ [m]) sent := by
  have hall : ∀ r ∈ sent, Complete players (msgs ++ [m]) r.2 ∧ Differ v (msgs ++ [m]) r.2 := by
    intro r hr
    have hc := (h.2 r hr).1
    have hne := hframes.frame_ne hc.1
    exact ⟨(complete_append_iff hne).mpr hc.1, (differ_append_iff hne).mpr hc.2⟩
  refine ⟨⟨fun _ => ?_, fun _ => hsent⟩, fun r hr => ⟨hall r hr, ?_⟩⟩
  · obtain ⟨r, hr⟩ := List.exists_mem_of_ne_nil sent hsent
    exact ⟨r.2, hall r hr⟩
  · have hne := hframes.frame_ne (h.2 r hr).1.1
    exact (h.2 r hr).2.imp
      (fun ⟨p, hp, hout⟩ => ⟨p, hp, (outlier_append_iff hne).mpr hout⟩)
      (fun ⟨hneg, hnone⟩ => ⟨hneg, fun p hout => hnone p ((outlier_append_iff hne).mp hout)⟩)

theorem desync_append_iff (h : ¬ ∃ frame, Complete players msgs frame ∧ Differ v msgs frame) :
    (∃ frame, Complete players (msgs ++ [m]) frame ∧ Differ v (msgs ++ [m]) frame) ↔
      Complete players (msgs ++ [m]) m.frame ∧ Differ v (msgs ++ [m]) m.frame := by
  refine ⟨?_, fun hm => ⟨m.frame, hm⟩⟩
  rintro ⟨frame, hc, hd⟩
  by_cases hne : m.frame = frame
  · exact hne ▸ ⟨hc, hd⟩
  · exact absurd ⟨frame, (complete_append_iff hne).mp hc, (differ_append_iff hne).mp hd⟩ h

end

/-! ## the server detects what it sees -/

/-- The state of the server tells of the reports it has received. -/
structure Tracks (players : List PlayerId) (msgs : List Report) (s : DesyncState) : Prop where
  detects : Detects low players msgs s.sent
  detected : s.m_desync_detected = true ↔ s.sent ≠ []
  collected : s.m_desync_detected = false → ∀ frame, ¬ Complete players msgs frame →
    s.m_timebase_by_frame frame = collected msgs frame

theorem onTimeBase_of_detected {s : DesyncState} (h : s.m_desync_detected = true) (players : Nat)
    (pid : PlayerId) (packet : TimeBasePacket) : onTimeBase players s pid packet = s := by
  rw [onTimeBase, if_pos h]

theorem Tracks.start : Tracks players [] .start where
  detects := by
    refine ⟨⟨fun h => absurd rfl h, ?_⟩, fun _ h => absurd h List.not_mem_nil⟩
    rintro ⟨_, _, _, hm, _⟩
    exact absurd hm List.not_mem_nil
  detected := ⟨fun h => absurd h Bool.false_ne_true, fun h => absurd rfl h⟩
  collected _ _ _ := rfl

/-- **One report.** -/
theorem Tracks.step {s : DesyncState} (hframes : PerFrame players (msgs ++ [m]))
    (h : Tracks players msgs s) :
    Tracks players (msgs ++ [m]) (onTimeBase players.length s m.pid m.packet) := by
  by_cases hdet : s.m_desync_detected = true
  · rw [onTimeBase_of_detected hdet]
    exact ⟨h.detects.append hframes (h.detected.mp hdet), h.detected, fun hfalse =>
      absurd (hdet.symm.trans hfalse) Bool.noConfusion⟩
  · have hsent : s.sent = [] := by
      by_contra hne
      exact hdet (h.detected.mpr hne)
    have hnone : ¬ ∃ frame, Complete players msgs frame ∧ Differ low msgs frame := fun hex =>
      h.detects.1.mpr hex hsent
    have hnew : ¬ Complete players msgs m.frame := fun hc => hframes.frame_ne hc rfl
    have htimebases : s.m_timebase_by_frame m.packet.frame ++ [(m.pid, m.packet.join)] =
        DolphinCore.NetPlay.collected (msgs ++ [m]) m.frame := by
      rw [collected_append, if_pos rfl]
      exact congrArg (· ++ _) (h.collected (Bool.eq_false_iff.mpr hdet) m.frame hnew)
    have hother (frame : FrameNum) (hne : m.frame ≠ frame) (hc : ¬ Complete players (msgs ++ [m]) frame) :
        s.m_timebase_by_frame frame = DolphinCore.NetPlay.collected (msgs ++ [m]) frame := by
      rw [collected_append, if_neg hne, List.append_nil]
      exact h.collected (Bool.eq_false_iff.mpr hdet) frame fun hc' =>
        hc ((complete_append_iff hne).mpr hc')
    have hstay : ¬ (Complete players (msgs ++ [m]) m.frame ∧ Differ low (msgs ++ [m]) m.frame) →
        Detects low players (msgs ++ [m]) s.sent := by
      intro hno
      rw [hsent]
      refine ⟨⟨fun hne => absurd rfl hne, fun hex => ?_⟩, fun _ hr => absurd hr List.not_mem_nil⟩
      exact absurd ((desync_append_iff hnone).mp hex) hno
    rw [onTimeBase, if_neg hdet]
    simp only [htimebases]
    have hframe : m.packet.frame = m.frame := rfl
    by_cases hc : Complete players (msgs ++ [m]) m.frame
    · rw [if_pos ((complete_iff hframes m.frame).mp hc)]
      have herased (frame : FrameNum) (hc' : ¬ Complete players (msgs ++ [m]) frame) :
          Function.update s.m_timebase_by_frame m.packet.frame [] frame =
            DolphinCore.NetPlay.collected (msgs ++ [m]) frame := by
        have hne : m.frame ≠ frame := fun heq => hc' (heq ▸ hc)
        rw [hframe, Function.update_of_ne (Ne.symm hne), hother frame hne hc']
      by_cases heq : allEqual (DolphinCore.NetPlay.collected (msgs ++ [m]) m.frame) = true
      · rw [if_pos heq]
        exact ⟨hstay fun hno => (allEqual_collected _ _).mp heq hno.2, h.detected, fun _ => herased⟩
      · rw [if_neg heq]
        have hdiffer : Differ low (msgs ++ [m]) m.frame := by
          by_contra hno
          exact heq ((allEqual_collected _ _).mpr hno)
        refine ⟨⟨⟨fun _ => ⟨m.frame, hc, hdiffer⟩, fun _ => by simp⟩, ?_⟩, by simp, nofun⟩
        intro r hr
        rw [hsent, List.nil_append, List.mem_singleton] at hr
        subst hr
        exact ⟨⟨hc, hdiffer⟩, pidToBlame_collected _ _⟩
    · rw [if_neg fun hle => hc ((complete_iff hframes m.frame).mpr hle)]
      refine ⟨hstay fun hno => hc hno.1, h.detected, fun _ frame hc' => ?_⟩
      simp only
      by_cases hne : m.frame = frame
      · rw [hframe, ← hne, Function.update_self]
      · rw [hframe, Function.update_of_ne (Ne.symm hne), hother frame hne hc']

theorem received_append (players : Nat) (msgs : List Report) (m : Report) :
    received players (msgs ++ [m]) = onTimeBase players (received players msgs) m.pid m.packet := by
  rw [received, List.foldl_append]
  rfl

/-- **The server detects each desync of the low words**, in every order of the reports. -/
theorem received_tracks (h : PerFrame players msgs) :
    Tracks players msgs (received players.length msgs) := by
  induction msgs using List.reverseRecOn with
  | nil => exact .start
  | append_singleton msgs m ih =>
    rw [received_append]
    exact (ih h.init).step h

/-! ## whole time bases -/

theorem Differ.of_view {v : View} (h : Differ v msgs frame) : Differ id msgs frame := by
  obtain ⟨a, ha, b, hb, hfa, hfb, hne⟩ := h
  exact ⟨a, ha, b, hb, hfa, hfb, fun heq => hne (congrArg v heq)⟩

theorem Outlier.of_view {v : View} {p : PlayerId} (h : Outlier v msgs frame p) :
    Outlier id msgs frame p := by
  obtain ⟨a, ha, hfa, hp, halone⟩ := h
  exact ⟨a, ha, hfa, hp, fun b hb hfb hne heq => halone b hb hfb hne (congrArg v heq)⟩

/-- When the first frame with a desync becomes complete, the low words differ as well, and tell an
outlier if there is one. -/
def FirstDesyncShows (players : List PlayerId) (msgs : List Report) : Prop :=
  ∀ pre m, pre ++ [m] <+: msgs → (∀ frame, Complete players pre frame → ¬ Differ id pre frame) →
    Complete players (pre ++ [m]) m.frame → Differ id (pre ++ [m]) m.frame →
    Differ low (pre ++ [m]) m.frame ∧
      ((∃ p, Outlier id (pre ++ [m]) m.frame p) → ∃ p, Outlier low (pre ++ [m]) m.frame p)

theorem FirstDesyncShows.of_prefix {msgs msgs' : List Report} (h : FirstDesyncShows players msgs)
    (hpre : msgs' <+: msgs) : FirstDesyncShows players msgs' :=
  fun pre m hpre' => h pre m (hpre'.trans hpre)

theorem PerFrame.of_prefix {msgs msgs' : List Report} (h : PerFrame players msgs)
    (hpre : msgs' <+: msgs) : PerFrame players msgs' where
  nodup_players := h.nodup_players
  mem m hm := h.mem m (hpre.subset hm)
  nodup := h.nodup.sublist (hpre.sublist.map _)

theorem blame_of_low {blame : Int} (h : (∃ p, blame = (p.toNat : Int) ∧ Outlier low msgs frame p) ∨
      blame = -1 ∧ ∀ p, ¬ Outlier low msgs frame p) :
    ((∃ p, blame = (p.toNat : Int) ∧ Outlier id msgs frame p) ∨
      blame = -1 ∧ ∀ p, ¬ Outlier id msgs frame p) ↔
      ((∃ p, Outlier id msgs frame p) → ∃ p, Outlier low msgs frame p) := by
  rcases h with ⟨p, hp, hout⟩ | ⟨hneg, hnone⟩
  · exact ⟨fun _ _ => ⟨p, hout⟩, fun _ => .inl ⟨p, hp, hout.of_view⟩⟩
  · constructor
    · rintro (⟨p, hp, _⟩ | ⟨_, hnone'⟩) ⟨q, hq⟩
      · omega
      · exact absurd hq (hnone' q)
    · intro himp
      refine .inr ⟨hneg, fun p hp => ?_⟩
      obtain ⟨q, hq⟩ := himp ⟨p, hp⟩
      exact hnone q hq

theorem detects_append_iff (hframes : PerFrame players (msgs ++ [m]))
    (hnone : ∀ frame, Complete players msgs frame → ¬ Differ id msgs frame)
    (hc : Complete players (msgs ++ [m]) m.frame) (hd : Differ id (msgs ++ [m]) m.frame) :
    Detects id players (msgs ++ [m]) (received players.length (msgs ++ [m])).sent ↔
      Differ low (msgs ++ [m]) m.frame ∧
        ((∃ p, Outlier id (msgs ++ [m]) m.frame p) → ∃ p, Outlier low (msgs ++ [m]) m.frame p) := by
  have hlow := (received_tracks hframes).detects
  have hframe : ∀ r ∈ (received players.length (msgs ++ [m])).sent, r.2 = m.frame := by
    intro r hr
    have hr' := (hlow.2 r hr).1
    by_contra hne
    have hne := Ne.symm hne
    exact hnone r.2 ((complete_append_iff hne).mp hr'.1)
      ((differ_append_iff hne).mp hr'.2.of_view)
  constructor
  · intro h
    obtain ⟨r, hr⟩ := List.exists_mem_of_ne_nil _ (h.1.mpr ⟨m.frame, hc, hd⟩)
    have hrlow := hlow.2 r hr
    have hrid := (h.2 r hr).2
    rw [hframe r hr] at hrlow hrid
    exact ⟨hrlow.1.2, (blame_of_low hrlow.2).mp hrid⟩
  · rintro ⟨hdlow, himp⟩
    refine ⟨⟨fun _ => ⟨m.frame, hc, hd⟩, fun _ => hlow.1.mpr ⟨m.frame, hc, hdlow⟩⟩, fun r hr => ?_⟩
    have hrlow := hlow.2 r hr
    rw [hframe r hr] at hrlow ⊢
    exact ⟨⟨hc, hd⟩, (blame_of_low hrlow.2).mpr himp⟩

theorem sent_eq_nil (hframes : PerFrame players msgs)
    (hnone : ∀ frame, Complete players msgs frame → ¬ Differ id msgs frame) :
    (received players.length msgs).sent = [] := by
  by_contra hne
  obtain ⟨frame, hc, hd⟩ := (received_tracks hframes).detects.1.mp hne
  exact hnone frame hc hd.of_view

theorem detects_of_shows (hframes : PerFrame players msgs) (h : FirstDesyncShows players msgs) :
    Detects id players msgs (received players.length msgs).sent := by
  induction msgs using List.reverseRecOn with
  | nil => exact ⟨⟨fun hne => absurd rfl hne, fun ⟨_, _, _, hm, _⟩ => absurd hm List.not_mem_nil⟩,
      fun _ hr => absurd hr List.not_mem_nil⟩
  | append_singleton msgs m ih =>
    have ih := ih hframes.init (h.of_prefix (List.prefix_append ..))
    by_cases hsent : (received players.length msgs).sent = []
    · have hnone : ∀ frame, Complete players msgs frame → ¬ Differ id msgs frame :=
        fun frame hc hd => ih.1.mpr ⟨frame, hc, hd⟩ hsent
      by_cases hnew : Complete players (msgs ++ [m]) m.frame ∧ Differ id (msgs ++ [m]) m.frame
      · exact (detects_append_iff hframes hnone hnew.1 hnew.2).mpr
          (h msgs m List.prefix_rfl hnone hnew.1 hnew.2)
      · have hnone' : ¬ ∃ frame, Complete players (msgs ++ [m]) frame ∧
            Differ id (msgs ++ [m]) frame := by
          rwa [desync_append_iff fun ⟨frame, hc, hd⟩ => hnone frame hc hd]
        rw [sent_eq_nil hframes fun frame hc hd => hnone' ⟨frame, hc, hd⟩]
        exact ⟨⟨fun hne => absurd rfl hne, fun hex => absurd hex hnone'⟩,
          fun _ hr => absurd hr List.not_mem_nil⟩
    · have hdet := (received_tracks hframes.init).detected.mpr hsent
      rw [received_append, onTimeBase_of_detected hdet]
      exact ih.append hframes hsent

/-- **The server detects desyncs exactly while the low words show the first one.** -/
theorem detects_iff {players : List PlayerId} {msgs : List Report}
    (hframes : PerFrame players msgs) :
    (∀ pre, pre <+: msgs → Detects id players pre (received players.length pre).sent) ↔
      FirstDesyncShows players msgs := by
  constructor
  · intro h pre m hpre hnone hc hd
    exact (detects_append_iff (hframes.of_prefix hpre) hnone hc hd).mp (h _ hpre)
  · intro h pre hpre
    exact detects_of_shows (hframes.of_prefix hpre) (h.of_prefix hpre)

/-- Two players, of which the second is behind in the low word. -/
def lowDesync : List Report := [⟨1, 0, 7⟩, ⟨2, 0, 5⟩]

theorem detects_lowDesync : PerFrame [1, 2] lowDesync ∧
    ((∀ pre, pre <+: lowDesync → Detects id [1, 2] pre (received 2 pre).sent) ↔
      FirstDesyncShows [1, 2] lowDesync) :=
  have h : PerFrame [1, 2] lowDesync := ⟨by decide, by decide, by decide⟩
  ⟨h, detects_iff h⟩

/-- Two players whose time bases differ in the high word. -/
def highDesync : List Report := [⟨1, 0, 0x100000000⟩, ⟨2, 0, 0⟩]

/-- No desync is reported there. -/
theorem not_detects_highDesync : PerFrame [1, 2] highDesync ∧
    ¬ Detects id [1, 2] highDesync (received 2 highDesync).sent := by
  refine ⟨⟨by decide, by decide, by decide⟩, fun h => ?_⟩
  have hsent : (received 2 highDesync).sent = [] := by decide
  refine h.1.mpr ⟨0, ?_, ?_⟩ hsent
  · unfold Complete
    decide
  · unfold Differ
    decide

/-! ## the reports of the clients -/

end DolphinCore.NetPlay
