import Mathlib.Data.List.Sort
import DolphinCore.FifoPlayer.FifoPlayer

/-!
# DolphinCore.FifoPlayer.DrawnObjects

A frame of which only a range of the objects is drawn. The bytes of the others are
left out, and those around them are sent as they stand. Updates of memory are made
on the way to a byte that is sent: one behind the last of these bytes is never
made.
-/

namespace DolphinCore.FifoPlayer

open Timed

/-! ## the bytes of a frame -/

/-- The bytes from `first` to `last`, each with its place in the frame. -/
def placedSlice (data : List Byte) (first last : Nat) : List (Byte × Nat) :=
  (slice data first last).zipIdx first

theorem placedSlice_append (data : List Byte) {a b c : Nat} (hab : a ≤ b) (hbc : b ≤ c) :
    placedSlice data a b ++ placedSlice data b c = placedSlice data a c := by
  have happ := slice_append data hab hbc
  unfold placedSlice
  rw [← happ, List.zipIdx_append]
  rcases Nat.lt_or_ge data.length b with hb | hb
  · have hnil : slice data b c = [] := by
      unfold slice
      rw [List.drop_eq_nil_of_le (Nat.le_of_lt hb), List.take_nil]
    simp [hnil]
  · rw [length_slice hb, Nat.add_sub_cancel' hab]

theorem placedSlice_self (data : List Byte) {a b : Nat} (h : b ≤ a) :
    placedSlice data a b = [] := by
  unfold placedSlice
  rw [slice_self data h, List.zipIdx_nil]

theorem placedSlice_all (data : List Byte) : placedSlice data 0 data.length = data.zipIdx := by
  unfold placedSlice
  rw [slice_all]

theorem placedSlice_rest (data : List Byte) {a b : Nat} (hab : a ≤ b) :
    placedSlice data a b ++ placedSlice data b data.length = placedSlice data a data.length := by
  rcases Nat.le_total b data.length with hb | hb
  · exact placedSlice_append data hab hb
  · rw [placedSlice_self data hb, List.append_nil]
    unfold placedSlice slice
    rw [List.take_of_length_le (by simp; omega), List.take_of_length_le (by simp)]

theorem mem_placedSlice {data : List Byte} {first last : Nat} {q : Byte × Nat}
    (h : q ∈ placedSlice data first last) : first ≤ q.2 ∧ q.2 < last := by
  obtain ⟨hle, hget⟩ := List.mem_zipIdx_iff_le_and_getElem?_sub.mp h
  have hlt := (List.getElem?_eq_some_iff.mp hget).1
  unfold slice at hlt
  rw [List.length_take] at hlt
  omega

theorem placedSlice_increasing (data : List Byte) (first last : Nat) :
    (placedSlice data first last).Pairwise fun q r => q.2 < r.2 := by
  have h : ((placedSlice data first last).map Prod.snd).Pairwise (· < ·) := by
    unfold placedSlice
    rw [List.zipIdx_map_snd]
    exact List.pairwise_lt_range'
  exact List.pairwise_map.mp h

/-! ## objects -/

namespace AnalyzedFrameInfo

/-- The objects are disjoint and in order and begin inside of the frame, and the updates are the
first ones of the frame. -/
structure Of (info : AnalyzedFrameInfo) (frame : FifoFrameInfo) : Prop where
  size : frame.fifoData.length < 2 ^ 32
  length_eq : info.objectStarts.length = info.objectEnds.length
  object : ∀ k < info.objectStarts.length, info.objectStarts.getD k 0 ≤ info.objectEnds.getD k 0
  disjoint : ∀ k, k + 1 < info.objectStarts.length →
    info.objectEnds.getD k 0 ≤ info.objectStarts.getD (k + 1) 0
  begins : ∀ k < info.objectStarts.length, info.objectStarts.getD k 0 < frame.fifoData.length
  updates : info.memoryUpdates <+: frame.memoryUpdates

/-- The position behind the first objects. -/
def behind (info : AnalyzedFrameInfo) : Nat → Nat
  | 0 => 0
  | k + 1 => info.objectEnds.getD k 0

/-- The byte is outside of all objects, or inside of one of the range. -/
def Drawn (info : AnalyzedFrameInfo) (range : ObjectRange) (b : Nat) : Prop :=
  ∀ k < info.objectStarts.length, info.objectStarts.getD k 0 ≤ b → b < info.objectEnds.getD k 0 →
    range.first ≤ k ∧ k ≤ range.last

instance (info : AnalyzedFrameInfo) (range : ObjectRange) (b : Nat) :
    Decidable (info.Drawn range b) :=
  inferInstanceAs (Decidable (∀ k < info.objectStarts.length, info.objectStarts.getD k 0 ≤ b →
    b < info.objectEnds.getD k 0 → range.first ≤ k ∧ k ≤ range.last))

variable {info : AnalyzedFrameInfo} {frame : FifoFrameInfo} {range : ObjectRange}

namespace Of

theorem behind_le (h : info.Of frame) {k : Nat} (hk : k < info.objectStarts.length) :
    info.behind k ≤ info.objectStarts.getD k 0 := by
  cases k with
  | zero => exact Nat.zero_le _
  | succ k => exact h.disjoint k hk

theorem behind_step (h : info.Of frame) {k : Nat} (hk : k < info.objectStarts.length) :
    info.behind k ≤ info.behind (k + 1) :=
  Nat.le_trans (h.behind_le hk) (h.object k hk)

theorem behind_mono (h : info.Of frame) {j k : Nat} (hjk : j ≤ k)
    (hk : k ≤ info.objectStarts.length) : info.behind j ≤ info.behind k := by
  induction k, hjk using Nat.le_induction with
  | base => exact Nat.le_refl _
  | succ k hjk ih => exact Nat.le_trans (ih (by omega)) (h.behind_step hk)

theorem number_of_mem (h : info.Of frame) {j b : Nat} (hj : j < info.objectStarts.length)
    (hstart : info.objectStarts.getD j 0 ≤ b) (hend : b < info.objectEnds.getD j 0) :
    (∀ d ≤ info.objectStarts.length, info.behind d ≤ b → d ≤ j) ∧
      ∀ e ≤ info.objectStarts.length, b < info.behind e → j < e := by
  constructor
  · intro d hd hle
    by_contra hlt
    have hmono : info.objectEnds.getD j 0 ≤ info.behind d :=
      h.behind_mono (j := j + 1) (by omega) hd
    omega
  · intro e he hlt
    by_contra hle
    have hmono := h.behind_mono (Nat.le_of_not_lt hle) (Nat.le_of_lt hj)
    have := h.behind_le hj
    omega

theorem drawn_gap (h : info.Of frame) {k b : Nat} (hk : k ≤ info.objectStarts.length)
    (hb : info.behind k ≤ b) (hlt : k < info.objectStarts.length → b < info.objectStarts.getD k 0) :
    info.Drawn range b := by
  intro j hj hstart hend
  have hkj := (h.number_of_mem hj hstart hend).1 k hk hb
  have hk' : k < info.objectStarts.length := by omega
  have hbefore : b < info.behind (k + 1) := Nat.lt_of_lt_of_le (hlt hk') (h.object k hk')
  have hjk := (h.number_of_mem hj hstart hend).2 (k + 1) hk' hbefore
  obtain rfl : j = k := by omega
  omega

theorem drawn_object (h : info.Of frame) {k b : Nat} (hk : k < info.objectStarts.length)
    (hstart : info.objectStarts.getD k 0 ≤ b) (hend : b < info.objectEnds.getD k 0) :
    info.Drawn range b ↔ range.first ≤ k ∧ k ≤ range.last := by
  constructor
  · intro hdrawn
    exact hdrawn k hk hstart hend
  · intro hrange j hj hstart' hend'
    have hjk := (h.number_of_mem hj hstart' hend').2 (k + 1) hk hend
    have hkj := (h.number_of_mem hk hstart hend).2 (j + 1) hj hend'
    obtain rfl : j = k := by omega
    exact hrange

end Of

/-! ## what is sent of a frame -/

/-- The bytes of a part. -/
def partBytes (data : List Byte) (parts : List (Nat × Nat)) : List (Byte × Nat) :=
  parts.flatMap fun part => placedSlice data part.1 part.2

theorem partBytes_cons (data : List Byte) (part : Nat × Nat) (parts : List (Nat × Nat)) :
    partBytes data (part :: parts) = placedSlice data part.1 part.2 ++ partBytes data parts :=
  List.flatMap_cons

/-- The bytes of a frame that are outside of all objects, or inside of one of the range. -/
def drawnBytes (info : AnalyzedFrameInfo) (range : ObjectRange) (bytes : List (Byte × Nat)) :
    List (Byte × Nat) :=
  bytes.filter fun q => info.Drawn range q.2

theorem drawnBytes_append (bytes more : List (Byte × Nat)) :
    info.drawnBytes range (bytes ++ more) = info.drawnBytes range bytes ++
      info.drawnBytes range more :=
  List.filter_append ..

theorem drawnBytes_eq_self {bytes : List (Byte × Nat)} (h : ∀ q ∈ bytes, info.Drawn range q.2) :
    info.drawnBytes range bytes = bytes :=
  List.filter_eq_self.mpr fun q hq => decide_eq_true (h q hq)

theorem drawnBytes_eq_nil {bytes : List (Byte × Nat)} (h : ∀ q ∈ bytes, ¬ info.Drawn range q.2) :
    info.drawnBytes range bytes = [] :=
  List.filter_eq_nil_iff.mpr fun q hq => by simpa using h q hq

/-- The parts send what is drawn from `first` to `last`, and end inside of the frame. -/
structure Sends (info : AnalyzedFrameInfo) (range : ObjectRange) (data : List Byte)
    (parts : List (Nat × Nat)) (first last : Nat) : Prop where
  bytes : partBytes data parts = info.drawnBytes range (placedSlice data first last)
  ends : ∀ part ∈ parts, part.2 ≤ data.length

variable {data : List Byte} {parts more : List (Nat × Nat)} {a b c : Nat}

theorem Sends.nil : info.Sends range data [] a a :=
  ⟨by rw [placedSlice_self data (Nat.le_refl a)]; rfl, nofun⟩

theorem Sends.append (h : info.Sends range data parts a b) (h' : info.Sends range data more b c)
    (hsplit : placedSlice data a b ++ placedSlice data b c = placedSlice data a c) :
    info.Sends range data (parts ++ more) a c := by
  constructor
  · rw [← hsplit, drawnBytes_append, ← h.bytes, ← h'.bytes]
    exact List.flatMap_append
  · intro part hpart
    rcases List.mem_append.mp hpart with hpart | hpart
    · exact h.ends part hpart
    · exact h'.ends part hpart

theorem Sends.part (hdrawn : ∀ q ∈ placedSlice data a b, info.Drawn range q.2)
    (hb : b ≤ data.length) : info.Sends range data [(a, b)] a b := by
  constructor
  · rw [drawnBytes_eq_self hdrawn]
    exact List.append_nil _
  · simpa using hb

theorem Sends.skip (h : ∀ q ∈ placedSlice data a b, ¬ info.Drawn range q.2) :
    info.Sends range data [] a b :=
  ⟨(drawnBytes_eq_nil h).symm, nofun⟩

/-- **Objects that are skipped**: what is sent is what is between them. -/
theorem Of.skipObjects (h : info.Of frame) (range : ObjectRange) {k m : Nat}
    (hkm : k + m ≤ info.objectStarts.length)
    (hskip : ∀ j, k ≤ j → j < k + m → ¬ (range.first ≤ j ∧ j ≤ range.last)) :
    (skipObjects info (info.behind k) (List.range' k m)).2 = info.behind (k + m) ∧
      info.Sends range frame.fifoData (skipObjects info (info.behind k) (List.range' k m)).1
        (info.behind k) (info.behind (k + m)) := by
  induction m generalizing k with
  | zero => exact ⟨rfl, .nil⟩
  | succ m ih =>
    have hk : k < info.objectStarts.length := by omega
    obtain ⟨hlast, hsends⟩ := ih (k := k + 1) (by omega) fun j hj hjm =>
      hskip j (by omega) (by omega)
    rw [show k + 1 + m = k + (m + 1) by omega] at hlast hsends
    have hgap : info.Sends range frame.fifoData
        [(info.behind k, info.objectStarts.getD k 0)] _ _ :=
      .part (fun q hq => h.drawn_gap (Nat.le_of_lt hk) (mem_placedSlice hq).1 fun _ =>
        (mem_placedSlice hq).2) (Nat.le_of_lt (h.begins k hk))
    have hobject : info.Sends range frame.fifoData [] (info.objectStarts.getD k 0)
        (info.behind (k + 1)) :=
      .skip fun q hq => by
        rw [h.drawn_object hk (mem_placedSlice hq).1 (mem_placedSlice hq).2]
        exact hskip k (Nat.le_refl _) (by omega)
    have hone := hgap.append hobject (placedSlice_append _ (h.behind_le hk) (h.object k hk))
    exact ⟨hlast, hone.append hsends
      (placedSlice_append _ (h.behind_step hk) (h.behind_mono (by omega) hkm))⟩

/-- The objects of the range end inside of the frame. -/
def Within (info : AnalyzedFrameInfo) (range : ObjectRange) (size : Nat) : Prop :=
  ∀ k < info.objectStarts.length, range.first ≤ k → k ≤ range.last → info.objectEnds.getD k 0 ≤ size

instance (info : AnalyzedFrameInfo) (range : ObjectRange) (size : Nat) :
    Decidable (info.Within range size) :=
  inferInstanceAs (Decidable (∀ k < info.objectStarts.length, range.first ≤ k → k ≤ range.last →
    info.objectEnds.getD k 0 ≤ size))

/-- **Objects that are drawn** are one part, with what is between them. -/
theorem Of.drawn_part (h : info.Of frame) {first last : Nat} (hle : first ≤ last)
    (hlast : last < info.objectStarts.length)
    (hrange : ∀ k, first ≤ k → k ≤ last → range.first ≤ k ∧ k ≤ range.last)
    (hwithin : info.Within range frame.fifoData.length) :
    info.Sends range frame.fifoData [(info.behind first, info.behind (last + 1))]
      (info.behind first) (info.behind (last + 1)) := by
  obtain ⟨hfirst, hto⟩ := hrange last hle (Nat.le_refl _)
  refine .part (fun q hq j hj hstart hend => ?_) (hwithin last hlast hfirst hto)
  obtain ⟨hfrom, hto⟩ := mem_placedSlice hq
  have hfirst := (h.number_of_mem hj hstart hend).1 first (by omega) hfrom
  have hj' := (h.number_of_mem hj hstart hend).2 (last + 1) hlast hto
  exact hrange j hfirst (by omega)

theorem Of.rest (h : info.Of frame) : info.Sends range frame.fifoData
    [(info.behind info.objectStarts.length, frame.fifoData.length)]
    (info.behind info.objectStarts.length) frame.fifoData.length :=
  .part (fun _ hq => h.drawn_gap (Nat.le_refl _) (mem_placedSlice hq).1 fun hlt =>
    absurd hlt (Nat.lt_irrefl _)) (Nat.le_refl _)

theorem Of.skipRest (h : info.Of frame) (range : ObjectRange) {k : Nat}
    (hk : k ≤ info.objectStarts.length)
    (hskip : ∀ j < info.objectStarts.length, k ≤ j → ¬ (range.first ≤ j ∧ j ≤ range.last)) :
    let (after, position) := FifoPlayer.skipObjects info (info.behind k)
      (List.range' k (info.objectStarts.length - k))
    info.Sends range frame.fifoData (after ++ [(position, frame.fifoData.length % 2 ^ 32)])
      (info.behind k) frame.fifoData.length := by
  obtain ⟨hlast, hsends⟩ := h.skipObjects range (k := k) (m := info.objectStarts.length - k)
    (by omega) fun j hj hlt => hskip j (by omega) hj
  rw [Nat.add_sub_cancel' hk] at hlast hsends
  simp only [hlast, Nat.mod_eq_of_lt h.size]
  exact hsends.append h.rest (placedSlice_rest _ (h.behind_mono hk (Nat.le_refl _)))

theorem Of.skipFirst (h : info.Of frame) (range : ObjectRange) : (FifoPlayer.skipObjects info 0
        (List.range (min info.objectStarts.length range.first))).2 =
      info.behind (min info.objectStarts.length range.first) ∧
    info.Sends range frame.fifoData
      (FifoPlayer.skipObjects info 0
        (List.range (min info.objectStarts.length range.first))).1 0
      (info.behind (min info.objectStarts.length range.first)) := by
  have hspec := h.skipObjects range (k := 0) (m := min info.objectStarts.length range.first)
    (by omega) fun j _ hj => by omega
  rw [Nat.zero_add, ← List.range_eq_range'] at hspec
  exact hspec

theorem frameParts_of_drawn (frame : FifoFrameInfo)
    (hdraw : min info.objectStarts.length range.first < info.objectStarts.length ∧
      min info.objectStarts.length range.first ≤ min (info.objectStarts.length - 1) range.last) :
    let drawEnd := min (info.objectStarts.length - 1) range.last
    let (before, position) := FifoPlayer.skipObjects info 0
      (List.range (min info.objectStarts.length range.first))
    let (after, last) := FifoPlayer.skipObjects info (info.behind (drawEnd + 1))
      (List.range' (drawEnd + 1) (info.objectStarts.length - (drawEnd + 1)))
    frameParts frame info range = before ++ [(position, info.behind (drawEnd + 1))] ++
      (after ++ [(last, frame.fifoData.length % 2 ^ 32)]) := by
  unfold frameParts
  simp only [if_pos hdraw, List.append_assoc]
  rfl

theorem frameParts_of_skipped (frame : FifoFrameInfo)
    (hskip : ¬ (min info.objectStarts.length range.first < info.objectStarts.length ∧
      min info.objectStarts.length range.first ≤ min (info.objectStarts.length - 1) range.last)) :
    let drawStart := min info.objectStarts.length range.first
    let (before, position) := FifoPlayer.skipObjects info 0 (List.range drawStart)
    let (after, last) := FifoPlayer.skipObjects info position
      (List.range' drawStart (info.objectStarts.length - drawStart))
    frameParts frame info range =
      before ++ (after ++ [(last, frame.fifoData.length % 2 ^ 32)]) := by
  unfold frameParts
  simp only [if_neg hskip, List.append_nil, List.append_assoc]

/-- **The parts of a frame** send what is drawn. -/
theorem Of.sends (h : info.Of frame) (hwithin : info.Within range frame.fifoData.length) :
    info.Sends range frame.fifoData (frameParts frame info range) 0 frame.fifoData.length := by
  obtain ⟨hbefore, hskipped⟩ := h.skipFirst range
  by_cases hdraw : min info.objectStarts.length range.first < info.objectStarts.length ∧
      min info.objectStarts.length range.first ≤ min (info.objectStarts.length - 1) range.last
  · have hparts := frameParts_of_drawn frame hdraw
    have hlast : min (info.objectStarts.length - 1) range.last + 1 ≤ info.objectStarts.length := by
      omega
    have hdrawn := h.drawn_part hdraw.2 hlast (fun k _ _ => by omega) hwithin
    have hrest := h.skipRest range hlast fun j hj hle => by omega
    simp only [hbefore] at hparts
    rw [hparts]
    exact (hskipped.append hdrawn (placedSlice_append _ (Nat.zero_le _)
      (h.behind_mono (by omega) hlast))).append hrest (placedSlice_rest _ (Nat.zero_le _))
  · have hparts := frameParts_of_skipped frame hdraw
    have hrest := h.skipRest range (Nat.min_le_left _ range.first)
      fun j hj hle => by omega
    simp only [hbefore] at hparts
    rw [hparts]
    exact hskipped.append hrest (placedSlice_rest _ (Nat.zero_le _))

theorem Of.overrun (h : info.Of frame)
    (hwithin : ¬ info.Within range frame.fifoData.length) :
    ∃ part ∈ frameParts frame info range, part.1 < part.2 ∧ frame.fifoData.length < part.2 := by
  unfold Within at hwithin
  push Not at hwithin
  obtain ⟨k, hk, hfirst, hlast, hend⟩ := hwithin
  have hdraw : min info.objectStarts.length range.first < info.objectStarts.length ∧
      min info.objectStarts.length range.first ≤ min (info.objectStarts.length - 1) range.last := by
    omega
  have hparts := frameParts_of_drawn frame hdraw
  have hposition := (h.skipFirst range).1
  have hmono : info.objectEnds.getD k 0 ≤
      info.behind (min (info.objectStarts.length - 1) range.last + 1) :=
    h.behind_mono (j := k + 1) (by omega) (by omega)
  have hbehind := h.behind_mono (show min info.objectStarts.length range.first ≤ k by omega)
    (Nat.le_of_lt hk)
  have hstart := h.behind_le hk
  have hbegin := h.begins k hk
  refine ⟨_, hparts ▸ List.mem_append_left _ (List.mem_append_right _ (List.mem_singleton_self _)),
    ?_, ?_⟩ <;> dsimp only <;> omega

end AnalyzedFrameInfo

/-! ## the updates -/

section

variable {frame : FifoFrameInfo} {info : AnalyzedFrameInfo} {range : ObjectRange}

/-- The updates that are left at an index: those the analysis has found from there on, and none
behind the last one of the frame. -/
def Left (frame : FifoFrameInfo) (info : AnalyzedFrameInfo) (k : Nat) (us : List MemoryUpdate) :
    Prop :=
  (info.memoryUpdates.length = frame.memoryUpdates.length ∧ info.memoryUpdates.drop k = us) ∨
    (frame.memoryUpdates.length ≤ k ∧ us = [])

variable {us : List MemoryUpdate}

/-- **A part**: its bytes are sent in their places, each behind the updates whose time has
come. -/
theorem WriteFramePart_placed {k : Nat} (h : Left frame info k us) {dataEnd : Nat}
    (hend : dataEnd ≤ frame.fifoData.length) (dataStart : Nat) :
    ∃ k', WriteFramePart frame info dataEnd dataStart k = some (placedTimeline MemoryUpdate.position
          (placedSlice frame.fifoData dataStart dataEnd) us, k') ∧
      Left frame info k' (placedLater MemoryUpdate.position
        (placedSlice frame.fifoData dataStart dataEnd) us) := by
  have hplaced := @timeline_eq_placed _ _ MemoryUpdate.position dataStart
    (slice frame.fifoData dataStart dataEnd) us
  rcases h with ⟨hlen, hus⟩ | ⟨hk, rfl⟩
  · obtain ⟨k', hpart, hleft⟩ := WriteFramePart_eq hlen hend dataStart k
    rw [hus] at hpart hleft
    exact ⟨k', hpart.trans (congrArg (fun ts => some (ts, k')) hplaced.1),
      .inl ⟨hlen, hleft.trans hplaced.2⟩⟩
  · refine ⟨k, ?_, .inr ⟨hk, hplaced.2.symm.trans laterEvents_nil⟩⟩
    rw [WriteFramePart, if_neg (by omega), placedSlice, ← hplaced.1, timeline_nil]
    split
    · rw [WriteFifo_eq]
    · next h => rw [slice_self _ (Nat.le_of_not_lt h), List.map_nil]

/-- **The parts** one after another. -/
theorem writeParts_eq {parts : List (Nat × Nat)}
    (hends : ∀ part ∈ parts, part.2 ≤ frame.fifoData.length) {k : Nat} (h : Left frame info k us) :
    writeParts frame info k parts = some (placedTimeline MemoryUpdate.position
        (AnalyzedFrameInfo.partBytes frame.fifoData parts) us) := by
  induction parts generalizing k us with
  | nil => rfl
  | cons part parts ih =>
    obtain ⟨hend, hrest⟩ := List.forall_mem_cons.mp hends
    obtain ⟨k', hpart, hleft⟩ := WriteFramePart_placed h hend part.1
    rw [writeParts, hpart]
    simp only [Option.bind_some, ih hrest hleft]
    rw [AnalyzedFrameInfo.partBytes_cons, placedTimeline_append]
    rfl

theorem events_WriteFifo (data : List Byte) (written last : Nat) (p : Prop) [Decidable p] :
    Timed.events (if p then WriteFifo data written last else []) = [] := by
  rw [WriteFifo_eq]
  unfold Timed.events
  split <;> simp

variable {events : List PlayEvent}

theorem WriteFramePart_count {dataStart dataEnd k k' : Nat}
    (h : WriteFramePart frame info dataEnd dataStart k = some (events, k')) :
    k' = k + (Timed.events events).length ∧ k' ≤ max k info.memoryUpdates.length := by
  induction hn : frame.memoryUpdates.length - k generalizing dataStart k events with
  | zero =>
    rw [WriteFramePart, if_neg (by omega)] at h
    obtain ⟨rfl, rfl⟩ := Prod.mk.inj (Option.some.inj h)
    simp [events_WriteFifo]
  | succ n ih =>
    rw [WriteFramePart] at h
    split at h
    · cases hget : info.memoryUpdates[k]? with
      | none =>
        rw [hget] at h
        cases h
      | some u =>
        have hk := (List.getElem?_eq_some_iff.mp hget).1
        simp only [hget] at h
        split at h
        · obtain ⟨⟨more, last⟩, hrec, heq⟩ := Option.map_eq_some_iff.mp h
          obtain ⟨rfl, rfl⟩ := Prod.mk.inj heq
          obtain ⟨hcount, hle⟩ := ih hrec (by omega)
          rw [Timed.events_append, events_WriteFifo, List.nil_append, Timed.events_cons_event,
            List.length_cons]
          dsimp only
          omega
        · obtain ⟨rfl, rfl⟩ := Prod.mk.inj (Option.some.inj h)
          have hfifo := events_WriteFifo frame.fifoData dataStart dataEnd True
          rw [if_pos trivial] at hfifo
          simp [hfifo]
    · obtain ⟨rfl, rfl⟩ := Prod.mk.inj (Option.some.inj h)
      simp [events_WriteFifo]

theorem writeParts_count {parts : List (Nat × Nat)} {k : Nat}
    (h : writeParts frame info k parts = some events) :
    k + (Timed.events events).length ≤ max k info.memoryUpdates.length := by
  induction parts generalizing k events with
  | nil =>
    obtain rfl := Option.some.inj h
    exact Nat.le_max_left ..
  | cons part parts ih =>
    obtain ⟨⟨first, k'⟩, hpart, hrest⟩ := Option.bind_eq_some_iff.mp h
    obtain ⟨more, hmore, rfl⟩ := Option.map_eq_some_iff.mp hrest
    obtain ⟨hcount, hle⟩ := WriteFramePart_count hpart
    have := ih hmore
    rw [Timed.events_append, List.length_append]
    omega

/-! ## what the player does with a frame -/

/-- The player sends the bytes of a frame that are drawn, each once and in order, and makes each
update of the frame exactly once, before any later byte is sent. -/
structure Plays (early : Bool) (range : ObjectRange) (frame : FifoFrameInfo)
    (info : AnalyzedFrameInfo) : Prop where
  /-- Nothing is read behind the frame. -/
  inside : ∀ part ∈ frameParts frame info range, part.1 < part.2 → part.2 ≤ frame.fifoData.length
  played : ∃ events, WriteFrame early range frame info = some events ∧
    Timed.items events = (info.drawnBytes range frame.fifoData.zipIdx).map Prod.fst ∧
    (Timed.events events).Perm frame.memoryUpdates ∧
    Timely MemoryUpdate.position (info.drawnBytes range frame.fifoData.zipIdx) events

/-- The objects of the range end inside of the frame. The analysis has found every update; behind
each of them there is a byte that is drawn, and up to no such byte an update stands behind one
that is due later. -/
structure Playable (early : Bool) (range : ObjectRange) (frame : FifoFrameInfo)
    (info : AnalyzedFrameInfo) : Prop where
  within : info.Within range frame.fifoData.length
  found : if early then frame.memoryUpdates = [] else info.memoryUpdates = frame.memoryUpdates
  reached : ∀ u ∈ frame.memoryUpdates, ∃ b < frame.fifoData.length,
    info.Drawn range b ∧ u.position ≤ b
  order : frame.memoryUpdates.Pairwise fun u v => ∀ b < frame.fifoData.length,
    info.Drawn range b → v.position ≤ b → u.position ≤ b

theorem mem_drawnBytes {q : Byte × Nat} : q ∈ info.drawnBytes range frame.fifoData.zipIdx ↔
      frame.fifoData[q.2]? = some q.1 ∧ info.Drawn range q.2 := by
  unfold AnalyzedFrameInfo.drawnBytes
  rw [List.mem_filter, List.mem_zipIdx_iff_getElem?]
  simp

theorem exists_drawnByte (p : Nat → Prop) :
    (∃ q ∈ info.drawnBytes range frame.fifoData.zipIdx, p q.2) ↔
      ∃ b < frame.fifoData.length, info.Drawn range b ∧ p b := by
  constructor
  · rintro ⟨q, hq, hp⟩
    obtain ⟨hget, hdrawn⟩ := mem_drawnBytes.mp hq
    exact ⟨q.2, (List.getElem?_eq_some_iff.mp hget).1, hdrawn, hp⟩
  · rintro ⟨b, hb, hdrawn, hp⟩
    exact ⟨(frame.fifoData[b], b), mem_drawnBytes.mpr ⟨List.getElem?_eq_getElem hb, hdrawn⟩, hp⟩

theorem forall_drawnByte (p : Nat → Prop) :
    (∀ q ∈ info.drawnBytes range frame.fifoData.zipIdx, p q.2) ↔
      ∀ b < frame.fifoData.length, info.Drawn range b → p b := by
  have h := not_congr (@exists_drawnByte frame info range fun b => ¬ p b)
  push Not at h
  exact h

theorem drawnBytes_increasing :
    (info.drawnBytes range frame.fifoData.zipIdx).Pairwise fun q r => q.2 < r.2 := by
  rw [← placedSlice_all]
  exact (placedSlice_increasing ..).sublist List.filter_sublist

variable {early : Bool}

theorem WriteFrame_placed (h : info.Of frame) (hwithin : info.Within range frame.fifoData.length)
    (hleft : Left frame info (if early then frame.memoryUpdates.length else 0) us) :
    WriteFrame early range frame info = some (placedTimeline MemoryUpdate.position
      (info.drawnBytes range frame.fifoData.zipIdx) us) := by
  have hsends := h.sends hwithin
  unfold WriteFrame
  rw [writeParts_eq hsends.ends hleft, hsends.bytes, placedSlice_all]

theorem left_of_found
    (h : if early then frame.memoryUpdates = [] else info.memoryUpdates = frame.memoryUpdates) :
    Left frame info (if early then frame.memoryUpdates.length else 0) frame.memoryUpdates := by
  cases early with
  | true => exact .inr ⟨Nat.le_refl _, h⟩
  | false => exact .inl ⟨congrArg List.length h, h⟩

theorem found_of_played (h : info.Of frame)
    (hwrite : WriteFrame early range frame info = some events)
    (hperm : (Timed.events events).Perm frame.memoryUpdates) :
    if early then frame.memoryUpdates = [] else info.memoryUpdates = frame.memoryUpdates := by
  have hcount := writeParts_count hwrite
  have hlen := h.updates.length_le
  rw [hperm.length_eq] at hcount
  cases early with
  | true =>
    simp only [if_true] at hcount ⊢
    exact List.length_eq_zero_iff.mp (by omega)
  | false =>
    exact h.updates.eq_of_length_le (by omega)

/-- **A range of objects**: the player does right by a frame exactly when every update was found,
has a drawn byte behind it and does not stand behind one that is due later. -/
theorem plays_iff (h : info.Of frame) (early : Bool) (range : ObjectRange) :
    Plays early range frame info ↔ Playable early range frame info := by
  have hinc := @drawnBytes_increasing frame info range
  have hreach : placedLater MemoryUpdate.position (info.drawnBytes range frame.fifoData.zipIdx)
      frame.memoryUpdates = [] ↔ ∀ u ∈ frame.memoryUpdates, ∃ b < frame.fifoData.length,
        info.Drawn range b ∧ u.position ≤ b := by
    rw [placedLater_eq_nil_iff hinc]
    exact forall₂_congr fun u _ => exists_drawnByte fun b => u.position ≤ b
  have horder : (frame.memoryUpdates.Pairwise fun u v =>
        ∀ q ∈ info.drawnBytes range frame.fifoData.zipIdx, v.position ≤ q.2 → u.position ≤ q.2) ↔
      frame.memoryUpdates.Pairwise fun u v => ∀ b < frame.fifoData.length, info.Drawn range b →
        v.position ≤ b → u.position ≤ b := by
    refine List.Pairwise.iff fun u v => ?_
    exact forall_drawnByte fun b => v.position ≤ b → u.position ≤ b
  have hevents := @events_placedTimeline _ _ MemoryUpdate.position frame.memoryUpdates
    (info.drawnBytes range frame.fifoData.zipIdx)
  constructor
  · rintro ⟨hinside, events, hwrite, -, hperm, htimely⟩
    have hwithin : info.Within range frame.fifoData.length := by
      by_contra hnot
      obtain ⟨part, hpart, hlt, hover⟩ := h.overrun hnot
      exact absurd (hinside part hpart hlt) (Nat.not_le_of_lt hover)
    have hfound := found_of_played h hwrite hperm
    rw [WriteFrame_placed h hwithin (left_of_found hfound)] at hwrite
    obtain rfl := Option.some.inj hwrite
    have hall : placedLater MemoryUpdate.position
        (info.drawnBytes range frame.fifoData.zipIdx) frame.memoryUpdates = [] := by
      have hlen := congrArg List.length hevents
      rw [List.length_append, hperm.length_eq] at hlen
      exact List.length_eq_zero_iff.mp (by omega)
    exact ⟨hwithin, hfound, hreach.mp hall, horder.mp ((timely_iff hinc hall).mp htimely)⟩
  · rintro ⟨hwithin, hfound, hreached, hordered⟩
    have hall := hreach.mpr hreached
    rw [hall, List.append_nil] at hevents
    refine ⟨fun part hpart _ => (h.sends hwithin).ends part hpart, _,
      WriteFrame_placed h hwithin (left_of_found hfound), items_placedTimeline, ?_,
      (timely_iff hinc hall).mpr (horder.mpr hordered)⟩
    rw [hevents]

end

/-! ## frames of the analysis -/

theorem increasing_interleave {starts ends : List Nat} (hlen : starts.length = ends.length)
    (h : (interleave starts ends).Pairwise (· < ·)) {k : Nat} (hk : k < starts.length) :
    starts.getD k 0 < ends.getD k 0 ∧
      (k + 1 < starts.length → ends.getD k 0 < starts.getD (k + 1) 0) := by
  induction starts generalizing ends k with
  | nil => exact absurd hk (Nat.not_lt_zero k)
  | cons s starts ih =>
    cases ends with
    | nil => exact absurd hlen (Nat.succ_ne_zero _)
    | cons e ends =>
      have hlen' : starts.length = ends.length := Nat.succ.inj hlen
      rw [interleave, interleave] at h
      obtain ⟨hs, he⟩ := List.pairwise_cons.mp h
      obtain ⟨hrest, hpair⟩ := List.pairwise_cons.mp he
      cases k with
      | succ k =>
        have hobject := ih hlen' hpair (Nat.lt_of_succ_lt_succ hk)
        simpa using hobject
      | zero =>
        refine ⟨hs e (List.mem_cons_self ..), fun hmore => ?_⟩
        have hmem : starts.getD 0 0 ∈ interleave starts ends := by
          cases starts with
          | nil => exact absurd hmore (Nat.lt_irrefl _)
          | cons t starts => exact mem_interleave (.inl hlen') (.inl (List.mem_cons_self ..))
        exact hrest _ hmem

theorem AnalyzedFrameInfo.Objects.of {info : AnalyzedFrameInfo} {frame : FifoFrameInfo} {size : Nat}
    (h : info.Objects size) (hsize : frame.fifoData.length < 2 ^ 32)
    (hbegins : ∀ s ∈ info.objectStarts, s < frame.fifoData.length)
    (hupdates : info.memoryUpdates <+: frame.memoryUpdates) : info.Of frame where
  size := hsize
  length_eq := h.length_eq
  object k hk := Nat.le_of_lt (increasing_interleave h.length_eq h.increasing hk).1
  disjoint k hk :=
    Nat.le_of_lt ((increasing_interleave h.length_eq h.increasing (Nat.lt_of_succ_lt hk)).2 hk)
  begins k hk := by
    rw [List.getD_eq_getElem?_getD, List.getElem?_eq_getElem hk]
    exact hbegins _ (List.getElem_mem hk)
  updates := hupdates

theorem AnalyzedFrameInfo.of_no_objects {info : AnalyzedFrameInfo} {frame : FifoFrameInfo}
    (hsize : frame.fifoData.length < 2 ^ 32) (hstarts : info.objectStarts = [])
    (hends : info.objectEnds = []) (hupdates : info.memoryUpdates <+: frame.memoryUpdates) :
    info.Of frame := by
  have hnone : ∀ k, ¬ k < info.objectStarts.length := by simp [hstarts]
  exact ⟨hsize, by rw [hstarts, hends], fun k hk => absurd hk (hnone k),
    fun k hk => absurd hk (hnone _), fun k hk => absurd hk (hnone k), hupdates⟩

namespace FrameWalk

/-- The walk is somewhere in the frame, in front of `rest`. -/
structure In (frame : FifoFrameInfo) (w : FrameWalk) (rest : List Byte) : Prop where
  ok : w.Ok
  begins : ∀ s ∈ w.analyzed.objectStarts, s < frame.fifoData.length
  updates : w.analyzed.memoryUpdates ++ w.later = frame.memoryUpdates
  position : rest ≠ [] → w.cmdStart + rest.length = frame.fifoData.length

theorem next_objectStarts (w : FrameWalk) (cmdSize : Nat) (a : Analyzer) :
    ∀ s ∈ (w.next cmdSize a).analyzed.objectStarts,
      s ∈ w.analyzed.objectStarts ∨ s = w.cmdStart := by
  intro s hs
  unfold next toggle at hs
  split at hs
  · exact .inl hs
  · split at hs
    · simpa using hs
    · exact .inl hs

theorem next_memoryUpdates (w : FrameWalk) (cmdSize : Nat) (a : Analyzer) :
    (w.next cmdSize a).analyzed.memoryUpdates = w.analyzed.memoryUpdates := by
  unfold next toggle
  split
  · rfl
  · split <;> rfl

theorem command_cases {w : FrameWalk} {cmd : Byte} {data : List Byte} : (∃ cmdSize a, 0 < cmdSize ∧
      w.command cmd data = .ok (.next (w.addUpdates.next cmdSize a) (cmdSize - 1) [])) ∨
    ∃ w', w.command cmd data = .error w' ∧ w'.analyzed.objectStarts = [] ∧
      w'.analyzed.objectEnds = [] ∧
      w'.analyzed.memoryUpdates = w.addUpdates.analyzed.memoryUpdates := by
  generalize hsize : AnalyzeCommand w.addUpdates.analyzer (cmd :: data) = sized
  obtain ⟨cmdSize, a⟩ := sized
  unfold command
  simp only [hsize]
  split
  · exact .inr ⟨_, rfl, rfl, rfl, rfl⟩
  · next h => exact .inl ⟨cmdSize, a, Nat.pos_of_ne_zero h, rfl⟩

theorem In.next {frame : FifoFrameInfo} {w : FrameWalk} {cmd : Byte} {data : List Byte}
    (h : w.In frame (cmd :: data)) {cmdSize : Nat} (hpos : 0 < cmdSize) (a : Analyzer) :
    (w.addUpdates.next cmdSize a).In frame (data.drop (cmdSize - 1)) := by
  have hhere : w.cmdStart + (data.length + 1) = frame.fifoData.length :=
    h.position (List.cons_ne_nil _ _)
  refine ⟨h.ok.next hpos a, fun s hs => ?_, ?_, fun hne => ?_⟩
  · rcases next_objectStarts _ _ _ s hs with hs | hs
    · exact h.begins s hs
    · have : s = w.cmdStart := hs
      omega
  · rw [next_memoryUpdates]
    exact w.addUpdates_all.trans h.updates
  · have hlt : cmdSize - 1 < data.length := by
      by_contra hge
      exact hne (List.drop_eq_nil_of_le (Nat.le_of_not_lt hge))
    show w.cmdStart + cmdSize + _ = _
    rw [List.length_drop]
    omega

theorem In.start (a : Analyzer) (frame : FifoFrameInfo) :
    (FrameWalk.start a frame).In frame frame.fifoData :=
  ⟨ok_start a frame, nofun, rfl, fun _ => Nat.zero_add _⟩

theorem of_analyzeFrame (a : Analyzer) (frame : FifoFrameInfo)
    (hsize : frame.fifoData.length < 2 ^ 32) :
    (∀ w, analyzeFrame a frame = .ok w → w.analyzed.Of frame) ∧
      ∀ w, analyzeFrame a frame = .error w → w.analyzed.Of frame := by
  have hwalk := @decode_invariant _ _ _ _ command _ _ (fun w rest => w.In frame rest)
    (fun w => w.analyzed.Of frame) ?_ ?_ ?_ (In.start a frame)
  · obtain ⟨hok, herror⟩ := hwalk
    unfold analyzeFrame
    constructor
    · intro w hw
      cases hd : decode command (.start a frame) frame.fifoData with
      | error w' =>
        rw [hd] at hw
        cases hw
      | ok r =>
        rw [hd] at hw
        cases hw
        have hin := hok r hd
        refine hin.ok.finish.of hsize ?_ ?_
        · unfold finish
          split <;> exact hin.begins
        · rw [finish_memoryUpdates, ← hin.updates]
          exact List.prefix_append ..
    · intro w hw
      cases hd : decode command (.start a frame) frame.fifoData with
      | error w' =>
        rw [hd] at hw
        cases hw
        exact herror _ hd
      | ok r =>
        rw [hd] at hw
        cases hw
  · intro w cmd data w' n outs hin hstep
    rcases @command_cases w cmd data with ⟨cmdSize, a', hpos, hcmd⟩ | ⟨w', hcmd, -⟩
    · rw [hcmd] at hstep
      cases hstep
      exact hin.next hpos a'
    · rw [hcmd] at hstep
      cases hstep
  · intro w cmd data w' hin hstep
    rcases @command_cases w cmd data with ⟨cmdSize, a', hpos, hcmd⟩ | ⟨w', hcmd, -⟩ <;>
      rw [hcmd] at hstep <;> cases hstep
  · intro w cmd data w' hin hstep
    rcases @command_cases w cmd data with ⟨cmdSize, a', hpos, hcmd⟩ | ⟨w', hcmd, hs, he, hupd⟩
    · rw [hcmd] at hstep
      cases hstep
    · rw [hcmd] at hstep
      cases hstep
      refine AnalyzedFrameInfo.of_no_objects hsize hs he ?_
      rw [hupd, ← hin.updates, ← addUpdates_all]
      exact List.prefix_append ..

end FrameWalk

/-- **The analysis** finds objects that are in order, and updates in the order of the frame. -/
theorem analyzeAll_of {frames : List FifoFrameInfo}
    (hsize : ∀ frame ∈ frames, frame.fifoData.length < 2 ^ 32) (a : Analyzer) :
    List.Forall₂ (fun (frame : FifoFrameInfo) (info : AnalyzedFrameInfo) => info.Of frame) frames
      (analyzeAll a frames) := by
  induction frames generalizing a with
  | nil => exact .nil
  | cons frame frames ih =>
    obtain ⟨hframe, hframes⟩ := List.forall_mem_cons.mp hsize
    obtain ⟨hok, herror⟩ := FrameWalk.of_analyzeFrame a frame hframe
    unfold analyzeAll
    cases hw : analyzeFrame a frame with
    | ok w => exact .cons (hok w hw) (ih hframes _)
    | error w =>
      refine .cons (herror w hw) (List.forall₂_map_right_iff.mpr ?_)
      exact List.forall₂_same.mpr fun f hf =>
        AnalyzedFrameInfo.of_no_objects (hframes f hf) rfl rfl (List.nil_prefix ..)

/-- Two draws that are one object, with an update between them. -/
def drawsFrame : FifoFrameInfo :=
  ⟨[0x80, 0, 0, 0x80, 0, 0], 0, 0, [⟨3, 0, [0x07], .TEXTURE_MAP⟩]⟩

theorem analyzeAll_draws (a : Analyzer) :
    analyzeAll a [drawsFrame] = [⟨[0], [6], drawsFrame.memoryUpdates⟩] := by
  have hdraw : ∀ a, SizedCommand a [0x80, 0, 0] := fun a =>
    ⟨by
      show 3 + 0 * vertexSize a.cpMem _ = 3
      rw [Nat.zero_mul], by decide, by decide, by decide⟩
  have hsized : Sized { a with drawingObject := false } [[0x80, 0, 0], [0x80, 0, 0]] :=
    ⟨hdraw _, hdraw _, trivial⟩
  unfold analyzeAll
  rw [analyzeFrame_of_sized (show drawsFrame.fifoData = List.flatten [_, _] from rfl) hsized]
  rfl

theorem draws_of : (⟨[0], [6], drawsFrame.memoryUpdates⟩ : AnalyzedFrameInfo).Of drawsFrame := by
  have hsize : ∀ frame ∈ [drawsFrame], frame.fifoData.length < 2 ^ 32 := by decide
  have hall := analyzeAll_of hsize
    ⟨⟨⟨0⟩, fun _ => ⟨0, 0, 0⟩, fun _ => 0, fun _ => 0⟩, false⟩
  rw [analyzeAll_draws] at hall
  exact (List.forall₂_cons.mp hall).1

/-- With its object drawn the frame is played as it should be. -/
theorem plays_draws : Plays false ⟨0, 0⟩ drawsFrame ⟨[0], [6], drawsFrame.memoryUpdates⟩ := by
  refine (plays_iff draws_of false ⟨0, 0⟩).mpr ⟨by decide, rfl, ?_, ?_⟩
  · intro u hu
    rw [List.mem_singleton.mp hu]
    exact ⟨3, by decide, by decide, by decide⟩
  · exact List.pairwise_singleton _ _

/-- With its object skipped the update in it is lost. -/
theorem update_lost : ¬ ∀ (a : Analyzer) (file : FifoDataFile) (range : ObjectRange),
    (∀ frame ∈ file.m_Frames, frame.fifoData.length < 2 ^ 32) →
    List.Forall₂ (Plays false range) file.m_Frames (AnalyzeFrames a file) := by
  intro h
  have hfile := h ⟨⟨⟨0⟩, fun _ => ⟨0, 0, 0⟩, fun _ => 0, fun _ => 0⟩, false⟩
    { FifoDataFile.new false with m_Frames := [drawsFrame] } ⟨1, 10000⟩ (by decide)
  unfold AnalyzeFrames at hfile
  rw [analyzeAll_draws, List.forall₂_cons] at hfile
  obtain ⟨-, events, hwrite, -, hperm, -⟩ := hfile.1
  have hparts : frameParts drawsFrame ⟨[0], [6], drawsFrame.memoryUpdates⟩ ⟨1, 10000⟩ =
      [(0, 0), (6, 6)] := rfl
  have hpart : ∀ position, WriteFramePart drawsFrame ⟨[0], [6], drawsFrame.memoryUpdates⟩
      position position 0 = some ([], 0) := fun position => by
    rw [WriteFramePart, if_neg (by omega), if_neg (by omega)]
  unfold WriteFrame at hwrite
  rw [hparts] at hwrite
  simp only [Bool.false_eq_true, if_false, writeParts, hpart, Option.bind_some, Option.map_some]
    at hwrite
  obtain rfl := Option.some.inj hwrite
  exact absurd hperm.length_eq (by decide)

end DolphinCore.FifoPlayer
