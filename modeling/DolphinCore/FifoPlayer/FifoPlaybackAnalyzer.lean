import Mathlib.Data.List.TakeWhile
import DolphinCore.FifoPlayer.FifoAnalyzer

/-!
# DolphinCore.FifoPlayer.FifoPlaybackAnalyzer

Before a recording is played its frames are walked, one command after another:
where objects (runs of draws) begin and end, and which updates of memory belong
before a command. Where a command is not known the analysis of the whole
recording ends.

A frame is less than 4 GiB, as the sizes in a file are; positions do not wrap.
-/

namespace DolphinCore.FifoPlayer

open GX

/-! ## the analysis -/

structure AnalyzedFrameInfo where
  objectStarts : List Nat
  objectEnds : List Nat
  memoryUpdates : List MemoryUpdate

def AnalyzedFrameInfo.empty : AnalyzedFrameInfo := ⟨[], [], []⟩

/-- The walk through a frame: where it is, and the updates that come later. -/
structure FrameWalk where
  analyzer : Analyzer
  cmdStart : Nat
  later : List MemoryUpdate
  analyzed : AnalyzedFrameInfo

namespace FrameWalk

/-- The update has occurred before this point. -/
def occurred (w : FrameWalk) (u : MemoryUpdate) : Bool := u.fifoPosition.toNat ≤ w.cmdStart

/-- Add memory updates that have occurred before this point in the frame. -/
def addUpdates (w : FrameWalk) : FrameWalk :=
  { w with
    later := w.later.dropWhile w.occurred
    analyzed := { w.analyzed with
      memoryUpdates := w.analyzed.memoryUpdates ++ w.later.takeWhile w.occurred } }

/-- An object begins or ends at this command. -/
def toggle (w : FrameWalk) (drawing : Bool) : AnalyzedFrameInfo :=
  if w.analyzer.drawingObject = drawing then w.analyzed
  else if drawing then
    { w.analyzed with objectStarts := w.analyzed.objectStarts ++ [w.cmdStart] }
  else { w.analyzed with objectEnds := w.analyzed.objectEnds ++ [w.cmdStart] }

/-- The walk goes past a command of `cmdSize` bytes. -/
def next (w : FrameWalk) (cmdSize : Nat) (analyzer : Analyzer) : FrameWalk :=
  { w with analyzer := analyzer, cmdStart := w.cmdStart + cmdSize,
           analyzed := w.toggle analyzer.drawingObject }

/-- One command; without a size the frame has no objects. -/
def command (w : FrameWalk) (cmd : Byte) (data : List Byte) :
    Except FrameWalk (DecodeStep FrameWalk Unit) :=
  let w := w.addUpdates
  let (cmdSize, analyzer) := AnalyzeCommand w.analyzer (cmd :: data)
  if cmdSize = 0 then
    .error { w with analyzer := analyzer,
                    analyzed := { w.analyzed with objectStarts := [], objectEnds := [] } }
  else .ok (.next (w.next cmdSize analyzer) (cmdSize - 1) [])

/-- The last object ends with the frame. -/
def finish (w : FrameWalk) : FrameWalk :=
  if w.analyzed.objectEnds.length < w.analyzed.objectStarts.length then
    { w with analyzed :=
        { w.analyzed with objectEnds := w.analyzed.objectEnds ++ [w.cmdStart] } }
  else w

/-- At the first byte of a frame. -/
def start (a : Analyzer) (frame : FifoFrameInfo) : FrameWalk :=
  ⟨{ a with drawingObject := false }, 0, frame.memoryUpdates, .empty⟩

end FrameWalk

/-- A frame: where the walk ended, or where it found an unknown command. -/
def analyzeFrame (a : Analyzer) (frame : FifoFrameInfo) : Except FrameWalk FrameWalk :=
  (decode FrameWalk.command (.start a frame) frame.fifoData).map fun r => r.state.finish

/-- Frame after frame, as far as the commands are known. -/
def analyzeAll (a : Analyzer) : List FifoFrameInfo → List AnalyzedFrameInfo
  | [] => []
  | frame :: frames =>
    match analyzeFrame a frame with
    | .error w => w.analyzed :: frames.map fun _ => .empty
    | .ok w => w.analyzed :: analyzeAll w.analyzer frames

/-- The registers that the analysis begins with. -/
def loadRegisters (cpMem : Fin CP_MEM_SIZE → BitVec 32) (a : Analyzer) : Analyzer :=
  let m := LoadCPReg 0x60 (cpMem 0x60) (LoadCPReg 0x50 (cpMem 0x50) a.cpMem)
  let m := (List.finRange 8).foldl (fun m (i : Fin 8) =>
    LoadCPReg (0x90 + BitVec.ofNat 8 i) (cpMem (Fin.ofNat 256 (0x90 + i)))
      (LoadCPReg (0x80 + BitVec.ofNat 8 i) (cpMem (Fin.ofNat 256 (0x80 + i)))
        (LoadCPReg (0x70 + BitVec.ofNat 8 i) (cpMem (Fin.ofNat 256 (0x70 + i))) m))) m
  { a with cpMem := m }

def AnalyzeFrames (a : Analyzer) (file : FifoDataFile) : List AnalyzedFrameInfo :=
  analyzeAll (loadRegisters file.m_CPMem a) file.m_Frames

/-! ## frames made of commands -/

/-- The analyzer, whose registers these are, finds the size of the command, and needs only the
command for it. -/
structure SizedCommand (a : Analyzer) (c : List Byte) : Prop where
  size : (AnalyzeCommand a c).1 = c.length
  nonempty : c ≠ []
  known : Known (c.headD 0)
  operands : operandSize (c.headD 0) + 1 ≤ c.length

/-- The analyzer after some commands. -/
def analyzerAfter (a : Analyzer) (cs : List (List Byte)) : Analyzer :=
  cs.foldl (fun a c => (AnalyzeCommand a c).2) a

/-- The analyzer finds the size of each command. -/
def Sized : Analyzer → List (List Byte) → Prop
  | _, [] => True
  | a, c :: cs => SizedCommand a c ∧ Sized (AnalyzeCommand a c).2 cs

theorem analyzerAfter_append (a : Analyzer) (cs ds : List (List Byte)) :
    analyzerAfter a (cs ++ ds) = analyzerAfter (analyzerAfter a cs) ds :=
  List.foldl_append

variable {a : Analyzer} {c : List Byte} {cs : List (List Byte)} {w : FrameWalk}

theorem Sized.append {cs ds : List (List Byte)} :
    Sized a (cs ++ ds) ↔ Sized a cs ∧ Sized (analyzerAfter a cs) ds := by
  induction cs generalizing a with
  | nil => exact ⟨fun h => ⟨trivial, h⟩, And.right⟩
  | cons c cs ih =>
    show (_ ∧ Sized _ (cs ++ ds)) ↔ (_ ∧ _) ∧ _
    rw [ih, and_assoc]
    rfl

/-- The two have the same descriptor and formats. -/
def SameFormats (a a' : Analyzer) : Prop :=
  a.cpMem.vtxDesc = a'.cpMem.vtxDesc ∧ a.cpMem.vtxAttr = a'.cpMem.vtxAttr

theorem SameFormats.loadCPReg {m m' : CPMemory} (hdesc : m.vtxDesc = m'.vtxDesc)
    (hattr : m.vtxAttr = m'.vtxAttr) (subCmd : BitVec 8) (value : BitVec 32) :
    (LoadCPReg subCmd value m).vtxDesc = (LoadCPReg subCmd value m').vtxDesc ∧
      (LoadCPReg subCmd value m).vtxAttr = (LoadCPReg subCmd value m').vtxAttr := by
  have hset : ∀ group f, (m.setAttr group f).vtxDesc = (m'.setAttr group f).vtxDesc ∧
      (m.setAttr group f).vtxAttr = (m'.setAttr group f).vtxAttr := by
    intro group f
    unfold CPMemory.setAttr
    rw [hattr]
    exact ⟨hdesc, rfl⟩
  unfold LoadCPReg
  split
  · exact ⟨congrArg TVtxDesc.mk (by rw [hdesc]), hattr⟩
  · exact ⟨congrArg TVtxDesc.mk (by rw [hdesc]), hattr⟩
  · exact hset _ _
  · exact hset _ _
  · exact hset _ _
  · exact ⟨hdesc, hattr⟩
  · exact ⟨hdesc, hattr⟩
  · exact ⟨hdesc, hattr⟩

theorem SameFormats.analyze {a a' : Analyzer} (h : SameFormats a a') (c : List Byte) :
    (AnalyzeCommand a c).1 = (AnalyzeCommand a' c).1 ∧
      SameFormats (AnalyzeCommand a c).2 (AnalyzeCommand a' c).2 := by
  cases c with
  | nil => exact ⟨rfl, h⟩
  | cons cmd data =>
    have hvertex : ∀ group, vertexSize a.cpMem group = vertexSize a'.cpMem group := by
      intro group
      unfold vertexSize elementSizes
      rw [h.1, h.2]
    show (analyzeOpcode a cmd data).1 = (analyzeOpcode a' cmd data).1 ∧
      SameFormats (analyzeOpcode a cmd data).2 (analyzeOpcode a' cmd data).2
    have hkeep : ∀ (n : Nat) (b b' : Bool), n = n ∧
        SameFormats { a with drawingObject := b } { a' with drawingObject := b' } :=
      fun _ _ _ => ⟨rfl, h⟩
    unfold analyzeOpcode
    split
    · exact hkeep _ _ _
    · exact hkeep _ _ _
    · exact hkeep _ _ _
    · exact ⟨rfl, SameFormats.loadCPReg h.1 h.2 _ _⟩
    · exact hkeep _ _ _
    · exact hkeep _ _ _
    · exact hkeep _ _ _
    · exact hkeep _ _ _
    · exact hkeep _ _ _
    · exact hkeep _ _ _
    · exact hkeep _ _ _
    · split
      · exact ⟨by rw [hvertex], h⟩
      · exact ⟨rfl, h⟩

theorem SameFormats.sizedCommand {a a' : Analyzer} (h : SameFormats a a') (hc : SizedCommand a c) :
    SizedCommand a' c :=
  ⟨(h.analyze c).1.symm.trans hc.size, hc.nonempty, hc.known, hc.operands⟩

theorem SameFormats.sized {a a' : Analyzer} (h : SameFormats a a') (hcs : Sized a cs) :
    Sized a' cs := by
  induction cs generalizing a a' with
  | nil => trivial
  | cons c cs ih => exact ⟨h.sizedCommand hcs.1, ih (h.analyze c).2 hcs.2⟩

theorem SameFormats.after {a a' : Analyzer} (h : SameFormats a a') (cs : List (List Byte)) :
    SameFormats (analyzerAfter a cs) (analyzerAfter a' cs) := by
  induction cs generalizing a a' with
  | nil => exact h
  | cons c cs ih => exact ih (h.analyze c).2

theorem SizedCommand.append (h : SizedCommand a c) (more : List Byte) :
    AnalyzeCommand a (c ++ more) = AnalyzeCommand a c := by
  cases c with
  | nil => exact absurd rfl h.nonempty
  | cons cmd data => exact AnalyzeCommand_append a h.known (Nat.le_of_succ_le_succ h.operands) more

namespace FrameWalk

/-- The walk goes past a command of known size. -/
def advance (w : FrameWalk) (c : List Byte) : FrameWalk :=
  w.addUpdates.next c.length (AnalyzeCommand w.analyzer c).2

theorem command_of_sized {cmd : Byte} {data : List Byte} (h : SizedCommand w.analyzer (cmd :: data))
    (more : List Byte) :
    w.command cmd (data ++ more) = .ok (.next (w.advance (cmd :: data)) data.length []) := by
  have happ : AnalyzeCommand w.addUpdates.analyzer (cmd :: (data ++ more)) =
      AnalyzeCommand w.analyzer (cmd :: data) := h.append more
  unfold command advance
  simp only [happ, h.size, List.length_cons]
  rfl

theorem foldl_advance_analyzer (w : FrameWalk) (cs : List (List Byte)) :
    (cs.foldl advance w).analyzer = analyzerAfter w.analyzer cs := by
  induction cs generalizing w with
  | nil => rfl
  | cons c cs ih => exact ih (w.advance c)

theorem foldl_advance_cmdStart (w : FrameWalk) (cs : List (List Byte)) :
    (cs.foldl advance w).cmdStart = w.cmdStart + cs.flatten.length := by
  induction cs generalizing w with
  | nil => rfl
  | cons c cs ih =>
    rw [List.foldl_cons, ih, List.flatten_cons, List.length_append, ← Nat.add_assoc]
    rfl

/-- **The walk through a frame** made of commands of known size goes from command to command. -/
theorem decode_of_sized (h : Sized w.analyzer cs) :
    decode command w cs.flatten = .ok ⟨cs.foldl advance w, [], []⟩ := by
  induction cs generalizing w with
  | nil => exact decode_nil
  | cons c cs ih =>
    obtain ⟨hc, hcs⟩ := h
    cases c with
    | nil => exact absurd rfl hc.nonempty
    | cons cmd data =>
      rw [List.flatten_cons, List.cons_append, decode_of_next (command_of_sized hc cs.flatten),
        List.drop_left, ih (w := w.advance (cmd :: data)) hcs]
      rfl

end FrameWalk

theorem analyzeFrame_of_sized {frame : FifoFrameInfo} (hdata : frame.fifoData = cs.flatten)
    (h : Sized { a with drawingObject := false } cs) :
    analyzeFrame a frame = .ok (cs.foldl FrameWalk.advance (.start a frame)).finish := by
  have hd := FrameWalk.decode_of_sized (w := .start a frame) h
  unfold analyzeFrame
  rw [hdata, hd]
  rfl

/-! ## objects -/

/-- The first of one list, the first of the other one, and so on. -/
def interleave : List Nat → List Nat → List Nat
  | [], _ => []
  | s :: starts, ends => s :: interleave ends starts
termination_by starts ends => starts.length + ends.length
decreasing_by
  simp only [List.length_cons]
  omega

theorem interleave_append (starts ends : List Nat) (x : Nat) : (starts.length = ends.length →
      interleave (starts ++ [x]) ends = interleave starts ends ++ [x]) ∧
    (starts.length = ends.length + 1 →
      interleave starts (ends ++ [x]) = interleave starts ends ++ [x]) := by
  induction starts, ends using interleave.induct with
  | case1 ends =>
    refine ⟨fun h => ?_, fun h => absurd h (Nat.succ_ne_zero _).symm⟩
    rw [List.length_eq_zero_iff.mp h.symm, List.nil_append, interleave, interleave,
      List.nil_append, interleave]
  | case2 s starts ends ih =>
    refine ⟨fun h => ?_, fun h => ?_⟩
    · rw [List.cons_append, interleave, interleave, ih.2 h.symm]
      rfl
    · rw [interleave, interleave, ih.1 (Nat.succ.inj h).symm]
      rfl

theorem mem_interleave {starts ends : List Nat} {x : Nat}
    (hlen : starts.length = ends.length ∨ starts.length = ends.length + 1)
    (h : x ∈ starts ∨ x ∈ ends) : x ∈ interleave starts ends := by
  induction starts, ends using interleave.induct with
  | case1 ends =>
    have hends : ends = [] := List.length_eq_zero_iff.mp (by
      rw [List.length_nil] at hlen
      omega)
    rw [hends] at h
    rcases h with h | h <;> cases h
  | case2 s starts ends ih =>
    rw [interleave, List.mem_cons]
    rw [List.length_cons] at hlen
    rcases h with h | h
    · rcases List.mem_cons.mp h with rfl | h
      · exact .inl rfl
      · exact .inr (ih (by omega) (.inr h))
    · exact .inr (ih (by omega) (.inl h))

/-- The objects of a frame of this size are disjoint and in increasing order. -/
structure AnalyzedFrameInfo.Objects (info : AnalyzedFrameInfo) (size : Nat) : Prop where
  length_eq : info.objectStarts.length = info.objectEnds.length
  increasing : (interleave info.objectStarts info.objectEnds).Pairwise (· < ·)
  within : ∀ t ∈ interleave info.objectStarts info.objectEnds, t ≤ size

namespace FrameWalk

/-- The objects found so far; while one is drawn it has no end. -/
structure Ok (w : FrameWalk) : Prop where
  length_eq : w.analyzed.objectStarts.length =
    w.analyzed.objectEnds.length + if w.analyzer.drawingObject then 1 else 0
  increasing : (interleave w.analyzed.objectStarts w.analyzed.objectEnds).Pairwise (· < ·)
  before : ∀ t ∈ interleave w.analyzed.objectStarts w.analyzed.objectEnds, t < w.cmdStart

theorem ok_start (a : Analyzer) (frame : FifoFrameInfo) : (start a frame).Ok := by
  have hnil : interleave [] [] = [] := by rw [interleave]
  refine ⟨rfl, ?_, ?_⟩
  · show (interleave [] []).Pairwise (· < ·)
    rw [hnil]
    exact .nil
  · show ∀ t ∈ interleave [] [], _
    rw [hnil]
    exact nofun

theorem increasing_append {ts : List Nat} {x : Nat} (h : ts.Pairwise (· < ·))
    (hlt : ∀ t ∈ ts, t < x) : (ts ++ [x]).Pairwise (· < ·) :=
  List.pairwise_append.mpr ⟨h, List.pairwise_singleton _ _, fun t ht y hy => by
    rw [List.mem_singleton.mp hy]
    exact hlt t ht⟩

theorem Ok.next (h : w.Ok) {cmdSize : Nat} (hpos : 0 < cmdSize) (a' : Analyzer) :
    (w.addUpdates.next cmdSize a').Ok := by
  have hmore : ∀ {ts : List Nat}, (∀ t ∈ ts, t < w.cmdStart) → ∀ t ∈ ts ++ [w.cmdStart],
      t < w.cmdStart + cmdSize := by
    intro ts hts t ht
    rcases List.mem_append.mp ht with ht | ht
    · exact Nat.lt_add_right _ (hts t ht)
    · rw [List.mem_singleton.mp ht]
      omega
  obtain ⟨heq, hinc, hbefore⟩ := h
  unfold FrameWalk.next toggle
  have hsame : w.addUpdates.analyzer = w.analyzer := rfl
  have hstarts : w.addUpdates.analyzed.objectStarts = w.analyzed.objectStarts := rfl
  have hends : w.addUpdates.analyzed.objectEnds = w.analyzed.objectEnds := rfl
  have hstart : w.addUpdates.cmdStart = w.cmdStart := rfl
  simp only [hsame, hstart]
  split
  · next hd => exact ⟨hd ▸ heq, hinc, fun t ht => Nat.lt_add_right _ (hbefore t ht)⟩
  · next hd =>
    split
    · next hdraw =>
      -- a draw begins an object
      have hw : w.analyzer.drawingObject = false := by
        rw [hdraw] at hd
        exact Bool.eq_false_iff.mpr hd
      have hlens : w.analyzed.objectStarts.length = w.analyzed.objectEnds.length := by
        simpa [hw] using heq
      have happ := (interleave_append _ _ w.cmdStart).1 hlens
      refine ⟨?_, ?_, ?_⟩
      · simp [hstarts, hends, hdraw, hlens]
      · rw [hstarts, hends, happ]
        exact increasing_append hinc hbefore
      · rw [hstarts, hends, happ]
        exact hmore hbefore
    · next hdraw =>
      -- another command ends it
      have hw : w.analyzer.drawingObject = true := by
        rw [Bool.not_eq_true] at hdraw
        rw [hdraw] at hd
        simpa using hd
      have hlens : w.analyzed.objectStarts.length = w.analyzed.objectEnds.length + 1 := by
        simpa [hw] using heq
      have happ := (interleave_append _ _ w.cmdStart).2 hlens
      refine ⟨?_, ?_, ?_⟩
      · simp [hstarts, hends, hdraw, hlens]
      · rw [hstarts, hends, happ]
        exact increasing_append hinc hbefore
      · rw [hstarts, hends, happ]
        exact hmore hbefore

theorem Ok.advance (h : w.Ok) (hc : c ≠ []) : (w.advance c).Ok :=
  h.next (List.length_pos_of_ne_nil hc) _

theorem Ok.foldl_advance (h : w.Ok) (hcs : ∀ c ∈ cs, c ≠ []) :
    (cs.foldl FrameWalk.advance w).Ok := by
  induction cs generalizing w with
  | nil => exact h
  | cons c cs ih =>
    exact ih (h.advance (hcs c (List.mem_cons_self ..))) fun d hd =>
      hcs d (List.mem_cons_of_mem _ hd)

theorem Ok.finish (h : w.Ok) : w.finish.analyzed.Objects w.cmdStart := by
  obtain ⟨heq, hinc, hbefore⟩ := h
  unfold FrameWalk.finish
  split
  · next hlt =>
    have hlens : w.analyzed.objectStarts.length = w.analyzed.objectEnds.length + 1 := by
      split at heq <;> omega
    have happ := (interleave_append _ _ w.cmdStart).2 hlens
    refine ⟨by simp [hlens], ?_, ?_⟩
    · rw [happ]
      exact increasing_append hinc hbefore
    · rw [happ]
      intro t ht
      rcases List.mem_append.mp ht with ht | ht
      · exact Nat.le_of_lt (hbefore t ht)
      · rw [List.mem_singleton.mp ht]
  · next hge =>
    exact ⟨by split at heq <;> omega, hinc, fun t ht => Nat.le_of_lt (hbefore t ht)⟩

end FrameWalk

/-! ## updates -/

namespace FrameWalk

theorem addUpdates_all (w : FrameWalk) : w.addUpdates.analyzed.memoryUpdates ++ w.addUpdates.later =
      w.analyzed.memoryUpdates ++ w.later := by
  unfold addUpdates
  rw [List.append_assoc, List.takeWhile_append_dropWhile]

theorem advance_memoryUpdates (w : FrameWalk) (c : List Byte) :
    (w.advance c).analyzed.memoryUpdates = w.addUpdates.analyzed.memoryUpdates ∧
      (w.advance c).later = w.addUpdates.later := by
  refine ⟨?_, rfl⟩
  unfold advance next toggle
  split
  · rfl
  · split <;> rfl

theorem foldl_advance_all (w : FrameWalk) (cs : List (List Byte)) :
    (cs.foldl advance w).analyzed.memoryUpdates ++ (cs.foldl advance w).later =
      w.analyzed.memoryUpdates ++ w.later := by
  induction cs generalizing w with
  | nil => rfl
  | cons c cs ih =>
    obtain ⟨hupd, hlater⟩ := w.advance_memoryUpdates c
    rw [List.foldl_cons, ih, hupd, hlater, addUpdates_all]

theorem finish_memoryUpdates (w : FrameWalk) :
    w.finish.analyzed.memoryUpdates = w.analyzed.memoryUpdates := by
  unfold finish
  split <;> rfl

theorem finish_analyzer (w : FrameWalk) : w.finish.analyzer = w.analyzer := by
  unfold finish
  split <;> rfl

theorem finish_cmdStart (w : FrameWalk) : w.finish.cmdStart = w.cmdStart := by
  unfold finish
  split <;> rfl

theorem mem_later {u : MemoryUpdate} (h : u ∈ (cs.foldl advance w).later) : u ∈ w.later := by
  induction cs generalizing w with
  | nil => exact h
  | cons c cs ih => exact (List.dropWhile_sublist _).subset (ih (w := w.advance c) h)

theorem foldl_advance_memoryUpdates
    (h : ∀ u ∈ w.later, u.fifoPosition.toNat ≤ w.cmdStart + cs.flatten.length) :
    ((cs ++ [c]).foldl advance w).analyzed.memoryUpdates = w.analyzed.memoryUpdates ++ w.later := by
  have hall := foldl_advance_all w cs
  have hstart := foldl_advance_cmdStart w cs
  have hmem : ∀ u ∈ (cs.foldl advance w).later, u ∈ w.later := fun u hu => mem_later hu
  rw [List.foldl_append]
  generalize cs.foldl advance w = w' at hall hstart hmem
  have hlast : ∀ u ∈ w'.later, w'.occurred u = true := by
    intro u hu
    unfold occurred
    rw [hstart]
    exact decide_eq_true (h u (hmem u hu))
  rw [← hall]
  show (w'.advance c).analyzed.memoryUpdates = _
  rw [(w'.advance_memoryUpdates c).1]
  show _ ++ w'.later.takeWhile w'.occurred = _
  rw [List.takeWhile_eq_self_iff.mpr hlast]

end FrameWalk

/-! ## all frames -/

/-- The analysis walks each frame from its first to its last byte, and finds objects that are
disjoint and in increasing order. -/
def Walked (a : Analyzer) : List FifoFrameInfo → Prop
  | [] => True
  | frame :: frames => ∃ w, analyzeFrame a frame = .ok w ∧ w.cmdStart = frame.fifoData.length ∧
      w.analyzed.Objects frame.fifoData.length ∧ Walked w.analyzer frames

theorem Sized.nonempty (h : Sized a cs) : ∀ c ∈ cs, c ≠ [] := by
  induction cs generalizing a with
  | nil => exact nofun
  | cons c cs ih =>
    intro d hd
    rcases List.mem_cons.mp hd with rfl | hd
    · exact h.1.nonempty
    · exact ih h.2 d hd

theorem walked_of_sized {frames : List FifoFrameInfo} {css : List (List (List Byte))}
    (hdata : List.Forall₂ (fun frame cs => frame.fifoData = cs.flatten) frames css)
    (h : Sized a css.flatten) : Walked a frames := by
  induction hdata generalizing a with
  | nil => trivial
  | @cons frame cs frames css hframe _ ih =>
    rw [List.flatten_cons, Sized.append] at h
    have hsame : SameFormats a { a with drawingObject := false } := ⟨rfl, rfl⟩
    have hok := (FrameWalk.ok_start a frame).foldl_advance h.1.nonempty
    have hstart := FrameWalk.foldl_advance_cmdStart (.start a frame) cs
    have hafter := FrameWalk.foldl_advance_analyzer (.start a frame) cs
    have hlen : (cs.foldl FrameWalk.advance (.start a frame)).cmdStart = frame.fifoData.length := by
      rw [hstart, hframe]
      exact Nat.zero_add _
    refine ⟨_, analyzeFrame_of_sized hframe (hsame.sized h.1), ?_, hlen ▸ hok.finish, ih ?_⟩
    · rw [FrameWalk.finish_cmdStart, hlen]
    · rw [FrameWalk.finish_analyzer, hafter]
      exact (hsame.after cs).sized h.2

theorem Walked.analyzeAll {frames : List FifoFrameInfo} (h : Walked a frames) :
    List.Forall₂ (fun (frame : FifoFrameInfo) (info : AnalyzedFrameInfo) =>
      info.Objects frame.fifoData.length) frames (analyzeAll a frames) := by
  induction frames generalizing a with
  | nil => exact .nil
  | cons frame frames ih =>
    obtain ⟨w, hw, -, hobjects, hrest⟩ := h
    rw [FifoPlayer.analyzeAll, hw]
    exact .cons hobjects (ih hrest)

end DolphinCore.FifoPlayer
