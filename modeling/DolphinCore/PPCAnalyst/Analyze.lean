import DolphinCore.PPCAnalyst.Tables

/-!
# DolphinCore.PPCAnalyst.Analyze

`PPCAnalyzer::Analyze`: the instructions of a block are collected along the branches that can be
followed, some of them are moved next to each other, and the flags that later instructions want
are found by a scan from the end.
-/

namespace DolphinCore.PPCAnalyst

open PPCTables

/-- The options, and the debugger. -/
structure PPCAnalyzer where
  OPTION_CONDITIONAL_CONTINUE : Bool
  OPTION_BRANCH_FOLLOW : Bool
  OPTION_BRANCH_MERGE : Bool
  OPTION_CARRY_MERGE : Bool
  OPTION_CROR_MERGE : Bool
  /-- `bEnableDebugging` and `IsAddressBreakPoint` -/
  isAddressBreakPoint : BitVec 32 → Bool

/-- A set of registers. -/
abbrev BitSet32 := BitVec 32

/-- A set with one more register. -/
def BitSet32.insert (s : BitSet32) (r : Nat) : BitSet32 := s ||| 1#32 <<< r

structure CodeOp where
  inst : UGeckoInstruction
  opinfo : GekkoOPInfo
  address : BitVec 32
  regsOut : BitSet32
  regsIn : BitSet32
  wantsCR0 : Bool
  wantsCR1 : Bool
  wantsFPRF : Bool
  wantsCA : Bool
  wantsCAInFlags : Bool
  outputCR0 : Bool
  outputCR1 : Bool
  outputFPRF : Bool
  outputCA : Bool
  canEndBlock : Bool
  skipLRStack : Bool
  skip : Bool

/-! ## one instruction -/

def SPR_XER : Nat := 1

def SPR_LR : Nat := 8

def isMfspr (inst : UGeckoInstruction) : Bool := inst.OPCD = 31 && inst.SUBOP10 = 339

def isMtspr (inst : UGeckoInstruction) : Bool := inst.OPCD = 31 && inst.SUBOP10 = 467

/-- The registers from one up to the last. -/
def insertFrom (s : BitSet32) (r : Nat) : BitSet32 :=
  (List.range' r (32 - r)).foldl BitSet32.insert s

def regsOut (inst : UGeckoInstruction) (opinfo : GekkoOPInfo) : BitSet32 :=
  let regs : BitSet32 := 0
  let regs := if has opinfo.flags FL_OUT_A then regs.insert inst.RA else regs
  let regs := if has opinfo.flags FL_OUT_D then regs.insert inst.RD else regs
  if inst.OPCD = 46 then insertFrom regs inst.RD else regs

def regsIn (inst : UGeckoInstruction) (opinfo : GekkoOPInfo) : BitSet32 :=
  let regs : BitSet32 := 0
  let regs :=
    if has opinfo.flags FL_IN_A || has opinfo.flags FL_IN_A0 && inst.RA ≠ 0 then
      regs.insert inst.RA
    else regs
  let regs := if has opinfo.flags FL_IN_B then regs.insert inst.RB else regs
  let regs := if has opinfo.flags FL_IN_C then regs.insert inst.RC else regs
  let regs := if has opinfo.flags FL_IN_S then regs.insert inst.RS else regs
  if inst.OPCD = 47 then insertFrom regs inst.RS else regs

/-- `blr`, for the analysis, eats the flags. -/
def isBlr (inst : UGeckoInstruction) (opinfo : GekkoOPInfo) : Bool :=
  opinfo.type = .Branch && inst = 0x4e800020#32

/-- Whether a field of the condition register is written. -/
def outputCR (inst : UGeckoInstruction) (opinfo : GekkoOPInfo) (rc set : Flags) (crfd : Nat) :
    Bool :=
  if has opinfo.flags rc then inst.Rc
  else if has opinfo.flags FL_SET_CRn && inst.CRFD = crfd then true
  else has opinfo.flags set

/-- `SetInstructionStats`, of an instruction at an address -/
def setInstructionStats (analyzer : PPCAnalyzer) (inst : UGeckoInstruction) (address : BitVec 32) :
    CodeOp :=
  let opinfo := getOpInfo inst
  let wantsCA := has opinfo.flags FL_READ_CA
  let outputCA := has opinfo.flags FL_SET_CA
  { inst := inst
    opinfo := opinfo
    address := address
    regsOut := regsOut inst opinfo
    regsIn := regsIn inst opinfo
    wantsCR0 := false
    wantsCR1 := false
    wantsFPRF := has opinfo.flags FL_READ_FPRF
    wantsCA := if isMfspr inst then inst.spr = SPR_XER else wantsCA
    wantsCAInFlags :=
      analyzer.OPTION_CARRY_MERGE && (wantsCA && outputCA && opinfo.type = .Integer)
    outputCR0 := isBlr inst opinfo || outputCR inst opinfo FL_RC_BIT FL_SET_CR0 0
    outputCR1 := isBlr inst opinfo || outputCR inst opinfo FL_RC_BIT_F FL_SET_CR1 1
    outputFPRF := has opinfo.flags FL_SET_FPRF
    outputCA := if isMtspr inst then inst.spr = SPR_XER else outputCA
    canEndBlock := has opinfo.flags FL_ENDBLOCK
    skipLRStack := false
    skip := false }

/-! ## collecting -/

def BRANCH_FOLLOWING_THRESHOLD : Nat := 2

/-- `BO_DONT_DECREMENT_FLAG` and `BO_DONT_CHECK_CONDITION` are both set. -/
def isUnconditional (inst : UGeckoInstruction) : Bool :=
  inst.BO.testBit 2 && inst.BO.testBit 4

/-- `SignExt26(LI << 2)`, from an address or not -/
def bxDestination (inst : UGeckoInstruction) (address : BitVec 32) : BitVec 32 :=
  (inst.LI ++ 0#2).signExtend 32 + if inst.AA then 0 else address

/-- `SignExt16(BD << 2)`, from an address or not -/
def bcxDestination (inst : UGeckoInstruction) (address : BitVec 32) : BitVec 32 :=
  (inst.BD ++ 0#2).signExtend 32 + if inst.AA then 0 else address

/-- The variables of the loop that collects; the number of the instruction is the number of
those before it. -/
structure Collecting where
  address : BitVec 32
  code : List CodeOp
  found_exit : Bool
  found_call : Bool
  caller : Nat
  numFollows : Nat
  memory_exception : Bool

/-- Where a branch that is followed leads, and what is known of the last call then. -/
structure Following where
  destination : Option (BitVec 32)
  found_call : Bool
  caller : Nat
  skip : Bool

/-- The branch of the last instruction, if it is one.  The test of the destination of `bx` is made
before the destination is known, and compares 0. -/
def followBranch (block_address : BitVec 32) (blockSize : Nat) (s : Collecting)
    (inst : UGeckoInstruction) : Following :=
  let i := s.code.length
  let stay : Following := ⟨none, s.found_call, s.caller, false⟩
  if inst.OPCD = 18 && 1 < blockSize then
    let destination := bxDestination inst s.address
    { destination := if 0 ≠ block_address then some destination else none
      found_call := inst.LK || s.found_call
      caller := if inst.LK then i else s.caller
      skip := false }
  else if inst.OPCD = 16 && isUnconditional inst && 1 < blockSize then
    { destination := some (bcxDestination inst s.address)
      found_call := inst.LK || s.found_call
      caller := if inst.LK then i else s.caller
      skip := false }
  else if inst.OPCD = 19 && inst.SUBOP10 = 16 && !inst.LK && s.found_call &&
      isUnconditional inst then
    { destination := s.code[s.caller]?.map fun op => op.address + 4
      found_call := false
      caller := s.caller
      skip := true }
  else if isMtspr inst && inst.spr = SPR_LR then { stay with found_call := false }
  else stay

/-- A branch or a trap that the block goes on behind. -/
def isConditional (inst : UGeckoInstruction) : Bool :=
  inst.OPCD = 16 && !isUnconditional inst ||
  inst.OPCD = 19 && inst.SUBOP10 = 16 && !isUnconditional inst ||
  (inst.OPCD = 3 || inst.OPCD = 31 && inst.SUBOP10 = 4) ||
  inst.OPCD = 19 && inst.SUBOP10 = 528 && !inst.BO.testBit 4

/-- Whether branches are still followed. -/
def Collecting.mayFollow (analyzer : PPCAnalyzer) (s : Collecting) : Bool :=
  analyzer.OPTION_BRANCH_FOLLOW && s.numFollows < BRANCH_FOLLOWING_THRESHOLD

/-- The branch of an instruction, if branches are still followed. -/
def followed (analyzer : PPCAnalyzer) (block_address : BitVec 32) (blockSize : Nat)
    (s : Collecting) (inst : UGeckoInstruction) : Following :=
  if s.mayFollow analyzer then followBranch block_address blockSize s inst
  else ⟨none, s.found_call, s.caller, false⟩

/-- The code with one more instruction; a return that is skipped marks its call. -/
def appendOp (analyzer : PPCAnalyzer) (s : Collecting) (inst : UGeckoInstruction)
    (following : Following) : List CodeOp :=
  let op := setInstructionStats analyzer inst s.address
  let before :=
    if following.skip then
      s.code.modify following.caller fun op => { op with skipLRStack := true }
    else s.code
  before ++ [{ op with skip := following.skip }]

/-- One instruction is collected; the second component says whether the loop goes on. -/
def collectOne (analyzer : PPCAnalyzer) (block_address : BitVec 32) (blockSize : Nat)
    (s : Collecting) (inst : UGeckoInstruction) : Collecting × Bool :=
  let following := followed analyzer block_address blockSize s inst
  let conditional_continue := analyzer.OPTION_CONDITIONAL_CONTINUE && isConditional inst
  let s : Collecting :=
    { s with
      code := appendOp analyzer s inst following
      found_call := following.found_call
      caller := following.caller }
  match following.destination with
  | some destination =>
    ({ s with address := destination, numFollows := s.numFollows + 1 }, true)
  | none =>
    let s := { s with address := s.address + 4 }
    if !conditional_continue && has (getOpInfo inst).flags FL_ENDBLOCK then
      ({ s with found_exit := true }, false)
    else if conditional_continue then ({ s with found_call := false }, true)
    else (s, true)

/-- The loop that collects, for as many instructions. -/
def collect (tryReadInstruction : BitVec 32 → Option UGeckoInstruction) (analyzer : PPCAnalyzer)
    (block_address : BitVec 32) (blockSize : Nat) : Nat → Collecting → Collecting
  | 0, s => s
  | n + 1, s =>
    match tryReadInstruction s.address with
    | none => { s with memory_exception := s.code.isEmpty }
    | some inst =>
      let (s, more) := collectOne analyzer block_address blockSize s inst
      if more then collect tryReadInstruction analyzer block_address blockSize n s else s

/-- The variables of the loop at its start. -/
def Collecting.init (address : BitVec 32) : Collecting where
  address := address
  code := []
  found_exit := false
  found_call := false
  caller := 0
  numFollows := 0
  memory_exception := false

/-! ## reordering -/

inductive ReorderType
  | REORDER_CARRY
  | REORDER_CMP
  | REORDER_CROR
deriving DecidableEq

def isCmp (a : CodeOp) : Bool :=
  (a.inst.OPCD = 10 || a.inst.OPCD = 11) ||
    a.inst.OPCD = 31 && (a.inst.SUBOP10 = 0 || a.inst.SUBOP10 = 32)

def isCarryOp (a : CodeOp) : Bool :=
  has a.opinfo.flags FL_SET_CA && !has a.opinfo.flags FL_SET_OE && a.opinfo.type = .Integer

def isCror (a : CodeOp) : Bool := a.inst.OPCD = 19 && a.inst.SUBOP10 = 449

def canSwapAdjacentOps (analyzer : PPCAnalyzer) (a b : CodeOp) : Bool :=
  let a_flags := a.opinfo.flags
  let b_flags := b.opinfo.flags
  if analyzer.isAddressBreakPoint a.address || analyzer.isAddressBreakPoint b.address then false
  else if has b_flags (FL_SET_CRx ||| FL_ENDBLOCK ||| FL_TIMER ||| FL_EVIL ||| FL_SET_OE) then false
  else if has b_flags (FL_RC_BIT ||| FL_RC_BIT_F) && b.inst.Rc then false
  else if has a_flags (FL_SET_CA ||| FL_READ_CA) && has b_flags (FL_SET_CA ||| FL_READ_CA) then
    false
  else if b.inst.OPCD = 16 || b.inst.OPCD = 18 || b.inst.OPCD = 17 || b.inst.OPCD = 46 ||
      b.inst.OPCD = 19 then false
  else if b.opinfo.type ≠ .Integer then false
  else if a.opinfo.type ≠ .Integer then false
  else if b.regsOut &&& a.regsIn ≠ 0 then false
  else if a.regsOut &&& b.regsIn ≠ 0 then false
  else if b.regsOut &&& a.regsOut ≠ 0 then false
  else true

/-- An instruction of the kind that is moved. -/
def isMoved (type : ReorderType) (a : CodeOp) : Bool :=
  type = .REORDER_CROR && isCror a || type = .REORDER_CARRY && isCarryOp a ||
    type = .REORDER_CMP && (isCmp a || a.outputCR0)

/-- A carry instruction that the one before, in the direction of the pass, is next to. -/
def staysNext (reverse : Bool) (type : ReorderType) (before : Option CodeOp) (a : CodeOp) : Bool :=
  match before with
  | none => false
  | some before =>
    type = .REORDER_CARRY &&
      (!reverse && has a.opinfo.flags FL_READ_CA && has before.opinfo.flags FL_SET_CA ||
        reverse && has a.opinfo.flags FL_SET_CA && has before.opinfo.flags FL_READ_CA)

/-- One pass over the instructions behind `a`, in the direction of the pass; the flag says whether
any were swapped. -/
def reorderPass (analyzer : PPCAnalyzer) (reverse : Bool) (type : ReorderType) :
    Option CodeOp → CodeOp → List CodeOp → List CodeOp × Bool
  | _, a, [] => ([a], false)
  | before, a, b :: code =>
    if isMoved type a && !staysNext reverse type before a && canSwapAdjacentOps analyzer a b then
      (b :: (reorderPass analyzer reverse type (some b) a code).1, true)
    else
      let (code, swapped) := reorderPass analyzer reverse type (some a) b code
      (a :: code, swapped)

/-- Passes until one swaps nothing, if there are so many at most. -/
def reorderPasses (analyzer : PPCAnalyzer) (reverse : Bool) (type : ReorderType) :
    Nat → List CodeOp → Option (List CodeOp)
  | 0, _ => none
  | _ + 1, [] => some []
  | n + 1, a :: code =>
    let (code, swapped) := reorderPass analyzer reverse type none a code
    if swapped then reorderPasses analyzer reverse type n code else some code

/-- `ReorderInstructionsCore`; a reverse pass is a pass over the reversed list.  More passes than
there are pairs are not needed. -/
def reorderInstructionsCore (analyzer : PPCAnalyzer) (reverse : Bool) (type : ReorderType)
    (code : List CodeOp) : Option (List CodeOp) :=
  let enough := code.length * code.length + 1
  if reverse then
    (reorderPasses analyzer reverse type enough code.reverse).map List.reverse
  else reorderPasses analyzer reverse type enough code

/-- What is done to the instructions if an option is set. -/
def withOption (option : Bool) (f : List CodeOp → Option (List CodeOp)) (code : List CodeOp) :
    Option (List CodeOp) :=
  if option then f code else some code

def reorderInstructions (analyzer : PPCAnalyzer) (code : List CodeOp) : Option (List CodeOp) := do
  let code ← withOption analyzer.OPTION_CROR_MERGE
    (reorderInstructionsCore analyzer true .REORDER_CROR) code
  let code ← withOption analyzer.OPTION_CARRY_MERGE
    (fun code => do
      let code ← reorderInstructionsCore analyzer false .REORDER_CARRY code
      reorderInstructionsCore analyzer true .REORDER_CARRY code) code
  withOption analyzer.OPTION_BRANCH_MERGE
    (reorderInstructionsCore analyzer false .REORDER_CMP) code

/-! ## scans -/

/-- What is wanted behind an instruction. -/
structure Wants where
  wantsCR0 : Bool
  wantsCR1 : Bool
  wantsFPRF : Bool
  wantsCA : Bool

/-- The scan for flag dependencies, from the end: what it updates an instruction with is what is
wanted behind it. -/
def flagScan : List CodeOp → List CodeOp × Wants
  | [] => ([], ⟨true, true, true, true⟩)
  | op :: code =>
    let (code, wants) := flagScan code
    ({ op with
        wantsCR0 := wants.wantsCR0 || op.canEndBlock
        wantsCR1 := wants.wantsCR1 || op.canEndBlock
        wantsFPRF := wants.wantsFPRF || op.canEndBlock
        wantsCA := wants.wantsCA || op.canEndBlock } :: code,
      { wantsCR0 := (wants.wantsCR0 || (op.wantsCR0 || op.canEndBlock)) &&
          (!op.outputCR0 || op.wantsCR0)
        wantsCR1 := (wants.wantsCR1 || (op.wantsCR1 || op.canEndBlock)) &&
          (!op.outputCR1 || op.wantsCR1)
        wantsFPRF := (wants.wantsFPRF || (op.wantsFPRF || op.canEndBlock)) &&
          (!op.outputFPRF || op.wantsFPRF)
        wantsCA := (wants.wantsCA || (op.wantsCA || op.canEndBlock)) &&
          (!op.outputCA || op.wantsCA) })

/-- The forward scan for the registers that are read before they are defined, with what is
defined so far and what was found. -/
def inputScan : List CodeOp → (gprDefined gprBlockInputs : BitSet32) → BitSet32
  | [], _, gprBlockInputs => gprBlockInputs
  | op :: code, gprDefined, gprBlockInputs =>
    inputScan code (gprDefined ||| op.regsOut) (gprBlockInputs ||| op.regsIn &&& ~~~gprDefined)

/-! ## the whole analysis -/

structure CodeBlock where
  m_address : BitVec 32
  code : List CodeOp
  m_broken : Bool
  m_memory_exception : Bool
  m_gpr_inputs : BitSet32
  /-- the address that is returned -/
  address : BitVec 32

/-- `Analyze`, if the instructions are put in an order. -/
def analyze (tryReadInstruction : BitVec 32 → Option UGeckoInstruction) (analyzer : PPCAnalyzer)
    (address : BitVec 32) (blockSize : Nat) : Option CodeBlock := do
  let s := collect tryReadInstruction analyzer address blockSize blockSize (.init address)
  let code ← if 1 < s.code.length then reorderInstructions analyzer s.code else some s.code
  pure {
    m_address := address
    code := (flagScan code).1
    m_broken := (!s.found_exit && 0 < s.code.length) || blockSize = 1
    m_memory_exception := s.memory_exception
    m_gpr_inputs := inputScan (flagScan code).1 0 0
    address := s.address }

end DolphinCore.PPCAnalyst
