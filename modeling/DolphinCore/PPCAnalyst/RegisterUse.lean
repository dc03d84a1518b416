import DolphinCore.PPCAnalyst.Analyze

/-!
# DolphinCore.PPCAnalyst.RegisterUse

What the functions of the interpreter read and overwrite: the general purpose registers, the carry
and the floating point result flags.  The flags in the tables say the same, but for `twi`, `lfs`,
`lfd`, the string instructions and calls of the virtual machine.
-/

namespace DolphinCore.PPCAnalyst

open PPCTables

/-! ## registers -/

/-- Where the function of an instruction finds the registers that it uses. -/
inductive Operand
  /-- `rGPR[inst.RA]` -/
  | A
  /-- `rGPR[inst.RA]`, where register 0 stands for the value 0 -/
  | A0
  /-- `rGPR[inst.RB]` -/
  | B
  /-- `rGPR[inst.RC]` -/
  | C
  /-- `rGPR[inst.RS]` -/
  | S
  /-- `rGPR[inst.RD]` -/
  | D
  /-- the registers from `inst.RD` up to the last -/
  | multiple
  /-- the registers from `inst.RD` on that hold the `NB` bytes of `lswi` and `stswi` -/
  | immediateBytes
  /-- the registers from `inst.RD` on that hold the bytes `XER` counts for `lswx` and `stswx` -/
  | countedBytes
  /-- what the function in `vmcall_table` reads -/
  | calledReads
  /-- what the function in `vmcall_table` overwrites -/
  | calledWrites
deriving DecidableEq

/-- What the registers that an instruction uses depend on beside the instruction. -/
structure Outside where
  /-- `static_cast<u8>(xer_stringctrl)` -/
  stringctrl : Nat
  calledReads : BitSet32
  calledWrites : BitSet32

/-- The registers that hold so many bytes of a string, behind the last the first. -/
def holdsBytes (inst : UGeckoInstruction) (bytes r : Nat) : Bool :=
  (List.range bytes).any fun n => r = (inst.RD + n / 4) % 32

/-- `NB`, in the bits of `RB` -/
def NB (inst : UGeckoInstruction) : Nat := if inst.RB = 0 then 32 else inst.RB

/-- Whether an operand stands for a register. -/
def Operand.has (outside : Outside) (inst : UGeckoInstruction) (r : Nat) : Operand → Bool
  | .A => r = inst.RA
  | .A0 => inst.RA ≠ 0 && r = inst.RA
  | .B => r = inst.RB
  | .C => r = inst.RC
  | .S => r = inst.RS
  | .D => r = inst.RD
  | .multiple => inst.RD ≤ r && r < 32
  | .immediateBytes => holdsBytes inst (NB inst) r
  | .countedBytes => holdsBytes inst outside.stringctrl r
  | .calledReads => outside.calledReads.getLsbD r
  | .calledWrites => outside.calledWrites.getLsbD r

/-- What the function of an instruction reads; what `unknown_instruction` logs is not counted. -/
def gprReads : Instruction → List Operand
  | .twi | .mulli | .subfic | .cmpli | .cmpi | .addic | .addic_rc | .addmex | .addzex | .negx
  | .subfmex | .subfzex => [.A]
  | .lwzu | .lbzu | .lhzu | .lhau | .lfsu | .lfdu | .stfsu | .stfdu | .psq_lu | .psq_stu => [.A]
  | .addi | .addis | .lwz | .lbz | .lhz | .lha | .lmw | .lfs | .lfd | .stfs | .stfd | .psq_l
  | .psq_st | .lswi => [.A0]
  | .addx | .addcx | .addex | .divwx | .divwux | .mulhwx | .mulhwux | .mullwx | .subfx | .subfcx
  | .subfex | .cmp | .cmpl | .tw => [.A, .B]
  | .lwzux | .lhzux | .lhaux | .lbzux | .lfsux | .lfdux | .stfsux | .stfdux | .psq_lux
  | .psq_stux => [.A, .B]
  | .lwzx | .lhzx | .lhax | .lbzx | .lwbrx | .lhbrx | .lwarx | .lswx | .lfsx | .lfdx | .stfsx
  | .stfdx | .stfiwx | .psq_lx | .psq_stx | .dcbst | .dcbf | .dcbi | .dcbz | .dcbz_l | .icbi
  | .eciwx => [.A0, .B]
  | .rlwimix => [.A, .S]
  | .rlwinmx | .ori | .oris | .xori | .xoris | .andi_rc | .andis_rc | .cntlzwx | .extshx | .extsbx
  | .srawix | .mtcrf | .mtmsr | .mtsr | .mtspr => [.S]
  | .rlwnmx | .andx | .andcx | .orx | .norx | .xorx | .orcx | .nandx | .eqvx | .srwx | .srawx
  | .slwx | .mtsrin => [.B, .S]
  | .sth | .stw | .stb => [.A0, .S]
  | .sthu | .stwu | .stbu => [.A, .S]
  | .stwx | .sthx | .stbx | .stwbrx | .sthbrx | .stwcxd | .ecowx => [.A0, .B, .S]
  | .stwux | .sthux | .stbux => [.A, .B, .S]
  | .mfsrin | .tlbie => [.B]
  | .stmw => [.A0, .multiple]
  | .stswi => [.A0, .immediateBytes]
  | .stswx => [.A0, .B, .countedBytes]
  | .vmcall => [.calledReads]
  | _ => []

/-- What the function of an instruction overwrites, unless there is an exception. -/
def gprWrites : Instruction → List Operand
  | .mulli | .subfic | .addic | .addic_rc | .addi | .addis | .addx | .addcx | .addex | .addmex
  | .addzex | .divwx | .divwux | .mulhwx | .mulhwux | .mullwx | .negx | .subfx | .subfcx | .subfex
  | .subfmex | .subfzex => [.D]
  | .lwz | .lbz | .lhz | .lha | .lwzx | .lhzx | .lhax | .lbzx | .lwbrx | .lhbrx | .lwarx | .eciwx
  | .mfcr | .mfmsr | .mfspr | .mftb | .mfsr | .mfsrin => [.D]
  | .rlwimix | .rlwinmx | .rlwnmx | .ori | .oris | .xori | .xoris | .andi_rc | .andis_rc | .andx
  | .andcx | .orx | .norx | .xorx | .orcx | .nandx | .eqvx | .cntlzwx | .extshx | .extsbx | .srwx
  | .srawx | .srawix | .slwx => [.A]
  | .sthu | .stwu | .stbu | .stwux | .sthux | .stbux | .lfsu | .lfdu | .stfsu | .stfdu | .psq_lu
  | .psq_stu | .lfsux | .lfdux | .stfsux | .stfdux | .psq_lux | .psq_stux => [.A]
  | .lwzu | .lbzu | .lhzu | .lhau | .lwzux | .lhzux | .lhaux | .lbzux => [.A, .D]
  | .lmw => [.multiple]
  | .lswi => [.immediateBytes]
  | .lswx => [.countedBytes]
  | .vmcall => [.calledWrites]
  | _ => []

/-- An instruction of a block when it is run. -/
abbrev RunOp := CodeOp × Outside

/-- The function of an instruction reads a register. -/
def Reads (r : Nat) (x : RunOp) : Prop :=
  (gprReads (getInterpreterOp x.1.inst)).any (Operand.has x.2 x.1.inst r) = true

/-- The function of an instruction overwrites a register. -/
def Writes (r : Nat) (x : RunOp) : Prop :=
  (gprWrites (getInterpreterOp x.1.inst)).any (Operand.has x.2 x.1.inst r) = true

instance (r : Nat) (x : RunOp) : Decidable (Reads r x) := inferInstanceAs (Decidable (_ = true))

instance (r : Nat) (x : RunOp) : Decidable (Writes r x) := inferInstanceAs (Decidable (_ = true))

/-! ## the carry and the floating point result flags -/

/-- The function of an instruction reads the carry. -/
def readsCA (inst : UGeckoInstruction) : Bool :=
  match getInterpreterOp inst with
  | .addex | .addmex | .addzex | .subfex | .subfmex | .subfzex | .mcrxr => true
  | .mfspr => inst.spr = SPR_XER
  | _ => false

/-- The function of an instruction overwrites the carry. -/
def overwritesCA (inst : UGeckoInstruction) : Bool :=
  match getInterpreterOp inst with
  | .addcx | .addex | .addmex | .addzex | .subfcx | .subfex | .subfmex | .subfzex | .subfic | .addic
  | .addic_rc | .srawx | .srawix | .mcrxr => true
  | .mtspr => inst.spr = SPR_XER
  | _ => false

/-- The function of an instruction reads the floating point result flags, or leaves some of them
when it writes others. -/
def readsFPRF (inst : UGeckoInstruction) : Bool :=
  match getInterpreterOp inst with
  | .mcrfs | .mffsx | .mtfsb0x | .mtfsb1x | .mtfsfix | .mtfsfx | .fcmpo | .fcmpu | .ps_cmpu0
  | .ps_cmpo0 | .ps_cmpu1 | .ps_cmpo1 => true
  | _ => false

/-- The function of an instruction calls `UpdateFPRF`. -/
def overwritesFPRF (inst : UGeckoInstruction) : Bool :=
  match getInterpreterOp inst with
  | .frspx | .fmulx | .fmulsx | .fmaddx | .fmaddsx | .faddx | .faddsx | .fdivx | .fdivsx | .fresx
  | .frsqrtex | .fmsubx | .fmsubsx | .fnmaddx | .fnmaddsx | .fnmsubx | .fnmsubsx | .fsubx
  | .fsubsx => true
  | .ps_div | .ps_res | .ps_rsqrte | .ps_sub | .ps_add | .ps_mul | .ps_msub | .ps_madd | .ps_nmsub
  | .ps_nmadd | .ps_sum0 | .ps_sum1 | .ps_muls0 | .ps_muls1 | .ps_madds0 | .ps_madds1 => true
  | _ => false

end DolphinCore.PPCAnalyst
