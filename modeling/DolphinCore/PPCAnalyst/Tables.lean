import Mathlib.Algebra.Group.Nat.Defs

/-!
# DolphinCore.PPCAnalyst.Tables

Instructions of the PowerPC, the flags that say what they can do, and the tables of
`Interpreter_Tables.cpp` that the flags and the functions of the interpreter are looked up in.
-/

namespace DolphinCore

/-! ## instructions -/

abbrev UGeckoInstruction := BitVec 32

namespace UGeckoInstruction

/-- A field of the word. -/
def field (inst : UGeckoInstruction) (lo len : Nat) : Nat := inst.toNat / 2 ^ lo % 2 ^ len

variable (inst : UGeckoInstruction)

def OPCD : Nat := inst.field 26 6
def RD : Nat := inst.field 21 5
def RS : Nat := inst.field 21 5
def RA : Nat := inst.field 16 5
def RB : Nat := inst.field 11 5
def RC : Nat := inst.field 6 5
def Rc : Bool := inst.getLsbD 0
def SUBOP10 : Nat := inst.field 1 10
def SUBOP5 : Nat := inst.field 1 5
def CRFD : Nat := inst.field 23 3
def LK : Bool := inst.getLsbD 0
def AA : Bool := inst.getLsbD 1
def LI : BitVec 24 := inst.extractLsb' 2 24
def BD : BitVec 14 := inst.extractLsb' 2 14
def BO : Nat := inst.field 21 5
def BI : Nat := inst.field 16 5
def OE : Bool := inst.getLsbD 10
def SIMM_16 : BitVec 16 := inst.extractLsb' 0 16
def CRBD : Nat := inst.field 21 5
def CRBA : Nat := inst.field 16 5
def CRBB : Nat := inst.field 11 5
def CRFS : Nat := inst.field 18 3
def CRM : Nat := inst.field 12 8
def SPRU : Nat := inst.field 11 5
def SPRL : Nat := inst.field 16 5

/-- `(SPRU << 5) | (SPRL & 0x1F)` -/
def spr : Nat := inst.SPRU * 32 + inst.SPRL

end UGeckoInstruction

/-! ## flags -/

namespace PPCTables

abbrev Flags := BitVec 32

def FL_SET_CR0 : Flags := 1 <<< 0
def FL_SET_CR1 : Flags := 1 <<< 1
def FL_SET_CRn : Flags := 1 <<< 2
def FL_SET_CRx : Flags := FL_SET_CR0 ||| FL_SET_CR1 ||| FL_SET_CRn
def FL_SET_CA : Flags := 1 <<< 3
def FL_READ_CA : Flags := 1 <<< 4
def FL_RC_BIT : Flags := 1 <<< 5
def FL_RC_BIT_F : Flags := 1 <<< 6
def FL_ENDBLOCK : Flags := 1 <<< 7
def FL_IN_A : Flags := 1 <<< 8
def FL_IN_A0 : Flags := 1 <<< 9
def FL_IN_B : Flags := 1 <<< 10
def FL_IN_C : Flags := 1 <<< 11
def FL_IN_S : Flags := 1 <<< 12
def FL_IN_AB : Flags := FL_IN_A ||| FL_IN_B
def FL_IN_SB : Flags := FL_IN_S ||| FL_IN_B
def FL_IN_A0B : Flags := FL_IN_A0 ||| FL_IN_B
def FL_OUT_D : Flags := 1 <<< 13
def FL_OUT_A : Flags := 1 <<< 14
def FL_TIMER : Flags := 1 <<< 15
def FL_CHECKEXCEPTIONS : Flags := 1 <<< 16
def FL_EVIL : Flags := 1 <<< 17
def FL_USE_FPU : Flags := 1 <<< 18
def FL_LOADSTORE : Flags := 1 <<< 19
def FL_SET_FPRF : Flags := 1 <<< 20
def FL_READ_FPRF : Flags := 1 <<< 21
def FL_SET_OE : Flags := 1 <<< 22
def FL_IN_FLOAT_A : Flags := 1 <<< 23
def FL_IN_FLOAT_B : Flags := 1 <<< 24
def FL_IN_FLOAT_C : Flags := 1 <<< 25
def FL_IN_FLOAT_S : Flags := 1 <<< 26
def FL_IN_FLOAT_D : Flags := 1 <<< 27
def FL_IN_FLOAT_AB : Flags := FL_IN_FLOAT_A ||| FL_IN_FLOAT_B
def FL_IN_FLOAT_AC : Flags := FL_IN_FLOAT_A ||| FL_IN_FLOAT_C
def FL_IN_FLOAT_ABC : Flags := FL_IN_FLOAT_A ||| FL_IN_FLOAT_B ||| FL_IN_FLOAT_C
def FL_OUT_FLOAT_D : Flags := 1 <<< 28
def FL_INOUT_FLOAT_D : Flags := FL_IN_FLOAT_D ||| FL_OUT_FLOAT_D

/-- Whether one of these flags is set. -/
def has (flags mask : Flags) : Bool := flags &&& mask ≠ 0

inductive OpType
  | Subtable | Integer | CR | SPR | System | SystemFP | Load | Store | LoadFP | StoreFP
  | DoubleFP | SingleFP | LoadPS | StorePS | PS | DataCache | InstructionCache | Branch | Unknown
deriving DecidableEq

/-- The functions of the interpreter -/
inductive Instruction
  | unknown_instruction | RunTable4 | RunTable19 | RunTable31 | RunTable59 | RunTable63 | bcx
  | bx | twi | sc | mulli | subfic | cmpli | cmpi | addic | addic_rc | addi | addis | rlwimix
  | rlwinmx | rlwnmx | ori | oris | xori | xoris | andi_rc | andis_rc | lwz | lwzu | lbz | lbzu
  | lhz | lhzu | lha | lhau | sth | sthu | stw | stwu | stb | stbu | lmw | stmw | lfs | lfsu
  | lfd | lfdu | stfs | stfsu | stfd | stfdu | psq_l | psq_lu | psq_st | psq_stu | ps_cmpu0
  | ps_cmpo0 | ps_neg | ps_nabs | ps_abs | ps_cmpu1 | ps_mr | ps_cmpo1 | ps_merge00 | ps_merge01
  | ps_merge10 | ps_merge11 | dcbz_l | ps_sum0 | ps_sum1 | ps_muls0 | ps_muls1 | ps_madds0
  | ps_madds1 | ps_div | ps_sub | ps_add | ps_sel | ps_res | ps_mul | ps_rsqrte | ps_msub
  | ps_madd | ps_nmsub | ps_nmadd | psq_lx | psq_stx | psq_lux | psq_stux | bcctrx | bclrx
  | crand | crandc | creqv | crnand | crnor | cror | crorc | crxor | isync | mcrf | rfi | vmcall
  | addx | addcx | addex | addmex | addzex | divwx | divwux | mulhwx | mulhwux | mullwx | negx
  | subfx | subfcx | subfex | subfmex | subfzex | andx | andcx | orx | norx | xorx | orcx | nandx
  | eqvx | cmp | cmpl | cntlzwx | extshx | extsbx | srwx | srawx | srawix | slwx | dcbst | dcbf
  | dcbtst | dcbt | dcbi | dcba | dcbz | lwzx | lwzux | lhzx | lhzux | lhax | lhaux | lbzx
  | lbzux | lwbrx | lhbrx | stwcxd | lwarx | lswx | lswi | stwx | stwux | sthx | sthux | stbx
  | stbux | stwbrx | sthbrx | stswx | stswi | lfsx | lfsux | lfdx | lfdux | stfsx | stfsux
  | stfdx | stfdux | stfiwx | mfcr | mfmsr | mtcrf | mtmsr | mtsr | mtsrin | mfspr | mtspr | mftb
  | mcrxr | mfsr | mfsrin | tw | sync | icbi | eciwx | ecowx | eieio | tlbie | tlbsync | fdivsx
  | fsubsx | faddsx | fresx | fmulsx | fmsubsx | fmaddsx | fnmsubsx | fnmaddsx | fabsx | fcmpo
  | fcmpu | fctiwx | fctiwzx | fmrx | fnabsx | fnegx | frspx | mcrfs | mffsx | mtfsb0x | mtfsb1x
  | mtfsfix | mtfsfx | fdivx | fsubx | faddx | fselx | fmulx | frsqrtex | fmsubx | fmaddx
  | fnmsubx | fnmaddx
deriving DecidableEq

structure GekkoOPInfo where
  type : OpType
  flags : Flags

structure GekkoOPTemplate where
  opcode : Nat
  Inst : Instruction
  opinfo : GekkoOPInfo

/-- `unknownopinfo`, with the function that stands beside it -/
def unknownop : GekkoOPTemplate := ⟨0, .unknown_instruction, .Unknown, FL_ENDBLOCK⟩

/-! ## the tables -/

def primarytable : List GekkoOPTemplate := [
  ⟨4, .RunTable4, .Subtable, 0⟩,
  ⟨19, .RunTable19, .Subtable, 0⟩,
  ⟨31, .RunTable31, .Subtable, 0⟩,
  ⟨59, .RunTable59, .Subtable, 0⟩,
  ⟨63, .RunTable63, .Subtable, 0⟩,
  ⟨16, .bcx, .System, FL_ENDBLOCK⟩,
  ⟨18, .bx, .System, FL_ENDBLOCK⟩,
  ⟨3, .twi, .System, FL_ENDBLOCK⟩,
  ⟨17, .sc, .System, FL_ENDBLOCK⟩,
  ⟨7, .mulli, .Integer, FL_OUT_D ||| FL_IN_A⟩,
  ⟨8, .subfic, .Integer, FL_OUT_D ||| FL_IN_A ||| FL_SET_CA⟩,
  ⟨10, .cmpli, .Integer, FL_IN_A ||| FL_SET_CRn⟩,
  ⟨11, .cmpi, .Integer, FL_IN_A ||| FL_SET_CRn⟩,
  ⟨12, .addic, .Integer, FL_OUT_D ||| FL_IN_A ||| FL_SET_CA⟩,
  ⟨13, .addic_rc, .Integer, FL_OUT_D ||| FL_IN_A ||| FL_SET_CA ||| FL_SET_CR0⟩,
  ⟨14, .addi, .Integer, FL_OUT_D ||| FL_IN_A0⟩,
  ⟨15, .addis, .Integer, FL_OUT_D ||| FL_IN_A0⟩,
  ⟨20, .rlwimix, .Integer, FL_OUT_A ||| FL_IN_A ||| FL_IN_S ||| FL_RC_BIT⟩,
  ⟨21, .rlwinmx, .Integer, FL_OUT_A ||| FL_IN_S ||| FL_RC_BIT⟩,
  ⟨23, .rlwnmx, .Integer, FL_OUT_A ||| FL_IN_SB ||| FL_RC_BIT⟩,
  ⟨24, .ori, .Integer, FL_OUT_A ||| FL_IN_S⟩,
  ⟨25, .oris, .Integer, FL_OUT_A ||| FL_IN_S⟩,
  ⟨26, .xori, .Integer, FL_OUT_A ||| FL_IN_S⟩,
  ⟨27, .xoris, .Integer, FL_OUT_A ||| FL_IN_S⟩,
  ⟨28, .andi_rc, .Integer, FL_OUT_A ||| FL_IN_S ||| FL_SET_CR0⟩,
  ⟨29, .andis_rc, .Integer, FL_OUT_A ||| FL_IN_S ||| FL_SET_CR0⟩,
  ⟨32, .lwz, .Load, FL_OUT_D ||| FL_IN_A0 ||| FL_LOADSTORE⟩,
  ⟨33, .lwzu, .Load, FL_OUT_D ||| FL_OUT_A ||| FL_IN_A ||| FL_LOADSTORE⟩,
  ⟨34, .lbz, .Load, FL_OUT_D ||| FL_IN_A0 ||| FL_LOADSTORE⟩,
  ⟨35, .lbzu, .Load, FL_OUT_D ||| FL_OUT_A ||| FL_IN_A ||| FL_LOADSTORE⟩,
  ⟨40, .lhz, .Load, FL_OUT_D ||| FL_IN_A0 ||| FL_LOADSTORE⟩,
  ⟨41, .lhzu, .Load, FL_OUT_D ||| FL_OUT_A ||| FL_IN_A ||| FL_LOADSTORE⟩,
  ⟨42, .lha, .Load, FL_OUT_D ||| FL_IN_A0 ||| FL_LOADSTORE⟩,
  ⟨43, .lhau, .Load, FL_OUT_D ||| FL_OUT_A ||| FL_IN_A ||| FL_LOADSTORE⟩,
  ⟨44, .sth, .Store, FL_IN_A0 ||| FL_IN_S ||| FL_LOADSTORE⟩,
  ⟨45, .sthu, .Store, FL_OUT_A ||| FL_IN_A ||| FL_IN_S ||| FL_LOADSTORE⟩,
  ⟨36, .stw, .Store, FL_IN_A0 ||| FL_IN_S ||| FL_LOADSTORE⟩,
  ⟨37, .stwu, .Store, FL_OUT_A ||| FL_IN_A ||| FL_IN_S ||| FL_LOADSTORE⟩,
  ⟨38, .stb, .Store, FL_IN_A0 ||| FL_IN_S ||| FL_LOADSTORE⟩,
  ⟨39, .stbu, .Store, FL_OUT_A ||| FL_IN_A ||| FL_IN_S ||| FL_LOADSTORE⟩,
  ⟨46, .lmw, .System, FL_EVIL ||| FL_IN_A0 ||| FL_LOADSTORE⟩,
  ⟨47, .stmw, .System, FL_EVIL ||| FL_IN_A0 ||| FL_LOADSTORE⟩,
  ⟨48, .lfs, .LoadFP, FL_OUT_FLOAT_D ||| FL_IN_A ||| FL_USE_FPU ||| FL_LOADSTORE⟩,
  ⟨49, .lfsu, .LoadFP, FL_OUT_FLOAT_D ||| FL_OUT_A ||| FL_IN_A ||| FL_USE_FPU ||| FL_LOADSTORE⟩,
  ⟨50, .lfd, .LoadFP, FL_INOUT_FLOAT_D ||| FL_IN_A ||| FL_USE_FPU ||| FL_LOADSTORE⟩,
  ⟨51, .lfdu, .LoadFP, FL_INOUT_FLOAT_D ||| FL_OUT_A ||| FL_IN_A ||| FL_USE_FPU ||| FL_LOADSTORE⟩,
  ⟨52, .stfs, .StoreFP, FL_IN_FLOAT_S ||| FL_IN_A0 ||| FL_USE_FPU ||| FL_LOADSTORE⟩,
  ⟨53, .stfsu, .StoreFP, FL_IN_FLOAT_S ||| FL_OUT_A ||| FL_IN_A ||| FL_USE_FPU ||| FL_LOADSTORE⟩,
  ⟨54, .stfd, .StoreFP, FL_IN_FLOAT_S ||| FL_IN_A0 ||| FL_USE_FPU ||| FL_LOADSTORE⟩,
  ⟨55, .stfdu, .StoreFP, FL_IN_FLOAT_S ||| FL_OUT_A ||| FL_IN_A ||| FL_USE_FPU ||| FL_LOADSTORE⟩,
  ⟨56, .psq_l, .LoadPS, FL_OUT_FLOAT_D ||| FL_IN_A0 ||| FL_USE_FPU ||| FL_LOADSTORE⟩,
  ⟨57, .psq_lu, .LoadPS, FL_OUT_FLOAT_D ||| FL_OUT_A ||| FL_IN_A ||| FL_USE_FPU ||| FL_LOADSTORE⟩,
  ⟨60, .psq_st, .StorePS, FL_IN_FLOAT_S ||| FL_IN_A0 ||| FL_USE_FPU ||| FL_LOADSTORE⟩,
  ⟨61, .psq_stu, .StorePS, FL_IN_FLOAT_S ||| FL_OUT_A ||| FL_IN_A ||| FL_USE_FPU ||| FL_LOADSTORE⟩]

def table4 : List GekkoOPTemplate := [
  ⟨0, .ps_cmpu0, .PS, FL_IN_FLOAT_AB ||| FL_SET_CRn ||| FL_USE_FPU ||| FL_READ_FPRF |||
    FL_SET_FPRF⟩,
  ⟨32, .ps_cmpo0, .PS, FL_IN_FLOAT_AB ||| FL_SET_CRn ||| FL_USE_FPU ||| FL_READ_FPRF |||
    FL_SET_FPRF⟩,
  ⟨40, .ps_neg, .PS, FL_OUT_FLOAT_D ||| FL_IN_FLOAT_B ||| FL_RC_BIT_F ||| FL_USE_FPU⟩,
  ⟨136, .ps_nabs, .PS, FL_OUT_FLOAT_D ||| FL_IN_FLOAT_B ||| FL_RC_BIT_F ||| FL_USE_FPU⟩,
  ⟨264, .ps_abs, .PS, FL_OUT_FLOAT_D ||| FL_IN_FLOAT_B ||| FL_RC_BIT_F ||| FL_USE_FPU⟩,
  ⟨64, .ps_cmpu1, .PS, FL_IN_FLOAT_AB ||| FL_SET_CRn ||| FL_USE_FPU ||| FL_READ_FPRF |||
    FL_SET_FPRF⟩,
  ⟨72, .ps_mr, .PS, FL_OUT_FLOAT_D ||| FL_IN_FLOAT_B ||| FL_RC_BIT_F ||| FL_USE_FPU⟩,
  ⟨96, .ps_cmpo1, .PS, FL_IN_FLOAT_AB ||| FL_SET_CRn ||| FL_USE_FPU ||| FL_READ_FPRF |||
    FL_SET_FPRF⟩,
  ⟨528, .ps_merge00, .PS, FL_OUT_FLOAT_D ||| FL_IN_FLOAT_AB ||| FL_RC_BIT_F ||| FL_USE_FPU⟩,
  ⟨560, .ps_merge01, .PS, FL_OUT_FLOAT_D ||| FL_IN_FLOAT_AB ||| FL_RC_BIT_F ||| FL_USE_FPU⟩,
  ⟨592, .ps_merge10, .PS, FL_OUT_FLOAT_D ||| FL_IN_FLOAT_AB ||| FL_RC_BIT_F ||| FL_USE_FPU⟩,
  ⟨624, .ps_merge11, .PS, FL_OUT_FLOAT_D ||| FL_IN_FLOAT_AB ||| FL_RC_BIT_F ||| FL_USE_FPU⟩,
  ⟨1014, .dcbz_l, .System, FL_IN_A0B ||| FL_LOADSTORE⟩]

def table4_2 : List GekkoOPTemplate := [
  ⟨10, .ps_sum0, .PS, FL_OUT_FLOAT_D ||| FL_IN_FLOAT_ABC ||| FL_RC_BIT_F ||| FL_USE_FPU |||
    FL_SET_FPRF⟩,
  ⟨11, .ps_sum1, .PS, FL_OUT_FLOAT_D ||| FL_IN_FLOAT_ABC ||| FL_RC_BIT_F ||| FL_USE_FPU |||
    FL_SET_FPRF⟩,
  ⟨12, .ps_muls0, .PS, FL_OUT_FLOAT_D ||| FL_IN_FLOAT_AC ||| FL_RC_BIT_F ||| FL_USE_FPU |||
    FL_SET_FPRF⟩,
  ⟨13, .ps_muls1, .PS, FL_OUT_FLOAT_D ||| FL_IN_FLOAT_AC ||| FL_RC_BIT_F ||| FL_USE_FPU |||
    FL_SET_FPRF⟩,
  ⟨14, .ps_madds0, .PS, FL_OUT_FLOAT_D ||| FL_IN_FLOAT_ABC ||| FL_RC_BIT_F ||| FL_USE_FPU |||
    FL_SET_FPRF⟩,
  ⟨15, .ps_madds1, .PS, FL_OUT_FLOAT_D ||| FL_IN_FLOAT_ABC ||| FL_RC_BIT_F ||| FL_USE_FPU |||
    FL_SET_FPRF⟩,
  ⟨18, .ps_div, .PS, FL_OUT_FLOAT_D ||| FL_IN_FLOAT_AB ||| FL_RC_BIT_F ||| FL_USE_FPU |||
    FL_SET_FPRF⟩,
  ⟨20, .ps_sub, .PS, FL_OUT_FLOAT_D ||| FL_IN_FLOAT_AB ||| FL_RC_BIT_F ||| FL_USE_FPU |||
    FL_SET_FPRF⟩,
  ⟨21, .ps_add, .PS, FL_OUT_FLOAT_D ||| FL_IN_FLOAT_AB ||| FL_RC_BIT_F ||| FL_USE_FPU |||
    FL_SET_FPRF⟩,
  ⟨23, .ps_sel, .PS, FL_OUT_FLOAT_D ||| FL_IN_FLOAT_ABC ||| FL_RC_BIT_F ||| FL_USE_FPU⟩,
  ⟨24, .ps_res, .PS, FL_OUT_FLOAT_D ||| FL_IN_FLOAT_B ||| FL_RC_BIT_F ||| FL_USE_FPU |||
    FL_SET_FPRF⟩,
  ⟨25, .ps_mul, .PS, FL_OUT_FLOAT_D ||| FL_IN_FLOAT_AC ||| FL_RC_BIT_F ||| FL_USE_FPU |||
    FL_SET_FPRF⟩,
  ⟨26, .ps_rsqrte, .PS, FL_OUT_FLOAT_D ||| FL_IN_FLOAT_B ||| FL_RC_BIT_F ||| FL_USE_FPU |||
    FL_SET_FPRF⟩,
  ⟨28, .ps_msub, .PS, FL_OUT_FLOAT_D ||| FL_IN_FLOAT_ABC ||| FL_RC_BIT_F ||| FL_USE_FPU |||
    FL_SET_FPRF⟩,
  ⟨29, .ps_madd, .PS, FL_OUT_FLOAT_D ||| FL_IN_FLOAT_ABC ||| FL_RC_BIT_F ||| FL_USE_FPU |||
    FL_SET_FPRF⟩,
  ⟨30, .ps_nmsub, .PS, FL_OUT_FLOAT_D ||| FL_IN_FLOAT_ABC ||| FL_RC_BIT_F ||| FL_USE_FPU |||
    FL_SET_FPRF⟩,
  ⟨31, .ps_nmadd, .PS, FL_OUT_FLOAT_D ||| FL_IN_FLOAT_ABC ||| FL_RC_BIT_F ||| FL_USE_FPU |||
    FL_SET_FPRF⟩]

def table4_3 : List GekkoOPTemplate := [
  ⟨6, .psq_lx, .LoadPS, FL_OUT_FLOAT_D ||| FL_IN_A0B ||| FL_USE_FPU ||| FL_LOADSTORE⟩,
  ⟨7, .psq_stx, .StorePS, FL_IN_FLOAT_S ||| FL_IN_A0B ||| FL_USE_FPU ||| FL_LOADSTORE⟩,
  ⟨38, .psq_lux, .LoadPS, FL_OUT_FLOAT_D ||| FL_OUT_A ||| FL_IN_AB ||| FL_USE_FPU ||| FL_LOADSTORE⟩,
  ⟨39, .psq_stux, .StorePS, FL_IN_FLOAT_S ||| FL_OUT_A ||| FL_IN_AB ||| FL_USE_FPU |||
    FL_LOADSTORE⟩]

def table19 : List GekkoOPTemplate := [
  ⟨528, .bcctrx, .Branch, FL_ENDBLOCK⟩,
  ⟨16, .bclrx, .Branch, FL_ENDBLOCK⟩,
  ⟨257, .crand, .CR, FL_EVIL⟩,
  ⟨129, .crandc, .CR, FL_EVIL⟩,
  ⟨289, .creqv, .CR, FL_EVIL⟩,
  ⟨225, .crnand, .CR, FL_EVIL⟩,
  ⟨33, .crnor, .CR, FL_EVIL⟩,
  ⟨449, .cror, .CR, FL_EVIL⟩,
  ⟨417, .crorc, .CR, FL_EVIL⟩,
  ⟨193, .crxor, .CR, FL_EVIL⟩,
  ⟨150, .isync, .InstructionCache, FL_EVIL⟩,
  ⟨0, .mcrf, .System, FL_EVIL ||| FL_SET_CRn⟩,
  ⟨50, .rfi, .System, FL_ENDBLOCK ||| FL_CHECKEXCEPTIONS⟩,
  ⟨51, .vmcall, .System, FL_ENDBLOCK⟩]

def table31 : List GekkoOPTemplate := [
  ⟨266, .addx, .Integer, FL_OUT_D ||| FL_IN_AB ||| FL_RC_BIT⟩,
  ⟨778, .addx, .Integer, FL_OUT_D ||| FL_IN_AB ||| FL_RC_BIT ||| FL_SET_OE⟩,
  ⟨10, .addcx, .Integer, FL_OUT_D ||| FL_IN_AB ||| FL_SET_CA ||| FL_RC_BIT⟩,
  ⟨522, .addcx, .Integer, FL_OUT_D ||| FL_IN_AB ||| FL_SET_CA ||| FL_RC_BIT ||| FL_SET_OE⟩,
  ⟨138, .addex, .Integer, FL_OUT_D ||| FL_IN_AB ||| FL_READ_CA ||| FL_SET_CA ||| FL_RC_BIT⟩,
  ⟨650, .addex, .Integer, FL_OUT_D ||| FL_IN_AB ||| FL_READ_CA ||| FL_SET_CA ||| FL_RC_BIT |||
    FL_SET_OE⟩,
  ⟨234, .addmex, .Integer, FL_OUT_D ||| FL_IN_A ||| FL_READ_CA ||| FL_SET_CA ||| FL_RC_BIT⟩,
  ⟨746, .addmex, .Integer, FL_OUT_D ||| FL_IN_A ||| FL_READ_CA ||| FL_SET_CA ||| FL_RC_BIT |||
    FL_SET_OE⟩,
  ⟨202, .addzex, .Integer, FL_OUT_D ||| FL_IN_A ||| FL_READ_CA ||| FL_SET_CA ||| FL_RC_BIT⟩,
  ⟨714, .addzex, .Integer, FL_OUT_D ||| FL_IN_A ||| FL_READ_CA ||| FL_SET_CA ||| FL_RC_BIT |||
    FL_SET_OE⟩,
  ⟨491, .divwx, .Integer, FL_OUT_D ||| FL_IN_AB ||| FL_RC_BIT⟩,
  ⟨1003, .divwx, .Integer, FL_OUT_D ||| FL_IN_AB ||| FL_RC_BIT ||| FL_SET_OE⟩,
  ⟨459, .divwux, .Integer, FL_OUT_D ||| FL_IN_AB ||| FL_RC_BIT⟩,
  ⟨971, .divwux, .Integer, FL_OUT_D ||| FL_IN_AB ||| FL_RC_BIT ||| FL_SET_OE⟩,
  ⟨75, .mulhwx, .Integer, FL_OUT_D ||| FL_IN_AB ||| FL_RC_BIT⟩,
  ⟨11, .mulhwux, .Integer, FL_OUT_D ||| FL_IN_AB ||| FL_RC_BIT⟩,
  ⟨235, .mullwx, .Integer, FL_OUT_D ||| FL_IN_AB ||| FL_RC_BIT⟩,
  ⟨747, .mullwx, .Integer, FL_OUT_D ||| FL_IN_AB ||| FL_RC_BIT ||| FL_SET_OE⟩,
  ⟨104, .negx, .Integer, FL_OUT_D ||| FL_IN_A ||| FL_RC_BIT⟩,
  ⟨616, .negx, .Integer, FL_OUT_D ||| FL_IN_A ||| FL_RC_BIT ||| FL_SET_OE⟩,
  ⟨40, .subfx, .Integer, FL_OUT_D ||| FL_IN_AB ||| FL_RC_BIT⟩,
  ⟨552, .subfx, .Integer, FL_OUT_D ||| FL_IN_AB ||| FL_RC_BIT ||| FL_SET_OE⟩,
  ⟨8, .subfcx, .Integer, FL_OUT_D ||| FL_IN_AB ||| FL_SET_CA ||| FL_RC_BIT⟩,
  ⟨520, .subfcx, .Integer, FL_OUT_D ||| FL_IN_AB ||| FL_SET_CA ||| FL_RC_BIT ||| FL_SET_OE⟩,
  ⟨136, .subfex, .Integer, FL_OUT_D ||| FL_IN_AB ||| FL_READ_CA ||| FL_SET_CA ||| FL_RC_BIT⟩,
  ⟨648, .subfex, .Integer, FL_OUT_D ||| FL_IN_AB ||| FL_READ_CA ||| FL_SET_CA ||| FL_RC_BIT |||
    FL_SET_OE⟩,
  ⟨232, .subfmex, .Integer, FL_OUT_D ||| FL_IN_A ||| FL_READ_CA ||| FL_SET_CA ||| FL_RC_BIT⟩,
  ⟨744, .subfmex, .Integer, FL_OUT_D ||| FL_IN_A ||| FL_READ_CA ||| FL_SET_CA ||| FL_RC_BIT |||
    FL_SET_OE⟩,
  ⟨200, .subfzex, .Integer, FL_OUT_D ||| FL_IN_A ||| FL_READ_CA ||| FL_SET_CA ||| FL_RC_BIT⟩,
  ⟨712, .subfzex, .Integer, FL_OUT_D ||| FL_IN_A ||| FL_READ_CA ||| FL_SET_CA ||| FL_RC_BIT |||
    FL_SET_OE⟩,
  ⟨28, .andx, .Integer, FL_OUT_A ||| FL_IN_SB ||| FL_RC_BIT⟩,
  ⟨60, .andcx, .Integer, FL_OUT_A ||| FL_IN_SB ||| FL_RC_BIT⟩,
  ⟨444, .orx, .Integer, FL_OUT_A ||| FL_IN_SB ||| FL_RC_BIT⟩,
  ⟨124, .norx, .Integer, FL_OUT_A ||| FL_IN_SB ||| FL_RC_BIT⟩,
  ⟨316, .xorx, .Integer, FL_OUT_A ||| FL_IN_SB ||| FL_RC_BIT⟩,
  ⟨412, .orcx, .Integer, FL_OUT_A ||| FL_IN_SB ||| FL_RC_BIT⟩,
  ⟨476, .nandx, .Integer, FL_OUT_A ||| FL_IN_SB ||| FL_RC_BIT⟩,
  ⟨284, .eqvx, .Integer, FL_OUT_A ||| FL_IN_SB ||| FL_RC_BIT⟩,
  ⟨0, .cmp, .Integer, FL_IN_AB ||| FL_SET_CRn⟩,
  ⟨32, .cmpl, .Integer, FL_IN_AB ||| FL_SET_CRn⟩,
  ⟨26, .cntlzwx, .Integer, FL_OUT_A ||| FL_IN_S ||| FL_RC_BIT⟩,
  ⟨922, .extshx, .Integer, FL_OUT_A ||| FL_IN_S ||| FL_RC_BIT⟩,
  ⟨954, .extsbx, .Integer, FL_OUT_A ||| FL_IN_S ||| FL_RC_BIT⟩,
  ⟨536, .srwx, .Integer, FL_OUT_A ||| FL_IN_SB ||| FL_RC_BIT⟩,
  ⟨792, .srawx, .Integer, FL_OUT_A ||| FL_IN_SB ||| FL_SET_CA ||| FL_RC_BIT⟩,
  ⟨824, .srawix, .Integer, FL_OUT_A ||| FL_IN_S ||| FL_SET_CA ||| FL_RC_BIT⟩,
  ⟨24, .slwx, .Integer, FL_OUT_A ||| FL_IN_SB ||| FL_RC_BIT⟩,
  ⟨54, .dcbst, .DataCache, FL_IN_A0B ||| FL_LOADSTORE⟩,
  ⟨86, .dcbf, .DataCache, FL_IN_A0B ||| FL_LOADSTORE⟩,
  ⟨246, .dcbtst, .DataCache, 0⟩,
  ⟨278, .dcbt, .DataCache, 0⟩,
  ⟨470, .dcbi, .DataCache, FL_IN_A0B ||| FL_LOADSTORE⟩,
  ⟨758, .dcba, .DataCache, 0⟩,
  ⟨1014, .dcbz, .DataCache, FL_IN_A0B ||| FL_LOADSTORE⟩,
  ⟨23, .lwzx, .Load, FL_OUT_D ||| FL_IN_A0B ||| FL_LOADSTORE⟩,
  ⟨55, .lwzux, .Load, FL_OUT_D ||| FL_OUT_A ||| FL_IN_AB ||| FL_LOADSTORE⟩,
  ⟨279, .lhzx, .Load, FL_OUT_D ||| FL_IN_A0B ||| FL_LOADSTORE⟩,
  ⟨311, .lhzux, .Load, FL_OUT_D ||| FL_OUT_A ||| FL_IN_AB ||| FL_LOADSTORE⟩,
  ⟨343, .lhax, .Load, FL_OUT_D ||| FL_IN_A0B ||| FL_LOADSTORE⟩,
  ⟨375, .lhaux, .Load, FL_OUT_D ||| FL_OUT_A ||| FL_IN_AB ||| FL_LOADSTORE⟩,
  ⟨87, .lbzx, .Load, FL_OUT_D ||| FL_IN_A0B ||| FL_LOADSTORE⟩,
  ⟨119, .lbzux, .Load, FL_OUT_D ||| FL_OUT_A ||| FL_IN_AB ||| FL_LOADSTORE⟩,
  ⟨534, .lwbrx, .Load, FL_OUT_D ||| FL_IN_A0B ||| FL_LOADSTORE⟩,
  ⟨790, .lhbrx, .Load, FL_OUT_D ||| FL_IN_A0B ||| FL_LOADSTORE⟩,
  ⟨150, .stwcxd, .Store, FL_EVIL ||| FL_IN_S ||| FL_IN_A0B ||| FL_SET_CR0 ||| FL_LOADSTORE⟩,
  ⟨20, .lwarx, .Load, FL_EVIL ||| FL_OUT_D ||| FL_IN_A0B ||| FL_SET_CR0 ||| FL_LOADSTORE⟩,
  ⟨533, .lswx, .Load, FL_EVIL ||| FL_IN_A0B ||| FL_OUT_D ||| FL_LOADSTORE⟩,
  ⟨597, .lswi, .Load, FL_EVIL ||| FL_IN_A0 ||| FL_OUT_D ||| FL_LOADSTORE⟩,
  ⟨151, .stwx, .Store, FL_IN_S ||| FL_IN_A0B ||| FL_LOADSTORE⟩,
  ⟨183, .stwux, .Store, FL_IN_S ||| FL_OUT_A ||| FL_IN_AB ||| FL_LOADSTORE⟩,
  ⟨407, .sthx, .Store, FL_IN_S ||| FL_IN_A0B ||| FL_LOADSTORE⟩,
  ⟨439, .sthux, .Store, FL_IN_S ||| FL_OUT_A ||| FL_IN_AB ||| FL_LOADSTORE⟩,
  ⟨215, .stbx, .Store, FL_IN_S ||| FL_IN_A0B ||| FL_LOADSTORE⟩,
  ⟨247, .stbux, .Store, FL_IN_S ||| FL_OUT_A ||| FL_IN_AB ||| FL_LOADSTORE⟩,
  ⟨662, .stwbrx, .Store, FL_IN_S ||| FL_IN_A0B ||| FL_LOADSTORE⟩,
  ⟨918, .sthbrx, .Store, FL_IN_S ||| FL_IN_A0B ||| FL_LOADSTORE⟩,
  ⟨661, .stswx, .Store, FL_EVIL ||| FL_IN_A0B ||| FL_LOADSTORE⟩,
  ⟨725, .stswi, .Store, FL_EVIL ||| FL_IN_A0 ||| FL_LOADSTORE⟩,
  ⟨535, .lfsx, .LoadFP, FL_OUT_FLOAT_D ||| FL_IN_A0B ||| FL_USE_FPU ||| FL_LOADSTORE⟩,
  ⟨567, .lfsux, .LoadFP, FL_OUT_FLOAT_D ||| FL_IN_AB ||| FL_OUT_A ||| FL_USE_FPU ||| FL_LOADSTORE⟩,
  ⟨599, .lfdx, .LoadFP, FL_INOUT_FLOAT_D ||| FL_IN_A0B ||| FL_USE_FPU ||| FL_LOADSTORE⟩,
  ⟨631, .lfdux, .LoadFP, FL_INOUT_FLOAT_D ||| FL_IN_AB ||| FL_OUT_A ||| FL_USE_FPU |||
    FL_LOADSTORE⟩,
  ⟨663, .stfsx, .StoreFP, FL_IN_FLOAT_S ||| FL_IN_A0B ||| FL_USE_FPU ||| FL_LOADSTORE⟩,
  ⟨695, .stfsux, .StoreFP, FL_IN_FLOAT_S ||| FL_IN_AB ||| FL_OUT_A ||| FL_USE_FPU ||| FL_LOADSTORE⟩,
  ⟨727, .stfdx, .StoreFP, FL_IN_FLOAT_S ||| FL_IN_A0B ||| FL_USE_FPU ||| FL_LOADSTORE⟩,
  ⟨759, .stfdux, .StoreFP, FL_IN_FLOAT_S ||| FL_IN_AB ||| FL_OUT_A ||| FL_USE_FPU ||| FL_LOADSTORE⟩,
  ⟨983, .stfiwx, .StoreFP, FL_IN_FLOAT_S ||| FL_IN_A0B ||| FL_USE_FPU ||| FL_LOADSTORE⟩,
  ⟨19, .mfcr, .System, FL_OUT_D⟩,
  ⟨83, .mfmsr, .System, FL_OUT_D⟩,
  ⟨144, .mtcrf, .System, FL_IN_S ||| FL_SET_CRn⟩,
  ⟨146, .mtmsr, .System, FL_IN_S ||| FL_ENDBLOCK⟩,
  ⟨210, .mtsr, .System, FL_IN_S⟩,
  ⟨242, .mtsrin, .System, FL_IN_SB⟩,
  ⟨339, .mfspr, .SPR, FL_OUT_D⟩,
  ⟨467, .mtspr, .SPR, FL_IN_S⟩,
  ⟨371, .mftb, .System, FL_OUT_D ||| FL_TIMER⟩,
  ⟨512, .mcrxr, .System, FL_SET_CRn ||| FL_READ_CA ||| FL_SET_CA⟩,
  ⟨595, .mfsr, .System, FL_OUT_D⟩,
  ⟨659, .mfsrin, .System, FL_OUT_D ||| FL_IN_B⟩,
  ⟨4, .tw, .System, FL_IN_AB ||| FL_ENDBLOCK⟩,
  ⟨598, .sync, .System, 0⟩,
  ⟨982, .icbi, .System, FL_IN_A0B ||| FL_ENDBLOCK ||| FL_LOADSTORE⟩,
  ⟨310, .eciwx, .System, FL_IN_A0B ||| FL_OUT_D ||| FL_LOADSTORE⟩,
  ⟨438, .ecowx, .System, FL_IN_A0B ||| FL_IN_S ||| FL_LOADSTORE⟩,
  ⟨854, .eieio, .System, 0⟩,
  ⟨306, .tlbie, .System, FL_IN_B⟩,
  ⟨566, .tlbsync, .System, 0⟩]

def table59 : List GekkoOPTemplate := [
  ⟨18, .fdivsx, .SingleFP, FL_OUT_FLOAT_D ||| FL_IN_FLOAT_AB ||| FL_RC_BIT_F ||| FL_USE_FPU |||
    FL_SET_FPRF⟩,
  ⟨20, .fsubsx, .SingleFP, FL_OUT_FLOAT_D ||| FL_IN_FLOAT_AB ||| FL_RC_BIT_F ||| FL_USE_FPU |||
    FL_SET_FPRF⟩,
  ⟨21, .faddsx, .SingleFP, FL_OUT_FLOAT_D ||| FL_IN_FLOAT_AB ||| FL_RC_BIT_F ||| FL_USE_FPU |||
    FL_SET_FPRF⟩,
  ⟨24, .fresx, .SingleFP, FL_OUT_FLOAT_D ||| FL_IN_FLOAT_B ||| FL_RC_BIT_F ||| FL_USE_FPU |||
    FL_SET_FPRF⟩,
  ⟨25, .fmulsx, .SingleFP, FL_OUT_FLOAT_D ||| FL_IN_FLOAT_AC ||| FL_RC_BIT_F ||| FL_USE_FPU |||
    FL_SET_FPRF⟩,
  ⟨28, .fmsubsx, .SingleFP, FL_OUT_FLOAT_D ||| FL_IN_FLOAT_ABC ||| FL_RC_BIT_F ||| FL_USE_FPU |||
    FL_SET_FPRF⟩,
  ⟨29, .fmaddsx, .SingleFP, FL_OUT_FLOAT_D ||| FL_IN_FLOAT_ABC ||| FL_RC_BIT_F ||| FL_USE_FPU |||
    FL_SET_FPRF⟩,
  ⟨30, .fnmsubsx, .SingleFP, FL_OUT_FLOAT_D ||| FL_IN_FLOAT_ABC ||| FL_RC_BIT_F ||| FL_USE_FPU |||
    FL_SET_FPRF⟩,
  ⟨31, .fnmaddsx, .SingleFP, FL_OUT_FLOAT_D ||| FL_IN_FLOAT_ABC ||| FL_RC_BIT_F ||| FL_USE_FPU |||
    FL_SET_FPRF⟩]

def table63 : List GekkoOPTemplate := [
  ⟨264, .fabsx, .DoubleFP, FL_INOUT_FLOAT_D ||| FL_IN_FLOAT_B ||| FL_RC_BIT_F ||| FL_USE_FPU⟩,
  ⟨32, .fcmpo, .DoubleFP, FL_IN_FLOAT_AB ||| FL_SET_CRn ||| FL_USE_FPU ||| FL_READ_FPRF |||
    FL_SET_FPRF⟩,
  ⟨0, .fcmpu, .DoubleFP, FL_IN_FLOAT_AB ||| FL_SET_CRn ||| FL_USE_FPU ||| FL_READ_FPRF |||
    FL_SET_FPRF⟩,
  ⟨14, .fctiwx, .DoubleFP, FL_INOUT_FLOAT_D ||| FL_IN_FLOAT_B ||| FL_RC_BIT_F ||| FL_USE_FPU⟩,
  ⟨15, .fctiwzx, .DoubleFP, FL_INOUT_FLOAT_D ||| FL_IN_FLOAT_B ||| FL_RC_BIT_F ||| FL_USE_FPU⟩,
  ⟨72, .fmrx, .DoubleFP, FL_INOUT_FLOAT_D ||| FL_IN_FLOAT_B ||| FL_RC_BIT_F ||| FL_USE_FPU⟩,
  ⟨136, .fnabsx, .DoubleFP, FL_INOUT_FLOAT_D ||| FL_IN_FLOAT_B ||| FL_RC_BIT_F ||| FL_USE_FPU⟩,
  ⟨40, .fnegx, .DoubleFP, FL_INOUT_FLOAT_D ||| FL_IN_FLOAT_B ||| FL_RC_BIT_F ||| FL_USE_FPU⟩,
  ⟨12, .frspx, .DoubleFP, FL_OUT_FLOAT_D ||| FL_IN_FLOAT_B ||| FL_RC_BIT_F ||| FL_USE_FPU |||
    FL_SET_FPRF⟩,
  ⟨64, .mcrfs, .SystemFP, FL_SET_CRn ||| FL_USE_FPU ||| FL_READ_FPRF⟩,
  ⟨583, .mffsx, .SystemFP, FL_RC_BIT_F ||| FL_INOUT_FLOAT_D ||| FL_USE_FPU ||| FL_READ_FPRF⟩,
  ⟨70, .mtfsb0x, .SystemFP, FL_RC_BIT_F ||| FL_USE_FPU ||| FL_READ_FPRF ||| FL_SET_FPRF⟩,
  ⟨38, .mtfsb1x, .SystemFP, FL_RC_BIT_F ||| FL_USE_FPU ||| FL_READ_FPRF ||| FL_SET_FPRF⟩,
  ⟨134, .mtfsfix, .SystemFP, FL_RC_BIT_F ||| FL_USE_FPU ||| FL_READ_FPRF ||| FL_SET_FPRF⟩,
  ⟨711, .mtfsfx, .SystemFP, FL_RC_BIT_F ||| FL_IN_FLOAT_B ||| FL_USE_FPU ||| FL_READ_FPRF |||
    FL_SET_FPRF⟩]

def table63_2 : List GekkoOPTemplate := [
  ⟨18, .fdivx, .DoubleFP, FL_INOUT_FLOAT_D ||| FL_IN_FLOAT_AB ||| FL_RC_BIT_F ||| FL_USE_FPU |||
    FL_SET_FPRF⟩,
  ⟨20, .fsubx, .DoubleFP, FL_INOUT_FLOAT_D ||| FL_IN_FLOAT_AB ||| FL_RC_BIT_F ||| FL_USE_FPU |||
    FL_SET_FPRF⟩,
  ⟨21, .faddx, .DoubleFP, FL_INOUT_FLOAT_D ||| FL_IN_FLOAT_AB ||| FL_RC_BIT_F ||| FL_USE_FPU |||
    FL_SET_FPRF⟩,
  ⟨23, .fselx, .DoubleFP, FL_INOUT_FLOAT_D ||| FL_IN_FLOAT_ABC ||| FL_RC_BIT_F ||| FL_USE_FPU⟩,
  ⟨25, .fmulx, .DoubleFP, FL_INOUT_FLOAT_D ||| FL_IN_FLOAT_AC ||| FL_RC_BIT_F ||| FL_USE_FPU |||
    FL_SET_FPRF⟩,
  ⟨26, .frsqrtex, .DoubleFP, FL_INOUT_FLOAT_D ||| FL_IN_FLOAT_B ||| FL_RC_BIT_F ||| FL_USE_FPU |||
    FL_SET_FPRF⟩,
  ⟨28, .fmsubx, .DoubleFP, FL_INOUT_FLOAT_D ||| FL_IN_FLOAT_ABC ||| FL_RC_BIT_F ||| FL_USE_FPU |||
    FL_SET_FPRF⟩,
  ⟨29, .fmaddx, .DoubleFP, FL_INOUT_FLOAT_D ||| FL_IN_FLOAT_ABC ||| FL_RC_BIT_F ||| FL_USE_FPU |||
    FL_SET_FPRF⟩,
  ⟨30, .fnmsubx, .DoubleFP, FL_INOUT_FLOAT_D ||| FL_IN_FLOAT_ABC ||| FL_RC_BIT_F |||
    FL_USE_FPU ||| FL_SET_FPRF⟩,
  ⟨31, .fnmaddx, .DoubleFP, FL_INOUT_FLOAT_D ||| FL_IN_FLOAT_ABC ||| FL_RC_BIT_F |||
    FL_USE_FPU ||| FL_SET_FPRF⟩]

/-- The row of an opcode. -/
def lookup (table : List GekkoOPTemplate) (opcode : Nat) : Option GekkoOPTemplate :=
  table.find? fun tpl => tpl.opcode = opcode

/-- The row of the table for the primary opcode 4, where later rows replace earlier ones. -/
def entry4 (op : Nat) : GekkoOPTemplate :=
  let found := ((lookup table4 op).or (lookup table4_3 (op % 64))).or (lookup table4_2 (op % 32))
  found.getD unknownop

def entry63 (op : Nat) : GekkoOPTemplate :=
  ((lookup table63_2 (op % 32)).or (lookup table63 op)).getD unknownop

/-- The row of an instruction, which `GetOpInfo` and `GetInterpreterOp` find. -/
def entry (inst : UGeckoInstruction) : GekkoOPTemplate :=
  let info := (lookup primarytable inst.OPCD).getD unknownop
  if info.opinfo.type = .Subtable then
    if inst.OPCD = 4 then entry4 inst.SUBOP10
    else if inst.OPCD = 19 then (lookup table19 inst.SUBOP10).getD unknownop
    else if inst.OPCD = 31 then (lookup table31 inst.SUBOP10).getD unknownop
    else if inst.OPCD = 59 then (lookup table59 inst.SUBOP5).getD unknownop
    else entry63 inst.SUBOP10
  else info

def getOpInfo (inst : UGeckoInstruction) : GekkoOPInfo := (entry inst).opinfo

def getInterpreterOp (inst : UGeckoInstruction) : Instruction := (entry inst).Inst

/-! ## where a row is found -/

theorem of_lookup {table : List GekkoOPTemplate} {opcode : Nat} {tpl : GekkoOPTemplate}
    (h : lookup table opcode = some tpl) : tpl ∈ table ∧ tpl.opcode = opcode := by
  exact ⟨List.mem_of_find?_eq_some h, by simpa using List.find?_some h⟩

theorem lookup_getD (table : List GekkoOPTemplate) (opcode : Nat) :
    (lookup table opcode).getD unknownop = unknownop ∨
      (lookup table opcode).getD unknownop ∈ table ∧
        ((lookup table opcode).getD unknownop).opcode = opcode := by
  cases h : lookup table opcode with
  | none => exact .inl rfl
  | some tpl => exact .inr (of_lookup h)

theorem entry4_cases (op : Nat) :
    entry4 op = unknownop ∨ entry4 op ∈ table4 ++ table4_3 ++ table4_2 := by
  unfold entry4
  cases h : lookup table4 op with
  | some tpl => exact .inr (List.mem_append_left _ (List.mem_append_left _ (of_lookup h).1))
  | none =>
    cases h' : lookup table4_3 (op % 64) with
    | some tpl => exact .inr (List.mem_append_left _ (List.mem_append_right _ (of_lookup h').1))
    | none =>
      obtain h | h := lookup_getD table4_2 (op % 32)
      · exact .inl h
      · exact .inr (List.mem_append_right _ h.1)

theorem entry63_cases (op : Nat) : entry63 op = unknownop ∨ entry63 op ∈ table63_2 ++ table63 := by
  unfold entry63
  cases h : lookup table63_2 (op % 32) with
  | some tpl => exact .inr (List.mem_append_left _ (of_lookup h).1)
  | none =>
    obtain h | h := lookup_getD table63 op
    · exact .inl h
    · exact .inr (List.mem_append_right _ h.1)

/-- The tables that are not for the primary opcode, but for the opcodes 19 and 31. -/
def floatRows : List GekkoOPTemplate :=
  table4 ++ table4_3 ++ table4_2 ++ table59 ++ (table63_2 ++ table63)

/-- Where the row of an instruction is found. -/
inductive Found (inst : UGeckoInstruction) : GekkoOPTemplate → Prop
  | unknown : Found inst unknownop
  | primary (tpl : GekkoOPTemplate) (h : tpl ∈ primarytable) (hop : tpl.opcode = inst.OPCD) :
      Found inst tpl
  | table19 (tpl : GekkoOPTemplate) (h : tpl ∈ table19) (hprimary : inst.OPCD = 19)
      (hop : tpl.opcode = inst.SUBOP10) : Found inst tpl
  | table31 (tpl : GekkoOPTemplate) (h : tpl ∈ table31) (hprimary : inst.OPCD = 31)
      (hop : tpl.opcode = inst.SUBOP10) : Found inst tpl
  | float (tpl : GekkoOPTemplate) (h : tpl ∈ floatRows) : Found inst tpl

theorem found_entry (inst : UGeckoInstruction) : Found inst (entry inst) := by
  unfold entry
  dsimp only
  split
  · split
    · obtain h | h := entry4_cases inst.SUBOP10
      · exact (congrArg (Found inst) h).mpr .unknown
      · exact .float _ (List.mem_append_left _ (List.mem_append_left _ h))
    · split
      · next h19 =>
          obtain h | ⟨h, hop⟩ := lookup_getD PPCTables.table19 inst.SUBOP10
          · exact (congrArg (Found inst) h).mpr .unknown
          · exact .table19 _ h h19 hop
      · split
        · next h31 =>
            obtain h | ⟨h, hop⟩ := lookup_getD PPCTables.table31 inst.SUBOP10
            · exact (congrArg (Found inst) h).mpr .unknown
            · exact .table31 _ h h31 hop
        · split
          · obtain h | ⟨h, -⟩ := lookup_getD table59 inst.SUBOP5
            · exact (congrArg (Found inst) h).mpr .unknown
            · exact .float _ (List.mem_append_left _ (List.mem_append_right _ h))
          · obtain h | h := entry63_cases inst.SUBOP10
            · exact (congrArg (Found inst) h).mpr .unknown
            · exact .float _ (List.mem_append_right _ h)
  · obtain h | ⟨h, hop⟩ := lookup_getD primarytable inst.OPCD
    · exact (congrArg (Found inst) h).mpr .unknown
    · exact .primary _ h hop

/-- Every row, and the one of what is no instruction. -/
def allRows : List GekkoOPTemplate :=
  unknownop :: (primarytable ++ table19 ++ table31 ++ floatRows)

theorem entry_mem_allRows (inst : UGeckoInstruction) : entry inst ∈ allRows := by
  have hfound := found_entry inst
  generalize entry inst = tpl at hfound ⊢
  cases hfound with
  | unknown => exact List.mem_cons_self
  | primary _ h _ => simp [allRows, h]
  | table19 _ h _ _ => simp [allRows, h]
  | table31 _ h _ _ => simp [allRows, h]
  | float _ h => simp [allRows, h]

end PPCTables

end DolphinCore
