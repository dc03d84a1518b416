import DolphinCore.DSP.Multiplier

/-!
# DolphinCore.DSP.Tables

The opcode tables (`DSPTables.cpp`): for each pattern of opcodes the
interpreter's function, its size in words, and what the analysis asks of it.
The tables are searched from the front, as `InitInstructionTable` does.
-/

namespace DolphinCore.DSP

/-! ## interpreter functions -/

/-- The functions of `DSPIntArithmetic.cpp` of one word. -/
inductive ArithFunc where
  | clr | clrl | tst | tstaxh | cmp | cmpar | cmpis | xorr | andr | orr | andc | orc | xorc
  | notc | addr | addax | add | addp | addaxl | addis | incm | inc | subr | subax | sub | subp
  | decm | dec | neg | abs | movr | movax | mov | lsl16 | lsr16 | asr16 | lsl | lsr | asl | asr
  | lsrn | asrn | lsrnrx | asrnrx | lsrnr | asrnr
  deriving DecidableEq

/-- Those that fetch an immediate. -/
inductive ArithImmFunc where
  | andcf | andf | cmpi | xori | andi | ori | addi
  deriving DecidableEq

/-- The functions of `DSPIntMultiplier.cpp`. -/
inductive MultFunc where
  | clrp | tstprod | movp | movnp | movpz | addpaxz | mulaxh | mul | mulac | mulmv | mulmvz
  | mulx | mulxac | mulxmv | mulxmvz | mulc | mulcac | mulcmv | mulcmvz | maddx | msubx | maddc
  | msubc | madd | msub
  deriving DecidableEq

/-- The functions of `DSPIntMisc.cpp` on addressing registers and the status register. -/
inductive MiscFunc where
  | nx | dar | iar | subarn | addarn | sbclr | sbset | srbith
  deriving DecidableEq

/-- The register moves of `DSPIntMisc.cpp` and the functions of `DSPIntLoadStore.cpp`. -/
inductive LoadStoreFunc where
  | mrr | lri | lris | srs | lrs | lr | sr | si | lrr | lrrd | lrri | lrrn | srr | srrd | srri
  | srrn | ilrr | ilrrd | ilrri | ilrrn
  deriving DecidableEq

/-- The functions of `DSPIntBranch.cpp`. -/
inductive BranchFunc where
  | call | callr | ifcc | jcc | jmprcc | ret | rti | halt | loop | loopi | bloop | bloopi
  deriving DecidableEq

/-- `InterpreterFunction`. -/
inductive IntFunc where
  | nop
  | arith (f : ArithFunc)
  | arithImm (f : ArithImmFunc)
  | mult (f : MultFunc)
  | misc (f : MiscFunc)
  | loadStore (f : LoadStoreFunc)
  | branch (f : BranchFunc)
  deriving DecidableEq

/-- The functions of `DSPIntExtOps.cpp`, and what an unknown extension runs. -/
inductive ExtFunc where
  | cw | nop | dr | ir | nr | mv | s | sn | l | ln | ls | sl | lsn | sln | lsm | slm | lsnm
  | slnm | ldax | ldaxn | ldaxm | ldaxnm | ld | ldn | ldm | ldnm
  deriving DecidableEq

/-! ## templates -/

/-- `DSPOPCTemplate`, without the parameters of the assembler. -/
structure OpTemplate where
  name : String
  opcode : BitVec 16
  opcodeMask : BitVec 16
  intFunc : IntFunc
  size : Nat
  extended : Bool
  branch : Bool
  uncondBranch : Bool
  updatesSr : Bool

/-- A template of the extension table. -/
structure ExtTemplate where
  name : String
  opcode : BitVec 16
  opcodeMask : BitVec 16
  intFunc : ExtFunc

/-- What an opcode without a template runs. -/
def cw : OpTemplate := ⟨"CW", 0x0000, 0x0000, .nop, 1, false, false, false, false⟩

/-- `s_opcodes`. The flags are: extendable, branch, unconditional, updates SR. -/
def sOpcodes : List OpTemplate := [
  ⟨"NOP", 0x0000, 0xfffc, .nop, 1, false, false, false, false⟩,
  ⟨"DAR", 0x0004, 0xfffc, .misc .dar, 1, false, false, false, false⟩,
  ⟨"IAR", 0x0008, 0xfffc, .misc .iar, 1, false, false, false, false⟩,
  ⟨"SUBARN", 0x000c, 0xfffc, .misc .subarn, 1, false, false, false, false⟩,
  ⟨"ADDARN", 0x0010, 0xfff0, .misc .addarn, 1, false, false, false, false⟩,
  ⟨"HALT", 0x0021, 0xffff, .branch .halt, 1, false, true, true, false⟩,
  ⟨"RETGE", 0x02d0, 0xffff, .branch .ret, 1, false, true, false, false⟩,
  ⟨"RETL", 0x02d1, 0xffff, .branch .ret, 1, false, true, false, false⟩,
  ⟨"RETG", 0x02d2, 0xffff, .branch .ret, 1, false, true, false, false⟩,
  ⟨"RETLE", 0x02d3, 0xffff, .branch .ret, 1, false, true, false, false⟩,
  ⟨"RETNZ", 0x02d4, 0xffff, .branch .ret, 1, false, true, false, false⟩,
  ⟨"RETZ", 0x02d5, 0xffff, .branch .ret, 1, false, true, false, false⟩,
  ⟨"RETNC", 0x02d6, 0xffff, .branch .ret, 1, false, true, false, false⟩,
  ⟨"RETC", 0x02d7, 0xffff, .branch .ret, 1, false, true, false, false⟩,
  ⟨"RETx8", 0x02d8, 0xffff, .branch .ret, 1, false, true, false, false⟩,
  ⟨"RETx9", 0x02d9, 0xffff, .branch .ret, 1, false, true, false, false⟩,
  ⟨"RETxA", 0x02da, 0xffff, .branch .ret, 1, false, true, false, false⟩,
  ⟨"RETxB", 0x02db, 0xffff, .branch .ret, 1, false, true, false, false⟩,
  ⟨"RETLNZ", 0x02dc, 0xffff, .branch .ret, 1, false, true, false, false⟩,
  ⟨"RETLZ", 0x02dd, 0xffff, .branch .ret, 1, false, true, false, false⟩,
  ⟨"RETO", 0x02de, 0xffff, .branch .ret, 1, false, true, false, false⟩,
  ⟨"RET", 0x02df, 0xffff, .branch .ret, 1, false, true, true, false⟩,
  ⟨"RTI", 0x02ff, 0xffff, .branch .rti, 1, false, true, true, false⟩,
  ⟨"CALLGE", 0x02b0, 0xffff, .branch .call, 2, false, true, false, false⟩,
  ⟨"CALLL", 0x02b1, 0xffff, .branch .call, 2, false, true, false, false⟩,
  ⟨"CALLG", 0x02b2, 0xffff, .branch .call, 2, false, true, false, false⟩,
  ⟨"CALLLE", 0x02b3, 0xffff, .branch .call, 2, false, true, false, false⟩,
  ⟨"CALLNZ", 0x02b4, 0xffff, .branch .call, 2, false, true, false, false⟩,
  ⟨"CALLZ", 0x02b5, 0xffff, .branch .call, 2, false, true, false, false⟩,
  ⟨"CALLNC", 0x02b6, 0xffff, .branch .call, 2, false, true, false, false⟩,
  ⟨"CALLC", 0x02b7, 0xffff, .branch .call, 2, false, true, false, false⟩,
  ⟨"CALLx8", 0x02b8, 0xffff, .branch .call, 2, false, true, false, false⟩,
  ⟨"CALLx9", 0x02b9, 0xffff, .branch .call, 2, false, true, false, false⟩,
  ⟨"CALLxA", 0x02ba, 0xffff, .branch .call, 2, false, true, false, false⟩,
  ⟨"CALLxB", 0x02bb, 0xffff, .branch .call, 2, false, true, false, false⟩,
  ⟨"CALLLNZ", 0x02bc, 0xffff, .branch .call, 2, false, true, false, false⟩,
  ⟨"CALLLZ", 0x02bd, 0xffff, .branch .call, 2, false, true, false, false⟩,
  ⟨"CALLO", 0x02be, 0xffff, .branch .call, 2, false, true, false, false⟩,
  ⟨"CALL", 0x02bf, 0xffff, .branch .call, 2, false, true, true, false⟩,
  ⟨"IFGE", 0x0270, 0xffff, .branch .ifcc, 1, false, true, false, false⟩,
  ⟨"IFL", 0x0271, 0xffff, .branch .ifcc, 1, false, true, false, false⟩,
  ⟨"IFG", 0x0272, 0xffff, .branch .ifcc, 1, false, true, false, false⟩,
  ⟨"IFLE", 0x0273, 0xffff, .branch .ifcc, 1, false, true, false, false⟩,
  ⟨"IFNZ", 0x0274, 0xffff, .branch .ifcc, 1, false, true, false, false⟩,
  ⟨"IFZ", 0x0275, 0xffff, .branch .ifcc, 1, false, true, false, false⟩,
  ⟨"IFNC", 0x0276, 0xffff, .branch .ifcc, 1, false, true, false, false⟩,
  ⟨"IFC", 0x0277, 0xffff, .branch .ifcc, 1, false, true, false, false⟩,
  ⟨"IFx8", 0x0278, 0xffff, .branch .ifcc, 1, false, true, false, false⟩,
  ⟨"IFx9", 0x0279, 0xffff, .branch .ifcc, 1, false, true, false, false⟩,
  ⟨"IFxA", 0x027a, 0xffff, .branch .ifcc, 1, false, true, false, false⟩,
  ⟨"IFxB", 0x027b, 0xffff, .branch .ifcc, 1, false, true, false, false⟩,
  ⟨"IFLNZ", 0x027c, 0xffff, .branch .ifcc, 1, false, true, false, false⟩,
  ⟨"IFLZ", 0x027d, 0xffff, .branch .ifcc, 1, false, true, false, false⟩,
  ⟨"IFO", 0x027e, 0xffff, .branch .ifcc, 1, false, true, false, false⟩,
  ⟨"IF", 0x027f, 0xffff, .branch .ifcc, 1, false, true, true, false⟩,
  ⟨"JGE", 0x0290, 0xffff, .branch .jcc, 2, false, true, false, false⟩,
  ⟨"JL", 0x0291, 0xffff, .branch .jcc, 2, false, true, false, false⟩,
  ⟨"JG", 0x0292, 0xffff, .branch .jcc, 2, false, true, false, false⟩,
  ⟨"JLE", 0x0293, 0xffff, .branch .jcc, 2, false, true, false, false⟩,
  ⟨"JNZ", 0x0294, 0xffff, .branch .jcc, 2, false, true, false, false⟩,
  ⟨"JZ", 0x0295, 0xffff, .branch .jcc, 2, false, true, false, false⟩,
  ⟨"JNC", 0x0296, 0xffff, .branch .jcc, 2, false, true, false, false⟩,
  ⟨"JC", 0x0297, 0xffff, .branch .jcc, 2, false, true, false, false⟩,
  ⟨"JMPx8", 0x0298, 0xffff, .branch .jcc, 2, false, true, false, false⟩,
  ⟨"JMPx9", 0x0299, 0xffff, .branch .jcc, 2, false, true, false, false⟩,
  ⟨"JMPxA", 0x029a, 0xffff, .branch .jcc, 2, false, true, false, false⟩,
  ⟨"JMPxB", 0x029b, 0xffff, .branch .jcc, 2, false, true, false, false⟩,
  ⟨"JLNZ", 0x029c, 0xffff, .branch .jcc, 2, false, true, false, false⟩,
  ⟨"JLZ", 0x029d, 0xffff, .branch .jcc, 2, false, true, false, false⟩,
  ⟨"JO", 0x029e, 0xffff, .branch .jcc, 2, false, true, false, false⟩,
  ⟨"JMP", 0x029f, 0xffff, .branch .jcc, 2, false, true, true, false⟩,
  ⟨"JRGE", 0x1700, 0xff1f, .branch .jmprcc, 1, false, true, false, false⟩,
  ⟨"JRL", 0x1701, 0xff1f, .branch .jmprcc, 1, false, true, false, false⟩,
  ⟨"JRG", 0x1702, 0xff1f, .branch .jmprcc, 1, false, true, false, false⟩,
  ⟨"JRLE", 0x1703, 0xff1f, .branch .jmprcc, 1, false, true, false, false⟩,
  ⟨"JRNZ", 0x1704, 0xff1f, .branch .jmprcc, 1, false, true, false, false⟩,
  ⟨"JRZ", 0x1705, 0xff1f, .branch .jmprcc, 1, false, true, false, false⟩,
  ⟨"JRNC", 0x1706, 0xff1f, .branch .jmprcc, 1, false, true, false, false⟩,
  ⟨"JRC", 0x1707, 0xff1f, .branch .jmprcc, 1, false, true, false, false⟩,
  ⟨"JMPRx8", 0x1708, 0xff1f, .branch .jmprcc, 1, false, true, false, false⟩,
  ⟨"JMPRx9", 0x1709, 0xff1f, .branch .jmprcc, 1, false, true, false, false⟩,
  ⟨"JMPRxA", 0x170a, 0xff1f, .branch .jmprcc, 1, false, true, false, false⟩,
  ⟨"JMPRxB", 0x170b, 0xff1f, .branch .jmprcc, 1, false, true, false, false⟩,
  ⟨"JRLNZ", 0x170c, 0xff1f, .branch .jmprcc, 1, false, true, false, false⟩,
  ⟨"JRLZ", 0x170d, 0xff1f, .branch .jmprcc, 1, false, true, false, false⟩,
  ⟨"JRO", 0x170e, 0xff1f, .branch .jmprcc, 1, false, true, false, false⟩,
  ⟨"JMPR", 0x170f, 0xff1f, .branch .jmprcc, 1, false, true, true, false⟩,
  ⟨"CALLRGE", 0x1710, 0xff1f, .branch .callr, 1, false, true, false, false⟩,
  ⟨"CALLRL", 0x1711, 0xff1f, .branch .callr, 1, false, true, false, false⟩,
  ⟨"CALLRG", 0x1712, 0xff1f, .branch .callr, 1, false, true, false, false⟩,
  ⟨"CALLRLE", 0x1713, 0xff1f, .branch .callr, 1, false, true, false, false⟩,
  ⟨"CALLRNZ", 0x1714, 0xff1f, .branch .callr, 1, false, true, false, false⟩,
  ⟨"CALLRZ", 0x1715, 0xff1f, .branch .callr, 1, false, true, false, false⟩,
  ⟨"CALLRNC", 0x1716, 0xff1f, .branch .callr, 1, false, true, false, false⟩,
  ⟨"CALLRC", 0x1717, 0xff1f, .branch .callr, 1, false, true, false, false⟩,
  ⟨"CALLRx8", 0x1718, 0xff1f, .branch .callr, 1, false, true, false, false⟩,
  ⟨"CALLRx9", 0x1719, 0xff1f, .branch .callr, 1, false, true, false, false⟩,
  ⟨"CALLRxA", 0x171a, 0xff1f, .branch .callr, 1, false, true, false, false⟩,
  ⟨"CALLRxB", 0x171b, 0xff1f, .branch .callr, 1, false, true, false, false⟩,
  ⟨"CALLRLNZ", 0x171c, 0xff1f, .branch .callr, 1, false, true, false, false⟩,
  ⟨"CALLRLZ", 0x171d, 0xff1f, .branch .callr, 1, false, true, false, false⟩,
  ⟨"CALLRO", 0x171e, 0xff1f, .branch .callr, 1, false, true, false, false⟩,
  ⟨"CALLR", 0x171f, 0xff1f, .branch .callr, 1, false, true, true, false⟩,
  ⟨"SBCLR", 0x1200, 0xff00, .misc .sbclr, 1, false, false, false, false⟩,
  ⟨"SBSET", 0x1300, 0xff00, .misc .sbset, 1, false, false, false, false⟩,
  ⟨"LSL", 0x1400, 0xfec0, .arith .lsl, 1, false, false, false, true⟩,
  ⟨"LSR", 0x1440, 0xfec0, .arith .lsr, 1, false, false, false, true⟩,
  ⟨"ASL", 0x1480, 0xfec0, .arith .asl, 1, false, false, false, true⟩,
  ⟨"ASR", 0x14c0, 0xfec0, .arith .asr, 1, false, false, false, true⟩,
  ⟨"LSRN", 0x02ca, 0xffff, .arith .lsrn, 1, false, false, false, true⟩,
  ⟨"ASRN", 0x02cb, 0xffff, .arith .asrn, 1, false, false, false, true⟩,
  ⟨"LRI", 0x0080, 0xffe0, .loadStore .lri, 2, false, false, false, false⟩,
  ⟨"LR", 0x00c0, 0xffe0, .loadStore .lr, 2, false, false, false, false⟩,
  ⟨"SR", 0x00e0, 0xffe0, .loadStore .sr, 2, false, false, false, false⟩,
  ⟨"MRR", 0x1c00, 0xfc00, .loadStore .mrr, 1, false, false, false, false⟩,
  ⟨"SI", 0x1600, 0xff00, .loadStore .si, 2, false, false, false, false⟩,
  ⟨"ADDIS", 0x0400, 0xfe00, .arith .addis, 1, false, false, false, true⟩,
  ⟨"CMPIS", 0x0600, 0xfe00, .arith .cmpis, 1, false, false, false, true⟩,
  ⟨"LRIS", 0x0800, 0xf800, .loadStore .lris, 1, false, false, false, true⟩,
  ⟨"ADDI", 0x0200, 0xfeff, .arithImm .addi, 2, false, false, false, true⟩,
  ⟨"XORI", 0x0220, 0xfeff, .arithImm .xori, 2, false, false, false, true⟩,
  ⟨"ANDI", 0x0240, 0xfeff, .arithImm .andi, 2, false, false, false, true⟩,
  ⟨"ORI", 0x0260, 0xfeff, .arithImm .ori, 2, false, false, false, true⟩,
  ⟨"CMPI", 0x0280, 0xfeff, .arithImm .cmpi, 2, false, false, false, true⟩,
  ⟨"ANDF", 0x02a0, 0xfeff, .arithImm .andf, 2, false, false, false, true⟩,
  ⟨"ANDCF", 0x02c0, 0xfeff, .arithImm .andcf, 2, false, false, false, true⟩,
  ⟨"ILRR", 0x0210, 0xfefc, .loadStore .ilrr, 1, false, false, false, false⟩,
  ⟨"ILRRD", 0x0214, 0xfefc, .loadStore .ilrrd, 1, false, false, false, false⟩,
  ⟨"ILRRI", 0x0218, 0xfefc, .loadStore .ilrri, 1, false, false, false, false⟩,
  ⟨"ILRRN", 0x021c, 0xfefc, .loadStore .ilrrn, 1, false, false, false, false⟩,
  ⟨"LOOP", 0x0040, 0xffe0, .branch .loop, 1, false, true, true, false⟩,
  ⟨"BLOOP", 0x0060, 0xffe0, .branch .bloop, 2, false, true, true, false⟩,
  ⟨"LOOPI", 0x1000, 0xff00, .branch .loopi, 1, false, true, true, false⟩,
  ⟨"BLOOPI", 0x1100, 0xff00, .branch .bloopi, 2, false, true, true, false⟩,
  ⟨"LRR", 0x1800, 0xff80, .loadStore .lrr, 1, false, false, false, false⟩,
  ⟨"LRRD", 0x1880, 0xff80, .loadStore .lrrd, 1, false, false, false, false⟩,
  ⟨"LRRI", 0x1900, 0xff80, .loadStore .lrri, 1, false, false, false, false⟩,
  ⟨"LRRN", 0x1980, 0xff80, .loadStore .lrrn, 1, false, false, false, false⟩,
  ⟨"SRR", 0x1a00, 0xff80, .loadStore .srr, 1, false, false, false, false⟩,
  ⟨"SRRD", 0x1a80, 0xff80, .loadStore .srrd, 1, false, false, false, false⟩,
  ⟨"SRRI", 0x1b00, 0xff80, .loadStore .srri, 1, false, false, false, false⟩,
  ⟨"SRRN", 0x1b80, 0xff80, .loadStore .srrn, 1, false, false, false, false⟩,
  ⟨"LRS", 0x2000, 0xf800, .loadStore .lrs, 1, false, false, false, false⟩,
  ⟨"SRS", 0x2800, 0xf800, .loadStore .srs, 1, false, false, false, false⟩,
  ⟨"XORR", 0x3000, 0xfc80, .arith .xorr, 1, true, false, false, true⟩,
  ⟨"ANDR", 0x3400, 0xfc80, .arith .andr, 1, true, false, false, true⟩,
  ⟨"ORR", 0x3800, 0xfc80, .arith .orr, 1, true, false, false, true⟩,
  ⟨"ANDC", 0x3c00, 0xfe80, .arith .andc, 1, true, false, false, true⟩,
  ⟨"ORC", 0x3e00, 0xfe80, .arith .orc, 1, true, false, false, true⟩,
  ⟨"XORC", 0x3080, 0xfe80, .arith .xorc, 1, true, false, false, true⟩,
  ⟨"NOT", 0x3280, 0xfe80, .arith .notc, 1, true, false, false, true⟩,
  ⟨"LSRNRX", 0x3480, 0xfc80, .arith .lsrnrx, 1, true, false, false, true⟩,
  ⟨"ASRNRX", 0x3880, 0xfc80, .arith .asrnrx, 1, true, false, false, true⟩,
  ⟨"LSRNR", 0x3c80, 0xfe80, .arith .lsrnr, 1, true, false, false, true⟩,
  ⟨"ASRNR", 0x3e80, 0xfe80, .arith .asrnr, 1, true, false, false, true⟩,
  ⟨"ADDR", 0x4000, 0xf800, .arith .addr, 1, true, false, false, true⟩,
  ⟨"ADDAX", 0x4800, 0xfc00, .arith .addax, 1, true, false, false, true⟩,
  ⟨"ADD", 0x4c00, 0xfe00, .arith .add, 1, true, false, false, true⟩,
  ⟨"ADDP", 0x4e00, 0xfe00, .arith .addp, 1, true, false, false, true⟩,
  ⟨"SUBR", 0x5000, 0xf800, .arith .subr, 1, true, false, false, true⟩,
  ⟨"SUBAX", 0x5800, 0xfc00, .arith .subax, 1, true, false, false, true⟩,
  ⟨"SUB", 0x5c00, 0xfe00, .arith .sub, 1, true, false, false, true⟩,
  ⟨"SUBP", 0x5e00, 0xfe00, .arith .subp, 1, true, false, false, true⟩,
  ⟨"MOVR", 0x6000, 0xf800, .arith .movr, 1, true, false, false, true⟩,
  ⟨"MOVAX", 0x6800, 0xfc00, .arith .movax, 1, true, false, false, true⟩,
  ⟨"MOV", 0x6c00, 0xfe00, .arith .mov, 1, true, false, false, true⟩,
  ⟨"MOVP", 0x6e00, 0xfe00, .mult .movp, 1, true, false, false, true⟩,
  ⟨"ADDAXL", 0x7000, 0xfc00, .arith .addaxl, 1, true, false, false, true⟩,
  ⟨"INCM", 0x7400, 0xfe00, .arith .incm, 1, true, false, false, true⟩,
  ⟨"INC", 0x7600, 0xfe00, .arith .inc, 1, true, false, false, true⟩,
  ⟨"DECM", 0x7800, 0xfe00, .arith .decm, 1, true, false, false, true⟩,
  ⟨"DEC", 0x7a00, 0xfe00, .arith .dec, 1, true, false, false, true⟩,
  ⟨"NEG", 0x7c00, 0xfe00, .arith .neg, 1, true, false, false, true⟩,
  ⟨"MOVNP", 0x7e00, 0xfe00, .mult .movnp, 1, true, false, false, true⟩,
  ⟨"NX", 0x8000, 0xf700, .misc .nx, 1, true, false, false, false⟩,
  ⟨"CLR", 0x8100, 0xf700, .arith .clr, 1, true, false, false, true⟩,
  ⟨"CMP", 0x8200, 0xff00, .arith .cmp, 1, true, false, false, true⟩,
  ⟨"MULAXH", 0x8300, 0xff00, .mult .mulaxh, 1, true, false, false, true⟩,
  ⟨"CLRP", 0x8400, 0xff00, .mult .clrp, 1, true, false, false, true⟩,
  ⟨"TSTPROD", 0x8500, 0xff00, .mult .tstprod, 1, true, false, false, true⟩,
  ⟨"TSTAXH", 0x8600, 0xfe00, .arith .tstaxh, 1, true, false, false, true⟩,
  ⟨"M2", 0x8a00, 0xff00, .misc .srbith, 1, true, false, false, false⟩,
  ⟨"M0", 0x8b00, 0xff00, .misc .srbith, 1, true, false, false, false⟩,
  ⟨"CLR15", 0x8c00, 0xff00, .misc .srbith, 1, true, false, false, false⟩,
  ⟨"SET15", 0x8d00, 0xff00, .misc .srbith, 1, true, false, false, false⟩,
  ⟨"SET16", 0x8e00, 0xff00, .misc .srbith, 1, true, false, false, false⟩,
  ⟨"SET40", 0x8f00, 0xff00, .misc .srbith, 1, true, false, false, false⟩,
  ⟨"MUL", 0x9000, 0xf700, .mult .mul, 1, true, false, false, true⟩,
  ⟨"ASR16", 0x9100, 0xf700, .arith .asr16, 1, true, false, false, true⟩,
  ⟨"MULMVZ", 0x9200, 0xf600, .mult .mulmvz, 1, true, false, false, true⟩,
  ⟨"MULAC", 0x9400, 0xf600, .mult .mulac, 1, true, false, false, true⟩,
  ⟨"MULMV", 0x9600, 0xf600, .mult .mulmv, 1, true, false, false, true⟩,
  ⟨"MULX", 0xa000, 0xe700, .mult .mulx, 1, true, false, false, true⟩,
  ⟨"ABS", 0xa100, 0xf700, .arith .abs, 1, true, false, false, true⟩,
  ⟨"MULXMVZ", 0xa200, 0xe600, .mult .mulxmvz, 1, true, false, false, true⟩,
  ⟨"MULXAC", 0xa400, 0xe600, .mult .mulxac, 1, true, false, false, true⟩,
  ⟨"MULXMV", 0xa600, 0xe600, .mult .mulxmv, 1, true, false, false, true⟩,
  ⟨"TST", 0xb100, 0xf700, .arith .tst, 1, true, false, false, true⟩,
  ⟨"MULC", 0xc000, 0xe700, .mult .mulc, 1, true, false, false, true⟩,
  ⟨"CMPAR", 0xc100, 0xe700, .arith .cmpar, 1, true, false, false, true⟩,
  ⟨"MULCMVZ", 0xc200, 0xe600, .mult .mulcmvz, 1, true, false, false, true⟩,
  ⟨"MULCAC", 0xc400, 0xe600, .mult .mulcac, 1, true, false, false, true⟩,
  ⟨"MULCMV", 0xc600, 0xe600, .mult .mulcmv, 1, true, false, false, true⟩,
  ⟨"MADDX", 0xe000, 0xfc00, .mult .maddx, 1, true, false, false, true⟩,
  ⟨"MSUBX", 0xe400, 0xfc00, .mult .msubx, 1, true, false, false, true⟩,
  ⟨"MADDC", 0xe800, 0xfc00, .mult .maddc, 1, true, false, false, true⟩,
  ⟨"MSUBC", 0xec00, 0xfc00, .mult .msubc, 1, true, false, false, true⟩,
  ⟨"LSL16", 0xf000, 0xfe00, .arith .lsl16, 1, true, false, false, true⟩,
  ⟨"MADD", 0xf200, 0xfe00, .mult .madd, 1, true, false, false, true⟩,
  ⟨"LSR16", 0xf400, 0xfe00, .arith .lsr16, 1, true, false, false, true⟩,
  ⟨"MSUB", 0xf600, 0xfe00, .mult .msub, 1, true, false, false, true⟩,
  ⟨"ADDPAXZ", 0xf800, 0xfc00, .mult .addpaxz, 1, true, false, false, true⟩,
  ⟨"CLRL", 0xfc00, 0xfe00, .arith .clrl, 1, true, false, false, true⟩,
  ⟨"MOVPZ", 0xfe00, 0xfe00, .mult .movpz, 1, true, false, false, true⟩]

def sOpcodesExt : List ExtTemplate := [
  ⟨"XXX", 0x0000, 0x00fc, .nop⟩,
  ⟨"DR", 0x0004, 0x00fc, .dr⟩,
  ⟨"IR", 0x0008, 0x00fc, .ir⟩,
  ⟨"NR", 0x000c, 0x00fc, .nr⟩,
  ⟨"MV", 0x0010, 0x00f0, .mv⟩,
  ⟨"S", 0x0020, 0x00e4, .s⟩,
  ⟨"SN", 0x0024, 0x00e4, .sn⟩,
  ⟨"L", 0x0040, 0x00c4, .l⟩,
  ⟨"LN", 0x0044, 0x00c4, .ln⟩,
  ⟨"LS", 0x0080, 0x00ce, .ls⟩,
  ⟨"SL", 0x0082, 0x00ce, .sl⟩,
  ⟨"LSN", 0x0084, 0x00ce, .lsn⟩,
  ⟨"SLN", 0x0086, 0x00ce, .sln⟩,
  ⟨"LSM", 0x0088, 0x00ce, .lsm⟩,
  ⟨"SLM", 0x008a, 0x00ce, .slm⟩,
  ⟨"LSNM", 0x008c, 0x00ce, .lsnm⟩,
  ⟨"SLNM", 0x008e, 0x00ce, .slnm⟩,
  ⟨"LDAX", 0x00c3, 0x00cf, .ldax⟩,
  ⟨"LDAXN", 0x00c7, 0x00cf, .ldaxn⟩,
  ⟨"LDAXM", 0x00cb, 0x00cf, .ldaxm⟩,
  ⟨"LDAXNM", 0x00cf, 0x00cf, .ldaxnm⟩,
  ⟨"LD", 0x00c0, 0x00cc, .ld⟩,
  ⟨"LDN", 0x00c4, 0x00cc, .ldn⟩,
  ⟨"LDM", 0x00c8, 0x00cc, .ldm⟩,
  ⟨"LDNM", 0x00cc, 0x00cc, .ldnm⟩]

def getOpTemplate (inst : BitVec 16) : OpTemplate :=
  (sOpcodes.find? fun t => inst &&& t.opcodeMask = t.opcode).getD cw

/-- `GetExtOpTemplate`: opcodes `0x3xxx` leave only seven bits to the extension. -/
def getExtFunc (inst : BitVec 16) : ExtFunc :=
  let i := if inst >>> 12 = 0x3 then inst &&& 0x7F else inst &&& 0xFF
  match sOpcodesExt.find? fun t => i &&& t.opcodeMask = t.opcode with
  | some t => t.intFunc
  | none => .cw

/-! ## facts about the table -/

theorem getOpTemplate_mem (inst : BitVec 16) :
    getOpTemplate inst ∈ sOpcodes ∨ getOpTemplate inst = cw := by
  unfold getOpTemplate
  cases h : sOpcodes.find? fun t => inst &&& t.opcodeMask = t.opcode with
  | none => exact .inr rfl
  | some t => exact .inl (List.mem_of_find?_eq_some h)

theorem getOpTemplate_of_forall {p : OpTemplate → Prop} (hrows : ∀ t ∈ sOpcodes, p t) (hcw : p cw)
    (inst : BitVec 16) : p (getOpTemplate inst) := by
  rcases getOpTemplate_mem inst with h | h
  · exact hrows _ h
  · rw [h]
    exact hcw

/-- The functions that only work on registers and fetch nothing. -/
def IntFunc.isParallel : IntFunc → Bool
  | .arith _ => true
  | .mult _ => true
  | .misc .nx => true
  | .misc .srbith => true
  | _ => false

theorem isParallel_of_extended {inst : BitVec 16} (h : (getOpTemplate inst).extended = true) :
    (getOpTemplate inst).intFunc.isParallel = true :=
  getOpTemplate_of_forall (p := fun t => t.extended = true → t.intFunc.isParallel = true)
    (by decide +kernel) (by decide) inst h

end DolphinCore.DSP
