import DolphinCore.DSP.Analyzer
import DolphinCore.DSP.Branch

/-!
# DolphinCore.DSP.Interpreter

The interpreter (`DSPInterpreter.cpp`) and the exceptions of the core
(`DSPCore.cpp`).

Every function takes whether the flag update at the end of an instruction is
carried out: the interpreter always does, the recompiler asks the analysis.
-/

namespace DolphinCore.DSP

/-! ## functions -/

def ArithFunc.exec (f : ArithFunc) (opc : BitVec 16) (r : Regs) : Regs × SRUpdate :=
  match f with
  | .clr => Interpreter.clr opc r
  | .clrl => Interpreter.clrl opc r
  | .tst => Interpreter.tst opc r
  | .tstaxh => Interpreter.tstaxh opc r
  | .cmp => Interpreter.cmp opc r
  | .cmpar => Interpreter.cmpar opc r
  | .cmpis => Interpreter.cmpis opc r
  | .xorr => Interpreter.xorr opc r
  | .andr => Interpreter.andr opc r
  | .orr => Interpreter.orr opc r
  | .andc => Interpreter.andc opc r
  | .orc => Interpreter.orc opc r
  | .xorc => Interpreter.xorc opc r
  | .notc => Interpreter.notc opc r
  | .addr => Interpreter.addr opc r
  | .addax => Interpreter.addax opc r
  | .add => Interpreter.add opc r
  | .addp => Interpreter.addp opc r
  | .addaxl => Interpreter.addaxl opc r
  | .addis => Interpreter.addis opc r
  | .incm => Interpreter.incm opc r
  | .inc => Interpreter.inc opc r
  | .subr => Interpreter.subr opc r
  | .subax => Interpreter.subax opc r
  | .sub => Interpreter.sub opc r
  | .subp => Interpreter.subp opc r
  | .decm => Interpreter.decm opc r
  | .dec => Interpreter.dec opc r
  | .neg => Interpreter.neg opc r
  | .abs => Interpreter.abs opc r
  | .movr => Interpreter.movr opc r
  | .movax => Interpreter.movax opc r
  | .mov => Interpreter.mov opc r
  | .lsl16 => Interpreter.lsl16 opc r
  | .lsr16 => Interpreter.lsr16 opc r
  | .asr16 => Interpreter.asr16 opc r
  | .lsl => Interpreter.lsl opc r
  | .lsr => Interpreter.lsr opc r
  | .asl => Interpreter.asl opc r
  | .asr => Interpreter.asr opc r
  | .lsrn => Interpreter.lsrn opc r
  | .asrn => Interpreter.asrn opc r
  | .lsrnrx => Interpreter.lsrnrx opc r
  | .asrnrx => Interpreter.asrnrx opc r
  | .lsrnr => Interpreter.lsrnr opc r
  | .asrnr => Interpreter.asrnr opc r

def ArithImmFunc.exec (f : ArithImmFunc) (opc imm : BitVec 16) (r : Regs) : Regs × SRUpdate :=
  match f with
  | .andcf => Interpreter.andcf opc imm r
  | .andf => Interpreter.andf opc imm r
  | .cmpi => Interpreter.cmpi opc imm r
  | .xori => Interpreter.xori opc imm r
  | .andi => Interpreter.andi opc imm r
  | .ori => Interpreter.ori opc imm r
  | .addi => Interpreter.addi opc imm r

def MultFunc.exec (f : MultFunc) (opc : BitVec 16) (r : Regs) : Regs × SRUpdate :=
  match f with
  | .clrp => Interpreter.clrp opc r
  | .tstprod => Interpreter.tstprod opc r
  | .movp => Interpreter.movp opc r
  | .movnp => Interpreter.movnp opc r
  | .movpz => Interpreter.movpz opc r
  | .addpaxz => Interpreter.addpaxz opc r
  | .mulaxh => Interpreter.mulaxh opc r
  | .mul => Interpreter.mul opc r
  | .mulac => Interpreter.mulac opc r
  | .mulmv => Interpreter.mulmv opc r
  | .mulmvz => Interpreter.mulmvz opc r
  | .mulx => Interpreter.mulx opc r
  | .mulxac => Interpreter.mulxac opc r
  | .mulxmv => Interpreter.mulxmv opc r
  | .mulxmvz => Interpreter.mulxmvz opc r
  | .mulc => Interpreter.mulc opc r
  | .mulcac => Interpreter.mulcac opc r
  | .mulcmv => Interpreter.mulcmv opc r
  | .mulcmvz => Interpreter.mulcmvz opc r
  | .maddx => Interpreter.maddx opc r
  | .msubx => Interpreter.msubx opc r
  | .maddc => Interpreter.maddc opc r
  | .msubc => Interpreter.msubc opc r
  | .madd => Interpreter.madd opc r
  | .msub => Interpreter.msub opc r

def MiscFunc.exec (f : MiscFunc) (opc : BitVec 16) (r : Regs) : Regs :=
  match f with
  | .nx => Interpreter.nx opc r
  | .dar => Interpreter.dar opc r
  | .iar => Interpreter.iar opc r
  | .subarn => Interpreter.subarn opc r
  | .addarn => Interpreter.addarn opc r
  | .sbclr => Interpreter.sbclr opc r
  | .sbset => Interpreter.sbset opc r
  | .srbith => Interpreter.srbith opc r

variable {σ : Type}

def LoadStoreFunc.exec (io : Ifx σ) (f : LoadStoreFunc) (opc : BitVec 16) (s : SDSP σ) : SDSP σ :=
  match f with
  | .mrr => Interpreter.mrr opc s
  | .lri => Interpreter.lri opc s
  | .lris => Interpreter.lris opc s
  | .srs => Interpreter.srs io opc s
  | .lrs => Interpreter.lrs io opc s
  | .lr => Interpreter.lr io opc s
  | .sr => Interpreter.sr io opc s
  | .si => Interpreter.si io opc s
  | .lrr => Interpreter.lrr io opc s
  | .lrrd => Interpreter.lrrd io opc s
  | .lrri => Interpreter.lrri io opc s
  | .lrrn => Interpreter.lrrn io opc s
  | .srr => Interpreter.srr io opc s
  | .srrd => Interpreter.srrd io opc s
  | .srri => Interpreter.srri io opc s
  | .srrn => Interpreter.srrn io opc s
  | .ilrr => Interpreter.ilrr opc s
  | .ilrrd => Interpreter.ilrrd opc s
  | .ilrri => Interpreter.ilrri opc s
  | .ilrrn => Interpreter.ilrrn opc s

def BranchFunc.exec (f : BranchFunc) (opc : BitVec 16) (s : SDSP σ) : SDSP σ :=
  match f with
  | .call => Interpreter.call opc s
  | .callr => Interpreter.callr opc s
  | .ifcc => Interpreter.ifcc opc s
  | .jcc => Interpreter.jcc opc s
  | .jmprcc => Interpreter.jmprcc opc s
  | .ret => Interpreter.ret opc s
  | .rti => Interpreter.rti opc s
  | .halt => Interpreter.halt opc s
  | .loop => Interpreter.loop opc s
  | .loopi => Interpreter.loopi opc s
  | .bloop => Interpreter.bloop opc s
  | .bloopi => Interpreter.bloopi opc s

/-! ## instructions -/

/-- The result of an arithmetic function, with the update where it is needed. -/
def SDSP.withRegs (s : SDSP σ) (needed : Bool) (p : Regs × SRUpdate) : SDSP σ :=
  { s with r := if needed then p.1.updateSR p.2 else p.1 }

def IntFunc.exec (io : Ifx σ) (needed : Bool) (f : IntFunc) (opc : BitVec 16) (s : SDSP σ) :
    SDSP σ :=
  match f with
  | .nop => s
  | .arith f => s.withRegs needed (f.exec opc s.r)
  | .arithImm f =>
    let (imm, s) := s.fetchCode
    s.withRegs needed (f.exec opc imm s.r)
  | .mult f => s.withRegs needed (f.exec opc s.r)
  | .misc f => { s with r := f.exec opc s.r }
  | .loadStore f => f.exec io opc s
  | .branch f => f.exec opc s

def executeInstruction (io : Ifx σ) (needed : Bool) (inst : BitVec 16) (s : SDSP σ) : SDSP σ :=
  let opcode := getOpTemplate inst
  let s := if opcode.extended then (getExtFunc inst).exec io inst s else s
  let s := opcode.intFunc.exec io needed inst s
  if opcode.extended then s.applyWriteBackLog else s

theorem executeInstruction_eq {io : Ifx σ} {needed : Bool} {inst : BitVec 16} {s : SDSP σ}
    {f : IntFunc} (hext : (getOpTemplate inst).extended = false)
    (hf : (getOpTemplate inst).intFunc = f) :
    executeInstruction io needed inst s = f.exec io needed inst s := by
  simp [executeInstruction, hext, hf]

theorem executeInstruction_extended_eq {io : Ifx σ} {needed : Bool} {inst : BitVec 16}
    {s : SDSP σ} {f : IntFunc} {g : ExtFunc} (hext : (getOpTemplate inst).extended = true)
    (hf : (getOpTemplate inst).intFunc = f) (hg : getExtFunc inst = g) :
    executeInstruction io needed inst s =
      (f.exec io needed inst (g.exec io inst s)).applyWriteBackLog := by
  simp [executeInstruction, hext, hf, hg]

namespace SDSP

/-! ## exceptions -/

def EXP_INT : Nat := 7

/-- The exception that is served first: only `EXP_INT` is not masked. -/
def pendingException (s : SDSP σ) : Option Nat :=
  [7, 6, 5, 4, 3, 2, 1].find? fun i =>
    s.mem.exceptions.getLsbD i && (s.r.isFlagSet SR_INT_ENABLE || i == EXP_INT)

/-- `DSPCore_CheckExceptions`. -/
def checkExceptions (s : SDSP σ) : SDSP σ :=
  match s.pendingException with
  | none => s
  | some i =>
    -- store pc and sr until RTI
    let s := (s.regStoreStack Call s.pc).regStoreStack Data s.r.sr
    { s with
      pc := BitVec.ofNat 16 (i * 2)
      mem := { s.mem with exceptions := s.mem.exceptions &&& ~~~((1 : BitVec 8) <<< i) }
      r := { s.r with sr := s.r.sr &&&
        ~~~(if i = EXP_INT then SR_EXT_INT_ENABLE else SR_INT_ENABLE) } }

/-- `DSPCore_CheckExternalInterrupt`. -/
def checkExternalInterrupt (s : SDSP σ) : SDSP σ :=
  if s.r.isFlagSet SR_EXT_INT_ENABLE then
    { s with
      mem := { s.mem with exceptions := s.mem.exceptions ||| ((1 : BitVec 8) <<< EXP_INT) }
      cr := s.cr &&& ~~~0x0002 }
  else s

/-! ## steps -/

/-- `GetCodeFlags`: the analysis is run again whenever code is loaded. -/
def codeFlags (s : SDSP σ) : CodeMap := analyze s.mem.imemRead

/-- `HandleLoop` at the addresses where the analysis saw a loop end. -/
def handleLoopAtEnd (s : SDSP σ) : SDSP σ :=
  if (s.codeFlags (s.pc - 1)).loopEnd then Interpreter.handleLoop s else s

/-- `Step`, with the flag updates carried out where `needed` says. -/
def stepWith (io : Ifx σ) (needed : SDSP σ → Bool) (s : SDSP σ) : SDSP σ :=
  let s := s.checkExceptions
  let upd := needed s
  let (opc, s) := s.fetchCode
  (executeInstruction io upd opc s).handleLoopAtEnd

def step (io : Ifx σ) (s : SDSP σ) : SDSP σ := s.stepWith io fun _ => true

end SDSP

/-- What can happen to the core: a step of its own, or what the CPU does to the
memories and the device, to the control register, or by a reset. -/
inductive CoreEvent (σ : Type) where
  | step
  | device (mem : Mem σ)
  | control (cr : BitVec 16)
  | externalInterrupt
  | reset

def SDSP.event (io : Ifx σ) (s : SDSP σ) : CoreEvent σ → Option (SDSP σ)
  | .step => some (s.step io)
  | .device mem => some { s with mem := mem }
  | .control cr => some { s with cr := cr }
  | .externalInterrupt => some s.checkExternalInterrupt
  | .reset => some s.reset

/-- The registers after `DSPCore_Init`. -/
def Regs.init : Regs where
  ar _ := 0
  ix _ := 0
  wr _ := 0xffff
  st _ := 0
  cr := 0
  sr := SR_INT_ENABLE ||| SR_EXT_INT_ENABLE
  prod := ⟨0, 0, 0, 0⟩
  ax _ := ⟨0, 0⟩
  ac _ := ⟨0, 0, 0⟩

/-- The core after `DSPCore_Init` and `DSPCore_Reset`, with the memories given. -/
def SDSP.init (mem : Mem σ) : SDSP σ where
  r := Regs.init
  pc := 0x8000
  cr := 0x804
  regStackPtr _ := 0
  regStack _ _ := 0
  writeBackLog _ := 0
  writeBackLogIdx _ := none
  mem := mem

end DolphinCore.DSP
