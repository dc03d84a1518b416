import DolphinCore.DSP.Arithmetic

/-!
# DolphinCore.DSP.Multiplier

The instructions of the multiplier (`DSPIntMultiplier.cpp`). Two bits of the
status register select unsigned operands and the doubling of the product.
-/

namespace DolphinCore.DSP.Interpreter

/-! ## multiplication -/

/-- `dsp_get_multiply_prod`. -/
def getMultiplyProd (r : Regs) (a b : BitVec 16) (sign : Nat) : BitVec 64 :=
  let prod :=
    if sign = 1 ∧ r.isFlagSet SR_MUL_UNSIGNED then a.setWidth 64 * b.setWidth 64  -- unsigned
    else if sign = 2 ∧ r.isFlagSet SR_MUL_UNSIGNED then
      a.setWidth 64 * b.signExtend 64  -- mixed
    else a.signExtend 64 * b.signExtend 64  -- signed
  -- Conditionally multiply by 2.
  if r.isFlagSet SR_MUL_MODIFY then prod else prod <<< 1

/-- `dsp_multiply`, `dsp_multiply_add` and `dsp_multiply_sub`. -/
def multiply (r : Regs) (a b : BitVec 16) (sign : Nat) : BitVec 64 := getMultiplyProd r a b sign

def multiplyAdd (r : Regs) (a b : BitVec 16) : BitVec 64 :=
  r.getLongProd + getMultiplyProd r a b 0

def multiplySub (r : Regs) (a b : BitVec 16) : BitVec 64 :=
  r.getLongProd - getMultiplyProd r a b 0

/-- `dsp_multiply_mulx`. -/
def multiplyMulx (r : Regs) (axh0 axh1 : Fin 2) (val1 val2 : BitVec 16) : BitVec 64 :=
  if axh0 = 0 ∧ axh1 = 0 then multiply r val1 val2 1
  else if axh0 = 0 ∧ axh1 = 1 then multiply r val1 val2 2
  else if axh0 = 1 ∧ axh1 = 0 then multiply r val2 val1 2
  else multiply r val1 val2 0

/-! ## families -/

/-- Stores the product only. -/
def storeProd (r : Regs) (prod : BitVec 64) : Regs × SRUpdate := (r.setLongProd prod, .none)

/-- Stores the product and an accumulator, with the flags of the accumulator. -/
def storeProdAcc (r : Regs) (d : Fin 2) (prod acc : BitVec 64) : Regs × SRUpdate :=
  storeAccReread (r.setLongProd prod) d acc

/-- The product `mul` computes. -/
def mulProd (opc : BitVec 16) (r : Regs) : BitVec 64 :=
  multiply r (r.ax (bit1 opc 11)).l (r.ax (bit1 opc 11)).h 0

/-- The operand of `ax` that `mulx` and its relatives select. -/
def axSelect (r : Regs) (i sel : Fin 2) : BitVec 16 := if sel = 0 then (r.ax i).l else (r.ax i).h

/-- The product `mulx` computes. -/
def mulxProd (opc : BitVec 16) (r : Regs) : BitVec 64 :=
  let treg := bit1 opc 11
  let sreg := bit1 opc 12
  multiplyMulx r sreg treg (axSelect r 0 sreg) (axSelect r 1 treg)

/-- The product `mulc` computes. -/
def mulcProd (opc : BitVec 16) (r : Regs) : BitVec 64 :=
  multiply r (r.ac (bit1 opc 12)).m (r.ax (bit1 opc 11)).h 0

/-! ## product -/

def clrp (_opc : BitVec 16) (r : Regs) : Regs × SRUpdate :=
  ({ r with prod := ⟨0x0000, 0xfff0, 0x00ff, 0x0010⟩ }, .none)

def tstprod (_opc : BitVec 16) (r : Regs) : Regs × SRUpdate :=
  (r, .register64 r.getLongProd false false)

def movp (opc : BitVec 16) (r : Regs) : Regs × SRUpdate :=
  storeAcc r (bit1 opc 8) r.getLongProd

def movnp (opc : BitVec 16) (r : Regs) : Regs × SRUpdate :=
  storeAcc r (bit1 opc 8) (-r.getLongProd)

def movpz (opc : BitVec 16) (r : Regs) : Regs × SRUpdate :=
  storeAcc r (bit1 opc 8) r.getLongProdRoundProdl

def addpaxz (opc : BitVec 16) (r : Regs) : Regs × SRUpdate :=
  let d := bit1 opc 8
  let oldprod := r.getLongProd
  let r' := r.setLongAcc d
    (r.getLongProdRoundProdl + (r.getLongAcx (bit1 opc 9) &&& ~~~0xffff))
  let res := r'.getLongAcc d
  (r', .register64 res (isCarry oldprod res) false)

/-! ## multiply -/

def mulaxh (_opc : BitVec 16) (r : Regs) : Regs × SRUpdate :=
  storeProd r (multiply r (r.ax 0).h (r.ax 0).h 0)

def mul (opc : BitVec 16) (r : Regs) : Regs × SRUpdate :=
  storeProd r (multiply r (r.ax (bit1 opc 11)).h (r.ax (bit1 opc 11)).l 0)

def mulac (opc : BitVec 16) (r : Regs) : Regs × SRUpdate :=
  let d := bit1 opc 8
  storeProdAcc r d (mulProd opc r) (r.getLongAcc d + r.getLongProd)

def mulmv (opc : BitVec 16) (r : Regs) : Regs × SRUpdate :=
  storeProdAcc r (bit1 opc 8) (mulProd opc r) r.getLongProd

def mulmvz (opc : BitVec 16) (r : Regs) : Regs × SRUpdate :=
  storeProdAcc r (bit1 opc 8) (mulProd opc r) r.getLongProdRoundProdl

def mulx (opc : BitVec 16) (r : Regs) : Regs × SRUpdate := storeProd r (mulxProd opc r)

def mulxac (opc : BitVec 16) (r : Regs) : Regs × SRUpdate :=
  let d := bit1 opc 8
  storeProdAcc r d (mulxProd opc r) (r.getLongAcc d + r.getLongProd)

def mulxmv (opc : BitVec 16) (r : Regs) : Regs × SRUpdate :=
  storeProdAcc r (bit1 opc 8) (mulxProd opc r) r.getLongProd

def mulxmvz (opc : BitVec 16) (r : Regs) : Regs × SRUpdate :=
  storeProdAcc r (bit1 opc 8) (mulxProd opc r) r.getLongProdRoundProdl

def mulc (opc : BitVec 16) (r : Regs) : Regs × SRUpdate := storeProd r (mulcProd opc r)

def mulcac (opc : BitVec 16) (r : Regs) : Regs × SRUpdate :=
  let d := bit1 opc 8
  storeProdAcc r d (mulcProd opc r) (r.getLongAcc d + r.getLongProd)

def mulcmv (opc : BitVec 16) (r : Regs) : Regs × SRUpdate :=
  storeProdAcc r (bit1 opc 8) (mulcProd opc r) r.getLongProd

def mulcmvz (opc : BitVec 16) (r : Regs) : Regs × SRUpdate :=
  storeProdAcc r (bit1 opc 8) (mulcProd opc r) r.getLongProdRoundProdl

/-! ## multiply and accumulate in the product -/

def maddx (opc : BitVec 16) (r : Regs) : Regs × SRUpdate :=
  storeProd r (multiplyAdd r (axSelect r 0 (bit1 opc 9)) (axSelect r 1 (bit1 opc 8)))

def msubx (opc : BitVec 16) (r : Regs) : Regs × SRUpdate :=
  storeProd r (multiplySub r (axSelect r 0 (bit1 opc 9)) (axSelect r 1 (bit1 opc 8)))

def maddc (opc : BitVec 16) (r : Regs) : Regs × SRUpdate :=
  storeProd r (multiplyAdd r (r.ac (bit1 opc 9)).m (r.ax (bit1 opc 8)).h)

def msubc (opc : BitVec 16) (r : Regs) : Regs × SRUpdate :=
  storeProd r (multiplySub r (r.ac (bit1 opc 9)).m (r.ax (bit1 opc 8)).h)

def madd (opc : BitVec 16) (r : Regs) : Regs × SRUpdate :=
  storeProd r (multiplyAdd r (r.ax (bit1 opc 8)).l (r.ax (bit1 opc 8)).h)

def msub (opc : BitVec 16) (r : Regs) : Regs × SRUpdate :=
  storeProd r (multiplySub r (r.ax (bit1 opc 8)).l (r.ax (bit1 opc 8)).h)

end DolphinCore.DSP.Interpreter
