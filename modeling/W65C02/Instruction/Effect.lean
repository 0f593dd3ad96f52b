import W65C02.Instruction.Arithmetic
import W65C02.Instruction.Execution

/-!
# The effect of each operation

One function says what every operation does once its effective address is known. Results
that the negative and zero flags are to describe are left with the instruction in flight;
everything else takes effect at once.
-/

namespace W65C02

namespace Execution

variable {β : Type} [Bus β]

/-- Combines the accumulator with the operand; the result goes to the accumulator. -/
def accumulate (e : Execution β) (mode : AddressingMode)
    (f : Registers → UInt8 → UInt8 × Registers) : Execution β :=
  let (value, e) := e.operandValue mode
  let (result, regs) := f e.regs value
  { e with regs := { regs with a := result } }.deferNZ result

/-- Compares a register with the operand. -/
def compareWith (e : Execution β) (mode : AddressingMode) (register : UInt8) : Execution β :=
  let (value, e) := e.operandValue mode
  let (result, regs) := e.regs.compare register value
  { e with regs }.deferNZ result

/-- Tests the operand against the accumulator. An immediate operand moves only the zero
flag; a cell also shows its two top bits. -/
def testOperand (e : Execution β) (mode : AddressingMode) : Execution β :=
  let (value, e) := e.operandValue mode
  let regs := e.regs.testBits value
  if mode = .immediate then { e with regs }
  else
    { e with
      regs := (regs.withFlag Status.negative (value &&& 0x80 != 0)).withFlag Status.overflow
        (value &&& 0x40 != 0) }

/-- Loads the operand into a register. -/
def loadInto (e : Execution β) (mode : AddressingMode)
    (put : Registers → UInt8 → Registers) : Execution β :=
  let (value, e) := e.operandValue mode
  (e.mapRegs (put · value)).deferNZ value

/-- Pulls a byte into a register. -/
def pullInto (e : Execution β) (put : Registers → UInt8 → Registers) : Execution β :=
  let (value, e) := e.pull
  (e.mapRegs (put · value)).deferNZ value

/-- Gives a register a new value. -/
def replace (e : Execution β) (put : Registers → UInt8 → Registers) (value : UInt8) :
    Execution β :=
  (e.mapRegs (put · value)).deferNZ value

/-- Branches by the second operand byte if a bit of the operand has the wanted value. -/
def branchOnBit (e : Execution β) (mode : AddressingMode) (n : Fin 8) (wanted : Bool) :
    Execution β :=
  let (value, e) := e.operandValue mode
  let isSet := value &&& ((1 : UInt8) <<< UInt8.ofNat n.val) != 0
  e.branchIf (isSet == wanted) (e.regs.pc + signExtend e.inFlight.operand.second)

/-- Changes a single bit of the operand. -/
def changeBit (e : Execution β) (mode : AddressingMode) (n : Fin 8) (on : Bool) :
    Execution β :=
  let mask := (1 : UInt8) <<< UInt8.ofNat n.val
  (e.replaceOperand mode fun regs value =>
    (if on then value ||| mask else value &&& ~~~mask, regs)).2

/-- Saves the program counter and the status, and goes to the routine of a vector with
interrupts masked and decimal mode off. -/
def interruptTo (e : Execution β) (software : Bool) (vector : UInt16) : Execution β :=
  let e := e.pushWord e.regs.pc
  let e := e.push (e.regs.statusToPush software)
  let e := e.mapRegs fun r =>
    (r.withFlag Status.irqDisable true).withFlag Status.decimal false
  e.loadVector vector

/-- Returns from an interrupt. -/
def returnFromInterrupt (e : Execution β) : Execution β :=
  let (status, e) := e.pull
  let e := e.mapRegs (·.pullStatus status)
  let (target, e) := e.pullWord
  e.jump target

/-- Returns from a subroutine to the byte after the saved address. -/
def returnFromSubroutine (e : Execution β) : Execution β :=
  let (target, e) := e.pullWord
  e.jump (target + 1)

end Execution

open Execution in
/-- What an operation does. The addressing mode says where the operand is, and the vector
is the one that `BRK` uses. -/
def Operation.perform {β : Type} [Bus β] (operation : Operation) (mode : AddressingMode)
    (irqVector : UInt16) (e : Execution β) : Execution β :=
  match operation with
  | adc => e.accumulate mode Registers.add
  | sbc => e.accumulate mode Registers.subtract
  | and => e.accumulate mode fun r value => (r.a &&& value, r)
  | ora => e.accumulate mode fun r value => (r.a ||| value, r)
  | eor => e.accumulate mode fun r value => (r.a ^^^ value, r)
  | cmp => e.compareWith mode e.regs.a
  | cpx => e.compareWith mode e.regs.x
  | cpy => e.compareWith mode e.regs.y
  | bit => e.testOperand mode
  | asl => e.replaceOperandNZ mode Registers.shiftLeft
  | lsr => e.replaceOperandNZ mode Registers.shiftRight
  | rol => e.replaceOperandNZ mode Registers.rotateLeft
  | ror => e.replaceOperandNZ mode Registers.rotateRight
  | inc => e.replaceOperandNZ mode fun r value => (value + 1, r)
  | dec => e.replaceOperandNZ mode fun r value => (value - 1, r)
  | inx => e.replace (fun r v => { r with x := v }) (e.regs.x + 1)
  | iny => e.replace (fun r v => { r with y := v }) (e.regs.y + 1)
  | dex => e.replace (fun r v => { r with x := v }) (e.regs.x - 1)
  | dey => e.replace (fun r v => { r with y := v }) (e.regs.y - 1)
  | trb => (e.replaceOperand mode fun r value => (value &&& ~~~r.a, r.testBits value)).2
  | tsb => (e.replaceOperand mode fun r value => (value ||| r.a, r.testBits value)).2
  | rmb n => e.changeBit mode n false
  | smb n => e.changeBit mode n true
  | bbr n => e.branchOnBit mode n false
  | bbs n => e.branchOnBit mode n true
  | branch condition => e.branchIf (e.regs.meets condition) e.inFlight.effectiveAddress
  | bra => (e.addCycleAcrossPages e.inFlight.effectiveAddress).jump e.inFlight.effectiveAddress
  | jmp => e.jump e.inFlight.effectiveAddress
  | jsr => (e.pushWord (e.regs.pc - 1)).jump e.inFlight.effectiveAddress
  | rts => e.returnFromSubroutine
  | rti => e.returnFromInterrupt
  | brk => e.interruptTo true irqVector
  | lda => e.loadInto mode fun r v => { r with a := v }
  | ldx => e.loadInto mode fun r v => { r with x := v }
  | ldy => e.loadInto mode fun r v => { r with y := v }
  | sta => e.store e.regs.a
  | stx => e.store e.regs.x
  | sty => e.store e.regs.y
  | stz => e.store 0
  | tax => e.replace (fun r v => { r with x := v }) e.regs.a
  | tay => e.replace (fun r v => { r with y := v }) e.regs.a
  | txa => e.replace (fun r v => { r with a := v }) e.regs.x
  | tya => e.replace (fun r v => { r with a := v }) e.regs.y
  | tsx => e.replace (fun r v => { r with x := v }) e.regs.s
  | txs => e.mapRegs fun r => { r with s := r.x }
  | pha => e.push e.regs.a
  | phx => e.push e.regs.x
  | phy => e.push e.regs.y
  | php => e.push (e.regs.statusToPush true)
  | pla => e.pullInto fun r v => { r with a := v }
  | plx => e.pullInto fun r v => { r with x := v }
  | ply => e.pullInto fun r v => { r with y := v }
  | plp =>
    let (status, e) := e.pull
    e.mapRegs (·.pullStatus status)
  | clc => e.mapRegs (·.withFlag Status.carry false)
  | sec => e.mapRegs (·.withFlag Status.carry true)
  | cli => e.mapRegs (·.withFlag Status.irqDisable false)
  | sei => e.mapRegs (·.withFlag Status.irqDisable true)
  | cld => e.mapRegs (·.withFlag Status.decimal false)
  | sed => e.mapRegs (·.withFlag Status.decimal true)
  | clv => e.mapRegs (·.withFlag Status.overflow false)
  | wai => { e with runMode := .waiting }
  | stp => { e with runMode := .stopped }
  | nop | reserved => e

end W65C02
