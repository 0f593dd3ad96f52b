import W65C02.Instruction.Effect
import W65C02.Proofs.Instruction.Timing
import W65C02.Proofs.Registers

/-!
# Instructions that unmask interrupts

Most operations move no bit of the status byte but the flags that describe results. `SED` and `CLD`
move decimal mode, `BRK` and `SEI` mask interrupts. Only `CLI` and the two operations that take the
status from the stack can unmask them, and each of these has a single opcode.
-/

namespace W65C02

/-- Whether an operation may clear the mask of interrupts. -/
def Operation.mayUnmask : Operation → Bool
  | cli | plp | rti => true
  | _ => false

/-- The opcodes of `CLI`, `PLP` and `RTI`. -/
def unmaskingOpcodes : List UInt8 := [0x58, 0x28, 0x40]

/-- Whether an operation moves bits of the status byte that do not describe results. -/
def Operation.movesControlBits : Operation → Bool
  | brk | cld | cli | plp | rti | sed | sei => true
  | _ => false

/-- The opcodes in the list are those of the table whose operation may unmask interrupts. -/
private theorem mayUnmask_table : ∀ n : Fin 256,
    (opcodeTable.get n).operation.mayUnmask = decide (UInt8.ofFin n ∈ unmaskingOpcodes) := by
  decide +kernel

/-- Of all opcodes only these three may unmask interrupts. -/
theorem mayUnmask_ofOpcode (opcode : UInt8) :
    (Descriptor.ofOpcode opcode).operation.mayUnmask = decide (opcode ∈ unmaskingOpcodes) :=
  mayUnmask_table opcode.toFin

namespace Execution

open Registers

variable {β : Type} [Bus β] (e : Execution β) {mode : AddressingMode}

/-- Looking at the operand does not move the registers. -/
theorem regs_operandValue (mode : AddressingMode) : (e.operandValue mode).2.regs = e.regs := by
  cases mode <;> rfl

/-- Calculating in the accumulator leaves interrupt masking and decimal mode alone, -/
theorem keepsControlBits_accumulate {g : Registers → UInt8 → UInt8 × Registers}
    (hg : ∀ (r : Registers) v, r.KeepsControlBits (g r v).2) :
    e.regs.KeepsControlBits (e.accumulate mode g).regs := by
  have hresult := hg (e.operandValue mode).2.regs (e.operandValue mode).1
  rw [← e.regs_operandValue mode]
  exact hresult.trans (.of_p_eq rfl)

/-- comparing a register does, -/
theorem keepsControlBits_compareWith (register : UInt8) :
    e.regs.KeepsControlBits (e.compareWith mode register).regs := by
  rw [← e.regs_operandValue mode]
  exact .compare _ _

/-- testing the operand, -/
theorem keepsControlBits_testOperand : e.regs.KeepsControlBits (e.testOperand mode).regs := by
  have htest :=
    KeepsControlBits.testBits (r := (e.operandValue mode).2.regs) (e.operandValue mode).1
  rw [← e.regs_operandValue mode]
  unfold testOperand
  simp only
  split
  · exact htest
  · exact (htest.trans (.withFlag _ (by decide))).trans (.withFlag _ (by decide))

/-- replacing it, -/
theorem keepsControlBits_replaceOperand {g : Registers → UInt8 → UInt8 × Registers}
    (hg : ∀ (r : Registers) v, r.KeepsControlBits (g r v).2) :
    e.regs.KeepsControlBits (e.replaceOperand mode g).2.regs := by
  unfold replaceOperand
  split
  · exact (hg _ _).trans (.of_p_eq rfl)
  · exact hg _ _

/-- replacing it with the flags set, -/
theorem keepsControlBits_replaceOperandNZ {g : Registers → UInt8 → UInt8 × Registers}
    (hg : ∀ (r : Registers) v, r.KeepsControlBits (g r v).2) :
    e.regs.KeepsControlBits (e.replaceOperandNZ mode g).regs :=
  e.keepsControlBits_replaceOperand hg

/-- loading a register, -/
theorem keepsControlBits_loadInto {put : Registers → UInt8 → Registers}
    (hput : ∀ (r : Registers) v, r.KeepsControlBits (put r v)) :
    e.regs.KeepsControlBits (e.loadInto mode put).regs := by
  rw [← e.regs_operandValue mode]
  exact hput _ _

/-- or changing a bit. -/
theorem keepsControlBits_changeBit (n : Fin 8) (on : Bool) :
    e.regs.KeepsControlBits (e.changeBit mode n on).regs := by
  unfold changeBit
  refine e.keepsControlBits_replaceOperand fun _ _ => ?_
  exact .of_p_eq rfl

omit [Bus β] in
/-- Adding a cycle leaves the registers alone. -/
theorem regs_addCycleAcrossPages (target : UInt16) :
    (e.addCycleAcrossPages target).regs = e.regs := by
  unfold addCycleAcrossPages
  split <;> rfl

omit [Bus β] in
/-- A branch leaves interrupt masking and decimal mode alone, -/
theorem keepsControlBits_branchIf (taken : Bool) (target : UInt16) :
    e.regs.KeepsControlBits (e.branchIf taken target).regs := by
  unfold branchIf
  split
  · rw [← e.regs_addCycleAcrossPages target]
    exact .of_p_eq rfl
  · exact .of_p_eq rfl

/-- and so does one on a bit. -/
theorem keepsControlBits_branchOnBit (n : Fin 8) (wanted : Bool) :
    e.regs.KeepsControlBits (e.branchOnBit mode n wanted).regs := by
  rw [← e.regs_operandValue mode]
  exact keepsControlBits_branchIf _ _ _

end Execution

open Registers Execution in
/-- Of the status byte most operations change only the flags that describe results. -/
theorem Operation.keepsControlBits_perform {β : Type} [Bus β] {operation : Operation}
    (h : operation.movesControlBits = false) (mode : AddressingMode) (irqVector : UInt16)
    (e : Execution β) :
    e.regs.KeepsControlBits (operation.perform mode irqVector e).regs := by
  cases operation with
  | brk | cld | cli | plp | rti | sed | sei => cases h
  | adc => exact e.keepsControlBits_accumulate fun _ => .add
  | sbc => exact e.keepsControlBits_accumulate fun _ => .subtract
  | and | ora | eor => exact e.keepsControlBits_accumulate fun _ _ => .of_p_eq rfl
  | cmp | cpx | cpy => exact e.keepsControlBits_compareWith _
  | bit => exact e.keepsControlBits_testOperand
  | asl => exact e.keepsControlBits_replaceOperandNZ fun _ => .shiftLeft
  | lsr => exact e.keepsControlBits_replaceOperandNZ fun _ => .shiftRight
  | rol => exact e.keepsControlBits_replaceOperandNZ fun _ => .rotateLeft
  | ror => exact e.keepsControlBits_replaceOperandNZ fun _ => .rotateRight
  | inc | dec => exact e.keepsControlBits_replaceOperandNZ fun _ _ => .of_p_eq rfl
  | trb | tsb => exact e.keepsControlBits_replaceOperand fun _ => .testBits
  | rmb n => exact e.keepsControlBits_changeBit n false
  | smb n => exact e.keepsControlBits_changeBit n true
  | bbr n => exact e.keepsControlBits_branchOnBit n false
  | bbs n => exact e.keepsControlBits_branchOnBit n true
  | branch condition => exact e.keepsControlBits_branchIf _ _
  | bra =>
    rw [← e.regs_addCycleAcrossPages e.inFlight.effectiveAddress]
    exact .of_p_eq rfl
  | lda | ldx | ldy => exact e.keepsControlBits_loadInto fun _ _ => .of_p_eq rfl
  | clc | sec | clv => exact .withFlag _ (by decide)
  | inx | iny | dex | dey | tax | tay | txa | tya | tsx | txs => exact .of_p_eq rfl
  | sta | stx | sty | stz | pha | phx | phy | php | pla | plx | ply => exact .of_p_eq rfl
  | jmp | jsr | rts | wai | stp | nop | reserved => exact .of_p_eq rfl

open Registers in
/-- Where interrupts are masked they stay masked, unless the operation is one of the three that may
unmask them. -/
theorem Operation.flag_irqDisable_perform {β : Type} [Bus β] {operation : Operation}
    (h : operation.mayUnmask = false) (mode : AddressingMode) (irqVector : UInt16)
    {e : Execution β} (hmasked : e.regs.flag Status.irqDisable = true) :
    (operation.perform mode irqVector e).regs.flag Status.irqDisable = true := by
  cases hcontrol : operation.movesControlBits with
  | false => exact (keepsControlBits_perform hcontrol mode irqVector e).irqDisable.trans hmasked
  | true =>
    cases operation with
    | cli | plp | rti => cases h
    | brk => exact flag_irqDisable_enterRoutine e.regs
    | sei => exact flag_withFlag_true e.regs Status.irqDisable
    | cld | sed => exact (flag_withFlag_of_disjoint _ _ (by decide) (by decide)).trans hmasked
    | _ => cases hcontrol

end W65C02
