import W65C02.Proofs.Instruction.Masking

/-!
# What operations do to the stack pointer

Each operation but `TXS` moves the stack pointer by a fixed amount, and most of them leave it where
it is. Those that move it down by one are the pushes of a single byte. They do not move the program
counter, and their instructions have no operand bytes.
-/

namespace W65C02

/-- How far an operation moves the stack pointer. What `TXS` does depends on a register. -/
def Operation.stackMove : Operation → UInt8
  | brk => -3
  | jsr => -2
  | pha | phx | phy | php => -1
  | pla | plx | ply | plp => 1
  | rts => 2
  | rti => 3
  | _ => 0

/-- Whether the stack pointer can be one lower after an operation. -/
def Operation.mayPushByte : Operation → Bool
  | pha | phx | phy | php | txs => true
  | _ => false

/-- The instructions that push a byte have no operand. -/
private theorem mayPushByte_table : ∀ n : Fin 256,
    (opcodeTable.get n).operation.mayPushByte = true →
      (opcodeTable.get n).mode.operandSize = 0 := by
  decide +kernel

/-- The instructions that may push a single byte have no operand bytes. -/
theorem operandSize_of_mayPushByte {opcode : UInt8}
    (h : (Descriptor.ofOpcode opcode).operation.mayPushByte = true) : operandSize opcode = 0 :=
  mayPushByte_table opcode.toFin h

/-- A stack pointer that moves is not the same. -/
theorem ne_sub_one (s : UInt8) : s ≠ s - 1 := by grind

/-- Adding leaves the stack pointer alone, -/
theorem Registers.s_add (r : Registers) (value : UInt8) : (r.add value).2.s = r.s := by
  unfold add
  split <;> rfl

/-- and so does subtracting. -/
theorem Registers.s_subtract (r : Registers) (value : UInt8) : (r.subtract value).2.s = r.s := by
  unfold subtract
  split <;> rfl

namespace Execution

variable {β : Type} [Bus β] (e : Execution β) {mode : AddressingMode}

/-- Calculating in the accumulator leaves the stack pointer alone, -/
theorem s_accumulate {g : Registers → UInt8 → UInt8 × Registers}
    (hg : ∀ (r : Registers) v, (g r v).2.s = r.s) : (e.accumulate mode g).regs.s = e.regs.s := by
  rw [← e.regs_operandValue mode]
  exact hg _ _

/-- comparing a register does, -/
theorem s_compareWith (register : UInt8) : (e.compareWith mode register).regs.s = e.regs.s := by
  rw [← e.regs_operandValue mode]
  rfl

/-- testing the operand, -/
theorem s_testOperand : (e.testOperand mode).regs.s = e.regs.s := by
  rw [← e.regs_operandValue mode]
  unfold testOperand
  simp only
  split <;> rfl

/-- replacing it, -/
theorem s_replaceOperand {g : Registers → UInt8 → UInt8 × Registers}
    (hg : ∀ (r : Registers) v, (g r v).2.s = r.s) :
    (e.replaceOperand mode g).2.regs.s = e.regs.s := by
  unfold replaceOperand
  split
  · exact hg _ _
  · exact hg _ _

/-- replacing it with the flags set, -/
theorem s_replaceOperandNZ {g : Registers → UInt8 → UInt8 × Registers}
    (hg : ∀ (r : Registers) v, (g r v).2.s = r.s) :
    (e.replaceOperandNZ mode g).regs.s = e.regs.s :=
  e.s_replaceOperand hg

/-- changing a bit, -/
theorem s_changeBit (n : Fin 8) (on : Bool) : (e.changeBit mode n on).regs.s = e.regs.s :=
  e.s_replaceOperand fun _ _ => rfl

/-- loading another register, -/
theorem s_loadInto {put : Registers → UInt8 → Registers}
    (hput : ∀ (r : Registers) v, (put r v).s = r.s) : (e.loadInto mode put).regs.s = e.regs.s := by
  rw [← e.regs_operandValue mode]
  exact hput _ _

omit [Bus β] in
/-- branching, -/
theorem s_branchIf (taken : Bool) (target : UInt16) :
    (e.branchIf taken target).regs.s = e.regs.s := by
  unfold branchIf
  split
  · rw [← e.regs_addCycleAcrossPages target]
    rfl
  · rfl

/-- or branching on a bit. -/
theorem s_branchOnBit (n : Fin 8) (wanted : Bool) :
    (e.branchOnBit mode n wanted).regs.s = e.regs.s := by
  rw [← e.regs_operandValue mode]
  exact s_branchIf _ _ _

end Execution

open Execution Registers in
/-- Each operation but `TXS` moves the stack pointer by its own amount. -/
theorem Operation.s_perform {β : Type} [Bus β] {operation : Operation} (h : operation ≠ .txs)
    (mode : AddressingMode) (irqVector : UInt16) (e : Execution β) :
    (operation.perform mode irqVector e).regs.s = e.regs.s + operation.stackMove := by
  have hstays : e.regs.s + 0 = e.regs.s := UInt8.add_zero _
  cases operation with
  | txs => exact absurd rfl h
  | brk =>
    change e.regs.s - 1 - 1 - 1 = e.regs.s + -3
    grind
  | jsr =>
    change e.regs.s - 1 - 1 = e.regs.s + -2
    grind
  | rts =>
    change e.regs.s + 1 + 1 = e.regs.s + 2
    grind
  | rti =>
    change e.regs.s + 1 + 1 + 1 = e.regs.s + 3
    grind
  | pha | phx | phy | php => exact UInt8.sub_eq_add_neg _ _
  | pla | plx | ply | plp => rfl
  | adc => exact (e.s_accumulate s_add).trans hstays.symm
  | sbc => exact (e.s_accumulate s_subtract).trans hstays.symm
  | and | ora | eor => exact (e.s_accumulate fun _ _ => rfl).trans hstays.symm
  | cmp | cpx | cpy => exact (e.s_compareWith _).trans hstays.symm
  | bit => exact e.s_testOperand.trans hstays.symm
  | asl | lsr | rol | ror | inc | dec =>
    exact (e.s_replaceOperandNZ fun _ _ => rfl).trans hstays.symm
  | trb | tsb => exact (e.s_replaceOperand fun _ _ => rfl).trans hstays.symm
  | rmb n | smb n => exact (e.s_changeBit n _).trans hstays.symm
  | bbr n | bbs n => exact (e.s_branchOnBit n _).trans hstays.symm
  | branch condition => exact (e.s_branchIf _ _).trans hstays.symm
  | bra =>
    rw [← e.regs_addCycleAcrossPages e.inFlight.effectiveAddress]
    exact (UInt8.add_zero _).symm
  | lda | ldx | ldy => exact (e.s_loadInto fun _ _ => rfl).trans hstays.symm
  | _ => exact hstays.symm

/-- What cannot push a single byte does not leave the stack pointer one lower. -/
theorem Operation.s_perform_ne {β : Type} [Bus β] {operation : Operation}
    (h : operation.mayPushByte = false) (mode : AddressingMode) (irqVector : UInt16)
    (e : Execution β) : (operation.perform mode irqVector e).regs.s ≠ e.regs.s - 1 := by
  have htxs : operation ≠ .txs := by
    rintro rfl
    cases h
  have hmove : operation.stackMove ≠ -1 := by
    cases operation with
    | pha | phx | phy | php | txs => cases h
    | rmb n | smb n | bbr n | bbs n | branch condition => exact (by decide : (0 : UInt8) ≠ -1)
    | _ => decide
  rw [s_perform htxs]
  grind

/-- What may push a single byte leaves the program counter alone. -/
theorem Operation.pc_perform {β : Type} [Bus β] {operation : Operation}
    (h : operation.mayPushByte = true) (mode : AddressingMode) (irqVector : UInt16)
    (e : Execution β) : (operation.perform mode irqVector e).regs.pc = e.regs.pc := by
  cases operation with
  | pha | phx | phy | php | txs => rfl
  | _ => cases h

end W65C02
