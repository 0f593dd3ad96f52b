import W65C02.Instruction.Effect
import W65C02.Proofs.Bus.Transactions

/-!
# What an instruction asks of the bus

Beyond its own bytes an instruction asks for the pointer of its mode, if there is one, and for what
its operation needs. All of this is known before the first access, but for the byte that a
read-modify-write operation stores. The opcode table leaves a cycle for each of these accesses.
-/

namespace W65C02

namespace Transaction

/-- Bytes are put onto the stack, each one below the one before it. -/
def pushes (s : UInt8) : List UInt8 → List Transaction
  | [] => []
  | value :: rest => write (stackAddress s) value :: pushes (s - 1) rest

/-- A number of bytes are taken from the stack, each one from above the one before it. -/
def pulls (s : UInt8) : Nat → List Transaction
  | 0 => []
  | count + 1 => read (stackAddress (s + 1)) :: pulls (s + 1) count

end Transaction

open Transaction

namespace AddressingMode

/-- The pointer that a mode reads. -/
def pointerReads (mode : AddressingMode) (operand : Operand) (regs : Registers) :
    List Transaction :=
  let first := operand.first
  let word := wordOfBytes operand.first operand.second
  match mode with
  | indirect => pointer word
  | absoluteIndexedIndirect => pointer (word + regs.x.toUInt16)
  | indexedIndirect => zeroPagePointer (first + regs.x)
  | indirectIndexed | zeroPageIndirect => zeroPagePointer first
  | _ => []

/-- An operand is read, if it is in a cell. -/
def operandReads (mode : AddressingMode) (address : UInt16) : List Transaction :=
  match mode with
  | accumulator | immediate => []
  | _ => [read address]

/-- An operand is replaced. A cell is read twice before it is written. -/
def replaces (mode : AddressingMode) (address : UInt16) (value : UInt8) : List Transaction :=
  if mode = .accumulator then [] else [read address, read address, write address value]

variable {β : Type} [Bus β]

/-- Finding the effective address asks for the pointer and nothing else. -/
theorem locate_snd (mode : AddressingMode) (operand : Operand) (regs : Registers) (port : Port β) :
    (mode.locate operand regs port).2 = port.transactAll (mode.pointerReads operand regs) := by
  cases mode <;> rfl

/-- Finding an operand writes nothing. -/
theorem written_pointerReads (mode : AddressingMode) (operand : Operand) (regs : Registers) :
    (mode.pointerReads operand regs).filterMap written? = [] := by
  cases mode <;> rfl

/-- How much there is to read depends on the mode alone. -/
theorem length_pointerReads (mode : AddressingMode) (operand : Operand) (regs : Registers) :
    (mode.pointerReads operand regs).length = (mode.pointerReads #v[0, 0] {}).length := by
  cases mode <;> simp only [pointerReads, pointer, zeroPagePointer, List.length_cons]

end AddressingMode

namespace Operation

/-- What an operation asks for, given the byte at the effective address. -/
def transactions (operation : Operation) (mode : AddressingMode) (irqVector : UInt16)
    (regs : Registers) (address : UInt16) (value : UInt8) : List Transaction :=
  match operation with
  | adc | sbc | and | ora | eor | cmp | cpx | cpy | bit | lda | ldx | ldy | bbr _ | bbs _ =>
    mode.operandReads address
  | asl => mode.replaces address (regs.shiftLeft value).1
  | lsr => mode.replaces address (regs.shiftRight value).1
  | rol => mode.replaces address (regs.rotateLeft value).1
  | ror => mode.replaces address (regs.rotateRight value).1
  | inc => mode.replaces address (value + 1)
  | dec => mode.replaces address (value - 1)
  | trb => mode.replaces address (value &&& ~~~regs.a)
  | tsb => mode.replaces address (value ||| regs.a)
  | rmb n => mode.replaces address (value &&& ~~~((1 : UInt8) <<< UInt8.ofNat n.val))
  | smb n => mode.replaces address (value ||| (1 : UInt8) <<< UInt8.ofNat n.val)
  | sta => [write address regs.a]
  | stx => [write address regs.x]
  | sty => [write address regs.y]
  | stz => [write address 0]
  | pha => pushes regs.s [regs.a]
  | phx => pushes regs.s [regs.x]
  | phy => pushes regs.s [regs.y]
  | php => pushes regs.s [regs.statusToPush true]
  | jsr => pushes regs.s [highByte (regs.pc - 1), lowByte (regs.pc - 1)]
  | brk =>
    pushes regs.s [highByte regs.pc, lowByte regs.pc, regs.statusToPush true] ++ pointer irqVector
  | pla | plx | ply | plp => pulls regs.s 1
  | rts => pulls regs.s 2
  | rti => pulls regs.s 3
  | _ => []

/-- Where an operation writes: a store and a replaced cell at the effective address, and what is
pushed going down from the stack pointer. -/
def writtenAddresses (operation : Operation) (mode : AddressingMode) (s : UInt8)
    (address : UInt16) : List UInt16 :=
  match operation with
  | sta | stx | sty | stz => [address]
  | asl | lsr | rol | ror | inc | dec | trb | tsb | rmb _ | smb _ =>
    if mode = .accumulator then [] else [address]
  | pha | phx | phy | php => [stackAddress s]
  | jsr => [stackAddress s, stackAddress (s - 1)]
  | brk => [stackAddress s, stackAddress (s - 1), stackAddress (s - 2)]
  | _ => []

end Operation

namespace Execution

variable {β : Type} [Bus β] {e : Execution β}

/-- Reading an operand is the traffic that its mode tells, -/
theorem operandValue_port (mode : AddressingMode) :
    (e.operandValue mode).2.port =
      e.port.transactAll (mode.operandReads e.inFlight.effectiveAddress) := by
  cases mode <;> rfl

/-- and so is replacing it, -/
theorem replaceOperand_port (mode : AddressingMode) (f : Registers → UInt8 → UInt8 × Registers) :
    (e.replaceOperand mode f).2.port =
      e.port.transactAll (mode.replaces e.inFlight.effectiveAddress
        (f e.regs (e.read e.inFlight.effectiveAddress).1).1) := by
  unfold replaceOperand AddressingMode.replaces
  by_cases hmode : mode = .accumulator
  · rw [if_pos hmode, if_pos hmode]
    rfl
  · rw [if_neg hmode, if_neg hmode]
    rfl

/-- with the flags set or not, -/
theorem replaceOperandNZ_port (mode : AddressingMode)
    (f : Registers → UInt8 → UInt8 × Registers) :
    (e.replaceOperandNZ mode f).port =
      e.port.transactAll (mode.replaces e.inFlight.effectiveAddress
        (f e.regs (e.read e.inFlight.effectiveAddress).1).1) :=
  replaceOperand_port mode f

/-- and testing it. -/
theorem testOperand_port (mode : AddressingMode) :
    (e.testOperand mode).port =
      e.port.transactAll (mode.operandReads e.inFlight.effectiveAddress) := by
  rw [← operandValue_port]
  unfold testOperand
  by_cases hmode : mode = .immediate
  · simp only [if_pos hmode]
  · simp only [if_neg hmode]

omit [Bus β] in
/-- Branching is no traffic, -/
theorem branchIf_port (taken : Bool) (target : UInt16) :
    (e.branchIf taken target).port = e.port := by
  unfold branchIf addCycleAcrossPages
  cases taken with
  | false => rfl
  | true =>
    rw [if_pos rfl]
    split <;> rfl

/-- apart from reading the operand whose bit is tested. -/
theorem branchOnBit_port (mode : AddressingMode) (n : Fin 8) (wanted : Bool) :
    (e.branchOnBit mode n wanted).port =
      e.port.transactAll (mode.operandReads e.inFlight.effectiveAddress) := by
  rw [← operandValue_port]
  exact branchIf_port _ _

end Execution

namespace Operation

variable {β : Type} [Bus β]

/-- An operation asks for what is listed and nothing else. -/
theorem perform_port (operation : Operation) (mode : AddressingMode) (irqVector : UInt16)
    (e : Execution β) :
    (operation.perform mode irqVector e).port =
      e.port.transactAll (operation.transactions mode irqVector e.regs e.inFlight.effectiveAddress
        (e.read e.inFlight.effectiveAddress).1) := by
  cases operation with
  | adc | sbc | and | ora | eor | cmp | cpx | cpy | lda | ldx | ldy =>
    exact Execution.operandValue_port mode
  | bit => exact Execution.testOperand_port mode
  | bbr n | bbs n => exact Execution.branchOnBit_port mode n _
  | asl | lsr | rol | ror | inc | dec => exact Execution.replaceOperandNZ_port mode _
  | trb | tsb | rmb | smb => exact Execution.replaceOperand_port mode _
  | branch condition => exact Execution.branchIf_port _ _
  | bra =>
    simp only [perform, Execution.addCycleAcrossPages]
    split <;> rfl
  | _ => rfl

/-- Replacing an operand writes to its address, unless that is the accumulator. -/
theorem written_replaces (mode : AddressingMode) (address : UInt16) (value : UInt8) :
    (mode.replaces address value).filterMap written? =
      if mode = .accumulator then [] else [address] := by
  unfold AddressingMode.replaces
  split <;> rfl

/-- Reading an operand writes nothing. -/
theorem written_operandReads (mode : AddressingMode) (address : UInt16) :
    (mode.operandReads address).filterMap written? = [] := by
  cases mode <;> rfl

/-- Of what an operation asks for, these are the writes. -/
theorem written_transactions (operation : Operation) (mode : AddressingMode) (irqVector : UInt16)
    (regs : Registers) (address : UInt16) (value : UInt8) :
    (operation.transactions mode irqVector regs address value).filterMap written? =
      operation.writtenAddresses mode regs.s address := by
  have htwo : regs.s - 2 = regs.s - 1 - 1 := by grind
  cases operation with
  | adc | sbc | and | ora | eor | cmp | cpx | cpy | bit | lda | ldx | ldy | bbr | bbs =>
    exact written_operandReads mode address
  | asl | lsr | rol | ror | inc | dec | trb | tsb | rmb | smb =>
    exact written_replaces mode address _
  | brk =>
    simp only [writtenAddresses, htwo]
    rfl
  | _ => rfl

/-- There are 44 reserved opcodes, and none of them writes. -/
example : ((opcodeTable.toList.filter (!·.documented)).map
    fun d => d.operation.writtenAddresses d.mode 0 0) = List.replicate 44 [] := by
  decide +kernel

/-- How many transactions it takes does not depend on the address and the byte. -/
theorem length_replaces (mode : AddressingMode) (address : UInt16) (value : UInt8) :
    (mode.replaces address value).length = (mode.replaces 0 0).length := by
  unfold AddressingMode.replaces
  split <;> rfl

/-- How much an operation asks for depends on the operation and the mode alone. -/
theorem length_transactions (operation : Operation) (mode : AddressingMode) (irqVector : UInt16)
    (regs : Registers) (address : UInt16) (value : UInt8) :
    (operation.transactions mode irqVector regs address value).length =
      (operation.transactions mode 0 {} 0 0).length := by
  cases operation with
  | adc | sbc | and | ora | eor | cmp | cpx | cpy | bit | lda | ldx | ldy | bbr | bbs =>
    cases mode <;> rfl
  | asl | lsr | rol | ror | inc | dec | trb | tsb | rmb | smb =>
    exact (length_replaces mode address _).trans (length_replaces mode 0 _).symm
  | _ => rfl

end Operation

namespace Descriptor

/-- In all of the table there is a cycle for each access, penalties not counted. -/
private theorem table_traffic : ∀ opcode : Fin 256,
    1 + (opcodeTable.get opcode).mode.operandSize +
        ((opcodeTable.get opcode).mode.pointerReads #v[0, 0] {}).length +
        ((opcodeTable.get opcode).operation.transactions (opcodeTable.get opcode).mode 0 {} 0
          0).length ≤
      (opcodeTable.get opcode).baseCycles.toNat := by
  decide +kernel

/-- An instruction has a cycle for each of its accesses. -/
theorem traffic_le_baseCycles (opcode : UInt8) (operand : Operand) (regs : Registers)
    (irqVector address : UInt16) (value : UInt8) :
    1 + operandSize opcode + ((ofOpcode opcode).mode.pointerReads operand regs).length +
        ((ofOpcode opcode).operation.transactions (ofOpcode opcode).mode irqVector regs address
          value).length ≤
      (ofOpcode opcode).baseCycles.toNat := by
  rw [AddressingMode.length_pointerReads, Operation.length_transactions]
  exact table_traffic opcode.toFin

end Descriptor

end W65C02
