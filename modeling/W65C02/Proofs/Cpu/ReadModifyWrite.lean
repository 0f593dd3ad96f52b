import W65C02.Proofs.Cpu.Traffic
import W65C02.Proofs.Instruction.Replacement

/-!
# Reading, reading again and writing

An instruction that replaces a cell reads it twice and then writes it, and it makes no other access
once its own bytes are fetched. The byte that it writes is the operation's function of the byte
that it found and of the registers as they were. This holds wherever the cell is, even among the
bytes of the instruction itself.
-/

namespace W65C02

open Transaction

namespace Memory

/-- Fetching leaves the memory as it is for the accesses that follow. -/
theorem accesses_fetches_append (m : Memory) (pc : UInt16) (count : ℕ) (rest : List Transaction) :
    m.accesses (fetches pc count ++ rest) = m.accesses (fetches pc count) ++ m.accesses rest := by
  induction count generalizing pc with
  | zero => rfl
  | succ count ih => exact congrArg (m.access (.read pc) :: ·) (ih (pc + 1))

/-- Some accesses after others. -/
theorem replay_append (m : Memory) (first later : List Access) :
    m.replay (first ++ later) = (m.replay first).replay later :=
  List.foldl_append

/-- Fetching changes nothing. -/
theorem replay_fetches (m : Memory) (pc : UInt16) (count : ℕ) :
    m.replay (m.accesses (fetches pc count)) = m := by
  refine ext_read fun address => m.read_replay_accesses ?_
  rw [written_fetches]
  exact List.not_mem_nil

end Memory

namespace Cpu

/-- The cell that the operand bytes at the program counter name, with `X` added if the mode says
so. Page zero wraps around within itself, other addresses at the end of the address space. -/
def operandCell (c : Cpu Memory) : UInt16 :=
  let first := c.bus.read (c.regs.pc + 1)
  let second := c.bus.read (c.regs.pc + 2)
  match (Descriptor.ofOpcode c.opcode).mode with
  | .zeroPage => first.toUInt16
  | .zeroPageX => (first + c.regs.x).toUInt16
  | .absoluteX => wordOfBytes first second + c.regs.x.toUInt16
  | _ => wordOfBytes first second

/-- What the instruction at the program counter finds in its cell. -/
def operandByte (c : Cpu Memory) : UInt8 := c.bus.read c.operandCell

variable {d : Cpu Memory} {f : Registers → UInt8 → UInt8}

/-- Describing a result moves flags only. -/
theorem regs_describeResult (e : Execution Memory) :
    ∃ p, (describeResult e).regs = { e.regs with p } := by
  unfold describeResult
  split
  · exact ⟨_, rfl⟩
  · exact ⟨_, rfl⟩

/-- An instruction that replaces its operand leaves all registers but the status byte and the
program counter as they are, unless the operand is the accumulator. -/
theorem regs_afterInstruction_of_replacement
    (hf : (Descriptor.ofOpcode d.opcode).operation.replacement? = some f) :
    ∃ p, d.afterInstruction.regs =
      { d.regsAfterFetch with
        a := if (Descriptor.ofOpcode d.opcode).mode = .accumulator then f d.regs d.regs.a
          else d.regs.a
        p } := by
  let mode := (Descriptor.ofOpcode d.opcode).mode
  let resolved := mode.locate d.fetched.operand d.regsAfterFetch d.port
  let located : Execution Memory := ⟨d.regsAfterFetch, d.runMode, { d.fetched with
    effectiveAddress := resolved.1.address, pageCrossed := resolved.1.pageCrossed }, resolved.2⟩
  have hatOnce : d.atOnce = describeResult ((Descriptor.ofOpcode d.opcode).operation.perform mode
    d.settings.irqVector located) := rfl
  obtain ⟨p, hp⟩ := Operation.regs_perform_of_replacement hf mode d.settings.irqVector located
  obtain ⟨q, hq⟩ := regs_describeResult ((Descriptor.ofOpcode d.opcode).operation.perform mode
    d.settings.irqVector located)
  refine ⟨q, ?_⟩
  rw [← Operation.replacement_pc hf]
  exact (congrArg Execution.regs hatOnce).trans (hq.trans (by rw [hp]; rfl))

/-- The cell that an instruction replaces is the one that its bytes name, and no pointer leads
there. -/
theorem effectiveAddress_of_replacement
    (hf : (Descriptor.ofOpcode d.opcode).operation.replacement? = some f)
    (hmode : (Descriptor.ofOpcode d.opcode).mode ≠ .accumulator) :
    d.effectiveAddress = d.operandCell := by
  have hnext : d.regs.pc + 2 = d.regs.pc + 1 + 1 := (UInt16.add_assoc _ 1 1).symm
  have hoperand : d.fetched.operand =
    d.bus.operandAt (d.regs.pc + 1) (Descriptor.ofOpcode d.opcode).mode.operandSize := rfl
  have hmodes := Descriptor.mode_of_replacement hf
  simp only [List.mem_cons, List.not_mem_nil, or_false, hmode, false_or] at hmodes
  unfold effectiveAddress operandCell
  rw [hoperand, hnext]
  rcases hmodes with hmode | hmode | hmode | hmode <;> rw [hmode] <;> rfl

/-- The instruction at the program counter asks for its own bytes and then replaces its operand. -/
theorem transactions_of_replacement
    (hf : (Descriptor.ofOpcode d.opcode).operation.replacement? = some f) :
    d.transactions = fetches d.regs.pc (operandSize d.opcode + 1) ++
      (Descriptor.ofOpcode d.opcode).mode.replaces d.operandCell (f d.regs d.operandByte) := by
  have hpointer : (Descriptor.ofOpcode d.opcode).mode.pointerReads d.fetched.operand
      d.regsAfterFetch = [] := by
    have hmodes := Descriptor.mode_of_replacement hf
    simp only [List.mem_cons, List.not_mem_nil, or_false] at hmodes
    rcases hmodes with hmode | hmode | hmode | hmode | hmode <;> rw [hmode] <;> rfl
  simp only [transactions, handling, hpointer, List.nil_append,
    Operation.transactions_of_replacement hf, AddressingMode.replaces]
  by_cases hmode : (Descriptor.ofOpcode d.opcode).mode = .accumulator
  · simp only [if_pos hmode]
  · rw [effectiveAddress_of_replacement hf hmode, regsAfterFetch, Operation.replacement_pc hf]
    rfl

/-- A step reads a cell twice and then writes it. -/
structure ReplacesCell (c : Cpu (Traced Memory)) (f : Registers → UInt8 → UInt8) : Prop where
  /-- The record shows the fetch of the instruction, two readings of the cell and one write, and
  nothing else. -/
  log : c.step.2.bus.log.toList =
    c.bus.log.toList ++ c.bus.inner.accesses (fetches c.regs.pc (operandSize c.alone.opcode + 1)) ++
      [⟨.read, c.alone.operandCell, c.alone.operandByte⟩,
        ⟨.read, c.alone.operandCell, c.alone.operandByte⟩,
        ⟨.write, c.alone.operandCell, f c.regs c.alone.operandByte⟩]
  /-- That cell has the new byte, and the others have the bytes that they had. -/
  memory : c.step.2.bus.inner =
    c.bus.inner.write c.alone.operandCell (f c.regs c.alone.operandByte)
  /-- The accumulator stays as it is, and so do all registers but the status byte and the program
  counter. -/
  regs : ∃ p, c.step.2.regs = { c.alone.regsAfterFetch with p }

/-- A step replaces the accumulator without an access of its own. -/
structure ReplacesAccumulator (c : Cpu (Traced Memory)) (f : Registers → UInt8 → UInt8) :
    Prop where
  /-- The record shows the fetch of the opcode and nothing else. -/
  log : c.step.2.bus.log.toList = c.bus.log.toList ++ [⟨.read, c.regs.pc, c.alone.opcode⟩]
  /-- The memory stays as it is. -/
  memory : c.step.2.bus.inner = c.bus.inner
  /-- The accumulator has the new byte. -/
  regs : ∃ p, c.step.2.regs = { c.alone.regsAfterFetch with a := f c.regs c.regs.a, p }

/-- What a step from an instruction boundary enters into the record, and what it leaves in the
memory. -/
theorem step_bus_of_fetchesNext {c : Cpu (Traced Memory)} (hnext : c.alone.FetchesNext)
    (hrecording : c.bus.recording = true) :
    c.step.2.bus.log.toList = c.bus.log.toList ++ c.instructionAccesses ∧
      c.step.2.bus.inner = c.bus.inner.replay c.instructionAccesses := by
  have hport := (c.traces_alone.step_port Traced.simulation hnext).2
  have hstart : c.port = ⟨⟨c.bus.inner, c.bus.log, true⟩, c.interrupts.lines⟩ := by
    rw [← hrecording]
    rfl
  rw [hstart, Traced.transactAll_eq] at hport
  have hlog : c.step.2.bus.log = c.bus.log ++ c.instructionAccesses.toArray :=
    congrArg (·.bus.log) hport
  exact ⟨by rw [hlog, Array.toList_append], congrArg (·.bus.inner) hport⟩

/-- The registers after a step. -/
theorem step_regs_of_fetchesNext {c : Cpu (Traced Memory)} (hnext : c.alone.FetchesNext) :
    c.step.2.regs = c.alone.afterInstruction.regs := by
  have hmatch := (c.traces_alone.stepWithin Traced.simulation stepLimit).2
  exact hmatch.regs.trans (congrArg (·.2.regs) (step_of_fetchesNext hnext))

/-- Whatever the registers and the memory hold, a step from an instruction boundary on which no
interrupt is eligible carries out an operation that replaces its operand as follows. If the operand
is in a cell, then the cell is read twice and written once, and there is no other access after the
fetch. If it is the accumulator, then there is no access after the fetch of the opcode. -/
theorem replacesOperand_of_fetchesNext {c : Cpu (Traced Memory)} (hnext : c.alone.FetchesNext)
    (hrecording : c.bus.recording = true)
    (hf : (Descriptor.ofOpcode c.alone.opcode).operation.replacement? = some f) :
    ((Descriptor.ofOpcode c.alone.opcode).mode ≠ .accumulator → c.ReplacesCell f) ∧
      ((Descriptor.ofOpcode c.alone.opcode).mode = .accumulator → c.ReplacesAccumulator f) := by
  obtain ⟨hlog, hmemory⟩ := step_bus_of_fetchesNext hnext hrecording
  obtain ⟨p, hregs⟩ := regs_afterInstruction_of_replacement hf
  rw [← step_regs_of_fetchesNext hnext] at hregs
  have haccesses : c.instructionAccesses =
      c.bus.inner.accesses (fetches c.regs.pc (operandSize c.alone.opcode + 1)) ++
        c.bus.inner.accesses ((Descriptor.ofOpcode c.alone.opcode).mode.replaces
          c.alone.operandCell (f c.regs c.alone.operandByte)) := by
    rw [instructionAccesses, transactions_of_replacement hf]
    exact c.bus.inner.accesses_fetches_append _ _ _
  rw [haccesses] at hlog hmemory
  refine ⟨fun hmode => ?_, fun hmode => ?_⟩
  · rw [AddressingMode.replaces, if_neg hmode] at hlog hmemory
    rw [if_neg hmode] at hregs
    constructor
    case log => rw [hlog, ← List.append_assoc]; rfl
    case memory =>
      rw [hmemory, Memory.replay_append, Memory.replay_fetches]
      rfl
    case regs => exact ⟨p, hregs⟩
  · have hsize : operandSize c.alone.opcode = 0 := by
      rw [operandSize, hmode]
      rfl
    rw [AddressingMode.replaces, if_pos hmode, hsize] at hlog hmemory
    rw [if_pos hmode] at hregs
    constructor
    case log => exact hlog
    case memory => exact hmemory
    case regs => exact ⟨p, hregs⟩

/-- `ROL $FFFF,X` at the end of the address space. With one in `X` the cell is at the beginning,
where the last byte of the instruction itself is. -/
theorem replacesOperand_of_wrapping_rol :
    ∃ c : Cpu (Traced Memory), c.alone.FetchesNext ∧ c.bus.recording = true ∧
      c.alone.operandCell = 0x0000 ∧
      c.step.2.bus.log.toList = [⟨.read, 0xFFFE, 0x3E⟩, ⟨.read, 0xFFFF, 0xFF⟩,
        ⟨.read, 0x0000, 0xFF⟩, ⟨.read, 0x0000, 0xFF⟩, ⟨.read, 0x0000, 0xFF⟩,
        ⟨.write, 0x0000, 0xFE⟩] := by
  obtain ⟨image, hfirst, hsecond, hthird⟩ : ∃ image : Memory,
      image.read 0xFFFE = 0x3E ∧ image.read 0xFFFF = 0xFF ∧ image.read 0x0000 = 0xFF := by
    refine ⟨((Memory.zeros.write 0xFFFE 0x3E).write 0xFFFF 0xFF).write 0x0000 0xFF, ?_⟩
    simp [Memory.read_write]
  let c : Cpu (Traced Memory) :=
    { settings := {}, regs := { pc := 0xFFFE, x := 0x01 }, bus := { inner := image } }
  have hunasked : Lines.idle.pending (({} : Registers).flag Status.irqDisable) = false := by decide
  have hnext : c.alone.FetchesNext := ⟨rfl, rfl, hunasked⟩
  have hopcode : c.alone.opcode = 0x3E := hfirst
  have hmode : (Descriptor.ofOpcode 0x3E).mode = .absoluteX := rfl
  have hcell : c.alone.operandCell = 0x0000 := by
    simp only [operandCell, hopcode, hmode]
    change wordOfBytes (image.read (0xFFFE + 1)) (image.read (0xFFFE + 2)) +
      (0x01 : UInt8).toUInt16 = 0x0000
    rw [show (0xFFFE : UInt16) + 1 = 0xFFFF by decide, show (0xFFFE : UInt16) + 2 = 0 by decide,
      hsecond, hthird]
    decide
  have hbyte : c.alone.operandByte = 0xFF := by
    rw [operandByte, hcell]
    exact hthird
  have hrotates : (Descriptor.ofOpcode c.alone.opcode).operation.replacement? =
      some fun regs value => value + value + UInt8.ofNat regs.carryIn := by
    rw [hopcode]
    rfl
  have hlog := ((replacesOperand_of_fetchesNext hnext rfl hrotates).1
    (by rw [hopcode]; decide)).log
  have hfetched : image.accesses (fetches 0xFFFE 3) = [⟨.read, 0xFFFE, image.read 0xFFFE⟩,
    ⟨.read, 0xFFFF, image.read 0xFFFF⟩, ⟨.read, 0x0000, image.read 0x0000⟩] := rfl
  have hwritten : (0xFF : UInt8) + 0xFF + UInt8.ofNat c.regs.carryIn = 0xFE := by
    change (0xFF : UInt8) + 0xFF + UInt8.ofNat (({} : Registers).carryIn) = 0xFE
    decide
  rw [hfirst, hsecond, hthird] at hfetched
  rw [hcell, hbyte, hopcode, hwritten] at hlog
  change _ = image.accesses (fetches 0xFFFE 3) ++ _ at hlog
  rw [hfetched] at hlog
  exact ⟨c, hnext, rfl, hcell, hlog⟩

end Cpu

end W65C02
