import Mathlib.Data.Nat.Digits.Lemmas
import Mathlib.Tactic.LinearCombination
import W65C02.Proofs.Cpu.Traffic
import W65C02.Proofs.Instruction.Arithmetic

/-!
# Calculating with numbers of any length

A number of several bytes is worked through from its lowest byte on. Each byte takes one
instruction, which combines the accumulator with an operand, and nothing but carry has to be kept
from one instruction to the next: the program may do anything else meanwhile. If every single step
is exact in some base, then the whole calculation is exact.
-/

namespace W65C02

/-- The number that bytes stand for, the lowest one first, if each of them is a digit of a base. -/
def numeral (base : ℕ) (digit : UInt8 → ℕ) (bytes : List UInt8) : ℕ :=
  Nat.ofDigits base (bytes.map digit)

section

variable {base : ℕ} {digit : UInt8 → ℕ}

/-- No bytes stand for zero. -/
@[simp] theorem numeral_nil : numeral base digit [] = 0 := Nat.ofDigits_nil

/-- The first byte is the lowest digit. -/
@[simp] theorem numeral_cons (b : UInt8) (bytes : List UInt8) :
    numeral base digit (b :: bytes) = digit b + base * numeral base digit bytes := by
  simp only [numeral, List.map_cons, Nat.ofDigits_cons]

/-- So many digits make less than the power of the base with that exponent. -/
theorem numeral_lt (hbase : 1 < base) {bytes : List UInt8} (h : ∀ b ∈ bytes, digit b < base) :
    numeral base digit bytes < base ^ bytes.length := by
  have hdigits : ∀ d ∈ bytes.map digit, d < base := List.forall_mem_map.mpr h
  have hlt := Nat.ofDigits_lt_base_pow_length hbase hdigits
  rwa [List.length_map] at hlt

end

namespace Registers

/-- The registers with a result in the accumulator, and with flags that describe it. -/
def withResult (outcome : UInt8 × Registers) : Registers :=
  { outcome.2 with a := outcome.1 }.withNZ outcome.1

/-- The zero and negative flags describe what is in the accumulator. -/
structure DescribesAccumulator (r : Registers) : Prop where
  /-- The zero flag tells that the accumulator is zero. -/
  zero : r.flag Status.zero = true ↔ r.a = 0
  /-- The negative flag is bit 7 of the accumulator. -/
  negative : r.flag Status.negative = r.a.toNat.testBit 7

variable (outcome : UInt8 × Registers)

/-- The result is in the accumulator. -/
@[simp] theorem a_withResult : (withResult outcome).a = outcome.1 := rfl

/-- The other flags stay. -/
theorem flag_withResult {mask : UInt8} (hnz : (Status.negative ||| Status.zero) &&& mask = 0)
    (hunused : Status.unused &&& mask = 0) :
    (withResult outcome).flag mask = outcome.2.flag mask := by
  have hnegative : Status.negative &&& mask = 0 := by
    rw [show Status.negative = Status.negative &&& (Status.negative ||| Status.zero) by decide,
      UInt8.and_assoc, hnz, UInt8.and_zero]
  have hzero : Status.zero &&& mask = 0 := by
    rw [show Status.zero = Status.zero &&& (Status.negative ||| Status.zero) by decide,
      UInt8.and_assoc, hnz, UInt8.and_zero]
  exact (flag_withFlag_of_disjoint _ _ hzero hunused).trans
    (flag_withFlag_of_disjoint _ _ hnegative hunused)

/-- The flags describe the result. -/
theorem describesAccumulator_withResult : (withResult outcome).DescribesAccumulator where
  zero := by
    have hflag : (withResult outcome).flag Status.zero = (outcome.1 == 0) :=
      flag_withFlag _ _ (by decide) (by decide)
    rw [hflag]
    exact beq_iff_eq
  negative := by
    have hflag : (withResult outcome).flag Status.negative = (outcome.1 &&& 0x80 != 0) :=
      (flag_withFlag_of_disjoint _ _ (by decide) (by decide)).trans
        (flag_withFlag _ _ (by decide) (by decide))
    rw [hflag]
    exact and_bit_seven outcome.1

end Registers

/-- An operand that is neither in the accumulator nor in the instruction is in a cell. -/
theorem Execution.operandValue_of_cell {β : Type} [Bus β] (e : Execution β) {mode : AddressingMode}
    (haccumulator : mode ≠ .accumulator) (himmediate : mode ≠ .immediate) :
    e.operandValue mode = e.read e.inFlight.effectiveAddress := by
  cases mode with
  | accumulator => exact absurd rfl haccumulator
  | immediate => exact absurd rfl himmediate
  | _ => rfl

namespace Cpu

/-- The operand of the instruction at the program counter: the byte after the opcode if the mode is
immediate, and otherwise the cell at the effective address. -/
def operand (c : Cpu Memory) : UInt8 :=
  if (Descriptor.ofOpcode c.opcode).mode = .immediate then c.bus.read (c.regs.pc + 1)
  else c.bus.read c.effectiveAddress

/-- The processor is about to carry out an operation, with the decimal and carry flags as given. -/
structure IsAboutTo (c : Cpu Memory) (operation : W65C02.Operation) (decimal carry : Bool) :
    Prop where
  /-- The processor is at a boundary and no interrupt is eligible. -/
  next : c.FetchesNext
  /-- The program counter is at an opcode of the operation. -/
  operation : (Descriptor.ofOpcode c.opcode).operation = operation
  /-- The decimal flag. -/
  decimal : c.regs.flag Status.decimal = decimal
  /-- The carry flag. -/
  carry : c.regs.flag Status.carry = carry

variable {operation : W65C02.Operation} {c : Cpu Memory}

/-- Fetching leaves the accumulator alone, -/
@[simp] theorem a_regsAfterFetch : c.regsAfterFetch.a = c.regs.a := rfl

/-- and all flags. -/
@[simp] theorem flag_regsAfterFetch (mask : UInt8) :
    c.regsAfterFetch.flag mask = c.regs.flag mask := rfl

/-- An instruction that combines the accumulator with its operand does so in a step. -/
theorem regs_step_of_accumulate (hnext : c.FetchesNext)
    (hmode : (Descriptor.ofOpcode c.opcode).mode ≠ .accumulator)
    {f : Registers → UInt8 → UInt8 × Registers}
    (hperform : ∀ e : Execution Memory,
      (Descriptor.ofOpcode c.opcode).operation.perform (Descriptor.ofOpcode c.opcode).mode
        c.settings.irqVector e = e.accumulate (Descriptor.ofOpcode c.opcode).mode f) :
    c.step.2.regs = .withResult (f c.regsAfterFetch c.operand) := by
  let mode := (Descriptor.ofOpcode c.opcode).mode
  let resolved := mode.locate c.fetched.operand c.regsAfterFetch c.port
  let located : Execution Memory := ⟨c.regsAfterFetch, c.runMode, { c.fetched with
    effectiveAddress := resolved.1.address, pageCrossed := resolved.1.pageCrossed }, resolved.2⟩
  have hoperand : (located.operandValue mode).1 = c.operand := by
    by_cases himmediate : mode = .immediate
    · have hsize : operandSize c.opcode = 1 := congrArg AddressingMode.operandSize himmediate
      rw [operand, if_pos himmediate, himmediate]
      change c.fetched.operand.first = _
      rw [fetched, hsize]
      rfl
    · have hport : resolved.2 = c.port := locate_port mode _ _ _
      rw [operand, if_neg himmediate, located.operandValue_of_cell hmode himmediate]
      change (resolved.2.read resolved.1.address).1 = _
      rw [hport]
      rfl
  have hregs : (located.operandValue mode).2.regs = c.regsAfterFetch := by
    cases mode <;> rfl
  have hatOnce : c.atOnce = describeResult (located.accumulate mode f) :=
    congrArg describeResult (hperform located)
  rw [step_of_fetchesNext hnext]
  change c.atOnce.regs = _
  rw [hatOnce]
  change Registers.withResult
    (f (located.operandValue mode).2.regs (located.operandValue mode).1) = _
  rw [hregs, hoperand]

namespace IsAboutTo

variable {decimal carry : Bool}

/-- No addition and no subtraction takes its operand from the accumulator. -/
private theorem table_arithmetic : ∀ opcode : Fin 256,
    (opcodeTable.get opcode).operation = .adc ∨ (opcodeTable.get opcode).operation = .sbc →
      (opcodeTable.get opcode).mode ≠ .accumulator := by
  decide +kernel

/-- A step of an addition. -/
theorem regs_step_of_adc (h : c.IsAboutTo .adc decimal carry) :
    c.step.2.regs = .withResult (if decimal then c.regsAfterFetch.decimalSum c.operand
      else c.regsAfterFetch.binarySum c.operand) := by
  rw [← h.decimal, ← flag_regsAfterFetch]
  refine regs_step_of_accumulate (f := Registers.add) h.next
    (table_arithmetic c.opcode.toFin (.inl h.operation)) fun _ => ?_
  rw [h.operation]
  rfl

/-- A step of a subtraction. -/
theorem regs_step_of_sbc (h : c.IsAboutTo .sbc decimal carry) :
    c.step.2.regs = .withResult (if decimal then c.regsAfterFetch.decimalDifference c.operand
      else c.regsAfterFetch.binaryDifference c.operand) := by
  rw [← h.decimal, ← flag_regsAfterFetch]
  refine regs_step_of_accumulate (f := Registers.subtract) h.next
    (table_arithmetic c.opcode.toFin (.inr h.operation)) fun _ => ?_
  rw [h.operation]
  rfl

/-- The flags describe what a step of either has left in the accumulator. -/
theorem describesAccumulator (h : c.IsAboutTo operation decimal carry)
    (hoperation : operation = .adc ∨ operation = .sbc) :
    c.step.2.regs.DescribesAccumulator := by
  rcases hoperation with rfl | rfl
  · rw [h.regs_step_of_adc]
    exact Registers.describesAccumulator_withResult _
  · rw [h.regs_step_of_sbc]
    exact Registers.describesAccumulator_withResult _

end IsAboutTo

/-- A processor over plain memory at an instruction with an immediate operand. -/
def atImmediate (opcode a operand : UInt8) (decimal carry : Bool) : Cpu Memory where
  settings := {}
  regs := (({ a } : Registers).withFlag Status.decimal decimal).withFlag Status.carry carry
  bus := (Memory.zeros.write 0 opcode).write 1 operand

variable {opcode cycles : UInt8} (a operand : UInt8) (decimal carry : Bool)

/-- The instruction there has the opcode, -/
theorem opcode_atImmediate (opcode : UInt8) :
    (atImmediate opcode a operand decimal carry).opcode = opcode := by
  simp [Cpu.opcode, atImmediate, Registers.withFlag, Memory.read_write]

/-- and the operand. -/
theorem operand_atImmediate
    (hd : Descriptor.ofOpcode opcode = .decimal operation .immediate cycles) :
    (atImmediate opcode a operand decimal carry).operand = operand := by
  have hmode : (Descriptor.ofOpcode (atImmediate opcode a operand decimal carry).opcode).mode =
      .immediate := by
    rw [opcode_atImmediate, hd]
    rfl
  rw [Cpu.operand, if_pos hmode]
  simp [atImmediate, Registers.withFlag, Memory.read_write]

/-- The processor is about to calculate with that operand. -/
theorem isAboutTo_atImmediate
    (hd : Descriptor.ofOpcode opcode = .decimal operation .immediate cycles) :
    (atImmediate opcode a operand decimal carry).IsAboutTo operation decimal carry where
  next := ⟨rfl, rfl, by cases (atImmediate opcode a operand decimal carry).regs.flag _ <;> rfl⟩
  operation := by
    rw [opcode_atImmediate, hd]
    rfl
  decimal := by
    refine (Registers.flag_withFlag_of_disjoint _ _ (by decide) (by decide)).trans ?_
    exact Registers.flag_withFlag _ _ (by decide) (by decide)
  carry := Registers.flag_withFlag _ _ (by decide) (by decide)

end Cpu

open Cpu

/-- Two numbers are combined byte by byte, from the lowest one on. Each byte takes a step of a
processor that has the byte of one number in its accumulator, the byte of the other number for its
operand, and carry as the step before has left it. All else may have changed between the steps. The
registers after each of them are listed. -/
inductive Calculation (operation : Operation) (decimal : Bool) :
    Bool → List UInt8 → List UInt8 → List Registers → Prop where
  /-- There are no more bytes. -/
  | done (carry : Bool) : Calculation operation decimal carry [] [] []
  /-- A byte and those above it. -/
  | step {c : Cpu Memory} {carry : Bool} {x y : List UInt8} {after : List Registers}
      (first : c.IsAboutTo operation decimal carry)
      (rest : Calculation operation decimal (c.step.2.regs.flag Status.carry) x y after) :
      Calculation operation decimal carry (c.regs.a :: x) (c.operand :: y) (c.step.2.regs :: after)

namespace Calculation

variable {operation : Operation} {decimal carry : Bool} {x y : List UInt8}
  {after : List Registers}

/-- The carry flag at the end. -/
def carryOut (carry : Bool) (after : List Registers) : Bool :=
  after.getLast?.elim carry (·.flag Status.carry)

/-- The carry of the first step goes into those after it. -/
theorem carryOut_cons (carry : Bool) (r : Registers) (after : List Registers) :
    carryOut carry (r :: after) = carryOut (r.flag Status.carry) after := by
  rw [carryOut, carryOut, List.getLast?_cons]
  cases after.getLast? <;> rfl

/-- The carry at the end is that of the last step. -/
theorem carryOut_of_getLast? {last : Registers} (hlast : after.getLast? = some last)
    (carry : Bool) : carryOut carry after = last.flag Status.carry := by
  rw [carryOut, hlast]
  rfl

/-- There is a step for each byte of both numbers. -/
theorem length_eq (h : Calculation operation decimal carry x y after) :
    after.length = x.length ∧ x.length = y.length := by
  induction h with
  | done carry => exact ⟨rfl, rfl⟩
  | step first rest ih => exact ⟨congrArg (· + 1) ih.1, congrArg (· + 1) ih.2⟩

/-- If there are any bytes then there is a last step. -/
theorem exists_last (h : Calculation operation decimal carry x y after) (hx : x ≠ []) :
    ∃ last, after.getLast? = some last := by
  have hafter : after ≠ [] := by
    rw [← List.length_pos_iff_ne_nil, h.length_eq.1]
    exact List.length_pos_iff_ne_nil.mpr hx
  exact ⟨after.getLast hafter, List.getLast?_eq_some_getLast hafter⟩

/-- What every step leaves holds after all of them. -/
theorem forall_after {p : Registers → Prop}
    (hstep : ∀ (c : Cpu Memory) (carry : Bool), c.IsAboutTo operation decimal carry →
      p c.step.2.regs)
    (h : Calculation operation decimal carry x y after) : ∀ r ∈ after, p r := by
  induction h with
  | done carry => exact nofun
  | step first rest ih => exact List.forall_mem_cons.mpr ⟨hstep _ _ first, ih⟩

/-- Any two numbers of as many bytes can be combined. -/
theorem exists_of_immediate (opcode : UInt8) {cycles : UInt8}
    (hd : Descriptor.ofOpcode opcode = .decimal operation .immediate cycles) (decimal carry : Bool)
    (hlength : x.length = y.length) : ∃ after, Calculation operation decimal carry x y after := by
  induction x generalizing y carry with
  | nil =>
    obtain rfl := List.length_eq_zero_iff.mp hlength.symm
    exact ⟨[], done carry⟩
  | cons a x ih =>
    obtain ⟨operand, y, rfl⟩ := List.exists_cons_of_length_eq_add_one hlength.symm
    let c := atImmediate opcode a operand decimal carry
    obtain ⟨after, hrest⟩ := ih (c.step.2.regs.flag Status.carry) (Nat.succ_inj.mp hlength)
    have hstep := step (isAboutTo_atImmediate a operand decimal carry hd) hrest
    rw [operand_atImmediate a operand decimal carry hd] at hstep
    exact ⟨_, hstep⟩

section Exact

variable (base : ℕ) (sign : ℤ) (carried : Bool → ℤ) (digit : UInt8 → ℕ) (IsDigit : UInt8 → Prop)

/-- If every step is exact in a base, then the calculation is: what comes out and the carry together
hold all of the result. -/
theorem exact_of_steps
    (hstep : ∀ (c : Cpu Memory) (carry : Bool), c.IsAboutTo operation decimal carry →
      IsDigit c.regs.a → IsDigit c.operand → IsDigit c.step.2.regs.a ∧
        (digit c.step.2.regs.a : ℤ) = digit c.regs.a + sign * digit c.operand + carried carry -
          base * carried (c.step.2.regs.flag Status.carry))
    (h : Calculation operation decimal carry x y after)
    (hx : ∀ b ∈ x, IsDigit b) (hy : ∀ b ∈ y, IsDigit b) :
    (∀ r ∈ after, IsDigit r.a) ∧
      (numeral base digit (after.map (·.a)) : ℤ) =
        numeral base digit x + sign * numeral base digit y + carried carry -
          base ^ x.length * carried (carryOut carry after) := by
  induction h with
  | done carry => simp [carryOut]
  | @step c carry x y after first rest ih =>
    rw [List.forall_mem_cons] at hx hy
    obtain ⟨hdigits, hvalue⟩ := ih hx.2 hy.2
    obtain ⟨hdigit, hfirst⟩ := hstep c carry first hx.1 hy.1
    refine ⟨List.forall_mem_cons.mpr ⟨hdigit, hdigits⟩, ?_⟩
    simp only [List.map_cons, numeral_cons, List.length_cons, carryOut_cons]
    push_cast
    linear_combination hfirst + base * hvalue

end Exact

end Calculation

end W65C02
