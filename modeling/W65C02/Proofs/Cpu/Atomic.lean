import W65C02.Bus.Memory
import W65C02.Cpu
import W65C02.Proofs.Cpu.Calls
import W65C02.Proofs.Cpu.Cycle
import W65C02.Proofs.Instruction.Lockstep

/-!
# Instructions in a single stroke

The processor fetches an instruction byte by byte, does its work with the last operand byte and
waits out the remaining cycles; the clock may stop and go on after any of them. Over plain
memory all this comes to the same as carrying out the instruction in a single stroke: reading
all its bytes at once, finding the effective address, performing the operation and setting the
flags.
-/

namespace W65C02

/-- The operand bytes at an address, all read at once. Those beyond the size are zero. -/
def Memory.operandAt (m : Memory) (address : UInt16) (size : Nat) : Operand :=
  #v[if 0 < size then m.read address else 0, if 1 < size then m.read (address + 1) else 0]

namespace Cpu

/-- The opcode at the program counter. -/
def opcode (c : Cpu Memory) : UInt8 := c.bus.read c.regs.pc

/-- The registers with the program counter behind the instruction that it points to. -/
def regsAfterFetch (c : Cpu Memory) : Registers :=
  { c.regs with pc := c.regs.pc + 1 + UInt16.ofNat (operandSize c.opcode) }

/-- The instruction at the program counter with all its operand bytes. -/
def fetched (c : Cpu Memory) : InFlight :=
  { InFlight.ofOpcode c.opcode with
    operand := c.bus.operandAt (c.regs.pc + 1) (operandSize c.opcode) }

/-- Lets the negative and zero flags describe the result of an operation. -/
def describeResult (e : Execution Memory) : Execution Memory :=
  match e.inFlight.nzResult with
  | some value => e.mapRegs (·.withNZ value)
  | none => e

/-- The instruction at the program counter in a single stroke: its bytes are read at once, the
effective address is found, the operation is performed, and the flags describe its result. -/
def atOnce (c : Cpu Memory) : Execution Memory :=
  let d := Descriptor.ofOpcode c.opcode
  let (resolved, port) := d.mode.locate c.fetched.operand c.regsAfterFetch c.port
  let flight :=
    { c.fetched with effectiveAddress := resolved.address, pageCrossed := resolved.pageCrossed }
  describeResult
    (d.operation.perform d.mode c.settings.irqVector ⟨c.regsAfterFetch, c.runMode, flight, port⟩)

/-- The cycles of the instruction at the program counter: the constant part, what branching adds,
one for a crossed page and one for decimal mode. -/
def cyclesAtOnce (c : Cpu Memory) : Nat :=
  (Descriptor.ofOpcode c.opcode).exactCycles c.atOnce.inFlight.extraCycles.toNat
    c.atOnce.inFlight.pageCrossed (c.regs.flag Status.decimal)

/-- The processor after the instruction at the program counter: the registers, the memory and the
run mode are those of the single stroke, its cycles have passed, and it has been counted. -/
def afterInstruction (c : Cpu Memory) : Cpu Memory :=
  { c with
    regs := c.atOnce.regs
    runMode := c.atOnce.runMode
    bus := c.atOnce.port.bus
    inFlight := none
    counters := { c.counters with
      cycles := c.counters.cycles + UInt64.ofNat c.cyclesAtOnce
      instructions := c.counters.instructions + 1 } }

/-- The instruction with the opcode and a number of operand bytes fetched. -/
def fetching (c : Cpu Memory) (count : Nat) : Execution Memory where
  regs := { c.regs with pc := c.regs.pc + 1 + UInt16.ofNat count }
  runMode := .running
  inFlight :=
    { InFlight.ofOpcode c.opcode with
      operand := c.bus.operandAt (c.regs.pc + 1) count
      fetched := UInt8.ofNat count
      elapsed := UInt8.ofNat (count + 1) }
  port := c.port

/-- The processor after the opcode and a number of operand bytes have been fetched. -/
def whileFetching (c : Cpu Memory) (count : Nat) : Cpu Memory :=
  { c with
    regs := (c.fetching count).regs
    inFlight := some (c.fetching count).inFlight
    counters := { c.counters with cycles := c.counters.cycles + UInt64.ofNat (count + 1) } }

/-- The processor when the work of the instruction is done and some of its cycles are left. -/
def whileWaiting (c : Cpu Memory) (elapsed : Nat) : Cpu Memory :=
  { c with
    regs := c.atOnce.regs
    runMode := c.atOnce.runMode
    bus := c.atOnce.port.bus
    inFlight := (c.atOnce.withProgress .retire (UInt8.ofNat (operandSize c.opcode))
      (UInt8.ofNat elapsed) (UInt8.ofNat c.cyclesAtOnce)).inFlight
    counters := { c.counters with cycles := c.counters.cycles + UInt64.ofNat elapsed } }

/-- The processor after a number of cycles, up to the end of the instruction. -/
def during (c : Cpu Memory) (elapsed : Nat) : Cpu Memory :=
  if elapsed = 0 then c
  else if elapsed ≤ operandSize c.opcode then c.whileFetching (elapsed - 1)
  else if elapsed < c.cyclesAtOnce then c.whileWaiting elapsed
  else c.afterInstruction

/-- Describing a result touches nothing but the registers: -/
theorem describeResult_inFlight (e : Execution Memory) :
    (describeResult e).inFlight = e.inFlight := by
  unfold describeResult
  split <;> rfl

/-- the world is the same too. -/
theorem describeResult_port (e : Execution Memory) : (describeResult e).port = e.port := by
  unfold describeResult
  split <;> rfl

/-- The single stroke leaves the fetched bytes alone and adds no more cycles than branching
can. -/
theorem atOnce_inFlight (c : Cpu Memory) :
    ∃ added ≤ (Descriptor.ofOpcode c.opcode).operation.branchCycles, ∃ address crossed result,
      c.atOnce.inFlight =
        { c.fetched with
          effectiveAddress := address
          pageCrossed := crossed
          extraCycles := UInt8.ofNat added
          nzResult := result } := by
  let d := Descriptor.ofOpcode c.opcode
  let resolved := d.mode.locate c.fetched.operand c.regsAfterFetch c.port
  obtain ⟨added, hadded, result, hflight⟩ := d.operation.perform_inFlight d.mode
    c.settings.irqVector ⟨c.regsAfterFetch, c.runMode, { c.fetched with
      effectiveAddress := resolved.1.address, pageCrossed := resolved.1.pageCrossed }, resolved.2⟩
  refine ⟨added, hadded, resolved.1.address, resolved.1.pageCrossed, result, ?_⟩
  have hnone : c.fetched.extraCycles = 0 := rfl
  unfold atOnce
  rw [describeResult_inFlight]
  rw [hnone, UInt8.zero_add] at hflight
  exact hflight

/-- The instruction adds no more cycles than branching may add. -/
theorem atOnce_extraCycles (c : Cpu Memory) :
    c.atOnce.inFlight.extraCycles.toNat ≤
      (Descriptor.ofOpcode c.opcode).operation.branchCycles := by
  obtain ⟨added, hadded, _, _, _, hflight⟩ := c.atOnce_inFlight
  rw [hflight]
  exact Nat.le_trans (Nat.mod_le added _) hadded

/-- An instruction takes a cycle for each of its bytes at least. -/
theorem operandSize_lt_cyclesAtOnce (c : Cpu Memory) : operandSize c.opcode < c.cyclesAtOnce :=
  Descriptor.operandSize_lt_exactCycles _ _ _ _

/-- No instruction takes more than eight cycles. -/
theorem cyclesAtOnce_le_eight (c : Cpu Memory) : c.cyclesAtOnce ≤ 8 :=
  Descriptor.exactCycles_le_eight _ c.atOnce_extraCycles _ _

/-- Finding an operand does not change plain memory. -/
theorem locate_port (mode : AddressingMode) (operand : Operand) (regs : Registers)
    (port : Port Memory) : (mode.locate operand regs port).2 = port := by
  cases mode <;> rfl

/-- Plain memory does not move the interrupt lines. -/
theorem atOnce_lines (c : Cpu Memory) : c.atOnce.port.lines = c.interrupts.lines := by
  have hinvariant : Invariant fun (_ : Nat) (e : Execution Memory) =>
      e.port.lines = c.interrupts.lines := by
    constructor <;> intros <;> assumption
  let d := Descriptor.ofOpcode c.opcode
  let resolved := d.mode.locate c.fetched.operand c.regsAfterFetch c.port
  have hstart : resolved.2.lines = c.interrupts.lines := by
    rw [locate_port]
    rfl
  obtain ⟨_, _, hlines⟩ := hinvariant.perform (k := 0) d.operation d.mode c.settings.irqVector
    (e := ⟨c.regsAfterFetch, c.runMode, { c.fetched with
      effectiveAddress := resolved.1.address, pageCrossed := resolved.1.pageCrossed }, resolved.2⟩)
    hstart
  exact (congrArg Port.lines (describeResult_port _)).trans hlines

/-- The accumulator operations leave decimal mode as it is if their function does. -/
theorem flag_decimal_accumulate {β : Type} [Bus β] (e : Execution β) (mode : AddressingMode)
    {g : Registers → UInt8 → UInt8 × Registers}
    (hg : ∀ (r : Registers) v, (g r v).2.flag Status.decimal = r.flag Status.decimal) :
    (e.accumulate mode g).regs.flag Status.decimal = e.regs.flag Status.decimal := by
  have hregs : (e.operandValue mode).2.regs = e.regs := by
    cases mode <;> rfl
  exact (hg _ _).trans (congrArg (Registers.flag · Status.decimal) hregs)

/-- The description of a result leaves decimal mode alone. -/
theorem flag_decimal_describeResult (e : Execution Memory) :
    (describeResult e).regs.flag Status.decimal = e.regs.flag Status.decimal := by
  unfold describeResult
  split
  · exact (Registers.KeepsControlBits.withNZ _).decimal
  · rfl

/-- The instructions that pay for decimal mode do not leave it. -/
theorem flag_decimal_atOnce {c : Cpu Memory}
    (hpays : (Descriptor.ofOpcode c.opcode).decimalPenalty = true) :
    c.atOnce.regs.flag Status.decimal = c.regs.flag Status.decimal := by
  unfold atOnce
  rw [flag_decimal_describeResult]
  rcases Descriptor.operation_of_decimalPenalty hpays with hop | hop <;> rw [hop]
  · exact flag_decimal_accumulate _ _ fun _ v => (Registers.KeepsControlBits.add v).decimal
  · exact flag_decimal_accumulate _ _ fun _ v => (Registers.KeepsControlBits.subtract v).decimal

/-- The flag counts for the instructions that pay for decimal mode only, so it does not matter
that the processor looks at it after the operation. -/
theorem cycles_atOnce (c : Cpu Memory) :
    (Descriptor.ofOpcode c.opcode).cycles c.atOnce.inFlight.extraCycles
      c.atOnce.inFlight.pageCrossed (c.atOnce.regs.flag Status.decimal) =
      UInt8.ofNat c.cyclesAtOnce := by
  have hmode : ((Descriptor.ofOpcode c.opcode).decimalPenalty &&
      c.atOnce.regs.flag Status.decimal) =
      ((Descriptor.ofOpcode c.opcode).decimalPenalty && c.regs.flag Status.decimal) := by
    cases hpays : (Descriptor.ofOpcode c.opcode).decimalPenalty with
    | false => rfl
    | true => rw [flag_decimal_atOnce hpays]
  have hexact := Descriptor.cycles_toNat c.opcode c.atOnce_extraCycles
    c.atOnce.inFlight.pageCrossed (c.atOnce.regs.flag Status.decimal)
  simp only [Descriptor.exactCycles, hmode] at hexact
  have hbound := c.cyclesAtOnce_le_eight
  apply UInt8.toNat_inj.mp
  rw [hexact, UInt8.toNat_ofNat_of_lt' (Nat.lt_of_le_of_lt hbound (by decide))]
  rfl

/-- Work ends with the description of the result, and with the total that is fixed then. -/
theorem conclude_eq (e : Execution Memory) (d : Descriptor) :
    e.conclude d =
      (describeResult e).withProgress .retire e.inFlight.fetched e.inFlight.elapsed
        (d.cycles e.inFlight.extraCycles e.inFlight.pageCrossed
          ((describeResult e).regs.flag Status.decimal)) := by
  unfold Execution.conclude describeResult
  cases e.inFlight.nzResult <;> rfl

/-- How far an instruction has come makes no difference to the description of its result. -/
theorem describeResult_withProgress (e : Execution Memory) (phase : Phase)
    (fetched elapsed total : UInt8) :
    describeResult (e.withProgress phase fetched elapsed total) =
      (describeResult e).withProgress phase fetched elapsed total := by
  have hsame : (e.withProgress phase fetched elapsed total).inFlight.nzResult =
      e.inFlight.nzResult := rfl
  unfold describeResult
  rw [hsame]
  cases e.inFlight.nzResult <;> rfl

/-- Once all bytes are fetched the processor does what the single stroke does; the bytes and
cycles on record make no difference. -/
theorem finishWork_fetching {c : Cpu Memory} (hrunning : c.runMode = .running) :
    (c.fetching (operandSize c.opcode)).finishWork c.settings.irqVector =
      c.atOnce.withProgress .retire (UInt8.ofNat (operandSize c.opcode))
        (UInt8.ofNat (operandSize c.opcode + 1)) (UInt8.ofNat c.cyclesAtOnce) := by
  let d := Descriptor.ofOpcode c.opcode
  let fetched := UInt8.ofNat (operandSize c.opcode)
  let elapsed := UInt8.ofNat (operandSize c.opcode + 1)
  let resolved := d.mode.locate c.fetched.operand c.regsAfterFetch c.port
  let located : Execution Memory := ⟨c.regsAfterFetch, c.runMode, { c.fetched with
    effectiveAddress := resolved.1.address, pageCrossed := resolved.1.pageCrossed }, resolved.2⟩
  have hlocate : (c.fetching (operandSize c.opcode)).locateOperand d.mode =
      located.withProgress .decode fetched elapsed 0 := by
    change _ = ({ located with runMode := c.runMode } : Execution Memory).withProgress _ _ _ _
    rw [hrunning]
    rfl
  have hatOnce : c.atOnce =
      describeResult (d.operation.perform d.mode c.settings.irqVector located) := rfl
  have hflight : c.atOnce.inFlight =
      (d.operation.perform d.mode c.settings.irqVector located).inFlight :=
    describeResult_inFlight _
  have hperform := d.operation.perform_withProgress d.mode c.settings.irqVector located .decode
    fetched elapsed 0
  have hcycles := c.cycles_atOnce
  rw [hflight] at hcycles
  change (d.operation.perform d.mode c.settings.irqVector (Execution.locateOperand _ d.mode)).conclude
    d = _
  rw [hlocate, hperform, conclude_eq, describeResult_withProgress, ← hatOnce, ← hcycles]
  rfl

/-- One more operand byte. -/
theorem fetchOperand_fetching (c : Cpu Memory) {count : Nat} (hcount : count < 2) :
    ({ c.fetching count with inFlight.elapsed := UInt8.ofNat (count + 2) } :
      Execution Memory).fetchOperand = c.fetching (count + 1) := by
  have hcases : count = 0 ∨ count = 1 := by omega
  rcases hcases with rfl | rfl
  · have haddress : c.regs.pc + 1 + UInt16.ofNat 0 = c.regs.pc + 1 := UInt16.add_zero _
    simp only [Execution.fetchOperand, fetching, haddress, Registers.nextByte]
    rfl
  · have haddress : c.regs.pc + 1 + UInt16.ofNat 1 + 1 = c.regs.pc + 1 + UInt16.ofNat (1 + 1) := by
      rw [UInt16.add_assoc]
      rfl
    simp only [Execution.fetchOperand, fetching, Registers.nextByte, haddress]
    rfl

/-- One more cycle on record. -/
theorem spendCycle_of_elapsed {flight : InFlight} {k : Nat} (hk : k < 255)
    (helapsed : flight.elapsed = UInt8.ofNat k) :
    flight.spendCycle = { flight with elapsed := UInt8.ofNat (k + 1) } := by
  have hne : UInt8.ofNat k ≠ 0xFF := by
    intro heq
    have hnat := congrArg UInt8.toNat heq
    rw [UInt8.toNat_ofNat_of_lt' (Nat.lt_trans hk (by decide))] at hnat
    exact Nat.ne_of_lt hk hnat
  rw [InFlight.spendCycle, helapsed, if_neg hne, UInt8.ofNat_add]
  rfl

/-- The processor is about to fetch an instruction: it is running, nothing is in flight, and no
interrupt is eligible. RESET and NMI are not pending, and IRQ is masked or nobody holds it. -/
structure FetchesNext (c : Cpu Memory) : Prop where
  /-- Nothing is in flight. -/
  atBoundary : c.inFlight = none
  /-- The processor is not halted. -/
  running : c.runMode = .running
  /-- No interrupt is eligible. -/
  unasked : c.interrupts.lines.pending (c.regs.flag Status.irqDisable) = false

/-- The work is done, and the instruction is complete when its last cycle is over. -/
theorem isDone_atOnce (c : Cpu Memory) (fetched : UInt8) {k : Nat} (hk : k ≤ c.cyclesAtOnce) :
    (c.atOnce.withProgress .retire fetched (UInt8.ofNat k)
      (UInt8.ofNat c.cyclesAtOnce)).inFlight.isDone = decide (c.cyclesAtOnce ≤ k) := by
  have hbound := c.cyclesAtOnce_le_eight
  have hle : UInt8.ofNat c.cyclesAtOnce ≤ UInt8.ofNat k ↔ c.cyclesAtOnce ≤ k := by
    rw [UInt8.le_iff_toNat_le, UInt8.toNat_ofNat', UInt8.toNat_ofNat']
    omega
  simp only [Execution.withProgress, InFlight.isDone, decide_true, Bool.true_and, hle]

/-- What the work of the instruction leaves behind is waited out or, in the last cycle,
complete. -/
theorem settle_atOnce {b c : Cpu Memory} {k : Nat} (hsettings : b.settings = c.settings)
    (hinterrupts : b.interrupts = c.interrupts)
    (hcounters : b.counters =
      { c.counters with cycles := c.counters.cycles + UInt64.ofNat k })
    (hfetched : operandSize c.opcode < k) (hk : k ≤ c.cyclesAtOnce) :
    b.settle (c.atOnce.withProgress .retire (UInt8.ofNat (operandSize c.opcode)) (UInt8.ofNat k)
      (UInt8.ofNat c.cyclesAtOnce)) = c.during k := by
  have hlines : ({ c.interrupts with lines := c.atOnce.port.lines } : InterruptController) =
      c.interrupts := by
    rw [atOnce_lines]
  have hdone := c.isDone_atOnce (UInt8.ofNat (operandSize c.opcode)) hk
  have hstarted : k ≠ 0 := by omega
  have hpast : ¬ k ≤ operandSize c.opcode := by omega
  simp only [during, if_neg hstarted, if_neg hpast]
  by_cases hlast : k < c.cyclesAtOnce
  · rw [if_pos hlast, settle_of_not_isDone _ (hdone.trans (decide_eq_false (by omega))),
      hsettings, hinterrupts, hcounters]
    simp only [whileWaiting, Execution.withProgress, hlines]
  · have heq : k = c.cyclesAtOnce := by omega
    obtain ⟨_, _, _, _, _, hflight⟩ := c.atOnce_inFlight
    have hactivity : c.atOnce.inFlight.activity = .instruction := congrArg (·.activity) hflight
    rw [if_neg hlast, settle_of_isDone _ (hdone.trans (decide_eq_true (by omega))),
      hsettings, hinterrupts, hcounters]
    simp only [afterInstruction, Execution.withProgress, hactivity, hlines, Counters.complete, heq]

/-- With the last operand byte the work is done; before it the processor goes on fetching. -/
theorem settle_fetching {b c : Cpu Memory} {count : Nat} (hrunning : c.runMode = .running)
    (hsettings : b.settings = c.settings) (hinterrupts : b.interrupts = c.interrupts)
    (hcounters : b.counters =
      { c.counters with cycles := c.counters.cycles + UInt64.ofNat (count + 1) })
    (hcount : count ≤ operandSize c.opcode) :
    b.settle (if operandSize c.opcode ≤ count then
      (c.fetching count).finishWork c.settings.irqVector else c.fetching count) =
      c.during (count + 1) := by
  by_cases hlast : operandSize c.opcode ≤ count
  · obtain rfl : count = operandSize c.opcode := by omega
    rw [if_pos hlast, finishWork_fetching hrunning]
    exact settle_atOnce hsettings hinterrupts hcounters (Nat.lt_succ_self _)
      c.operandSize_lt_cyclesAtOnce
  · have hfetching : count + 1 ≤ operandSize c.opcode := by omega
    rw [if_neg hlast, settle_of_not_isDone _ rfl, hsettings, hinterrupts, hcounters]
    simp only [during, Nat.add_one_ne_zero, if_false, if_pos hfetching, Nat.add_sub_cancel,
      whileFetching, hrunning]
    rfl

/-- The first cycle fetches the opcode. -/
theorem cycle_of_fetchesNext {c : Cpu Memory} (h : c.FetchesNext) :
    c.cycle = (true, c.during 1) := by
  have hwake : c.wake? = some .running := by
    simp only [wake?, h.running]
  have hfirst : ({ c.fetching 0 with regs := c.regs.nextByte } : Execution Memory) =
      c.fetching 0 := by
    have haddress : c.regs.pc + 1 + UInt16.ofNat 0 = c.regs.pc + 1 := UInt16.add_zero _
    simp only [fetching, haddress, Registers.nextByte]
  have hfetch : (⟨c.regs, .running, .ofOpcode 0, c.port⟩ : Execution Memory).fetchOpcode
      c.settings.irqVector = if operandSize c.opcode ≤ 0 then
        (c.fetching 0).finishWork c.settings.irqVector else c.fetching 0 := by
    simp only [Nat.le_zero_eq]
    rw [← hfirst]
    rfl
  rw [cycle_of_fetch rfl h.atBoundary hwake h.unasked, hfetch]
  exact congrArg (true, ·) (settle_fetching h.running rfl rfl rfl (Nat.zero_le _))

/-- One more cycle is counted. -/
theorem clocked_counters {b c : Cpu Memory} {k : Nat}
    (hcounters : b.counters =
      { c.counters with cycles := c.counters.cycles + UInt64.ofNat k }) :
    b.clocked.counters =
      { c.counters with cycles := c.counters.cycles + UInt64.ofNat (k + 1) } := by
  have hcycles : c.counters.cycles + UInt64.ofNat k + 1 =
      c.counters.cycles + UInt64.ofNat (k + 1) := by
    rw [UInt64.add_assoc, UInt64.ofNat_add]
    rfl
  simp only [clocked, hcounters, hcycles]

/-- A cycle while the instruction is being fetched fetches its next byte. -/
theorem cycle_whileFetching {c : Cpu Memory} (hrunning : c.runMode = .running) {count : Nat}
    (hmore : count < operandSize c.opcode) :
    (c.whileFetching count).cycle = (true, c.during (count + 2)) := by
  have hsize := (Descriptor.ofOpcode c.opcode).mode.operandSize_le_two
  have hcount : count < 2 := Nat.lt_of_lt_of_le hmore hsize
  have hbytes : ∀ n ≤ 2, (UInt8.ofNat n).toNat = n := fun n hn =>
    UInt8.toNat_ofNat_of_lt' (Nat.lt_of_le_of_lt hn (by decide))
  have hspend : (c.fetching count).inFlight.spendCycle =
      { (c.fetching count).inFlight with elapsed := UInt8.ofNat (count + 2) } :=
    spendCycle_of_elapsed (by omega) rfl
  have hresume : ({ c.fetching count with
      inFlight.elapsed := UInt8.ofNat (count + 2) } : Execution Memory).resume
        c.settings.irqVector = if operandSize c.opcode ≤ count + 1 then
      (c.fetching (count + 1)).finishWork c.settings.irqVector else c.fetching (count + 1) := by
    have hmissing : (UInt8.ofNat count).toNat < operandSize c.opcode := by
      rw [hbytes count (Nat.le_of_lt hcount)]
      exact hmore
    rw [Execution.resume_of_decode _ rfl rfl hmissing, c.fetchOperand_fetching hcount]
    change (if operandSize c.opcode ≤ (UInt8.ofNat (count + 1)).toNat then _ else _) = _
    rw [hbytes (count + 1) hcount]
  rw [cycle_of_inFlight rfl rfl, hspend]
  change (true, (c.whileFetching count).clocked.settle (Execution.resume
    { c.fetching count with
      runMode := c.runMode, inFlight.elapsed := UInt8.ofNat (count + 2) } _)) = _
  rw [hrunning]
  refine congrArg (true, ·) ((congrArg _ hresume).trans ?_)
  exact settle_fetching hrunning rfl rfl (clocked_counters rfl) hmore

/-- A cycle of waiting changes nothing but the count of cycles, and the last one completes the
instruction. -/
theorem cycle_whileWaiting {c : Cpu Memory} {k : Nat} (hfetched : operandSize c.opcode < k)
    (hk : k < c.cyclesAtOnce) : (c.whileWaiting k).cycle = (true, c.during (k + 1)) := by
  have hbound := c.cyclesAtOnce_le_eight
  have hspend := spendCycle_of_elapsed (by omega : k < 255) (show
    (c.atOnce.withProgress .retire (UInt8.ofNat (operandSize c.opcode)) (UInt8.ofNat k)
      (UInt8.ofNat c.cyclesAtOnce)).inFlight.elapsed = UInt8.ofNat k from rfl)
  rw [cycle_of_inFlight rfl rfl, hspend, Execution.resume_of_retire _ rfl]
  change (true, (c.whileWaiting k).clocked.settle
    { c.atOnce.withProgress .retire (UInt8.ofNat (operandSize c.opcode)) (UInt8.ofNat (k + 1))
        (UInt8.ofNat c.cyclesAtOnce) with
      port := ⟨c.atOnce.port.bus, c.interrupts.lines⟩ }) = _
  rw [← atOnce_lines]
  exact congrArg (true, ·) (settle_atOnce rfl rfl (clocked_counters rfl) (by omega) hk)

/-- Every cycle up to the last one of the instruction comes one further. -/
theorem cycle_during {c : Cpu Memory} (h : c.FetchesNext) {k : Nat} (hk : k < c.cyclesAtOnce) :
    (c.during k).cycle = (true, c.during (k + 1)) := by
  by_cases hstart : k = 0
  · subst hstart
    exact cycle_of_fetchesNext h
  by_cases hfetching : k ≤ operandSize c.opcode
  · obtain ⟨count, rfl⟩ := Nat.exists_eq_succ_of_ne_zero hstart
    have hduring : c.during (count + 1) = c.whileFetching count := by
      simp only [during, if_neg hstart, if_pos hfetching, Nat.add_sub_cancel]
    rw [hduring]
    exact cycle_whileFetching h.running hfetching
  · have hduring : c.during k = c.whileWaiting k := by
      simp only [during, if_neg hstart, if_neg hfetching, if_pos hk]
    rw [hduring]
    exact cycle_whileWaiting (by omega) hk

/-- Up to the end of the instruction each number of cycles leads to the state described for it. -/
theorem tick_eq_during {c : Cpu Memory} (h : c.FetchesNext) {k : Nat} (hk : k ≤ c.cyclesAtOnce) :
    c.tick k = c.during k := by
  induction k with
  | zero => rfl
  | succ k ih => rw [tick_succ, ih (by omega), cycle_during h hk]

/-- With all its cycles the instruction is complete. -/
theorem during_cyclesAtOnce (c : Cpu Memory) : c.during c.cyclesAtOnce = c.afterInstruction := by
  have hsize := c.operandSize_lt_cyclesAtOnce
  unfold during
  rw [if_neg (by omega), if_neg (by omega), if_neg (by omega)]

/-- Between its first and its last cycle the instruction is in flight and not yet counted. -/
theorem during_inFlight {c : Cpu Memory} {k : Nat} (hpos : 0 < k) (hk : k < c.cyclesAtOnce) :
    (c.during k).inFlight.isSome = true ∧
      (c.during k).counters.instructions = c.counters.instructions := by
  unfold during
  rw [if_neg (by omega), if_pos hk]
  split
  · exact ⟨rfl, rfl⟩
  · exact ⟨rfl, rfl⟩

/-- A step from anywhere within the instruction runs through the rest of it. -/
theorem step_during {c : Cpu Memory} (h : c.FetchesNext) {k : Nat} (hk : k < c.cyclesAtOnce) :
    (c.during k).step = (c.cyclesAtOnce - k, c.afterInstruction) := by
  have hbound := c.cyclesAtOnce_le_eight
  have htick : ∀ j, k + j ≤ c.cyclesAtOnce → (c.during k).tick j = c.during (k + j) := by
    intro j hj
    rw [← tick_eq_during h (by omega : k ≤ c.cyclesAtOnce), ← tick_add, tick_eq_during h hj]
  obtain ⟨rest, hrest⟩ : ∃ rest, c.cyclesAtOnce = k + (rest + 1) :=
    ⟨c.cyclesAtOnce - k - 1, by omega⟩
  have hend : (c.during k).tick (rest + 1) = c.afterInstruction := by
    rw [htick _ (by omega), ← hrest, during_cyclesAtOnce]
  have hstep : (c.during k).stepWithin stepLimit = _ := stepWithin_eq_of_inFlight (n := rest)
    (fun j hj => by rw [htick j (by omega), cycle_during h (by omega)])
    (fun j hj => by
      rw [htick (j + 1) (by omega)]
      exact (during_inFlight (by omega) (by omega)).1)
    (by rw [hend]; rfl) (by unfold stepLimit; omega)
  rw [hend] at hstep
  rw [step, hstep, hrest, Nat.add_sub_cancel_left]

/-- A step from a boundary carries out the instruction at the program counter. -/
theorem step_of_fetchesNext {c : Cpu Memory} (h : c.FetchesNext) :
    c.step = (c.cyclesAtOnce, c.afterInstruction) :=
  step_during h (Nat.zero_lt_of_lt c.operandSize_lt_cyclesAtOnce)

/-- An instruction that neither branches nor pays penalties has the cycles of the table. -/
theorem cyclesAtOnce_of_plain {c : Cpu Memory} {operation : Operation} {mode : AddressingMode}
    {cycles : UInt8} (hd : Descriptor.ofOpcode c.opcode = .plain operation mode cycles)
    (hbranch : operation.branchCycles = 0) : c.cyclesAtOnce = cycles.toNat := by
  obtain ⟨added, hadded, address, crossed, result, hflight⟩ := c.atOnce_inFlight
  rw [hd] at hadded
  have hnone : added = 0 := Nat.le_zero.mp (Nat.le_trans hadded (Nat.le_of_eq hbranch))
  rw [cyclesAtOnce, hflight, hd, hnone]
  rfl

/-- However the host splits the cycles into calls, a processor that is about to fetch an
instruction carries it out as in a single stroke. Until the cycles of the instruction are used up
it is in flight and not counted, and a step runs through what is left of it. From then on the
processor is the one after the instruction, gone on by the cycles left over. -/
theorem calls_through_instruction (c : Cpu Memory) (h : c.FetchesNext) (calls : List Call) :
    ((c.calls calls).1 < c.cyclesAtOnce →
      (0 < (c.calls calls).1 → (c.calls calls).2.inFlight.isSome = true) ∧
        (c.calls calls).2.counters.instructions = c.counters.instructions ∧
        (c.calls calls).2.step = (c.cyclesAtOnce - (c.calls calls).1, c.afterInstruction)) ∧
      (c.cyclesAtOnce ≤ (c.calls calls).1 →
        (c.calls calls).2 = c.afterInstruction.tick ((c.calls calls).1 - c.cyclesAtOnce)) := by
  have hcalls : (c.calls calls).2 = c.tick (c.calls calls).1 :=
    congrArg Prod.snd (c.calls_eq_tick calls)
  generalize (c.calls calls).1 = spent at hcalls ⊢
  rw [hcalls]
  refine ⟨fun hless => ?_, fun hmore => ?_⟩
  · rw [tick_eq_during h (by omega)]
    refine ⟨fun hpos => (during_inFlight hpos hless).1, ?_, step_during h hless⟩
    by_cases hstart : spent = 0
    · rw [hstart]
      rfl
    · exact (during_inFlight (by omega) hless).2
  · obtain ⟨rest, rfl⟩ := Nat.exists_eq_add_of_le hmore
    rw [tick_add, tick_eq_during h (Nat.le_refl _), during_cyclesAtOnce, Nat.add_sub_cancel_left]

/-- An addition in decimal mode whose operand byte is beyond the end of the address space takes
three cycles, here the first by itself and the others in a step. -/
theorem calls_through_wrapping_addition :
    let c : Cpu Memory :=
      { settings := {}, regs := { pc := 0xFFFF, p := 0x3C },
        bus := Memory.zeros.write 0xFFFF 0x69 }
    c.FetchesNext ∧ c.cyclesAtOnce = 3 ∧ (c.tick 1).step = (2, c.afterInstruction) := by
  intro c
  have hnext : c.FetchesNext := ⟨rfl, rfl, by decide⟩
  have hopcode : c.opcode = 0x69 := by
    simp only [opcode, c, Memory.read_write, if_true]
  have hcycles : c.cyclesAtOnce = 3 := by
    obtain ⟨added, hadded, address, crossed, _, hflight⟩ := c.atOnce_inFlight
    have hdecimal : c.regs.flag Status.decimal = true := by decide
    rw [hopcode] at hadded
    rw [cyclesAtOnce, hflight, hopcode, hdecimal, Nat.le_zero.mp hadded]
    rfl
  have hfirst := (calls_through_instruction c hnext [.tick 1]).1 (by rw [hcycles]; decide)
  refine ⟨hnext, hcycles, ?_⟩
  have hstep := hfirst.2.2
  rw [hcycles] at hstep
  exact hstep

end Cpu

end W65C02
