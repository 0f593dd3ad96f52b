import W65C02.Proofs.Cpu.Atomic
import W65C02.Proofs.Cpu.Tracing
import W65C02.Proofs.Instruction.Traffic

/-!
# The bus traffic of an instruction

An instruction reads its own bytes, then the pointer of its mode, and then it does what its
operation asks for. A processor on any bus that answers like a memory asks for exactly this in one
step. On a traced memory the record shows it, access by access: no cell changes but those that the
operation writes, and there is a cycle for each access.
-/

namespace W65C02

open Transaction

namespace Cpu

/-- The effective address of the instruction at the program counter. -/
def effectiveAddress (c : Cpu Memory) : UInt16 :=
  ((Descriptor.ofOpcode c.opcode).mode.locate c.fetched.operand c.regsAfterFetch c.port).1.address

/-- What the operation of the instruction at the program counter asks for. -/
def handling (c : Cpu Memory) : List Transaction :=
  let d := Descriptor.ofOpcode c.opcode
  d.mode.pointerReads c.fetched.operand c.regsAfterFetch ++
    d.operation.transactions d.mode c.settings.irqVector c.regsAfterFetch c.effectiveAddress
      (c.bus.read c.effectiveAddress)

/-- What the instruction at the program counter asks for: its own bytes, the pointer of its mode,
and what its operation needs. -/
def transactions (c : Cpu Memory) : List Transaction :=
  fetches c.regs.pc (operandSize c.opcode + 1) ++ c.handling

/-- Where the instruction at the program counter writes. -/
def writtenAddresses (c : Cpu Memory) : List UInt16 :=
  (Descriptor.ofOpcode c.opcode).operation.writtenAddresses (Descriptor.ofOpcode c.opcode).mode
    c.regs.s c.effectiveAddress

/-- The transactions of an instruction write to the addresses that it is said to write to. -/
theorem written_transactions (c : Cpu Memory) :
    c.transactions.filterMap written? = c.writtenAddresses := by
  simp only [transactions, handling, List.filterMap_append, written_fetches,
    AddressingMode.written_pointerReads, Operation.written_transactions, List.nil_append]
  rfl

/-- There is a cycle for each access. -/
theorem length_transactions_le (c : Cpu Memory) : c.transactions.length ≤ c.cyclesAtOnce := by
  have htable := Descriptor.traffic_le_baseCycles c.opcode c.fetched.operand c.regsAfterFetch
    c.settings.irqVector c.effectiveAddress (c.bus.read c.effectiveAddress)
  simp only [transactions, handling, List.length_append, length_fetches]
  unfold cyclesAtOnce Descriptor.exactCycles
  omega

end Cpu

section

variable {β : Type} [Bus β] {S : Port β → Port Memory → Prop}

namespace Execution

/-- Once all the bytes of an instruction are there, the rest of its work asks for the pointer and
for what the operation needs. -/
theorem finishWork_port (irqVector : UInt16) {e : Execution β}
    (hphase : e.inFlight.phase = .decode) {d : Descriptor}
    (hd : d = Descriptor.ofOpcode e.inFlight.opcode) {resolved : EffectiveAddress × Port β}
    (hresolved : resolved = d.mode.locate e.inFlight.operand e.regs e.port) :
    (e.finishWork irqVector).port =
      e.port.transactAll (d.mode.pointerReads e.inFlight.operand e.regs ++
        d.operation.transactions d.mode irqVector e.regs resolved.1.address
          (resolved.2.read resolved.1.address).1) := by
  subst hd hresolved
  rw [Port.transactAll_append, ← AddressingMode.locate_snd]
  simp only [finishWork, hphase]
  exact Operation.perform_port _ _ irqVector (e.locateOperand _)

/-- When the last byte of an instruction has been fetched, the rest of its work asks for what is
handled. -/
theorem Matches.fetching_port (hS : Bus.Simulation S) {e : Execution β} {d : Cpu Memory}
    {count : ℕ} (h : e.Matches S (d.fetching count)) (hcount : count ≤ operandSize d.opcode)
    {port : Port β} (hport : e.port = port.transactAll (fetches d.regs.pc (count + 1))) :
    (if operandSize d.opcode ≤ count then e.finishWork d.settings.irqVector else e).port =
      port.transactAll (if operandSize d.opcode ≤ count then d.transactions
        else fetches d.regs.pc (count + 1)) := by
  by_cases hlast : operandSize d.opcode ≤ count
  · obtain rfl : count = operandSize d.opcode := by omega
    let mode := (Descriptor.ofOpcode d.opcode).mode
    have hopcode : e.inFlight.opcode = d.opcode := congrArg InFlight.opcode h.inFlight
    have hphase : e.inFlight.phase = .decode := congrArg InFlight.phase h.inFlight
    have hoperand : e.inFlight.operand = d.fetched.operand := by
      rw [h.inFlight]
      rfl
    have hregs : e.regs = d.regsAfterFetch := h.regs
    have haddress : (mode.locate d.fetched.operand d.regsAfterFetch e.port).1.address =
        d.effectiveAddress :=
      congrArg EffectiveAddress.address (hS.locate_fst mode _ _ h.port)
    have hvalue : ((mode.locate d.fetched.operand d.regsAfterFetch e.port).2.read
        d.effectiveAddress).1 = d.bus.read d.effectiveAddress := by
      rw [hS.read_fst (hS.locate_snd mode d.fetched.operand d.regsAfterFetch h.port),
        Cpu.locate_port]
      rfl
    rw [if_pos hlast, if_pos hlast, Cpu.transactions, Port.transactAll_append, ← hport,
      finishWork_port _ hphase rfl rfl, hopcode, hoperand, hregs, haddress, hvalue]
    rfl
  · rw [if_neg hlast, if_neg hlast, hport]

end Execution

namespace Cpu.Matches

variable {c : Cpu β} {d : Cpu Memory}

/-- A processor that matches one over memory has the bus at all times. -/
theorem cpuHasBus (hS : Bus.Simulation S) (h : c.Matches S d) : Bus.cpuHasBus c.bus = true :=
  hS.cpuHasBus_eq h.port

/-- The opcode is fetched in the first cycle. -/
theorem cycle_port_of_fetchesNext (hS : Bus.Simulation S) (h : c.Matches S d)
    (hnext : d.FetchesNext) :
    c.cycle.2.port =
      c.port.transactAll (if operandSize d.opcode ≤ 0 then d.transactions
        else fetches d.regs.pc 1) := by
  let first : Execution β :=
    { regs := c.regs.nextByte, runMode := .running
      inFlight := .ofOpcode (c.port.read c.regs.pc).1, port := (c.port.read c.regs.pc).2 }
  have hopcode : (c.port.read c.regs.pc).1 = d.opcode := by
    rw [hS.read_fst h.port, h.regs]
    rfl
  have hpc : d.regs.pc + 1 + UInt16.ofNat 0 = d.regs.pc + 1 := UInt16.add_zero _
  have hfirst : first.Matches S (d.fetching 0) := by
    refine ⟨?_, rfl, ?_, hS.read_snd h.port⟩
    · simp only [first, h.regs, Registers.nextByte, fetching, hpc]
    · simp only [first, hopcode]
      rfl
  have hport : first.port = c.port.transactAll (fetches d.regs.pc 1) := by
    rw [← h.regs]
    rfl
  have hwake : c.wake? = some .running := by
    simp only [wake?, h.runMode, hnext.running]
  have hunasked : c.interrupts.lines.pending (c.regs.flag Status.irqDisable) = false := by
    rw [h.lines_eq hS, h.regs]
    exact hnext.unasked
  have hcycle := cycle_of_fetch (h.cpuHasBus hS) (h.inFlight.trans hnext.atBoundary) hwake hunasked
  rw [hcycle, ← hfirst.fetching_port hS (Nat.zero_le _) hport, ← h.settings]
  simp only [Nat.le_zero_eq, ← hopcode]
  rfl

/-- Each of the following cycles fetches an operand byte. With the last byte the instruction is
handled. -/
theorem tick_port_of_fetching (hS : Bus.Simulation S) (h : c.Matches S d) (hnext : d.FetchesNext)
    {count : ℕ} (hcount : count ≤ operandSize d.opcode) :
    (c.tick (count + 1)).port =
      c.port.transactAll (if operandSize d.opcode ≤ count then d.transactions
        else fetches d.regs.pc (count + 1)) := by
  induction count with
  | zero => exact h.cycle_port_of_fetchesNext hS hnext
  | succ count ih =>
    have hmissing : ¬ operandSize d.opcode ≤ count := by omega
    have hsize := (Descriptor.ofOpcode d.opcode).mode.operandSize_le_two
    have hsmall : count < 2 := Nat.lt_of_lt_of_le hcount hsize
    have hlong := d.operandSize_lt_cyclesAtOnce
    have hreached : (c.tick (count + 1)).Matches S (d.whileFetching count) := by
      have hduring : d.tick (count + 1) = d.whileFetching count := by
        rw [tick_eq_during hnext (by omega), during, if_neg (by omega), if_pos hcount]
        rfl
      rw [← hduring]
      exact h.tick hS (count + 1)
    have hport := ih (by omega)
    rw [if_neg hmissing] at hport
    rw [tick_succ]
    generalize c.tick (count + 1) = b at hreached hport
    let next : Execution β :=
      { regs := b.regs, runMode := b.runMode, port := b.port
        inFlight := { (d.fetching count).inFlight with elapsed := UInt8.ofNat (count + 2) } }
    have hmatch : next.fetchOperand.Matches S (d.fetching (count + 1)) := by
      rw [← d.fetchOperand_fetching hsmall]
      refine Execution.Matches.fetchOperand hS ⟨hreached.regs, ?_, rfl, hreached.port⟩
      exact hreached.runMode.trans hnext.running
    have hpc : b.regs.pc = d.regs.pc + UInt16.ofNat (count + 1) := by
      rw [hreached.regs, Nat.add_comm, UInt16.ofNat_add, ← UInt16.add_assoc]
      rfl
    have hfetch : next.fetchOperand.port = c.port.transactAll (fetches d.regs.pc (count + 2)) := by
      rw [fetches_succ, Port.transactAll_append, ← hport, ← hpc]
      rfl
    have hbytes : ∀ n ≤ 2, (UInt8.ofNat n).toNat = n := fun n hn =>
      UInt8.toNat_ofNat_of_lt' (Nat.lt_of_le_of_lt hn (by decide))
    have hresume : next.resume d.settings.irqVector =
        if operandSize d.opcode ≤ count + 1 then next.fetchOperand.finishWork d.settings.irqVector
        else next.fetchOperand := by
      have hfetched : (UInt8.ofNat count).toNat < operandSize d.opcode := by
        rw [hbytes count (by omega)]
        exact hcount
      rw [Execution.resume_of_decode _ rfl rfl hfetched, hmatch.inFlight]
      change (if operandSize d.opcode ≤ (UInt8.ofNat (count + 1)).toNat then _ else _) = _
      rw [hbytes (count + 1) hsmall]
    have hcycle := cycle_of_inFlight (hreached.cpuHasBus hS) hreached.inFlight
    rw [spendCycle_of_elapsed (by omega) rfl, hreached.settings] at hcycle
    rw [hcycle, ← hmatch.fetching_port hS hcount hfetch, ← hresume]
    rfl

/-- While the rest of the cycles pass there is no access. -/
theorem tick_port_of_waiting (hS : Bus.Simulation S) (h : c.Matches S d) (hnext : d.FetchesNext)
    {elapsed : ℕ} (hfetched : operandSize d.opcode < elapsed)
    (helapsed : elapsed ≤ d.cyclesAtOnce) :
    (c.tick elapsed).port = c.port.transactAll d.transactions := by
  induction elapsed, hfetched using Nat.le_induction with
  | base =>
    rw [h.tick_port_of_fetching hS hnext (Nat.le_refl _), if_pos (Nat.le_refl _)]
  | succ elapsed hfetched ih =>
    have hreached : (c.tick elapsed).Matches S (d.whileWaiting elapsed) := by
      have hduring : d.tick elapsed = d.whileWaiting elapsed := by
        rw [tick_eq_during hnext (by omega), during, if_neg (by omega), if_neg (by omega),
          if_pos (by omega)]
      rw [← hduring]
      exact h.tick hS elapsed
    rw [← ih (by omega), tick_succ, cycle_of_inFlight (hreached.cpuHasBus hS) hreached.inFlight,
      Execution.resume_of_retire _ rfl]
    rfl

/-- A step takes the cycles of the instruction and asks for what the instruction asks for. -/
theorem step_port (hS : Bus.Simulation S) (h : c.Matches S d) (hnext : d.FetchesNext) :
    c.step.1 = d.cyclesAtOnce ∧ c.step.2.port = c.port.transactAll d.transactions := by
  have hlong := d.operandSize_lt_cyclesAtOnce
  have hcycles : c.step.1 = d.cyclesAtOnce :=
    (h.stepWithin hS stepLimit).1.trans (congrArg Prod.fst (step_of_fetchesNext hnext))
  refine ⟨hcycles, ?_⟩
  have htick : c.step.2 = c.tick c.step.1 := congrArg Prod.snd (c.stepWithin_eq_tick stepLimit)
  rw [htick, hcycles]
  exact h.tick_port_of_waiting hS hnext hlong (Nat.le_refl _)

end Cpu.Matches

end

namespace Cpu

/-- The processor over the memory behind the trace. -/
def alone (c : Cpu (Traced Memory)) : Cpu Memory where
  settings := c.settings
  regs := c.regs
  runMode := c.runMode
  inFlight := c.inFlight
  counters := c.counters
  interrupts := c.interrupts
  bus := c.bus.inner

/-- A processor on a traced memory traces itself over the memory alone. -/
theorem traces_alone (c : Cpu (Traced Memory)) : c.Traces c.alone := ⟨rfl, rfl, rfl, rfl, rfl, rfl⟩

/-- The accesses of the instruction at the program counter. -/
def instructionAccesses (c : Cpu (Traced Memory)) : List Access :=
  c.bus.inner.accesses c.alone.transactions

/-- A step makes the accesses of an instruction and no others. -/
structure MakesAccesses (c : Cpu (Traced Memory)) : Prop where
  /-- They are recorded in order: the opcode and the operand bytes, the pointer of the mode, and
  then the accesses of the operation. -/
  log : c.step.2.bus.log.toList = c.bus.log.toList ++ c.instructionAccesses
  /-- The memory is what they leave behind. -/
  memory : c.step.2.bus.inner = c.bus.inner.replay c.instructionAccesses
  /-- Those that write are the writes of the operation. -/
  written : (c.instructionAccesses.filter (·.direction = .write)).map (·.address) =
    c.alone.writtenAddresses
  /-- A reserved opcode writes nothing. -/
  reserved : (Descriptor.ofOpcode c.alone.opcode).documented = false → c.alone.writtenAddresses = []
  /-- All other cells keep their bytes. -/
  others : ∀ address ∉ c.alone.writtenAddresses,
    c.step.2.bus.inner.read address = c.bus.inner.read address
  /-- The step has a cycle for each of them. -/
  cycles : c.instructionAccesses.length ≤ c.step.1

/-- Whatever the registers and the memory hold, a step from an instruction boundary on which no
interrupt is eligible makes the accesses of the instruction at the program counter. -/
theorem makesAccesses_of_fetchesNext {c : Cpu (Traced Memory)} (hnext : c.alone.FetchesNext)
    (hrecording : c.bus.recording = true) : c.MakesAccesses := by
  obtain ⟨hcycles, hport⟩ := c.traces_alone.step_port Traced.simulation hnext
  have hstart : c.port = ⟨⟨c.bus.inner, c.bus.log, true⟩, c.interrupts.lines⟩ := by
    rw [← hrecording]
    rfl
  rw [hstart, Traced.transactAll_eq] at hport
  have hbus := congrArg Port.bus hport
  have hmemory : c.step.2.bus.inner = c.bus.inner.replay c.instructionAccesses :=
    congrArg Traced.inner hbus
  have hlog : c.step.2.bus.log = c.bus.log ++ c.instructionAccesses.toArray :=
    congrArg Traced.log hbus
  constructor
  case log => rw [hlog, Array.toList_append]
  case memory => exact hmemory
  case written => rw [instructionAccesses, Memory.written_accesses, written_transactions]
  case reserved =>
    intro hopcode
    have hoperation : (Descriptor.ofOpcode c.alone.opcode).operation = .reserved :=
      bne_eq_false_iff_eq.mp hopcode
    rw [writtenAddresses, hoperation]
    rfl
  case others =>
    intro address haddress
    rw [← written_transactions] at haddress
    rw [hmemory]
    exact c.bus.inner.read_replay_accesses haddress
  case cycles =>
    rw [instructionAccesses, Memory.length_accesses, hcycles]
    exact c.alone.length_transactions_le

/-- `BRK` at the end of the address space with its frame around the end of page one. -/
theorem makesAccesses_of_wrapping_brk :
    ∃ c : Cpu (Traced Memory), c.alone.FetchesNext ∧
      c.alone.writtenAddresses = [0x0101, 0x0100, 0x01FF] ∧ c.MakesAccesses := by
  let c : Cpu (Traced Memory) :=
    { settings := {}, regs := { pc := 0xFFFF, s := 0x01 }, bus := { inner := .zeros } }
  have hnext : c.alone.FetchesNext := ⟨rfl, rfl, by decide⟩
  have hopcode : c.alone.opcode = 0x00 := Memory.read_zeros _
  refine ⟨c, hnext, ?_, makesAccesses_of_fetchesNext hnext rfl⟩
  rw [writtenAddresses, hopcode]
  change [stackAddress 0x01, stackAddress (0x01 - 1), stackAddress (0x01 - 2)] = _
  decide

end Cpu

end W65C02
