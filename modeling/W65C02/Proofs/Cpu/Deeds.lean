import W65C02.Proofs.Cpu.Consistency

/-!
# What the processor does in a cycle

Three things that happen in a cycle matter beyond it: a request is acknowledged, an acknowledged
interrupt is served, an instruction takes effect. At most one of them happens, and the state before
the cycle tells which. All other cycles fetch, wait, idle or stall. A run is any sequence of cycles
between which the world behind the pins changes at will and registers may be written; what was done
in it is recorded in order.
-/

namespace W65C02

/-- What is done in a cycle. -/
inductive Deed where
  /-- A request is acknowledged. -/
  | acknowledge (vector : InterruptVector)
  /-- An acknowledged interrupt is served. -/
  | serve (vector : InterruptVector)
  /-- An instruction takes effect. -/
  | perform (opcode : UInt8)
  deriving DecidableEq

/-- What is done for what is in flight, the present cycle being counted already. An interrupt is
served in its second cycle, and an instruction takes effect with its last operand byte. -/
def InFlight.deed? (flight : InFlight) : Option Deed :=
  match flight.activity with
  | .interrupt vector =>
    if flight.phase ≠ .retire ∧ serviceCycle ≤ flight.elapsed then some (.serve vector) else none
  | .instruction =>
    match flight.phase with
    | .fetch | .decode =>
      if operandSize flight.opcode ≤ flight.fetched.toNat + 1 then some (.perform flight.opcode)
      else none
    | .resolveAddress | .operate => some (.perform flight.opcode)
    | .updateFlags | .retire => none

/-- What is done with an opcode that was just fetched. -/
def fetchDeed? (opcode : UInt8) : Option Deed :=
  if operandSize opcode = 0 then some (.perform opcode) else none

/-- The controller after a deed. Only what is acknowledged is entered into its log. -/
def InterruptController.record (c : InterruptController) : Deed → InterruptController
  | .acknowledge vector => c.enter vector
  | .serve _ | .perform _ => c

namespace Execution

variable {β : Type} [Bus β]

/-- The execution with the opcode fetched. -/
def withOpcode (e : Execution β) : Execution β :=
  { e with
    regs := e.regs.nextByte
    inFlight := .ofOpcode (e.port.read e.regs.pc).1
    port := (e.port.read e.regs.pc).2 }

/-- The execution with one more operand byte, if there is one missing. -/
def withOperand (e : Execution β) : Execution β :=
  if e.inFlight.fetched.toNat < operandSize e.inFlight.opcode then e.fetchOperand else e

/-- The execution in which the operation is performed: the operand bytes are there, and the operand
has been found. -/
def prepared (e : Execution β) : Execution β :=
  let mode := (Descriptor.ofOpcode e.inFlight.opcode).mode
  match e.inFlight.phase with
  | .fetch | .decode => e.withOperand.locateOperand mode
  | .operate => e
  | .resolveAddress | .updateFlags | .retire => e.locateOperand mode

/-- The execution after the instruction has taken effect. -/
def operate (e : Execution β) (irqVector : UInt16) : Execution β :=
  let d := Descriptor.ofOpcode e.inFlight.opcode
  (d.operation.perform d.mode irqVector e.prepared).conclude d

/-- All that the work of a cycle can be, and what is done in it. -/
inductive Works (e : Execution β) (irqVector : UInt16) : Option Deed → Execution β → Prop where
  /-- An interrupt that has not been served is served. -/
  | serves (vector : InterruptVector) (activity : e.inFlight.activity = .interrupt vector)
    (phase : e.inFlight.phase ≠ .retire) :
    e.Works irqVector (some (.serve vector)) (e.serve vector)
  /-- The instruction takes effect. -/
  | performs (activity : e.inFlight.activity = .instruction) :
    e.Works irqVector (some (.perform e.inFlight.opcode)) (e.operate irqVector)
  /-- An operand byte is fetched. -/
  | fetches (activity : e.inFlight.activity = .instruction) :
    e.Works irqVector none e.fetchOperand
  /-- The flags are made to describe the result. -/
  | concludes (activity : e.inFlight.activity = .instruction) :
    e.Works irqVector none (e.conclude (Descriptor.ofOpcode e.inFlight.opcode))
  /-- The cycle passes in waiting. -/
  | waits : e.Works irqVector none e

/-- Until the operation is performed nothing happens to the status byte, and what is in flight stays
what it is. -/
theorem prepared_keeps (e : Execution β) :
    e.prepared.regs.p = e.regs.p ∧ e.prepared.inFlight.activity = e.inFlight.activity := by
  have hoperand : e.withOperand.regs.p = e.regs.p ∧
      e.withOperand.inFlight.activity = e.inFlight.activity := by
    unfold withOperand
    split <;> exact ⟨rfl, rfl⟩
  unfold prepared
  cases e.inFlight.phase with
  | fetch | decode => exact hoperand
  | resolveAddress | operate | updateFlags | retire => exact ⟨rfl, rfl⟩

/-- With all operand bytes the rest of the work is to take effect. -/
theorem finishWork_withOperand (irqVector : UInt16) {e : Execution β}
    (hphase : e.inFlight.phase = .fetch ∨ e.inFlight.phase = .decode) :
    e.withOperand.finishWork irqVector = e.operate irqVector := by
  have hopcode : e.withOperand.inFlight.opcode = e.inFlight.opcode := by
    unfold withOperand
    split <;> rfl
  have hsame : e.withOperand.inFlight.phase = e.inFlight.phase := by
    unfold withOperand
    split <;> rfl
  rcases hphase with hphase | hphase <;>
    simp only [finishWork, operate, prepared, hopcode, hsame, hphase]

/-- Fetching an opcode is work too, on what is in flight from then on. -/
theorem works_fetchOpcode (irqVector : UInt16) (e : Execution β) :
    e.withOpcode.Works irqVector (fetchDeed? (e.port.read e.regs.pc).1)
      (e.fetchOpcode irqVector) := by
  unfold fetchDeed?
  by_cases hnone : operandSize (e.port.read e.regs.pc).1 = 0
  · have hall : e.withOpcode.withOperand = e.withOpcode := by
      refine if_neg ?_
      change ¬ 0 < operandSize (e.port.read e.regs.pc).1
      omega
    have hfetch : e.fetchOpcode irqVector = e.withOpcode.finishWork irqVector := if_pos hnone
    have hwork := finishWork_withOperand irqVector (e := e.withOpcode) (.inr rfl)
    rw [hall] at hwork
    rw [if_pos hnone, hfetch, hwork]
    exact .performs rfl
  · have hfetch : e.fetchOpcode irqVector = e.withOpcode := if_neg hnone
    rw [if_neg hnone, hfetch]
    exact .waits

/-- With its last operand byte an instruction takes effect. -/
theorem works_resume_of_fetching (irqVector : UInt16) {e : Execution β}
    (hactivity : e.inFlight.activity = .instruction)
    (hphase : e.inFlight.phase = .fetch ∨ e.inFlight.phase = .decode) :
    e.Works irqVector e.inFlight.deed? (e.resume irqVector) := by
  have hdeed : e.inFlight.deed? =
      if operandSize e.inFlight.opcode ≤ e.inFlight.fetched.toNat + 1 then
        some (.perform e.inFlight.opcode)
      else none := by
    rcases hphase with hphase | hphase <;> simp only [InFlight.deed?, hactivity, hphase]
  have hnext : (if e.inFlight.fetched.toNat < operandSize e.inFlight.opcode then e.fetchOperand
      else e) = e.withOperand := rfl
  rw [hdeed, resume_of_fetching irqVector hactivity hphase hnext,
    finishWork_withOperand irqVector hphase]
  by_cases hmissing : e.inFlight.fetched.toNat < operandSize e.inFlight.opcode
  · have hfetched : e.withOperand = e.fetchOperand := if_pos hmissing
    rw [hfetched, toNat_fetched_fetchOperand hmissing]
    split
    · exact .performs hactivity
    · exact .fetches hactivity
  · have hfetched : e.withOperand = e := if_neg hmissing
    have hall : operandSize e.inFlight.opcode ≤ e.inFlight.fetched.toNat := Nat.not_lt.mp hmissing
    rw [hfetched, if_pos hall, if_pos (Nat.le_succ_of_le hall)]
    exact .performs hactivity

/-- The work of a cycle is one of these. -/
theorem works_resume (irqVector : UInt16) (e : Execution β) :
    e.Works irqVector e.inFlight.deed? (e.resume irqVector) := by
  cases hactivity : e.inFlight.activity with
  | interrupt vector =>
    simp only [resume, InFlight.deed?, hactivity]
    by_cases hserves : e.inFlight.phase ≠ .retire ∧ serviceCycle ≤ e.inFlight.elapsed
    · rw [if_pos hserves, if_pos hserves]
      exact .serves vector hactivity hserves.1
    · rw [if_neg hserves, if_neg hserves]
      exact .waits
  | instruction =>
    cases hphase : e.inFlight.phase with
    | fetch => exact works_resume_of_fetching irqVector hactivity (.inl hphase)
    | decode => exact works_resume_of_fetching irqVector hactivity (.inr hphase)
    | resolveAddress | operate =>
      have hperforms : e.Works irqVector _ _ := .performs hactivity
      simpa only [resume, InFlight.deed?, hactivity, hphase, finishWork, operate, prepared]
        using hperforms
    | updateFlags =>
      simp only [resume, InFlight.deed?, hactivity, hphase, finishWork]
      exact .concludes hactivity
    | retire =>
      simp only [resume, InFlight.deed?, hactivity, hphase]
      exact .waits

end Execution

namespace Cpu

variable {β : Type} [Bus β]

/-- What is done in the next cycle. -/
def deed? (c : Cpu β) : Option Deed :=
  if Bus.cpuHasBus c.bus then
    match c.inFlight with
    | some flight => flight.spendCycle.deed?
    | none =>
      match c.wake? with
      | none => none
      | some _ =>
        match c.interrupts.acknowledge c.settings (c.regs.flag Status.irqDisable) with
        | (some vector, _) => some (.acknowledge vector)
        | (none, _) => fetchDeed? (c.port.read c.regs.pc).1
  else none

/-- All that a cycle can do, and what is done in it. -/
inductive Does (c : Cpu β) : Option Deed → Cpu β → Prop where
  /-- At a boundary the most urgent request that is not masked is acknowledged. -/
  | acknowledges (runMode : RunMode) (line : Line) (boundary : c.inFlight = none)
    (next : c.interrupts.lines.next (c.regs.flag Status.irqDisable) = some line) :
    c.Does (some (.acknowledge ⟨c.settings.vectorOf line, line⟩))
      { c.clocked with
        runMode
        interrupts := { c.interrupts with lines := c.interrupts.lines.serve line }.enter
          ⟨c.settings.vectorOf line, line⟩
        inFlight := some (.ofVector ⟨c.settings.vectorOf line, line⟩) }
  /-- At a boundary an opcode is fetched. -/
  | fetches (runMode : RunMode) (boundary : c.inFlight = none) {deed? : Option Deed}
    {worked : Execution β}
    (work : (⟨c.regs, runMode, .ofOpcode 0, c.port⟩ : Execution β).withOpcode.Works
      c.settings.irqVector deed? worked) :
    c.Does deed? (c.clocked.settle worked)
  /-- What is in flight is resumed. -/
  | resumes (flight : InFlight) (inFlight : c.inFlight = some flight) {deed? : Option Deed}
    {worked : Execution β}
    (work : (⟨c.regs, c.runMode, flight.spendCycle, c.port⟩ : Execution β).Works
      c.settings.irqVector deed? worked) :
    c.Does deed? (c.clocked.settle worked)
  /-- Halted or without the bus the processor only counts the cycle. -/
  | idles (counters : Counters) (instructions : counters.instructions = c.counters.instructions)
    (interrupts : counters.interruptsServiced = c.counters.interruptsServiced) :
    c.Does none { c with counters }

/-- A cycle does its deed. -/
theorem does_cycle (c : Cpu β) : c.Does c.deed? c.cycle.2 := by
  unfold deed?
  cases hbus : Bus.cpuHasBus c.bus with
  | false =>
    rw [cycle_of_stalled hbus]
    exact .idles _ rfl rfl
  | true =>
    simp only [if_true]
    cases hflight : c.inFlight with
    | some flight =>
      rw [cycle_of_inFlight hbus hflight]
      exact .resumes flight hflight (Execution.works_resume _ _)
    | none =>
      cases hwake : c.wake? with
      | none =>
        rw [cycle_of_halted hbus hflight hwake]
        exact .idles _ rfl rfl
      | some runMode =>
        rw [cycle_of_wake hbus hflight hwake, clocked_start]
        simp only [InterruptController.acknowledge]
        cases hnext : c.interrupts.lines.next (c.regs.flag Status.irqDisable) with
        | some line => exact .acknowledges runMode line hflight hnext
        | none => exact .fetches runMode hflight (Execution.works_fetchOpcode _ _)

/-- Apart from the lines, a cycle leaves the controller with what was acknowledged in it. -/
theorem interrupts_cycle (c : Cpu β) :
    c.cycle.2.interrupts =
      { c.deed?.toList.foldl InterruptController.record c.interrupts with
        lines := c.cycle.2.interrupts.lines } := by
  have hdoes := c.does_cycle
  generalize c.deed? = deed? at hdoes ⊢
  generalize c.cycle.2 = d at hdoes ⊢
  cases hdoes with
  | acknowledges runMode line boundary next => cases line <;> rfl
  | fetches runMode boundary work | resumes flight inFlight work => cases work <;> rfl
  | idles counters instructions interrupts => rfl

/-- What happens to a processor: it is given a cycle, or something is done from outside. -/
inductive Event (β : Type) where
  /-- A cycle passes. -/
  | cycle
  /-- The world behind the pins changes: the lines are moved, the bus is accessed, taken or given
  back. -/
  | world (change : Port β → Port β)
  /-- A register is written. -/
  | set (register : Register) (value : ℕ)

/-- The processor after an event. A value that does not fit into the register is refused. -/
def after (c : Cpu β) : Event β → Cpu β
  | .cycle => c.cycle.2
  | .world change => c.mapPort change
  | .set register value =>
    match c.set register value with
    | .ok c => c
    | .error _ => c

/-- What is done during an event. -/
def deedIn? (c : Cpu β) : Event β → Option Deed
  | .cycle => c.deed?
  | .world _ | .set _ _ => none

/-- The processor after a number of events. -/
def afterAll (c : Cpu β) : List (Event β) → Cpu β
  | [] => c
  | first :: rest => (c.after first).afterAll rest

/-- What is done during a number of events, in order. -/
def deeds (c : Cpu β) : List (Event β) → List Deed
  | [] => []
  | first :: rest => (c.deedIn? first).toList ++ (c.after first).deeds rest

/-- Some events after others. -/
theorem afterAll_append (c : Cpu β) (events later : List (Event β)) :
    c.afterAll (events ++ later) = (c.afterAll events).afterAll later := by
  induction events generalizing c with
  | nil => rfl
  | cons first rest ih => exact ih _

/-- A number of cycles in a row is a tick. -/
theorem afterAll_replicate_cycle (c : Cpu β) (cycles : ℕ) :
    c.afterAll (List.replicate cycles .cycle) = c.tick cycles := by
  induction cycles generalizing c with
  | zero => rfl
  | succ cycles ih => exact ih c.cycle.2

/-- A register that is written is the only thing that changes. -/
theorem after_set (c : Cpu β) (register : Register) (value : ℕ) :
    ∃ regs, (register ≠ .p → regs.p = c.regs.p) ∧
      c.after (.set register value) = { c with regs } := by
  simp only [after]
  cases hset : c.set register value with
  | error reason => exact ⟨c.regs, fun _ => rfl, rfl⟩
  | ok d =>
    obtain ⟨regs, hregs, rfl⟩ := set_eq hset
    refine ⟨regs, fun hother => ?_, rfl⟩
    unfold Registers.set at hregs
    split at hregs
    · cases hregs
    · cases hregs
      cases register with
      | p => exact absurd rfl hother
      | a | x | y | pc | s => rfl

end Cpu

end W65C02
