import W65C02.Cpu.Snapshot
import W65C02.Proofs.Cpu.Cycle
import W65C02.Proofs.Instruction.Lockstep

/-!
# Processors in lockstep

Two processors with the same registers and the same instruction in flight go through the same
cycles as long as their buses answer alike. The relation between the two buses is a parameter;
all that is asked of it is that no access leaves it. The logs of acknowledgements are not
compared, since nothing that the processor does depends on them.
-/

namespace W65C02

variable {β γ : Type} {S : Port β → Port γ → Prop}

/-- Two executions that differ in nothing but the worlds behind the pins, which are related. -/
structure Execution.Matches (S : Port β → Port γ → Prop) (e : Execution β) (f : Execution γ) :
    Prop where
  /-- The registers are the same. -/
  regs : e.regs = f.regs
  /-- The run modes are the same. -/
  runMode : e.runMode = f.runMode
  /-- The same is in flight. -/
  inFlight : e.inFlight = f.inFlight
  /-- The worlds are related. -/
  port : S e.port f.port

/-- The end of the work is the same on both sides. -/
theorem Execution.Matches.conclude {e : Execution β} {f : Execution γ}
    (d : Descriptor) (hef : e.Matches S f) :
    (e.conclude d).Matches S (f.conclude d) := by
  refine ⟨?_, hef.runMode, ?_, hef.port⟩
  · simp only [Execution.conclude, hef.inFlight, hef.regs]
  · simp only [Execution.conclude, hef.inFlight, hef.regs]

/-- Two processors that differ in nothing but their logs of acknowledgements and the worlds
behind their pins, which are related. -/
structure Cpu.Matches (S : Port β → Port γ → Prop) (c : Cpu β) (d : Cpu γ) : Prop where
  /-- The settings are the same. -/
  settings : c.settings = d.settings
  /-- The registers are the same. -/
  regs : c.regs = d.regs
  /-- The run modes are the same. -/
  runMode : c.runMode = d.runMode
  /-- The same is in flight. -/
  inFlight : c.inFlight = d.inFlight
  /-- The counters are the same. -/
  counters : c.counters = d.counters
  /-- The worlds are related. -/
  port : S c.port d.port

namespace Cpu.Matches

variable {c : Cpu β} {d : Cpu γ}

/-- The settlement of a cycle looks at nothing but what the executions share. -/
theorem settle (h : c.Matches S d) {e : Execution β} {f : Execution γ} (hef : e.Matches S f) :
    (c.settle e).Matches S (d.settle f) where
  settings := h.settings
  regs := hef.regs
  runMode := hef.runMode
  inFlight := by simp only [Cpu.settle, hef.inFlight]
  counters := by simp only [Cpu.settle, hef.inFlight, h.counters]
  port := hef.port

/-- Counting a cycle on both sides. -/
theorem clocked (h : c.Matches S d) : c.clocked.Matches S d.clocked :=
  ⟨h.settings, h.regs, h.runMode, h.inFlight, by simp only [Cpu.clocked, h.counters], h.port⟩

/-- The same is done behind the pins on both sides, with a result. -/
theorem withPort (h : c.Matches S d) {α : Type} {f : Port β → α × Port β}
    {g : Port γ → α × Port γ} (hport : S (f c.port).2 (g d.port).2) :
    (c.withPort f).2.Matches S (d.withPort g).2 :=
  ⟨h.settings, h.regs, h.runMode, h.inFlight, h.counters, hport⟩

/-- The same is done behind the pins on both sides. -/
theorem mapPort (h : c.Matches S d) {f : Port β → Port β} {g : Port γ → Port γ}
    (hport : S (f c.port) (g d.port)) : (c.mapPort f).Matches S (d.mapPort g) :=
  h.withPort hport

/-- A processor matches itself. -/
theorem refl {P : Port β → Prop} (hc : P c.port) : c.Matches (fun p q => p = q ∧ P p) c :=
  ⟨rfl, rfl, rfl, rfl, rfl, rfl, hc⟩

end Cpu.Matches

variable [Bus β] [Bus γ]

/-- A relation between the worlds behind two processors that no access leaves. -/
structure Bus.Simulation (S : Port β → Port γ → Prop) : Prop where
  /-- The lines are the same. -/
  lines_eq {p q} : S p q → p.lines = q.lines
  /-- Both processors have the bus, or neither has. -/
  cpuHasBus_eq {p q} : S p q → Bus.cpuHasBus p.bus = Bus.cpuHasBus q.bus
  /-- Reading gives the same byte. -/
  read_fst {p q a} : S p q → (p.read a).1 = (q.read a).1
  /-- The bus may be read. -/
  read_snd {p q a} : S p q → S (p.read a).2 (q.read a).2
  /-- The bus may be written. -/
  write {p q a v} : S p q → S (p.write a v) (q.write a v)
  /-- The lines may be moved. -/
  setLines {p q} (lines : Lines) : S p q → S { p with lines } { q with lines }

namespace Bus.Simulation

variable {p : Port β} {q : Port γ}

/-- Two reads give the same word on both sides, -/
theorem readPair_fst (h : Bus.Simulation S) (low high : UInt16) (hpq : S p q) :
    (p.readPair low high).1 = (q.readPair low high).1 := by
  have hlow := h.read_fst (a := low) hpq
  have hhigh := h.read_fst (a := high) (h.read_snd (a := low) hpq)
  simp only [Port.readPair, hlow, hhigh]

/-- and leave both sides alike. -/
theorem readPair_snd (h : Bus.Simulation S) (low high : UInt16) (hpq : S p q) :
    S (p.readPair low high).2 (q.readPair low high).2 :=
  h.read_snd (h.read_snd hpq)

/-- An effective address is found at the same place on both sides. -/
theorem locate_fst (h : Bus.Simulation S) (mode : AddressingMode) (operand : Operand)
    (regs : Registers) (hpq : S p q) :
    (mode.locate operand regs p).1 = (mode.locate operand regs q).1 := by
  cases mode with
  | indirect | absoluteIndexedIndirect =>
    exact congrArg (EffectiveAddress.mk · false) (h.readPair_fst _ _ hpq)
  | indexedIndirect | zeroPageIndirect =>
    exact congrArg (EffectiveAddress.mk · false) (h.readPair_fst _ _ hpq)
  | indirectIndexed =>
    exact congrArg (EffectiveAddress.displaced · regs.y) (h.readPair_fst _ _ hpq)
  | _ => rfl

/-- Finding an operand leaves both sides alike. -/
theorem locate_snd (h : Bus.Simulation S) (mode : AddressingMode) (operand : Operand)
    (regs : Registers) (hpq : S p q) :
    S (mode.locate operand regs p).2 (mode.locate operand regs q).2 := by
  cases mode with
  | indirect | absoluteIndexedIndirect | indexedIndirect | zeroPageIndirect | indirectIndexed =>
    exact h.readPair_snd _ _ hpq
  | _ => exact hpq

/-- Writing the same bytes leaves both sides alike. -/
theorem writeAll (h : Bus.Simulation S) (address : UInt16) (values : List UInt8)
    (hpq : S p q) : S (p.writeAll address values) (q.writeAll address values) := by
  induction values generalizing p q address with
  | nil => exact hpq
  | cons value rest ih => exact ih _ (h.write hpq)

/-- Both sides give the same bytes and stay alike. -/
theorem readAll (h : Bus.Simulation S) (address : UInt16) (count : Nat) (hpq : S p q) :
    (p.readAll address count).1 = (q.readAll address count).1 ∧
      S (p.readAll address count).2 (q.readAll address count).2 := by
  induction count generalizing p q address with
  | zero => exact ⟨rfl, hpq⟩
  | succ count ih =>
    obtain ⟨hvalues, hrest⟩ := ih (address + 1) (h.read_snd hpq)
    refine ⟨?_, hrest⟩
    simp only [Port.readAll, h.read_fst hpq, hvalues]

end Bus.Simulation

namespace Execution.Matches

variable {e : Execution β} {f : Execution γ}

/-- No operation leaves a relation that no access leaves. -/
theorem lockstep (h : Bus.Simulation S) :
    Lockstep fun _ (e : Execution β) (f : Execution γ) => e.Matches S f where
  regs_eq hef := hef.regs
  operand_eq hef := congrArg InFlight.operand hef.inFlight
  effectiveAddress_eq hef := congrArg InFlight.effectiveAddress hef.inFlight
  setRegs hef _ := ⟨rfl, hef.runMode, hef.inFlight, hef.port⟩
  setRunMode hef := ⟨hef.regs, rfl, hef.inFlight, hef.port⟩
  deferNZ hef :=
    ⟨hef.regs, hef.runMode, by simp only [Execution.deferNZ, hef.inFlight], hef.port⟩
  addCycle hef :=
    ⟨hef.regs, hef.runMode, by simp only [Execution.addCycle, hef.inFlight], hef.port⟩
  read_fst hef := h.read_fst hef.port
  read_snd hef := ⟨hef.regs, hef.runMode, hef.inFlight, h.read_snd hef.port⟩
  write hef := ⟨hef.regs, hef.runMode, hef.inFlight, h.write hef.port⟩

/-- The operand is found at the same place. -/
theorem locateOperand (h : Bus.Simulation S) (mode : AddressingMode) (hef : e.Matches S f) :
    (e.locateOperand mode).Matches S (f.locateOperand mode) := by
  have hresolved := h.locate_fst mode f.inFlight.operand f.regs hef.port
  refine ⟨hef.regs, hef.runMode, ?_, ?_⟩
  · simp only [Execution.locateOperand, AddressingMode.resolve, hef.inFlight, hef.regs, hresolved]
  · simp only [Execution.locateOperand, hef.inFlight, hef.regs]
    exact h.locate_snd mode _ _ hef.port

/-- The work is the same. -/
theorem finishWork (h : Bus.Simulation S) (irqVector : UInt16) (hef : e.Matches S f) :
    (e.finishWork irqVector).Matches S (f.finishWork irqVector) := by
  have hperform {e : Execution β} {f : Execution γ} (d : Descriptor) (hef : e.Matches S f) :
      (d.operation.perform d.mode irqVector e).Matches S
        (d.operation.perform d.mode irqVector f) := by
    obtain ⟨_, _, hmatch⟩ := (lockstep h).perform (k := 0) d.operation d.mode irqVector hef
    exact hmatch
  unfold Execution.finishWork
  simp only [hef.inFlight]
  cases f.inFlight.phase with
  | fetch | decode | resolveAddress =>
    exact (hperform _ (hef.locateOperand h _)).conclude _
  | operate => exact (hperform _ hef).conclude _
  | updateFlags => exact hef.conclude _
  | retire => exact hef

/-- The same instruction is begun. -/
theorem fetchOpcode (h : Bus.Simulation S) (irqVector : UInt16) (hef : e.Matches S f) :
    (e.fetchOpcode irqVector).Matches S (f.fetchOpcode irqVector) := by
  have hopcode := h.read_fst (a := f.regs.pc) hef.port
  have hfetched : ({ e with
      regs := f.regs.nextByte
      inFlight := .ofOpcode (f.port.read f.regs.pc).1
      port := (e.port.read f.regs.pc).2 } : Execution β).Matches S
      { f with
        regs := f.regs.nextByte
        inFlight := .ofOpcode (f.port.read f.regs.pc).1
        port := (f.port.read f.regs.pc).2 } :=
    ⟨rfl, hef.runMode, rfl, h.read_snd hef.port⟩
  simp only [Execution.fetchOpcode, hef.regs, hopcode]
  split
  · exact hfetched.finishWork h irqVector
  · exact hfetched

/-- The same operand byte is fetched. -/
theorem fetchOperand (h : Bus.Simulation S) (hef : e.Matches S f) :
    e.fetchOperand.Matches S f.fetchOperand := by
  have hvalue := h.read_fst (a := f.regs.pc) hef.port
  refine ⟨?_, hef.runMode, ?_, ?_⟩
  · simp only [Execution.fetchOperand, hef.regs]
  · simp only [Execution.fetchOperand, hef.regs, hef.inFlight, hvalue]
  · simp only [Execution.fetchOperand, hef.regs]
    exact h.read_snd hef.port

/-- The same interrupt is served in the same way. -/
theorem serve (h : Bus.Simulation S) (vector : InterruptVector) (hef : e.Matches S f) :
    (e.serve vector).Matches S (f.serve vector) := by
  have hretire {e : Execution β} {f : Execution γ} (hef : e.Matches S f) :
      ({ e with inFlight.phase := .retire } : Execution β).Matches S
        { f with inFlight.phase := .retire } :=
    ⟨hef.regs, hef.runMode, by simp only [hef.inFlight], hef.port⟩
  have hinterrupt : (e.interruptTo false vector.address).Matches S
      (f.interruptTo false vector.address) :=
    (lockstep h).interruptTo (k := 0) false vector.address hef
  unfold Execution.serve
  cases vector.line with
  | reset =>
    have hrunning := (lockstep h).setRunMode (k := 0) (m := .running)
      ((lockstep h).mapRegs (k := 0) Lockstep.keepsFixedBits_enterRoutine hef)
    exact hretire ((lockstep h).loadVector (k := 0) vector.address hrunning)
  | nmi => exact hretire hinterrupt
  | irq => exact hretire hinterrupt

/-- The next cycle of what is in flight is the same. -/
theorem resume (h : Bus.Simulation S) (irqVector : UInt16) (hef : e.Matches S f) :
    (e.resume irqVector).Matches S (f.resume irqVector) := by
  unfold Execution.resume
  simp only [hef.inFlight]
  cases f.inFlight.activity with
  | interrupt vector =>
    simp only
    split
    · exact hef.serve h vector
    · exact hef
  | instruction =>
    have hfinish {e : Execution β} {f : Execution γ} (hef : e.Matches S f) (needed : Nat) :
        (if needed ≤ e.inFlight.fetched.toNat then e.finishWork irqVector else e).Matches S
          (if needed ≤ f.inFlight.fetched.toNat then f.finishWork irqVector else f) := by
      rw [hef.inFlight]
      split
      · exact hef.finishWork h irqVector
      · exact hef
    cases f.inFlight.phase with
    | fetch | decode =>
      by_cases hmore : f.inFlight.fetched.toNat < operandSize f.inFlight.opcode
      · simp only [if_pos hmore]
        exact hfinish (hef.fetchOperand h) _
      · simp only [if_neg hmore]
        exact hfinish hef _
    | retire => exact hef
    | resolveAddress | operate | updateFlags => exact hef.finishWork h irqVector

end Execution.Matches

namespace Cpu.Matches

variable {c : Cpu β} {d : Cpu γ}

/-- The lines are the same. -/
theorem lines_eq (hS : Bus.Simulation S) (h : c.Matches S d) :
    c.interrupts.lines = d.interrupts.lines :=
  hS.lines_eq h.port

/-- Both processors start a cycle at a boundary alike. The logs may grow from different ones. -/
theorem start (hS : Bus.Simulation S) (h : c.Matches S d) (runMode : RunMode) :
    (c.clocked.start runMode).Matches S (d.clocked.start runMode) := by
  have hlines := h.lines_eq hS
  have hexec : (⟨d.regs, runMode, .ofOpcode 0, c.port⟩ : Execution β).Matches S
      ⟨d.regs, runMode, .ofOpcode 0, d.port⟩ :=
    ⟨rfl, rfl, rfl, h.port⟩
  rw [clocked_start, clocked_start]
  simp only [InterruptController.acknowledge, h.regs, hlines]
  cases d.interrupts.lines.next (d.regs.flag Status.irqDisable) with
  | none =>
    simp only [h.settings]
    exact h.clocked.settle (hexec.fetchOpcode hS _)
  | some line =>
    exact ⟨h.settings, h.regs, rfl, by simp only [h.settings], h.clocked.counters,
      hS.setLines _ h.port⟩

/-- A cycle makes the same progress on both sides, and the processors still match. -/
theorem cycle (hS : Bus.Simulation S) (h : c.Matches S d) :
    c.cycle.1 = d.cycle.1 ∧ c.cycle.2.Matches S d.cycle.2 := by
  have hclocked := h.clocked
  have hwake : c.wake? = d.wake? := by
    simp only [wake?, h.runMode, h.lines_eq hS]
  have hbus : Bus.cpuHasBus c.bus = Bus.cpuHasBus d.bus := hS.cpuHasBus_eq h.port
  rw [cycle_eq, cycle_eq, hbus]
  cases Bus.cpuHasBus d.bus with
  | false =>
    refine ⟨rfl, h.settings, h.regs, h.runMode, h.inFlight, ?_, h.port⟩
    change { c.clocked.counters with stallCycles := c.counters.stallCycles + 1 } =
      { d.clocked.counters with stallCycles := d.counters.stallCycles + 1 }
    rw [hclocked.counters, h.counters]
  | true =>
    simp only [if_true, h.inFlight, hwake]
    cases d.inFlight with
    | some flight =>
      have hexec : (⟨c.regs, c.runMode, flight.spendCycle, c.port⟩ : Execution β).Matches S
          ⟨d.regs, d.runMode, flight.spendCycle, d.port⟩ :=
        ⟨h.regs, h.runMode, rfl, h.port⟩
      rw [h.settings]
      exact ⟨rfl, hclocked.settle (hexec.resume hS _)⟩
    | none =>
      cases d.wake? with
      | none => exact ⟨rfl, hclocked⟩
      | some runMode => exact ⟨rfl, h.start hS runMode⟩

/-- Any number of cycles is the same on both sides. -/
theorem tick (hS : Bus.Simulation S) (h : c.Matches S d) (budget : Nat) :
    (c.tick budget).Matches S (d.tick budget) := by
  induction budget generalizing c d with
  | zero => exact h
  | succ budget ih => exact ih (h.cycle hS).2

/-- A step takes the same number of cycles on both sides. -/
theorem stepWithin (hS : Bus.Simulation S) (h : c.Matches S d) (limit : Nat) :
    (c.stepWithin limit).1 = (d.stepWithin limit).1 ∧
      (c.stepWithin limit).2.Matches S (d.stepWithin limit).2 := by
  induction limit generalizing c d with
  | zero => exact ⟨rfl, h⟩
  | succ limit ih =>
    obtain ⟨hprogress, hcycle⟩ := h.cycle hS
    obtain ⟨hspent, hrest⟩ := ih hcycle
    simp only [Cpu.stepWithin, hprogress, hcycle.inFlight]
    split
    · exact ⟨by rw [hspent], hrest⟩
    · exact ⟨rfl, hcycle⟩

/-- Both sides move the lines alike. -/
theorem mapLines (hS : Bus.Simulation S) (h : c.Matches S d)
    {f : InterruptController → InterruptController} (move : Lines → Lines)
    (hf : ∀ interrupts, (f interrupts).lines = move interrupts.lines) :
    (c.mapInterrupts f).Matches S (d.mapInterrupts f) := by
  refine ⟨h.settings, h.regs, h.runMode, h.inFlight, h.counters, ?_⟩
  have hport := hS.setLines (move d.interrupts.lines) h.port
  simp only [Cpu.port, Cpu.mapInterrupts, hf, h.lines_eq hS]
  exact hport

/-- Power comes on for both sides. -/
theorem powerOn (hS : Bus.Simulation S) (h : c.Matches S d) :
    c.powerOn.Matches S d.powerOn := by
  have hread := hS.readPair_fst d.settings.resetVector (d.settings.resetVector + 1) h.port
  have hport := hS.readPair_snd d.settings.resetVector (d.settings.resetVector + 1) h.port
  refine ⟨h.settings, ?_, h.runMode, h.inFlight, h.counters, ?_⟩
  · simp only [Cpu.powerOn, Cpu.withPort_eq, Port.readPointer, h.settings, hread, Cpu.setPort]
  · simp only [Cpu.powerOn, Cpu.withPort_eq, Port.readPointer, h.settings]
    exact hport

/-- A reset is the same on both sides. -/
theorem reset (hS : Bus.Simulation S) (h : c.Matches S d) : c.reset.Matches S d.reset := by
  have hpower := h.powerOn hS
  have hfresh : ({ c.powerOn with
      runMode := .running, inFlight := none, counters := {} } : Cpu β).Matches S
      { d.powerOn with runMode := .running, inFlight := none, counters := {} } :=
    ⟨hpower.settings, hpower.regs, rfl, rfl, rfl, hpower.port⟩
  exact hfresh.mapLines hS (fun _ => .idle) fun _ => rfl

/-- Matching processors have the same snapshot. -/
theorem snapshot_eq (hS : Bus.Simulation S) (h : c.Matches S d) : c.snapshot = d.snapshot := by
  simp only [Cpu.snapshot, h.regs, h.runMode, h.counters, h.inFlight, h.lines_eq hS]

omit [Bus β] [Bus γ] in
/-- Processors with the same settings and the same snapshot match if their worlds are related. -/
theorem of_snapshot_eq (hsettings : c.settings = d.settings) (hsnapshot : c.snapshot = d.snapshot)
    (hport : S c.port d.port) : c.Matches S d where
  settings := hsettings
  regs := congrArg CpuSnapshot.registers hsnapshot
  runMode := congrArg CpuSnapshot.runMode hsnapshot
  inFlight := congrArg CpuSnapshot.inFlight hsnapshot
  counters := congrArg CpuSnapshot.counters hsnapshot
  port := hport

end Cpu.Matches

/-- A property of the world behind the pins that no access leaves. -/
structure Bus.Invariant (P : Port β → Prop) : Prop where
  /-- The bus may be read. -/
  read {p a} : P p → P (p.read a).2
  /-- The bus may be written. -/
  write {p a v} : P p → P (p.write a v)
  /-- The lines may be moved. -/
  setLines {p} (lines : Lines) : P p → P { p with lines }

/-- An invariant relates a world with itself. -/
theorem Bus.Invariant.simulation {P : Port β → Prop} (h : Bus.Invariant P) :
    Bus.Simulation fun p q => p = q ∧ P p := by
  constructor
  case read_snd =>
    rintro p _ a ⟨rfl, hP⟩
    exact ⟨rfl, h.read hP⟩
  case write =>
    rintro p _ a v ⟨rfl, hP⟩
    exact ⟨rfl, h.write hP⟩
  case setLines =>
    rintro p _ lines ⟨rfl, hP⟩
    exact ⟨rfl, h.setLines lines hP⟩
  -- What is left compares the two worlds, which are the same one.
  all_goals
    intros
    simp only [*]

namespace Bus.Invariant

variable {P : Port β → Prop} {c : Cpu β}

/-- What every access keeps is kept in any number of cycles, -/
theorem tick (h : Bus.Invariant P) (hc : P c.port) (budget : Nat) : P (c.tick budget).port :=
  ((Cpu.Matches.refl hc).tick h.simulation budget).port.2

/-- and in a step. -/
theorem stepWithin (h : Bus.Invariant P) (hc : P c.port) (limit : Nat) :
    P (c.stepWithin limit).2.port :=
  ((Cpu.Matches.refl hc).stepWithin h.simulation limit).2.port.2

/-- It is there at first if it is there on the bus, -/
theorem create (h : Bus.Invariant P) (settings : CpuSettings) {bus : β} (hbus : P ⟨bus, .idle⟩) :
    P (Cpu.create settings bus).port := by
  let unpowered : Cpu β := { settings, regs := {}, bus }
  have hunpowered : P unpowered.port := hbus
  exact ((Cpu.Matches.refl hunpowered).powerOn h.simulation).port.2

/-- and it is kept by a reset. -/
theorem reset (h : Bus.Invariant P) (hc : P c.port) : P c.reset.port :=
  ((Cpu.Matches.refl hc).reset h.simulation).port.2

end Bus.Invariant

end W65C02
