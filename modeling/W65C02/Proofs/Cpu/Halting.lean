import W65C02.Bus.Memory
import W65C02.Proofs.Cpu.Service
import W65C02.Proofs.Interrupt.Lines

/-!
# Halted processors

A processor that waits or has stopped does nothing until a request wakes it: no access to the bus,
no work, nothing but counting the cycles. Any active line ends waiting, be it masked, and only RESET
ends a stop. What happens in the cycle of waking up depends on the mask. An eligible request is
acknowledged, and if there is none the program goes on where it stood.
-/

namespace W65C02

/-- The opcodes of `WAI` and `STP`. -/
def haltingOpcodes : List UInt8 := [0xCB, 0xDB]

/-- The table has no other opcodes that halt the processor. -/
private theorem halting_table : ∀ n : Fin 256,
    (opcodeTable.get n).operation = .wai ∨ (opcodeTable.get n).operation = .stp →
      UInt8.ofFin n ∈ haltingOpcodes := by
  decide +kernel

/-- An instruction that halts the processor has one of those opcodes. -/
theorem mem_haltingOpcodes {opcode : UInt8} (h : (Descriptor.ofOpcode opcode).operation = .wai ∨
    (Descriptor.ofOpcode opcode).operation = .stp) : opcode ∈ haltingOpcodes :=
  halting_table opcode.toFin h

namespace Execution

variable {β : Type} [Bus β] {e f : Execution β}

/-- Reading the operand leaves the run mode alone, -/
theorem runMode_operandValue (e : Execution β) (mode : AddressingMode) :
    (e.operandValue mode).2.runMode = e.runMode := by
  cases mode <;> rfl

/-- replacing it does, -/
theorem runMode_replaceOperand (e : Execution β) (mode : AddressingMode)
    (g : Registers → UInt8 → UInt8 × Registers) :
    (e.replaceOperand mode g).2.runMode = e.runMode := by
  unfold replaceOperand
  split <;> rfl

/-- so does replacing it with the flags set, -/
theorem runMode_replaceOperandNZ (e : Execution β) (mode : AddressingMode)
    (g : Registers → UInt8 → UInt8 × Registers) :
    (e.replaceOperandNZ mode g).runMode = e.runMode :=
  e.runMode_replaceOperand mode g

omit [Bus β] in
/-- adding a cycle, -/
theorem runMode_addCycleAcrossPages (e : Execution β) (target : UInt16) :
    (e.addCycleAcrossPages target).runMode = e.runMode := by
  unfold addCycleAcrossPages
  split <;> rfl

omit [Bus β] in
/-- and branching. -/
theorem runMode_branchIf (e : Execution β) (taken : Bool) (target : UInt16) :
    (e.branchIf taken target).runMode = e.runMode := by
  unfold branchIf
  split
  · exact e.runMode_addCycleAcrossPages target
  · rfl

/-- Only `WAI` and `STP` halt the processor, and no operation wakes it. -/
theorem runMode_perform {operation : Operation} (hwai : operation ≠ .wai)
    (hstp : operation ≠ .stp) (mode : AddressingMode) (irqVector : UInt16) (e : Execution β) :
    (operation.perform mode irqVector e).runMode = e.runMode := by
  cases operation with
  | wai => exact absurd rfl hwai
  | stp => exact absurd rfl hstp
  | adc | sbc | and | ora | eor | cmp | cpx | cpy | lda | ldx | ldy =>
    exact e.runMode_operandValue mode
  | bit =>
    refine Eq.trans ?_ (e.runMode_operandValue mode)
    unfold Operation.perform testOperand
    simp only
    split <;> rfl
  | asl | lsr | rol | ror | inc | dec => exact e.runMode_replaceOperandNZ mode _
  | trb | tsb | rmb | smb => exact e.runMode_replaceOperand mode _
  | bbr | bbs => exact (runMode_branchIf _ _ _).trans (e.runMode_operandValue mode)
  | branch => exact e.runMode_branchIf _ _
  | bra => exact e.runMode_addCycleAcrossPages _
  | _ => rfl

/-- Nothing before the operation itself changes the run mode. -/
theorem runMode_prepared (e : Execution β) : e.prepared.runMode = e.runMode := by
  have hoperand : e.withOperand.runMode = e.runMode := by
    unfold withOperand
    split <;> rfl
  unfold prepared
  cases e.inFlight.phase with
  | fetch | decode => exact hoperand
  | resolveAddress | operate | updateFlags | retire => rfl

/-- Apart from `WAI`, `STP` and the service of an interrupt nothing changes the run mode. -/
theorem Works.runMode_eq {irqVector : UInt16} {deed? : Option Deed}
    (h : e.Works irqVector deed? f) (hserve : ∀ vector, deed? ≠ some (.serve vector))
    (hhalts : ∀ opcode ∈ haltingOpcodes, deed? ≠ some (.perform opcode)) :
    f.runMode = e.runMode := by
  cases h with
  | serves vector activity phase => exact absurd rfl (hserve vector)
  | performs activity =>
    have hother : e.inFlight.opcode ∉ haltingOpcodes := fun hmem => hhalts _ hmem rfl
    have hperform := runMode_perform (fun hwai => hother (mem_haltingOpcodes (.inl hwai)))
      (fun hstp => hother (mem_haltingOpcodes (.inr hstp)))
      (Descriptor.ofOpcode e.inFlight.opcode).mode irqVector e.prepared
    exact hperform.trans e.runMode_prepared
  | fetches activity | concludes activity => rfl
  | waits => rfl

end Execution

namespace Cpu

variable {β : Type}

/-- The world behind the pins after what is done to it from outside during a number of events. -/
def worldAfter (port : Port β) : List (Event β) → Port β
  | [] => port
  | .world change :: rest => worldAfter (change port) rest
  | .cycle :: rest | .set _ _ :: rest => worldAfter port rest

/-- From one state to another the processor has done nothing: it counted the cycles, and the world
behind its pins was changed from outside. -/
structure Idles (c d : Cpu β) (world : Port β) : Prop where
  /-- The settings stay. -/
  settings : d.settings = c.settings
  /-- The registers stay. -/
  regs : d.regs = c.regs
  /-- A halted processor stays halted. -/
  runMode : d.runMode = c.runMode
  /-- What is in flight stays: at a boundary, nothing. -/
  inFlight : d.inFlight = c.inFlight
  /-- No instruction is completed. -/
  instructions : d.counters.instructions = c.counters.instructions
  /-- No interrupt sequence is completed. -/
  interruptsServiced : d.counters.interruptsServiced = c.counters.interruptsServiced
  /-- Nothing is acknowledged, and the lines are as they were moved from outside. -/
  interrupts : d.interrupts = { c.interrupts with lines := world.lines }
  /-- There was no access to the bus, not even one that only a record of accesses would show. It is
  what has become of it from outside. -/
  bus : d.bus = world.bus

namespace Idles

variable {c d e : Cpu β} {world later : Port β}

/-- In no time the processor idles. -/
theorem refl (c : Cpu β) : c.Idles c c.port := ⟨rfl, rfl, rfl, rfl, rfl, rfl, rfl, rfl⟩

/-- One idle time after another. -/
theorem trans (h : c.Idles d world) (h' : d.Idles e later) : c.Idles e later where
  settings := h'.settings.trans h.settings
  regs := h'.regs.trans h.regs
  runMode := h'.runMode.trans h.runMode
  inFlight := h'.inFlight.trans h.inFlight
  instructions := h'.instructions.trans h.instructions
  interruptsServiced := h'.interruptsServiced.trans h.interruptsServiced
  interrupts := by rw [h'.interrupts, h.interrupts]
  bus := h'.bus

/-- After an idle time the world is what others have made of it. -/
theorem port_eq (h : c.Idles d world) : d.port = world := by
  rw [port, h.bus, h.interrupts]

end Idles

variable [Bus β]

/-- Whether a processor at an instruction boundary goes on in the next cycle: it has the bus, and if
it is halted then there is a request that ends the halt. -/
def Wakes (runMode : RunMode) (port : Port β) : Prop :=
  Bus.cpuHasBus port.bus = true ∧
    match runMode with
    | .running => True
    | .waiting => ∃ line, port.lines.Eligible false line
    | .stopped => port.lines.reset = true

/-- Nothing wakes the processor in any of the cycles, and nothing is done to its registers. -/
def Rests (runMode : RunMode) (port : Port β) : List (Event β) → Prop
  | [] => True
  | .cycle :: rest => ¬ Wakes runMode port ∧ Rests runMode port rest
  | .world change :: rest => Rests runMode (change port) rest
  | .set _ _ :: _ => False

/-- Whether an event requests no RESET, and leaves the registers alone. -/
def Event.WithholdsReset : Event β → Prop
  | .cycle => True
  | .world change => ∀ port, port.lines.reset = false → (change port).lines.reset = false
  | .set _ _ => False

variable {c : Cpu β}

/-- A stopped processor rests as long as nobody requests RESET. -/
theorem rests_of_withholdsReset {port : Port β} {events : List (Event β)}
    (hport : port.lines.reset = false) (hevents : ∀ event ∈ events, event.WithholdsReset) :
    Rests .stopped port events := by
  induction events generalizing port with
  | nil => trivial
  | cons first rest ih =>
    obtain ⟨hfirst, hrest⟩ := List.forall_mem_cons.mp hevents
    cases first with
    | cycle => exact ⟨fun hwakes => Bool.false_ne_true (hport.symm.trans hwakes.2), ih hport hrest⟩
    | world change => exact ih (hfirst port hport) hrest
    | set register value => exact hfirst.elim

/-- What wakes a processor is what the cycle looks at. -/
theorem wakes_iff :
    Wakes c.runMode c.port ↔ Bus.cpuHasBus c.bus = true ∧ c.wake?.isSome = true := by
  unfold Wakes wake?
  refine and_congr_right fun _ => ?_
  cases c.runMode with
  | running => simp
  | waiting =>
    rw [← Lines.anyActive_iff]
    cases hactive : c.interrupts.lines.anyActive <;> simp [port, hactive]
  | stopped => cases hreset : c.interrupts.lines.reset <;> simp [port, hreset]

/-- A processor that is not woken does nothing in a cycle. -/
theorem idles_cycle (hboundary : c.inFlight = none) (hrests : ¬ Wakes c.runMode c.port) :
    c.Idles c.cycle.2 c.port := by
  cases hbus : Bus.cpuHasBus c.bus with
  | false =>
    rw [cycle_of_stalled hbus]
    exact ⟨rfl, rfl, rfl, rfl, rfl, rfl, rfl, rfl⟩
  | true =>
    have hwake : c.wake? = none := by
      rw [wakes_iff, not_and, Option.not_isSome_iff_eq_none] at hrests
      exact hrests hbus
    rw [cycle_of_halted hbus hboundary hwake]
    exact ⟨rfl, rfl, rfl, rfl, rfl, rfl, rfl, rfl⟩

/-- As long as nothing wakes it a processor does nothing. -/
theorem idles_afterAll {events : List (Event β)} (hboundary : c.inFlight = none)
    (hrests : Rests c.runMode c.port events) :
    c.Idles (c.afterAll events) (worldAfter c.port events) := by
  induction events generalizing c with
  | nil => exact .refl c
  | cons first rest ih =>
    cases first with
    | cycle =>
      obtain ⟨hfirst, hrest⟩ := hrests
      -- An idle cycle leaves all that waking depends on, so the rest is a rest from there.
      have hcycle := idles_cycle hboundary hfirst
      rw [← hcycle.runMode, ← hcycle.port_eq] at hrest
      have hlater := hcycle.trans (ih (hcycle.inFlight.trans hboundary) hrest)
      rwa [hcycle.port_eq] at hlater
    | world change =>
      have hchange : c.Idles (c.mapPort change) (change c.port) :=
        ⟨rfl, rfl, rfl, rfl, rfl, rfl, rfl, rfl⟩
      exact hchange.trans (ih hboundary hrests)
    | set register value => exact hrests.elim

omit [Bus β] in
/-- If nothing from outside touches the bus it stays what it is. -/
theorem bus_worldAfter {port : Port β} {events : List (Event β)}
    (h : ∀ change, .world change ∈ events → ∀ port, (change port).bus = port.bus) :
    (worldAfter port events).bus = port.bus := by
  induction events generalizing port with
  | nil => rfl
  | cons first rest ih =>
    have hrest : ∀ change, .world change ∈ rest → ∀ port, (change port).bus = port.bus :=
      fun change hmem => h change (List.mem_cons_of_mem _ hmem)
    cases first with
    | cycle | set register value => exact ih hrest
    | world change => exact (ih hrest).trans (h change List.mem_cons_self port)

/-- In the next cycle a request on a line is acknowledged, and nothing else happens. -/
structure BeginsService (c : Cpu β) (line : Line) : Prop where
  /-- The processor makes progress. -/
  progress : c.cycle.1 = true
  /-- The request is acknowledged. -/
  deed : c.deed? = some (.acknowledge ⟨c.settings.vectorOf line, line⟩)
  /-- The sequence of cycles that serves it is in flight. -/
  inFlight : c.cycle.2.inFlight = some (.ofVector ⟨c.settings.vectorOf line, line⟩)
  /-- The registers stay, and with them the address at which the program is to go on. -/
  regs : c.cycle.2.regs = c.regs
  /-- There is no access to the bus. -/
  bus : c.cycle.2.bus = c.bus

/-- In the next cycle the program goes on where the program counter points. -/
structure GoesOn (c : Cpu β) : Prop where
  /-- The opcode is fetched from there. If it has no operand it takes effect. -/
  fetches : c.cycle = (true, c.clocked.settle
    ((⟨c.regs, .running, .ofOpcode 0, c.port⟩ : Execution β).fetchOpcode c.settings.irqVector))
  /-- The processor is running, if it is not halted by the instruction that was just fetched. -/
  runs : (c.port.read c.regs.pc).1 ∉ haltingOpcodes → c.cycle.2.runMode = .running

/-- The next cycle ends waiting. -/
inductive EndsWaiting (c : Cpu β) : Prop where
  /-- The most urgent of the eligible requests is acknowledged. -/
  | serves (line : Line)
    (urgent : line.IsMostUrgent (c.interrupts.lines.Eligible (c.regs.flag Status.irqDisable)))
    (begins : c.BeginsService line) (runs : c.cycle.2.runMode = .running)
  /-- There are only requests that are masked. -/
  | goesOn (masked : ∀ line, ¬ c.interrupts.lines.Eligible (c.regs.flag Status.irqDisable) line)
    (goesOn : c.GoesOn)

/-- At a boundary the most urgent eligible request is acknowledged. -/
theorem beginsService_of_wake (hbus : Bus.cpuHasBus c.bus = true) (hboundary : c.inFlight = none)
    {runMode : RunMode} (hwake : c.wake? = some runMode) {line : Line}
    (hnext : c.interrupts.lines.next (c.regs.flag Status.irqDisable) = some line) :
    c.BeginsService line ∧ c.cycle.2.runMode = runMode := by
  have hcycle := cycle_of_wake hbus hboundary hwake
  simp only [clocked_start, InterruptController.acknowledge, hnext] at hcycle
  have hdeed : c.deed? = some (.acknowledge ⟨c.settings.vectorOf line, line⟩) := by
    simp only [deed?, hbus, if_true, hboundary, hwake, InterruptController.acknowledge, hnext]
  rw [hcycle]
  refine ⟨⟨?_, hdeed, ?_, ?_, ?_⟩, rfl⟩ <;> rw [hcycle] <;> rfl

/-- Where there is no eligible request the program goes on. -/
theorem goesOn_of_wake (hbus : Bus.cpuHasBus c.bus = true) (hboundary : c.inFlight = none)
    (hwake : c.wake? = some .running)
    (hnext : c.interrupts.lines.next (c.regs.flag Status.irqDisable) = none) : c.GoesOn := by
  have hpending : c.interrupts.lines.pending (c.regs.flag Status.irqDisable) = false := by
    rw [← Lines.next_isSome, hnext]
    rfl
  have hcycle := cycle_of_fetch hbus hboundary hwake hpending
  refine ⟨hcycle, fun hopcode => ?_⟩
  rw [hcycle]
  refine (Execution.works_fetchOpcode _ _).runMode_eq ?_ ?_
  · intro vector
    unfold fetchDeed?
    split <;> nofun
  · rintro opcode hmem hperforms
    unfold fetchDeed? at hperforms
    split at hperforms
    · cases hperforms
      exact hopcode hmem
    · cases hperforms

/-- The first cycle with the bus and an active line ends waiting. -/
theorem endsWaiting (hboundary : c.inFlight = none) (hmode : c.runMode = .waiting)
    (hbus : Bus.cpuHasBus c.bus = true) (hactive : ∃ line, c.interrupts.lines.Eligible false line) :
    c.EndsWaiting := by
  have hwake : c.wake? = some .running := by
    simp only [wake?, hmode, Lines.anyActive_iff.mpr hactive, if_true]
  cases hnext : c.interrupts.lines.next (c.regs.flag Status.irqDisable) with
  | some line =>
    obtain ⟨hbegins, hruns⟩ := beginsService_of_wake hbus hboundary hwake hnext
    exact .serves line (Lines.next_eq_some_iff.mp hnext) hbegins hruns
  | none =>
    exact .goesOn (Lines.next_eq_none_iff.mp hnext) (goesOn_of_wake hbus hboundary hwake hnext)

/-- A halt lasts until the request comes that ends it. -/
structure StaysHalted (c : Cpu β) : Prop where
  /-- A stopped processor does nothing as long as no RESET is requested. -/
  stopped : c.runMode = .stopped → c.interrupts.lines.reset = false →
    ∀ events : List (Event β), (∀ event ∈ events, event.WithholdsReset) →
      c.Idles (c.afterAll events) (worldAfter c.port events)
  /-- With the bus and a RESET pending the next cycle begins its service. -/
  reset : c.runMode = .stopped → ∀ events, Rests c.runMode c.port events →
    Bus.cpuHasBus (worldAfter c.port events).bus = true →
    (worldAfter c.port events).lines.reset = true → (c.afterAll events).BeginsService .reset
  /-- A waiting processor does nothing as long as no line is active in a cycle with the bus. -/
  waiting : c.runMode = .waiting → ∀ events, Rests c.runMode c.port events →
    c.Idles (c.afterAll events) (worldAfter c.port events)
  /-- With the bus and an active line the next cycle ends waiting. -/
  woken : c.runMode = .waiting → ∀ events, Rests c.runMode c.port events →
    Bus.cpuHasBus (worldAfter c.port events).bus = true →
    (∃ line, (worldAfter c.port events).lines.Eligible false line) →
    (c.afterAll events).EndsWaiting
  /-- If nothing but the lines is moved meanwhile the bus stays what it is. -/
  untouched : ∀ events, Rests c.runMode c.port events →
    (∀ change, .world change ∈ events → ∀ port, (change port).bus = port.bus) →
    (c.afterAll events).bus = c.bus

/-- At an instruction boundary a halted processor stays halted until it is woken, and what wakes it
is what the settings and the lines say. -/
theorem staysHalted_of_boundary (hboundary : c.inFlight = none) : c.StaysHalted where
  stopped hmode hreset events hevents := by
    refine idles_afterAll hboundary ?_
    rw [hmode]
    exact rests_of_withholdsReset hreset hevents
  reset hmode events hrests hbus hreset := by
    have hidles := idles_afterAll hboundary hrests
    rw [← hidles.port_eq] at hbus hreset
    have hwake : (c.afterAll events).wake? = some .stopped := by
      have hmode' := hidles.runMode.trans hmode
      simp only [wake?, hmode']
      exact if_pos hreset
    exact (beginsService_of_wake hbus (hidles.inFlight.trans hboundary) hwake (if_pos hreset)).1
  waiting _ events hrests := idles_afterAll hboundary hrests
  woken hmode events hrests hbus hactive := by
    have hidles := idles_afterAll hboundary hrests
    rw [← hidles.port_eq] at hbus hactive
    exact endsWaiting (hidles.inFlight.trans hboundary) (hidles.runMode.trans hmode) hbus hactive
  untouched events hrests hchanges :=
    (idles_afterAll hboundary hrests).bus.trans (bus_worldAfter hchanges)

/-- A processor whose program waits and then does nothing. Interrupts are masked. -/
def pausing : Cpu Memory :=
  { settings := {}, regs := { p := Status.unused ||| Status.irqDisable }
    bus := .load .zeros 0 [0xCB, 0xEA] }

/-- Once its instruction is over the processor waits until a line is active. -/
theorem staysHalted_after_wai :
    (pausing.tick 3).inFlight = none ∧ (pausing.tick 3).runMode = .waiting ∧
      (pausing.tick 3).StaysHalted := by
  have hboundary : (pausing.tick 3).inFlight = none := by decide +kernel
  exact ⟨hboundary, by decide +kernel, staysHalted_of_boundary hboundary⟩

end Cpu

end W65C02
