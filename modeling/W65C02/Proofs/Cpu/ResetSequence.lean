import W65C02.Proofs.Bus.Transactions
import W65C02.Proofs.Cpu.Halting
import W65C02.Proofs.Cpu.Sequence

/-!
# The sequence of a reset

A pending RESET goes before everything else at an instruction boundary, halted or not. Its sequence
writes nothing, and all that it reads is the reset vector. The requests on the other lines stay, so
a latched NMI is served right after it.
-/

namespace W65C02

open Transaction

namespace Cpu

section

variable {β : Type} {c : Cpu β}

/-- A pending RESET ends every halt. -/
theorem exists_wake_of_reset (hreset : c.interrupts.lines.reset = true) :
    ∃ runMode, c.wake? = some runMode := by
  unfold wake?
  cases c.runMode with
  | running => exact ⟨_, rfl⟩
  | waiting =>
    have hactive : c.interrupts.lines.anyActive = true :=
      Lines.anyActive_iff.mpr ⟨.reset, hreset⟩
    exact ⟨_, if_pos hactive⟩
  | stopped => exact ⟨_, if_pos hreset⟩

end

/-- A step serves a reset. -/
structure ServesReset (c : Cpu (Traced Memory)) : Prop where
  /-- The sequence has seven cycles. -/
  cycles : c.step.1 = 7
  /-- The sequence is complete. -/
  boundary : c.step.2.inFlight = none
  /-- All that is asked of the bus is the reset vector. -/
  bus : c.step.2.bus = (c.port.transactAll (pointer c.settings.resetVector)).bus
  /-- If accesses are recorded there are two more of them, the reads of the low byte of the vector
  and of its high byte. -/
  log : c.bus.recording = true → c.step.2.bus.log.toList = c.bus.log.toList ++
    [⟨.read, c.settings.resetVector, c.bus.inner.read c.settings.resetVector⟩,
      ⟨.read, c.settings.resetVector + 1, c.bus.inner.read (c.settings.resetVector + 1)⟩]
  /-- The memory stays. -/
  memory : c.step.2.bus.inner = c.bus.inner
  /-- The program goes on where the vector points, with interrupts masked and decimal mode off. The
  other registers and flags stay. -/
  regs : c.step.2.regs =
    { c.regs with
      pc := wordOfBytes (c.bus.inner.read c.settings.resetVector)
        (c.bus.inner.read (c.settings.resetVector + 1))
      p := (c.regs.p ||| Status.irqDisable) &&& ~~~Status.decimal }
  /-- The processor is not halted. -/
  running : c.step.2.runMode = .running
  /-- The request is withdrawn, and the requests on the other lines stay. -/
  lines : c.step.2.interrupts.lines = { c.interrupts.lines with reset := false }
  /-- A latched NMI is served next. -/
  nmi : c.interrupts.lines.nmi = true →
    c.step.2.BeginsService .nmi ∧ c.step.2.step = (7, c.step.2.afterSequence .running .nmi)

/-- A step from an instruction boundary at which a RESET is pending serves it, in any run mode and
whatever else is requested. -/
theorem servesReset_of_boundary {c : Cpu (Traced Memory)} (hboundary : c.inFlight = none)
    (hreset : c.interrupts.lines.reset = true) (hunused : c.regs.flag Status.unused = true) :
    c.ServesReset := by
  have hsole : ∀ bus : Traced Memory, Bus.cpuHasBus bus = true := fun _ => rfl
  obtain ⟨runMode, hwake⟩ := exists_wake_of_reset hreset
  have hnext : c.interrupts.lines.next (c.regs.flag Status.irqDisable) = some .reset :=
    if_pos hreset
  have hstep := step_of_asked hsole hboundary hwake hnext
  have hp := Registers.p_enterRoutine hunused
  have hbus : c.step.2.bus = (c.port.transactAll (pointer c.settings.resetVector)).bus := by
    rw [hstep]
    rfl
  obtain ⟨hdone, hrunning, hlines⟩ : c.step.2.inFlight = none ∧ c.step.2.runMode = .running ∧
      c.step.2.interrupts.lines = { c.interrupts.lines with reset := false } := by
    rw [hstep]
    exact ⟨rfl, rfl, rfl⟩
  constructor
  case cycles => rw [hstep]
  case boundary => exact hdone
  case bus => exact hbus
  case log =>
    intro hrecording
    have hstart : c.port = ⟨⟨c.bus.inner, c.bus.log, true⟩, c.interrupts.lines⟩ := by
      rw [← hrecording]
      rfl
    rw [hbus, hstart, Traced.transactAll_eq, Array.toList_append]
    rfl
  case memory =>
    rw [hbus]
    rfl
  case regs =>
    rw [hstep, ← hp]
    rfl
  case running => exact hrunning
  case lines => exact hlines
  case nmi =>
    intro hnmi
    have hwake : c.step.2.wake? = some .running := by
      simp only [wake?, hrunning]
    have hnext : c.step.2.interrupts.lines.next (c.step.2.regs.flag Status.irqDisable) =
        some .nmi := by
      rw [hlines]
      exact if_pos hnmi
    exact ⟨(beginsService_of_wake (hsole _) hdone hwake hnext).1,
      step_of_asked hsole hdone hwake hnext⟩

/-- A stopped processor in decimal mode with its registers in use. Its reset vector ends at the end
of the address space, and an NMI and an IRQ are requested besides the RESET. -/
def stoppedWithRequests : Cpu (Traced Memory) where
  settings := { resetVector := 0xFFFE }
  regs := { a := 1, x := 2, y := 3, s := 0, p := Status.unused ||| Status.decimal }
  runMode := .stopped
  interrupts.lines :=
    { reset := true, nmi := true, nmiLevel := true, irqSources := .ofList ["timer"] }
  bus.inner := Memory.zeros.write 0xFFFF 0x80

/-- Its reset is served as in any other run mode, and then its NMI is. -/
theorem servesReset_of_stopped :
    stoppedWithRequests.ServesReset ∧ stoppedWithRequests.step.2.BeginsService .nmi := by
  have hserves : stoppedWithRequests.ServesReset :=
    servesReset_of_boundary rfl rfl (by decide)
  exact ⟨hserves, (hserves.nmi rfl).1⟩

end Cpu

end W65C02
