import W65C02.Proofs.Cpu.Service
import W65C02.Proofs.Instruction.Traffic

/-!
# The fixed bits of the status byte

Whatever a host does with a processor, bit 5 of its status byte is set. No cycle moves bit 4 or bit
5, even if the status is pulled from the stack, and bit 4 of a status byte on the stack tells
whether it was pushed by software or for an interrupt.
-/

namespace W65C02

open Transaction

/-- Whether a deed pushes a status byte for software or for an interrupt, if it pushes one. -/
def Deed.pushesStatus? : Deed → Option Bool
  | acknowledge _ => none
  | serve vector => if vector.line = .reset then none else some false
  | perform opcode => if opcode = 0x00 ∨ opcode = 0x08 then some true else none

section

variable {β : Type} [Bus β]

/-- From one world to the next a status byte is pushed, as the last one of the bytes that are pushed
from a stack pointer downwards, and nothing else is written. -/
def Port.PushesStatus (port next : Port β) (s status : UInt8) : Prop :=
  ∃ before saved after,
    next = port.transactAll (before ++ pushes s (saved ++ [status]) ++ after) ∧
      before.filterMap written? = [] ∧ after.filterMap written? = []

/-- What is read before does not matter. -/
theorem Port.PushesStatus.of_reads {port next : Port β} {s status : UInt8}
    {reads : List Transaction} (h : (port.transactAll reads).PushesStatus next s status)
    (hreads : reads.filterMap written? = []) : port.PushesStatus next s status := by
  obtain ⟨before, saved, after, hnext, hbefore, hafter⟩ := h
  refine ⟨reads ++ before, saved, after, ?_, ?_, hafter⟩
  · rw [hnext, ← Port.transactAll_append, List.append_assoc reads, List.append_assoc reads]
  · rw [List.filterMap_append, hreads, hbefore]
    rfl

/-- What returning needs is saved by three pushes. -/
theorem Port.saveFrame_eq_transactAll (port : Port β) (regs : Registers) (software : Bool) :
    port.saveFrame regs software = port.transactAll (pushes regs.s
      ([highByte regs.pc, lowByte regs.pc] ++ [regs.statusToPush software])) := by
  have htwo : regs.s - 2 = regs.s - 1 - 1 := by grind
  rw [saveFrame, htwo]
  rfl

namespace Execution

/-- Until the operation is performed nothing is written, and the stack pointer stays. -/
theorem prepared_reads (e : Execution β) :
    e.prepared.regs.s = e.regs.s ∧ ∃ reads : List Transaction,
      e.prepared.port = e.port.transactAll reads ∧ reads.filterMap written? = [] := by
  have hoperand : e.withOperand.regs.s = e.regs.s ∧ ∃ reads : List Transaction,
      e.withOperand.port = e.port.transactAll reads ∧ reads.filterMap written? = [] := by
    unfold withOperand
    split
    · exact ⟨rfl, [.read e.regs.pc], rfl, rfl⟩
    · exact ⟨rfl, [], rfl, rfl⟩
  have hlocate (f : Execution β) (mode : AddressingMode) :
      (f.locateOperand mode).port =
        f.port.transactAll (mode.pointerReads f.inFlight.operand f.regs) :=
    mode.locate_snd _ _ _
  let mode := (Descriptor.ofOpcode e.inFlight.opcode).mode
  unfold prepared
  cases e.inFlight.phase with
  | fetch | decode =>
    obtain ⟨hs, reads, hport, hreads⟩ := hoperand
    let pointerReads := mode.pointerReads e.withOperand.inFlight.operand e.withOperand.regs
    refine ⟨hs, reads ++ pointerReads, ?_, ?_⟩
    · rw [Port.transactAll_append, ← hport]
      exact hlocate e.withOperand mode
    · rw [List.filterMap_append, hreads]
      exact AddressingMode.written_pointerReads _ _ _
  | operate => exact ⟨rfl, [], rfl, rfl⟩
  | resolveAddress | updateFlags | retire =>
    exact ⟨rfl, _, hlocate _ _, AddressingMode.written_pointerReads _ _ _⟩

/-- `BRK` and `PHP` push the status. -/
theorem operate_pushesStatus (e : Execution β) (irqVector : UInt16)
    (hopcode : e.inFlight.opcode = 0x00 ∨ e.inFlight.opcode = 0x08) :
    e.port.PushesStatus (e.operate irqVector).port e.regs.s (e.regs.statusToPush true) := by
  obtain ⟨hs, reads, hport, hreads⟩ := e.prepared_reads
  have hstatus : e.prepared.regs.statusToPush true = e.regs.statusToPush true := by
    simp only [Registers.statusToPush, Registers.status, e.prepared_keeps.1]
  refine Port.PushesStatus.of_reads ?_ hreads
  rw [← hport, ← hs, ← hstatus]
  have hperform : (e.operate irqVector).port = _ := Operation.perform_port
    (Descriptor.ofOpcode e.inFlight.opcode).operation
    (Descriptor.ofOpcode e.inFlight.opcode).mode irqVector e.prepared
  rw [hperform]
  rcases hopcode with hopcode | hopcode
  · have hd : Descriptor.ofOpcode e.inFlight.opcode = .plain .brk .immediate 7 := by
      rw [hopcode]
      rfl
    rw [hd]
    exact ⟨[], [highByte e.prepared.regs.pc, lowByte e.prepared.regs.pc], pointer irqVector, rfl,
      rfl, rfl⟩
  · have hd : Descriptor.ofOpcode e.inFlight.opcode = .plain .php .implied 3 := by
      rw [hopcode]
      rfl
    rw [hd]
    exact ⟨[], [], [], rfl, rfl, rfl⟩

/-- So do NMI and IRQ. -/
theorem serve_pushesStatus (e : Execution β) {vector : InterruptVector}
    (hline : vector.line ≠ .reset) :
    e.port.PushesStatus (e.serve vector).port e.regs.s (e.regs.statusToPush false) := by
  obtain ⟨address, line⟩ := vector
  rw [serve_of_ne_reset e address hline, interruptTo_eq, Port.saveFrame_eq_transactAll]
  refine ⟨[], [highByte e.regs.pc, lowByte e.regs.pc], pointer address, ?_, rfl, rfl⟩
  rw [List.nil_append, Port.transactAll_append]
  rfl

/-- Whatever work pushes a status byte marks it. -/
theorem Works.pushesStatus {e f : Execution β} {irqVector : UInt16} {deed : Deed} {software : Bool}
    (h : e.Works irqVector (some deed) f) (hdeed : deed.pushesStatus? = some software) :
    e.port.PushesStatus f.port e.regs.s (e.regs.statusToPush software) := by
  cases h with
  | serves vector activity phase =>
    simp only [Deed.pushesStatus?] at hdeed
    split at hdeed
    · cases hdeed
    · next hline =>
      cases hdeed
      exact e.serve_pushesStatus hline
  | performs activity =>
    simp only [Deed.pushesStatus?] at hdeed
    split at hdeed
    · next hopcode =>
      cases hdeed
      exact e.operate_pushesStatus irqVector hopcode
    · cases hdeed

end Execution

namespace Cpu

variable {c : Cpu β}

/-- What is done in a cycle tells whether a status byte is pushed in it. -/
theorem pushesStatus_cycle {deed : Deed} (hdeed : c.deed? = some deed) {software : Bool}
    (hpushes : deed.pushesStatus? = some software) :
    c.port.PushesStatus c.cycle.2.port c.regs.s (c.regs.statusToPush software) := by
  have hdoes := c.does_cycle
  rw [hdeed] at hdoes
  generalize c.cycle.2 = d at hdoes ⊢
  cases hdoes with
  | acknowledges runMode line boundary next => cases hpushes
  | @fetches runMode boundary _ worked work =>
    have hpushed : (c.port.transactAll [.read c.regs.pc]).PushesStatus worked.port c.regs.s
        (c.regs.statusToPush software) := work.pushesStatus hpushes
    exact hpushed.of_reads rfl
  | resumes flight inFlight work => exact work.pushesStatus hpushes

/-- The processors that a host comes to from power-on with any settings. It lets cycles pass, moves
the lines and the bus, writes registers, resets the processor and hands it snapshots from anywhere
that it accepts, in any order. -/
inductive InUse : Cpu β → Prop where
  /-- Power-on. -/
  | start (settings : CpuSettings) (bus : β) : InUse (create settings bus)
  /-- A cycle. -/
  | cycle {c : Cpu β} (h : InUse c) : InUse c.cycle.2
  /-- The bus and the lines are given another state. -/
  | setPort {c : Cpu β} (port : Port β) (h : InUse c) : InUse (c.setPort port)
  /-- The interrupt controller is given another state. -/
  | mapInterrupts {c : Cpu β} (f : InterruptController → InterruptController) (h : InUse c) :
    InUse (c.mapInterrupts f)
  /-- A register is written. -/
  | set {c d : Cpu β} {register : Register} {value : ℕ} (h : InUse c)
    (hset : c.set register value = .ok d) : InUse d
  /-- A reset. -/
  | reset {c : Cpu β} (h : InUse c) : InUse c.reset
  /-- A snapshot is accepted. -/
  | restore {c d : Cpu β} {state : CpuSnapshot} (h : InUse c) (hrestore : c.restore state = .ok d) :
    InUse d

/-- Whatever a host does, bit 5 of the status byte is set. -/
theorem InUse.flag_unused (h : c.InUse) : c.regs.flag Status.unused = true := by
  induction h with
  | start settings bus => exact Registers.flag_powerOn_unused settings.initialS settings.initialP
  | cycle _ ih => exact flag_unused_cycle ih
  | setPort _ _ ih | mapInterrupts _ _ ih => exact ih
  | set _ hset ih =>
    obtain ⟨regs, hregs, rfl⟩ := set_eq hset
    exact Registers.flag_unused_of_set ih hregs
  | @reset c _ _ =>
    exact Registers.flag_powerOn_unused c.settings.initialS c.settings.initialP
  | restore _ hrestore _ =>
    obtain ⟨hvalid, rfl⟩ := restore_eq_ok.mp hrestore
    exact (CpuSnapshot.validate_eq_ok.mp hvalid).1

/-- The fixed bits of the status byte are what they are to be, in the register and on the stack. -/
structure KeepsStatusBits (c : Cpu β) : Prop where
  /-- Bit 5 is set. -/
  unused : c.regs.flag Status.unused = true
  /-- The next cycle leaves bit 5 as it is. -/
  cycle_unused : c.cycle.2.regs.flag Status.unused = c.regs.flag Status.unused
  /-- The next cycle leaves bit 4 as it is. -/
  cycle_brk : c.cycle.2.regs.flag Status.brk = c.regs.flag Status.brk
  /-- If the next cycle pushes a status byte, then it is that of the register but for bit 4. Bit 5
  is set, and bit 4 is set if `BRK` or `PHP` pushes it and clear if it is pushed for an NMI or an
  IRQ. -/
  pushed : ∀ deed software, c.deed? = some deed → deed.pushesStatus? = some software →
    ∃ status, c.port.PushesStatus c.cycle.2.port c.regs.s status ∧
      (status = if software then c.regs.p ||| Status.brk else c.regs.p &&& ~~~Status.brk) ∧
      status &&& Status.unused = Status.unused ∧
      status &&& Status.brk = if software then Status.brk else 0

/-- Whatever a host does with a processor, the fixed bits of its status byte are kept. -/
theorem InUse.keepsStatusBits (h : c.InUse) : c.KeepsStatusBits where
  unused := h.flag_unused
  cycle_unused := by rw [flag_unused_cycle h.flag_unused, h.flag_unused]
  cycle_brk := c.keepsFixedBits_cycle.brk
  pushed deed software hdeed hpushes :=
    ⟨_, pushesStatus_cycle hdeed hpushes, Registers.statusToPush_of_unused h.flag_unused software,
      c.regs.statusToPush_unused software, c.regs.statusToPush_brk software⟩

end Cpu

end

namespace Cpu

/-- A snapshot with bit 4 of the status byte set and an acknowledged IRQ in flight. -/
def acknowledgedIrq : CpuSnapshot where
  registers := { s := 0x01, p := 0xFF }
  runMode := .running
  counters := {}
  pending := {}
  inFlight := some (.ofVector ⟨0xFFFE, .irq⟩)

/-- A processor accepts this snapshot, and the next cycle pushes the status byte with bit 4 clear.
-/
theorem keepsStatusBits_of_restore :
    ∃ c, (create {} Memory.zeros).restore acknowledgedIrq = .ok c ∧ c.KeepsStatusBits ∧
      ∃ status, c.port.PushesStatus c.cycle.2.port 0x01 status ∧ status = 0xEF ∧
        status &&& Status.unused = Status.unused ∧ status &&& Status.brk = 0 := by
  have hrestore : (create {} Memory.zeros).restore acknowledgedIrq =
      .ok ((create {} Memory.zeros).apply acknowledgedIrq) := rfl
  have hkeeps := ((InUse.start {} Memory.zeros).restore hrestore).keepsStatusBits
  exact ⟨_, hrestore, hkeeps, hkeeps.pushed (.serve ⟨0xFFFE, .irq⟩) false rfl rfl⟩

end Cpu

end W65C02
