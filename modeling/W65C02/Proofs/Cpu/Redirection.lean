import W65C02.Proofs.Cpu.Progress
import W65C02.Proofs.Instruction.StackPointer

/-!
# Moving the program counter under an instruction

A host may move the program counter while something is in flight. That goes on as it is and takes
the operand bytes that it lacks from the new place. Whatever it is, and however far it has come, it
never does what the push of a byte at the new place would do: if the stack pointer comes out one
lower then the program counter is still where the host has put it.
-/

namespace W65C02

/-- The program counter has been moved to `start` when the stack pointer was `s`, and what was in
flight then has gone on, perhaps to its end. -/
structure Redirected (s : UInt8) (start : UInt16) (regs : Registers)
    (inFlight : Option InFlight) : Prop where
  /-- No byte has been pushed from `start`. -/
  unpushed : regs.s = s - 1 → regs.pc = start
  /-- Before the work is done the stack pointer has not moved, and only operand bytes move the
  program counter. -/
  undone : ∀ flight ∈ inFlight, flight.phase ≠ .retire →
    regs.s = s ∧ (operandSize flight.opcode = 0 → regs.pc = start)

namespace Redirected

variable {β : Type} {s : UInt8} {start : UInt16}

/-- When the program counter is moved nothing has gone on. -/
theorem of_moved (regs : Registers) (inFlight : Option InFlight) :
    Redirected regs.s regs.pc regs inFlight :=
  ⟨fun _ => rfl, fun _ _ _ => ⟨rfl, fun _ => rfl⟩⟩

/-- Where no work is left it is enough that nothing has been pushed. -/
theorem of_retire {e : Execution β} (hphase : e.inFlight.phase = .retire)
    (h : e.regs.s = s - 1 → e.regs.pc = start) : Redirected s start e.regs (some e.inFlight) := by
  refine ⟨h, fun flight hflight hundone => ?_⟩
  obtain rfl := Option.mem_some.mp hflight
  exact absurd hphase hundone

variable [Bus β] {e : Execution β}

omit [Bus β] in
/-- The flags that describe a result are neither of the two. -/
theorem conclude_regs (e : Execution β) (d : Descriptor) :
    (e.conclude d).regs.s = e.regs.s ∧ (e.conclude d).regs.pc = e.regs.pc := by
  unfold Execution.conclude
  cases e.inFlight.nzResult <;> exact ⟨rfl, rfl⟩

/-- The operation pushes a byte where the program counter stands, or it does not push one. -/
theorem perform {opcode : UInt8} (irqVector : UInt16) (hs : e.regs.s = s)
    (hpc : operandSize opcode = 0 → e.regs.pc = start)
    (hpushed : ((Descriptor.ofOpcode opcode).operation.perform (Descriptor.ofOpcode opcode).mode
      irqVector e).regs.s = s - 1) :
    ((Descriptor.ofOpcode opcode).operation.perform (Descriptor.ofOpcode opcode).mode
      irqVector e).regs.pc = start := by
  cases hmay : (Descriptor.ofOpcode opcode).operation.mayPushByte with
  | true =>
    rw [Operation.pc_perform hmay]
    exact hpc (operandSize_of_mayPushByte hmay)
  | false =>
    subst hs
    exact absurd hpushed (Operation.s_perform_ne hmay _ irqVector e)

/-- The work of the abandoned instruction keeps things as they are described, -/
theorem finishWork (irqVector : UInt16) (h : Redirected s start e.regs (some e.inFlight)) :
    Redirected s start (e.finishWork irqVector).regs (some (e.finishWork irqVector).inFlight) := by
  have hundone := h.undone e.inFlight rfl
  let d := Descriptor.ofOpcode e.inFlight.opcode
  have hperform (located : Execution β) (hregs : located.regs = e.regs)
      (hphase : e.inFlight.phase ≠ .retire) :
      Redirected s start ((d.operation.perform d.mode irqVector located).conclude d).regs
        (some ((d.operation.perform d.mode irqVector located).conclude d).inFlight) := by
    obtain ⟨hs, hpc⟩ := hundone hphase
    obtain ⟨hconcludeS, hconcludePc⟩ :=
      conclude_regs (d.operation.perform d.mode irqVector located) d
    refine of_retire rfl fun hpushed => ?_
    rw [hconcludeS] at hpushed
    rw [hconcludePc]
    exact perform irqVector (hregs ▸ hs) (hregs ▸ hpc) hpushed
  unfold Execution.finishWork
  cases hphase : e.inFlight.phase with
  | fetch | decode | resolveAddress => exact hperform (e.locateOperand d.mode) rfl (by simp [hphase])
  | operate => exact hperform e rfl (by simp [hphase])
  | updateFlags =>
    obtain ⟨hs, -⟩ := hundone (by simp [hphase])
    refine of_retire rfl fun hpushed => absurd hpushed ?_
    rw [(conclude_regs e _).1, hs]
    exact ne_sub_one s
  | retire => exact h

/-- While operand bytes are missing the stack pointer stays. -/
theorem fetchOperand (hmissing : e.inFlight.fetched.toNat < operandSize e.inFlight.opcode)
    (hphase : e.inFlight.phase ≠ .retire) (h : Redirected s start e.regs (some e.inFlight)) :
    Redirected s start e.fetchOperand.regs (some e.fetchOperand.inFlight) := by
  have hs : e.fetchOperand.regs.s = s := (h.undone e.inFlight rfl hphase).1
  refine ⟨fun hpushed => absurd (hs.symm.trans hpushed) (ne_sub_one s), fun flight hflight _ => ?_⟩
  obtain rfl := Option.mem_some.mp hflight
  have hopcode : operandSize e.fetchOperand.inFlight.opcode = operandSize e.inFlight.opcode := rfl
  exact ⟨hs, fun hnone => by omega⟩

/-- An interrupt saves three bytes or none. -/
theorem serve (vector : InterruptVector) (hs : e.regs.s = s) :
    Redirected s start (e.serve vector).regs (some (e.serve vector).inFlight) := by
  refine of_retire (by rw [Execution.serve_inFlight]) fun hpushed => absurd hpushed ?_
  unfold Execution.serve
  subst hs
  cases vector.line with
  | reset => exact ne_sub_one e.regs.s
  | nmi | irq =>
    change e.regs.s - 1 - 1 - 1 ≠ e.regs.s - 1
    grind

/-- and so does each of its cycles. -/
theorem resume (irqVector : UInt16) (h : Redirected s start e.regs (some e.inFlight)) :
    Redirected s start (e.resume irqVector).regs (some (e.resume irqVector).inFlight) := by
  cases hactivity : e.inFlight.activity with
  | interrupt vector =>
    simp only [Execution.resume, hactivity]
    split
    · next hserves => exact serve vector (h.undone e.inFlight rfl hserves.1).1
    · exact h
  | instruction =>
    cases hphase : e.inFlight.phase with
    | fetch | decode =>
      obtain ⟨next, hnext⟩ : ∃ next, (if e.inFlight.fetched.toNat < operandSize e.inFlight.opcode
          then e.fetchOperand else e) = next := ⟨_, rfl⟩
      have hredirected : Redirected s start next.regs (some next.inFlight) := by
        subst hnext
        split
        · next hmissing => exact h.fetchOperand hmissing (by simp [hphase])
        · exact h
      rw [Execution.resume_of_fetching irqVector hactivity (by simp [hphase]) hnext]
      split
      · exact hredirected.finishWork irqVector
      · exact hredirected
    | retire =>
      rw [Execution.resume_of_retire irqVector hphase]
      exact h
    | resolveAddress | operate | updateFlags =>
      simp only [Execution.resume, hactivity, hphase]
      exact h.finishWork irqVector

/-- A cycle goes on with what is in flight, or with nothing if the processor lacks the bus. -/
theorem cycle {c : Cpu β} {flight : InFlight} (hflight : c.inFlight = some flight)
    (h : Redirected s start c.regs c.inFlight) :
    Redirected s start c.cycle.2.regs c.cycle.2.inFlight ∧
      (c.Finishes c.cycle.2 ∨ ∃ next, c.cycle.2.inFlight = some next) := by
  cases hbus : Bus.cpuHasBus c.bus with
  | false =>
    rw [Cpu.cycle_of_stalled hbus]
    exact ⟨h, .inr ⟨flight, hflight⟩⟩
  | true =>
    let work : Execution β := ⟨c.regs, c.runMode, flight.spendCycle, c.port⟩
    have hstart : Redirected s start work.regs (some work.inFlight) := by
      refine ⟨h.unpushed, fun _ hspent hphase => ?_⟩
      obtain rfl := Option.mem_some.mp hspent
      exact h.undone flight hflight hphase
    have hresume := hstart.resume c.settings.irqVector
    rw [Cpu.cycle_of_inFlight hbus hflight]
    refine ⟨⟨hresume.unpushed, fun next hnext => ?_⟩, ?_⟩
    · have hnext : next ∈ if (work.resume c.settings.irqVector).inFlight.isDone then none
          else some (work.resume c.settings.irqVector).inFlight := hnext
      split at hnext
      · cases hnext
      · exact hresume.undone next hnext
    · exact (c.settle_cases _).imp_right fun hcontinues => ⟨_, hcontinues.inFlight⟩

end Redirected

end W65C02
