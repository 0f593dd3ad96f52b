import W65C02.Proofs.Bus.Stack
import W65C02.Proofs.Cpu.Atomic
import W65C02.Proofs.Cpu.Sequence
import W65C02.Proofs.Interrupt.Lines

/-!
# Into a routine and back

An interrupt, `BRK` and `JSR` save what their routine returns to, each in its own way, and `RTI` and
`RTS` undo it. Where the routine does nothing but return, two steps leave the processor as it was,
and the memory but for the cells of the saved bytes. The stack may wrap around, and so may the
program counter.
-/

namespace W65C02

open Memory

/-- What returning needs is pushed on the stack, the program counter first. -/
theorem Port.saveFrame_eq (port : Port Memory) (regs : Registers) (software : Bool) :
    port.saveFrame regs software =
      ⟨port.bus.pushAll regs.s [highByte regs.pc, lowByte regs.pc, regs.statusToPush software],
        port.lines⟩ := by
  have htwo : regs.s - 2 = regs.s - 1 - 1 := by grind
  rw [Port.saveFrame, htwo]
  rfl

namespace Execution

/-- RTI takes the status byte from the stack, then the program counter. -/
theorem returnFromInterrupt_eq (e : Execution Memory) :
    e.returnFromInterrupt =
      { e with
        regs := { e.regs.pullStatus (e.port.bus.read (stackAddress (e.regs.s + 1))) with
          s := e.regs.s + 3
          pc := wordOfBytes (e.port.bus.read (stackAddress (e.regs.s + 2)))
            (e.port.bus.read (stackAddress (e.regs.s + 3))) } } := by
  have htwo : e.regs.s + 2 = e.regs.s + 1 + 1 := by grind
  have hthree : e.regs.s + 3 = e.regs.s + 1 + 1 + 1 := by grind
  rw [htwo, hthree]
  rfl

/-- RTS takes the program counter from the stack and goes one byte further. -/
theorem returnFromSubroutine_eq (e : Execution Memory) :
    e.returnFromSubroutine =
      { e with
        regs := { e.regs with
          s := e.regs.s + 2
          pc := wordOfBytes (e.port.bus.read (stackAddress (e.regs.s + 1)))
            (e.port.bus.read (stackAddress (e.regs.s + 2))) + 1 } } := by
  have htwo : e.regs.s + 2 = e.regs.s + 1 + 1 := by grind
  rw [htwo]
  rfl

end Execution

namespace Cpu

variable {c : Cpu Memory}

/-- A step takes a number of cycles and ends at a boundary, with the processor running. -/
structure StepsTo (c : Cpu Memory) (cycles : ℕ) (regs : Registers) (memory : Memory) : Prop where
  /-- The step takes so many cycles. -/
  cycles : c.step.1 = cycles
  /-- The registers at the end. -/
  regs : c.step.2.regs = regs
  /-- The memory at the end. -/
  memory : c.step.2.bus = memory
  /-- Nothing is in flight any more. -/
  boundary : c.step.2.inFlight = none
  /-- The processor is not halted. -/
  running : c.step.2.runMode = .running

/-- An instruction steps to what it does at once. -/
theorem FetchesNext.stepsTo (h : c.FetchesNext) {operation : W65C02.Operation}
    {mode : AddressingMode} {cycles : UInt8}
    (hd : Descriptor.ofOpcode c.opcode = .plain operation mode cycles)
    (hbranch : operation.branchCycles = 0) {e : Execution Memory} (he : c.atOnce = e)
    (hrunning : e.runMode = .running) : c.StepsTo cycles.toNat e.regs e.port.bus := by
  subst he
  have hstep := step_of_fetchesNext h
  have hcycles := cyclesAtOnce_of_plain hd hbranch
  constructor
  · rw [hstep, hcycles]
  · rw [hstep]
    rfl
  · rw [hstep]
    rfl
  · rw [hstep]
    rfl
  · rw [hstep]
    exact hrunning

/-- The instruction with all of its bytes, at a known effective address. -/
def ready (c : Cpu Memory) (address : UInt16) : Execution Memory :=
  ⟨c.regsAfterFetch, c.runMode, { c.fetched with effectiveAddress := address }, c.port⟩

/-- RTI goes back to the saved program counter with the saved status. -/
theorem stepsTo_rti (h : c.FetchesNext) (hopcode : c.opcode = 0x40) :
    c.StepsTo 6
      { c.regs.pullStatus (c.bus.read (stackAddress (c.regs.s + 1))) with
        s := c.regs.s + 3
        pc := wordOfBytes (c.bus.read (stackAddress (c.regs.s + 2)))
          (c.bus.read (stackAddress (c.regs.s + 3))) }
      c.bus := by
  have hd : Descriptor.ofOpcode c.opcode = .plain .rti .implied 6 := by
    rw [hopcode]
    rfl
  have hatOnce : c.atOnce = (c.ready 0).returnFromInterrupt := by
    simp only [atOnce, hd]
    rfl
  rw [Execution.returnFromInterrupt_eq] at hatOnce
  exact h.stepsTo hd rfl hatOnce h.running

/-- RTS goes on behind the saved program counter. -/
theorem stepsTo_rts (h : c.FetchesNext) (hopcode : c.opcode = 0x60) :
    c.StepsTo 6
      { c.regs with
        s := c.regs.s + 2
        pc := wordOfBytes (c.bus.read (stackAddress (c.regs.s + 1)))
          (c.bus.read (stackAddress (c.regs.s + 2))) + 1 }
      c.bus := by
  have hd : Descriptor.ofOpcode c.opcode = .plain .rts .implied 6 := by
    rw [hopcode]
    rfl
  have hatOnce : c.atOnce = (c.ready 0).returnFromSubroutine := by
    simp only [atOnce, hd]
    rfl
  rw [Execution.returnFromSubroutine_eq] at hatOnce
  exact h.stepsTo hd rfl hatOnce h.running

/-- JSR saves the address of its last byte and goes to its operand. -/
theorem stepsTo_jsr (h : c.FetchesNext) (hopcode : c.opcode = 0x20) :
    c.StepsTo 6 { c.regs with s := c.regs.s - 2, pc := c.bus.word (c.regs.pc + 1) }
      (c.bus.pushAll c.regs.s [highByte (c.regs.pc + 2), lowByte (c.regs.pc + 2)]) := by
  have hd : Descriptor.ofOpcode c.opcode = .plain .jsr .absolute 6 := by
    rw [hopcode]
    rfl
  have hsize : operandSize c.opcode = 2 := by
    rw [hopcode]
    rfl
  have htarget : wordOfBytes c.fetched.operand.first c.fetched.operand.second =
      c.bus.word (c.regs.pc + 1) := by
    rw [fetched, hsize]
    rfl
  have hlast : c.regsAfterFetch.pc - 1 = c.regs.pc + 2 := by
    rw [regsAfterFetch, hsize]
    change c.regs.pc + 1 + 2 - 1 = c.regs.pc + 2
    grind
  have htwo : c.regs.s - 2 = c.regs.s - 1 - 1 := by grind
  have hatOnce : c.atOnce =
      ((c.ready (c.bus.word (c.regs.pc + 1))).pushWord (c.regs.pc + 2)).jump
        (c.bus.word (c.regs.pc + 1)) := by
    rw [← htarget, ← hlast]
    simp only [atOnce, hd]
    rfl
  rw [htwo]
  exact h.stepsTo hd rfl hatOnce h.running

/-- The memory when the way into the routine of an interrupt has saved what it returns to. -/
def framed (c : Cpu Memory) (pc : UInt16) (software : Bool) : Memory :=
  c.bus.pushAll c.regs.s [highByte pc, lowByte pc, c.regs.statusToPush software]

/-- The registers at the beginning of the routine of an interrupt. -/
def regsInRoutine (c : Cpu Memory) (target : UInt16) : Registers :=
  { (c.regs.withFlag Status.irqDisable true).withFlag Status.decimal false with
    s := c.regs.s - 3, pc := target }

/-- BRK saves the address behind its second byte and goes where the vector points. -/
theorem stepsTo_brk (h : c.FetchesNext) (hopcode : c.opcode = 0x00) :
    c.StepsTo 7 (c.regsInRoutine ((c.framed (c.regs.pc + 2) true).word c.settings.irqVector))
      (c.framed (c.regs.pc + 2) true) := by
  have hd : Descriptor.ofOpcode c.opcode = .plain .brk .immediate 7 := by
    rw [hopcode]
    rfl
  have hsize : operandSize c.opcode = 1 := by
    rw [hopcode]
    rfl
  have hnext : c.regsAfterFetch = { c.regs with pc := c.regs.pc + 2 } := by
    have htwo : c.regs.pc + 1 + UInt16.ofNat 1 = c.regs.pc + 2 := by
      rw [UInt16.add_assoc]
      rfl
    rw [regsAfterFetch, hsize, htwo]
  let returning : Execution Memory :=
    { c.ready 0 with regs := { c.regs with pc := c.regs.pc + 2 } }
  have hatOnce : c.atOnce = returning.interruptTo true c.settings.irqVector := by
    simp only [returning]
    rw [← hnext]
    simp only [atOnce, hd]
    rfl
  rw [Execution.interruptTo_eq, Port.saveFrame_eq] at hatOnce
  exact h.stepsTo hd rfl hatOnce h.running

/-- An interrupt saves the program counter and goes where its vector points. -/
theorem stepsTo_interrupt (hboundary : c.inFlight = none) (hwake : c.wake? = some .running)
    {line : Line} (hline : line ≠ .reset)
    (hnext : c.interrupts.lines.next (c.regs.flag Status.irqDisable) = some line) :
    c.StepsTo 7 (c.regsInRoutine ((c.framed c.regs.pc false).word (c.settings.vectorOf line)))
        (c.framed c.regs.pc false) ∧
      c.step.2.interrupts.lines = c.interrupts.lines.serve line := by
  have hstep := step_of_asked (fun _ => rfl) hboundary hwake hnext
  have hservice : c.service .running line = _ := Execution.serve_of_ne_reset _ _ hline
  rw [Execution.interruptTo_eq, Port.saveFrame_eq] at hservice
  rw [afterSequence, hservice] at hstep
  constructor
  · constructor <;> rw [hstep] <;> rfl
  · rw [hstep]
    rfl

/-- Two steps lead into a routine and back. -/
structure ReturnsTo (c : Cpu Memory) (into back : ℕ) (pc : UInt16) (saved : List UInt8) : Prop where
  /-- The way into the routine takes so many cycles. -/
  into : c.step.1 = into
  /-- The way back takes so many cycles. -/
  back : c.step.2.step.1 = back
  /-- The registers are what they were, but the program goes on elsewhere. -/
  regs : c.step.2.step.2.regs = { c.regs with pc }
  /-- Nothing is in flight, and the processor is not halted. -/
  boundary : c.step.2.step.2.inFlight = none ∧ c.step.2.step.2.runMode = .running
  /-- The saved bytes are in the cells from the stack pointer downwards. -/
  frame : ∀ (i : ℕ) (hi : i < saved.length),
    c.step.2.step.2.bus.read (frameCell c.regs.s i) = saved[i]
  /-- All other cells keep their bytes. -/
  others : ∀ address, (∀ i < saved.length, address ≠ frameCell c.regs.s i) →
    c.step.2.step.2.bus.read address = c.bus.read address

/-- Two steps that save some bytes and take them back return. -/
theorem StepsTo.returnsTo {into back : ℕ} {regs : Registers} {pc : UInt16} {saved : List UInt8}
    (hinto : c.StepsTo into regs (c.bus.pushAll c.regs.s saved))
    (hback : c.step.2.StepsTo back { c.regs with pc } (c.bus.pushAll c.regs.s saved))
    (hlength : saved.length ≤ 256) : c.ReturnsTo into back pc saved where
  into := hinto.cycles
  back := hback.cycles
  regs := hback.regs
  boundary := ⟨hback.boundary, hback.running⟩
  frame i hi := by
    rw [hback.memory]
    exact c.bus.read_pushAll c.regs.s hlength hi
  others address haddress := by
    rw [hback.memory]
    exact c.bus.read_pushAll_of_ne c.regs.s haddress

/-- The saved bytes are on the stack, one below another. -/
theorem read_framed (c : Cpu Memory) (pc : UInt16) (software : Bool) :
    (c.framed pc software).read (stackAddress c.regs.s) = highByte pc ∧
      (c.framed pc software).read (stackAddress (c.regs.s - 1)) = lowByte pc ∧
      (c.framed pc software).read (stackAddress (c.regs.s - 2)) =
        c.regs.statusToPush software := by
  have hread (i : ℕ) (hi : i < [highByte pc, lowByte pc, c.regs.statusToPush software].length) :=
    c.bus.read_pushAll c.regs.s (by simp) hi
  refine ⟨?_, hread 1 (by simp), hread 2 (by simp)⟩
  rw [← frameCell_zero]
  exact hread 0 (by simp)

/-- In a routine that is nothing but `RTI` interrupts are masked and decimal mode is off. It returns
to what its frame says, with the registers as they were before it. -/
theorem StepsTo.returnsTo_of_rti {into : ℕ} {pc : UInt16} {software : Bool} {vector : UInt16}
    (hinto : c.StepsTo into (c.regsInRoutine ((c.framed pc software).word vector))
      (c.framed pc software))
    (hunused : c.regs.flag Status.unused = true)
    (hreset : c.step.2.interrupts.lines.reset = false)
    (hnmi : c.step.2.interrupts.lines.nmi = false)
    (hrti : (c.framed pc software).read ((c.framed pc software).word vector) = 0x40) :
    c.ReturnsTo into 6 pc [highByte pc, lowByte pc, c.regs.statusToPush software] ∧
      c.step.2.regs.flag Status.irqDisable = true ∧ c.step.2.regs.flag Status.decimal = false := by
  have hmasked : c.step.2.regs.flag Status.irqDisable = true := by
    rw [hinto.regs]
    exact Registers.flag_irqDisable_enterRoutine c.regs
  have hbinary : c.step.2.regs.flag Status.decimal = false := by
    rw [hinto.regs]
    exact Registers.flag_decimal_enterRoutine c.regs
  have hnext : c.step.2.FetchesNext := by
    refine ⟨hinto.boundary, hinto.running, ?_⟩
    rw [hmasked, Lines.pending, hreset, hnmi]
    rfl
  have hopcode : c.step.2.opcode = 0x40 := by
    rw [opcode, hinto.memory, hinto.regs]
    exact hrti
  have hback := stepsTo_rti hnext hopcode
  have hone : c.regs.s - 3 + 1 = c.regs.s - 2 := by grind
  have htwo : c.regs.s - 3 + 2 = c.regs.s - 1 := by grind
  have hthree : c.regs.s - 3 + 3 = c.regs.s := by grind
  obtain ⟨hhigh, hlow, hstatus⟩ := c.read_framed pc software
  have hrestored : ({ (c.regsInRoutine ((c.framed pc software).word vector)).pullStatus
        (c.regs.statusToPush software) with s := c.regs.s, pc } : Registers) =
      { c.regs with pc } := by
    have hp := Registers.p_pullStatus_enterRoutine hunused software
    exact congrArg (fun p => ({ c.regs with pc, p } : Registers)) hp
  have hs : (c.regsInRoutine ((c.framed pc software).word vector)).s = c.regs.s - 3 := rfl
  rw [hinto.regs, hinto.memory, hs, hone, htwo, hthree, hhigh, hlow, hstatus,
    wordOfBytes_lowByte_highByte, hrestored] at hback
  exact ⟨hinto.returnsTo hback (by simp), hmasked, hbinary⟩

/-- A routine that is nothing but `RTS` returns behind the call. -/
theorem returnsTo_of_rts (h : c.FetchesNext) (hopcode : c.opcode = 0x20)
    (hrts : (c.bus.pushAll c.regs.s [highByte (c.regs.pc + 2), lowByte (c.regs.pc + 2)]).read
      (c.bus.word (c.regs.pc + 1)) = 0x60) :
    c.ReturnsTo 6 6 (c.regs.pc + 3) [highByte (c.regs.pc + 2), lowByte (c.regs.pc + 2)] := by
  let memory := c.bus.pushAll c.regs.s [highByte (c.regs.pc + 2), lowByte (c.regs.pc + 2)]
  have hinto := stepsTo_jsr h hopcode
  have hnext : c.step.2.FetchesNext := by
    refine ⟨hinto.boundary, hinto.running, ?_⟩
    rw [hinto.regs, step_of_fetchesNext h]
    exact h.unasked
  have hopcode' : c.step.2.opcode = 0x60 := by
    rw [opcode, hinto.memory, hinto.regs]
    exact hrts
  have hback := stepsTo_rts hnext hopcode'
  have hone : c.regs.s - 2 + 1 = c.regs.s - 1 := by grind
  have htwo : c.regs.s - 2 + 2 = c.regs.s := by grind
  have hbehind : c.regs.pc + 2 + 1 = c.regs.pc + 3 := by grind
  have hread (i : ℕ) (hi : i < [highByte (c.regs.pc + 2), lowByte (c.regs.pc + 2)].length) :=
    c.bus.read_pushAll c.regs.s (by simp) hi
  have hhigh : memory.read (stackAddress c.regs.s) = highByte (c.regs.pc + 2) := by
    rw [← frameCell_zero]
    exact hread 0 (by simp)
  have hlow : memory.read (stackAddress (c.regs.s - 1)) = lowByte (c.regs.pc + 2) :=
    hread 1 (by simp)
  rw [hinto.regs, hinto.memory] at hback
  simp only [memory, hone, htwo, hhigh, hlow, wordOfBytes_lowByte_highByte, hbehind] at hback
  exact hinto.returnsTo hback (by simp)

/-- The line whose request is served, if RESET is not pending. -/
def nextLine (c : Cpu Memory) : Line := if c.interrupts.lines.nmi then .nmi else .irq

/-- If RESET is not requested and something is pending, that is the line served next. -/
theorem next_eq_nextLine (hreset : c.interrupts.lines.reset = false)
    (hpending : c.interrupts.lines.pending (c.regs.flag Status.irqDisable) = true) :
    c.interrupts.lines.next (c.regs.flag Status.irqDisable) = some c.nextLine := by
  unfold Lines.pending at hpending
  unfold Lines.next nextLine
  rw [hreset] at hpending ⊢
  cases hnmi : c.interrupts.lines.nmi with
  | true => rfl
  | false =>
    rw [hnmi] at hpending
    exact if_pos hpending

/-- Routines that do nothing but return go unnoticed. -/
structure IsTransparent (c : Cpu Memory) : Prop where
  /-- An NMI or an IRQ whose routine is `RTI` returns to where it came. On the way the status is
  saved with bit 4 clear, and in the routine interrupts are masked and decimal mode is off. -/
  interrupt : c.runMode = .running ∨ c.runMode = .waiting → c.interrupts.lines.reset = false →
    c.interrupts.lines.pending (c.regs.flag Status.irqDisable) = true →
    (c.framed c.regs.pc false).read
      ((c.framed c.regs.pc false).word (c.settings.vectorOf c.nextLine)) = 0x40 →
    c.ReturnsTo 7 6 c.regs.pc
        [highByte c.regs.pc, lowByte c.regs.pc, c.regs.p &&& ~~~Status.brk] ∧
      c.step.2.regs.flag Status.irqDisable = true ∧ c.step.2.regs.flag Status.decimal = false
  /-- `BRK` with such a routine returns behind its second byte. The status is saved with bit 4 set.
  -/
  brk : c.FetchesNext → c.opcode = 0x00 →
    (c.framed (c.regs.pc + 2) true).read
      ((c.framed (c.regs.pc + 2) true).word c.settings.irqVector) = 0x40 →
    c.ReturnsTo 7 6 (c.regs.pc + 2)
        [highByte (c.regs.pc + 2), lowByte (c.regs.pc + 2), c.regs.p ||| Status.brk] ∧
      c.step.2.regs.flag Status.irqDisable = true ∧ c.step.2.regs.flag Status.decimal = false
  /-- `JSR` to a routine that is `RTS` returns behind the call, whose last byte has the address that
  is saved. -/
  subroutine : c.FetchesNext → c.opcode = 0x20 →
    (c.bus.pushAll c.regs.s [highByte (c.regs.pc + 2), lowByte (c.regs.pc + 2)]).read
      (c.bus.word (c.regs.pc + 1)) = 0x60 →
    c.ReturnsTo 6 6 (c.regs.pc + 3) [highByte (c.regs.pc + 2), lowByte (c.regs.pc + 2)]

/-- Whatever the registers, the memory and the settings are, routines that do nothing but return go
unnoticed. -/
theorem isTransparent_of_boundary (hboundary : c.inFlight = none)
    (hunused : c.regs.flag Status.unused = true) : c.IsTransparent where
  interrupt := by
    intro hmode hreset hpending hrti
    have hwake : c.wake? = some .running := by
      unfold wake?
      rcases hmode with hmode | hmode
      · rw [hmode]
      · simp only [hmode, Lines.anyActive_of_pending hpending, if_true]
    have hline : c.nextLine ≠ .reset := by
      unfold nextLine
      split <;> nofun
    obtain ⟨hinto, hlines⟩ :=
      stepsTo_interrupt hboundary hwake hline (next_eq_nextLine hreset hpending)
    have hserved : (c.interrupts.lines.serve c.nextLine).reset = false ∧
        (c.interrupts.lines.serve c.nextLine).nmi = false := by
      unfold nextLine
      cases hnmi : c.interrupts.lines.nmi with
      | true => exact ⟨hreset, rfl⟩
      | false => exact ⟨hreset, hnmi⟩
    rw [← hlines] at hserved
    have hstatus : c.regs.statusToPush false = c.regs.p &&& ~~~Status.brk :=
      Registers.statusToPush_of_unused hunused false
    rw [← hstatus]
    exact hinto.returnsTo_of_rti hunused hserved.1 hserved.2 hrti
  brk := by
    intro h hopcode hrti
    have hunasked := h.unasked
    simp only [Lines.pending, Bool.or_eq_false_iff] at hunasked
    have hlines : c.step.2.interrupts = c.interrupts := by
      rw [step_of_fetchesNext h]
      rfl
    rw [← hlines] at hunasked
    have hstatus : c.regs.statusToPush true = c.regs.p ||| Status.brk :=
      Registers.statusToPush_of_unused hunused true
    rw [← hstatus]
    exact (stepsTo_brk h hopcode).returnsTo_of_rti hunused hunasked.1.1 hunasked.1.2 hrti
  subroutine := returnsTo_of_rts

/-- A processor whose program and stack are at the ends of their ranges, with interrupts allowed.
The memory is filled with zeros but for the given bytes. -/
def atTheEdge (runMode : RunMode) (lines : Lines) (bytes : List (UInt16 × UInt8)) : Cpu Memory where
  settings := {}
  regs := { pc := 0xFFFF, s := 0, p := Status.unused ||| Status.decimal ||| Status.carry }
  runMode := runMode
  interrupts.lines := lines
  bus := bytes.foldl (fun m (address, value) => m.write address value) .zeros

/-- There a waiting processor is interrupted, `BRK` is executed, and a subroutine is called. -/
theorem isTransparent_atTheEdge :
    (∃ c, c = atTheEdge .waiting { nmi := true, irqSources := .ofList ["timer"] } [(0, 0x40)] ∧
      c.ReturnsTo 7 6 c.regs.pc
        [highByte c.regs.pc, lowByte c.regs.pc, c.regs.p &&& ~~~Status.brk]) ∧
    (∃ c, c = atTheEdge .running {} [(0, 0x40)] ∧
      c.ReturnsTo 7 6 (c.regs.pc + 2)
        [highByte (c.regs.pc + 2), lowByte (c.regs.pc + 2), c.regs.p ||| Status.brk]) ∧
    (∃ c, c = atTheEdge .running {} [(0xFFFF, 0x20), (0, 0x60), (0x60, 0x60)] ∧
      c.ReturnsTo 6 6 (c.regs.pc + 3)
        [highByte (c.regs.pc + 2), lowByte (c.regs.pc + 2)]) := by
  refine ⟨⟨_, rfl, ?_⟩, ⟨_, rfl, ?_⟩, ⟨_, rfl, ?_⟩⟩
  · have h := isTransparent_of_boundary (c := atTheEdge .waiting
      { nmi := true, irqSources := .ofList ["timer"] } [(0, 0x40)]) rfl (by decide)
    refine (h.interrupt (.inr rfl) rfl rfl ?_).1
    simp only [framed, pushAll, word, atTheEdge, List.foldl_cons, List.foldl_nil, read_write,
      read_zeros]
    decide
  · have h := isTransparent_of_boundary (c := atTheEdge .running {} [(0, 0x40)]) rfl (by decide)
    refine (h.brk ⟨rfl, rfl, by decide⟩ ?_ ?_).1
    · simp only [opcode, atTheEdge, List.foldl_cons, List.foldl_nil, read_write, read_zeros]
      decide
    · simp only [framed, pushAll, word, atTheEdge, List.foldl_cons, List.foldl_nil, read_write,
        read_zeros]
      decide
  · have h := isTransparent_of_boundary
      (c := atTheEdge .running {} [(0xFFFF, 0x20), (0, 0x60), (0x60, 0x60)]) rfl (by decide)
    refine h.subroutine ⟨rfl, rfl, by decide⟩ ?_ ?_
    · simp only [opcode, atTheEdge, List.foldl_cons, List.foldl_nil, read_write]
      decide
    · simp only [pushAll, word, atTheEdge, List.foldl_cons, List.foldl_nil, read_write, read_zeros]
      decide

end Cpu

end W65C02
