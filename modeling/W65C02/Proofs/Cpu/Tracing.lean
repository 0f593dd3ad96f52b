import W65C02.Proofs.Bus.Traced

/-!
# A processor whose accesses are recorded

A host runs a processor on a traced memory. It may switch recording on and off, forget what was
recorded and reach the memory behind the trace at any moment. The processor does not notice: it is
always where it would be over the memory alone. If every access since some moment is recorded, then
the record is the history of the memory from that moment on.
-/

namespace W65C02

namespace Cpu

/-- What a host does with a processor, whatever bus it is on. -/
inductive Operation where
  /-- It lets a number of cycles pass. -/
  | tick (budget : ℕ)
  /-- It runs to the end of an instruction or interrupt sequence. -/
  | step
  /-- It asks for attention on a line. -/
  | request (source : String) (line : Line)
  /-- It gives up a request on a line. -/
  | release (source : String) (line : Line)
  /-- It raises and lowers the NMI level. -/
  | pulseNmi (source : String)
  /-- It puts all lines to rest. -/
  | releaseAll
  /-- It acknowledges a request in place of the processor. -/
  | acknowledge (irqDisabled : Bool)
  /-- It gives the lines a recorded state. -/
  | restoreLines (state : LinesSnapshot)
  /-- It writes a register. -/
  | set (register : Register) (value : ℕ)
  /-- It resets the processor. -/
  | reset
  /-- It reads from the bus. -/
  | read (address : UInt16)
  /-- It writes to the bus. -/
  | write (address : UInt16) (value : UInt8)

section

variable {β γ : Type} [Bus β] [Bus γ] {S : Port β → Port γ → Prop} {c : Cpu β} {d : Cpu γ}

/-- The processor after an operation. A value that does not fit into a register is refused. -/
def operate (c : Cpu β) : Operation → Cpu β
  | .tick budget => c.tick budget
  | .step => c.step.2
  | .request source line => c.mapInterrupts (·.request source line)
  | .release source line => c.mapInterrupts (·.release source line)
  | .pulseNmi source => c.mapInterrupts (·.nmiPulse source)
  | .releaseAll => c.mapInterrupts (·.releaseAll)
  | .acknowledge irqDisabled => c.mapInterrupts fun i => (i.acknowledge c.settings irqDisabled).2
  | .restoreLines state => c.mapInterrupts (·.restore state)
  | .set register value =>
    match c.set register value with
    | .ok c => c
    | .error _ => c
  | .reset => c.reset
  | .read address => (c.withPort (·.read address)).2
  | .write address value => c.mapPort (·.write address value)

/-- Both processors accept a value for a register, or neither does. -/
theorem Matches.operate_set (h : c.Matches S d) (register : Register) (value : ℕ) :
    (c.operate (.set register value)).Matches S (d.operate (.set register value)) := by
  simp only [operate, set, h.regs]
  cases d.regs.set register value with
  | ok regs => exact ⟨h.settings, rfl, h.runMode, h.inFlight, h.counters, h.port⟩
  | error e => exact h

/-- Processors on buses that answer alike still match after an operation. -/
theorem Matches.operate (hS : Bus.Simulation S) (h : c.Matches S d) (operation : Operation) :
    (c.operate operation).Matches S (d.operate operation) := by
  cases operation with
  | tick budget => exact h.tick hS budget
  | step => exact (h.stepWithin hS stepLimit).2
  | request source line =>
    exact h.mapLines (f := (·.request source line)) hS (·.request source line) fun _ => rfl
  | release source line =>
    exact h.mapLines (f := (·.release source line)) hS (·.release source line) fun _ => rfl
  | pulseNmi source =>
    exact h.mapLines (f := (·.nmiPulse source)) hS (·.nmiPulse source) fun _ => rfl
  | releaseAll => exact h.mapLines (f := (·.releaseAll)) hS (fun _ => .idle) fun _ => rfl
  | acknowledge irqDisabled =>
    simp only [Cpu.operate, h.settings]
    refine h.mapLines hS
      (fun lines => (lines.next irqDisabled).elim lines lines.serve) fun interrupts => ?_
    unfold InterruptController.acknowledge
    cases interrupts.lines.next irqDisabled with
    | none => rfl
    | some line => rfl
  | restoreLines state =>
    exact h.mapLines (f := (·.restore state)) hS (fun _ => .ofSnapshot state) fun _ => rfl
  | set register value => exact h.operate_set register value
  | reset => exact h.reset hS
  | read address => exact h.withPort (hS.read_snd h.port)
  | write address value => exact h.mapPort (hS.write h.port)

end

/-- What a host does with a processor on a traced memory. -/
inductive TracedOperation where
  /-- It operates the processor. -/
  | operate (operation : Operation)
  /-- It switches recording on or off. -/
  | setRecording (recording : Bool)
  /-- It forgets what was recorded. -/
  | clear
  /-- It changes the memory behind the trace. -/
  | bypass (change : Memory → Memory)

namespace TracedOperation

/-- Whether an operation leaves recording switched on, keeps what was recorded, and does not bypass
the trace. -/
def keepsRecord : TracedOperation → Bool
  | .operate _ => true
  | .setRecording recording => recording
  | .clear | .bypass _ => false

end TracedOperation

/-- The processor after an operation. -/
def operateTraced (c : Cpu (Traced Memory)) : TracedOperation → Cpu (Traced Memory)
  | .operate operation => c.operate operation
  | .setRecording recording => { c with bus := c.bus.setRecording recording }
  | .clear => { c with bus := c.bus.clear }
  | .bypass change => { c with bus.inner := change c.bus.inner }

/-- What an operation does to a processor over the memory alone. -/
def operateUntraced (d : Cpu Memory) : TracedOperation → Cpu Memory
  | .operate operation => d.operate operation
  | .setRecording _ | .clear => d
  | .bypass change => { d with bus := change d.bus }

/-- The processor after a number of operations. -/
def traced (c : Cpu (Traced Memory)) (operations : List TracedOperation) : Cpu (Traced Memory) :=
  operations.foldl operateTraced c

/-- What a number of operations do to a processor over the memory alone. -/
def untraced (d : Cpu Memory) (operations : List TracedOperation) : Cpu Memory :=
  operations.foldl operateUntraced d

/-- The relation of a processor on a traced memory to one over the memory alone. -/
abbrev Traces (c : Cpu (Traced Memory)) (d : Cpu Memory) : Prop :=
  c.Matches (fun p q => p.untraced = q) d

variable {c : Cpu (Traced Memory)} {d : Cpu Memory} {image : Memory}

/-- A new processor on a traced memory traces a new one over the memory alone. -/
theorem Traces.create (settings : CpuSettings) (t : Traced Memory) :
    (Cpu.create settings t).Traces (Cpu.create settings t.inner) := by
  let unpowered : Cpu (Traced Memory) := { settings, regs := {}, bus := t }
  let alone : Cpu Memory := { settings, regs := {}, bus := t.inner }
  have hunpowered : unpowered.Traces alone := ⟨rfl, rfl, rfl, rfl, rfl, rfl⟩
  exact hunpowered.powerOn Traced.simulation

/-- Whatever the host does, the processor does not notice the trace. -/
theorem Traces.operateTraced (h : c.Traces d) (operation : TracedOperation) :
    (c.operateTraced operation).Traces (d.operateUntraced operation) := by
  cases operation with
  | operate operation => exact h.operate Traced.simulation operation
  | setRecording recording =>
    exact ⟨h.settings, h.regs, h.runMode, h.inFlight, h.counters, h.port⟩
  | clear => exact ⟨h.settings, h.regs, h.runMode, h.inFlight, h.counters, h.port⟩
  | bypass change =>
    have hmemory : c.bus.inner = d.bus := congrArg Port.bus h.port
    have hlines : c.interrupts.lines = d.interrupts.lines := congrArg Port.lines h.port
    refine ⟨h.settings, h.regs, h.runMode, h.inFlight, h.counters, ?_⟩
    change (⟨change c.bus.inner, c.interrupts.lines⟩ : Port Memory) = ⟨change d.bus, _⟩
    rw [hmemory, hlines]
    rfl

/-- Whatever is done to both, the one traces the other. -/
theorem Traces.traced (h : c.Traces d) (operations : List TracedOperation) :
    (c.traced operations).Traces (d.untraced operations) := by
  induction operations generalizing c d with
  | nil => exact h
  | cons first rest ih => exact ih (h.operateTraced first)

/-- As long as all accesses are recorded the record is the history of the memory. -/
theorem records_operateTraced (h : c.bus.Records image) {operation : TracedOperation}
    (hkeeps : operation.keepsRecord = true) : (c.operateTraced operation).bus.Records image := by
  have hport : c.port.bus.Records image := h
  cases operation with
  | operate operation =>
    -- Here the processor is compared with itself, on ports whose accesses are all recorded.
    have hsimulation := (Traced.recordsInvariant image).simulation
    exact ((Matches.refl hport).operate hsimulation operation).port.2
  | setRecording recording => exact ⟨hkeeps, h.history⟩
  | clear | bypass => cases hkeeps

/-- Operations that keep the record complete leave it complete. -/
theorem records_traced (h : c.bus.Records image) {operations : List TracedOperation}
    (hkeeps : ∀ operation ∈ operations, operation.keepsRecord = true) :
    (c.traced operations).bus.Records image := by
  induction operations generalizing c with
  | nil => exact h
  | cons first rest ih =>
    obtain ⟨hfirst, hrest⟩ := List.forall_mem_cons.mp hkeeps
    exact ih (records_operateTraced h hfirst) hrest

/-- Tracing a processor does not change what it does, and what is recorded is what it did. -/
structure IsTraced (c : Cpu (Traced Memory)) (d : Cpu Memory) : Prop where
  /-- The state of the processor is that of the one over the memory alone. -/
  snapshot : c.snapshot = d.snapshot
  /-- The memory is the same. -/
  memory : c.bus.inner = d.bus
  /-- As long as everything is recorded from an empty record on, the record is the history of the
  memory since then. -/
  history : c.bus.log = #[] → c.bus.recording = true → ∀ later : List TracedOperation,
    (∀ operation ∈ later, operation.keepsRecord = true) →
      Traced.IsHistory c.bus.inner (c.traced later).bus.log (c.traced later).bus.inner

/-- A processor that traces another is traced. -/
theorem Traces.isTraced (h : c.Traces d) : c.IsTraced d where
  snapshot := h.snapshot_eq Traced.simulation
  memory := congrArg Port.bus h.port
  history := by
    intro hempty hrecording later hkeeps
    have hrecords : c.bus.Records c.bus.inner := by
      refine ⟨hrecording, ?_⟩
      rw [hempty]
      exact .empty _
    exact (records_traced hrecords hkeeps).history

/-- From power-on, whatever the host does, a processor on a traced memory is where it would be over
the memory alone, and whenever everything has been recorded from an empty record on, the record is
the history of the memory since then. A trace that is empty before power-on records that too. -/
theorem isTraced_traced (settings : CpuSettings) (t : Traced Memory)
    (operations : List TracedOperation) :
    ((create settings t).traced operations).IsTraced
        ((create settings t.inner).untraced operations) ∧
      (t.log = #[] → t.recording = true →
        (∀ operation ∈ operations, operation.keepsRecord = true) →
          Traced.IsHistory t.inner ((create settings t).traced operations).bus.log
            ((create settings t).traced operations).bus.inner) := by
  refine ⟨((Traces.create settings t).traced operations).isTraced, ?_⟩
  intro hempty hrecording hkeeps
  have hrecords : t.Records t.inner := by
    refine ⟨hrecording, ?_⟩
    rw [hempty]
    exact .empty _
  have hcreated : (create settings t).bus.Records t.inner :=
    (Traced.recordsInvariant t.inner).create settings hrecords
  exact (records_traced hcreated hkeeps).history

/-- A host lets some cycles pass, in part without recording them, and then forgets all of them. -/
def forgotten : List TracedOperation :=
  [.operate (.tick 3), .setRecording false, .operate .step, .clear, .setRecording true]

/-- After that a non-maskable interrupt is served, a byte is written and the processor is reset. -/
def remembered : List TracedOperation :=
  [.operate (.pulseNmi "uart"), .operate (.tick 20), .operate (.write 0x0200 7), .operate .reset]

/-- The record of what is remembered is the history of the memory since the rest was forgotten. -/
theorem isTraced_forgotten :
    ∃ c : Cpu (Traced Memory), c = (create {} { inner := .zeros }).traced forgotten ∧
      c.snapshot = ((create {} Memory.zeros).untraced forgotten).snapshot ∧
      c.bus.log = #[] ∧ c.bus.recording = true ∧
      Traced.IsHistory c.bus.inner (c.traced remembered).bus.log
        (c.traced remembered).bus.inner := by
  obtain ⟨htraced, -⟩ := isTraced_traced {} { inner := .zeros } forgotten
  have hkeeps : ∀ operation ∈ remembered, operation.keepsRecord = true := by
    simp [remembered, TracedOperation.keepsRecord]
  exact ⟨_, rfl, htraced.snapshot, rfl, rfl, htraced.history rfl rfl remembered hkeeps⟩

end Cpu

end W65C02
